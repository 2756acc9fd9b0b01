import DeepBrainChain.OnlineProfile.EraRun

/-!
# The machines of the stashes

The fleet is what the counters of the pallet and the queue of its rewards follow: who owns a machine
and how many cards it has, what each stash holds, the counters of the system, and the machines that
wait for the reward of an era. `apply_fleet` says once what each operation does to it.
-/

namespace DeepBrainChain.OnlineProfile

open Lib GenericFunc Support Lib.Call StorageMap

/-- The fleet. The cards stand beside the owner of a machine. -/
@[ext] structure Fleet (A : Type) where
  card : MachineId → Option (A × Nat)
  holding : A → Holding
  gpus : Nat
  stakers : Nat
  now : Nat
  era : Nat
  queue : List MachineId

namespace Fleet

variable {A : Type} [LinearOrder A]

omit [LinearOrder A] in
def setCard (r : Fleet A) (m : MachineId) (o : Option (A × Nat)) : Fleet A :=
  { r with card := fun x => if x = m then o else r.card x }

def setHolding (r : Fleet A) (stash : A) (x : Holding) : Fleet A :=
  { r with holding := fun a => if a = stash then x else r.holding a }

def mapTotal (r : Fleet A) (stash : A) (f : SortedVec MachineId → SortedVec MachineId) : Fleet A :=
  r.setHolding stash { r.holding stash with total := f (r.holding stash).total }

/-- A machine with `gpuNum` cards comes online or goes offline. -/
def snapOnline (r : Fleet A) (m : MachineId) (stash : A) (gpuNum : Nat) (isOnline : Bool) :
    Fleet A :=
  let x := r.holding stash
  let online := if isOnline then x.online.addItem m else x.online.rmItem m
  { r.setHolding stash
      { x with online := online, gpus := saturatingChange u64Max x.gpus gpuNum isOnline } with
    gpus := saturatingChange u64Max r.gpus gpuNum isOnline
    stakers :=
      if isOnline then
        if online.length = 1 then saturatingAdd u64Max r.stakers 1 else r.stakers
      else if online.isEmpty then r.stakers - 1
      else r.stakers }

variable {r : Fleet A} {m : MachineId} {o : Option (A × Nat)} {stash : A}

omit [LinearOrder A] in
theorem setCard_same (h : r.card m = o) : r.setCard m o = r := by
  refine Fleet.ext (funext fun x => ?_) rfl rfl rfl rfl rfl rfl
  show (if x = m then o else r.card x) = r.card x
  split
  · next hx => rw [hx, h]
  · rfl

theorem setHolding_same {x : Holding} (h : x = r.holding stash) : r.setHolding stash x = r := by
  refine Fleet.ext rfl (funext fun a => ?_) rfl rfl rfl rfl rfl
  show (if a = stash then x else r.holding a) = r.holding a
  split
  · next ha => rw [ha, h]
  · rfl

omit [LinearOrder A] in
@[simp] theorem card_setCard_self : (r.setCard m o).card m = o := if_pos rfl

/-- What an event does to the fleet. A machine that comes or goes counts with the record it has
before, a verified one with its new hardware. -/
def Moves (r r' : Fleet A) : Label → Prop
  | .quiet => r' = r
  | .bond m => ∃ stash, r.card m = none ∧ m ∉ (r.holding stash).total ∧
    r' = (r.mapTotal stash (·.addItem m)).setCard m (some (stash, 0))
  | .online m => ∃ stash n, r.card m = some (stash, n) ∧ r' = r.snapOnline m stash n true
  | .verify hw => ∃ stash n, r.card hw.machineId = some (stash, n) ∧
    (r' = (r.setCard hw.machineId (some (stash, hw.gpuNum))).snapOnline hw.machineId stash hw.gpuNum
        true ∨ r' = r.setCard hw.machineId (some (stash, hw.gpuNum)))
  | .offline m => ∃ stash n, r.card m = some (stash, n) ∧ r' = r.snapOnline m stash n false
  | .exit m => ∃ stash n, r.card m = some (stash, n) ∧
    r' = (r.snapOnline m stash n false).setCard m none
  | .refuse m => ∃ stash n, r.card m = some (stash, n) ∧
    r' = (r.mapTotal stash (·.rmItem m)).setCard m none

def Chain : List Label → Fleet A → Fleet A → Prop
  | [], r, r' => r' = r
  | k :: ks, r, r' => ∃ r₁, r.Moves r₁ k ∧ Chain ks r₁ r'

theorem Chain.single {r r' : Fleet A} {k : Label} (h : r.Moves r' k) : Chain [k] r r' :=
  ⟨r', h, rfl⟩

def May (ks : List Label) (r r' : Fleet A) : Prop := r' = r ∨ Chain ks r r'

end Fleet

section

variable {A : Type} [LinearOrder A]

def MachineInfo.owned (i : MachineInfo A) : A × Nat := (i.machineStash, i.gpuNum)

def State.fleet (s : State A) : Fleet A where
  card m := (s.machine m).map MachineInfo.owned
  holding a := Holding.of (s.stashMachine a)
  gpus := s.grades.sysInfo.totalGpuNum
  stakers := s.grades.sysInfo.totalStaker
  now := s.now
  era := s.grades.eras.currentEra
  queue := s.rewards.allMachineIdSnap

variable {s s' s1 : State A} {m : MachineId} {i i' : MachineInfo A}

/-! ## Writes -/

theorem fleet_card (hi : s.machine m = some i) : s.fleet.card m = some (MachineInfo.owned i) := by
  show (s.machine m).map _ = _
  rw [hi]
  rfl

theorem fleet_putMachine (s : State A) (m : MachineId) (i : MachineInfo A) :
    (s.putMachine m i).fleet = s.fleet.setCard m (some (MachineInfo.owned i)) := by
  refine Fleet.ext (funext fun x => ?_) rfl rfl rfl rfl rfl rfl
  show ((s.machines.machinesInfo.insert m i).get x).map _ = if x = m then _ else _
  rw [get_insert]
  split
  · rfl
  · rfl

theorem fleet_rmInfo (s : State A) (m : MachineId) :
    (s.mapMachines (·.rmInfo m)).fleet = s.fleet.setCard m none := by
  refine Fleet.ext (funext fun x => ?_) rfl rfl rfl rfl rfl rfl
  show ((s.machines.machinesInfo.remove m).get x).map _ = if x = m then _ else _
  rw [get_remove]
  split
  · rfl
  · rfl

theorem fleet_putStashMachine (s : State A) (stash : A) (x : StashMachine) :
    (s.putStashMachine stash x).fleet = s.fleet.setHolding stash (Holding.of x) := by
  refine Fleet.ext rfl (funext fun a => ?_) rfl rfl rfl rfl rfl
  show Holding.of ((s.grades.stashMachines.insert stash x).getD a .zero) =
    if a = stash then _ else _
  rw [getD_insert]
  split
  · rfl
  · rfl

theorem fleet_keep (hc : s1.fleet.card m = some (MachineInfo.owned i)) :
    (s1.putMachine m i).fleet = s1.fleet :=
  (fleet_putMachine s1 m i).trans (Fleet.setCard_same hc)

theorem fleet_write (hi : s.machine m = some i) (k : MachineInfo.owned i' = MachineInfo.owned i)
    (h1 : s1.fleet = s.fleet) : (s1.putMachine m i').fleet = s.fleet := by
  refine (fleet_keep ?_).trans h1
  rw [h1, k]
  exact fleet_card hi

theorem fleet_mapMachines {f : Machines A → Machines A}
    (h : (f s.machines).machinesInfo = s.machines.machinesInfo) :
    (s.mapMachines f).fleet = s.fleet := by
  refine Fleet.ext (funext fun x => ?_) rfl rfl rfl rfl rfl rfl
  show ((f s.machines).machinesInfo.get x).map _ = _
  rw [h]
  rfl

theorem currentEra_onOnlineChanged (g : Eras A) (m : MachineId) (i : MachineInfo A) (b : Bool) :
    (g.onOnlineChanged m i b).currentEra = g.currentEra := by
  unfold Eras.onOnlineChanged
  simp only
  split
  · rfl
  · split
    · rfl
    · rfl

theorem currentEra_onRentChanged (g : Eras A) (m : MachineId) (i : MachineInfo A) (b : Bool) :
    (g.onRentChanged m i b).currentEra = g.currentEra := by
  unfold Eras.onRentChanged
  simp only
  split
  · rfl
  · rfl

theorem holding_putSnap (g : Grades A) (eras : Eras A) (stash : A) (x : StashMachine)
    (sys : SysInfoDetail) (a : A) :
    Holding.of ((g.putSnap eras stash x sys).stashMachines.getD a .zero) =
      if a = stash then Holding.of x else Holding.of (g.stashMachines.getD a .zero) := by
  show Holding.of ((g.stashMachines.insert stash x).getD a .zero) = _
  rw [getD_insert]
  split
  · rfl
  · rfl

omit [LinearOrder A] in
theorem stashMachines_adjust (g : Grades A) (gpuNum : Nat) :
    (g.adjustRentFeeDestroyPercent gpuNum).stashMachines = g.stashMachines := by
  unfold Grades.adjustRentFeeDestroyPercent
  rfl

theorem fleet_snapOnline (s : State A) (m : MachineId) (i : MachineInfo A) (b : Bool) :
    (s.snapOnline m i b).fleet = s.fleet.snapOnline m i.machineStash i.gpuNum b := by
  refine Fleet.ext rfl (funext fun a => ?_) rfl rfl rfl (currentEra_onOnlineChanged ..) rfl
  unfold State.fleet State.snapOnline State.mapGrades Grades.updateSnapOnOnlineChanged
  refine (holding_putSnap ..).trans ?_
  rw [stashMachines_adjust]
  rfl

theorem fleet_snapRent (s : State A) (m : MachineId) (i : MachineInfo A) (b : Bool) :
    (s.snapRent m i b).fleet = s.fleet := by
  refine Fleet.ext rfl (funext fun a => ?_) rfl rfl rfl (currentEra_onRentChanged ..) rfl
  refine (holding_putSnap ..).trans ?_
  split
  · next h =>
    rw [h]
    rfl
  · rfl

theorem fleet_updateRegionOnExit (s : State A) (i : MachineInfo A) :
    (s.mapMachines (·.updateRegionOnExit i)).fleet = s.fleet := by
  refine fleet_mapMachines ?_
  unfold Machines.updateRegionOnExit
  simp only
  split
  · rfl
  · rfl

/-- **Stakes, slashes and rewards do not touch the fleet.** -/
theorem blind_fleet : Blind (State.fleet (A := A)) where
  committee s c hc := Fleet.ext rfl rfl rfl rfl hc rfl rfl
  owners _ _ := rfl
  stakes _ _ := rfl
  slashes _ _ := rfl
  rewards s f hf := Fleet.ext rfl rfl rfl rfl rfl rfl (hf _)
  sysInfo s f hf := Fleet.ext rfl rfl (hf _).1 (hf _).2 rfl rfl rfl
  stash s s1 a x hx h := by
    rw [fleet_putStashMachine, ← h]
    refine Fleet.setHolding_same (hx.trans ?_)
    exact (congrFun (congrArg Fleet.holding h) a).symm
  machine s s1 m i i' hi k h := by
    exact fleet_write hi (Prod.ext k.stash k.gpuNum) h

/-! ## Operations that leave the fleet alone -/

theorem moveMachine_fleet (m : MachineId) (status : MachineStatus A) (f : LiveMachine → LiveMachine)
    (r : Fleet A) : Keeps (Shows State.fleet r) (moveMachine m status f) := by
  refine .get fun s hs => .okOr fun i hi => .set ?_
  exact Eq.trans (fleet_write hi rfl rfl) hs

theorem addMachineInfo_fleet {controller : A} {info : StakerCustomizeInfo} {u : Unit}
    (h : (addMachineInfo controller m info).run s = (.ok u, s')) : s'.fleet = s.fleet := by
  obtain ⟨i, s1, hi, h1, rfl⟩ := addMachineInfo_ok h
  have hf := blind_fleet.unnoticed h1
  exact fleet_write hi rfl hf

theorem updateMachineInfo_fleet (controller : A) (m : MachineId) (info : StakerCustomizeInfo)
    (r : Fleet A) : Keeps (Shows State.fleet r) (updateMachineInfo controller m info) := by
  refine .get fun s hs => .okOr fun i hi => .guard <| ?_
  refine .guard <| .guard <| .guard <| ?_
  exact .set (Eq.trans (fleet_write hi rfl rfl) hs)

/-! ## Operations that move a machine -/

section Moves

variable {u : Unit}

variable {controller : A} {l : List MachineId}

theorem bondMachine_fleet {crypto : Crypto A} {msg sig : Bytes}
    (h : (bondMachine crypto controller m msg sig).run s = (.ok u, s')) :
    ∃ stash, s.owners.controllerStash.get controller = some stash ∧ s.machine m = none ∧
      m ∉ (s.fleet.holding stash).total ∧
      s'.fleet = (s.fleet.mapTotal stash (·.addItem m)).setCard m (some (stash, 0)) := by
  obtain ⟨stash, amount, s1, hstash, hm, htotal, h1, rfl⟩ := bondMachine_ok h
  refine ⟨stash, hstash, hm, htotal, ?_⟩
  rw [← blind_fleet.unnoticed h1]
  refine (fleet_putMachine _ _ _).trans (congrArg (fun r => Fleet.setCard r m _) ?_)
  exact fleet_putStashMachine s1 stash _

theorem fulfillMachine_fleet (h : (fulfillMachine controller m).run s = (.ok u, s')) :
    s.fleet.Moves s'.fleet (.online m) := by
  obtain ⟨i, need, deadline, s1, hi, -, h1, rfl⟩ := fulfillMachine_ok h
  have hc := fleet_card hi
  refine ⟨i.machineStash, i.gpuNum, hc, ?_⟩
  rw [← blind_fleet.unnoticed h1] at hc ⊢
  have hsnap := fleet_snapOnline s1 m i true
  refine Eq.trans (fleet_keep ?_) hsnap
  exact (congrFun (congrArg Fleet.card hsnap) m).trans hc

theorem offline_fleet {status : MachineStatus A} (hi : s.machine m = some i) (s1 : State A)
    (h1 : s1.fleet = s.fleet) :
    s.fleet.Moves (((s1.regionOnline i false).snapOnline m i false).putMachine m
      (i.setStatus status)).fleet (.offline m) := by
  have hc := fleet_card hi
  refine ⟨i.machineStash, i.gpuNum, hc, ?_⟩
  rw [← h1] at hc ⊢
  have hsnap := fleet_snapOnline (s1.regionOnline i false) m i false
  refine Eq.trans (fleet_keep ?_) hsnap
  exact (congrFun (congrArg Fleet.card hsnap) m).trans hc

theorem machineOffline_fleet (m : MachineId) (status : MachineStatus A) (s : State A) :
    Post (machineOffline m status) s (fun _ s' => s.fleet.Moves s'.fleet (.offline m))
      (fun _ s' => s' = s) := by
  unfold machineOffline
  simp only [post_step]
  refine ⟨fun i hi => offline_fleet hi _ ?_, fun _ => trivial⟩
  split
  · exact fleet_snapRent ..
  · rfl

theorem controllerReportOffline_fleet
    (h : (controllerReportOffline controller m).run s = (.ok u, s')) :
    s.fleet.Moves s'.fleet (.offline m) := by
  unfold controllerReportOffline at h
  simp only [run_ok] at h
  obtain ⟨i, -, -, -, hoff⟩ := h
  exact (machineOffline_fleet m _ s).ok hoff

theorem offlineMachineChangeHardwareInfo_fleet
    (h : (offlineMachineChangeHardwareInfo controller m).run s = (.ok u, s')) :
    s.fleet.Moves s'.fleet (.offline m) := by
  obtain ⟨i, x, s1, hi, -, h1, rfl⟩ := offlineMachineChangeHardwareInfo_ok h
  have hf := blind_fleet.unnoticed h1
  exact offline_fleet hi (s1.putMutHardware i.machineStash m _) hf

theorem reonline_fleet (h1 : s1.fleet = s.fleet) (hi : s.machine m = some i)
    (k : MachineInfo.owned i' = MachineInfo.owned i) :
    s.fleet.Moves (s1.reonline m i i').fleet (.online m) := by
  have hc := fleet_card hi
  refine ⟨i.machineStash, i.gpuNum, hc, ?_⟩
  rw [← h1] at hc ⊢
  have hsnap := fleet_snapOnline s1 m i true
  have hback : ∀ s2 : State A, s2.fleet = (s1.snapOnline m i true).fleet →
      (s2.putMachine m i').fleet = s1.fleet.snapOnline m i.machineStash i.gpuNum true := by
    intro s2 h2
    refine (fleet_keep ?_).trans (h2.trans hsnap)
    rw [h2, hsnap, k]
    exact hc
  unfold State.reonline
  refine hback _ ?_
  split
  · exact fleet_snapRent (((s1.snapOnline m i true).regionOnline i' true).mapLive _) m i true
  · rfl

theorem controllerReportOnline_fleet
    (h : (controllerReportOnline controller m).run s = (.ok u, s')) :
    s' = s ∨ s.fleet.Moves s'.fleet (.online m) := by
  refine (controllerReportOnline_ok h).imp_right ?_
  rintro ⟨i, offline, s1, hi, -, h1, rfl⟩
  exact reonline_fleet (blind_fleet.unnoticed h1) hi rfl

theorem doMachineExit_fleet (hi : s.machine m = some i)
    (h : (doMachineExit m i).run s = (.ok u, s')) : s.fleet.Moves s'.fleet (.exit m) := by
  obtain ⟨s1, h1, rfl⟩ := doMachineExit_ok h
  refine ⟨i.machineStash, i.gpuNum, fleet_card hi, ?_⟩
  rw [← blind_fleet.unnoticed h1, ← fleet_updateRegionOnExit s1 i]
  refine (fleet_rmInfo _ m).trans (congrArg (fun r => Fleet.setCard r m none) ?_)
  exact fleet_snapOnline (s1.mapMachines (·.updateRegionOnExit i)) m i false

theorem machineExit_fleet (h : (machineExit controller m).run s = (.ok u, s')) :
    s.fleet.Moves s'.fleet (.exit m) := by
  unfold machineExit at h
  simp only [run_ok] at h
  obtain ⟨i, hi, -, -, -, -, hexit⟩ := h
  exact doMachineExit_fleet hi hexit

theorem forceExits_fleet (h : (forEach l forceExitOne).run s = (.ok u, s')) :
    Fleet.Chain (l.map .exit) s.fleet s'.fleet := by
  induction l generalizing s with
  | nil =>
    cases h
    rfl
  | cons m l ih =>
    rw [forEach_cons, run_bind_ok] at h
    obtain ⟨_, s1, hexit, hrest⟩ := h
    unfold forceExitOne at hexit
    simp only [run_ok] at hexit
    obtain ⟨i, hi, hexit⟩ := hexit
    exact ⟨s1.fleet, doMachineExit_fleet hi hexit, ih hrest⟩

theorem forceMachineExit_fleet {signer : A} (h : (forceMachineExit signer l).run s = (.ok u, s')) :
    Fleet.Chain (l.map .exit) s.fleet s'.fleet := by
  unfold forceMachineExit at h
  simp only [run_ok] at h
  exact forceExits_fleet h.2

theorem confirmMachine_fleet (committee : List A) (hw : CommitteeUploadInfo) (s : State A) :
    Post (confirmMachine committee hw) s
      (fun _ s' => s.fleet.Moves s'.fleet (.verify hw)) (fun _ s' => s' = s) := by
  refine confirmMachine_rule committee hw fun i s1 isReonline hi h1 => ?_
  rw [← blind_fleet.unnoticed h1]
  have hc : s1.fleet.card hw.machineId = some (i.machineStash, i.gpuNum) := by
    rw [blind_fleet.unnoticed h1]
    exact fleet_card hi
  refine ⟨fun need => ⟨i.machineStash, i.gpuNum, hc, .inl ?_⟩, fun time =>
    ⟨i.machineStash, i.gpuNum, hc, .inr (fleet_putMachine ..)⟩⟩
  refine (fleet_putMachine ..).trans ?_
  unfold State.regionOnline
  rw [fleet_snapOnline]
  cases isReonline <;> rfl

theorem refuseMachine_fleet (committee : List A) (m : MachineId) (s : State A) :
    Post (refuseMachine committee m) s
      (fun _ s' => s.fleet.Moves s'.fleet (.refuse m)) (fun _ s' => s'.fleet = s.fleet) := by
  refine refuseMachine_rule committee m rfl (fun i s1 _ h1 => (blind_fleet.unnoticed h1).trans rfl)
    fun i s1 hi h1 => ⟨i.machineStash, i.gpuNum, fleet_card hi, ?_⟩
  rw [← blind_fleet.unnoticed h1]
  refine (fleet_rmInfo _ m).trans (congrArg (fun r => Fleet.setCard r m none) ?_)
  exact fleet_putStashMachine s1 i.machineStash _

theorem mtMachineOffline_fleet (reporter : A) (committee : List A) (m : MachineId)
    (fault : OPSlashReason) (s : State A) :
    Post (mtMachineOffline reporter committee m fault) s
      (fun _ s' => s.fleet.Moves s'.fleet (.offline m)) (fun _ s' => s' = s) := by
  unfold mtMachineOffline
  simp only [post_step]
  exact ⟨fun i _ => machineOffline_fleet m _ s, fun _ => trivial⟩

end Moves

variable {α ε : Type} {ks : List Label}

theorem dispatch_fleet {c : Call (State A) ε α}
    (h : ∀ a s', c.run s = (.ok a, s') → Fleet.May ks s.fleet s'.fleet) :
    Fleet.May ks s.fleet (c.dispatch s).2.fleet :=
  dispatch_keeps (I := fun s' : State A => Fleet.May ks s.fleet s'.fleet) (.inl rfl) h

theorem dispatch_moored {c : Call (State A) ε α}
    (h : ∀ r, Keeps (Shows State.fleet r) c) : Fleet.May ks s.fleet (c.dispatch s).2.fleet :=
  dispatch_fleet fun _ _ hr => .inl ((h s.fleet s rfl).ok hr)

theorem run_fleet {c : Call (State A) ε α} {k : Label}
    (h : Post c s (fun _ s' => s.fleet.Moves s'.fleet k) (fun _ s' => s' = s)) :
    Fleet.May [k] s.fleet (c.run s).2.fleet := by
  refine Post.storage (I := fun s' => Fleet.May [k] s.fleet s'.fleet)
    (h.mono (fun _ _ hm => .inr (.single hm)) ?_)
  rintro _ _ rfl
  exact .inl rfl

/-- **What an operation does to the fleet.** -/
theorem apply_fleet (crypto : Crypto A) (s : State A) (op : Op A) :
    Fleet.May op.chain s.fleet (apply crypto s op).fleet := by
  by_cases hop : op.unseen true = true
  · exact .inl (blind_fleet.apply crypto hop)
  cases op with
  | setRewardInfo i => exact .inl rfl
  | setRentfeeDestroyPercent percent => exact .inl rfl
  | bondMachine controller m msg sig =>
    refine dispatch_fleet fun _ _ hr => ?_
    obtain ⟨stash, -, hm, htotal, he⟩ := bondMachine_fleet hr
    refine .inr (.single ⟨stash, ?_, htotal, he⟩)
    show (s.machine m).map _ = none
    rw [hm]
    rfl
  | addMachineInfo controller m info =>
    exact dispatch_fleet fun _ _ hr => .inl (addMachineInfo_fleet hr)
  | updateMachineInfo controller m info =>
    exact dispatch_moored (updateMachineInfo_fleet controller m info)
  | fulfillMachine controller m =>
    exact dispatch_fleet fun _ _ hr => .inr (.single (fulfillMachine_fleet hr))
  | controllerReportOffline controller m =>
    exact dispatch_fleet fun _ _ hr => .inr (.single (controllerReportOffline_fleet hr))
  | offlineMachineChangeHardwareInfo controller m =>
    exact dispatch_fleet fun _ _ hr => .inr (.single (offlineMachineChangeHardwareInfo_fleet hr))
  | controllerReportOnline controller m =>
    refine dispatch_fleet fun _ _ hr => ?_
    rcases controllerReportOnline_fleet hr with rfl | hm
    · exact .inl rfl
    · exact .inr (.single hm)
  | machineExit controller m =>
    exact dispatch_fleet fun _ _ hr => .inr (.single (machineExit_fleet hr))
  | forceMachineExit signer l =>
    exact dispatch_fleet fun _ _ hr => .inr (forceMachineExit_fleet hr)
  | bookedMachine m => exact .inl ((moveMachine_fleet m _ _ s.fleet).run rfl)
  | revertBookedMachine m => exact .inl ((moveMachine_fleet m _ _ s.fleet).run rfl)
  | confirmMachine committee hw => exact run_fleet (confirmMachine_fleet committee hw s)
  | refuseMachine committee m =>
    exact Post.storage (I := fun s' : State A => Fleet.May [.refuse m] s.fleet s'.fleet)
      ((refuseMachine_fleet committee m s).mono (fun _ _ hm => .inr (.single hm))
        fun _ _ he => .inl he)
  | mtMachineOffline reporter committee m fault =>
    exact run_fleet (mtMachineOffline_fleet reporter committee m fault s)
  | addOfflineMachineToRenters m renters => exact .inl rfl
  | _ => exact absurd rfl hop

/-! ## Reports of rent-machine and the start of a block -/

theorem changeMachineStatusOnRentStart_fleet (m : MachineId) (gpuNum : Nat) (r : Fleet A) :
    Keeps (Shows State.fleet r) (changeMachineStatusOnRentStart m gpuNum) := by
  refine .get fun s hs => .okOr fun i hi => .set ?_
  refine Eq.trans (fleet_mapMachines rfl) (Eq.trans (fleet_write hi rfl rfl) hs)

theorem changeMachineStatusOnConfirmed_fleet (m : MachineId) (renter : A) (r : Fleet A) :
    Keeps (Shows State.fleet r) (changeMachineStatusOnConfirmed m renter) := by
  refine .get fun s hs => .okOr fun i hi => .set ?_
  refine Eq.trans (fleet_write hi rfl ?_) hs
  split
  · rfl
  · exact fleet_snapRent ..

theorem changeMachineStatusOnRentEnd_fleet (m : MachineId) (gpuNum duration : Nat)
    (last lastOfRenter : Bool) (renter : A) (r : Fleet A) :
    Keeps (Shows State.fleet r)
      (changeMachineStatusOnRentEnd m gpuNum duration last lastOfRenter renter) := by
  refine .get fun s hs => .okOr fun i hi => ?_
  refine .ite (Keeps.pure ()) (Keeps.ite ?_ (Keeps.ite ?_ ?_))
  · exact .set (Eq.trans (fleet_write hi rfl (fleet_mapMachines rfl)) hs)
  · exact .set (Eq.trans (fleet_write hi rfl (fleet_snapRent s m i false)) hs)
  · exact .set (Eq.trans (fleet_write hi rfl (fleet_mapMachines rfl)) hs)

theorem changeMachineStatusOnConfirmExpired_fleet (m : MachineId) (gpuNum : Nat) (r : Fleet A) :
    Keeps (Shows State.fleet r) (changeMachineStatusOnConfirmExpired (A := A) m gpuNum) := by
  refine .get fun s hs => ?_
  have hback : Keeps (Shows State.fleet r) (modify fun s1 : State A => s1.mapMachines fun x =>
      x.setRentedGpu m (s.machines.rentedGpu m - gpuNum) : Call (State A) Unit Unit) :=
    Keeps.modify fun s1 h1 => Eq.trans (fleet_mapMachines rfl) h1
  refine .ite (Keeps.okOr fun i hi => .bind ?_ fun _ => hback) hback
  exact .modify fun s1 h1 => Eq.trans (fleet_write hi rfl (h1.trans hs.symm)) hs

/-- **The reports of rent-machine** leave the fleet alone. -/
theorem applyRent_fleet (s : State A) (op : RentOp A) : (applyRent s op).fleet = s.fleet := by
  cases op with
  | rentStart m gpuNum => exact (changeMachineStatusOnRentStart_fleet m gpuNum s.fleet).run rfl
  | confirmed m renter => exact (changeMachineStatusOnConfirmed_fleet m renter s.fleet).run rfl
  | rentEnd m gpuNum duration lastOfMachine lastOfRenter renter =>
    exact (changeMachineStatusOnRentEnd_fleet m gpuNum duration lastOfMachine lastOfRenter renter
      s.fleet).run rfl
  | confirmExpired m gpuNum =>
    exact (changeMachineStatusOnConfirmExpired_fleet m gpuNum s.fleet).run rfl
  | rentFee stash m toDestroy toStash =>
    exact (blind_fleet.record.changeMachineRentFee stash m toDestroy toStash).run rfl

/-- The machines that `distribute_reward_to_machine` is called for in the block `s.now`, each with
the era whose reward is released. -/
def State.rewardCalls (s : State A) : List (MachineId × Nat) :=
  if 3 ≤ s.now % oneDay ∧ s.now % oneDay ≤ 62 then
    (s.rewards.allMachineIdSnap.take (s.rewards.snapLen / 60 + 1)).map
      (·, s.grades.eras.currentEra - 1)
  else []

/-- `backup_and_reward` makes these calls, and none besides. -/
theorem backupAndReward_calls (h : s.now % oneDay ≠ 2) :
    s.backupAndReward = (s.rewardCalls.foldl (fun s1 k => State.distributeRewardToMachine k.2
      (s.rewards.eraReward.getD k.2 0) (s.grades.eras.machinePoints k.2)
      (s.grades.eras.stashPoints k.2) s1 k.1) s).mapRewards fun r =>
        r.setSnap (s.rewards.allMachineIdSnap.drop s.rewardCalls.length) r.snapLen := by
  unfold State.backupAndReward State.rewardCalls
  simp only [if_neg h]
  split
  · rw [List.foldl_map, List.length_map, List.length_take, ← List.drop_eq_drop_min]
  · rfl

/-- The machines that the stashes list as theirs. -/
def State.bonded (s : State A) : List MachineId :=
  s.grades.stashMachines.iter.flatMap fun e => e.2.totalMachine.toList

/-- The fleet after the start of a block: an era may start, and the queue is filled in the second
block of an era and paid out after that. -/
def State.nextFleet (s : State A) : Fleet A :=
  { s.fleet with
    era := if s.now % oneDay = 1 then s.fleet.era + 1 else s.fleet.era
    queue := if s.now % oneDay = 2 then s.bonded
      else s.fleet.queue.drop s.rewardCalls.length }

theorem backupAndReward_fleet (s : State A) : s.backupAndReward.fleet =
    { s.fleet with queue := if s.now % oneDay = 2 then s.bonded
      else s.fleet.queue.drop s.rewardCalls.length } := by
  by_cases h : s.now % oneDay = 2
  · unfold State.backupAndReward
    simp only [if_pos h]
    rfl
  · rw [backupAndReward_calls h, if_neg h]
    have hpaid : Shows State.fleet s.fleet (s.rewardCalls.foldl (fun s1 k =>
        State.distributeRewardToMachine k.2 (s.rewards.eraReward.getD k.2 0)
          (s.grades.eras.machinePoints k.2) (s.grades.eras.stashPoints k.2) s1 k.1) s) :=
      foldl_keeps (fun s1 k h => blind_fleet.distributeRewardToMachine _ _ _ _ s1 _ h) _ rfl
    exact congrArg (fun r => { r with queue := s.fleet.queue.drop s.rewardCalls.length }) hpaid

omit [LinearOrder A] in
theorem currentEra_startEra (g : Eras A) : g.startEra.currentEra = g.currentEra + 1 := by
  unfold Eras.startEra
  simp only
  split
  · rfl
  · rfl

theorem newEra_fleet (s : State A) : s.newEra.fleet = { s.fleet with era := s.fleet.era + 1 } :=
  Fleet.ext rfl rfl rfl rfl rfl (currentEra_startEra s.grades.eras) rfl

/-- **What the start of a block does to the fleet.** -/
theorem onInitialize_fleet (s : State A) : s.onInitialize.fleet = s.nextFleet := by
  have hnow : s.backupAndReward.now = s.now := (backupAndReward_quiet s).now
  have hpaid := backupAndReward_fleet s
  refine blind_fleet.pendingSlashes ?_
  unfold State.nextFleet
  rw [hnow]
  split
  · exact (newEra_fleet _).trans (congrArg (fun r => { r with era := r.era + 1 }) hpaid)
  · exact hpaid

/-! ## Runs -/

def applyBlock (crypto : Crypto A) (s : State A) : EraOp A → State A
  | .profile op => apply crypto s op
  | .rental op => applyRent s op
  | .nextBlock => s.tick.onInitialize

/-- online-profile from its empty storage on, with the hook at the start of every block. -/
def blockSystem (crypto : Crypto A) : System (State A) (EraOp A) where
  init s := ∃ c, s = .fresh c
  step s op s' := s' = applyBlock crypto s op

end

/-! # The counters of cards and stakers

A stash counts the cards of its machines that are online, and the system counts the cards of all
stashes and the stashes with a machine online. Events add and subtract without looking at what is
counted. -/

open SortedVec List

def Holding.staker (x : Holding) : Nat := if x.online.isEmpty then 0 else 1

def Holding.zero : Holding := Holding.of .zero

section

variable {A : Type} [LinearOrder A]

def Fleet.gpusOf (r : Fleet A) (m : MachineId) : Nat := ((r.card m).map Prod.snd).getD 0

/-- The counters of every stash are right, and its machines that are online are its own. -/
structure Fleet.Counted (r : Fleet A) : Prop where
  owner : ∀ {a m}, m ∈ (r.holding a).online → ∃ n, r.card m = some (a, n)
  gpus : ∀ a, (r.holding a).gpus = ((r.holding a).online.toList.map r.gpusOf).sum

/-- The counters of the system are sums over the stashes. -/
def Fleet.Totalled (r : Fleet A) : Prop :=
  ∃ h : StorageMap A Holding, (∀ a, h.getD a .zero = r.holding a) ∧
    r.gpus = h.sum (fun _ x => x.gpus) ∧ r.stakers = h.sum (fun _ x => x.staker)

def Label.Counts (r : Fleet A) : Label → Prop
  | .online m => ∀ stash n, r.card m = some (stash, n) → m ∉ (r.holding stash).online ∧
      r.gpus + n ≤ u64Max ∧ r.stakers < u64Max
  | .verify hw => ∀ stash n, r.card hw.machineId = some (stash, n) →
      hw.machineId ∉ (r.holding stash).online ∧ r.gpus + hw.gpuNum ≤ u64Max ∧ r.stakers < u64Max
  | .offline m | .exit m => ∀ stash n, r.card m = some (stash, n) → m ∈ (r.holding stash).online
  | .refuse m => ∀ stash n, r.card m = some (stash, n) → m ∉ (r.holding stash).online
  | _ => True

section Fleet

variable {r r' : Fleet A} {m : MachineId} {o : Option (A × Nat)} {stash : A} {n : Nat}

/-! ## Records -/

section

omit [LinearOrder A]

theorem Fleet.gpusOf_eq (hc : r.card m = some (stash, n)) : r.gpusOf m = n := by
  unfold Fleet.gpusOf
  rw [hc]
  rfl

theorem Fleet.gpusOf_setCard {m' : MachineId} (h : m' ≠ m) :
    (r.setCard m o).gpusOf m' = r.gpusOf m' := by
  unfold Fleet.gpusOf Fleet.setCard
  simp only [if_neg h]

/-- A machine that its owner does not count as online is not counted by anybody. -/
theorem Fleet.Counted.uncounted (h : r.Counted) (hc : r.card m = some (stash, n))
    (hm : m ∉ (r.holding stash).online) (a : A) : m ∉ (r.holding a).online := by
  intro ha
  obtain ⟨n', hn'⟩ := h.owner ha
  rw [hc] at hn'
  cases hn'
  exact hm ha

theorem Fleet.Counted.setCard (h : r.Counted) (hm : ∀ a, m ∉ (r.holding a).online) :
    (r.setCard m o).Counted := by
  have hne : ∀ {a m'}, m' ∈ (r.holding a).online → m' ≠ m := by
    rintro a m' hm' rfl
    exact hm a hm'
  refine ⟨fun {a m'} hm' => ?_, fun a => ?_⟩
  · obtain ⟨k, hk⟩ := h.owner hm'
    exact ⟨k, (if_neg (hne hm')).trans hk⟩
  · refine (h.gpus a).trans (congrArg List.sum (map_congr_left fun m' hm' => ?_))
    exact (Fleet.gpusOf_setCard (hne hm')).symm

end

theorem Fleet.Counted.mapTotal (h : r.Counted) (stash : A)
    (f : SortedVec MachineId → SortedVec MachineId) : (r.mapTotal stash f).Counted := by
  have hold : ∀ a, ((r.mapTotal stash f).holding a).online = (r.holding a).online ∧
      ((r.mapTotal stash f).holding a).gpus = (r.holding a).gpus := by
    intro a
    unfold Fleet.mapTotal Fleet.setHolding
    simp only
    split
    · next ha =>
      rw [ha]
      exact ⟨rfl, rfl⟩
    · exact ⟨rfl, rfl⟩
  refine ⟨fun {a m'} hm' => ?_, fun a => ?_⟩
  · rw [(hold a).1] at hm'
    exact h.owner hm'
  · rw [(hold a).1, (hold a).2]
    exact h.gpus a

/-! ## Coming and going -/

theorem Fleet.holding_snapOnline (b : Bool) (a : A) :
    (r.snapOnline m stash n b).holding a = if a = stash then
      { r.holding stash with
        online := if b then (r.holding stash).online.addItem m
          else (r.holding stash).online.rmItem m
        gpus := saturatingChange u64Max (r.holding stash).gpus n b }
      else r.holding a := rfl

theorem Fleet.Totalled.le (h : r.Totalled) (a : A) : (r.holding a).gpus ≤ r.gpus := by
  obtain ⟨x, hx, hgpus, -⟩ := h
  rw [hgpus, ← hx a]
  unfold StorageMap.getD
  cases hk : x.get a with
  | none => exact Nat.zero_le _
  | some y => exact le_sum (fun _ x => x.gpus) hk

theorem Fleet.Totalled.change (h : r.Totalled) {x : Holding}
    (hold : ∀ a, r'.holding a = if a = stash then x else r.holding a)
    (hgpus : r'.gpus + (r.holding stash).gpus = r.gpus + x.gpus)
    (hstakers : r'.stakers + (r.holding stash).staker = r.stakers + x.staker) : r'.Totalled := by
  obtain ⟨y, hy, hyg, hys⟩ := h
  have hg := sum_insert_getD (fun _ h => h.gpus) y stash x (d := .zero) rfl
  have hs := sum_insert_getD (fun _ h => h.staker) y stash x (d := .zero) rfl
  rw [hy stash] at hg hs
  refine ⟨y.insert stash x, fun a => ?_, ?_, ?_⟩
  · rw [getD_insert, hold a, hy a]
  · omega
  · omega

/-- **A machine that was not counted comes online.** -/
theorem Fleet.Counted.online (h : r.Counted) (hc : r.card m = some (stash, n))
    (hm : m ∉ (r.holding stash).online) (hroom : (r.holding stash).gpus + n ≤ u64Max) :
    (r.snapOnline m stash n true).Counted := by
  refine ⟨fun {a m'} hm' => ?_, fun a => ?_⟩
  · rw [Fleet.holding_snapOnline] at hm'
    split at hm'
    · next ha =>
      rcases mem_addItem.1 hm' with rfl | hold
      · exact ⟨n, ha ▸ hc⟩
      · exact h.owner (ha ▸ hold)
    · exact h.owner hm'
  · rw [Fleet.holding_snapOnline]
    split
    · show saturatingAdd u64Max (r.holding stash).gpus n =
        (((r.holding stash).online.addItem m).toList.map r.gpusOf).sum
      rw [((perm_addItem hm).map r.gpusOf).sum_eq, map_cons, sum_cons,
        Fleet.gpusOf_eq hc, saturatingAdd_of_le hroom, h.gpus stash]
      omega
    · exact h.gpus a

theorem Holding.staker_addItem {x : Holding} (hm : m ∉ x.online) (gpus : Nat) :
    ({ x with online := x.online.addItem m, gpus := gpus } : Holding).staker = 1 ∧
      ((x.online.addItem m).length = 1 ↔ x.staker = 0) := by
  have hlen := length_addItem hm
  have hempty : x.online.isEmpty = true ↔ x.online.length = 0 := by
    unfold SortedVec.isEmpty SortedVec.length
    rw [List.isEmpty_iff, length_eq_zero_iff]
  have hnonempty : (x.online.addItem m).isEmpty = false := by
    rw [Bool.eq_false_iff]
    intro he
    have hnil : (x.online.addItem m).toList = [] := List.isEmpty_iff.1 he
    have hmem : m ∈ (x.online.addItem m).toList := mem_addItem.2 (.inl rfl)
    rw [hnil] at hmem
    exact not_mem_nil hmem
  refine ⟨if_neg (by rw [hnonempty]; exact Bool.false_ne_true), ?_⟩
  unfold Holding.staker
  by_cases he : x.online.isEmpty = true
  · rw [if_pos he]
    have := hempty.1 he
    omega
  · rw [if_neg he]
    have : x.online.length ≠ 0 := fun h0 => he (hempty.2 h0)
    omega

theorem Fleet.Totalled.online (h : r.Totalled) (hm : m ∉ (r.holding stash).online)
    (hroom : r.gpus + n ≤ u64Max) (hstaker : r.stakers < u64Max) :
    (r.snapOnline m stash n true).Totalled := by
  obtain ⟨hone, hlen⟩ := Holding.staker_addItem hm
    (saturatingChange u64Max (r.holding stash).gpus n true)
  have hle := h.le stash
  have hgpus : saturatingAdd u64Max (r.holding stash).gpus n = (r.holding stash).gpus + n :=
    saturatingAdd_of_le (by omega)
  have hsys : saturatingAdd u64Max r.gpus n = r.gpus + n := saturatingAdd_of_le hroom
  have hmore : saturatingAdd u64Max r.stakers 1 = r.stakers + 1 := saturatingAdd_of_le hstaker
  refine h.change (Fleet.holding_snapOnline true) ?_ ?_
  · show saturatingAdd u64Max r.gpus n + _ = r.gpus + saturatingAdd u64Max (r.holding stash).gpus n
    rw [hsys, hgpus]
    omega
  · show (if ((r.holding stash).online.addItem m).length = 1
      then saturatingAdd u64Max r.stakers 1 else r.stakers) + _ = r.stakers + _
    have hbound : (r.holding stash).staker ≤ 1 := by
      unfold Holding.staker
      split <;> omega
    simp only [if_true, hone]
    by_cases h1 : ((r.holding stash).online.addItem m).length = 1
    · rw [if_pos h1, hmore, hlen.1 h1]
    · rw [if_neg h1]
      have : (r.holding stash).staker ≠ 0 := fun h0 => h1 (hlen.2 h0)
      omega

/-- **A machine that was counted goes offline.** -/
theorem Fleet.Counted.offline (h : r.Counted) (hc : r.card m = some (stash, n))
    (hm : m ∈ (r.holding stash).online) : (r.snapOnline m stash n false).Counted := by
  refine ⟨fun {a m'} hm' => ?_, fun a => ?_⟩
  · rw [Fleet.holding_snapOnline] at hm'
    split at hm'
    · next ha => exact h.owner (ha ▸ (mem_rmItem.1 hm').2)
    · exact h.owner hm'
  · rw [Fleet.holding_snapOnline]
    split
    · show (r.holding stash).gpus - n =
        (((r.holding stash).online.rmItem m).toList.map r.gpusOf).sum
      have hsum := ((perm_rmItem hm).map r.gpusOf).sum_eq
      rw [map_cons, sum_cons, Fleet.gpusOf_eq hc, ← h.gpus stash] at hsum
      omega
    · exact h.gpus a

theorem Fleet.Totalled.offline (h : r.Totalled) (hm : m ∈ (r.holding stash).online)
    (hle : n ≤ (r.holding stash).gpus) : (r.snapOnline m stash n false).Totalled := by
  have hsys := h.le stash
  have hold : (r.holding stash).staker = 1 := by
    refine if_neg fun he => ?_
    have hnil : (r.holding stash).online.toList = [] := List.isEmpty_iff.1 he
    have hmem : m ∈ (r.holding stash).online.toList := hm
    rw [hnil] at hmem
    exact not_mem_nil hmem
  have hpos : 0 < r.stakers := by
    obtain ⟨y, hy, -, hys⟩ := h
    have hat := hy stash
    unfold StorageMap.getD at hat
    cases hk : y.get stash with
    | none =>
      rw [hk] at hat
      rw [← hat] at hold
      cases hold
    | some x =>
      rw [hk] at hat
      have hx := le_sum (fun _ x => x.staker) hk
      rw [show x = r.holding stash from hat, hold, ← hys] at hx
      omega
  refine h.change (Fleet.holding_snapOnline false) ?_ ?_
  · show r.gpus - n + (r.holding stash).gpus = r.gpus + ((r.holding stash).gpus - n)
    omega
  · show (if ((r.holding stash).online.rmItem m).isEmpty then r.stakers - 1 else r.stakers) +
      (r.holding stash).staker =
        r.stakers + (if ((r.holding stash).online.rmItem m).isEmpty then 0 else 1)
    rw [hold]
    split
    · omega
    · rfl

omit [LinearOrder A] in
theorem Fleet.Counted.le (h : r.Counted) (hc : r.card m = some (stash, n))
    (hm : m ∈ (r.holding stash).online) : n ≤ (r.holding stash).gpus := by
  rw [h.gpus stash, ← Fleet.gpusOf_eq hc]
  exact single_le_sum (fun _ _ => Nat.zero_le _) _ (List.mem_map_of_mem hm)

/-! ## Events -/

/-- Both kinds of counters are right. -/
structure Fleet.Sound (r : Fleet A) : Prop where
  counted : r.Counted
  totalled : r.Totalled

theorem Fleet.Totalled.setCard (h : r.Totalled) : (r.setCard m o).Totalled := h

theorem Fleet.Totalled.mapTotal (h : r.Totalled) (f : SortedVec MachineId → SortedVec MachineId) :
    (r.mapTotal stash f).Totalled := h.change (fun _ => rfl) rfl rfl

theorem Fleet.Sound.exit (h : r.Sound) (hc : r.card m = some (stash, n))
    (hm : m ∈ (r.holding stash).online) :
    ((r.snapOnline m stash n false).setCard m none).Sound := by
  have hoff := h.counted.offline hc hm
  refine ⟨hoff.setCard ?_, h.totalled.offline hm (h.counted.le hc hm)⟩
  refine hoff.uncounted hc ?_
  rw [Fleet.holding_snapOnline, if_pos rfl]
  exact fun hout => (mem_rmItem.1 hout).1 rfl

/-- **Every event that fits the counters keeps them right.** -/
theorem Fleet.Sound.moves {k : Label} (h : r.Sound) (hk : k.Counts r) (hmove : r.Moves r' k) :
    r'.Sound := by
  cases k with
  | quiet =>
    cases hmove
    exact h
  | bond m =>
    obtain ⟨stash, hnone, -, rfl⟩ := hmove
    refine ⟨(h.counted.mapTotal _ _).setCard fun a ha => ?_, (h.totalled.mapTotal _).setCard⟩
    obtain ⟨n, hn⟩ := (h.counted.mapTotal stash (·.addItem m)).owner ha
    have hcard : r.card m = some (a, n) := hn
    rw [hnone] at hcard
    cases hcard
  | online m =>
    obtain ⟨stash, n, hc, rfl⟩ := hmove
    obtain ⟨hm, hroom, hstaker⟩ := hk stash n hc
    have hle := h.totalled.le stash
    exact ⟨h.counted.online hc hm (by omega), h.totalled.online hm hroom hstaker⟩
  | verify hw =>
    obtain ⟨stash, n, hc, hmove⟩ := hmove
    obtain ⟨hm, hroom, hstaker⟩ := hk stash n hc
    have hle := h.totalled.le stash
    have hcard := h.counted.setCard (o := some (stash, hw.gpuNum)) (h.counted.uncounted hc hm)
    rcases hmove with rfl | rfl
    · refine ⟨hcard.online Fleet.card_setCard_self hm ?_, ?_⟩
      · show (r.holding stash).gpus + hw.gpuNum ≤ u64Max
        omega
      · exact h.totalled.setCard.online hm hroom hstaker
    · exact ⟨hcard, h.totalled⟩
  | offline m =>
    obtain ⟨stash, n, hc, rfl⟩ := hmove
    have hm := hk stash n hc
    exact ⟨h.counted.offline hc hm, h.totalled.offline hm (h.counted.le hc hm)⟩
  | exit m =>
    obtain ⟨stash, n, hc, rfl⟩ := hmove
    exact h.exit hc (hk stash n hc)
  | refuse m =>
    obtain ⟨stash, n, hc, rfl⟩ := hmove
    have hm := hk stash n hc
    refine ⟨(h.counted.mapTotal _ _).setCard ?_, (h.totalled.mapTotal _).setCard⟩
    refine (h.counted.mapTotal stash (·.rmItem m)).uncounted hc ?_
    show m ∉ (if stash = stash then _ else r.holding stash).online
    rw [if_pos rfl]
    exact hm

theorem Label.Counts.exit {m' : MachineId} (h : Label.Counts r (.exit m'))
    (hmove : r.Moves r' (.exit m)) : Label.Counts r' (.exit m') := by
  obtain ⟨stash, n, hc, rfl⟩ := hmove
  intro a n' ha
  have hif : (if m' = m then none else r.card m') = some (a, n') := ha
  split at hif
  · cases hif
  · next hne =>
    have hm' := h a n' hif
    show m' ∈ ((r.snapOnline m stash n false).holding a).online
    rw [Fleet.holding_snapOnline]
    split
    · next hstash => exact mem_rmItem.2 ⟨hne, hstash ▸ hm'⟩
    · exact hm'

theorem Fleet.Sound.exits {l : List MachineId} (h : r.Sound)
    (hl : ∀ m ∈ l, Label.Counts r (.exit m)) (hchain : Fleet.Chain (l.map .exit) r r') :
    r'.Sound := by
  induction l generalizing r with
  | nil =>
    cases hchain
    exact h
  | cons m l ih =>
    obtain ⟨r1, hmove, hrest⟩ := hchain
    refine ih (h.moves (hl m mem_cons_self) hmove) (fun m' hm' => ?_) hrest
    exact (hl m' (mem_cons_of_mem m hm')).exit hmove

end Fleet

/-! ## Runs -/

/-- An operation that passes its checks finds the machines counted as it takes them to be. -/
def EraOp.Counts (s : State A) : EraOp A → Prop
  | .profile op => op.Allowed s → ∀ k ∈ op.chain, k.Counts s.fleet
  | _ => True

variable {s : State A} {crypto : Crypto A}

theorem apply_counted {op : Op A} (h : s.fleet.Sound) (hc : EraOp.Counts s (.profile op)) :
    (apply crypto s op).fleet.Sound := by
  rcases apply_allowed crypto op with hallowed | hsame
  · have hcounts := hc hallowed
    rcases apply_fleet crypto s op with he | hchain
    · rw [he]
      exact h
    · have hsingle : ∀ {k}, op.chain = [k] → (apply crypto s op).fleet.Sound := by
        intro k hk
        rw [hk] at hcounts hchain
        obtain ⟨r1, hmove, hrest⟩ := hchain
        cases hrest
        exact h.moves (hcounts k mem_cons_self) hmove
      cases op
      case forceMachineExit signer l =>
        refine h.exits (fun m hm => ?_) hchain
        exact hcounts _ (List.mem_map_of_mem hm)
      all_goals
        first
          | exact hsingle rfl
          | exact hchain ▸ h
  · rw [hsame]
    exact h

theorem reach_counted (h : (blockSystem crypto).Reach EraOp.Counts s) : s.fleet.Sound := by
  refine h.invariant (I := fun s => s.fleet.Sound) ?_ ?_
  · rintro s ⟨c, rfl⟩
    have hzero : ∀ a, (State.fresh c).fleet.holding a = .zero :=
      fun a => congrArg Holding.of (getD_empty a StashMachine.zero)
    refine ⟨⟨fun {a m} hm => ?_, fun a => ?_⟩, ∅, fun a => ?_, rfl, rfl⟩
    · rw [hzero a] at hm
      exact absurd hm notMem_empty
    · rw [hzero a]
      rfl
    · rw [hzero a, getD_empty]
  · rintro s op _ hs hc rfl
    cases op with
    | profile op => exact apply_counted hs hc
    | rental op =>
      have he : (applyBlock crypto s (.rental op)).fleet = s.fleet := applyRent_fleet s op
      rw [he]
      exact hs
    | nextBlock =>
      have he : (applyBlock crypto s .nextBlock).fleet = s.tick.nextFleet :=
        onInitialize_fleet s.tick
      rw [he]
      exact ⟨⟨hs.counted.owner, hs.counted.gpus⟩, hs.totalled⟩

/-- **The counters agree with the lists of machines that are online.** -/
structure CountersAgree (s : State A) : Prop where
  owner : ∀ stash, ∀ m ∈ (s.stashMachine stash).onlineMachine, ∃ i, s.machine m = some i ∧
    i.machineStash = stash
  stash : ∀ stash, (s.stashMachine stash).totalGpuNum =
    ((s.stashMachine stash).onlineMachine.toList.map fun m =>
      ((s.machine m).map MachineInfo.gpuNum).getD 0).sum
  gpus : s.grades.sysInfo.totalGpuNum = s.grades.stashMachines.sum fun _ x => x.totalGpuNum
  stakers : s.grades.sysInfo.totalStaker =
    s.grades.stashMachines.iter.countP fun e => !e.2.onlineMachine.isEmpty

theorem countP_stakers (s : State A) :
    s.grades.stashMachines.iter.countP (fun e => !e.2.onlineMachine.isEmpty) =
      s.grades.stashMachines.sum fun _ x => (Holding.of x).staker := by
  unfold StorageMap.iter StorageMap.sum
  generalize s.grades.stashMachines.toAList.entries = l
  induction l with
  | nil => rfl
  | cons e l ih =>
    rw [map_cons, map_cons, countP_cons, sum_cons, ih, Nat.add_comm]
    congr 1
    show (if (!e.2.onlineMachine.isEmpty) = true then 1 else 0) =
      if e.2.onlineMachine.isEmpty = true then 0 else 1
    cases e.2.onlineMachine.isEmpty <;> rfl

theorem Fleet.Sound.agree (h : s.fleet.Sound) : CountersAgree s := by
  have hcards : ∀ m, s.fleet.gpusOf m = ((s.machine m).map MachineInfo.gpuNum).getD 0 := by
    intro m
    show (((s.machine m).map MachineInfo.owned).map Prod.snd).getD 0 = _
    rw [Option.map_map]
    rfl
  refine ⟨fun stash m hm => ?_, fun stash => ?_, ?_, ?_⟩
  · obtain ⟨n, hn⟩ := h.counted.owner hm
    obtain ⟨i, hi, hown⟩ := Option.map_eq_some_iff.1 hn
    exact ⟨i, hi, congrArg Prod.fst hown⟩
  · refine (h.counted.gpus stash).trans (congrArg List.sum (map_congr_left fun m _ => ?_))
    exact hcards m
  · obtain ⟨y, hy, hgpus, -⟩ := h.totalled
    refine hgpus.trans (sum_eq_of_getD (d := Holding.zero) (e := .zero) rfl rfl fun a => ?_)
    rw [hy a]
    rfl
  · obtain ⟨y, hy, -, hstakers⟩ := h.totalled
    rw [countP_stakers]
    refine hstakers.trans (sum_eq_of_getD (d := Holding.zero) (e := .zero)
      (g := fun x => (Holding.of x).staker) rfl rfl fun a => ?_)
    rw [hy a]
    rfl

/-- **In every run whose steps fit the counters, the counters agree.** -/
theorem counters_agree (crypto : Crypto A) (s : State A)
    (hs : (blockSystem crypto).Reach EraOp.Counts s) : CountersAgree s := (reach_counted hs).agree

end

/-! ## A machine that goes offline twice -/

namespace CounterDemo

open EraDemo (crypto)

def first : MachineId := List.replicate 64 (byte 7)

def second : MachineId := List.replicate 64 (byte 8)

def start : State Nat := .fresh (.fresh
  { now := 0
    balances := ⟨((∅ : StorageMap Nat AccountData).insert 1 ⟨10000, 0, 0⟩).insert 2 ⟨10000, 0, 0⟩⟩
    fixedTxFee := some 1
    dbcPrice := some })

def setup : List (EraOp Nat) :=
  [.profile (.setOnlineStakeParams ⟨100, 100, 10, 10⟩), .profile (.setController 1 2), .profile
    (.genServerRoom 2 5)]

def hardware (m : MachineId) : CommitteeUploadInfo :=
  { CommitteeUploadInfo.zero with machineId := m, gpuNum := 4, calcPoint := 100 }

def bring (m : MachineId) : List (EraOp Nat) :=
  [.profile (.bondMachine 2 m (m ++ List.replicate 48 (byte 1)) []), .profile (.addMachineInfo 2 m
    ⟨5, .east 0, .north 0, [[byte 1]]⟩), .profile (.bookedMachine m)]

def verify (m : MachineId) : EraOp Nat := .profile (.confirmMachine [3] (hardware m))

/-- The controller takes a machine offline, and then a fault of it is confirmed. -/
def faulty (m : MachineId) : List (EraOp Nat) :=
  [.profile (.controllerReportOffline 2 m),
    .profile (.mtMachineOffline 7 [3] m (.rentedInaccessible 0))]

def after (l : List (EraOp Nat)) : State Nat := l.foldl (applyBlock crypto) start

theorem after_reach {C : State Nat → EraOp Nat → Prop} {l : List (EraOp Nat)}
    (hl : System.Path (applyBlock crypto) C l start) : (blockSystem crypto).Reach C (after l) :=
  System.Reach.path (f := applyBlock crypto) (P := C) (.init ⟨_, rfl⟩) (fun _ _ h => ⟨h, rfl⟩) hl

end CounterDemo

open CounterDemo in
theorem counters_agree_online :
    (after (setup ++ bring first ++ [verify first])).grades.sysInfo.totalGpuNum = 4 ∧
      CountersAgree (after (setup ++ bring first ++ [verify first])) := by
  have hquiet : ∀ (s : State Nat) (op : Op Nat), op.chain = [] → EraOp.Counts s (.profile op) := by
    intro s op hop _ k hk
    rw [hop] at hk
    exact absurd hk not_mem_nil
  have hpath : System.Path (applyBlock EraDemo.crypto) EraOp.Counts
      (setup ++ bring first ++ [verify first]) start := by
    refine ⟨hquiet _ _ rfl, hquiet _ _ rfl, hquiet _ _ rfl, fun _ k hk => ?_, hquiet _ _ rfl,
      hquiet _ _ rfl, fun _ k hk => ?_, trivial⟩
    · cases mem_singleton.1 hk
      trivial
    · cases mem_singleton.1 hk
      intro stash n hc
      have hstash : ((after (setup ++ bring first)).fleet.card first).map Prod.fst = some 1 := by
        decide +kernel
      rw [show (after (setup ++ bring first)).fleet.card first = some (stash, n) from hc] at hstash
      cases Option.some.inj hstash
      exact ⟨by decide +kernel, by decide +kernel, by decide +kernel⟩
  exact ⟨by decide +kernel, counters_agree EraDemo.crypto _ (after_reach hpath)⟩

open CounterDemo in
/-- A machine that its controller took offline is subtracted again when a fault of it is confirmed,
so that its stash counts no cards while another machine of four cards is online. -/
theorem fault_after_offline_miscounts :
    ∃ s : State Nat, (blockSystem EraDemo.crypto).Reach (fun _ _ => True) s ∧
    ¬ CountersAgree s := by
  refine ⟨after (setup ++ bring first ++ [verify first] ++ bring second ++ [verify second] ++
    faulty first), after_reach (System.Path.of_forall (fun _ _ _ => trivial) _), fun h => ?_⟩
  have hstash := h.stash 1
  revert hstash
  decide +kernel

end DeepBrainChain.OnlineProfile
