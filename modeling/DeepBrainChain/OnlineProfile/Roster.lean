import DeepBrainChain.OnlineProfile.Ops

/-!
# Statuses and lists of the machines

The roster is what the pallet knows about the whereabouts of its machines: the status in each
record, the lists of `LiveMachine`, and the offline machines of which a rental has ended. Stakes,
slashes and rewards never touch it. `apply_moves` says once what each operation does to it.
-/

namespace DeepBrainChain.Support

open Lib

/-! ## Lists -/

/-- The lists a machine with a record can be in. -/
inductive Place
  | bonding
  | confirmed
  | booked
  | online
  | fulfilling
  | rented
  | offline
deriving DecidableEq

namespace LiveMachine

def list (l : LiveMachine) : Place → SortedVec MachineId
  | .bonding => l.bondingMachine
  | .confirmed => l.confirmedMachine
  | .booked => l.bookedMachine
  | .online => l.onlineMachine
  | .fulfilling => l.fulfillingMachine
  | .rented => l.rentedMachine
  | .offline => l.offlineMachine

def modifyList (l : LiveMachine) (f : SortedVec MachineId → SortedVec MachineId) :
    Place → LiveMachine
  | .bonding => { l with bondingMachine := f l.bondingMachine }
  | .confirmed => { l with confirmedMachine := f l.confirmedMachine }
  | .booked => { l with bookedMachine := f l.bookedMachine }
  | .online => { l with onlineMachine := f l.onlineMachine }
  | .fulfilling => { l with fulfillingMachine := f l.fulfillingMachine }
  | .rented => { l with rentedMachine := f l.rentedMachine }
  | .offline => { l with offlineMachine := f l.offlineMachine }

def enter (l : LiveMachine) (k : Place) (m : MachineId) : LiveMachine :=
  l.modifyList (·.addItem m) k

def leave (l : LiveMachine) (k : Place) (m : MachineId) : LiveMachine :=
  l.modifyList (·.rmItem m) k

def move (l : LiveMachine) (k k' : Place) (m : MachineId) : LiveMachine := (l.leave k m).enter k' m

theorem list_modifyList (l : LiveMachine) (f : SortedVec MachineId → SortedVec MachineId)
    (k k' : Place) : (l.modifyList f k).list k' = if k' = k then f (l.list k) else l.list k' := by
  cases k <;> cases k' <;> rfl

variable {l : LiveMachine} {k k' : Place} {m x : MachineId}

@[simp] theorem mem_enter : x ∈ (l.enter k m).list k' ↔ (x = m ∧ k' = k) ∨ x ∈ l.list k' := by
  rw [enter, list_modifyList]
  split
  · next h => simp [h]
  · next h => simp [h]

@[simp] theorem mem_leave : x ∈ (l.leave k m).list k' ↔ ¬ (x = m ∧ k' = k) ∧ x ∈ l.list k' := by
  rw [leave, list_modifyList]
  split
  · next h => simp [h]
  · next h => simp [h]

end LiveMachine

end DeepBrainChain.Support

namespace DeepBrainChain.OnlineProfile

open Lib GenericFunc Support Lib.Call StorageMap

/-! ## The roster -/

@[ext]
structure Roster (A : Type) where
  status : MachineId → Option (MachineStatus A)
  live : LiveMachine
  finished : MachineId → Bool

namespace Roster

variable {A : Type} [DecidableEq A]

section

omit [DecidableEq A]

/-- Another status for `m`, or none, and other lists. -/
def put (r : Roster A) (m : MachineId) (status : Option (MachineStatus A))
    (f : LiveMachine → LiveMachine) : Roster A :=
  { r with
    status := fun x => if x = m then status else r.status x
    live := f r.live }

def setStatus (r : Roster A) (m : MachineId) (status : MachineStatus A) : Roster A :=
  r.put m (some status) id

/-- A rental of `m` has ended while it was offline, or this was noticed. -/
def setFinished (r : Roster A) (m : MachineId) (b : Bool) : Roster A :=
  { r with finished := fun x => if x = m then b else r.finished x }

end

def reonline (r : Roster A) (m : MachineId) (status : MachineStatus A) : Roster A :=
  (r.put m (some status) fun l => if status = .rented then l.move .offline .rented m else l.move
    .offline .online m).setFinished m false

end Roster

section

variable {A : Type} [LinearOrder A]

def State.roster (s : State A) : Roster A where
  status m := (s.machine m).map MachineInfo.machineStatus
  live := s.machines.liveMachines
  finished m := s.machines.rentedFinished.contains m

variable {s s' s1 s2 : State A} {r : Roster A} {m : MachineId} {i : MachineInfo A}
  {f : LiveMachine → LiveMachine}

theorem roster_status (hi : s.machine m = some i) : s.roster.status m = some i.machineStatus := by
  show (s.machine m).map _ = _
  rw [hi]
  rfl

variable {status : MachineStatus A} {α ε : Type} {op : Op A}

theorem status_eq_some (h : s.roster.status m = some status) :
    ∃ i, s.machine m = some i ∧ i.machineStatus = status :=
  Option.map_eq_some_iff.1 h

theorem roster_put (h1 : s1.roster = r)
    (h2 : s2.roster = { s1.roster with live := f s1.roster.live }) :
    (s2.putMachine m i).roster = r.put m (some i.machineStatus) f := by
  subst h1
  have hlive : s2.roster.live = f s1.roster.live := by rw [h2]
  have hfinished : s2.roster.finished = s1.roster.finished := by rw [h2]
  refine Roster.ext (funext fun x => ?_) hlive hfinished
  show ((s2.machines.machinesInfo.insert m i).get x).map _ = if x = m then _ else _
  rw [get_insert]
  split
  · rfl
  · exact congrArg (fun r => r.status x) h2

theorem roster_drop (h1 : s1.roster = r)
    (h2 : s2.roster = { s1.roster with live := f s1.roster.live }) :
    (s2.mapMachines (·.rmInfo m)).roster = r.put m none f := by
  subst h1
  have hlive : s2.roster.live = f s1.roster.live := by rw [h2]
  have hfinished : s2.roster.finished = s1.roster.finished := by rw [h2]
  refine Roster.ext (funext fun x => ?_) hlive hfinished
  show ((s2.machines.machinesInfo.remove m).get x).map _ = if x = m then _ else _
  rw [get_remove]
  split
  · rfl
  · exact congrArg (fun r => r.status x) h2

omit [LinearOrder A] in
theorem put_same (hs : r.status m = some status) :
    r.put m (some status) f = { r with live := f r.live } := by
  refine Roster.ext (funext fun x => ?_) rfl rfl
  show (if x = m then some status else r.status x) = r.status x
  split
  · next h => rw [h, hs]
  · rfl

theorem roster_keep (hs : s.roster.status m = some status)
    (hi : i.machineStatus = status) : (s.putMachine m i).roster = s.roster := by
  have hput : (s.putMachine m i).roster = s.roster.put m (some i.machineStatus) id :=
    roster_put rfl rfl
  rw [hput, hi]
  exact put_same hs

/-- **Stakes, slashes and rewards do not touch the roster.** -/
theorem blind_roster : Blind (State.roster (A := A)) where
  committee _ _ _ := rfl
  owners _ _ := rfl
  stakes _ _ := rfl
  slashes _ _ := rfl
  rewards _ _ _ := rfl
  sysInfo _ _ _ := rfl
  stash _ _ _ _ _ h := h
  machine _ _ _ _ _ hi k h :=
    (roster_keep (h ▸ roster_status hi) k.status).trans h

/-! ## Calls that move a machine -/

omit [LinearOrder A] in
/-- Machines exit one after another, wherever they are listed. -/
def Exits : List MachineId → Roster A → Roster A → Prop
  | [], r, r' => r' = r
  | m :: l, r, r' => (r.status m).isSome ∧ Exits l (r.put m none (·.leave .online m)) r'

/-- What the operations do to the roster at the block `now` when they do anything to it. -/
def Op.Moves (now : Nat) (r r' : Roster A) : Op A → Prop
  | .bondMachine _ m _ _ => r.status m = none ∧
    r' = r.put m (some .addingCustomizeInfo) (·.enter .bonding m)
  | .addMachineInfo _ m _ => ∃ st st', r.status m = some st ∧
    (st' = st ∨ st = .addingCustomizeInfo ∧ st' = .distributingOrder) ∧
    r' = r.put m (some st') fun l =>
      if m ∈ l.bondingMachine then l.move .bonding .confirmed m else l
  | .updateMachineInfo _ m _ => ∃ st st', r.status m = some st ∧
    (st' = st ∨ st = .addingCustomizeInfo ∧ st' = .distributingOrder) ∧
    r' = r.setStatus m st'
  | .fulfillMachine _ m => (r.status m).isSome ∧ m ∈ r.live.fulfillingMachine ∧
    r' = r.put m (some .online) (·.move .fulfilling .online m)
  | .controllerReportOffline _ m => ∃ st, r.status m = some st ∧ (st = .online ∨ st = .rented) ∧
    r' = r.put m (some (.stakerReportOffline now st)) fun l =>
      (l.leave .online m).move .rented .offline m
  | .offlineMachineChangeHardwareInfo _ m => r.status m = some .online ∧
    r' = r.put m (some (.stakerReportOffline now .online)) (·.move .online .bonding m)
  | .controllerReportOnline _ m => ∃ st, r.status m = some st ∧ st.isOffline = true ∧
    r' = r.reonline m (if r.finished m then .online else statusBefore st)
  | .machineExit _ m => r.status m = some .online ∧ r' = r.put m none (·.leave .online m)
  | .forceMachineExit _ l => Exits l r r'
  | .bookedMachine m => (r.status m).isSome ∧
    r' = r.put m (some .committeeVerifying) (·.move .confirmed .booked m)
  | .revertBookedMachine m => (r.status m).isSome ∧
    r' = r.put m (some .distributingOrder) (·.move .booked .confirmed m)
  | .confirmMachine _ hw => (r.status hw.machineId).isSome ∧
    (r' = r.put hw.machineId (some .online) (·.move .booked .online hw.machineId) ∨
      r' = r.put hw.machineId (some .waitingFulfill) (·.move .booked .fulfilling hw.machineId))
  | .refuseMachine _ m => ∃ st, r.status m = some st ∧
    (r' = r.put m (some st) (·.move .booked .bonding m) ∨
      r' = r.put m none fun l =>
        { l.leave .booked m with refusedMachine := l.refusedMachine.addItem m })
  | .mtMachineOffline reporter committee m fault => ∃ st, r.status m = some st ∧
    r' = r.put m (some (.reporterReportOffline fault st reporter committee)) fun l =>
      (l.leave .online m).move .rented .offline m
  | _ => False

section Moves

variable {u : Unit}

variable {controller : A} {info : StakerCustomizeInfo} {l : List MachineId}

theorem bondMachine_moves {crypto : Crypto A} {msg sig : Bytes}
    (h : (bondMachine crypto controller m msg sig).run s = (.ok u, s')) :
    (Op.bondMachine controller m msg sig).Moves s.now s.roster s'.roster := by
  obtain ⟨stash, amount, s1, -, hm, -, h1, rfl⟩ := bondMachine_ok h
  refine ⟨?_, roster_put (blind_roster.unnoticed h1) rfl⟩
  show (s.machine m).map _ = none
  rw [hm]
  rfl

theorem addServerRoomInfo_status (i : MachineInfo A) (info : StakerCustomizeInfo) :
    (i.addServerRoomInfo info).machineStatus = i.machineStatus ∨
      i.machineStatus = .addingCustomizeInfo ∧
        (i.addServerRoomInfo info).machineStatus = .distributingOrder := by
  unfold MachineInfo.addServerRoomInfo
  cases i.machineStatus <;> simp

theorem addMachineInfo_moves (h : (addMachineInfo controller m info).run s = (.ok u, s')) :
    (Op.addMachineInfo controller m info).Moves s.now s.roster s'.roster := by
  obtain ⟨i, s1, hi, h1, rfl⟩ := addMachineInfo_ok h
  exact ⟨_, _, roster_status hi, addServerRoomInfo_status i info,
    roster_put (blind_roster.unnoticed h1) rfl⟩

theorem updateMachineInfo_moves (h : (updateMachineInfo controller m info).run s = (.ok u, s')) :
    (Op.updateMachineInfo controller m info).Moves s.now s.roster s'.roster := by
  unfold updateMachineInfo at h
  simp only [run_ok] at h
  obtain ⟨i, hi, -, -, -, -, rfl⟩ := h
  exact ⟨_, _, roster_status hi, addServerRoomInfo_status i info, roster_put rfl rfl⟩

theorem fulfillMachine_moves (h : (fulfillMachine controller m).run s = (.ok u, s')) :
    (Op.fulfillMachine controller m).Moves s.now s.roster s'.roster := by
  obtain ⟨i, need, deadline, s1, hi, hlist, h1, rfl⟩ := fulfillMachine_ok h
  refine ⟨?_, hlist, roster_put (blind_roster.unnoticed h1) rfl⟩
  rw [roster_status hi]
  rfl

theorem controllerReportOffline_moves
    (h : (controllerReportOffline controller m).run s = (.ok u, s')) :
    (Op.controllerReportOffline controller m).Moves s.now s.roster s'.roster := by
  unfold controllerReportOffline machineOffline at h
  simp only [run_ok] at h
  obtain ⟨i, hi, -, hst, j, hj, rfl⟩ := h
  refine ⟨_, roster_status hi, hst, roster_put rfl ?_⟩
  split <;> rfl

theorem offlineMachineChangeHardwareInfo_moves
    (h : (offlineMachineChangeHardwareInfo controller m).run s = (.ok u, s')) :
    (Op.offlineMachineChangeHardwareInfo controller m).Moves s.now s.roster s'.roster := by
  obtain ⟨i, x, s1, hi, honline, h1, rfl⟩ := offlineMachineChangeHardwareInfo_ok h
  refine ⟨honline ▸ roster_status hi, ?_⟩
  rw [← h1.quiet.now]
  exact roster_put (blind_roster.unnoticed h1) rfl

theorem roster_rmRentedFinished (s : State A) (m : MachineId) :
    (s.mapMachines (·.rmRentedFinished m)).roster = s.roster.setFinished m false := by
  refine Roster.ext rfl rfl (funext fun x => ?_)
  show ((s.machines.rentedFinished.remove m).get x).isSome = if x = m then false else _
  rw [get_remove]
  split
  · rfl
  · rfl

theorem reonline_roster (h : s.roster = r) (m : MachineId) (old i : MachineInfo A) :
    (s.reonline m old i).roster = r.reonline m i.machineStatus := by
  have h1 : (s.mapMachines (·.rmRentedFinished m)).roster = r.setFinished m false :=
    (roster_rmRentedFinished s m).trans (congrArg (fun r => r.setFinished m false) h)
  refine roster_put (f := fun l => if i.machineStatus = .rented then l.move .offline .rented m
    else l.move .offline .online m) h1 ?_
  by_cases hst : i.machineStatus = .rented
  · simp only [hst, if_true]
    rfl
  · simp only [hst, if_false]
    rfl

theorem controllerReportOnline_moves
    (h : (controllerReportOnline controller m).run s = (.ok u, s')) :
    s' = s ∨ (Op.controllerReportOnline controller m).Moves s.now s.roster s'.roster := by
  refine (controllerReportOnline_ok h).imp_right ?_
  rintro ⟨i, offline, s1, hi, htime, h1, rfl⟩
  refine ⟨_, roster_status hi, offlineTime_isOffline htime, ?_⟩
  exact reonline_roster (blind_roster.unnoticed h1) m i _

theorem doMachineExit_roster (h : (doMachineExit m i).run s = (.ok u, s')) :
    s'.roster = s.roster.put m none (·.leave .online m) := by
  obtain ⟨s1, h1, rfl⟩ := doMachineExit_ok h
  have hexit : (s1.mapMachines (·.updateRegionOnExit i)).roster = s.roster := by
    rw [← blind_roster.unnoticed h1]
    unfold State.mapMachines Machines.updateRegionOnExit
    simp only
    split <;> rfl
  exact roster_drop hexit rfl

theorem machineExit_moves (h : (machineExit controller m).run s = (.ok u, s')) :
    (Op.machineExit controller m).Moves s.now s.roster s'.roster := by
  unfold machineExit at h
  simp only [run_ok] at h
  obtain ⟨i, hi, -, honline, -, -, hexit⟩ := h
  exact ⟨honline ▸ roster_status hi, doMachineExit_roster hexit⟩

theorem forceExits (h : (forEach l forceExitOne).run s = (.ok u, s')) :
    Exits l s.roster s'.roster := by
  induction l generalizing s with
  | nil =>
    cases h
    rfl
  | cons m l ih =>
    rw [forEach_cons, run_bind_ok] at h
    obtain ⟨_, s1, hexit, hrest⟩ := h
    unfold forceExitOne at hexit
    simp only [run_ok] at hexit
    obtain ⟨i, hi, hexit⟩ := hexit
    refine ⟨?_, doMachineExit_roster hexit ▸ ih hrest⟩
    rw [roster_status hi]
    rfl

theorem forceMachineExit_moves {signer : A} (h : (forceMachineExit signer l).run s = (.ok u, s')) :
    (Op.forceMachineExit signer l).Moves s.now s.roster s'.roster := by
  unfold forceMachineExit at h
  simp only [run_ok] at h
  exact forceExits h.2

theorem moveMachine_roster (m : MachineId) (status : MachineStatus A)
    (f : LiveMachine → LiveMachine) (s : State A) :
    Post (moveMachine m status f) s
      (fun _ s' => (s.roster.status m).isSome ∧ s'.roster = s.roster.put m (some status) f)
      (fun _ s' => s' = s) := by
  unfold moveMachine
  simp only [post_step]
  refine ⟨fun i hi => ⟨?_, roster_put rfl rfl⟩, fun _ => trivial⟩
  rw [roster_status hi]
  rfl

theorem confirmMachine_moves (committee : List A) (hw : CommitteeUploadInfo) (s : State A) :
    Post (confirmMachine committee hw) s
      (fun _ s' => (Op.confirmMachine committee hw).Moves s.now s.roster s'.roster)
      (fun _ s' => s' = s) := by
  refine confirmMachine_rule committee hw fun i s1 isReonline hi h1 => ?_
  have hsome : (s.roster.status hw.machineId).isSome := by
    rw [roster_status hi]
    rfl
  have hr := blind_roster.unnoticed h1
  refine ⟨fun need => ⟨hsome, .inl (roster_put hr ?_)⟩, fun time =>
    ⟨hsome, .inr (roster_put hr rfl)⟩⟩
  cases isReonline <;> rfl

theorem refuseMachine_moves (committee : List A) (m : MachineId) (s : State A) :
    Post (refuseMachine committee m) s
      (fun _ s' => (Op.refuseMachine committee m).Moves s.now s.roster s'.roster)
      (fun _ s' => s' = s ∨ (Op.refuseMachine committee m).Moves s.now s.roster s'.roster) := by
  refine refuseMachine_rule committee m (.inl rfl) (fun i s1 hi h1 => ?_) fun i s1 hi h1 => ?_
  · refine .inr ⟨_, roster_status hi, .inl ?_⟩
    rw [put_same (roster_status hi)]
    exact blind_roster.unnoticed h1
  · exact ⟨_, roster_status hi, .inr (roster_drop (blind_roster.unnoticed h1) rfl)⟩

theorem mtMachineOffline_moves (reporter : A) (committee : List A) (m : MachineId)
    (fault : OPSlashReason) (s : State A) :
    Post (mtMachineOffline reporter committee m fault) s
      (fun _ s' => (Op.mtMachineOffline reporter committee m fault).Moves s.now s.roster s'.roster)
      (fun _ s' => s' = s) := by
  unfold mtMachineOffline machineOffline
  simp only [post_step]
  refine ⟨fun i hi => ⟨fun j hj => ?_, fun _ => trivial⟩, fun _ => trivial⟩
  refine ⟨_, roster_status hi, roster_put rfl ?_⟩
  split <;> rfl

end Moves

/-- An operation leaves the roster alone or moves a machine. -/
def Op.Keeps (now : Nat) (r r' : Roster A) (op : Op A) : Prop := r' = r ∨ op.Moves now r r'

theorem dispatch_moves {c : Call (State A) ε α}
    (h : ∀ a s', c.run s = (.ok a, s') → op.Keeps s.now s.roster s'.roster) :
    op.Keeps s.now s.roster (c.dispatch s).2.roster :=
  dispatch_keeps (I := fun s' : State A => op.Keeps s.now s.roster s'.roster) (.inl rfl) h

theorem run_moves {c : Call (State A) ε α}
    (h : Post c s (fun _ s' => op.Moves s.now s.roster s'.roster) (fun _ s' => s' = s)) :
    op.Keeps s.now s.roster (c.run s).2.roster := by
  refine Post.storage (I := fun s' => op.Keeps s.now s.roster s'.roster)
    (h.mono (fun _ _ hm => .inr hm) ?_)
  rintro _ _ rfl
  exact .inl rfl

/-- **What an operation does to the roster.** -/
theorem apply_moves (crypto : Crypto A) (s : State A) (op : Op A) :
    op.Keeps s.now s.roster (apply crypto s op).roster := by
  by_cases hop : op.unseen true = true
  · exact .inl (blind_roster.apply crypto hop)
  cases op with
  | setRewardInfo i => exact .inl rfl
  | setRentfeeDestroyPercent percent => exact .inl rfl
  | bondMachine controller m msg sig =>
    exact dispatch_moves fun _ _ hr => .inr (bondMachine_moves hr)
  | addMachineInfo controller m info =>
    exact dispatch_moves fun _ _ hr => .inr (addMachineInfo_moves hr)
  | updateMachineInfo controller m info =>
    exact dispatch_moves fun _ _ hr => .inr (updateMachineInfo_moves hr)
  | fulfillMachine controller m => exact dispatch_moves fun _ _ hr => .inr (fulfillMachine_moves hr)
  | controllerReportOffline controller m =>
    exact dispatch_moves fun _ _ hr => .inr (controllerReportOffline_moves hr)
  | offlineMachineChangeHardwareInfo controller m =>
    exact dispatch_moves fun _ _ hr => .inr (offlineMachineChangeHardwareInfo_moves hr)
  | controllerReportOnline controller m =>
    refine dispatch_moves fun _ _ hr => ?_
    rcases controllerReportOnline_moves hr with rfl | hm
    · exact .inl rfl
    · exact .inr hm
  | machineExit controller m => exact dispatch_moves fun _ _ hr => .inr (machineExit_moves hr)
  | forceMachineExit signer l =>
    exact dispatch_moves fun _ _ hr => .inr (forceMachineExit_moves hr)
  | bookedMachine m => exact run_moves (moveMachine_roster m _ _ s)
  | revertBookedMachine m => exact run_moves (moveMachine_roster m _ _ s)
  | confirmMachine committee hw => exact run_moves (confirmMachine_moves committee hw s)
  | refuseMachine committee m =>
    refine Post.storage (I := fun s' : State A =>
      Op.Keeps s.now s.roster s'.roster (.refuseMachine committee m))
      ((refuseMachine_moves committee m s).mono (fun _ _ hm => .inr hm) ?_)
    rintro _ _ (rfl | hm)
    · exact .inl rfl
    · exact .inr hm
  | mtMachineOffline reporter committee m fault =>
    exact run_moves (mtMachineOffline_moves reporter committee m fault s)
  | addOfflineMachineToRenters m renters => exact .inl rfl
  | _ => exact absurd rfl hop

/-! ## The start of a block -/

theorem backupAndReward_roster (s : State A) : s.backupAndReward.roster = s.roster :=
  backupAndReward_rule (I := Shows State.roster s.roster) (fun _ _ h => h) (fun _ _ h => h)
    (fun _ h => h) rfl

/-- **The start of a block** leaves the roster alone. -/
theorem onInitialize_roster (s : State A) : s.onInitialize.roster = s.roster := by
  have h1 := backupAndReward_roster s
  have h2 : Shows State.roster s.roster (if s.backupAndReward.now % oneDay = 1 then
      s.backupAndReward.newEra else s.backupAndReward) := by
    split
    · exact h1
    · exact h1
  exact blind_roster.pendingSlashes h2

/-! ## Reports of rent-machine -/

theorem changeMachineStatusOnRentStart_roster (m : MachineId) (gpuNum : Nat) (s : State A) :
    Post (changeMachineStatusOnRentStart m gpuNum) s
      (fun _ s' => (s.roster.status m).isSome ∧ s'.roster = s.roster.setStatus m .rented)
      (fun _ s' => s' = s) := by
  unfold changeMachineStatusOnRentStart
  simp only [post_step]
  refine ⟨fun i hi => ⟨?_, ?_⟩, fun _ => trivial⟩
  · rw [roster_status hi]
    rfl
  · have hput : (s.putMachine m (i.setStatus .rented)).roster = s.roster.setStatus m .rented :=
      roster_put rfl rfl
    exact hput

theorem changeMachineStatusOnConfirmed_roster (m : MachineId) (renter : A) (s : State A) :
    Post (changeMachineStatusOnConfirmed m renter) s
      (fun _ s' => s'.roster = { s.roster with
        live := (if m ∈ s.roster.live.rentedMachine then s.roster.live
          else s.roster.live.move .online .rented m) })
      (fun _ s' => s' = s) := by
  unfold changeMachineStatusOnConfirmed
  simp only [post_step]
  refine ⟨fun i hi => ?_, fun _ => trivial⟩
  have hstatus : s.roster.status m = some i.machineStatus := roster_status hi
  by_cases hm : m ∈ s.machines.liveMachines.rentedMachine
  · have hm' : m ∈ s.roster.live.rentedMachine := hm
    rw [if_pos hm, if_pos hm']
    exact roster_keep hstatus rfl
  · have hm' : m ∉ s.roster.live.rentedMachine := hm
    rw [if_neg hm, if_neg hm']
    exact (roster_put (f := fun l => l.move .online .rented m) rfl rfl).trans (put_same hstatus)

theorem roster_putRentedFinished (s : State A) (m : MachineId) (renter : A) (n : Nat) :
    (s.mapMachines fun x => (x.putRentedFinished m renter).setRentedGpu m n).roster =
      s.roster.setFinished m true := by
  refine Roster.ext rfl rfl (funext fun x => ?_)
  show ((s.machines.rentedFinished.insert m renter).get x).isSome = if x = m then true else _
  rw [get_insert]
  split
  · rfl
  · rfl

/-- A machine with cards that the end of a rental leaves as it is. -/
def Unaffected (m : MachineId) (last : Bool) (s : State A) : Prop :=
  ∀ i, s.machine m = some i → 0 < i.gpuNum →
    i.machineStatus.isOffline = false ∧ ¬ (i.machineStatus = .rented ∧ last = true)

/-- The end of a confirmed rental; `last` says that it was the last one of the machine. -/
theorem changeMachineStatusOnRentEnd_roster (m : MachineId) (gpuNum duration : Nat)
    (last lastOfRenter : Bool) (renter : A) (s : State A) :
    Post (changeMachineStatusOnRentEnd m gpuNum duration last lastOfRenter renter) s
      (fun _ s' => s'.now = s.now ∧ ((s'.roster = s.roster ∧ Unaffected m last s) ∨ (∃ st,
        s.roster.status m = some st ∧ st.isOffline = true ∧ s'.roster = s.roster.setFinished m true)
        ∨ (s.roster.status m = some .rented ∧ last = true ∧ s'.roster = s.roster.put m (some
        .online) (·.move .rented .online m))))
      (fun _ s' => s' = s ∧ s.machine m = none) := by
  unfold changeMachineStatusOnRentEnd
  simp only [post_step]
  refine ⟨fun i hi => ?_, fun hnone => ⟨trivial, hnone⟩⟩
  simp only [post_ite, post_pure, post_set]
  refine ⟨fun hzero => ⟨trivial, .inl ⟨trivial, fun j hj hpos => ?_⟩⟩, fun _ =>
    ⟨fun hoff => ⟨rfl, ?_⟩, fun hoff => ⟨fun hlast => ⟨rfl, ?_⟩, fun hlast => ⟨rfl, ?_⟩⟩⟩⟩
  · rw [hi] at hj
    cases hj
    omega
  · refine .inr (.inl ⟨_, roster_status hi, hoff, ?_⟩)
    have hfin := roster_putRentedFinished s m renter (s.machines.rentedGpu m - gpuNum)
    have hstatus : s.roster.status m = some i.machineStatus := roster_status hi
    refine (roster_keep ?_ rfl).trans hfin
    rw [hfin]
    exact hstatus
  · refine .inr (.inr ⟨hlast.1 ▸ roster_status hi, hlast.2, ?_⟩)
    exact roster_put rfl rfl
  · have hkeep : (s.putMachine m (State.rentEnded i gpuNum duration lastOfRenter renter)).roster =
        s.roster := roster_keep (roster_status hi) rfl
    refine .inl ⟨hkeep, fun j hj _ => ?_⟩
    rw [hi] at hj
    cases hj
    exact ⟨Bool.eq_false_iff.2 hoff, hlast⟩

theorem rentedGpu_sub (x : Machines A) (m : MachineId) (gpuNum : Nat) (m' : MachineId) :
    (x.setRentedGpu m (x.rentedGpu m - gpuNum)).rentedGpu m' =
      x.rentedGpu m' - if m' = m then gpuNum else 0 := by
  show (x.machineRentedGpu.insert m _).getD m' 0 = _
  rw [getD_insert]
  split
  · next h => rw [h]
  · rfl

theorem changeMachineStatusOnConfirmExpired_roster (m : MachineId) (gpuNum : Nat) (s : State A) :
    Post (changeMachineStatusOnConfirmExpired m gpuNum) s
      (fun _ s' => s'.now = s.now ∧ (∀ m', s'.machines.rentedGpu m' = s.machines.rentedGpu m' - if
          m' = m then gpuNum else 0) ∧ (s.machines.rentedGpu m - gpuNum = 0 → (s.roster.status
          m).isSome = true) ∧ s'.roster = if s.machines.rentedGpu m - gpuNum = 0 then
          s.roster.setStatus m .online else s.roster)
      (fun _ s' => s' = s) := by
  have hsub := rentedGpu_sub s.machines m gpuNum
  unfold changeMachineStatusOnConfirmExpired
  by_cases hleft : s.machines.rentedGpu m - gpuNum = 0
  · rw [hleft] at hsub
    simp only [post_step, hleft, if_true]
    refine ⟨fun i hi => ⟨rfl, hsub, fun _ => ?_, ?_⟩, fun _ => trivial⟩
    · rw [roster_status hi]
      rfl
    · have hput : (s.putMachine m (i.setStatus .online)).roster = s.roster.setStatus m .online :=
        roster_put rfl rfl
      exact hput
  · simp only [post_step, hleft, if_false]
    exact ⟨rfl, hsub, fun h => absurd h (by simp), rfl⟩

/-! # The renters in the records of machines

`MachineInfo.renters` is written by the reports of rent-machine alone. An operation of
online-profile leaves the renters of a machine as they are, drops the record, or enters a new record
without renters. -/

def State.tenants (s : State A) (m : MachineId) : Option (SortedVec A) :=
  (s.machine m).map MachineInfo.renters

variable {s s' s1 : State A} {m : MachineId} {i i' : MachineInfo A} {u : Unit}

/-! ## Writes -/

theorem tenants_of_machine (hi : s.machine m = some i) : s.tenants m = some i.renters := by
  unfold State.tenants
  rw [hi]
  rfl

theorem tenants_putMachine (s : State A) (m : MachineId) (i : MachineInfo A) :
    (s.putMachine m i).tenants = fun x => if x = m then some i.renters else s.tenants x := by
  funext x
  show ((s.machines.machinesInfo.insert m i).get x).map _ = _
  rw [get_insert]
  split
  · rfl
  · rfl

theorem tenants_rmInfo (s : State A) (m : MachineId) :
    (s.mapMachines (·.rmInfo m)).tenants = fun x => if x = m then none else s.tenants x := by
  funext x
  show ((s.machines.machinesInfo.remove m).get x).map _ = _
  rw [get_remove]
  split
  · rfl
  · rfl

theorem tenants_write (hi : s.machine m = some i) (k : i'.renters = i.renters)
    (h1 : s1.tenants = s.tenants) : (s1.putMachine m i').tenants = s.tenants := by
  rw [tenants_putMachine, h1]
  funext x
  split
  · next hx => rw [hx, tenants_of_machine hi, k]
  · rfl

theorem tenants_updateRegionOnExit (s : State A) (i : MachineInfo A) :
    (s.mapMachines (·.updateRegionOnExit i)).tenants = s.tenants := by
  funext x
  unfold State.mapMachines Machines.updateRegionOnExit State.tenants State.machine
  simp only
  split
  · rfl
  · rfl

/-- **Stakes, slashes and rewards do not touch the renters.** -/
theorem blind_tenants : Blind (State.tenants (A := A)) where
  committee _ _ _ := rfl
  owners _ _ := rfl
  stakes _ _ := rfl
  slashes _ _ := rfl
  rewards _ _ _ := rfl
  sysInfo _ _ _ := rfl
  stash _ _ _ _ _ h := h
  machine _ _ _ _ _ hi k h := tenants_write hi k.renters h

/-! ## Operations -/

/-- Some records are dropped. -/
def Thinned (f f' : MachineId → Option (SortedVec A)) : Prop := ∀ m, f' m = f m ∨ f' m = none

/-- Some records are dropped, or one is entered. -/
def Relisted (f f' : MachineId → Option (SortedVec A)) : Prop :=
  Thinned f f' ∨ ∃ m, f m = none ∧ f' = fun x => if x = m then some ∅ else f x

variable {f f' : MachineId → Option (SortedVec A)} {controller : A} {α ε : Type}

theorem Thinned.of_eq (h : f' = f) : Thinned f f' :=
  fun m => .inl (congrFun h m)

theorem Thinned.trans {f'' : MachineId → Option (SortedVec A)} (h : Thinned f f')
    (h' : Thinned f' f'') : Thinned f f'' := by
  intro m
  rcases h' m with he | he
  · rw [he]
    exact h m
  · exact .inr he

theorem moveMachine_tenants (m : MachineId) (status : MachineStatus A)
    (f : LiveMachine → LiveMachine) (r : MachineId → Option (SortedVec A)) :
    Keeps (Shows State.tenants r) (moveMachine m status f) := by
  refine .get fun s hs => .okOr fun i hi => .set ?_
  exact Eq.trans (tenants_write hi rfl rfl) hs

theorem addMachineInfo_tenants {info : StakerCustomizeInfo}
    (h : (addMachineInfo controller m info).run s = (.ok u, s')) : s'.tenants = s.tenants := by
  obtain ⟨i, s1, hi, h1, rfl⟩ := addMachineInfo_ok h
  have ht := blind_tenants.unnoticed h1
  exact tenants_write hi rfl ht

theorem updateMachineInfo_tenants (controller : A) (m : MachineId) (info : StakerCustomizeInfo)
    (r : MachineId → Option (SortedVec A)) :
    Keeps (Shows State.tenants r) (updateMachineInfo controller m info) := by
  refine .get fun s hs => .okOr fun i hi => .guard <| ?_
  refine .guard <| .guard <| .guard <| ?_
  exact .set (Eq.trans (tenants_write hi rfl rfl) hs)

theorem bondMachine_tenants {crypto : Crypto A} {msg sig : Bytes}
    (h : (bondMachine crypto controller m msg sig).run s = (.ok u, s')) :
    Relisted s.tenants s'.tenants := by
  obtain ⟨stash, amount, s1, -, hm, -, h1, rfl⟩ := bondMachine_ok h
  refine .inr ⟨m, ?_, ?_⟩
  · unfold State.tenants
    rw [hm]
    rfl
  · rw [← blind_tenants.unnoticed h1]
    exact tenants_putMachine ..

theorem fulfillMachine_tenants
    (h : (fulfillMachine controller m).run s = (.ok u, s')) : s'.tenants = s.tenants := by
  obtain ⟨i, need, deadline, s1, hi, -, h1, rfl⟩ := fulfillMachine_ok h
  have ht := blind_tenants.unnoticed h1
  exact tenants_write hi rfl ht

theorem machineOffline_tenants (m : MachineId) (status : MachineStatus A)
    (r : MachineId → Option (SortedVec A)) :
    Keeps (Shows State.tenants r) (machineOffline m status) := by
  refine .get fun s hs => .okOr fun i hi => .set ?_
  refine Eq.trans (tenants_write hi rfl ?_) hs
  split
  · rfl
  · rfl

theorem controllerReportOffline_tenants
    (h : (controllerReportOffline controller m).run s = (.ok u, s')) : s'.tenants = s.tenants := by
  unfold controllerReportOffline at h
  simp only [run_ok] at h
  obtain ⟨i, -, -, -, hoff⟩ := h
  exact (machineOffline_tenants m _ s.tenants s rfl).ok hoff

theorem offlineMachineChangeHardwareInfo_tenants
    (h : (offlineMachineChangeHardwareInfo controller m).run s = (.ok u, s')) :
    s'.tenants = s.tenants := by
  obtain ⟨i, x, s1, hi, -, h1, rfl⟩ := offlineMachineChangeHardwareInfo_ok h
  have ht := blind_tenants.unnoticed h1
  exact tenants_write hi rfl ht

theorem reonline_tenants (hi : s.machine m = some i) (k : i'.renters = i.renters)
    (h1 : s1.tenants = s.tenants) : (s1.reonline m i i').tenants = s.tenants := by
  unfold State.reonline
  refine tenants_write hi k ?_
  split
  · exact h1
  · exact h1

theorem controllerReportOnline_tenants
    (h : (controllerReportOnline controller m).run s = (.ok u, s')) : s'.tenants = s.tenants := by
  obtain rfl | ⟨i, offline, s1, hi, -, h1, rfl⟩ := controllerReportOnline_ok h
  · rfl
  · exact reonline_tenants hi rfl (blind_tenants.unnoticed h1)

theorem doMachineExit_tenants (h : (doMachineExit m i).run s = (.ok u, s')) :
    Thinned s.tenants s'.tenants := by
  obtain ⟨s1, h1, rfl⟩ := doMachineExit_ok h
  have hgone : ∀ s2 : State A, s2.tenants = s.tenants →
      Thinned s.tenants (s2.mapMachines (·.rmInfo m)).tenants := by
    intro s2 h2 x
    rw [tenants_rmInfo, h2]
    by_cases hx : x = m
    · exact .inr (if_pos hx)
    · exact .inl (if_neg hx)
  exact hgone ((s1.mapMachines (·.updateRegionOnExit i)).snapOnline m i false)
    ((tenants_updateRegionOnExit s1 i).trans (blind_tenants.unnoticed h1))

theorem machineExit_tenants (h : (machineExit controller m).run s = (.ok u, s')) :
    Thinned s.tenants s'.tenants := by
  unfold machineExit at h
  simp only [run_ok] at h
  obtain ⟨i, -, -, -, -, -, hexit⟩ := h
  exact doMachineExit_tenants hexit

theorem forceMachineExit_tenants {signer : A} {l : List MachineId}
    (h : (forceMachineExit signer l).run s = (.ok u, s')) : Thinned s.tenants s'.tenants := by
  unfold forceMachineExit at h
  simp only [run_ok] at h
  refine forEach_ok (I := fun s1 : State A => Thinned s.tenants s1.tenants) ?_ (.of_eq rfl) h.2
  intro x _ s1 s2 h1 hone
  unfold forceExitOne at hone
  simp only [run_ok] at hone
  obtain ⟨i, -, hexit⟩ := hone
  exact h1.trans (doMachineExit_tenants hexit)

theorem confirmMachine_tenants (committee : List A) (hw : CommitteeUploadInfo) (s : State A) :
    ((confirmMachine committee hw).run s).2.tenants = s.tenants := by
  refine Post.storage (I := fun s' : State A => s'.tenants = s.tenants)
    ((confirmMachine_rule committee hw fun i s1 isReonline hi h1 => ?_).mono (fun _ _ h => h)
      fun _ _ h => congrArg State.tenants h)
  have ht := blind_tenants.unnoticed h1
  refine ⟨fun need => tenants_write hi rfl ?_, fun time => tenants_write hi rfl ht⟩
  unfold State.regionOnline
  cases isReonline <;> exact ht

theorem refuseMachine_tenants (committee : List A) (m : MachineId) (s : State A) :
    Post (refuseMachine committee m) s (fun _ s' => Thinned s.tenants s'.tenants)
      (fun _ s' => Thinned s.tenants s'.tenants) := by
  refine refuseMachine_rule committee m (.of_eq rfl)
    (fun i s1 _ h1 => .of_eq ((blind_tenants.unnoticed h1).trans rfl)) fun i s1 _ h1 x => ?_
  have hrm : (s1.dropRefused m i).tenants = fun x => if x = m then none else s1.tenants x :=
    tenants_rmInfo ..
  rw [hrm, blind_tenants.unnoticed h1]
  by_cases hx : x = m
  · exact .inr (if_pos hx)
  · exact .inl (if_neg hx)

theorem mtMachineOffline_tenants (reporter : A) (committee : List A) (m : MachineId)
    (fault : OPSlashReason) (r : MachineId → Option (SortedVec A)) :
    Keeps (Shows State.tenants r) (mtMachineOffline reporter committee m fault) :=
  Keeps.get fun _ _ => .okOr fun _ _ => machineOffline_tenants m _ r

theorem dispatch_tenants {c : Call (State A) ε α}
    (h : ∀ a s', c.run s = (.ok a, s') → Relisted s.tenants s'.tenants) :
    Relisted s.tenants (c.dispatch s).2.tenants :=
  dispatch_keeps (I := fun s' : State A => Relisted s.tenants s'.tenants) (.inl (.of_eq rfl)) h

theorem dispatch_shows {c : Call (State A) ε α}
    (h : ∀ r, Keeps (Shows State.tenants r) c) : Relisted s.tenants (c.dispatch s).2.tenants :=
  dispatch_tenants fun _ _ hr => .inl (.of_eq ((h s.tenants s rfl).ok hr))

/-- **What an operation does to the renters.** -/
theorem apply_tenants (crypto : Crypto A) (s : State A) (op : Op A) :
    Relisted s.tenants (apply crypto s op).tenants := by
  have hsame : ∀ s' : State A, s'.tenants = s.tenants → Relisted s.tenants s'.tenants :=
    fun _ h => .inl (.of_eq h)
  by_cases hop : op.unseen true = true
  · exact hsame _ (blind_tenants.apply crypto hop)
  cases op with
  | setRewardInfo i => exact hsame _ rfl
  | setRentfeeDestroyPercent percent => exact hsame _ rfl
  | bondMachine controller m msg sig => exact dispatch_tenants fun _ _ hr => bondMachine_tenants hr
  | addMachineInfo controller m info =>
    exact dispatch_tenants fun _ _ hr => hsame _ (addMachineInfo_tenants hr)
  | updateMachineInfo controller m info =>
    exact dispatch_shows (updateMachineInfo_tenants controller m info)
  | fulfillMachine controller m =>
    exact dispatch_tenants fun _ _ hr => hsame _ (fulfillMachine_tenants hr)
  | controllerReportOffline controller m =>
    exact dispatch_tenants fun _ _ hr => hsame _ (controllerReportOffline_tenants hr)
  | offlineMachineChangeHardwareInfo controller m =>
    exact dispatch_tenants fun _ _ hr => hsame _ (offlineMachineChangeHardwareInfo_tenants hr)
  | controllerReportOnline controller m =>
    exact dispatch_tenants fun _ _ hr => hsame _ (controllerReportOnline_tenants hr)
  | machineExit controller m =>
    exact dispatch_tenants fun _ _ hr => .inl (machineExit_tenants hr)
  | forceMachineExit signer l =>
    exact dispatch_tenants fun _ _ hr => .inl (forceMachineExit_tenants hr)
  | bookedMachine m => exact hsame _ ((moveMachine_tenants m _ _ s.tenants).run rfl)
  | revertBookedMachine m => exact hsame _ ((moveMachine_tenants m _ _ s.tenants).run rfl)
  | confirmMachine committee hw => exact hsame _ (confirmMachine_tenants committee hw s)
  | refuseMachine committee m =>
    exact .inl (Post.storage (I := fun s' : State A => Thinned s.tenants s'.tenants)
      (refuseMachine_tenants committee m s))
  | mtMachineOffline reporter committee m fault =>
    exact hsame _ ((mtMachineOffline_tenants reporter committee m fault s.tenants).run rfl)
  | addOfflineMachineToRenters m renters => exact hsame _ rfl
  | _ => exact absurd rfl hop

/-! ## Reports of rent-machine -/

theorem changeMachineStatusOnRentStart_tenants (m : MachineId) (gpuNum : Nat)
    (r : MachineId → Option (SortedVec A)) :
    Keeps (Shows State.tenants r) (changeMachineStatusOnRentStart m gpuNum) := by
  refine .get fun s hs => .okOr fun i hi => .set ?_
  exact Eq.trans (tenants_write hi rfl rfl) hs

theorem changeMachineStatusOnConfirmExpired_tenants (m : MachineId) (gpuNum : Nat)
    (r : MachineId → Option (SortedVec A)) :
    Keeps (Shows State.tenants r) (changeMachineStatusOnConfirmExpired (A := A) m gpuNum) := by
  refine .get fun s hs => ?_
  have hback : Keeps (Shows State.tenants r) (modify fun s1 : State A => s1.mapMachines fun x =>
      x.setRentedGpu m (s.machines.rentedGpu m - gpuNum) : Call (State A) Unit Unit) :=
    Keeps.modify fun s1 h1 => h1
  refine .ite (Keeps.okOr fun i hi => .bind ?_ fun _ => hback) hback
  exact .modify fun s1 h1 => Eq.trans (tenants_write hi rfl (h1.trans hs.symm)) hs

theorem changeMachineStatusOnConfirmed_tenants (m : MachineId) (renter : A) (s : State A) :
    Post (changeMachineStatusOnConfirmed m renter) s
      (fun _ s' => ∃ l, s.tenants m = some l ∧
        s'.tenants = fun x => if x = m then some (l.addItem renter) else s.tenants x)
      (fun _ s' => s'.tenants = s.tenants) := by
  unfold changeMachineStatusOnConfirmed
  simp only [post_step]
  refine ⟨fun i hi => ⟨i.renters, tenants_of_machine hi, ?_⟩, fun _ => trivial⟩
  refine (tenants_putMachine ..).trans ?_
  split
  · rfl
  · rfl

theorem changeMachineStatusOnRentEnd_tenants (gpuNum duration : Nat) (last lastOfRenter : Bool)
    (renter : A) (hi : s.machine m = some i) (hg : 0 < i.gpuNum) :
    ((changeMachineStatusOnRentEnd m gpuNum duration last lastOfRenter renter).run s).2.tenants =
      fun x => if x = m then some (if lastOfRenter then i.renters.rmItem renter else i.renters)
        else s.tenants x := by
  have hz : ¬ i.gpuNum = 0 := by omega
  have hput : ∀ (s1 : State A) (new : MachineInfo A), s1.tenants = s.tenants →
      new.renters = (if lastOfRenter then i.renters.rmItem renter else i.renters) →
      (s1.putMachine m new).tenants = fun x => if x = m then
        some (if lastOfRenter then i.renters.rmItem renter else i.renters) else s.tenants x := by
    intro s1 new h1 hnew
    rw [tenants_putMachine, h1, hnew]
  refine Post.storage (I := fun s' : State A => s'.tenants = _) ?_
  unfold changeMachineStatusOnRentEnd
  simp only [post_step, post_ite, hi, Option.some.injEq, reduceCtorEq, false_implies, and_true]
  rintro _ rfl
  refine ⟨fun h => absurd h hz, fun _ => ⟨fun _ => ?_, fun _ => ⟨fun _ => ?_, fun _ => ?_⟩⟩⟩
  · exact hput _ _ rfl rfl
  · exact hput _ _ rfl rfl
  · exact hput _ _ rfl rfl

end

/-! ## The booked machines -/

section

variable {A : Type} [LinearOrder A] {m m' : MachineId} {k k' : Place} {l : LiveMachine}

theorem mem_booked_move (hk : k' ≠ .booked) (h : m ∈ (l.move k k' m').list .booked) :
    m ∈ l.list .booked := by
  simp only [LiveMachine.move, LiveMachine.mem_enter, LiveMachine.mem_leave] at h
  rcases h with ⟨-, he⟩ | h
  · exact absurd he.symm hk
  · exact h.2

theorem mem_booked_leave (h : m ∈ (l.leave k m').list .booked) : m ∈ l.list .booked :=
  (LiveMachine.mem_leave.1 h).2

omit [LinearOrder A] in
theorem Exits.booked {ms : List MachineId} {r r' : Roster A} (h : Exits ms r r')
    (hm : m ∈ r'.live.list .booked) : m ∈ r.live.list .booked := by
  induction ms generalizing r with
  | nil =>
    cases h
    exact hm
  | cons a ms ih => exact mem_booked_leave (ih h.2)

/-- A machine is only booked by `booked_machine`. -/
theorem Op.Moves.booked {now : Nat} {r r' : Roster A} {op : Op A} (h : op.Moves now r r')
    (hop : ∀ m, op ≠ .bookedMachine m) (hm : m ∈ r'.live.list .booked) :
    m ∈ r.live.list .booked := by
  cases op with
  | bookedMachine m0 => exact absurd rfl (hop m0)
  | bondMachine _ m0 _ _ =>
    obtain ⟨-, rfl⟩ := h
    have hm : m ∈ (r.live.enter .bonding m0).list .booked := hm
    rcases LiveMachine.mem_enter.1 hm with ⟨-, he⟩ | hm
    · cases he
    · exact hm
  | addMachineInfo _ m0 _ =>
    obtain ⟨_, _, -, -, rfl⟩ := h
    simp only [Roster.put] at hm
    split at hm
    · exact mem_booked_move (by decide) hm
    · exact hm
  | updateMachineInfo _ m0 _ =>
    obtain ⟨_, _, -, -, rfl⟩ := h
    exact hm
  | fulfillMachine _ m0 =>
    obtain ⟨-, -, rfl⟩ := h
    exact mem_booked_move (by decide) hm
  | controllerReportOffline _ m0 =>
    obtain ⟨_, -, -, rfl⟩ := h
    exact mem_booked_leave (mem_booked_move (by decide) hm)
  | offlineMachineChangeHardwareInfo _ m0 =>
    obtain ⟨-, rfl⟩ := h
    exact mem_booked_move (by decide) hm
  | controllerReportOnline _ m0 =>
    obtain ⟨st, -, -, rfl⟩ := h
    generalize (if r.finished m0 = true then MachineStatus.online else statusBefore st) = st' at hm
    simp only [Roster.reonline, Roster.put, Roster.setFinished] at hm
    split at hm
    · exact mem_booked_move (by decide) hm
    · exact mem_booked_move (by decide) hm
  | machineExit _ m0 =>
    obtain ⟨-, rfl⟩ := h
    exact mem_booked_leave hm
  | forceMachineExit _ ms => exact Exits.booked h hm
  | revertBookedMachine m0 =>
    obtain ⟨-, rfl⟩ := h
    exact mem_booked_move (by decide) hm
  | confirmMachine _ hw =>
    obtain ⟨-, rfl | rfl⟩ := h
    · exact mem_booked_move (by decide) hm
    · exact mem_booked_move (by decide) hm
  | refuseMachine _ m0 =>
    obtain ⟨_, -, rfl | rfl⟩ := h
    · exact mem_booked_move (by decide) hm
    · exact mem_booked_leave hm
  | mtMachineOffline _ _ m0 _ =>
    obtain ⟨_, -, rfl⟩ := h
    exact mem_booked_leave (mem_booked_move (by decide) hm)
  | _ => exact absurd h id

def State.Booked (s : State A) (m : MachineId) : Prop := m ∈ s.machines.liveMachines.bookedMachine

theorem apply_booked (crypto : Crypto A) (s : State A) {op : Op A}
    (hop : ∀ m, op ≠ .bookedMachine m) (hm : (apply crypto s op).Booked m) : s.Booked m := by
  have hm' : m ∈ (apply crypto s op).roster.live.list .booked := hm
  rcases apply_moves crypto s op with he | h
  · rw [he] at hm'
    exact hm'
  · exact h.booked hop hm'

end

end DeepBrainChain.OnlineProfile
