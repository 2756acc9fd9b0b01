import DeepBrainChain.OnlineProfile.Events

/-!
# The operations of online-profile

One type for everything that can happen to the pallet within a block: its extrinsics, what the
committee pallets ask of it, and any change of the storage below it. `apply_may` collects what each
operation can do to the machines.
-/

namespace DeepBrainChain.OnlineProfile

open Lib GenericFunc Support Lib.Call

section

variable {A : Type} [LinearOrder A]

/-- The operations. The last group is not transactional. -/
inductive Op (A : Type) [LinearOrder A]
  | setRewardInfo (i : PhaseRewardInfoDetail)
  | setOnlineStakeParams (p : OnlineStakeParamsInfo)
  | setStandardGpuPointPrice (p : StandardGpuPointPrice)
  | setRentfeeDestroyPercent (percent : Perbill)
  | updateAuthorizedForceExitAccounts (accounts : List A)
  | setController (stash controller : A)
  | stashResetController (stash new : A)
  | genServerRoom (controller : A) (room : Nat)
  | bondMachine (controller : A) (m : MachineId) (msg sig : Bytes)
  | addMachineInfo (controller : A) (m : MachineId) (info : StakerCustomizeInfo)
  | updateMachineInfo (controller : A) (m : MachineId) (info : StakerCustomizeInfo)
  | fulfillMachine (controller : A) (m : MachineId)
  | restakeOnlineMachine (controller : A) (m : MachineId)
  | claimRewards (controller : A)
  | controllerReportOffline (controller : A) (m : MachineId)
  | offlineMachineChangeHardwareInfo (controller : A) (m : MachineId)
  | controllerReportOnline (controller : A) (m : MachineId)
  | machineExit (controller : A) (m : MachineId)
  | forceMachineExit (signer : A) (machineIds : List MachineId)
  | applySlashReview (controller : A) (id : Nat) (reason : Bytes)
  | cancelSlash (id : Nat)
  | execSlash (m : MachineId)
  | bookedMachine (m : MachineId)
  | revertBookedMachine (m : MachineId)
  | confirmMachine (committee : List A) (hardware : CommitteeUploadInfo)
  | refuseMachine (committee : List A) (m : MachineId)
  | changeStakedBalance (stash : A) (amount : Nat) (isAdd : Bool)
  | rmStashTotalStake (stash : A) (amount : Nat)
  | mtMachineOffline (reporter : A) (committee : List A) (m : MachineId) (fault : OPSlashReason)
  | addOfflineMachineToRenters (m : MachineId) (renters : List A)
  | outside (c : Committee.State A)

def apply (crypto : Crypto A) (s : State A) : Op A → State A
  | .setRewardInfo i => ((setRewardInfo i).dispatch s).2
  | .setOnlineStakeParams p => ((setOnlineStakeParams p).dispatch s).2
  | .setStandardGpuPointPrice p => ((setStandardGpuPointPrice p).dispatch s).2
  | .setRentfeeDestroyPercent percent => ((setRentfeeDestroyPercent percent).dispatch s).2
  | .updateAuthorizedForceExitAccounts l => ((updateAuthorizedForceExitAccounts l).dispatch s).2
  | .setController stash controller => ((setController stash controller).dispatch s).2
  | .stashResetController stash new => ((stashResetController stash new).dispatch s).2
  | .genServerRoom controller room => ((genServerRoom controller room).dispatch s).2
  | .bondMachine controller m msg sig => ((bondMachine crypto controller m msg sig).dispatch s).2
  | .addMachineInfo controller m info => ((addMachineInfo controller m info).dispatch s).2
  | .updateMachineInfo controller m info => ((updateMachineInfo controller m info).dispatch s).2
  | .fulfillMachine controller m => ((fulfillMachine controller m).dispatch s).2
  | .restakeOnlineMachine controller m => ((restakeOnlineMachine controller m).dispatch s).2
  | .claimRewards controller => ((claimRewards controller).dispatch s).2
  | .controllerReportOffline controller m =>
    ((controllerReportOffline controller m).dispatch s).2
  | .offlineMachineChangeHardwareInfo controller m =>
    ((offlineMachineChangeHardwareInfo controller m).dispatch s).2
  | .controllerReportOnline controller m => ((controllerReportOnline controller m).dispatch s).2
  | .machineExit controller m => ((machineExit controller m).dispatch s).2
  | .forceMachineExit signer l => ((forceMachineExit signer l).dispatch s).2
  | .applySlashReview controller id reason =>
    ((applySlashReview controller id reason).dispatch s).2
  | .cancelSlash id => ((cancelSlash id).dispatch s).2
  | .execSlash m => ((execSlash m).dispatch s).2
  | .bookedMachine m => ((bookedMachine m).run s).2
  | .revertBookedMachine m => ((revertBookedMachine m).run s).2
  | .confirmMachine committee hardware => ((confirmMachine committee hardware).run s).2
  | .refuseMachine committee m => ((refuseMachine committee m).run s).2
  | .changeStakedBalance stash amount isAdd => ((changeStake stash amount isAdd).run s).2
  | .rmStashTotalStake stash amount => ((rmStashTotalStake stash amount).run s).2
  | .mtMachineOffline reporter committee m fault =>
    ((mtMachineOffline reporter committee m fault).run s).2
  | .addOfflineMachineToRenters m renters => s.addOfflineMachineToRenters m renters
  | .outside c => s.setCommitteeState { c with now := s.now }

/-- The events an operation causes, if it causes any but quiet ones. -/
def Op.chain : Op A → List Label
  | .bondMachine _ m _ _ => [.bond m]
  | .fulfillMachine _ m | .controllerReportOnline _ m => [.online m]
  | .controllerReportOffline _ m | .offlineMachineChangeHardwareInfo _ m
  | .mtMachineOffline _ _ m _ => [.offline m]
  | .machineExit _ m => [.exit m]
  | .forceMachineExit _ l => l.map .exit
  | .confirmMachine _ hardware => [.verify hardware]
  | .refuseMachine _ m => [.refuse m]
  | _ => []

/-- A call that leaves the storage as it was when it fails. -/
theorem post_may {ε α : Type} {ks : List Label} {c : Call (State A) ε α} {s : State A}
    (h : Post c s (fun _ s' => May ks s s') (fun _ s' => s' = s)) : May ks s (c.run s).2 := by
  refine Post.storage (I := May ks s) (h.mono (fun _ _ h => h) ?_)
  rintro _ _ rfl
  exact .inl (Events.refl _)

theorem post_quiet {ε α : Type} {c : Call (State A) ε α} {s : State A}
    (h : Post c s (fun _ s' => Events onlyQuiet s s') (fun _ s' => s' = s)) :
    May [] s (c.run s).2 := post_may (h.mono (fun _ _ h => .inl h) fun _ _ h => h)

/-- **Every operation is a chain of its events**, or of quiet ones. -/
theorem apply_may (crypto : Crypto A) (s : State A) (op : Op A) :
    May op.chain s (apply crypto s op) := by
  have hquiet : ∀ f : State A → State A, Quiet s (f s) →
      May [] s (((modify f : Call (State A) Error Unit).dispatch s).2) :=
    fun f hq => .inl (hq.events rfl)
  have hcall : ∀ {c : Call (State A) Error Unit},
      Call.Keeps (Quiet s) c → May [] s (c.dispatch s).2 :=
    fun hc => dispatch_quiet fun _ _ hr => ((hc s (Quiet.refl s)).ok hr).events rfl
  have hslash : ∀ {s1 : State A} (f : Slashes A → Slashes A), Quiet s s1 →
      Quiet s (s1.mapSlashes f) := fun f h => h.mapSlashes f
  cases op with
  | setRewardInfo i => exact hquiet _ ⟨rfl, rfl, rfl, rfl⟩
  | setOnlineStakeParams p => exact hquiet _ ⟨rfl, rfl, rfl, rfl⟩
  | setStandardGpuPointPrice p => exact hquiet _ ⟨rfl, rfl, rfl, rfl⟩
  | setRentfeeDestroyPercent percent => exact hquiet _ ⟨rfl, rfl, rfl, rfl⟩
  | updateAuthorizedForceExitAccounts l => exact hquiet _ ⟨rfl, rfl, rfl, rfl⟩
  | setController stash controller => exact hcall ((quiet_unseen s).setController _ _)
  | stashResetController stash new =>
    exact dispatch_quiet fun _ _ h => stashResetController_events h
  | genServerRoom controller room => exact hcall ((quiet_unseen s).genServerRoom _ _)
  | bondMachine controller m msg sig => exact dispatch_may fun _ _ h => bondMachine_events h
  | addMachineInfo controller m info => exact dispatch_quiet fun _ _ h => addMachineInfo_events h
  | updateMachineInfo controller m info =>
    exact dispatch_quiet fun _ _ h => updateMachineInfo_events h
  | fulfillMachine controller m => exact dispatch_may fun _ _ h => fulfillMachine_events h
  | restakeOnlineMachine controller m =>
    exact dispatch_quiet fun _ _ h => restakeOnlineMachine_events h
  | claimRewards controller => exact dispatch_quiet fun _ _ h => claimRewards_events h
  | controllerReportOffline controller m =>
    exact dispatch_may fun _ _ h => controllerReportOffline_events h
  | offlineMachineChangeHardwareInfo controller m =>
    exact dispatch_may fun _ _ h => offlineMachineChangeHardwareInfo_events h
  | controllerReportOnline controller m =>
    exact dispatch_may fun _ _ h => controllerReportOnline_events h
  | machineExit controller m => exact dispatch_may fun _ _ h => machineExit_events h
  | forceMachineExit signer l => exact dispatch_may fun _ _ h => forceMachineExit_events h
  | applySlashReview controller id reason =>
    exact hcall ((quiet_unseen s).applySlashReview (fun f h => hslash f h) _ _ _)
  | cancelSlash id => exact hcall ((quiet_unseen s).cancelSlash (fun f h => hslash f h) _)
  | execSlash m => exact hcall (Unseen.execSlash (fun f h => hslash f h) m)
  | bookedMachine m => exact post_quiet (moveMachine_post rfl _)
  | revertBookedMachine m => exact post_quiet (moveMachine_post rfl _)
  | confirmMachine committee hardware => exact post_may (confirmMachine_post committee hardware)
  | refuseMachine committee m =>
    exact Post.storage (I := May [.refuse m] s) (refuseMachine_post committee m)
  | changeStakedBalance stash amount isAdd =>
    exact post_quiet ((changeStake_post stash amount isAdd).mono
      (fun _ _ h => h.events rfl) fun _ _ h => h)
  | rmStashTotalStake stash amount =>
    exact post_quiet ((rmStashTotalStake_post stash amount).mono
      (fun _ _ h => h.events rfl) fun _ _ h => h)
  | mtMachineOffline reporter committee m fault =>
    exact post_may (mtMachineOffline_post reporter committee m fault)
  | addOfflineMachineToRenters m renters => exact .inl (Quiet.events ⟨rfl, rfl, rfl, rfl⟩ rfl)
  | outside c => exact .inl (Quiet.events ⟨rfl, rfl, rfl, rfl⟩ rfl)

/-! ## The start of a block -/

/-- What rewards are not about is kept by `backup_and_reward`. -/
theorem backupAndReward_rule {I : State A → Prop}
    (hcommittee : ∀ {s} c each, I s →
      I (s.setCommitteeState (Committee.addReward s.toCommittee c each)))
    (hstash : ∀ {s} a x, I s → I (s.putStashMachine a x))
    (hrewards : ∀ {s} f, I s → I (s.mapRewards f)) (h : I s) : I s.backupAndReward := by
  unfold State.backupAndReward
  simp only
  split
  · exact hrewards _ h
  split
  · refine hrewards _ (foldl_keeps (fun s m h => ?_) _ h)
    unfold State.distributeRewardToMachine
    split
    · exact h
    simp only
    split
    · exact hrewards _ h
    · exact hrewards _ (hrewards _ (hstash _ _ (foldl_keeps (fun _ c h => hcommittee c _ h) _ h)))
  · exact h

theorem backupAndReward_quiet (s : State A) : Quiet s s.backupAndReward :=
  backupAndReward_rule (fun _ _ h => (quiet_unseen s).committee _ rfl h)
    (fun _ _ h => ⟨h.now, h.machines, h.rented, h.eras⟩)
    (fun _ h => ⟨h.now, h.machines, h.rented, h.eras⟩) (Quiet.refl s)

/-- **The hook at the start of a block** leaves the machines alone and starts an era in the second
block of a day. -/
structure BlockStart (s s' : State A) : Prop where
  now : s'.now = s.now
  machines : s'.machines.machinesInfo = s.machines.machinesInfo
  rented : s'.machines.machineRentedGpu = s.machines.machineRentedGpu
  eras : s'.grades.eras = if s.now % oneDay = 1 then s.grades.eras.startEra else s.grades.eras

theorem onInitialize_blockStart (s : State A) : BlockStart s s.onInitialize := by
  have h1 := backupAndReward_quiet s
  have hslash : ∀ s1 : State A, Quiet s1 (checkPendingSlash.run s1.execPendingSlash).2 :=
    pendingSlashes_quiet
  unfold State.onInitialize
  simp only
  rw [h1.now]
  by_cases hday : s.now % oneDay = 1
  · rw [if_pos hday]
    have h3 := hslash s.backupAndReward.newEra
    refine ⟨h3.now.trans h1.now, h3.machines.trans h1.machines, h3.rented.trans h1.rented, ?_⟩
    rw [if_pos hday]
    exact h3.eras.trans (congrArg Eras.startEra h1.eras)
  · rw [if_neg hday]
    have h3 := hslash s.backupAndReward
    refine ⟨h3.now.trans h1.now, h3.machines.trans h1.machines, h3.rented.trans h1.rented, ?_⟩
    rw [if_neg hday]
    exact h3.eras.trans h1.eras

/-! # Views of the storage

A view is anything read off the storage. A view that is blind to stakes, slashes and the parts of a
record that nobody counts is left alone by the calls that write nothing else. -/

/-- A view that does not see owners, stakes, slashes, rewards and the pallets below except for the
block number, and of the records and statistics at most what `Alike` and `Holding` keep. A record or a holding that was read
in a storage of the same view may be written back. -/
structure Blind {β : Type} (v : State A → β) : Prop where
  committee : ∀ s c, c.now = s.now → v (s.setCommitteeState c) = v s
  owners : ∀ s f, v (s.mapOwners f) = v s
  stakes : ∀ s f, v (s.mapStakes f) = v s
  slashes : ∀ s f, v (s.mapSlashes f) = v s
  rewards : ∀ s f, (∀ r, (f r).allMachineIdSnap = r.allMachineIdSnap) → v (s.mapRewards f) = v s
  sysInfo : ∀ s f, (∀ i, (f i).totalGpuNum = i.totalGpuNum ∧ (f i).totalStaker = i.totalStaker) →
    v (s.mapSysInfo f) = v s
  stash : ∀ s s₁ a x, Holding.of x = Holding.of (s.stashMachine a) → v s₁ = v s →
    v (s₁.putStashMachine a x) = v s
  machine : ∀ s s₁ m i i', s.machine m = some i → Alike i i' → v s₁ = v s →
    v (s₁.putMachine m i') = v s

def Shows {β : Type} (v : State A → β) (a : β) (s : State A) : Prop := v s = a

/-- The operations that no blind view sees; those on slashes only if it does not see `slashes`. -/
def Op.unseen (slashes : Bool) : Op A → Bool
  | .applySlashReview .. | .cancelSlash _ | .execSlash _ => slashes
  | .setOnlineStakeParams _ | .setStandardGpuPointPrice _ | .updateAuthorizedForceExitAccounts _
  | .setController .. | .stashResetController .. | .genServerRoom .. | .restakeOnlineMachine ..
  | .claimRewards _ | .changeStakedBalance .. | .rmStashTotalStake .. | .outside _ => true
  | _ => false

theorem UnseenRecord.apply {I : State A → Prop} (hI : UnseenRecord I) {b : Bool}
    (hslash : b = true → ∀ {s} f, I s → I (s.mapSlashes f)) (crypto : Crypto A) {op : Op A}
    (hop : op.unseen b = true) {s : State A} (hs : I s) : I (apply crypto s op) := by
  have hcall : ∀ {ε α : Type} {c : Call (State A) ε α}, Keeps I c → I (c.dispatch s).2 :=
    fun hc => dispatch_keeps hs fun _ _ hr => (hc s hs).ok hr
  cases op with
  | setOnlineStakeParams p => exact hcall (Keeps.modify fun _ hs => hI.stakes _ hs)
  | setStandardGpuPointPrice p => exact hcall (Keeps.modify fun _ hs => hI.stakes _ hs)
  | updateAuthorizedForceExitAccounts l => exact hcall (Keeps.modify fun _ hs => hI.owners _ hs)
  | setController stash controller => exact hcall (hI.setController _ _)
  | stashResetController stash new => exact hcall (hI.stashResetController _ _)
  | genServerRoom controller room => exact hcall (hI.genServerRoom _ _)
  | restakeOnlineMachine controller m => exact hcall (hI.restakeOnlineMachine _ _)
  | claimRewards controller => exact hcall (hI.claimRewards _)
  | applySlashReview controller id reason => exact hcall (hI.applySlashReview (hslash hop) _ _ _)
  | cancelSlash id => exact hcall (hI.cancelSlash (hslash hop) _)
  | execSlash m => exact hcall (Unseen.execSlash (hslash hop) m)
  | changeStakedBalance stash amount isAdd => exact (hI.changeStake _ _ _).run hs
  | rmStashTotalStake stash amount => exact (hI.rmStashTotalStake _ _).run hs
  | outside c => exact hI.committee _ rfl hs
  | _ => cases hop

section Calls

variable {β : Type} {v : State A → β} {a : β} {s s₁ : State A} {m : MachineId}
  {i i' : MachineInfo A}

section

variable (hv : Blind v)

include hv

theorem Blind.putMachine (h : Shows v a s) (hi : s.machine m = some i)
    (h1 : Shows v a s₁) (k : Alike i i') : Shows v a (s₁.putMachine m i') :=
  (hv.machine s s₁ m i i' hi k (h1.trans h.symm)).trans h

theorem Blind.mapRewards (h : Shows v a s) {f : Rewards A → Rewards A}
    (hf : ∀ r, (f r).allMachineIdSnap = r.allMachineIdSnap) :
    Shows v a (s.mapRewards f) := (hv.rewards s f hf).trans h

/-- What a blind view shows is unseen. -/
theorem Blind.record : UnseenRecord (Shows v a) where
  committee c hc h := (hv.committee _ c hc).trans h
  owners f h := (hv.owners _ f).trans h
  stakes f h := (hv.stakes _ f).trans h
  sysInfo f hf h := (hv.sysInfo _ f hf).trans h
  stash b x hx h h1 := (hv.stash _ _ b x hx (h1.trans h.symm)).trans h
  machine _ _ _ hi k h h1 := hv.putMachine h hi h1 k

theorem Blind.slash {s : State A} (f : Slashes A → Slashes A) (h : Shows v a s) :
    Shows v a (s.mapSlashes f) := (hv.slashes s f).trans h

theorem Blind.unnoticed (h : Unnoticed s s₁) : v s₁ = v s :=
  h _ hv.record.toUnseen (fun f h => hv.slash f h) rfl

theorem Blind.apply (crypto : Crypto A) {op : Op A} (hop : op.unseen true = true) :
    v (apply crypto s op) = v s :=
  hv.record.apply (fun _ _ f h => hv.slash f h) crypto hop (show Shows v (v s) s from rfl)

end

/-! ## The start of a block -/

theorem Blind.distributeRewardToMachine (hv : Blind v) (era reward : Nat)
    (machinePoints : StorageMap MachineId MachineGradeStatus) (stashPoints : EraStashPoints A)
    (s : State A) (m : MachineId) (h : Shows v a s) :
    Shows v a (State.distributeRewardToMachine era reward machinePoints stashPoints s m) := by
  unfold State.distributeRewardToMachine
  split
  · exact h
  · next old _ =>
    simp only
    split
    · exact hv.mapRewards h fun _ => rfl
    · unfold State.putRecentReward
      refine hv.mapRewards (hv.mapRewards ?_ fun r => ?_) fun r => rfl
      swap
      · exact rfl
      refine Eq.trans (hv.stash _ _ _ _ rfl rfl) ?_
      refine foldl_keeps (fun s c hs => ?_) _ h
      refine Eq.trans (hv.committee s _ ?_) hs
      rfl

theorem Blind.pendingSlashes (hv : Blind v) (h : Shows v a s) :
    Shows v a (checkPendingSlash.run s.execPendingSlash).2 :=
  hv.record.pendingSlashes (fun f h => hv.slash f h) h

end Calls

/-! # What a rental does to a machine

The four calls by which rent-machine reports the life of an order. Each of them writes the record of
the machine and the number of its rented cards; the snapshots change with the first order that is
confirmed and with the last one that ends. -/

open StorageMap

/-- The record of `m` changes from `i` to `i'`, and `n` of its cards are rented afterwards. -/
structure Rental (m : MachineId) (n : Nat) (i i' : MachineInfo A) (s s' : State A) : Prop where
  now : s'.now = s.now
  had : s.machine m = some i
  machine : ∀ m', s'.machine m' = if m' = m then some i' else s.machine m'
  rented : ∀ m', s'.machines.rentedGpu m' = if m' = m then n else s.machines.rentedGpu m'
  kept : Stays i i'

variable {s s' : State A} {m : MachineId} {i i' : MachineInfo A} {u : Unit}

theorem Rental.put {n : Nat} (hi : s.machine m = some i) (k : Stays i i') (hnow : s'.now = s.now)
    (hm : s'.machines.machinesInfo = s.machines.machinesInfo.insert m i')
    (hr : s'.machines.machineRentedGpu = s.machines.machineRentedGpu.insert m n) :
    Rental m n i i' s s' := by
  refine ⟨hnow, hi, fun m' => ?_, fun m' => ?_, k⟩
  · unfold State.machine
    rw [hm, get_insert]
  · unfold Machines.rentedGpu
    rw [hr, getD_insert]

theorem Rental.rented_sub {n : Nat} (h : Rental m (s.machines.rentedGpu m - n) i i' s s')
    (m' : MachineId) :
    s'.machines.rentedGpu m' = s.machines.rentedGpu m' - if m = m' then n else 0 := by
  rw [h.rented]
  split
  · next e =>
    subst e
    rw [if_pos rfl]
  · next e => rw [if_neg (Ne.symm e), Nat.sub_zero]

theorem changeMachineStatusOnRentStart_post (m : MachineId) (gpuNum : Nat) (s : State A) :
    Post (changeMachineStatusOnRentStart m gpuNum) s
      (fun _ s' => ∃ i, Rental m (saturatingAdd u32Max (s.machines.rentedGpu m) gpuNum) i
        (i.setStatus .rented) s s' ∧ s'.grades.eras = s.grades.eras) (fun _ s' => s' = s) := by
  unfold changeMachineStatusOnRentStart
  simp only [post_step]
  refine ⟨fun i hi => ⟨i, Rental.put hi ⟨⟨rfl, rfl, rfl⟩, fun h => ?_⟩ rfl rfl rfl, rfl⟩,
    fun _ => trivial⟩
  cases h

theorem changeMachineStatusOnConfirmed_post (m : MachineId) (renter : A) (s : State A) :
    Post (changeMachineStatusOnConfirmed m renter) s
      (fun _ s' => ∃ i, s.machine m = some i ∧ Touch m (some (State.confirmedBy i renter)) s s' ∧
        s'.grades.eras = if m ∈ s.machines.liveMachines.rentedMachine then s.grades.eras
          else s.grades.eras.onRentChanged m i true) (fun _ s' => s' = s) := by
  unfold changeMachineStatusOnConfirmed
  simp only [post_step]
  refine ⟨fun i hi => ⟨i, hi, Touch.put ?_ ?_ ?_ m _, ?_⟩, fun _ => trivial⟩
  all_goals split <;> rfl

theorem changeMachineStatusOnRentEnd_run (gpuNum duration : Nat) (lastOfMachine lastOfRenter : Bool)
    (renter : A) (hi : s.machine m = some i) (hg : 0 < i.gpuNum) :
    ∃ i' s', (changeMachineStatusOnRentEnd m gpuNum duration lastOfMachine lastOfRenter renter).run
        s = (.ok (), s') ∧
      Rental m (s.machines.rentedGpu m - gpuNum) i i' s s' ∧
      s'.grades.eras = if i.machineStatus = .rented ∧ lastOfMachine = true
        then s.grades.eras.onRentChanged m i false else s.grades.eras := by
  have hz : ¬ i.gpuNum = 0 := by omega
  unfold changeMachineStatusOnRentEnd
  simp only [run_bind, run_get, hi, run_okOr_some, hz, if_false]
  by_cases hoff : i.machineStatus.isOffline = true
  · have hne : ¬ (i.machineStatus = .rented ∧ lastOfMachine = true) := by
      rintro ⟨h, -⟩
      rw [h] at hoff
      cases hoff
    rw [if_pos hoff, if_neg hne]
    exact ⟨State.rentEnded i gpuNum duration lastOfRenter renter, _, rfl,
      Rental.put hi ⟨⟨rfl, rfl, rfl⟩, fun _ => rfl⟩ rfl rfl rfl, rfl⟩
  · rw [if_neg hoff]
    by_cases hlast : i.machineStatus = .rented ∧ lastOfMachine = true
    · rw [if_pos hlast, if_pos hlast]
      refine ⟨(State.rentEnded i gpuNum duration lastOfRenter renter).reonlined s.now .online, _,
        rfl, Rental.put hi ⟨⟨rfl, rfl, rfl⟩, fun h => ?_⟩ rfl rfl rfl, rfl⟩
      cases h
    · rw [if_neg hlast, if_neg hlast]
      exact ⟨State.rentEnded i gpuNum duration lastOfRenter renter, _, rfl,
        Rental.put hi ⟨⟨rfl, rfl, rfl⟩, fun _ => rfl⟩ rfl rfl rfl, rfl⟩

theorem changeMachineStatusOnConfirmExpired_run (gpuNum : Nat) (hi : s.machine m = some i) :
    ∃ i' s', (changeMachineStatusOnConfirmExpired m gpuNum).run s = (.ok (), s') ∧
      Rental m (s.machines.rentedGpu m - gpuNum) i i' s s' ∧
      s'.grades.eras = s.grades.eras := by
  unfold changeMachineStatusOnConfirmExpired
  by_cases hleft : s.machines.rentedGpu m - gpuNum = 0
  · simp only [run_bind, run_get, hleft, if_true, hi, run_okOr_some, run_modify]
    refine ⟨i.setStatus .online, _, rfl,
      Rental.put hi ⟨⟨rfl, rfl, rfl⟩, fun h => ?_⟩ rfl rfl rfl, rfl⟩
    cases h
  · simp only [run_bind, run_get, hleft, if_false, run_modify]
    refine ⟨i, _, rfl, ⟨rfl, hi, fun m' => ?_, fun m' => ?_, ⟨⟨rfl, rfl, rfl⟩, fun _ => rfl⟩⟩, rfl⟩
    · split
      · next h => exact h ▸ hi
      · rfl
    · exact getD_insert ..

theorem changeMachineRentFee_events (stash : A) (m : MachineId) (toDestroy toStash : Nat)
    (s : State A) : Post (changeMachineRentFee stash m toDestroy toStash) s
      (fun _ s' => Events onlyQuiet s s') (fun _ s' => Events onlyQuiet s s') := by
  unfold changeMachineRentFee
  rw [post_bind]
  refine (fulfillMachineStake_events stash toStash s).mono (fun _ s1 h1 => ?_) (fun _ _ h => h)
  simp only [post_step]
  refine ⟨fun i hi => h1.trans ?_, fun _ => h1⟩
  refine Event.events (.keep hi (Touch.put ?_ ?_ ?_ m _) ⟨⟨?_, ?_, ?_⟩, fun _ => ?_⟩ ?_) rfl
  all_goals rfl

/-! ## Machines that must keep their records -/

/-- The event does not drop the record of a machine in `K` or leave it with a number of cards
that does not meet `P`. -/
def Label.spares (K : MachineId → Prop) (P : MachineId → Nat → Prop) : Label → Prop
  | .exit m | .refuse m => ¬ K m
  | .verify hw => K hw.machineId → P hw.machineId hw.gpuNum
  | _ => True

/-- Every machine in `K` has a record, with a number of cards that meets `P`. -/
def HasCards (K : MachineId → Prop) (P : MachineId → Nat → Prop) (s : State A) : Prop :=
  ∀ m, K m → ∃ i, s.machine m = some i ∧ P m i.gpuNum

variable {K : MachineId → Prop} {P : MachineId → Nat → Prop}

theorem onlyQuiet_spares (l : Label) (h : onlyQuiet l) : l.spares K P := by
  subst h
  trivial

theorem HasCards.mono {K' : MachineId → Prop} (hs : HasCards K P s) (hK : ∀ m, K' m → K m) :
    HasCards K' P s := fun m hm => hs m (hK m hm)

theorem HasCards.touch {o : Option (MachineInfo A)} (hs : HasCards K P s)
    (t : Touch m o s s') (ho : K m → ∃ i, o = some i ∧ P m i.gpuNum) : HasCards K P s' := by
  intro m' hm'
  rw [t.machine]
  split
  · next e =>
    subst e
    exact ho hm'
  · exact hs m' hm'

theorem HasCards.event {l : Label} (hs : HasCards K P s) (he : Event s s' l)
    (hl : l.spares K P) : HasCards K P s' := by
  -- a record that is kept has the cards of the old one
  have hkept : ∀ {m i i'}, s.machine m = some i → i'.gpuNum = i.gpuNum → K m →
      ∃ j : MachineInfo A, some i' = some j ∧ P m j.gpuNum := by
    intro m i i' hi hg hm
    obtain ⟨j, hj, hpos⟩ := hs m hm
    rw [hi] at hj
    cases hj
    exact ⟨i', rfl, hg ▸ hpos⟩
  cases he with
  | same h =>
    intro m hm
    rw [h.machine]
    exact hs m hm
  | keep h t k => exact hs.touch t (hkept h k.gpuNum)
  | bond h t =>
    refine hs.touch t fun hm => ?_
    obtain ⟨i, hi, -⟩ := hs _ hm
    rw [h] at hi
    cases hi
  | online h t k => exact hs.touch t (hkept h k.gpuNum)
  | onlineRented h t k => exact hs.touch t (hkept h k.gpuNum)
  | @verify hw i i' h t _ hh =>
    refine hs.touch t fun hm => ⟨i', rfl, ?_⟩
    show P hw.machineId i'.committeeUploadInfo.gpuNum
    rw [hh]
    exact hl hm
  | offline h t k => exact hs.touch t (hkept h k.gpuNum)
  | exit h t => exact hs.touch t fun hm => absurd hm hl
  | refuse h t => exact hs.touch t fun hm => absurd hm hl

theorem HasCards.events {L : Label → Prop} (hs : HasCards K P s)
    (he : Events L s s') (hL : ∀ l, L l → l.spares K P) : HasCards K P s' := by
  induction he with
  | refl => exact hs
  | tail _ hstep ih =>
    obtain ⟨l, hl, he⟩ := hstep
    exact ih.event he (hL l hl)

theorem HasCards.rental {n : Nat} (hs : HasCards K P s)
    (h : Rental m n i i' s s') : HasCards K P s' := by
  intro m' hm'
  obtain ⟨j, hj, hpos⟩ := hs m' hm'
  rw [h.machine]
  split
  · next e =>
    subst e
    rw [h.had] at hj
    cases hj
    exact ⟨i', rfl, h.kept.gpuNum ▸ hpos⟩
  · exact ⟨j, hj, hpos⟩

end

/-! ## The stake of a report online -/

section

open StorageMap

variable {A : Type} [LinearOrder A] {s s' : State A} {u : Unit}

/-- A machine that reports online stakes its slash, unless it is waived, and the slash is queued. -/
def SlashStaked (m : MachineId) (s s' : State A) : Prop :=
  ∃ i offline slash, s.machine m = some i ∧ offlineTime i.machineStatus = some offline ∧
    s.reportOnlineSlash m i (s.now - offline) = some (some slash) ∧
    s'.stashStake i.machineStash = s.stashStake i.machineStash +
      (if s.slashWaived m i offline then 0 else slash.slashAmount) ∧
    (s.slashWaived m i offline = false → slash.slashAmount ≠ 0 →
      s'.slashes.pendingSlash.get s.slashes.nextSlashId = some slash)

theorem addStakedSlash_ok {stash : A} {x : OPPendingSlashInfo A}
    (h : (addStakedSlash stash x).run s = (.ok u, s')) :
    s'.stashStake stash = s.stashStake stash + x.slashAmount ∧
      (x.slashAmount ≠ 0 → s'.slashes.pendingSlash.get s.slashes.nextSlashId = some x) := by
  unfold addStakedSlash changeStake at h
  simp only [run_ok, run_when_ok] at h
  rcases h with ⟨hne, s1, ⟨stake, hstake, b, -, rfl⟩, rfl⟩ | ⟨hz, rfl⟩
  · obtain ⟨-, rfl⟩ := checkedAdd_eq_some.1 hstake
    refine ⟨?_, fun _ => ?_⟩
    · show (s.stakes.stashStake.insert stash _).getD stash 0 = _
      rw [getD_insert, if_pos rfl]
    · show (s.slashes.pendingSlash.insert s.slashes.nextSlashId x).get s.slashes.nextSlashId = _
      rw [get_insert, if_pos rfl]
  · have hz' : x.slashAmount = 0 := by omega
    rw [hz']
    exact ⟨rfl, fun h => absurd rfl h⟩

theorem reonline_stakes (s : State A) (m : MachineId) (old i : MachineInfo A) :
    (s.reonline m old i).stakes = s.stakes ∧ (s.reonline m old i).slashes = s.slashes := by
  unfold State.reonline
  simp only
  split
  · exact ⟨rfl, rfl⟩
  · exact ⟨rfl, rfl⟩

theorem controllerReportOnline_staked {controller : A} {m : MachineId}
    (h : (controllerReportOnline controller m).run s = (.ok u, s')) :
    s' = s ∨ SlashStaked m s s' := by
  unfold controllerReportOnline at h
  simp only [run_ok] at h
  obtain ⟨i, hi, -, offline, htime, h⟩ := h
  split at h
  · cases h
    exact .inl rfl
  next slash hslash =>
  simp only [run_ok] at h
  obtain ⟨x, rfl, _, s1, hadd, rfl⟩ := h
  obtain ⟨hstake, hqueue⟩ := addStakedSlash_ok hadd
  obtain ⟨hstakes, hslashes⟩ := reonline_stakes s1 m i (i.reonlined s1.now
    (if s.machines.rentedFinished.contains m then .online else statusBefore i.machineStatus))
  refine .inr ⟨i, offline, x, hi, htime, hslash, ?_, fun hw hne => ?_⟩
  · unfold State.stashStake at hstake ⊢
    rw [hstakes, hstake]
    split
    · rfl
    · rfl
  · rw [hw] at hqueue
    rw [hslashes]
    exact hqueue hne

end

end DeepBrainChain.OnlineProfile
