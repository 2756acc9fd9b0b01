import DeepBrainChain.OnlineProfile.Calls
import Mathlib.Logic.Relation

/-!
# What payments leave alone

Most calls of the pallet move stakes, queue or execute slashes, or change the parts of a record that
nobody counts. A property of the storage that does not see these writes is kept by each such call.
-/

namespace DeepBrainChain.OnlineProfile

open Lib GenericFunc Support Lib.Call

/-- What is counted of a stash: the machines it bonded, those online, and their cards. -/
structure Holding where
  total : SortedVec MachineId
  online : SortedVec MachineId
  gpus : Nat

def Holding.of (x : StashMachine) : Holding := ⟨x.totalMachine, x.onlineMachine, x.totalGpuNum⟩

section

variable {A : Type} [LinearOrder A]

/-- The owner, the cards, the status and the renters of a machine stay. -/
structure Alike (i i' : MachineInfo A) : Prop where
  stash : i'.machineStash = i.machineStash
  gpuNum : i'.gpuNum = i.gpuNum
  status : i'.machineStatus = i.machineStatus
  renters : i'.renters = i.renters

/-- A property that does not see owners, stakes and the pallets below except for the block number,
and of the statistics at most what `Holding` keeps. Statistics that were read in a storage with the
property may be written back. -/
structure Unseen (I : State A → Prop) : Prop where
  committee : ∀ {s} c, c.now = s.now → I s → I (s.setCommitteeState c)
  owners : ∀ {s} f, I s → I (s.mapOwners f)
  stakes : ∀ {s} f, I s → I (s.mapStakes f)
  sysInfo : ∀ {s} f, (∀ i, (f i).totalGpuNum = i.totalGpuNum ∧ (f i).totalStaker = i.totalStaker) →
    I s → I (s.mapSysInfo f)
  stash : ∀ {s s₁} a x, Holding.of x = Holding.of (s.stashMachine a) → I s → I s₁ →
    I (s₁.putStashMachine a x)

/-- The same for records: one that was read may be written back. -/
structure UnseenRecord (I : State A → Prop) : Prop extends Unseen I where
  machine : ∀ {s s₁} m i i', s.machine m = some i → Alike i i' → I s → I s₁ →
    I (s₁.putMachine m i')

section Calls

variable {I : State A → Prop} {s : State A}

section

variable (hI : Unseen I)

include hI

theorem Unseen.setBalances (b : Balances A) (h : I s) : I (s.setBalances b) :=
  hI.committee { s.toCommittee with balances := b } rfl h

theorem Unseen.changeStake (who : A) (amount : Nat) (isAdd : Bool) :
    Keeps I (changeStake who amount isAdd) := by
  refine .get fun s hs => .okOr fun _ _ => .okOr fun _ _ => .set ?_
  exact hI.stakes _ (hI.sysInfo _ (fun _ => ⟨rfl, rfl⟩) (hI.setBalances _ hs))

theorem Unseen.payFixedTxFee (who : A) : Keeps I (payFixedTxFee who) := by
  intro s hs
  unfold OnlineProfile.payFixedTxFee GenericFunc.payFixedTxFee
  simp only [post_step, post_mapError, post_zoom]
  have hsame : ∀ c : GenericFunc.Chain A, c.now = s.now → I (s.setChain c) :=
    fun c hc => hI.committee { s.toCommittee with toChain := c } hc hs
  exact ⟨fun _ _ => ⟨fun _ => hsame _ rfl, fun _ => hsame _ rfl⟩, fun _ => hsame _ rfl⟩

theorem Unseen.slashAndReward (who : A) (amount : Nat) (l : List A) (h : I s) :
    I (s.slashAndReward who amount l) :=
  hI.sysInfo _ (fun _ => ⟨rfl, rfl⟩) (hI.stakes _ (hI.setBalances _ h))

theorem Unseen.payVerifyFee (stash : A) (m : MachineId) : Keeps I (payVerifyFee stash m) := by
  refine .get fun s _ => ?_
  split
  · exact .pure ()
  · refine .ite (Keeps.okOr fun fee _ => ?_) (Keeps.pure ())
    exact (hI.changeStake _ _ _).mapError.bind fun _ => .modify fun _ hs => hI.stakes _ hs

theorem Unseen.setController (stash controller : A) : Keeps I (setController stash controller) :=
  Keeps.get fun _ hs => .guard <| .guard <|
    .set (hI.owners _ hs)

theorem Unseen.genServerRoom (controller : A) (room : Nat) :
    Keeps I (genServerRoom controller room) :=
  Keeps.get fun _ _ => .okOr fun _ _ => (hI.payFixedTxFee _).bind fun _ =>
    .modify fun _ hs => hI.owners _ hs

theorem Unseen.rmStashTotalStake (stash : A) (amount : Nat) :
    Keeps I (rmStashTotalStake stash amount) := by
  refine .get fun s hs => .okOr fun _ _ => .okOr fun _ _ => .set ?_
  exact hI.sysInfo _ (fun _ => ⟨rfl, rfl⟩) (hI.stakes _ hs)

end

/-! ## Calls that write records -/

section

variable (hI : UnseenRecord I)

include hI

theorem UnseenRecord.fulfillOne (m : MachineId) (left : Nat) :
    Keeps I (fulfillOne (A := A) m left) := by
  refine .get fun s hs => ?_
  split
  · exact .pure _
  · next i hi =>
    have hput : ∀ (amount : Nat) (s₁ : State A), I s₁ →
        I (s₁.putMachine m (i.setStakeAmount amount)) :=
      fun amount s₁ h1 => hI.machine m i _ hi ⟨rfl, rfl, rfl, rfl⟩ hs h1
    refine .okOr fun perGpu _ => .okOr fun need _ => .ite (Keeps.pure _) ?_
    refine .ite ?_ ?_
    · refine (hI.changeStake _ _ _).bind fun _ => ?_
      exact .bind (Keeps.modify (hput _)) fun _ => .pure _
    · refine (hI.changeStake _ _ _).bind fun _ => ?_
      exact .bind (Keeps.modify (hput _)) fun _ => .pure _

theorem UnseenRecord.fulfillLoop (l : List MachineId) (left : Nat) :
    Keeps I (fulfillLoop (A := A) l left) := by
  induction l generalizing left with
  | nil => exact .pure ()
  | cons m l ih =>
    unfold OnlineProfile.fulfillLoop
    refine (hI.fulfillOne m left).bind fun next => ?_
    cases next with
    | none => exact .pure ()
    | some left => exact ih left

theorem UnseenRecord.fulfillMachineStake (stash : A) (amount : Nat) :
    Keeps I (fulfillMachineStake stash amount) :=
  Keeps.get fun _ _ => hI.fulfillLoop _ _

theorem UnseenRecord.stashResetController (stash new : A) :
    Keeps I (stashResetController stash new) := by
  refine .get fun s _ => .guard <| .okOr fun pre _ => ?_
  refine (Keeps.forEach fun m _ => ?_).bind fun _ => .modify fun s hs => hI.owners _ hs
  refine .get fun s₁ h1 => .okOr fun i hi => .set ?_
  exact hI.machine _ i _ hi ⟨rfl, rfl, rfl, rfl⟩ h1 h1

theorem UnseenRecord.restakeOnlineMachine (controller : A) (m : MachineId) :
    Keeps I (restakeOnlineMachine controller m) := by
  refine .get fun s hs => .okOr fun i hi => .guard <| ?_
  refine .guard <| .okOr fun perGpu _ => .okOr fun need _ => ?_
  refine .guard <| (hI.changeStake _ _ _).mapError.bind fun _ => ?_
  exact .modify fun s₁ h1 => hI.machine _ i _ hi ⟨rfl, rfl, rfl, rfl⟩ hs h1

end

theorem holding_claimReward {x : StashMachine} {paid : Nat × StashMachine}
    (h : x.claimReward = some paid) : Holding.of paid.2 = Holding.of x := by
  obtain ⟨claimed, -, rfl⟩ := Option.map_eq_some_iff.1 h
  rfl

theorem UnseenRecord.claimRewards (hI : UnseenRecord I) (controller : A) :
    Keeps I (claimRewards controller) := by
  refine .get fun s hs => .okOr fun stash _ => .okOr fun x hx => ?_
  refine .okOr fun paid hpaid => .okOr fun b _ => ?_
  refine .bind (Keeps.set (hI.setBalances b hs)) fun _ => ?_
  refine (hI.fulfillMachineStake _ _).mapError.bind fun _ => .modify fun s₁ h1 => ?_
  have hread : s.stashMachine stash = x := by
    unfold State.stashMachine StorageMap.getD
    rw [hx]
    rfl
  exact hI.stash stash paid.2 ((holding_claimReward hpaid).trans (congrArg Holding.of hread.symm))
    hs h1

theorem UnseenRecord.changeMachineRentFee (hI : UnseenRecord I) (stash : A) (m : MachineId)
    (toDestroy toStash : Nat) : Keeps I (changeMachineRentFee stash m toDestroy toStash) := by
  refine (hI.fulfillMachineStake stash toStash).bind fun _ => .get fun s hs => ?_
  refine .okOr fun i hi => .set ?_
  have hsys := hI.sysInfo (·.changeRentFee toDestroy toStash) (fun _ => ⟨rfl, rfl⟩) hs
  exact hI.machine m i _ hi ⟨rfl, rfl, rfl, rfl⟩ hs (hI.stash i.machineStash _ rfl hs hsys)

/-! ## Properties that do not see slashes either -/

theorem Unseen.slashIf (hI : Unseen I) (p : Prop) [Decidable p] (who : A) (amount : Nat)
    (l : List A) (h : I s) : I (if p then s.slashAndReward who amount l else s) := by
  split
  · exact hI.slashAndReward who amount l h
  · exact h

theorem Unseen.doSlashDeposit (hI : Unseen I) (x : OPPendingSlashInfo A) (h : I s) :
    I (s.doSlashDeposit x) := by
  unfold State.doSlashDeposit
  split
  · exact h
  · split
    · exact h
    · exact hI.slashAndReward _ _ _ (hI.slashIf _ _ _ _ (hI.slashIf _ _ _ _ h))

theorem foldl_keeps {β : Type} {f : State A → β → State A} (hf : ∀ s b, I s → I (f s b))
    (l : List β) (h : I s) : I (l.foldl f s) := by
  induction l generalizing s with
  | nil => exact h
  | cons b l ih => exact ih (hf s b h)

variable (hslash : ∀ {s} f, I s → I (s.mapSlashes f))

include hslash

theorem Unseen.addStakedSlash (hI : Unseen I) (stash : A) (x : OPPendingSlashInfo A) :
    Keeps I (addStakedSlash stash x) :=
  Keeps.when ((hI.changeStake _ _ _).mapError.bind fun _ => .modify fun _ hs => hslash _ hs)

theorem Unseen.applySlashReview (hI : Unseen I) (controller : A) (id : Nat) (reason : Bytes) :
    Keeps I (applySlashReview controller id reason) := by
  refine .get fun s _ => .okOr fun _ _ => .okOr fun _ _ => .okOr fun _ _ => ?_
  refine .guard <| .guard <| ?_
  exact (hI.changeStake _ _ _).mapError.bind fun _ => .modify fun _ hs => hslash _ hs

theorem Unseen.cancelSlash (hI : Unseen I) (id : Nat) : Keeps I (cancelSlash (A := A) id) := by
  refine .get fun s _ => .okOr fun _ _ => .okOr fun _ _ => ?_
  refine (hI.changeStake _ _ _).mapError.bind fun _ => ?_
  exact (hI.changeStake _ _ _).mapError.bind fun _ => .modify fun _ hs => hslash _ hs

theorem Unseen.execSlash (m : MachineId) : Keeps I (execSlash (A := A) m) := by
  refine .get fun s _ => .okOr fun i _ => ?_
  split
  · refine .okOr fun _ _ => .guard <| .guard <| ?_
    exact .okOr fun x _ => (Keeps.when (Keeps.modify fun _ hs => hslash _ hs)).bind
      fun _ => .modify fun _ hs => hslash _ hs
  · exact fun s hs => hs

theorem Unseen.execPendingSlash (hI : Unseen I) (h : I s) : I s.execPendingSlash := by
  refine foldl_keeps (fun s id hs => ?_) _ h
  unfold State.execOneSlash
  split
  · exact hs
  · next x _ =>
    refine hslash _ ?_
    split
    · exact hI.slashAndReward _ _ _ hs
    · exact hI.slashAndReward _ _ _ hs
    · exact hI.doSlashDeposit x hs

theorem Unseen.checkPendingSlash (hI : Unseen I) : Keeps I (checkPendingSlash (A := A)) := by
  refine .get fun s _ => .ite ?_ (Keeps.pure ())
  refine (Keeps.forEach fun id _ => ?_).bind fun _ => .modify fun _ hs => hslash _ hs
  exact .get fun s hs => .okOr fun _ _ => .okOr fun _ _ =>
    .set (hslash _ (hI.slashAndReward _ _ _ hs))

theorem Unseen.pendingSlashes (hI : Unseen I) (h : I s) :
    I (OnlineProfile.checkPendingSlash.run s.execPendingSlash).2 :=
  (hI.checkPendingSlash hslash).run (hI.execPendingSlash hslash h)

end Calls

/-! ## Calls that move a machine

Before such a call writes the record of the machine it only moves stakes and queues slashes. -/

/-- No property that does not see stakes and slashes can tell the two storages apart. -/
def Unnoticed (s s₁ : State A) : Prop :=
  ∀ I : State A → Prop, Unseen I → (∀ {s} f, I s → I (s.mapSlashes f)) → I s → I s₁

theorem Unnoticed.refl (s : State A) : Unnoticed s s := fun _ _ _ h => h

theorem unnoticed_unseen (s : State A) : Unseen (Unnoticed s) where
  committee c hc h I hI hs h0 := hI.committee c hc (h I hI hs h0)
  owners f h I hI hs h0 := hI.owners f (h I hI hs h0)
  stakes f h I hI hs h0 := hI.stakes f (h I hI hs h0)
  sysInfo f hf h I hI hs h0 := hI.sysInfo f hf (h I hI hs h0)
  stash a x hx h h1 I hI hs h0 := hI.stash a x hx (h I hI hs h0) (h1 I hI hs h0)

theorem unnoticed_addStakedSlash (s : State A) (stash : A) (x : OPPendingSlashInfo A) :
    Keeps (Unnoticed s) (addStakedSlash stash x) :=
  (unnoticed_unseen s).addStakedSlash (fun f h I hI hs h0 => hs f (h I hI hs h0)) stash x

section Moves

variable {s s' : State A} {u : Unit} {m : MachineId} {i : MachineInfo A} {controller : A}

theorem checkBondingMsg_same {crypto : Crypto A} {stash : A} {msg sig : Bytes}
    (h : (checkBondingMsg crypto stash m msg sig).run s = (.ok u, s')) : s' = s := by
  unfold checkBondingMsg at h
  simp only [run_bind_ok, run_okOr_ok, run_ensure_ok] at h
  grind

theorem bondMachine_ok {crypto : Crypto A} {msg sig : Bytes}
    (h : (bondMachine crypto controller m msg sig).run s = (.ok u, s')) :
    ∃ stash amount s₁, s.owners.controllerStash.get controller = some stash ∧
      s.machine m = none ∧ m ∉ (s.stashMachine stash).totalMachine ∧ Unnoticed s s₁ ∧
      s' = (((s₁.putStashMachine stash ((s₁.stashMachine stash).newBonding m)).mapLive
        (·.onBonding m)).mapOwners (·.addMachine controller m)).putMachine m
          (.newBonding controller stash s₁.now amount) := by
  unfold bondMachine at h
  simp only [run_ok] at h
  obtain ⟨stash, hstash, hm, hnew, _, s1, hmsg, amount, -, _, s2, hfee, _, s3, hstake, rfl⟩ := h
  cases checkBondingMsg_same hmsg
  have h2 := ((unnoticed_unseen s).payFixedTxFee controller s (.refl s)).ok hfee
  have h3 := ((unnoticed_unseen s).changeStake stash amount true s2 h2).ok hstake
  exact ⟨stash, amount, s3, hstash, hm, hnew, h3, rfl⟩

theorem addMachineInfo_ok {info : StakerCustomizeInfo}
    (h : (addMachineInfo controller m info).run s = (.ok u, s')) :
    ∃ i s₁, s.machine m = some i ∧ Unnoticed s s₁ ∧
      s' = (s₁.mapLive (·.onAddServerRoom m)).putMachine m (i.addServerRoomInfo info) := by
  unfold addMachineInfo at h
  simp only [run_ok] at h
  obtain ⟨i, hi, -, -, -, -, _, s1, hfee, rfl⟩ := h
  exact ⟨i, s1, hi, ((unnoticed_unseen s).payVerifyFee _ m s (.refl s)).ok hfee, rfl⟩

theorem fulfillMachine_ok (h : (fulfillMachine controller m).run s = (.ok u, s')) :
    ∃ i need deadline s₁, s.machine m = some i ∧ m ∈ s.machines.liveMachines.fulfillingMachine ∧
      Unnoticed s s₁ ∧
      let new := i.fulfilled need s.now deadline
      s' = (((((s₁.rmMutHardware i.machineStash m).putRecentReward m
        (newRecentReward new)).regionOnline new true).snapOnline m i true).mapLive fun l =>
          { l with
            fulfillingMachine := l.fulfillingMachine.rmItem m
            onlineMachine := l.onlineMachine.addItem m }).putMachine m new := by
  unfold fulfillMachine at h
  simp only [run_ok] at h
  obtain ⟨i, hi, -, hlist, need, -, _, s1, hstake, rfl⟩ := h
  exact ⟨i, _, _, s1, hi, hlist, (Keeps.when ((unnoticed_unseen s).changeStake i.machineStash _
    true).mapError s (.refl s)).ok hstake, rfl⟩

theorem offlineMachineChangeHardwareInfo_ok
    (h : (offlineMachineChangeHardwareInfo controller m).run s = (.ok u, s')) :
    ∃ i x s₁, s.machine m = some i ∧ i.machineStatus = .online ∧ Unnoticed s s₁ ∧
      s' = ((((s₁.putMutHardware i.machineStash m x).regionOnline i false).snapOnline m i
        false).mapLive (·.onOfflineChangeHardware m)).putMachine m
          (i.setStatus (.stakerReportOffline s₁.now .online)) := by
  unfold offlineMachineChangeHardwareInfo at h
  simp only [run_ok] at h
  obtain ⟨i, hi, -, honline, fee, -, _, s1, hstake, rfl⟩ := h
  exact ⟨i, _, s1, hi, honline,
    ((unnoticed_unseen s).changeStake i.machineStash _ true s (.refl s)).ok hstake, rfl⟩

/-- A machine that went offline from neither `Online` nor `Rented` stays as it is. -/
theorem controllerReportOnline_ok (h : (controllerReportOnline controller m).run s = (.ok u, s')) :
    s' = s ∨ ∃ i offline s₁, s.machine m = some i ∧ offlineTime i.machineStatus = some offline ∧
      Unnoticed s s₁ ∧ s' = s₁.reonline m i (i.reonlined s₁.now
        (if s.machines.rentedFinished.contains m then .online
          else statusBefore i.machineStatus)) := by
  unfold controllerReportOnline at h
  simp only [run_ok] at h
  obtain ⟨i, hi, -, offline, htime, h⟩ := h
  split at h
  · cases h
    exact .inl rfl
  simp only [run_ok] at h
  obtain ⟨x, -, _, s1, hslash, rfl⟩ := h
  exact .inr ⟨i, offline, s1, hi, htime,
    (unnoticed_addStakedSlash s i.machineStash _ s (.refl s)).ok hslash, rfl⟩

theorem doMachineExit_ok (h : (doMachineExit m i).run s = (.ok u, s')) :
    ∃ s₁, Unnoticed s s₁ ∧
      s' = ((((s₁.mapMachines (·.updateRegionOnExit i)).snapOnline m i false).mapLive
        (·.onExit m)).mapOwners (·.exitMachine i.controller m)).mapMachines (·.rmInfo m) := by
  unfold doMachineExit at h
  simp only [run_ok] at h
  obtain ⟨_, s1, hstake, rfl⟩ := h
  exact ⟨s1, ((unnoticed_unseen s).changeStake i.machineStash _ false s (.refl s)).ok hstake, rfl⟩

/-- A machine that was verified goes online with its new hardware, or waits for more stake. -/
theorem confirmMachine_rule {Q : State A → Prop} (committee : List A) (hw : CommitteeUploadInfo)
    (h : ∀ i s₁ isReonline, s.machine hw.machineId = some i → Unnoticed s s₁ →
      (∀ need, Q (s₁.confirmOnline hw.machineId (State.wentOnline (State.verified i committee hw
        isReonline) need s₁.now (s₁.grades.eras.currentEra + rewardDuration) isReonline)
        isReonline)) ∧
      ∀ time, Q (s₁.confirmFulfilling hw.machineId (State.verified i committee hw isReonline)
        time)) :
    Post (confirmMachine committee hw) s (fun _ => Q) (fun _ s' => s' = s) := by
  unfold confirmMachine
  simp only [post_step]
  refine ⟨fun i hi => ?_, fun _ => trivial⟩
  set reonline := s.stakes.userMutHardwareStake.get (i.machineStash, hw.machineId)
  have hI := unnoticed_unseen s
  have hpay : Post (whenSome reonline fun x => modify fun s =>
      s.payReonline i.machineStash committee x) s (fun _ => Unnoticed s)
      (fun (_ : Unit) s' => s' = s) := by
    rw [post_whenSome]
    exact ⟨fun x _ => hI.slashAndReward _ _ _ (hI.slashAndReward _ _ _ (.refl s)), fun _ => .refl s⟩
  refine hpay.mono (fun _ s₁ h1 => ?_) (fun _ _ h => h)
  rw [post_attempt]
  exact (Keeps.when (hI.changeStake _ _ _) s₁ h1).mono (fun _ s2 h2 => (h i s2 _ hi h2).1 _)
    fun _ s2 h2 => (h i s2 _ hi h2).2 _

/-- A refused machine is dropped; one that only changed its hardware goes back to be bonded, and
the call fails. -/
theorem refuseMachine_rule {Q R : State A → Prop} (committee : List A) (m : MachineId) (hs : R s)
    (hback : ∀ i s₁, s.machine m = some i → Unnoticed (s.mapLive fun l =>
      { l with
        bookedMachine := l.bookedMachine.rmItem m
        bondingMachine := l.bondingMachine.addItem m }) s₁ → R s₁)
    (hdrop : ∀ i s₁, s.machine m = some i → Unnoticed s s₁ → Q (s₁.dropRefused m i)) :
    Post (refuseMachine committee m) s (fun _ => Q) (fun _ => R) := by
  unfold refuseMachine
  simp only [post_step]
  refine ⟨fun i hi => ?_, fun _ => hs⟩
  split
  · rw [post_bind, post_set]
    have hI := unnoticed_unseen (s.mapLive fun l =>
      { l with
        bookedMachine := l.bookedMachine.rmItem m
        bondingMachine := l.bondingMachine.addItem m })
    exact hback i _ hi (hI.stakes _ (hI.slashAndReward _ _ _ (.refl _)))
  · simp only [post_step, post_ignore]
    exact ((unnoticed_unseen s).changeStake _ _ _ s (.refl s)).mono
      (fun _ s₁ h1 => hdrop i s₁ hi h1) fun _ s₁ h1 => hdrop i s₁ hi h1

end Moves

end

/-! # What an operation can do to a machine

Every operation of online-profile either leaves the machines and the era snapshots alone, or
takes one machine at a time through one of a few events: it is bonded, comes online, is verified,
goes offline, exits, or is refused. This file says once, for each operation, which events it can
cause; the invariants about machines and snapshots are then shown event by event. -/

open StorageMap

section

variable {A : Type} [LinearOrder A]

/-! ## Events -/

/-- The owner and the hardware of a machine stay. -/
structure Kept (i i' : MachineInfo A) : Prop where
  stash : i'.machineStash = i.machineStash
  gpuNum : i'.gpuNum = i.gpuNum
  calcPoint : i'.calcPoint = i.calcPoint

/-- Besides, the machine is not taken offline. -/
structure Stays (i i' : MachineInfo A) : Prop extends Kept i i' where
  offline : i'.machineStatus.isOffline = true → i'.machineStatus = i.machineStatus

/-- A machine that comes online is only offline afterwards if it had gone offline twice. -/
def FromBefore (i i' : MachineInfo A) : Prop :=
  i'.machineStatus.isOffline = true →
    i.machineStatus.isOffline = true ∧ (statusBefore i.machineStatus).isOffline = true

/-- The clock, the machines and the snapshots are left alone. -/
structure Quiet (s s' : State A) : Prop where
  now : s'.now = s.now
  machines : s'.machines.machinesInfo = s.machines.machinesInfo
  rented : s'.machines.machineRentedGpu = s.machines.machineRentedGpu
  eras : s'.grades.eras = s.grades.eras

/-- Only the record of `m` is written: it is `o` afterwards. -/
structure Touch (m : MachineId) (o : Option (MachineInfo A)) (s s' : State A) : Prop where
  now : s'.now = s.now
  machine : ∀ m', s'.machine m' = if m' = m then o else s.machine m'
  rented : s'.machines.machineRentedGpu = s.machines.machineRentedGpu

inductive Label
  | quiet
  | bond (m : MachineId)
  | online (m : MachineId)
  | verify (hardware : CommitteeUploadInfo)
  | offline (m : MachineId)
  | exit (m : MachineId)
  | refuse (m : MachineId)

/-- The events. The snapshots are those of the code: a machine counts with the record it has
before the event, and a verified one with its new hardware. -/
inductive Event (s s' : State A) : Label → Prop
  | same (h : Quiet s s') : Event s s' .quiet
  | keep {m : MachineId} {i i' : MachineInfo A} (h : s.machine m = some i)
      (t : Touch m (some i') s s') (k : Stays i i') (e : s'.grades.eras = s.grades.eras) :
      Event s s' .quiet
  | bond {m : MachineId} {i : MachineInfo A} (h : s.machine m = none)
      (t : Touch m (some i) s s') (f : i.machineStatus.isOffline = false)
      (e : s'.grades.eras = s.grades.eras) : Event s s' (.bond m)
  | online {m : MachineId} {i i' : MachineInfo A} (h : s.machine m = some i)
      (t : Touch m (some i') s s') (k : Kept i i') (b : FromBefore i i')
      (e : s'.grades.eras = s.grades.eras.onOnlineChanged m i true) : Event s s' (.online m)
  | onlineRented {m : MachineId} {i i' : MachineInfo A} (h : s.machine m = some i)
      (t : Touch m (some i') s s') (k : Kept i i') (b : FromBefore i i')
      (e : s'.grades.eras = (s.grades.eras.onOnlineChanged m i true).onRentChanged m i true) :
      Event s s' (.online m)
  | verify {hw : CommitteeUploadInfo} {i i' : MachineInfo A} (h : s.machine hw.machineId = some i)
      (t : Touch hw.machineId (some i') s s') (hs : i'.machineStash = i.machineStash)
      (hh : i'.committeeUploadInfo = hw) (f : i'.machineStatus.isOffline = false)
      (e : s'.grades.eras = s.grades.eras.onOnlineChanged hw.machineId i' true ∨
        s'.grades.eras = s.grades.eras) : Event s s' (.verify hw)
  | offline {m : MachineId} {i i' : MachineInfo A} (h : s.machine m = some i)
      (t : Touch m (some i') s s') (k : Kept i i')
      (b : statusBefore i'.machineStatus = i.machineStatus)
      (e : s'.grades.eras = (if i.machineStatus = .rented then
        s.grades.eras.onRentChanged m i false else s.grades.eras).onOnlineChanged m i false) :
      Event s s' (.offline m)
  | exit {m : MachineId} {i : MachineInfo A} (h : s.machine m = some i)
      (t : Touch m none s s')
      (e : s'.grades.eras = s.grades.eras.onOnlineChanged m i false) : Event s s' (.exit m)
  | refuse {m : MachineId} {i : MachineInfo A} (h : s.machine m = some i)
      (t : Touch m none s s') (e : s'.grades.eras = s.grades.eras) : Event s s' (.refuse m)

/-- A sequence of events with labels in `L`. -/
def Events (L : Label → Prop) : State A → State A → Prop :=
  Relation.ReflTransGen fun s s' => ∃ l, L l ∧ Event s s' l

def onlyQuiet (l : Label) : Prop := l = .quiet

/-- The events `ks` in this order, and quiet events after them. -/
def Chain : List Label → State A → State A → Prop
  | [], s, s' => Events onlyQuiet s s'
  | k :: ks, s, s' => ∃ s₁, Event s s₁ k ∧ Chain ks s₁ s'

/-- The events `ks` or none of them, and quiet events. -/
def May (ks : List Label) (s s' : State A) : Prop := Events onlyQuiet s s' ∨ Chain ks s s'

section

variable {s s' s'' : State A} {L : Label → Prop} {m : MachineId} {i i' : MachineInfo A}

theorem Quiet.refl (s : State A) : Quiet s s := ⟨rfl, rfl, rfl, rfl⟩

theorem Quiet.trans (h : Quiet s s') (h' : Quiet s' s'') : Quiet s s'' :=
  ⟨h'.now.trans h.now, h'.machines.trans h.machines, h'.rented.trans h.rented, h'.eras.trans h.eras⟩

theorem Quiet.machine (h : Quiet s s') (m : MachineId) : s'.machine m = s.machine m := by
  unfold State.machine
  rw [h.machines]

theorem Events.refl (s : State A) : Events L s s := Relation.ReflTransGen.refl

theorem Events.trans (h : Events L s s') (h' : Events L s' s'') : Events L s s'' :=
  Relation.ReflTransGen.trans h h'

theorem Events.mono {L' : Label → Prop} (h : Events L s s') (hL : ∀ l, L l → L' l) :
    Events L' s s' := by
  induction h with
  | refl => exact Events.refl s
  | tail _ hstep ih =>
    obtain ⟨l, hl, he⟩ := hstep
    exact ih.tail ⟨l, hL l hl, he⟩

variable {l : Label} {ks : List Label} {α ε : Type}

theorem Event.frame (h : Event s s' l) :
    s'.now = s.now ∧ s'.machines.machineRentedGpu = s.machines.machineRentedGpu := by
  cases h with
  | same h => exact ⟨h.now, h.rented⟩
  | keep _ t | bond _ t | online _ t | onlineRented _ t | verify _ t | offline _ t | exit _ t
  | refuse _ t => exact ⟨t.now, t.rented⟩

theorem Events.frame (h : Events L s s') :
    s'.now = s.now ∧ s'.machines.machineRentedGpu = s.machines.machineRentedGpu := by
  induction h with
  | refl => exact ⟨rfl, rfl⟩
  | tail _ hstep ih =>
    obtain ⟨l, -, he⟩ := hstep
    exact ⟨he.frame.1.trans ih.1, he.frame.2.trans ih.2⟩

theorem Events.now (h : Events L s s') : s'.now = s.now := h.frame.1

theorem Events.rentedGpu (h : Events L s s') (m : MachineId) :
    s'.machines.rentedGpu m = s.machines.rentedGpu m := by
  unfold Machines.rentedGpu
  rw [h.frame.2]

theorem Event.events (h : Event s s' l) (hl : L l) : Events L s s' :=
  Relation.ReflTransGen.single ⟨l, hl, h⟩

theorem Event.may {k : Label} (h : Event s s' k) : May [k] s s' :=
  .inr ⟨s', h, Events.refl s'⟩

theorem Chain.events (h : Chain ks s s') : Events (fun l => l = .quiet ∨ l ∈ ks) s s' := by
  induction ks generalizing s with
  | nil => exact Events.mono h fun _ hl => .inl hl
  | cons k ks ih =>
    obtain ⟨s₁, he, hrest⟩ := h
    refine (he.events (.inr List.mem_cons_self)).trans ((ih hrest).mono fun l hl => ?_)
    exact hl.imp_right (List.mem_cons_of_mem k)

theorem May.events (h : May ks s s') : Events (fun l => l = .quiet ∨ l ∈ ks) s s' := by
  rcases h with h | h
  · exact Events.mono h fun _ hl => .inl hl
  · exact h.events

theorem Quiet.events (h : Quiet s s') (hl : L .quiet) : Events L s s' := (Event.same h).events hl

/-- Writing the record of a machine after quiet steps; the snapshots may have changed. -/
theorem Touch.put (hnow : s'.now = s.now) (hm : s'.machines.machinesInfo = s.machines.machinesInfo)
    (hr : s'.machines.machineRentedGpu = s.machines.machineRentedGpu) (m : MachineId)
    (i : MachineInfo A) : Touch m (some i) s (s'.putMachine m i) := by
  refine ⟨hnow, fun m' => ?_, hr⟩
  show (s'.machines.machinesInfo.insert m i).get m' = _
  rw [hm, get_insert]
  rfl

theorem Quiet.put (h : Quiet s s') (m : MachineId) (i : MachineInfo A) :
    Touch m (some i) s (s'.putMachine m i) := Touch.put h.now h.machines h.rented m i

theorem mapLive_quiet (s : State A) (f : LiveMachine → LiveMachine) : Quiet s (s.mapLive f) :=
  ⟨rfl, rfl, rfl, rfl⟩

/-- Dropping the record of a machine after quiet steps; the snapshots may have changed. -/
theorem Touch.drop (hnow : s'.now = s.now) (hm : s'.machines.machinesInfo = s.machines.machinesInfo)
    (hr : s'.machines.machineRentedGpu = s.machines.machineRentedGpu) (m : MachineId) :
    Touch m none s (s'.mapMachines (·.rmInfo m)) := by
  refine ⟨hnow, fun m' => ?_, hr⟩
  show (s'.machines.machinesInfo.remove m).get m' = _
  rw [hm, get_remove]
  rfl

theorem dispatch_may {c : Call (State A) ε α}
    (h : ∀ a s', c.run s = (.ok a, s') → May ks s s') : May ks s (c.dispatch s).2 :=
  dispatch_keeps (I := May ks s) (.inl (Events.refl s)) h

theorem dispatch_quiet {c : Call (State A) ε α}
    (h : ∀ a s', c.run s = (.ok a, s') → Events onlyQuiet s s') : May [] s (c.dispatch s).2 :=
  dispatch_may fun a s' hr => .inl (h a s' hr)

end

/-! ## Stakes and slashes are quiet -/

section

variable {s s' : State A}

theorem quiet_unseen (s : State A) : Unseen (Quiet s) where
  committee _ hc h := ⟨hc.trans h.now, h.machines, h.rented, h.eras⟩
  owners _ h := ⟨h.now, h.machines, h.rented, h.eras⟩
  stakes _ h := ⟨h.now, h.machines, h.rented, h.eras⟩
  sysInfo _ _ h := ⟨h.now, h.machines, h.rented, h.eras⟩
  stash _ _ _ _ h := ⟨h.now, h.machines, h.rented, h.eras⟩

theorem Quiet.mapSlashes (h : Quiet s s') (f : Slashes A → Slashes A) :
    Quiet s (s'.mapSlashes f) := ⟨h.now, h.machines, h.rented, h.eras⟩

theorem changeStake_post (who : A) (amount : Nat) (isAdd : Bool) :
    Post (changeStake who amount isAdd) s (fun _ s' => Quiet s s') (fun _ s' => s' = s) := by
  unfold changeStake
  simp only [post_step]
  exact ⟨fun _ _ => ⟨fun _ _ => ⟨rfl, rfl, rfl, rfl⟩, fun _ => trivial⟩, fun _ => trivial⟩

variable {who : A} {u : Unit}

theorem changeStake_quiet {amount : Nat} {isAdd : Bool}
    (h : (changeStake who amount isAdd).run s = (.ok u, s')) : Quiet s s' :=
  (changeStake_post who amount isAdd).ok h

theorem payFixedTxFee_quiet (h : (payFixedTxFee who).run s = (.ok u, s')) : Quiet s s' :=
  ((quiet_unseen s).payFixedTxFee who s (Quiet.refl s)).ok h

theorem Unnoticed.quiet (h : Unnoticed s s') : Quiet s s' :=
  h _ (quiet_unseen s) (fun f h => h.mapSlashes f) (Quiet.refl s)

theorem fulfillOne_events (m : MachineId) (left : Nat) :
    Post (fulfillOne m left) s (fun _ s' => Events onlyQuiet s s')
      (fun _ s' => Events onlyQuiet s s') := by
  have hwrite : ∀ (i : MachineInfo A) (amount : Nat) (s' : State A), s.machine m = some i →
      Quiet s s' → Events onlyQuiet s (s'.putMachine m (i.setStakeAmount amount)) := by
    intro i amount s' hi hq
    exact Event.events (.keep hi (hq.put m _) ⟨⟨rfl, rfl, rfl⟩, fun _ => rfl⟩ hq.eras) rfl
  unfold fulfillOne
  rw [post_bind, post_get]
  cases hi : s.machine m with
  | none => exact Events.refl s
  | some i =>
    simp only [post_step, post_ite]
    refine ⟨fun perGpu _ => ⟨fun need _ => ⟨fun _ => Events.refl s, fun _ => ⟨fun _ => ?_,
      fun _ => ?_⟩⟩, fun _ => Events.refl s⟩, fun _ => Events.refl s⟩
    · refine (changeStake_post ..).mono (fun _ s' hq => hwrite i need s' hi hq) ?_
      rintro _ s' rfl
      exact Events.refl s'
    · refine (changeStake_post ..).mono (fun _ s' hq => hwrite i _ s' hi hq) ?_
      rintro _ s' rfl
      exact Events.refl s'

theorem fulfillLoop_events (l : List MachineId) (left : Nat) (s : State A) :
    Post (fulfillLoop l left) s (fun _ s' => Events onlyQuiet s s')
      (fun _ s' => Events onlyQuiet s s') := by
  induction l generalizing left s with
  | nil => exact Events.refl s
  | cons m l ih =>
    unfold fulfillLoop
    rw [post_bind]
    refine (fulfillOne_events m left).mono (fun r s₁ h1 => ?_) (fun _ _ h => h)
    cases r with
    | none => exact h1
    | some left => exact (ih left s₁).mono (fun _ _ h => h1.trans h) (fun _ _ h => h1.trans h)

theorem fulfillMachineStake_events (stash : A) (amount : Nat) (s : State A) :
    Post (fulfillMachineStake stash amount) s (fun _ s' => Events onlyQuiet s s')
      (fun _ s' => Events onlyQuiet s s') :=
  fulfillLoop_events ..

theorem pendingSlashes_quiet (s : State A) : Quiet s (checkPendingSlash.run s.execPendingSlash).2 :=
  (quiet_unseen s).pendingSlashes (fun _ h => h.mapSlashes _) (Quiet.refl s)

end

/-! ## Calls that keep every record -/

section

variable {s s' : State A} {u : Unit} {m : MachineId}

variable {new stash controller : A} {info : StakerCustomizeInfo}

theorem resetOneController_events
    (h : (resetOneController new m).run s = (.ok u, s')) : Events onlyQuiet s s' := by
  unfold resetOneController at h
  simp only [run_ok] at h
  obtain ⟨i, hi, rfl⟩ := h
  exact Event.events (.keep hi ((Quiet.refl s).put m _) ⟨⟨rfl, rfl, rfl⟩, fun _ => rfl⟩ rfl) rfl

theorem forEach_events {ε β : Type} {L : Label → Prop} {l : List β} {c : β → Call (State A) ε Unit}
    (hc : ∀ b ∈ l, ∀ (s s' : State A) (u : Unit), (c b).run s = (.ok u, s') → Events L s s')
    {s s' : State A} {u : Unit} (h : (forEach l c).run s = (.ok u, s')) : Events L s s' := by
  induction l generalizing s with
  | nil =>
    cases h
    exact Events.refl _
  | cons b l ih =>
    rw [forEach_cons, run_bind_ok] at h
    obtain ⟨v, s₁, hb, hl⟩ := h
    exact (hc b List.mem_cons_self s s₁ v hb).trans
      (ih (fun b' hb' => hc b' (List.mem_cons_of_mem _ hb')) hl)

theorem stashResetController_events
    (h : (stashResetController stash new).run s = (.ok u, s')) : Events onlyQuiet s s' := by
  unfold stashResetController at h
  simp only [run_ok] at h
  obtain ⟨-, pre, -, v, s₁, hloop, rfl⟩ := h
  have h1 : Events onlyQuiet s s₁ :=
    forEach_events (fun m _ s s' u h => resetOneController_events h) hloop
  exact h1.trans (Quiet.events ⟨rfl, rfl, rfl, rfl⟩ rfl)

theorem stays_addServerRoomInfo (i : MachineInfo A) (info : StakerCustomizeInfo) :
    Stays i (i.addServerRoomInfo info) := by
  refine ⟨⟨rfl, rfl, rfl⟩, fun h => ?_⟩
  unfold MachineInfo.addServerRoomInfo at h ⊢
  cases hs : i.machineStatus <;> simp_all [MachineStatus.isOffline]

theorem addMachineInfo_events
    (h : (addMachineInfo controller m info).run s = (.ok u, s')) : Events onlyQuiet s s' := by
  obtain ⟨i, s₁, hi, h1, rfl⟩ := addMachineInfo_ok h
  exact Event.events (.keep hi ((h1.quiet.trans (mapLive_quiet s₁ _)).put m _)
    (stays_addServerRoomInfo i info) h1.quiet.eras) rfl

theorem updateMachineInfo_events
    (h : (updateMachineInfo controller m info).run s = (.ok u, s')) : Events onlyQuiet s s' := by
  unfold updateMachineInfo at h
  simp only [run_ok] at h
  obtain ⟨i, hi, -, -, -, -, rfl⟩ := h
  exact Event.events (.keep hi ((Quiet.refl s).put m _) (stays_addServerRoomInfo i info) rfl) rfl

theorem restakeOnlineMachine_events
    (h : (restakeOnlineMachine controller m).run s = (.ok u, s')) : Events onlyQuiet s s' := by
  unfold restakeOnlineMachine at h
  simp only [run_ok] at h
  obtain ⟨i, hi, -, -, perGpu, -, need, -, -, v, s₁, hstake, rfl⟩ := h
  have hq := changeStake_quiet hstake
  exact Event.events (.keep hi (hq.put m _) ⟨⟨rfl, rfl, rfl⟩, fun _ => rfl⟩ hq.eras) rfl

theorem claimRewards_events
    (h : (claimRewards controller).run s = (.ok u, s')) : Events onlyQuiet s s' := by
  unfold claimRewards at h
  simp only [run_ok] at h
  obtain ⟨stash, -, x, -, paid, -, b, -, v, s₁, hloop, rfl⟩ := h
  have h0 : Events onlyQuiet s (s.setBalances b) := Quiet.events ⟨rfl, rfl, rfl, rfl⟩ rfl
  have h1 := (fulfillMachineStake_events stash paid.1 (s.setBalances b)).ok hloop
  exact (h0.trans h1).trans (Quiet.events ⟨rfl, rfl, rfl, rfl⟩ rfl)

end

/-! ## Calls that move a machine -/

section

variable {s s' : State A} {u : Unit} {m : MachineId}

variable {controller : A} {i : MachineInfo A} {l : List MachineId}

theorem bondMachine_events {crypto : Crypto A} {msg sig : Bytes}
    (h : (bondMachine crypto controller m msg sig).run s = (.ok u, s')) : May [.bond m] s s' := by
  obtain ⟨stash, amount, s₁, -, hm, -, h1, rfl⟩ := bondMachine_ok h
  have hq := h1.quiet
  refine Event.may (.bond hm (Touch.put ?_ ?_ ?_ m _) ?_ hq.eras)
  · exact hq.now
  · exact hq.machines
  · exact hq.rented
  · rfl

theorem fulfillMachine_events (h : (fulfillMachine controller m).run s = (.ok u, s')) :
    May [.online m] s s' := by
  obtain ⟨i, need, deadline, s₁, hi, -, h1, rfl⟩ := fulfillMachine_ok h
  have hq := h1.quiet
  refine Event.may (.online hi (Touch.put ?_ ?_ ?_ m _) ⟨?_, ?_, ?_⟩ (fun h => ?_) ?_)
  · exact hq.now
  · exact hq.machines
  · exact hq.rented
  · rfl
  · rfl
  · rfl
  · cases h
  · exact congrArg (fun g => g.onOnlineChanged m i true) hq.eras

theorem machineOffline_post (m : MachineId) (status : MachineStatus A)
    (hb : ∀ i, s.machine m = some i → statusBefore status = i.machineStatus) :
    Post (machineOffline m status) s (fun _ s' => May [.offline m] s s')
      (fun _ s' => s' = s) := by
  unfold machineOffline
  simp only [post_step]
  refine ⟨fun i hi => ?_, fun _ => trivial⟩
  refine Event.may (.offline hi (Touch.put ?_ ?_ ?_ m _) ⟨rfl, rfl, rfl⟩ (hb i hi) ?_) <;>
    split <;> rfl

theorem controllerReportOffline_events
    (h : (controllerReportOffline controller m).run s = (.ok u, s')) : May [.offline m] s s' := by
  unfold controllerReportOffline at h
  simp only [run_ok] at h
  obtain ⟨i, hi, -, -, hoff⟩ := h
  refine (machineOffline_post m _ fun j hj => ?_).ok hoff
  rw [hi] at hj
  cases hj
  rfl

theorem offlineMachineChangeHardwareInfo_events
    (h : (offlineMachineChangeHardwareInfo controller m).run s = (.ok u, s')) :
    May [.offline m] s s' := by
  obtain ⟨i, x, s₁, hi, honline, h1, rfl⟩ := offlineMachineChangeHardwareInfo_ok h
  have hq := h1.quiet
  refine Event.may (.offline hi (Touch.put ?_ ?_ ?_ m _) ⟨?_, ?_, ?_⟩ ?_ ?_)
  · exact hq.now
  · exact hq.machines
  · exact hq.rented
  · rfl
  · rfl
  · rfl
  · exact honline.symm
  · rw [honline, if_neg (by simp)]
    exact congrArg (fun g => g.onOnlineChanged m i false) hq.eras

theorem reonline_events {i' : MachineInfo A} (hq : Quiet s s') (hi : s.machine m = some i)
    (hk : Kept i i') (hb : FromBefore i i') : May [.online m] s (s'.reonline m i i') := by
  unfold State.reonline
  by_cases hr : i'.machineStatus = .rented
  · simp only [hr, if_true]
    refine Event.may (.onlineRented hi (Touch.put ?_ ?_ ?_ m _) hk hb ?_)
    · exact hq.now
    · exact hq.machines
    · exact hq.rented
    · exact congrArg (fun g => (g.onOnlineChanged m i true).onRentChanged m i true) hq.eras
  · simp only [hr, if_false]
    refine Event.may (.online hi (Touch.put ?_ ?_ ?_ m _) hk hb ?_)
    · exact hq.now
    · exact hq.machines
    · exact hq.rented
    · exact congrArg (fun g => g.onOnlineChanged m i true) hq.eras

omit [LinearOrder A] in
theorem offlineTime_isOffline {status : MachineStatus A} {t : Nat}
    (h : offlineTime status = some t) : status.isOffline := by
  cases status <;> simp_all [offlineTime, MachineStatus.isOffline]

theorem controllerReportOnline_events
    (h : (controllerReportOnline controller m).run s = (.ok u, s')) : May [.online m] s s' := by
  obtain rfl | ⟨i, offline, s₁, hi, htime, h1, rfl⟩ := controllerReportOnline_ok h
  · exact .inl (Events.refl s')
  · refine reonline_events h1.quiet hi ⟨rfl, rfl, rfl⟩ fun hoff => ?_
    refine ⟨offlineTime_isOffline htime, ?_⟩
    split at hoff
    · cases hoff
    · exact hoff

theorem updateRegionOnExit_info (x : Machines A) (i : MachineInfo A) :
    (x.updateRegionOnExit i).machinesInfo = x.machinesInfo := by
  unfold Machines.updateRegionOnExit
  simp only
  split <;> rfl

theorem updateRegionOnExit_rented (x : Machines A) (i : MachineInfo A) :
    (x.updateRegionOnExit i).machineRentedGpu = x.machineRentedGpu := by
  unfold Machines.updateRegionOnExit
  simp only
  split <;> rfl

theorem doMachineExit_event (hi : s.machine m = some i)
    (h : (doMachineExit m i).run s = (.ok u, s')) : Event s s' (.exit m) := by
  obtain ⟨s₁, h1, rfl⟩ := doMachineExit_ok h
  have hq := h1.quiet
  refine .exit hi (Touch.drop ?_ ?_ ?_ m) ?_
  · exact hq.now
  · exact (updateRegionOnExit_info s₁.machines i).trans hq.machines
  · exact (updateRegionOnExit_rented s₁.machines i).trans hq.rented
  · exact congrArg (fun g => g.onOnlineChanged m i false) hq.eras

theorem machineExit_events
    (h : (machineExit controller m).run s = (.ok u, s')) : May [.exit m] s s' := by
  unfold machineExit at h
  simp only [run_ok] at h
  obtain ⟨i, hi, -, -, -, -, hexit⟩ := h
  exact (doMachineExit_event hi hexit).may

theorem forceExitOne_chain
    (h : (forEach l forceExitOne).run s = (.ok u, s')) : Chain (l.map .exit) s s' := by
  induction l generalizing s with
  | nil =>
    cases h
    exact Events.refl _
  | cons m l ih =>
    rw [forEach_cons, run_bind_ok] at h
    obtain ⟨_, s₁, hexit, hrest⟩ := h
    unfold forceExitOne at hexit
    simp only [run_ok] at hexit
    obtain ⟨i, hi, hexit⟩ := hexit
    exact ⟨s₁, doMachineExit_event hi hexit, ih hrest⟩

theorem forceMachineExit_events {signer : A}
    (h : (forceMachineExit signer l).run s = (.ok u, s')) : May (l.map .exit) s s' := by
  unfold forceMachineExit at h
  simp only [run_ok] at h
  exact .inr (forceExitOne_chain h.2)

end

/-! ## Operations for the committees -/

section

variable {s : State A} {m : MachineId}

theorem moveMachine_post {status : MachineStatus A} (hf : status.isOffline = false)
    (f : LiveMachine → LiveMachine) :
    Post (moveMachine m status f) s (fun _ s' => Events onlyQuiet s s') (fun _ s' => s' = s) := by
  unfold moveMachine
  simp only [post_step]
  refine ⟨fun i hi => ?_, fun _ => trivial⟩
  have hk : Stays i (i.setStatus status) := by
    refine ⟨⟨rfl, rfl, rfl⟩, fun h => ?_⟩
    have h' : status.isOffline = true := h
    rw [hf] at h'
    cases h'
  exact Event.events (.keep hi ((mapLive_quiet s f).put m _) hk rfl) rfl

theorem confirmMachine_post (committee : List A) (hw : CommitteeUploadInfo) :
    Post (confirmMachine committee hw) s (fun _ s' => May [.verify hw] s s')
      (fun _ s' => s' = s) := by
  refine confirmMachine_rule committee hw fun i s₁ isReonline hi h1 => ?_
  have hq := h1.quiet
  refine ⟨fun need => ?_, fun time => ?_⟩
  · refine Event.may (.verify hi (Touch.put ?_ ?_ ?_ hw.machineId _) ?_ ?_ ?_ (.inl ?_))
    · cases isReonline <;> exact hq.now
    · cases isReonline <;> exact hq.machines
    · cases isReonline <;> exact hq.rented
    · rfl
    · rfl
    · rfl
    · rw [← hq.eras]
      cases isReonline <;> rfl
  · refine Event.may (.verify hi (Touch.put ?_ ?_ ?_ hw.machineId _) ?_ ?_ ?_ (.inr ?_))
    · exact hq.now
    · exact hq.machines
    · exact hq.rented
    · rfl
    · rfl
    · rfl
    · exact hq.eras

theorem refuseMachine_post (committee : List A) (m : MachineId) :
    Post (refuseMachine committee m) s (fun _ s' => May [.refuse m] s s')
      (fun _ s' => May [.refuse m] s s') := by
  refine refuseMachine_rule committee m (.inl (Events.refl s)) (fun i s₁ _ h1 => ?_)
    fun i s₁ hi h1 => ?_
  · exact .inl (((mapLive_quiet s _).trans h1.quiet).events rfl)
  · have hq := h1.quiet
    refine Event.may (.refuse hi (Touch.drop ?_ ?_ ?_ m) hq.eras)
    · exact hq.now
    · exact hq.machines
    · exact hq.rented

theorem rmStashTotalStake_post (stash : A) (amount : Nat) :
    Post (rmStashTotalStake stash amount) s (fun _ s' => Quiet s s') (fun _ s' => s' = s) := by
  unfold rmStashTotalStake
  simp only [post_step]
  exact ⟨fun _ _ => ⟨fun _ _ => ⟨rfl, rfl, rfl, rfl⟩, fun _ => trivial⟩, fun _ => trivial⟩

theorem mtMachineOffline_post (reporter : A) (committee : List A) (m : MachineId)
    (fault : OPSlashReason) :
    Post (mtMachineOffline reporter committee m fault) s
      (fun _ s' => May [.offline m] s s') (fun _ s' => s' = s) := by
  unfold mtMachineOffline
  simp only [post_step]
  refine ⟨fun i hi => machineOffline_post m _ fun j hj => ?_, fun _ => trivial⟩
  rw [hi] at hj
  cases hj
  rfl

end

end

end DeepBrainChain.OnlineProfile
