import DeepBrainChain.OnlineProfile.Fleet

/-!
# What only slashes and hooks write

The queue of slashes, the queue of the machines to be rewarded, the rewards of the eras and the
snapshots of the eras that are over. All other calls write machines, owners, stakes and the grades
of the current and the next era, as well as the ledger: a property that none of these writes touches
is kept by every such call.
-/

namespace DeepBrainChain.OnlineProfile

open Lib GenericFunc Support Lib.Call StorageMap

section

variable {A : Type} [LinearOrder A]

omit [LinearOrder A] in
/-- The era stays, and so do the snapshots of the eras before it. -/
structure PastKept [DecidableEq A] (g g' : Eras A) : Prop where
  era : g'.currentEra = g.currentEra
  machines : ∀ e, e < g.currentEra → g'.erasMachinePoints.get e = g.erasMachinePoints.get e
  stashes : ∀ e, e < g.currentEra → g'.erasStashPoints.get e = g.erasStashPoints.get e

/-- A property that the writes of ordinary calls keep. -/
structure Archival (I : State A → Prop) : Prop where
  committee : ∀ {s} c, c.now = s.now → I s → I (s.setCommitteeState c)
  machines : ∀ {s} f, I s → I (s.mapMachines f)
  owners : ∀ {s} f, I s → I (s.mapOwners f)
  stakes : ∀ {s} f, I s → I (s.mapStakes f)
  grades : ∀ {s} f, (∀ g : Grades A, PastKept g.eras (f g).eras) → I s → I (s.mapGrades f)
  recent : ∀ {s} m x, I s → I (s.putRecentReward m x)

theorem PastKept.refl (g : Eras A) : PastKept g g := ⟨rfl, fun _ _ => rfl, fun _ _ => rfl⟩

theorem PastKept.putEra {g g' : Eras A} (h : PastKept g g') {era : Nat} (he : g.currentEra ≤ era)
    (x : EraStashPoints A) (y : StorageMap MachineId MachineGradeStatus) :
    PastKept g (g'.putEra era x y) := by
  refine ⟨h.era, fun e hlt => ?_, fun e hlt => ?_⟩
  · exact (get_insert_ne _ _ (by omega)).trans (h.machines e hlt)
  · exact (get_insert_ne _ _ (by omega)).trans (h.stashes e hlt)

theorem onOnlineChanged_past (g : Eras A) (m : MachineId) (i : MachineInfo A) (b : Bool) :
    PastKept g (g.onOnlineChanged m i b) := by
  unfold Eras.onOnlineChanged
  simp only
  split
  · exact (PastKept.refl g).putEra (by omega) _ _
  · split
    · exact ((PastKept.refl g).putEra (by omega) _ _).putEra (by omega) _ _
    · exact ((PastKept.refl g).putEra (by omega) _ _).putEra (by omega) _ _

theorem onRentChanged_past (g : Eras A) (m : MachineId) (i : MachineInfo A) (b : Bool) :
    PastKept g (g.onRentChanged m i b) := by
  unfold Eras.onRentChanged
  simp only
  split
  · exact (PastKept.refl g).putEra (by omega) _ _
  · exact ((PastKept.refl g).putEra (by omega) _ _).putEra (by omega) _ _

namespace Archival

variable {I : State A → Prop} {s : State A}

/-! ## Writes -/

section

variable (hI : Archival I)

include hI

theorem snapOnline (m : MachineId) (i : MachineInfo A) (b : Bool) (h : I s) :
    I (s.snapOnline m i b) := hI.grades _ (fun g => onOnlineChanged_past g.eras m i b) h

theorem snapRent (m : MachineId) (i : MachineInfo A) (b : Bool) (h : I s) :
    I (s.snapRent m i b) := hI.grades _ (fun g => onRentChanged_past g.eras m i b) h

theorem putStashMachine (a : A) (x : StashMachine) (h : I s) :
    I (s.putStashMachine a x) := hI.grades _ (fun g => PastKept.refl g.eras) h

theorem reonline (m : MachineId) (old i : MachineInfo A) (h : I s) : I (s.reonline m old i) := by
  unfold State.reonline
  refine hI.machines _ (hI.machines _ ?_)
  split
  · exact hI.machines _ (hI.snapRent _ _ true (hI.machines _ (hI.machines _
      (hI.snapOnline _ _ true h))))
  · exact hI.machines _ (hI.machines _ (hI.snapOnline _ _ true h))

/-- What is archived is unseen. -/
theorem record : UnseenRecord I where
  committee := hI.committee
  owners := hI.owners
  stakes := hI.stakes
  sysInfo _ _ h := hI.grades _ (fun g => PastKept.refl g.eras) h
  stash b x _ _ h := hI.putStashMachine b x h
  machine _ _ _ _ _ _ h := hI.machines _ h

theorem changeStake (who : A) (amount : Nat) (isAdd : Bool) :
    Keeps I (changeStake who amount isAdd) := hI.record.changeStake who amount isAdd

end

/-! ## Calls -/

section

variable (hI : Archival I)

include hI

theorem machineOffline (m : MachineId) (status : MachineStatus A) :
    Keeps I (machineOffline m status) := by
  refine .get fun s hs => .okOr fun i _ => .set ?_
  refine hI.machines _ (hI.snapOnline m i false (hI.machines _ ?_))
  split
  · exact hI.snapRent m i false (hI.machines _ (hI.machines _ hs))
  · exact hI.machines _ hs

theorem forceExitOne (m : MachineId) (i : MachineInfo A) : Keeps I (doMachineExit m i) := by
  refine (hI.changeStake _ _ _).mapError.bind fun _ => .modify fun s hs => ?_
  refine hI.machines _ (hI.owners _ (hI.machines _ ?_))
  exact hI.snapOnline m i false (hI.machines _ hs)

theorem moveMachine (m : MachineId) (status : MachineStatus A)
    (f : LiveMachine → LiveMachine) : Keeps I (moveMachine m status f) :=
  Keeps.get fun _ hs => .okOr fun _ _ => .set (hI.machines _ (hI.machines _ hs))

theorem confirmMachine (committee : List A) (hw : CommitteeUploadInfo) :
    Keeps I (confirmMachine committee hw) := by
  refine .get fun s _ => .okOr fun old _ => ?_
  refine (Keeps.whenSome fun x => .modify fun s hs =>
    hI.record.slashAndReward _ _ _ (hI.record.slashAndReward _ _ _ hs)).bind fun _ => ?_
  refine (Keeps.attempt (Keeps.when (hI.changeStake _ _ _))).bind fun paid => ?_
  cases paid with
  | error _ =>
    refine .modify fun s hs => ?_
    unfold State.confirmFulfilling
    exact hI.machines _ (hI.machines _ (hI.stakes _ hs))
  | ok _ =>
    refine .modify fun s hs => ?_
    unfold State.confirmOnline
    refine hI.machines _ (hI.snapOnline _ _ true (hI.machines _ (hI.machines _ ?_)))
    split
    · exact hI.stakes _ hs
    · exact hI.recent _ _ hs

theorem refuseMachine (committee : List A) (m : MachineId) :
    Keeps I (refuseMachine committee m) := by
  refine .get fun s hs => .okOr fun i _ => ?_
  split
  · refine (Keeps.set ?_).bind fun _ => fun s hs => hs
    exact hI.stakes _ (hI.record.slashAndReward _ _ _ (hI.machines _ hs))
  · refine (hI.changeStake _ _ _).ignore.bind fun _ => ?_
    refine (Keeps.modify fun s hs => ?_).bind fun _ => .pure _
    exact hI.machines _ (hI.machines _ (hI.owners _ (hI.putStashMachine _ _ hs)))

end

/-- The operations that write the queue of slashes. -/
def slashing : Op A → Bool
  | .controllerReportOnline .. | .applySlashReview .. | .cancelSlash _ | .execSlash _ => true
  | _ => false

/-- **Every operation that does not deal with slashes** keeps what is archived. -/
theorem apply (hI : Archival I) (crypto : Crypto A) {op : Op A} (hop : slashing op = false)
    (hs : I s) : I (apply crypto s op) := by
  have hcall : ∀ {ε α : Type} {c : Call (State A) ε α}, Keeps I c → I (c.dispatch s).2 :=
    fun hc => dispatch_keeps hs fun _ _ hr => (hc s hs).ok hr
  by_cases hunseen : op.unseen false = true
  · exact hI.record.apply (fun h => absurd h (by decide)) crypto hunseen hs
  cases op with
  | setRewardInfo i =>
    exact hcall (Keeps.modify fun _ hs => hI.grades _ (fun g => PastKept.refl g.eras) hs)
  | setRentfeeDestroyPercent percent =>
    exact hcall (Keeps.modify fun _ hs => hI.grades _ (fun g => PastKept.refl g.eras) hs)
  | bondMachine controller m msg sig =>
    refine hcall (Keeps.get fun _ _ => .okOr fun _ _ => .guard <| ?_)
    refine .guard <| .bind ?_ fun _ => .okOr fun _ _ => ?_
    · refine .guard <| .guard <| .okOr fun _ _ => ?_
      exact .guard <| .ensure
    · refine (hI.record.payFixedTxFee _).bind fun _ => (hI.changeStake _ _ _).mapError.bind
        fun _ => ?_
      exact .modify fun _ hs => hI.machines _ (hI.owners _ (hI.machines _
        (hI.putStashMachine _ _ hs)))
  | addMachineInfo controller m info =>
    refine hcall (Keeps.get fun _ _ => .okOr fun _ _ => .guard <| ?_)
    refine .guard <| .guard <| .guard <| ?_
    exact (hI.record.payVerifyFee _ _).bind fun _ =>
      .modify fun _ hs => hI.machines _ (hI.machines _ hs)
  | updateMachineInfo controller m info =>
    refine hcall (Keeps.get fun _ hs => .okOr fun _ _ => .guard <| ?_)
    exact .guard <| .guard <| .guard <|
      .set (hI.machines _ hs)
  | fulfillMachine controller m =>
    refine hcall (Keeps.get fun _ _ => .okOr fun _ _ => .guard <| ?_)
    refine .guard <| .okOr fun _ _ => ?_
    refine (Keeps.when (hI.changeStake _ _ _).mapError).bind fun _ => .modify fun _ hs => ?_
    exact hI.machines _ (hI.machines _ (hI.snapOnline _ _ true (hI.machines _
      (hI.recent _ _ (hI.stakes _ hs)))))
  | controllerReportOffline controller m =>
    exact hcall (Keeps.get fun _ _ => .okOr fun _ _ => .guard <|
      .guard <| (hI.machineOffline _ _).mapError)
  | offlineMachineChangeHardwareInfo controller m =>
    refine hcall (Keeps.get fun _ _ => .okOr fun _ _ => .guard <| ?_)
    refine .guard <| .okOr fun _ _ => ?_
    refine (hI.changeStake _ _ _).mapError.bind fun _ => .modify fun _ hs => ?_
    exact hI.machines _ (hI.machines _ (hI.snapOnline _ _ false (hI.machines _ (hI.stakes _ hs))))
  | machineExit controller m =>
    refine hcall (Keeps.get fun _ _ => .okOr fun _ _ => .guard <| ?_)
    exact .guard <| .guard <| .guard <|
      hI.forceExitOne _ _
  | forceMachineExit signer l =>
    refine hcall (Keeps.get fun _ _ => .guard <| .forEach fun m _ => ?_)
    exact .get fun _ _ => .okOr fun _ _ => hI.forceExitOne _ _
  | bookedMachine m => exact (hI.moveMachine _ _ _).run hs
  | revertBookedMachine m => exact (hI.moveMachine _ _ _).run hs
  | confirmMachine committee hw => exact (hI.confirmMachine _ _).run hs
  | refuseMachine committee m => exact (hI.refuseMachine _ _).run hs
  | mtMachineOffline reporter committee m fault =>
    exact Keeps.run (Keeps.get fun _ _ => .okOr fun _ _ => hI.machineOffline _ _) hs
  | addOfflineMachineToRenters m renters => exact hI.machines (·.putOfflineRenters m renters) hs
  | controllerReportOnline | applySlashReview | cancelSlash | execSlash => cases hop
  | _ => exact absurd rfl hunseen

/-! ## Properties that do not see slashes either -/

/-- **Every operation** keeps what is archived and says nothing about slashes. -/
theorem applyAny (hI : Archival I) (hslash : ∀ {s} f, I s → I (s.mapSlashes f))
    (crypto : Crypto A) (op : Op A) (hs : I s) : I (OnlineProfile.apply crypto s op) := by
  by_cases hop : slashing op = false
  · exact hI.apply crypto hop hs
  have hcall : ∀ {c : Call (State A) Error Unit}, Keeps I c → I (c.dispatch s).2 :=
    fun hc => dispatch_keeps hs fun _ _ hr => (hc s hs).ok hr
  cases op with
  | controllerReportOnline controller m =>
    refine hcall (Keeps.get fun s0 _ => .okOr fun i _ => .guard <| ?_)
    refine .okOr fun offline _ => ?_
    split
    · exact .pure ()
    refine .okOr fun x _ => .bind ?_ fun _ => .modify fun _ hs => hI.reonline _ _ _ hs
    exact .when ((hI.changeStake _ _ _).mapError.bind fun _ =>
      .modify fun _ hs => hslash _ hs)
  | applySlashReview | cancelSlash | execSlash =>
    exact hI.record.apply (fun _ _ f h => hslash f h) crypto
      (show Op.unseen true _ = true from rfl) hs
  | _ => exact absurd rfl hop

theorem pendingSlashes (hI : Archival I) (hslash : ∀ {s} f, I s → I (s.mapSlashes f)) (hs : I s) :
    I (checkPendingSlash.run s.execPendingSlash).2 :=
  hI.record.pendingSlashes (fun f h => hslash f h) hs

/-- **The reports of rent-machine** keep what is archived. -/
theorem applyRent (hI : Archival I) (op : RentOp A) (hs : I s) : I (applyRent s op) := by
  cases op with
  | rentStart m gpuNum =>
    exact Keeps.run (Keeps.get fun _ hs => .okOr fun _ _ =>
      .set (hI.machines _ (hI.machines _ hs))) hs
  | confirmed m renter =>
    refine Keeps.run (Keeps.get fun _ hs => .okOr fun _ _ => .set (hI.machines _ ?_)) hs
    split
    · exact hs
    · exact hI.machines _ (hI.machines _ (hI.snapRent _ _ true hs))
  | rentEnd m gpuNum duration lastOfMachine lastOfRenter renter =>
    refine Keeps.run (Keeps.get fun _ hs => .okOr fun _ _ => ?_) hs
    refine .ite (Keeps.pure ()) (Keeps.ite ?_ (Keeps.ite ?_ ?_))
    · exact .set (hI.machines _ (hI.machines _ hs))
    · exact .set (hI.machines _ (hI.machines _ (hI.machines _ (hI.snapRent _ _ false hs))))
    · exact .set (hI.machines _ (hI.machines _ hs))
  | confirmExpired m gpuNum =>
    refine Keeps.run (Keeps.get fun _ _ => ?_) hs
    refine .ite (Keeps.okOr fun _ _ => ?_) (Keeps.modify fun _ hs => hI.machines _ hs)
    exact (Keeps.modify fun _ hs => hI.machines _ hs).bind fun _ =>
      .modify fun _ hs => hI.machines _ hs
  | rentFee stash m toDestroy toStash =>
    exact (hI.record.changeMachineRentFee _ _ _ _).run hs

end Archival

end

/-! # Slashes of one report

A reported machine is slashed by `exec_slash`, which anybody may call once the fault has lasted long
enough, or when its controller brings it online again. Both look at the block of the last
`exec_slash`, and neither counts one of the same block. -/

open Option

section

variable {A : Type} [LinearOrder A] {s s' : State A} {m : MachineId} {i : MachineInfo A}

/-! ## What is counted -/

/-- The operations that slash a reported machine. -/
def EraOp.strikes (m : MachineId) : EraOp A → Bool
  | .profile (.execSlash m') | .profile (.controllerReportOnline _ m') => m' == m
  | _ => false

/-- The slashes of a machine that the operations `ops` queue from `s` on. A new slash takes a new
identifier. -/
def slashesOf (crypto : Crypto A) (m : MachineId) : List (EraOp A) → State A → Nat
  | [], _ => 0
  | op :: ops, s =>
    let s' := applyBlock crypto s op
    (if op.strikes m = true ∧ s'.slashes.nextSlashId ≠ s.slashes.nextSlashId then 1 else 0) +
      slashesOf crypto m ops s'

/-- The block of the last `exec_slash` of a machine. -/
def State.everExeced (s : State A) (m : MachineId) : Nat := s.slashes.maxSlashExeced.getD m 0

/-- A step of an episode: the machine is under the report `status`, and it is not slashed in a block
in which `exec_slash` was already called for it. -/
structure InEpisode (m : MachineId) (status : MachineStatus A) (s : State A) (op : EraOp A) :
    Prop where
  reported : (s.machine m).map MachineInfo.machineStatus = some status
  once : op.strikes m = true → s.everExeced m ≠ s.now

/-- `exec_slash` was called for a fault that began at `time`. -/
structure Execed (m : MachineId) (time : Nat) (s : State A) : Prop where
  late : time + 5 * oneDay < s.everExeced m
  past : s.everExeced m ≤ s.now

/-! ## Steps that slash nobody -/

/-- The clock does not go back, and the block of the last `exec_slash` is kept. -/
structure Passes (m : MachineId) (s s' : State A) : Prop where
  now : s.now ≤ s'.now
  ever : s'.everExeced m = s.everExeced m

theorem Execed.passes {time : Nat} (h : Execed m time s) (h' : Passes m s s') :
    Execed m time s' := by
  have hlate := h.late
  have hpast := h.past
  have hnow := h'.now
  constructor
  · rw [h'.ever]
    exact hlate
  · rw [h'.ever]
    omega

theorem archival_passes (m : MachineId) (s : State A) : Archival (Passes m s) where
  committee _ hc h := ⟨h.now.trans_eq hc.symm, h.ever⟩
  machines _ h := ⟨h.now, h.ever⟩
  owners _ h := ⟨h.now, h.ever⟩
  stakes _ h := ⟨h.now, h.ever⟩
  grades _ _ h := ⟨h.now, h.ever⟩
  recent _ _ h := ⟨h.now, h.ever⟩

theorem onInitialize_passes (m : MachineId) (s : State A) : Passes m s s.onInitialize := by
  have hI := archival_passes m s
  have hpaid : Passes m s s.backupAndReward :=
    backupAndReward_rule (fun _ _ h => ⟨h.now, h.ever⟩) (fun _ _ h => ⟨h.now, h.ever⟩)
      (fun _ h => ⟨h.now, h.ever⟩) ⟨Nat.le_refl _, rfl⟩
  unfold State.onInitialize
  simp only
  refine Keeps.run (I := Passes m s) ?_ (foldl_keeps (fun s1 id h => ?_) _ ?_)
  · refine .get fun _ _ => .ite ?_ (Keeps.pure ())
    refine (Keeps.forEach fun id _ => ?_).bind fun _ => .modify fun _ h => ⟨h.now, h.ever⟩
    exact .get fun t h => .okOr fun _ _ => .okOr fun _ _ =>
      .set ⟨h.now, h.ever⟩
  · unfold State.execOneSlash
    split
    · exact h
    · next x _ =>
      have hslashed : ∀ {t : State A}, Passes m s t → Passes m s (t.mapSlashes (·.rmSlash id)) :=
        fun h => ⟨h.now, h.ever⟩
      refine hslashed ?_
      split
      · exact ⟨h.now, h.ever⟩
      · exact ⟨h.now, h.ever⟩
      · exact hI.record.doSlashDeposit x h
  · split
    · exact ⟨hpaid.now, hpaid.ever⟩
    · exact hpaid

theorem addStakedSlash_passes (m : MachineId) (s : State A) (who : A) (x : OPPendingSlashInfo A) :
    Keeps (Passes m s) (addStakedSlash who x) :=
  Keeps.when (((archival_passes m s).changeStake _ _ _).mapError.bind fun _ =>
    .modify fun _ h => ⟨h.now, h.ever⟩)

/-- **Every step but `exec_slash` of the machine** lets time pass. -/
theorem applyBlock_passes (crypto : Crypto A) (op : EraOp A) (hop : op ≠ .profile (.execSlash m)) :
    Passes m s (applyBlock crypto s op) := by
  have hI := archival_passes m s
  have hrefl : Passes m s s := ⟨Nat.le_refl _, rfl⟩
  cases op with
  | rental op => exact hI.applyRent op hrefl
  | nextBlock =>
    have h := onInitialize_passes m s.tick
    exact ⟨(Nat.le_succ _).trans h.now, h.ever⟩
  | profile op =>
    by_cases hslash : Archival.slashing op = false
    · exact hI.apply crypto hslash hrefl
    have hcall : ∀ {c : Call (State A) Error Unit}, Keeps (Passes m s) c →
        Passes m s (c.dispatch s).2 :=
      fun hc => dispatch_keeps hrefl fun _ _ hr => (hc s hrefl).ok hr
    cases op with
    | controllerReportOnline controller m' =>
      refine hcall (Keeps.get fun s0 _ => .okOr fun i _ => .guard <| ?_)
      refine .okOr fun offline _ => ?_
      split
      · exact .pure ()
      refine .okOr fun x _ => (addStakedSlash_passes m s _ _).bind fun _ => ?_
      exact .modify fun _ h => hI.reonline _ _ _ h
    | applySlashReview controller id reason =>
      refine hcall (Keeps.get fun _ _ => .okOr fun _ _ => .okOr fun _ _ => ?_)
      refine .okOr fun _ _ => .guard <| .guard <| ?_
      exact (hI.changeStake _ _ _).mapError.bind fun _ => .modify fun _ h => ⟨h.now, h.ever⟩
    | cancelSlash id =>
      refine hcall (Keeps.get fun _ _ => .okOr fun _ _ => .okOr fun _ _ => ?_)
      refine (hI.changeStake _ _ _).mapError.bind fun _ => ?_
      exact (hI.changeStake _ _ _).mapError.bind fun _ => .modify fun _ h => ⟨h.now, h.ever⟩
    | execSlash m' =>
      have hne : m ≠ m' := by
        rintro rfl
        exact hop rfl
      refine hcall (Keeps.get fun s0 _ => .okOr fun i _ => ?_)
      split
      · refine .okOr fun _ _ => .guard <| .guard <| ?_
        refine .okOr fun x _ => (Keeps.when (Keeps.modify fun _ h => ⟨h.now, h.ever⟩)).bind
          fun _ => .modify fun t h => ⟨h.now, Eq.trans ?_ h.ever⟩
        show (t.slashes.maxSlashExeced.insert m' t.now).getD m 0 = _
        rw [getD_insert, if_neg hne]
        rfl
      · exact fun s hs => hs
    | _ => exact absurd rfl hslash

/-! ## The slash table -/

/-- The duration from which on a fault costs the most. -/
def maxSlashTime : OPSlashReason → Option Nat
  | .rentedReportOffline _ | .rentedInaccessible _ | .rentedHardwareMalfunction _
  | .rentedHardwareCounterfeit _ | .onlineRentFailed _ => some fiveDays
  | .onlineReportOffline _ => some tenDays
  | _ => none

section Table

variable {reason : OPSlashReason} {t d : Nat}

theorem slashPercent_mono (reason : OPSlashReason) : Monotone (slashPercent reason) := by
  intro c d hcd
  cases reason <;> simp only [slashPercent] <;> (repeat' split) <;> omega

theorem slashPercent_of_none (h : maxSlashTime reason = none) : slashPercent reason d = 0 := by
  cases reason <;> first | rfl | cases h

/-- The table is strictly below its last line before `t`, and stays there from `t` on. -/
theorem slashPercent_of_some (h : maxSlashTime reason = some t) :
    0 < slashPercent reason d ∧ (slashPercent reason d = slashPercent reason t ↔ t ≤ d) := by
  have htimes : sevenMinutes = 70 ∧ fourHours = 2400 ∧ oneDay = 14400 ∧ twoDays = 28800 ∧
      fiveDays = 72000 ∧ tenDays = 144000 := ⟨rfl, rfl, rfl, rfl, rfl, rfl⟩
  cases reason <;> cases h <;> simp only [slashPercent] <;> (repeat' split) <;> omega

theorem reachMaxSlash_eq (reason : OPSlashReason) (d : Nat) :
    reachMaxSlash reason d = (maxSlashTime reason).any (· < d) := by
  cases reason <;> rfl

theorem slashPercent_isGreatest (h : maxSlashTime reason = some t) :
    IsGreatest (Set.range (slashPercent reason)) (slashPercent reason d) ↔ t ≤ d := by
  have hlast : IsGreatest (Set.range (slashPercent reason)) (slashPercent reason t) := by
    refine ⟨⟨t, rfl⟩, ?_⟩
    rintro _ ⟨e, rfl⟩
    have hmax := (slashPercent_of_some h).2.2 (le_max_right e t)
    exact (slashPercent_mono reason (le_max_left e t)).trans_eq hmax
  rw [← (slashPercent_of_some h).2]
  exact ⟨fun hd => le_antisymm (hlast.2 hd.1) (hd.2 hlast.1), fun heq => heq ▸ hlast⟩

end Table

/-- **The table and the test differ at one duration.** The table never falls; a duration passes the
test if and only if it costs the most, except for the first duration that does. -/
theorem reachMaxSlash_iff_greatest (reason : OPSlashReason) (d : Nat) :
    Monotone (slashPercent reason) ∧
      ((reachMaxSlash reason d = true ↔
          IsGreatest (Set.range (slashPercent reason)) (slashPercent reason d) ∧
            0 < slashPercent reason d) ↔
        maxSlashTime reason ≠ some d) := by
  refine ⟨slashPercent_mono reason, ?_⟩
  rw [reachMaxSlash_eq]
  cases h : maxSlashTime reason with
  | none => simp [slashPercent_of_none h]
  | some t =>
    have hpos := (slashPercent_of_some (d := d) h).1
    simp only [any_some, decide_eq_true_eq, slashPercent_isGreatest h, ne_eq, some.injEq]
    omega

/-- After exactly five days the whole stake is due, but the test does not pass. -/
theorem max_slash_untested_at_five_days :
    IsGreatest (Set.range (slashPercent (.rentedInaccessible 0))) 100 ∧
      slashPercent (.rentedInaccessible 0) fiveDays = 100 ∧
      reachMaxSlash (.rentedInaccessible 0) fiveDays = false :=
  ⟨(slashPercent_isGreatest (d := fiveDays) rfl).2 le_rfl, rfl, rfl⟩

/-! ## Steps that slash the machine -/

variable {reason : OPSlashReason} {before : MachineStatus A} {reporter : A} {committee : List A}
  {u : Unit}

theorem reachMaxSlash_of_faultTime {time d : Nat} (h : faultTime reason = some time) :
    reachMaxSlash reason d = decide (5 * oneDay < d) := by
  cases reason <;> first | rfl | cases h

/-- What a successful `exec_slash` has looked at, and what it notes. -/
theorem execSlash_execed (hi : s.machine m = some i)
    (hstatus : i.machineStatus = .reporterReportOffline reason before reporter committee)
    (h : (execSlash m).run s = (.ok u, s')) :
    ∃ time, faultTime reason = some time ∧ ¬ (time < s.everExeced m ∧ s.everExeced m < s.now) ∧
      Execed m time s' := by
  simp only [execSlash, run_ok, hi, some.injEq, hstatus, run_when_ok] at h
  obtain ⟨time, htime, hmax, hguard, x, -, s1, hqueue, rfl⟩ := h
  rw [reachMaxSlash_of_faultTime htime, decide_eq_true_eq] at hmax
  refine ⟨time, htime, hguard, ?_⟩
  have hnow : s1.now = s.now := by
    rcases hqueue with ⟨-, rfl⟩ | ⟨-, rfl⟩
    · rfl
    · rfl
  have hever : (s1.mapSlashes (·.putMaxSlashExeced m s1.now)).everExeced m = s1.now :=
    getD_insert_self ..
  constructor
  · rw [hever]
    omega
  · rw [hever]
    exact Nat.le_refl _

theorem reonline_slashes (s : State A) (m : MachineId) (old i : MachineInfo A) :
    (s.reonline m old i).slashes = s.slashes := by
  unfold State.reonline
  simp only
  split <;> rfl

/-- A machine that comes online again is no longer under its report, and it brings no slash along
if `exec_slash` was called in an earlier block. -/
theorem controllerReportOnline_closes {controller : A} (hi : s.machine m = some i)
    (hstatus : i.machineStatus = .reporterReportOffline reason before reporter committee)
    (h : (controllerReportOnline controller m).run s = (.ok u, s')) :
    ∃ time, faultTime reason = some time ∧
      (s'.machine m).map MachineInfo.machineStatus ≠ some i.machineStatus ∧
      (Execed m time s → s.everExeced m ≠ s.now →
        s'.slashes.nextSlashId = s.slashes.nextSlashId) := by
  simp only [controllerReportOnline, run_ok, hi, some.injEq, hstatus,
    State.reportOnlineSlash] at h
  obtain ⟨-, time, htime, x, -, _, s1, hstake, rfl⟩ := h
  refine ⟨time, htime, ?_, fun hexec hne => ?_⟩
  · have hrecord : ∀ i' : MachineInfo A, (s1.reonline m i i').machine m = some i' := fun _ =>
      get_insert_self ..
    rw [hrecord, hstatus]
    intro heq
    have hback : (if s.machines.rentedFinished.contains m then .online else before) =
        MachineStatus.reporterReportOffline reason before reporter committee := Option.some.inj heq
    split at hback
    · cases hback
    · have hsize := congrArg sizeOf hback
      rw [MachineStatus.reporterReportOffline.sizeOf_spec] at hsize
      omega
  · have hlate := hexec.late
    have hpast := hexec.past
    have hwaived : s.slashWaived m i time = true := by
      simp only [State.slashWaived, hstatus, reachMaxSlash_of_faultTime htime, Bool.and_eq_true,
        decide_eq_true_eq]
      unfold State.everExeced at hlate hpast hne
      omega
    rw [if_pos hwaived] at hstake
    simp only [addStakedSlash, run_when_ok] at hstake
    rcases hstake with ⟨hzero, -⟩ | ⟨-, rfl⟩
    · exact absurd rfl hzero
    · exact congrArg Slashes.nextSlashId (reonline_slashes ..)

/-! ## Episodes -/

variable {ops : List (EraOp A)} {time : Nat}

/-- What a successful step that may slash the machine leaves: `exec_slash` was called or the report
is over, and nothing was queued if `exec_slash` had been called before. -/
def Struck (m : MachineId) (reason : OPSlashReason) (status : MachineStatus A) (s s' : State A) :
    Prop :=
  ∃ time, faultTime reason = some time ∧
    (Execed m time s → s'.slashes.nextSlashId = s.slashes.nextSlashId) ∧
    (Execed m time s' ∨ (s'.machine m).map MachineInfo.machineStatus ≠ some status)

theorem strikes_cases (crypto : Crypto A) {op : EraOp A} (hop : op.strikes m = true)
    (hi : s.machine m = some i)
    (hstatus : i.machineStatus = .reporterReportOffline reason before reporter committee)
    (hne : s.everExeced m ≠ s.now) :
    applyBlock crypto s op = s ∨ Struck m reason i.machineStatus s (applyBlock crypto s op) := by
  have hcall : ∀ c : Call (State A) Error Unit,
      (∀ u s', c.run s = (.ok u, s') → Struck m reason i.machineStatus s s') →
        (c.dispatch s).2 = s ∨ Struck m reason i.machineStatus s (c.dispatch s).2 := by
    intro c h
    rcases dispatch_cases c s with ⟨u, hr⟩ | he
    · exact .inr (h u _ hr)
    · exact .inl he
  cases op with
  | rental op => cases hop
  | nextBlock => cases hop
  | profile op =>
    cases op with
    | execSlash m' =>
      cases eq_of_beq hop
      refine hcall (execSlash m) fun u s' h => ?_
      obtain ⟨time, htime, hguard, hexec⟩ := execSlash_execed hi hstatus h
      refine ⟨time, htime, fun hdone => absurd ⟨?_, ?_⟩ hguard, .inl hexec⟩
      · have := hdone.late
        omega
      · have := hdone.past
        omega
    | controllerReportOnline controller m' =>
      cases eq_of_beq hop
      refine hcall (controllerReportOnline controller m) fun u s' h => ?_
      obtain ⟨time, htime, hover, hwaived⟩ := controllerReportOnline_closes hi hstatus h
      exact ⟨time, htime, fun hdone => hwaived hdone hne, .inr hover⟩
    | _ => cases hop

theorem episode_over {crypto : Crypto A} {status : MachineStatus A}
    (hops : System.Path (applyBlock crypto) (InEpisode m status) ops s)
    (h : (s.machine m).map MachineInfo.machineStatus ≠ some status) : ops = [] := by
  cases ops with
  | nil => rfl
  | cons op ops => exact absurd hops.1.reported h

/-- After `exec_slash` nothing more is queued. -/
theorem slashesOf_execed (crypto : Crypto A) (htime : faultTime reason = some time)
    (h : Execed m time s) (hops : System.Path (applyBlock crypto)
      (InEpisode m (.reporterReportOffline reason before reporter committee)) ops s) :
    slashesOf crypto m ops s = 0 := by
  induction ops generalizing s with
  | nil => rfl
  | cons op ops ih =>
    obtain ⟨hop, hops⟩ := hops
    obtain ⟨i, hi, hstatus⟩ := map_eq_some_iff.1 hop.reported
    rw [slashesOf]
    by_cases hstrike : op.strikes m = true
    · rcases strikes_cases crypto hstrike hi hstatus (hop.once hstrike) with
        hsame | ⟨time', htime', hnext, hafter⟩
      · rw [hsame] at hops ⊢
        simp only [ne_eq, not_true_eq_false, and_false, if_false, Nat.zero_add]
        exact ih h hops
      · rw [htime, some.injEq] at htime'
        subst htime'
        rw [if_neg fun hc => hc.2 (hnext h), Nat.zero_add]
        rcases hafter with hexec | hover
        · exact ih hexec hops
        · rw [episode_over hops (hstatus ▸ hover)]
          rfl
    · rw [if_neg fun hc => hstrike hc.1, Nat.zero_add]
      refine ih (h.passes (applyBlock_passes crypto op ?_)) hops
      rintro rfl
      exact hstrike (beq_self_eq_true m)

/-- **One slash for a report.** While a machine stays under one report, and nobody slashes it in a
block in which `exec_slash` was already called for it, at most one slash is queued. -/
theorem one_slash_per_episode (crypto : Crypto A) (m : MachineId) (reason : OPSlashReason)
    (before : MachineStatus A) (reporter : A) (committee : List A) (ops : List (EraOp A))
    (s : State A) (hops : System.Path (applyBlock crypto)
      (InEpisode m (.reporterReportOffline reason before reporter committee)) ops s) :
    slashesOf crypto m ops s ≤ 1 := by
  induction ops generalizing s with
  | nil => exact Nat.zero_le 1
  | cons op ops ih =>
    obtain ⟨hop, hops⟩ := hops
    obtain ⟨i, hi, hstatus⟩ := map_eq_some_iff.1 hop.reported
    rw [slashesOf]
    by_cases hstrike : op.strikes m = true
    · rcases strikes_cases crypto hstrike hi hstatus (hop.once hstrike) with
        hsame | ⟨time, htime, -, hafter⟩
      · rw [hsame] at hops ⊢
        simp only [ne_eq, not_true_eq_false, and_false, if_false, Nat.zero_add]
        exact ih s hops
      · -- this step may queue the one slash; nothing after it does
        have hrest : slashesOf crypto m ops (applyBlock crypto s op) = 0 := by
          rcases hafter with hexec | hover
          · exact slashesOf_execed crypto htime hexec hops
          · rw [episode_over hops (hstatus ▸ hover)]
            rfl
        rw [hrest]
        split
        · exact Nat.le_refl 1
        · exact Nat.zero_le 1
    · rw [if_neg fun hc => hstrike hc.1, Nat.zero_add]
      exact ih _ hops

end

namespace EpisodeDemo

open CounterDemo

/-- A fault from block 0 is confirmed at block 100000, for a machine that was online. -/
def reported : State Nat :=
  (setup ++ bring first ++ [verify first,
    .profile (.mtMachineOffline 7 [3] first (.onlineRentFailed 0))]).foldl
      (applyBlock EraDemo.crypto) { start with now := 100000 }

def report : MachineStatus Nat := .reporterReportOffline (.onlineRentFailed 0) .online 7 [3]

def exec : EraOp Nat := .profile (.execSlash first)

end EpisodeDemo

open EpisodeDemo CounterDemo EraDemo in
theorem one_slash_two_blocks : slashesOf crypto first [exec, .nextBlock, exec] reported ≤ 1 :=
  one_slash_per_episode crypto first (.onlineRentFailed 0) .online 7 [3] [exec, .nextBlock, exec]
    reported ⟨⟨by decide +kernel, fun _ => by decide +kernel⟩, ⟨by decide +kernel, nofun⟩,
      ⟨by decide +kernel, fun _ => by decide +kernel⟩, trivial⟩

open EpisodeDemo CounterDemo EraDemo in
/-- Two calls in one block queue two slashes. -/
theorem two_slashes_one_block :
    (blockSystem crypto).Reach (fun _ _ => True) reported ∧
      System.Path (applyBlock crypto) (fun s _ =>
        (s.machine first).map MachineInfo.machineStatus = some report) [exec, exec] reported ∧
      slashesOf crypto first [exec, exec] reported = 2 ∧
      ([0, 1].map fun id => (([exec, exec].foldl (applyBlock crypto)
        reported).slashes.pendingSlash.get id).map (·.slashAmount)) = [some 4, some 4] := by
  refine ⟨?_, ⟨by decide +kernel, by decide +kernel, trivial⟩, by decide +kernel, by decide +kernel⟩
  exact System.Reach.path (f := applyBlock crypto) (P := fun _ _ => True) (.init ⟨_, rfl⟩)
    (fun _ _ _ => ⟨trivial, rfl⟩) (System.Path.of_forall (fun _ _ _ => trivial) _)

end DeepBrainChain.OnlineProfile
