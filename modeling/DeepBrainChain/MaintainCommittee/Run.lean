import DeepBrainChain.MaintainCommittee.Rounds

/-!
# Runs of maintain-committee

Blocks of reports, bookings, hashes and findings, with the hooks at the end and the start of each
block. What the pallets below do in between is arbitrary. A run also notes the hashes and the
findings that were accepted.
-/

namespace DeepBrainChain.MaintainCommittee

open Lib GenericFunc Support Lib.Call SortedVec List

section

variable {A : Type} [LinearOrder A]

abbrev Block (A : Type) [LinearOrder A] := Lib.Block (State A)

/-- What can happen next. `outside` is anything the pallets below do. -/
inductive Op (A : Type) [LinearOrder A]
  | outside (r : RentMachine.State A)
  | setReporterStakeParams (p : ReporterStakeParamsInfo)
  | changeReporterStake (reporter : A) (amount : Nat) (isAdd : Bool)
  | reportMachineFault (reporter : A) (fault : MachineFaultType)
  | reporterCancelReport (reporter : A) (id : Nat)
  | committeeBookReport (c : A) (id : Nat)
  | reporterAddEncryptedErrorInfo (reporter : A) (id : Nat) (c : A) (encrypted : Bytes)
  | committeeSubmitVerifyHash (c : A) (id : Nat) (hash : Bytes)
  | committeeSubmitVerifyRaw (c : A) (id : Nat) (r : RawInfo)
  | committeeSubmitInaccessibleRaw (c : A) (id : Nat) (randStr : Bytes) (isSupport : Bool)
  | applySlashReview (applicant : A) (id : Nat) (reason : Bytes)
  | cancelReporterSlash (id : Nat)
  | endBlock
  | nextBlock

/-- Calls are made before the hook at the end of a block, and the next block starts after it. -/
def Op.Possible (t : Block A) : Op A → Prop
  | .outside r => r.now = t.state.now
  | .nextBlock => t.ended = true
  | _ => t.ended = false

instance (t : Block A) : (op : Op A) → Decidable (op.Possible t)
  | .outside _ | .nextBlock | .endBlock | .setReporterStakeParams _ | .changeReporterStake _ _ _
  | .reportMachineFault _ _ | .reporterCancelReport _ _ | .committeeBookReport _ _
  | .reporterAddEncryptedErrorInfo _ _ _ _ | .committeeSubmitVerifyHash _ _ _
  | .committeeSubmitVerifyRaw _ _ _ | .committeeSubmitInaccessibleRaw _ _ _ _
  | .applySlashReview _ _ _ | .cancelReporterSlash _ => inferInstanceAs (Decidable (_ = _))

def State.startBlock (s : State A) : State A := State.onInitialize { s with now := s.now + 1 }

def Block.call {α : Type} (t : Block A) (c : Call (State A) Error α) : Block A :=
  { t with state := (c.dispatch t.state).2 }

def apply (env : Env) (t : Block A) : Op A → Block A
  | .outside r => { t with state := t.state.setRent r }
  | .setReporterStakeParams p => t.call (setReporterStakeParams p)
  | .changeReporterStake reporter amount isAdd => t.call (changeReporterStake reporter amount isAdd)
  | .reportMachineFault reporter fault => t.call (reportMachineFault reporter fault)
  | .reporterCancelReport reporter id => t.call (reporterCancelReport reporter id)
  | .committeeBookReport c id => t.call (committeeBookReport c id)
  | .reporterAddEncryptedErrorInfo reporter id c encrypted =>
    t.call (reporterAddEncryptedErrorInfo reporter id c encrypted)
  | .committeeSubmitVerifyHash c id hash => t.call (committeeSubmitVerifyHash c id hash)
  | .committeeSubmitVerifyRaw c id r => t.call (committeeSubmitVerifyRaw env c id r)
  | .committeeSubmitInaccessibleRaw c id randStr isSupport =>
    t.call (committeeSubmitInaccessibleRaw env c id randStr isSupport)
  | .applySlashReview applicant id reason => t.call (applySlashReview applicant id reason)
  | .cancelReporterSlash id => t.call (cancelReporterSlash id)
  | .endBlock => ⟨t.state.onFinalize, true⟩
  | .nextBlock => ⟨t.state.startBlock, false⟩

inductive Deed (A : Type)
  | hash (c : A) (id : Nat) (hash : Bytes)
  | vote (c : A) (id : Nat) (isSupport : Bool)
deriving DecidableEq

def Accepted {α : Type} (c : Call (State A) Error α) (s : State A) : Prop := (c.run s).1.isOk = true

instance {α : Type} (c : Call (State A) Error α) (s : State A) : Decidable (Accepted c s) :=
  inferInstanceAs (Decidable (_ = true))

def deeds (env : Env) (t : Block A) : Op A → List (Deed A)
  | .committeeSubmitVerifyHash c id hash =>
    if Accepted (committeeSubmitVerifyHash c id hash) t.state then [.hash c id hash] else []
  | .committeeSubmitVerifyRaw c id r =>
    if Accepted (committeeSubmitVerifyRaw env c id r) t.state then [.vote c id r.supportReport]
    else []
  | .committeeSubmitInaccessibleRaw c id randStr b =>
    if Accepted (committeeSubmitInaccessibleRaw env c id randStr b) t.state then [.vote c id b]
    else []
  | _ => []

def system (env : Env) : System (Block A) (Op A) where
  init t := t.ended = false ∧ t.state.desk = .empty
  step t op t' := op.Possible t ∧ t' = apply env t op

def recorded (env : Env) : System (Block A × List (Deed A)) (Op A) :=
  (system env).logged (deeds env)

/-! ## Calls that leave the desk alone -/

theorem fresh_empty : (Desk.empty : Desk A).Fresh := by
  intro i _
  refine ⟨rfl, ?_, fun c hc => ?_⟩
  · simp [Desk.file, Desk.empty, shelf, MTLiveReportList.zero]
  · simp [Desk.file, Desk.empty, Desk.order, MTCommitteeOrderList.zero] at hc

section

variable {s : State A} {d : Desk A} {ε α : Type}

def OnDesk (d : Desk A) (s : State A) : Prop := s.desk = d

theorem keeps_profile (c : Call (OnlineProfile.State A) ε α) : Keeps (OnDesk d) (profile c) := by
  intro s hs
  unfold profile
  rw [post_zoom]
  exact (post_true c s.toProfile).mono (fun _ _ _ => hs) fun _ _ _ => hs

theorem keeps_committee (c : Call (Committee.State A) ε α) : Keeps (OnDesk d) (committee c) := by
  intro s hs
  unfold committee
  rw [post_zoom]
  exact (post_true c s.toCommittee).mono (fun _ _ _ => hs) fun _ _ _ => hs

theorem keeps_changeReporterStake (reporter : A) (amount : Nat) (isAdd : Bool) :
    Keeps (OnDesk d) (changeReporterStake reporter amount isAdd) := by
  unfold changeReporterStake
  refine .get fun s hs => .okOr fun p _ => .bind (.when (.bind .ensure fun _ => .ensure))
    fun _ => ?_
  exact .okOr fun b _ => .set hs

theorem keeps_payStakeWhenReport (reporter : A) :
    Keeps (OnDesk d) (payStakeWhenReport reporter) := by
  unfold payStakeWhenReport
  refine .get fun s hs => .okOr fun p _ => .ite (.okOr fun b _ => .set hs) ?_
  exact .bind .ensure fun _ => .set hs

theorem keeps_payInaccessible (reporter : A) (fault : MachineFaultType) :
    Keeps (OnDesk d) (payInaccessible reporter fault) := by
  cases fault with
  | rentedInaccessible m rentOrderId =>
    refine .get fun s hs => .okOr fun rent _ => .bind .ensure fun _ => .bind .ensure fun _ => ?_
    exact .bind (.whenSome fun i => .when (.modify fun s hs => hs)) fun _ =>
      .mapError (keeps_profile _)
  | _ => exact .pure ()

theorem keeps_changeCommitteeStakeOnReportClose (l : List A) (amount : Nat) (isSlash : Bool) :
    Keeps (OnDesk d) (changeCommitteeStakeOnReportClose l amount isSlash) :=
  .forEach fun _ _ => .bind (.when (keeps_committee _)) fun _ => keeps_committee _

theorem keeps_applySlashReview (applicant : A) (id : Nat) (reason : Bytes) :
    Keeps (OnDesk d) (applySlashReview applicant id reason) := by
  have hpay : ∀ (x : MTReportResultInfo A) (amount : Nat),
      Keeps (OnDesk d) (payReviewStake x applicant amount) := fun x amount =>
    .ite (.bind (keeps_changeReporterStake _ _ _) fun _ => keeps_payStakeWhenReport _)
      (.ite (.bind (.mapError (keeps_committee _)) fun _ => .mapError (keeps_committee _))
        (.when (.mapError (keeps_profile _))))
  unfold applySlashReview
  refine .get fun s hs => .okOr fun p _ => .okOr fun x _ => .bind .ensure fun _ => ?_
  refine .bind .ensure fun _ => .bind .ensure fun _ => .bind .ensure fun _ => ?_
  exact .bind (hpay x _) fun _ => .modify fun s hs => hs

theorem keeps_cancelReporterSlash (id : Nat) : Keeps (OnDesk d) (cancelReporterSlash id) := by
  have hback : ∀ (x : MTReportResultInfo A) (review : MTPendingSlashReviewInfo A),
      Keeps (OnDesk d) (returnReviewStake x review) := fun x review =>
    .ite (keeps_changeReporterStake _ _ _) (.ite (.mapError (keeps_profile _))
      (.mapError (keeps_changeCommitteeStakeOnReportClose _ _ _)))
  unfold cancelReporterSlash
  refine .get fun s hs => .okOr fun x _ => .okOr fun review _ => .bind .ensure fun _ => ?_
  refine .bind (hback x review) fun _ => .bind (.modify fun s hs => hs) fun _ => ?_
  dsimp only
  split
  · exact .bind (.pure _) fun _ => .modify fun s hs => hs
  · exact .bind (.modify fun s hs => hs) fun _ => .bind (.pure _) fun _ => .modify fun s hs => hs

theorem keeps_execReviewOne (id : Nat) : Keeps (OnDesk d) (execReviewOne id) := by
  have hclose : ∀ (x : MTReportResultInfo A) (review : MTPendingSlashReviewInfo A),
      Keeps (OnDesk d) (closeReview x review) := fun x review =>
    .ite (.modify fun s hs => hs)
      (.ite (.ignore (keeps_changeCommitteeStakeOnReportClose _ _ _))
        (.when (.ignore (keeps_profile _))))
  unfold execReviewOne
  refine .get fun s hs => .okOr fun review _ => .okOr fun x _ => .ite (.pure ()) ?_
  exact .bind (hclose x review) fun _ => .modify fun s hs => hs

theorem keeps_execSlash : Keeps (OnDesk d) (execSlash : Call (State A) Unit Unit) := by
  have hone : ∀ id, Keeps (OnDesk d) (execSlashOne id : Call (State A) Unit Unit) := by
    intro id
    unfold execSlashOne
    refine .get fun s hs => .okOr fun x _ => .bind (.when (.modify fun s hs => hs)) fun _ => ?_
    refine .bind (.when (.modify fun s hs => hs)) fun _ => ?_
    refine .bind (.ignore (keeps_changeCommitteeStakeOnReportClose _ _ _)) fun _ => ?_
    refine .bind (.ignore (keeps_changeCommitteeStakeOnReportClose _ _ _)) fun _ => ?_
    exact .modify fun s hs => hs
  unfold execSlash
  exact .get fun s hs => .bind (.forEach fun id _ => hone id) fun _ => .modify fun s hs => hs

theorem desk_startBlock (s : State A) : s.startBlock.desk = s.desk := by
  have hreview : OnDesk s.desk (State.execReview { s with now := s.now + 1 }) :=
    (Keeps.forEach fun id _ => keeps_execReviewOne id).run rfl
  exact keeps_execSlash.run hreview

theorem desk_dispatch {c : Call (State A) ε α} (h : Keeps (OnDesk s.desk) c) :
    (c.dispatch s).2.desk = s.desk :=
  dispatch_keeps (I := OnDesk s.desk) rfl fun _ _ hr => (h s rfl).ok hr

end

/-! ## Calls that write the desk -/

section

variable {env : Env} {P : Nat → RawInfo → Prop} {v : Scene A} {s s' : State A} {id : Nat} {c : A}

variable {α : Type} {reporter : A} {hash rand : Bytes} {x : MTReportInfoDetail A} {r : RawInfo}
  {b : Bool}

theorem run_checked_ok {r : Except ReportErr α} {s s' : State A} {a : α} :
    (checked r).run s = (.ok a, s') ↔ r = .ok a ∧ s = s' := by
  cases r with
  | ok b => simp [checked]
  | error e => simp [checked]

theorem run_checked_unit_ok {r : Except ReportErr Unit} {s s' : State A} {u : Unit} :
    (checked r).run s = (.ok u, s') ↔ r = .ok () ∧ s = s' :=
  run_checked_ok

theorem reportMachineFault_moves (hf : s.desk.Fresh) (hmax : s.desk.nextReportId ≠ u64Max)
    (reporter : A) (fault : MachineFaultType) :
    Post (reportMachineFault reporter fault) s
      (fun _ s' => Moves v s.desk.nextReportId s.desk s'.desk) (fun _ _ => True) := by
  unfold reportMachineFault
  simp only [post_bind, post_get]
  refine (keeps_payInaccessible reporter fault s rfl).mono (fun _ s1 h1 => ?_) fun _ _ _ => trivial
  refine (keeps_payStakeWhenReport reporter s1 h1).mono (fun _ s2 h2 => ?_) fun _ _ _ => trivial
  unfold doReportMachineFault
  simp only [post_step]
  refine ⟨fun p _ => ?_, fun _ => trivial⟩
  show Moves v _ s.desk (s2.desk.newReport _)
  rw [show s2.desk = s.desk from h2]
  exact Moves.newReport hf hmax _ ..

theorem reporterCancelReport_moves (hv : v.stage = .calls) (hf : s.desk.Fresh)
    (h : (reporterCancelReport reporter id).run s = (.ok (), s')) : Moves v id s.desk s'.desk := by
  unfold reporterCancelReport at h
  simp only [run_ok] at h
  obtain ⟨x, hx, -, hst, rfl⟩ := h
  exact moves_cancel hv hf hx hst

theorem committeeBookReport_moves (hv : v.stage = .calls) (hf : s.desk.Fresh) (c : A) (id : Nat) :
    Post (committeeBookReport c id) s (fun _ s' => Moves v id s.desk s'.desk)
      (fun _ _ => True) := by
  unfold committeeBookReport
  simp only [post_step]
  refine ⟨fun _ => ⟨fun x hx => ?_, fun _ => trivial⟩, fun _ => trivial⟩
  cases hc : x.canBook c with
  | error e => exact trivial
  | ok u =>
    have hbook : ∀ (stake : Nat) (s1 : State A), OnDesk s.desk s1 →
        Moves v id s.desk (s1.desk.book c id x s1.now stake) := by
      intro stake s1 h1
      rw [show s1.desk = s.desk from h1]
      exact moves_book hv hf hx hc _ _
    refine ⟨fun stake _ => ?_, fun _ => trivial⟩
    split
    · rw [post_bind]
      exact (Keeps.mapError (keeps_profile _) s rfl).mono (fun _ s1 h1 => hbook stake s1 h1)
        fun _ _ _ => trivial
    · rw [post_bind]
      exact (Keeps.mapError (keeps_committee _) s rfl).mono (fun _ s1 h1 => hbook stake s1 h1)
        fun _ _ _ => trivial

theorem reporterAddEncryptedErrorInfo_moves (hv : v.stage = .calls) (hf : s.desk.Fresh)
    {encrypted : Bytes}
    (h : (reporterAddEncryptedErrorInfo reporter id c encrypted).run s = (.ok (), s')) :
    Moves v id s.desk s'.desk := by
  unfold reporterAddEncryptedErrorInfo at h
  simp only [run_ok, run_checked_unit_ok] at h
  obtain ⟨x, hx, -, -, rfl⟩ := h
  exact moves_addEncrypted hv hf hx _ _

theorem committeeSubmitVerifyHash_ok :
    (committeeSubmitVerifyHash c id hash).run s = (.ok (), s') ↔
      ∃ x, s.desk.info id = some x ∧ id ∈ (s.desk.order c).bookedReport ∧
        (s.desk.ops c id).orderStatus = .verifying ∧ x.canSubmitHash = .ok () ∧
        s.desk.IsUniqHash id x hash ∧
        (s.mapDesk fun d => d.addHash c id x hash s.now) = s' := by
  unfold committeeSubmitVerifyHash MTCommitteeOrderList.canSubmitHash
    MTCommitteeOpsDetail.canSubmitHash
  simp only [run_ok, run_checked_unit_ok, require_ok]

theorem committeeSubmitVerifyHash_moves (hv : v.stage = .calls) (hf : s.desk.Fresh)
    (hnew : v.hashes c id hash) (h : (committeeSubmitVerifyHash c id hash).run s = (.ok (), s')) :
    Moves v id s.desk s'.desk := by
  obtain ⟨x, hx, hc, -, hcan, -, rfl⟩ := committeeSubmitVerifyHash_ok.1 h
  exact moves_addHash hv hf hx hc hcan hnew _

theorem canSubmitRaw_ok :
    x.canSubmitRaw c = .ok () ↔ x.reportStatus = .submittingRaw ∧ c ∈ x.hashedCommittee := by
  unfold MTReportInfoDetail.canSubmitRaw
  rw [require_bind_ok, require_ok]

theorem getReporterHash_ok
    (h : x.getReporterHash = .ok hash) : x.machineFaultType.isInaccessible = false := by
  unfold MTReportInfoDetail.getReporterHash at h
  cases hx : x.machineFaultType with
  | rentedInaccessible m i =>
    rw [hx] at h
    cases h
  | _ => rfl

theorem committeeSubmitVerifyRaw_ok :
    (committeeSubmitVerifyRaw env c id r).run s = (.ok (), s') ↔
      ∃ x, s.desk.info id = some x ∧ x.reportStatus = .submittingRaw ∧ c ∈ x.hashedCommittee ∧
        x.getReporterHash = .ok (getHash env r.reporterParts) ∧
        getHash env r.committeeParts = (s.desk.ops c id).confirmHash ∧
        (s.mapDesk fun d => d.addRaw c id x s.now r.supportReport (some r.machineId)
          r.errReason r.extraErrInfo) = s' := by
  unfold committeeSubmitVerifyRaw
  simp only [run_ok, run_checked_unit_ok, canSubmitRaw_ok]
  constructor
  · rintro ⟨x, hx, hst, hc, hash, s1, hr, rfl, hh, hs⟩
    exact ⟨x, hx, hst, hc, (run_checked_ok.1 hr).1, hh, hs⟩
  · rintro ⟨x, hx, hst, hc, hr, hh, hs⟩
    exact ⟨x, hx, hst, hc, _, s, run_checked_ok.2 ⟨hr, rfl⟩, rfl, hh, hs⟩

theorem committeeSubmitVerifyRaw_moves (hv : v.stage = .calls) (hf : s.desk.Fresh)
    (hr : v.allowed id r) (h : (committeeSubmitVerifyRaw v.env c id r).run s = (.ok (), s')) :
    Moves v id s.desk s'.desk := by
  obtain ⟨x, hx, hst, hc, hrep, hhash, rfl⟩ := committeeSubmitVerifyRaw_ok.1 h
  exact moves_addRaw hv hf hx (canSubmitRaw_ok.2 ⟨hst, hc⟩)
    (.raw r (getReporterHash_ok hrep) hr hhash) _ _ _ _

theorem committeeSubmitInaccessibleRaw_ok :
    (committeeSubmitInaccessibleRaw env c id rand b).run s = (.ok (), s') ↔
      ∃ x, s.desk.info id = some x ∧ x.reportStatus = .submittingRaw ∧
        x.machineFaultType.isInaccessible = true ∧ c ∈ x.hashedCommittee ∧
        getHash env (inaccessibleParts id rand b) = (s.desk.ops c id).confirmHash ∧
        (s.mapDesk fun d => d.addRaw c id x s.now b none [] []) = s' := by
  unfold committeeSubmitInaccessibleRaw MTReportInfoDetail.canSubmitInaccessibleRaw
  simp only [run_ok, run_checked_unit_ok, require_bind_ok, require_ok]

theorem committeeSubmitInaccessibleRaw_moves (hv : v.stage = .calls) (hf : s.desk.Fresh)
    (h : (committeeSubmitInaccessibleRaw v.env c id rand b).run s = (.ok (), s')) :
    Moves v id s.desk s'.desk := by
  obtain ⟨x, hx, hst, hin, hc, hhash, rfl⟩ := committeeSubmitInaccessibleRaw_ok.1 h
  exact moves_addRaw hv hf hx (canSubmitRaw_ok.2 ⟨hst, hc⟩) (.inaccessible rand b hin hhash) _ _ _ _

/-- The findings that may be revealed. -/
def Op.Reveals (P : Nat → RawInfo → Prop) : Op A → Prop
  | .committeeSubmitVerifyRaw _ id r => P id r
  | _ => True

instance (P : Nat → RawInfo → Prop) [∀ id r, Decidable (P id r)] :
    (op : Op A) → Decidable (op.Reveals P)
  | .committeeSubmitVerifyRaw _ id r => inferInstanceAs (Decidable (P id r))
  | .outside _ | .nextBlock | .endBlock | .setReporterStakeParams _ | .changeReporterStake _ _ _
  | .reportMachineFault _ _ | .reporterCancelReport _ _ | .committeeBookReport _ _
  | .reporterAddEncryptedErrorInfo _ _ _ _ | .committeeSubmitVerifyHash _ _ _
  | .committeeSubmitInaccessibleRaw _ _ _ _ | .applySlashReview _ _ _
  | .cancelReporterSlash _ => isTrue trivial

theorem dispatch_desk {call : Call (State A) Error α} (id : Nat)
    (h : ∀ a s', call.run s = (.ok a, s') → Moves v id s.desk s'.desk) :
    ∃ id, Moves v id s.desk (call.dispatch s).2.desk :=
  ⟨id, dispatch_keeps (I := fun s' : State A => Moves v id s.desk s'.desk) (.refl v id _) h⟩

def Block.scene (t : Block A) (env : Env) (P : Nat → RawInfo → Prop) (op : Op A) : Scene A :=
  { t.state.scene .calls env P with hashes := fun c id hash => .hash c id hash ∈ deeds env t op }

/-- **What an operation within a block does to the desk.** -/
theorem apply_moves {t : Block A} (hf : t.state.desk.Fresh)
    (hmax : t.state.desk.nextReportId ≠ u64Max) {op : Op A} (hop : op ≠ .endBlock)
    (hr : op.Reveals P) :
    ∃ id, Moves (t.scene env P op) id t.state.desk (apply env t op).state.desk := by
  have hidle : ∀ {v : Scene A} {α : Type} {call : Call (State A) Error α},
      Keeps (OnDesk t.state.desk) call →
        ∃ id, Moves v id t.state.desk (t.call call).state.desk := by
    intro v α call h
    refine ⟨0, ?_⟩
    rw [show (t.call call).state.desk = t.state.desk from desk_dispatch h]
    exact .refl v 0 _
  cases op with
  | outside r => exact ⟨0, .refl _ 0 _⟩
  | setReporterStakeParams p => exact hidle (.modify fun s hs => hs)
  | changeReporterStake reporter amount isAdd => exact hidle (keeps_changeReporterStake _ _ _)
  | reportMachineFault reporter fault =>
    exact dispatch_desk _ fun _ _ h => (reportMachineFault_moves hf hmax reporter fault).ok h
  | reporterCancelReport reporter id =>
    exact dispatch_desk id fun _ _ h => reporterCancelReport_moves rfl hf h
  | committeeBookReport c id =>
    exact dispatch_desk id fun _ _ h => (committeeBookReport_moves rfl hf c id).ok h
  | reporterAddEncryptedErrorInfo reporter id c encrypted =>
    exact dispatch_desk id fun _ _ h => reporterAddEncryptedErrorInfo_moves rfl hf h
  | committeeSubmitVerifyHash c id hash =>
    refine dispatch_desk id fun _ _ h => committeeSubmitVerifyHash_moves rfl hf ?_ h
    have hacc : Accepted (committeeSubmitVerifyHash c id hash) t.state := by
      unfold Accepted
      rw [h]
      rfl
    show Deed.hash c id hash ∈ deeds env t (.committeeSubmitVerifyHash c id hash)
    simp only [deeds, if_pos hacc, mem_singleton]
  | committeeSubmitVerifyRaw c id r =>
    exact dispatch_desk id fun _ _ h => committeeSubmitVerifyRaw_moves rfl hf hr h
  | committeeSubmitInaccessibleRaw c id randStr b =>
    exact dispatch_desk id fun _ _ h => committeeSubmitInaccessibleRaw_moves rfl hf h
  | applySlashReview applicant id reason => exact hidle (keeps_applySlashReview _ _ _)
  | cancelReporterSlash id => exact hidle (keeps_cancelReporterSlash id)
  | endBlock => exact absurd rfl hop
  | nextBlock =>
    refine ⟨0, ?_⟩
    rw [show (apply env t .nextBlock).state.desk = t.state.desk from desk_startBlock t.state]
    exact .refl _ 0 _

end

/-! ## The end of a block -/

section

variable {env : Env} {P : Nat → RawInfo → Prop} {s : State A} {d : Desk A}

/-- What holds after the rounds that `J` counts down, with at most `n` reports made by then. -/
structure Settled (J : List Nat → State A → Prop) (rest : List Nat) (n : Nat) (s : State A) :
    Prop where
  inv : J rest s
  fresh : s.desk.Fresh
  next : s.desk.nextReportId ≤ n

variable {J : List Nat → State A → Prop}

/-- **The rounds of a hook, one after another.** `R` says what a round does, and `J` holds of the
rounds still to come. -/
theorem foldl_rounds {round : Nat → Call (State A) Unit Unit} {R : Nat → State A → State A → Prop}
    {Q : Nat → Prop} (hmoves : ∀ id s s', R id s s' → ∃ v, Moves v id s.desk s'.desk)
    (hround : ∀ id s, s.desk.Fresh → s.desk.nextReportId ≠ u64Max → R id s ((round id).run s).2)
    (hJ : ∀ id l s s', Q id → s.desk.Fresh → J (id :: l) s → R id s s' → J l s') {rest : List Nat}
    {l : List Nat} (hQ : ∀ id ∈ l, Q id) (hs : J (l ++ rest) s) (hf : s.desk.Fresh)
    (hroom : s.desk.nextReportId + l.length ≤ u64Max) :
    Settled J rest (s.desk.nextReportId + l.length)
      (l.foldl (fun s id => ((round id).run s).2) s) := by
  induction l generalizing s with
  | nil => exact ⟨hs, hf, le_rfl⟩
  | cons id l ih =>
    rw [length_cons] at hroom ⊢
    rw [foldl_cons]
    have hR := hround id s hf (by omega)
    obtain ⟨v, hm⟩ := hmoves _ _ _ hR
    have hhigh := hm.high
    have hinv := hJ id _ s _ (hQ id mem_cons_self) hf hs hR
    have hrest := ih (fun i hi => hQ i (mem_cons_of_mem _ hi)) hinv (hm.fresh_desk hf) (by omega)
    exact ⟨hrest.inv, hrest.fresh, hrest.next.trans (by omega)⟩

theorem Desk.Fresh.lt_of_listed (h : d.Fresh) {id : Nat}
    (hid : id ∈ d.liveReport.bookableReport ∨ id ∈ d.liveReport.verifyingReport ∨
      id ∈ d.liveReport.waitingRawReport) : id < d.nextReportId := by
  by_contra hlt
  have hblank : shelf d.liveReport id = ⟨False, False, False, False⟩ :=
    (h id (Nat.le_of_not_lt hlt)).shelf
  obtain ⟨hb, hv, hw, -⟩ := Shelf.mk.inj hblank
  rcases hid with hid | hid | hid
  · exact hb.mp hid
  · exact hv.mp hid
  · exact hw.mp hid

/-- The reports whose rounds are due. -/
def Desk.due (d : Desk A) : List Nat :=
  d.liveReport.verifyingReport.toList ++ d.liveReport.bookableReport.toList ++
    d.liveReport.waitingRawReport.toList

theorem Desk.Fresh.length_due (h : d.Fresh) : d.due.length ≤ 3 * d.nextReportId := by
  have hv := length_le_of_lt fun i hi => h.lt_of_listed (.inr (.inl hi))
  have hb := length_le_of_lt fun i hi => h.lt_of_listed (.inl hi)
  have hw := length_le_of_lt fun i hi => h.lt_of_listed (.inr (.inr hi))
  unfold SortedVec.length at hv hb hw
  unfold Desk.due
  rw [length_append, length_append]
  omega

/-- **The hook at the end of a block**, with fewer than `2 ^ 60` reports made. `R₁`, `R₂` and `R₃` say
what a round of each loop does, `J` holds through the rounds about faults and `K` through the rounds
of the other reports. -/
theorem onFinalize_rounds {K : List Nat → State A → Prop}
    (R₁ R₂ R₃ : Nat → State A → State A → Prop)
    (hR1 : ∀ id s, s.desk.Fresh → R₁ id s ((summaryVerifyingReport id).run s).2)
    (hR2 : ∀ id s, s.desk.Fresh → R₂ id s ((summarySubmittingRaw id).run s).2)
    (hR3 : ∀ id s, s.desk.Fresh → R₃ id s ((summaryInaccessibleReport id).run s).2)
    (hverify : ∀ id l s' s'', id ∈ s.desk.liveReport.verifyingReport ∨
      id ∈ s.desk.liveReport.bookableReport → s'.desk.Fresh → J (id :: l) s' →
      Rounded (s'.scene .verifying env P) id s' s'' → R₁ id s' s'' → J l s'')
    (hcount : ∀ id l s' s'', id ∈ s.desk.liveReport.waitingRawReport → s'.desk.Fresh →
      J (id :: l) s' → Rounded (s'.scene .counting env P) id s' s'' → R₂ id s' s'' → J l s'')
    (hJK : ∀ s', J [] s' → s'.desk.Fresh → K s'.desk.due s')
    (hK : ∀ id l s' s'', s'.desk.Fresh → K (id :: l) s' →
      Rounded (s'.scene .inaccessible env P) id s' s'' → R₃ id s' s'' → K l s'')
    (hs : J s.desk.due s) (hf : s.desk.Fresh) (hroom : 16 * s.desk.nextReportId ≤ u64Max) :
    K [] s.onFinalize ∧ s.onFinalize.desk.Fresh := by
  have hlen := hf.length_due
  unfold Desk.due at hs hlen
  rw [length_append] at hlen
  have h1 := foldl_rounds
    (R := fun id s s' => Rounded (s.scene .verifying env P) id s s' ∧ R₁ id s s')
    (fun _ _ _ h => ⟨_, h.1.1⟩)
    (fun id s hf _ => ⟨(summaryVerifyingReport_rounded hf id).storage, hR1 id s hf⟩)
    (fun id l s' s'' hid hf' hj hr => hverify id l s' s'' hid hf' hj hr.1 hr.2)
    (fun id hid => mem_append.1 hid) hs hf (by omega)
  have hnext1 := h1.next
  have h2 : Settled J [] _ (s.summaryFaultHook) := foldl_rounds
    (R := fun id s s' => Rounded (s.scene .counting env P) id s s' ∧ R₂ id s s')
    (fun _ _ _ h => ⟨_, h.1.1⟩)
    (fun id s hf hmax => ⟨(summarySubmittingRaw_rounded hf hmax id).storage, hR2 id s hf⟩)
    (fun id l s' s'' hid hf' hj hr => hcount id l s' s'' hid hf' hj hr.1 hr.2)
    (fun id hid => hid) (by rw [append_nil]; exact h1.inv) h1.fresh (by omega)
  have hnext2 : (s.summaryFaultHook).desk.nextReportId ≤ _ := h2.next
  have hlen2 : (s.summaryFaultHook).desk.due.length ≤
      3 * (s.summaryFaultHook).desk.nextReportId := h2.fresh.length_due
  have h3 : Settled K [] _ s.onFinalize :=
    foldl_rounds (Q := fun _ => True) (l := (s.summaryFaultHook).desk.due)
      (R := fun id s s' => Rounded (s.scene .inaccessible env P) id s s' ∧ R₃ id s s')
      (fun _ _ _ h => ⟨_, h.1.1⟩)
      (fun id s hf hmax => ⟨(summaryInaccessibleReport_rounded rfl hf hmax id).storage,
      hR3 id s hf⟩)
      (fun id l s s' _ hf hk hr => hK id l s s' hf hk hr.1 hr.2) (fun _ _ => trivial)
      (by rw [append_nil]; exact hJK _ h2.inv h2.fresh) h2.fresh (by omega)
  exact ⟨h3.inv, h3.fresh⟩

/-- The same for what the files alone decide. The rounds of faults keep `J`; what is left of it keeps
through the rounds of the other reports. -/
theorem onFinalize_settled {G : State A → Prop}
    (hverify : ∀ id l s' s'', id ∈ s.desk.liveReport.verifyingReport ∨
      id ∈ s.desk.liveReport.bookableReport → s'.desk.Fresh → J (id :: l) s' →
      Rounded (s'.scene .verifying env P) id s' s'' → J l s'')
    (hcount : ∀ id l s' s'', id ∈ s.desk.liveReport.waitingRawReport → s'.desk.Fresh →
      J (id :: l) s' → Rounded (s'.scene .counting env P) id s' s'' → J l s'')
    (hJG : ∀ s', J [] s' → G s')
    (hG : ∀ id s' s'', s'.desk.Fresh → G s' →
      Rounded (s'.scene .inaccessible env P) id s' s'' → G s'')
    (hs : J s.desk.due s) (hf : s.desk.Fresh) (hroom : 16 * s.desk.nextReportId ≤ u64Max) :
    G s.onFinalize ∧ s.onFinalize.desk.Fresh :=
  onFinalize_rounds (K := fun _ => G) (fun _ _ _ => True) (fun _ _ _ => True)
    (fun _ _ _ => True) (fun _ _ _ => trivial) (fun _ _ _ => trivial) (fun _ _ _ => trivial)
    (fun id l s' s'' hid hf' hj hr _ => hverify id l s' s'' hid hf' hj hr)
    (fun id l s' s'' hid hf' hj hr _ => hcount id l s' s'' hid hf' hj hr)
    (fun s' hj _ => hJG s' hj) (fun id _ s' s'' hf' hg hr _ => hG id s' s'' hf' hg hr) hs hf hroom

end

/-! # Bookings

A committee that holds a report as booked is one of the report's booked committees and has
submitted no hash yet; those that did are booked committees too. -/

variable {id : Nat} {x : MTReportInfoDetail A} {c : A}

theorem canBook_ok :
    x.canBook c = .ok () ↔ x.reportTime ≠ 0 ∧
      (x.reportStatus = .reported ∨ x.reportStatus = .waitingBook) ∧
      x.bookedCommittee.length < 3 ∧ c ∉ x.bookedCommittee := by
  unfold MTReportInfoDetail.canBook
  rw [require_bind_ok, require_bind_ok, require_bind_ok, require_ok]

theorem canSubmitHash_status (hcan : x.canSubmitHash = .ok ()) :
    x.reportStatus = .waitingBook ∨ x.reportStatus = .verifying := by
  unfold MTReportInfoDetail.canSubmitHash at hcan
  split at hcan
  · exact require_ok.1 hcan
  · exact .inr (require_ok.1 hcan)

/-- Only those who booked hash, the one who verifies has not hashed yet, and nobody is on a report
that waits for its first booking. -/
structure Joined (x : MTReportInfoDetail A) : Prop where
  hashed : ∀ c ∈ x.hashedCommittee, c ∈ x.bookedCommittee
  verifying : ∀ c, x.verifyingCommittee = some c → c ∉ x.hashedCommittee
  idle : x.reportStatus = .reported → ∀ c, c ∉ x.bookedCommittee

namespace Joined

theorem new (r : A) (t : Nat) (fault : MachineFaultType) (stake : Nat) :
    Joined (MTReportInfoDetail.new r t fault stake) where
  hashed _ h := absurd h notMem_empty
  verifying _ h := by cases h
  idle _ _ := notMem_empty

section

variable (h : Joined x)

include h

theorem setStatus {st : ReportStatus} (hr : st ≠ .reported) : Joined (x.setStatus st) :=
  ⟨h.hashed, h.verifying, fun hst => absurd hst hr⟩

theorem counted : Joined (counted x) := by
  unfold MaintainCommittee.counted
  split
  · exact h
  · exact h.setStatus (by simp)

theorem bookReport (hc : x.canBook c = .ok ()) (t : Nat) : Joined (x.bookReport c t) := by
  obtain ⟨-, hst, -, hnot⟩ := canBook_ok.1 hc
  refine ⟨fun c' hc' => mem_addItem.2 (.inr (h.hashed c' hc')), fun c' hc' => ?_,
    fun hr => ?_⟩
  · unfold MTReportInfoDetail.bookReport at hc' ⊢
    simp only at hc'
    split at hc'
    · exact h.verifying c' hc'
    · cases hc'
      exact fun hmem => hnot (h.hashed c hmem)
  · unfold MTReportInfoDetail.bookReport at hr
    simp only at hr
    split at hr
    · split at hr <;> cases hr
    · cases hr

theorem addHash (hcan : x.canSubmitHash = .ok ()) (hc : c ∈ x.bookedCommittee) :
    Joined (x.addHash c) := by
  have hst := canSubmitHash_status hcan
  refine ⟨fun c' hc' => ?_, fun c' hc' => (by cases hc'), fun hr => ?_⟩
  · rcases mem_addItem.1 hc' with rfl | hc'
    · exact hc
    · exact h.hashed c' hc'
  · unfold MTReportInfoDetail.addHash at hr
    simp only at hr
    split at hr
    · cases hr
    · split at hr
      · rcases hst with hst | hst <;> rw [hst] at hr <;> cases hr
      · cases hr

section

variable (hc : x.verifyingCommittee = some c)

include hc

theorem rmBooked : ∀ c' ∈ x.hashedCommittee, c' ∈ x.bookedCommittee.rmItem c := by
  intro c' hc'
  refine mem_rmItem.2 ⟨?_, h.hashed c' hc'⟩
  rintro rfl
  exact h.verifying c' hc hc'

theorem cleanNotSubmitHash : Joined (x.cleanNotSubmitHashCommittee c) := by
  refine ⟨h.rmBooked hc, fun c' hc' => (by cases hc'), fun hr c' hc' => ?_⟩
  unfold MTReportInfoDetail.cleanNotSubmitHashCommittee at hr hc'
  simp only at hr
  split at hr
  · next he =>
    have hnil := List.isEmpty_iff.1 he
    change c' ∈ (x.bookedCommittee.rmItem c).toList at hc'
    rw [hnil] at hc'
    cases hc'
  · cases hr

theorem cleanNotSubmitRaw : Joined (x.cleanNotSubmitRawCommittee c) :=
  ⟨h.rmBooked hc, fun c' hc' => (by cases hc'),
    fun hr c' hc' => h.idle hr c' (mem_rmItem.1 hc').2⟩

end

end

end Joined

/-- The committees that hold a report as booked are those of the report. -/
structure Manned (f : File A) : Prop where
  free : f.info = none → ∀ c, ¬ f.booked c
  held : ∀ x, f.info = some x → ∀ c, f.booked c → c ∈ x.bookedCommittee ∧ c ∉ x.hashedCommittee
  joined : ∀ x, f.info = some x → Joined x

theorem Manned.of_some {f : File A} (hx : f.info = some x)
    (hheld : ∀ c, f.booked c → c ∈ x.bookedCommittee ∧ c ∉ x.hashedCommittee)
    (hjoined : Joined x) : Manned f where
  free h := by
    rw [hx] at h
    cases h
  held y hy := by
    cases hx.symm.trans hy
    exact hheld
  joined y hy := by
    cases hx.symm.trans hy
    exact hjoined

theorem Manned.of_none {f : File A} (hx : f.info = none) (hb : ∀ c, ¬ f.booked c) : Manned f where
  free _ := hb
  held x h := by
    rw [hx] at h
    cases h
  joined x h := by
    rw [hx] at h
    cases h

/-- The committee `c` loses a report, and no other one. -/
theorem Manned.drop {f g : File A} {y : MTReportInfoDetail A} (h : Manned f) (hx : f.info = some x)
    (hi : g.info = some y) (hb : ∀ c', g.booked c' → c' ≠ c ∧ f.booked c')
    (hbooked : y.bookedCommittee = x.bookedCommittee.rmItem c)
    (hhashed : y.hashedCommittee = x.hashedCommittee) (hy : Joined y) : Manned g := by
  refine .of_some hi (fun c' hc' => ?_) hy
  obtain ⟨hne, hc'⟩ := hb c' hc'
  obtain ⟨hmem, hnot⟩ := h.held x hx c' hc'
  rw [hbooked, hhashed]
  exact ⟨mem_rmItem.2 ⟨hne, hmem⟩, hnot⟩

theorem counted_committees (x : MTReportInfoDetail A) :
    (counted x).bookedCommittee = x.bookedCommittee ∧
      (counted x).hashedCommittee = x.hashedCommittee := by
  unfold counted
  split <;> exact ⟨rfl, rfl⟩

theorem Manned.counted {f g : File A} (h : Manned f) (hx : f.info = some x)
    (hi : g.info = some (counted x)) (hb : ∀ c, g.booked c → f.booked c) : Manned g := by
  refine .of_some hi (fun c hc => ?_) (h.joined x hx).counted
  rw [(counted_committees x).1, (counted_committees x).2]
  exact h.held x hx c (hb c hc)

/-- **Every turn keeps the committees of a report in order.** -/
theorem Turn.manned {v : Scene A} {f g : File A} (ht : Turn v id f g) (h : Manned f) :
    Manned g := by
  cases ht with
  | stay heq => rwa [heq]
  | filed hf r t fault stake hi hs hb =>
    refine .of_some hi (fun c hc => ?_) (.new r t fault stake)
    rw [hb] at hc
    exact absurd hc (hf.booked c)
  | canceled hv x hx hst hi hs hb =>
    refine .of_none hi fun c hc => ?_
    rw [hb] at hc
    exact (h.joined x hx).idle hst c (h.held x hx c hc).1
  | booked hv x hx c t hcan hi hs hb hh =>
    have hjoined := h.joined x hx
    obtain ⟨-, -, -, hnot⟩ := canBook_ok.1 hcan
    refine .of_some hi (fun c' hc' => ?_) (hjoined.bookReport hcan t)
    rcases hb c' hc' with rfl | hc'
    · exact ⟨mem_addItem.2 (.inl rfl), fun hmem => hnot (hjoined.hashed c' hmem)⟩
    · obtain ⟨hmem, hfree⟩ := h.held x hx c' hc'
      exact ⟨mem_addItem.2 (.inr hmem), hfree⟩
  | encrypted hv x hx c hi hs hb hh =>
    obtain ⟨hhashed, hver, hidle⟩ := h.joined x hx
    refine .of_some hi ?_ ⟨hhashed, hver, hidle⟩
    rw [hb]
    exact h.held x hx
  | hashed hv x hx c hash hnew hc hcan hi hs hb hh =>
    obtain ⟨hbooked, -⟩ := h.held x hx c hc
    refine .of_some hi (fun c' hc' => ?_) ((h.joined x hx).addHash hcan hbooked)
    obtain ⟨hne, hc'⟩ := hb c' hc'
    obtain ⟨hmem, hfree⟩ := h.held x hx c' hc'
    exact ⟨hmem, fun hm => (mem_addItem.1 hm).elim hne hfree⟩
  | revealed hv x hx c b m err hcan ho hi hs hb hh =>
    obtain ⟨hhashed, hver, hidle⟩ := h.joined x hx
    refine .of_some hi ?_ ⟨hhashed, hver, hidle⟩
    rw [hb]
    exact h.held x hx
  | started hv x hx hin hst hi hs hb hh =>
    refine .of_some hi ?_ ((h.joined x hx).setStatus (by simp))
    rw [hb]
    exact h.held x hx
  | closed hv x hx hst hi hs hb hh =>
    exact .of_some hi (fun c hc => h.held x hx c (hb c hc)) (h.joined x hx)
  | concluded hv x hx hst hi hs hb =>
    exact .of_some hi (fun c hc => h.held x hx c (hb c hc)) ((h.joined x hx).setStatus (by simp))
  | late hv x hx hin hst hi hs hb =>
    exact .of_some hi (fun c hc => h.held x hx c (hb c hc).1) (h.joined x hx)
  | dropped hv x hx hin hst c hc hi hs hb hh =>
    exact h.drop hx hi hb rfl rfl ((h.joined x hx).cleanNotSubmitHash hc)
  | switched hv x hx hst hi hs hb hh =>
    refine .of_some hi ?_ ((h.joined x hx).setStatus (by simp))
    rw [hb]
    exact h.held x hx
  | stranded hv x hx hsum hlate hst hi hs hb hh =>
    refine .of_some hi ?_ (h.joined x hx)
    rw [hb]
    exact h.held x hx
  | bereft hv x hx hsum hlate hst c hc hi hs hb hh =>
    exact h.drop hx hi hb rfl rfl ((h.joined x hx).cleanNotSubmitRaw hc)
  | decided hv x hx hsum hi hs hb hh => exact h.counted hx hi fun c hc => hb ▸ hc
  | stuck hv x hx hsum hc hle hk hi hs hb hh =>
    refine .of_some hi ?_ (h.joined x hx)
    rw [hb]
    exact h.held x hx
  | undecided hv x hx hsum he hi hs hb => exact h.counted hx hi hb

end

end DeepBrainChain.MaintainCommittee
