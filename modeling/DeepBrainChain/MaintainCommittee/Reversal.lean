import DeepBrainChain.MaintainCommittee.Calls

/-!
# Cancelled results of fault reports

`cancel_reporter_slash` gives the applicant its stake back and turns the result round. It does so
with exact balances exactly when the machine's stash applied and no stake of a committee is at issue:
the stakes of committees are taken from their reserves and stay in their records, and an applicant
that is a reporter or a committee does not get back what it paid.
-/

namespace DeepBrainChain.MaintainCommittee

open Lib GenericFunc Support Lib.Call StorageMap Balances SortedVec Option List

section

variable {A : Type} [LinearOrder A] {s s' : State A} {id : Nat} {x : MTReportResultInfo A}
  {applicant : A} {stake : Nat}

/-- The committees that pay when the result is cancelled. -/
def payers (x : MTReportResultInfo A) : SortedVec A :=
  x.rewardCommittee.expandToOrder x.unrulyCommittee.toList

/-- What a cancelled result takes from the reserve of an account: the stake of its review, its
stake as a reporter that had won, and its stake as a committee that was not overruled. -/
def owed (x : MTReportResultInfo A) (applicant : A) (stake : Nat) (c : A) : Nat :=
  (if c = applicant then stake else 0) +
    (if c = x.reporter ∧ x.reportResult = .reportSucceed then x.reporterStake else 0) +
    if c ∈ payers x then x.committeeStake else 0

/-- Every account the result is about holds its stake. -/
structure Backed (s : State A) (x : MTReportResultInfo A) (applicant : A) (stake : Nat) : Prop where
  issuance : s.balances.issuance ≤ u128Max
  reserve : ∀ c, owed x applicant stake c ≤ s.balances.reserved c
  reporter : x.reporterStake ≤ (s.dues.stakeOf x.reporter).usedStake ∧
    x.reporterStake ≤ (s.dues.stakeOf x.reporter).stakedAmount
  inconsistent : ∀ c ∈ x.inconsistentCommittee, 0 < s.balances.reserved c

/-- The review of a stash was entered: it cost the stash its stake. -/
structure Lodged (s s' : State A) (id : Nat) (applicant : A) (stake : Nat) : Prop where
  reserve : ∀ c, s'.balances.reserved c =
    s.balances.reserved c + if c = applicant then stake else 0
  stash : ∀ c, s'.stashStake c = s.stashStake c + if c = applicant then stake else 0
  review : ∃ r, s'.dues.pendingSlashReview.get id = some r ∧ r.applicant = applicant ∧
    r.stakedAmount = stake

/-- The applicant paid for its review as a committee. -/
def AsCommittee (x : MTReportResultInfo A) (applicant : A) : Prop :=
  ¬ x.IsSlashedReporter applicant ∧ x.IsSlashedCommittee applicant

/-- The applicant paid for its review as the stash of the machine. -/
def AsStash (x : MTReportResultInfo A) (applicant : A) : Prop :=
  x.IsSlashedStash applicant ∧ ¬ x.IsSlashedCommittee applicant

instance : Decidable (AsCommittee x applicant) := inferInstanceAs (Decidable (_ ∧ _))

instance : Decidable (AsStash x applicant) := inferInstanceAs (Decidable (_ ∧ _))

/-- The result is reversed, whoever applied: each account pays what it owes, from its reserve and
from the record of its stake, no stake is in use for the report, and the records of the applicant
are what they were before it applied. -/
structure Reversed (s s' : State A) (id : Nat) (x : MTReportResultInfo A) (applicant : A)
    (stake : Nat) : Prop where
  reserve : ∀ c, s'.balances.reserved c + owed x applicant stake c = s.balances.reserved c
  stash : ∀ c, s'.stashStake c + (if c = applicant ∧ AsStash x applicant then stake else 0) =
    s.stashStake c
  reporterUsed : ∀ c, (s'.dues.stakeOf c).usedStake +
    ((if c = x.reporter then x.reporterStake else 0) +
      if c = applicant ∧ x.IsSlashedReporter applicant then stake else 0) =
    (s.dues.stakeOf c).usedStake
  reporterStaked : ∀ c, (s'.dues.stakeOf c).stakedAmount +
    ((if c = x.reporter ∧ x.reportResult = .reportSucceed then x.reporterStake else 0) +
      if c = applicant ∧ x.IsSlashedReporter applicant then stake else 0) =
    (s.dues.stakeOf c).stakedAmount
  committeeStaked : ∀ c, (s'.stakeOf c).stakedAmount +
    ((if c ∈ payers x then x.committeeStake else 0) +
      if c = applicant ∧ AsCommittee x applicant then stake else 0) = (s.stakeOf c).stakedAmount
  committeeUsed : ∀ c, (s'.stakeOf c).usedStake +
    ((if c ∈ payers x ∨ c ∈ x.inconsistentCommittee then x.committeeStake else 0) +
      if c = applicant ∧ AsCommittee x applicant then stake else 0) = (s.stakeOf c).usedStake
  canceled : s'.dues.reportResult.get id = some (x.setSlashResult .canceled)
  handled : id ∉ s'.dues.unhandledReportResult.getD x.slashExecTime ∅
  closed : s'.dues.pendingSlashReview.get id = none

/-- No committee has anything to lose or to get back. -/
def NoneAtStake (x : MTReportResultInfo A) : Prop :=
  x.committeeStake = 0 ∨ ∀ c, c ∉ x.rewardCommittee ∧ c ∉ x.unrulyCommittee ∧
    c ∉ x.inconsistentCommittee

theorem NoneAtStake.payers (h : NoneAtStake x) :
    x.committeeStake = 0 ∨ (MaintainCommittee.payers x).toList = [] := by
  rcases h with h | h
  · exact .inl h
  · right
    rw [eq_nil_iff_forall_not_mem]
    intro c hc
    rcases mem_expandToOrder.1 hc with hr | hu
    · exact (h c).1 hr
    · exact (h c).2.1 hu

theorem NoneAtStake.amount (h : NoneAtStake x) (c : A) :
    (if c ∈ MaintainCommittee.payers x ∨ c ∈ x.inconsistentCommittee then x.committeeStake else 0) =
      0 := by
  rcases h with h | h
  · rw [h, ite_self]
  · obtain ⟨hr, hu, hi⟩ := h c
    rw [if_neg]
    rintro (hc | hc)
    · exact (mem_expandToOrder.1 hc).elim hr hu
    · exact hi hc

theorem NoneAtStake.payer (h : NoneAtStake x) (c : A) :
    (if c ∈ MaintainCommittee.payers x then x.committeeStake else 0) = 0 := by
  have hall := h.amount c
  by_cases hc : c ∈ MaintainCommittee.payers x
  · rw [if_pos (.inl hc)] at hall
    rw [if_pos hc, hall]
  · rw [if_neg hc]

theorem slashAndReward_idle {b : Balances A} {who rewarded : List A} {amount : Nat}
    (h : amount = 0 ∨ who = []) : GenericFunc.slashAndReward b who amount rewarded = b := by
  unfold GenericFunc.slashAndReward trySlashAndReward
  rcases h with rfl | rfl
  · rfl
  · split <;> rfl

theorem IsSlashedStash.outcome (h : x.IsSlashedStash applicant) :
    x.reportResult.slashesReporter = false ∧ ¬ x.IsSlashedReporter applicant := by
  have hslash : x.reportResult.slashesReporter = false := by
    rw [h.1]
    rfl
  refine ⟨hslash, ?_⟩
  rintro ⟨hr, -⟩
  rw [hslash] at hr
  cases hr

/-- **`apply_slash_review`** of a stash reserves the stake of the review, and enters it. -/
theorem applySlashReview_stash {p : ReporterStakeParamsInfo} {reason : Bytes}
    (hx : s.dues.reportResult.get id = some x) (hp : s.dues.reporterStakeParams = some p)
    (hstash : x.IsSlashedStash applicant) (hother : ¬ x.IsSlashedCommittee applicant)
    (h : (applySlashReview applicant id reason).run s = (.ok (), s')) :
    Lodged s s' id applicant p.stakePerReport := by
  obtain ⟨-, hreporter⟩ := IsSlashedStash.outcome hstash
  unfold applySlashReview payReviewStake at h
  simp only [run_ok, hx, hp, some.injEq, if_neg hreporter, if_neg hother, when, if_pos hstash,
    profile, run_zoom_ok] at h
  obtain ⟨-, -, -, -, _, _, ⟨q, hchange, rfl⟩, rfl⟩ := h
  unfold OnlineProfile.changeStake at hchange
  simp only [run_ok, if_true, checkedChange] at hchange
  obtain ⟨total, htotal, b, hb, rfl⟩ := hchange
  obtain ⟨-, rfl⟩ := checkedAdd_eq_some.1 htotal
  refine ⟨?_, ?_, ?_⟩
  · intro c
    exact (reserve_eq_some hb).1 c
  · intro c
    refine (getD_insert s.stakes.stashStake applicant c _ 0).trans ?_
    split
    · next hc => rw [hc]
    · rfl
  · exact ⟨_, get_insert_self .., rfl, rfl⟩

/-- The storage that `cancel_reporter_slash` leaves when the stash applied. -/
theorem run_cancelReporterSlash {review : MTPendingSlashReviewInfo A}
    (hx : s.dues.reportResult.get id = some x)
    (hreview : s.dues.pendingSlashReview.get id = some review)
    (hstash : x.IsSlashedStash review.applicant)
    (h : (cancelReporterSlash id).run s = (.ok (), s')) :
    ∃ q, (OnlineProfile.changeStake review.applicant review.stakedAmount false).run s.toProfile =
        (.ok (), q) ∧
      s' = (((((s.setProfile q).closeReport x.reporter x.reporterStake true).slashAndReward
        [x.reporter] x.reporterStake x.inconsistentCommittee.toList).slashAndReward
          (payers x).toList x.committeeStake x.inconsistentCommittee.toList).mapDues fun y =>
            ((y.updateUnhandledReport id false x.slashExecTime).putResult id
              (x.setSlashResult .canceled)).rmReview id) := by
  obtain ⟨hslashed, hreporter⟩ := IsSlashedStash.outcome hstash
  unfold cancelReporterSlash returnReviewStake at h
  simp only [run_ok, hx, hreview, some.injEq, if_neg hreporter, if_pos hstash, profile, run_zoom_ok,
    hslashed, Bool.false_eq_true, if_false, Bool.not_false] at h
  obtain ⟨-, _, _, ⟨q, hq, rfl⟩, rfl⟩ := h
  exact ⟨q, hq, rfl⟩

theorem changeStake_refund {q q' : OnlineProfile.State A} {who : A} {n : Nat}
    (h : (OnlineProfile.changeStake who n false).run q = (.ok (), q')) :
    n ≤ q.stashStake who ∧ q'.balances = (q.balances.unreserve who n).1 ∧
      (∀ c, q'.stashStake c = q.stashStake c - if c = who then n else 0) ∧
      q'.committeeStake = q.committeeStake := by
  unfold OnlineProfile.changeStake at h
  simp only [run_ok, Bool.false_eq_true, if_false, checkedChange, some.injEq] at h
  obtain ⟨total, htotal, rfl⟩ := h
  obtain ⟨hle, rfl⟩ := checkedSub_eq_some.1 htotal
  refine ⟨hle, rfl, ?_, rfl⟩
  intro c
  refine (getD_insert q.stakes.stashStake who c _ 0).trans ?_
  split
  · next hc => rw [hc]
  · rfl

theorem reserved_reversed {q : OnlineProfile.State A} (hback : Backed s x applicant stake)
    (hsucceed : x.reportResult = .reportSucceed) (hnone : NoneAtStake x)
    (hq : q.balances = (s.balances.unreserve applicant stake).1) (c : A) :
    (GenericFunc.slashAndReward (GenericFunc.slashAndReward q.balances [x.reporter] x.reporterStake
      x.inconsistentCommittee.toList) (payers x).toList x.committeeStake
        x.inconsistentCommittee.toList).reserved c + owed x applicant stake c =
      s.balances.reserved c := by
  have howed : ∀ d, owed x applicant stake d =
      (if d = applicant then stake else 0) + if d = x.reporter then x.reporterStake else 0 := by
    intro d
    unfold owed
    rw [hnone.payer d, Nat.add_zero]
    simp only [hsucceed, and_true]
  have hcover : x.reporterStake ≤ (s.balances.unreserve applicant stake).1.reserved x.reporter := by
    have hres := hback.reserve x.reporter
    rw [howed, if_pos rfl] at hres
    rw [unreserve_reserved]
    omega
  have hissuance := (unreserve_issuance _ applicant stake hback.issuance).trans_le hback.issuance
  have hlive : ∀ y ∈ x.inconsistentCommittee.toList,
      y = x.reporter ∨ (s.balances.unreserve applicant stake).1.Live y :=
    fun y hy => .inr (unreserve_live (live_of_reserved (hback.inconsistent y hy)))
  have hres := hback.reserve c
  rw [howed] at hres
  rw [slashAndReward_idle hnone.payers, hq, slashAndReward_single hissuance hlive hcover,
    unreserve_reserved, howed]
  omega

section Converse

variable {review : MTPendingSlashReviewInfo A} {s₁ : State A}

/-- What any cancellation writes into the records of the committees and of the reporter, after the
applicant got its stake back. -/
theorem cancel_records (hx : s.dues.reportResult.get id = some x)
    (hreview : s.dues.pendingSlashReview.get id = some review)
    (h : (cancelReporterSlash id).run s = (.ok (), s')) :
    ∃ s₁, (returnReviewStake x review).run s = (.ok (), s₁) ∧ (∀ c, s'.stakeOf c = s₁.stakeOf c) ∧
      (s'.dues.stakeOf x.reporter).usedStake =
        (s₁.dues.stakeOf x.reporter).usedStake - x.reporterStake := by
  have hused : ∀ (t : State A) (b : Bool),
      ((t.closeReport x.reporter x.reporterStake b).dues.stakeOf x.reporter).usedStake =
        (t.dues.stakeOf x.reporter).usedStake - x.reporterStake := by
    intro t b
    have hput : (t.closeReport x.reporter x.reporterStake b).dues.stakeOf x.reporter =
        (t.dues.stakeOf x.reporter).changeStakeOnReportClose x.reporterStake b :=
      getD_insert_self ..
    rw [hput]
    cases b <;> rfl
  unfold cancelReporterSlash at h
  simp only [run_ok, hx, hreview, some.injEq] at h
  obtain ⟨-, _, s₁, hrun, h⟩ := h
  cases hb : x.reportResult.slashesReporter with
  | false =>
    simp only [hb, Bool.false_eq_true, if_false, run_ok] at h
    subst h
    exact ⟨s₁, hrun, fun _ => rfl, hused s₁ true⟩
  | true =>
    simp only [hb, if_true, run_ok] at h
    subst h
    exact ⟨s₁, hrun, fun _ => rfl, hused s₁ false⟩

theorem returnReviewStake_reporter (hrep : x.IsSlashedReporter review.applicant)
    (h : (returnReviewStake x review).run s = (.ok (), s₁)) (c : A) :
    (s₁.dues.stakeOf c).usedStake = (s.dues.stakeOf c).usedStake := by
  unfold returnReviewStake changeReporterStake at h
  simp only [if_pos hrep, run_ok, Bool.false_eq_true, if_false, some.injEq] at h
  obtain ⟨-, -, _, _, -, rfl⟩ := h
  refine (congrArg ReporterStakeInfo.usedStake (getD_insert ..)).trans ?_
  split
  · next hc =>
    rw [hc]
    rfl
  · rfl

theorem returnReviewStake_staked (hrep : ¬ x.IsSlashedReporter review.applicant)
    (h : (returnReviewStake x review).run s = (.ok (), s₁)) (c : A) :
    (s₁.stakeOf c).stakedAmount = (s.stakeOf c).stakedAmount ∧
      (x.IsSlashedStash review.applicant → s₁.stakeOf c = s.stakeOf c) := by
  unfold returnReviewStake at h
  rw [if_neg hrep] at h
  split at h
  · next hstash =>
    simp only [run_mapError_ok, profile, run_zoom_ok] at h
    obtain ⟨q, hq, rfl⟩ := h
    have hsame : (s.setProfile q).stakeOf c = s.stakeOf c := by
      show q.committeeStake.getD c _ = s.committeeStake.getD c _
      rw [(changeStake_refund hq).2.2.2]
    exact ⟨congrArg _ hsame, fun _ => hsame⟩
  · next hstash =>
    unfold changeCommitteeStakeOnReportClose changeUsedStake committee
      Committee.changeUsedStake at h
    simp only [run_mapError_ok, forEach_cons, when, Bool.false_eq_true, if_false, run_ok,
      run_zoom_ok, run_forEach_nil, checkedChange, checkedSub_eq_some] at h
    obtain ⟨_, _, ⟨_, ⟨used, -, rfl⟩, rfl⟩, h⟩ := h
    cases h
    refine ⟨?_, fun hs => absurd hs hstash⟩
    refine (congrArg Committee.CommitteeStakeInfo.stakedAmount
      (getD_insert s.committeeStake review.applicant c _ .zero)).trans ?_
    split
    · next hc =>
      rw [hc]
      rfl
    · rfl

end Converse

/-- `apply_slash_review` enters whoever applied, in one of three roles. -/
theorem applySlashReview_review {s₀ s₁ : State A} {p : ReporterStakeParamsInfo} {reason : Bytes}
    (hx : s₀.dues.reportResult.get id = some x) (hp : s₀.dues.reporterStakeParams = some p)
    (h : (applySlashReview applicant id reason).run s₀ = (.ok (), s₁)) :
    (∃ r, s₁.dues.pendingSlashReview.get id = some r ∧ r.applicant = applicant ∧
      r.stakedAmount = p.stakePerReport) ∧
    (x.IsSlashedReporter applicant ∨ x.IsSlashedCommittee applicant ∨
      x.IsSlashedStash applicant) := by
  unfold applySlashReview at h
  simp only [run_ok, hx, hp, some.injEq] at h
  obtain ⟨-, hrole, -, -, _, _, -, rfl⟩ := h
  exact ⟨⟨_, get_insert_self .., rfl, rfl⟩, hrole⟩

/-- The stash applied and no committee has a stake in it: the result is reversed. -/
theorem reversed_of_stash {review : MTPendingSlashReviewInfo A}
    (hx : s.dues.reportResult.get id = some x)
    (hreview : s.dues.pendingSlashReview.get id = some review) (hrole : AsStash x review.applicant)
    (hnone : NoneAtStake x) (hback : Backed s x review.applicant review.stakedAmount)
    (h : (cancelReporterSlash id).run s = (.ok (), s')) :
    Reversed s s' id x review.applicant review.stakedAmount := by
  have hstash := hrole.1
  have hreporter := (IsSlashedStash.outcome hstash).2
  have hcommittee : ¬ AsCommittee x review.applicant := fun hc => hrole.2 hc.2
  obtain ⟨q, hq, rfl⟩ := run_cancelReporterSlash hx hreview hstash h
  obtain ⟨hle, hbal, hown, hsame⟩ := changeStake_refund hq
  have hstakeOf : ∀ c, q.stakeOf c = s.stakeOf c := by
    intro c
    unfold Committee.State.stakeOf
    rw [hsame]
  obtain ⟨hused, hstaked⟩ := hback.reporter
  constructor
  · exact reserved_reversed hback hstash.1 hnone hbal
  · intro c
    show q.stashStake c + _ = _
    simp only [hown, hrole, and_true]
    split
    · next hc =>
      rw [hc]
      exact Nat.sub_add_cancel hle
    · rfl
  · intro c
    show (((s.dues.putStake x.reporter _).stakeOf c)).usedStake + _ = _
    unfold Dues.putStake Dues.stakeOf
    simp only [getD_insert, hreporter, and_false, if_false, Nat.add_zero]
    split
    · next hc =>
      rw [hc]
      exact Nat.sub_add_cancel hused
    · rfl
  · intro c
    show (((s.dues.putStake x.reporter _).stakeOf c)).stakedAmount + _ = _
    unfold Dues.putStake Dues.stakeOf
    simp only [getD_insert, hstash.1, and_true, hreporter, and_false, if_false, Nat.add_zero]
    split
    · next hc =>
      rw [hc]
      exact Nat.sub_add_cancel hstaked
    · rfl
  · intro c
    show (q.stakeOf c).stakedAmount + _ = _
    rw [hstakeOf, hnone.payer c, if_neg fun hc => hcommittee hc.2]
    rfl
  · intro c
    show (q.stakeOf c).usedStake + _ = _
    rw [hstakeOf, hnone.amount c, if_neg fun hc => hcommittee hc.2]
    rfl
  · exact get_insert_self ..
  · intro hin
    have hlist : id ∈ (s.dues.unhandledReportResult.getD x.slashExecTime ∅).rmItem id := by
      have hput := getD_insert s.dues.unhandledReportResult x.slashExecTime
        x.slashExecTime ((s.dues.unhandledReportResult.getD x.slashExecTime ∅).rmItem id) ∅
      rw [if_pos rfl] at hput
      rw [← hput]
      exact hin
    exact (mem_rmItem.1 hlist).1 rfl
  · exact get_remove_self ..

/-- **A cancelled result is reversed with exact balances exactly when** the stash of the machine
applied for the review and no stake of a committee is at issue: the review cost the stash a stake,
and the cancellation gives back that stake and takes from the reporter what it had won with. -/
theorem cancel_reverses_report_iff {s₀ s₁ : State A} {p : ReporterStakeParamsInfo} {reason : Bytes}
    (hx₀ : s₀.dues.reportResult.get id = some x) (hp : s₀.dues.reporterStakeParams = some p)
    (happly : (applySlashReview applicant id reason).run s₀ = (.ok (), s₁))
    (hx : s.dues.reportResult.get id = some x)
    (hreview : s.dues.pendingSlashReview.get id = s₁.dues.pendingSlashReview.get id)
    (hpos : 0 < p.stakePerReport) (hback : Backed s x applicant p.stakePerReport)
    (h : (cancelReporterSlash id).run s = (.ok (), s')) :
    (Reversed s s' id x applicant p.stakePerReport ↔ AsStash x applicant ∧ NoneAtStake x) ∧
      (AsStash x applicant → Lodged s₀ s₁ id applicant p.stakePerReport) := by
  obtain ⟨⟨review, hget, rfl, hstake⟩, hrole⟩ := applySlashReview_review hx₀ hp happly
  rw [hget] at hreview
  refine ⟨⟨fun hrev => ?_, fun hcond => ?_⟩,
    fun hs => applySlashReview_stash hx₀ hp hs.1 hs.2 happly⟩
  · obtain ⟨s₂, hrun, hcommittee, hused⟩ := cancel_records hx hreview h
    -- a reporter keeps the stake of the review in use
    have hrep : ¬ x.IsSlashedReporter review.applicant := by
      intro hrep
      have hr := hrev.reporterUsed x.reporter
      rw [if_pos rfl, if_pos ⟨hrep.2, hrep⟩, hused, returnReviewStake_reporter hrep hrun] at hr
      omega
    obtain ⟨hstaked, -⟩ := returnReviewStake_staked hrep hrun review.applicant
    -- a committee keeps it in its record
    have hcom : ¬ x.IsSlashedCommittee review.applicant := by
      intro hcom
      have hc := hrev.committeeStaked review.applicant
      have hrole : review.applicant = review.applicant ∧ AsCommittee x review.applicant :=
        ⟨rfl, hrep, hcom⟩
      rw [if_pos hrole, hcommittee, hstaked] at hc
      omega
    have hstash := (hrole.resolve_left hrep).resolve_left hcom
    refine ⟨⟨hstash, hcom⟩, or_iff_not_imp_left.2 fun hne c => ?_⟩
    have hc := hrev.committeeUsed c
    rw [hcommittee, (returnReviewStake_staked hrep hrun c).2 hstash] at hc
    have hout : ¬ (c ∈ payers x ∨ c ∈ x.inconsistentCommittee) := by
      intro hin
      rw [if_pos hin] at hc
      omega
    exact ⟨fun hr => hout (.inl (mem_expandToOrder.2 (.inl hr))),
      fun hu => hout (.inl (mem_expandToOrder.2 (.inr hu))), fun hi => hout (.inr hi)⟩
  · rw [← hstake] at hback ⊢
    exact reversed_of_stash hx hreview hcond.1 hcond.2 hback h

end

/-! ## A report that succeeded -/

namespace ReversalDemo

/-- Reporter 3 won against the machine of the stash 5: 11 voted with the others, 12 did not. -/
def result (committeeStake : Nat) : MTReportResultInfo Nat where
  reportId := 0
  reporter := 3
  reporterStake := 30
  inconsistentCommittee := SortedVec.addItem ∅ 12
  unrulyCommittee := ∅
  rewardCommittee := SortedVec.addItem ∅ 11
  committeeStake := committeeStake
  machineStash := some 5
  machineId := []
  slashTime := 1
  slashExecTime := 100
  reportResult := .reportSucceed
  slashResult := .pending

def account : AccountData := ⟨1000, 500, 0⟩

def stake : Committee.CommitteeStakeInfo := ⟨500, 10, 0, 0⟩

def start (committeeStake : Nat) : State Nat :=
  let profile : OnlineProfile.State Nat := .fresh
    { now := 2
      balances := ⟨((((∅ : StorageMap Nat AccountData).insert 3 account).insert 5 account).insert 11
        account).insert 12 account⟩
      fixedTxFee := none
      dbcPrice := some
      committee := ⟨SortedVec.expandToOrder ∅ [11, 12], ∅, ∅, ∅⟩
      committeeStakeParams := some ⟨100, 10, .zero⟩
      committeeStake := ((∅ : StorageMap Nat Committee.CommitteeStakeInfo).insert 11 stake).insert
        12 stake }
  (State.fresh ⟨profile.setStashStake 5 500, ⟨∅, 0, ∅, ∅, ∅, ∅⟩, ∅, none, 60, ∅⟩).mapDues fun x =>
    (((x.setParams ⟨500, 20, .zero⟩).putStake 3 ⟨500, 30⟩).putResult 0
      (result committeeStake)).updateUnhandledReport 0 true 100

def applied (committeeStake who : Nat) : State Nat :=
  ((applySlashReview who 0 []).dispatch (start committeeStake)).2

theorem result_lists (n c : Nat) : (c ∈ (result n).inconsistentCommittee ↔ c = 12) ∧
    (c ∈ payers (result n) ↔ c = 11) := by
  simp [result, payers]

theorem owed_le (n who c : Nat) (hwho : who = 5 ∨ who = 12) (hn : n ≤ 10) :
    owed (result n) who 20 c ≤ (start n).balances.reserved c := by
  have hlist : ∀ c ∈ [3, 5, 11, 12], (start n).balances.reserved c = 500 := by
    intro c hc
    simp only [mem_cons, not_mem_nil, or_false] at hc
    rcases hc with rfl | rfl | rfl | rfl <;> rfl
  by_cases hc : c ∈ [3, 5, 11, 12]
  · rw [hlist c hc]
    have hstake : (result n).reporterStake = 30 := rfl
    have hcommittee : (result n).committeeStake = n := rfl
    unfold owed
    rw [hstake, hcommittee]
    split <;> split <;> split <;> omega
  · simp only [mem_cons, not_mem_nil, or_false, not_or] at hc
    have hreporter : (result n).reporter = 3 := rfl
    have hpayer : c ∉ payers (result n) := by
      rw [(result_lists n c).2]
      exact hc.2.2.1
    unfold owed
    rw [if_neg, if_neg, if_neg hpayer]
    · exact Nat.zero_le _
    · rw [hreporter]
      exact fun h => hc.1 h.1
    · rcases hwho with rfl | rfl
      · exact hc.2.1
      · exact hc.2.2.2

end ReversalDemo

open ReversalDemo

theorem cancel_reverses_report_iff_demo :
    Lodged (start 0) (applied 0 5) 0 5 20 ∧
      Reversed (applied 0 5) ((cancelReporterSlash 0).dispatch (applied 0 5)).2 0
        (result 0) 5 20 := by
  obtain ⟨_, happly⟩ := run_of_isOk
    (show ((applySlashReview 5 0 []).run (start 0)).1.isOk = true by decide +kernel)
  obtain ⟨_, hcancel⟩ := run_of_isOk
    (show ((cancelReporterSlash 0).run (applied 0 5)).1.isOk = true by decide +kernel)
  have hresult : (start 0).dues.reportResult.get 0 = some (result 0) := rfl
  have hrole : AsStash (result 0) 5 := ⟨⟨rfl, rfl⟩, by decide +kernel⟩
  have hlodged := applySlashReview_stash hresult rfl hrole.1 hrole.2 happly
  have hback : Backed (applied 0 5) (result 0) 5 20 := by
    refine ⟨by decide +kernel, fun c => ?_, by decide +kernel, fun c hc => ?_⟩
    · refine (owed_le 0 5 c (.inl rfl) (by decide)).trans ?_
      exact (Nat.le_add_right _ _).trans (hlodged.reserve c).ge
    · rw [(result_lists 0 c).1.1 hc]
      decide +kernel
  have h := cancel_reverses_report_iff hresult rfl happly rfl rfl (by decide) hback hcancel
  exact ⟨hlodged, h.1.2 ⟨hrole, .inl rfl⟩⟩

/-- The committees of the report had ten at stake each. When the stash 5 applies and the result is
cancelled, the reserve of 11 falls by ten and its records do not; the stake of 12 stays in use.
When 12 applies, its review stake is neither unreserved nor taken from its records. -/
theorem cancelled_past_the_records :
    ((cancelReporterSlash 0).run (applied 10 5)).1.isOk = true ∧
      ((cancelReporterSlash 0).run (applied 10 5)).2.balances.reserved 11 + 10 =
        (start 10).balances.reserved 11 ∧
      ((cancelReporterSlash 0).run (applied 10 5)).2.stakeOf 11 = (start 10).stakeOf 11 ∧
      ((cancelReporterSlash 0).run (applied 10 5)).2.stakeOf 12 = (start 10).stakeOf 12 ∧
      (∀ c, owed (result 10) 5 20 c ≤ (start 10).balances.reserved c) ∧
      ((cancelReporterSlash 0).run (applied 10 12)).1.isOk = true ∧
      ((cancelReporterSlash 0).run (applied 10 12)).2.balances.reserved 12 =
        (start 10).balances.reserved 12 + 20 ∧
      (((cancelReporterSlash 0).run (applied 10 12)).2.stakeOf 12).stakedAmount =
        ((start 10).stakeOf 12).stakedAmount + 20 := by
  refine ⟨?_, ?_, ?_, ?_, fun c => owed_le 10 5 c (.inl rfl) (le_refl _), ?_, ?_, ?_⟩ <;>
    decide +kernel

end DeepBrainChain.MaintainCommittee
