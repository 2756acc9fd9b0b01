import DeepBrainChain.OnlineCommittee.Votes

/-!
# Who may apply for a review

`apply_slash_review` looks up the stash of its caller before it looks at the slash. A committee that
controls no stash is turned away there, although it is about to be slashed; whoever passes the
lookup can apply exactly if the slash concerns them.
-/

namespace DeepBrainChain.OnlineCommittee

open Lib GenericFunc Support Call StorageMap Balances SortedVec List Option

section

variable {A : Type} [LinearOrder A]

/-- The account can reserve the amount, and the record that is written can grow by it: that of a
stash or that of a committee. -/
structure CanPay (s : State A) (isStash : Prop) (who : A) (amount : Nat) : Prop where
  reserve : (s.balances.reserve who amount).isSome = true
  stash : isStash → s.stashStake who + amount ≤ u128Max
  committee : ¬ isStash → (s.stakeOf who).stakedAmount + amount ≤ u128Max ∧
    (s.stakeOf who).usedStake + amount ≤ u128Max

/-- Whom an appeal of `applicant`, the controller of `stash`, is charged to. -/
def OCPendingSlashInfo.payer (slash : OCPendingSlashInfo A) (applicant stash : A) : A :=
  if slash.ApplicantIsStash stash then stash else applicant

section

variable {s s' : State A} {who applicant stash : A} {amount id : Nat}
  {slash : OCPendingSlashInfo A} {reason : Bytes} {isStash : Prop}

theorem changeStake_succeeds (h : CanPay s isStash who amount) (his : isStash) :
    ∃ s', (profile (OnlineProfile.changeStake who amount true)).run s = (.ok (), s') := by
  obtain ⟨b, hb⟩ := isSome_iff_exists.1 h.reserve
  have hadd : checkedAdd u128Max (s.stashStake who) amount = some (s.stashStake who + amount) :=
    checkedAdd_eq_some.2 ⟨h.stash his, rfl⟩
  unfold profile OnlineProfile.changeStake
  simp only [run_zoom, run_bind, run_get, checkedChange, if_true, hadd, run_okOr_some, hb, run_set]
  exact ⟨_, rfl⟩

theorem changeCommitteeTotalStake_succeeds (h : CanPay s isStash who amount) (his : ¬ isStash) :
    ∃ s', (changeCommitteeTotalStake who amount true true).run s = (.ok (), s') ∧
      (s'.stakeOf who).usedStake = (s.stakeOf who).usedStake := by
  obtain ⟨b, hb⟩ := isSome_iff_exists.1 h.reserve
  have hadd : checkedAdd u128Max (s.stakeOf who).stakedAmount amount =
      some ((s.stakeOf who).stakedAmount + amount) :=
    checkedAdd_eq_some.2 ⟨(h.committee his).1, rfl⟩
  unfold changeCommitteeTotalStake committee Committee.doChangeReserved
  simp only [run_zoom, run_bind, run_get, checkedChange, if_true, hadd, run_okOr_some, hb, run_set]
  refine ⟨_, rfl, ?_⟩
  have hnew := StorageMap.getD_insert_self s.committeeStake who
    ((s.stakeOf who).setStaked ((s.stakeOf who).stakedAmount + amount)) .zero
  have hused := congrArg Committee.CommitteeStakeInfo.usedStake hnew
  exact hused

theorem payReviewStake_succeeds [Decidable isStash] (h : CanPay s isStash who amount) :
    ∃ s', (payReviewStake isStash who amount).run s = (.ok (), s') := by
  unfold payReviewStake
  split
  · next his =>
    obtain ⟨s', hs'⟩ := changeStake_succeeds h his
    exact ⟨s', run_mapError_ok.2 hs'⟩
  · next his =>
    obtain ⟨s1, h1, hused⟩ := changeCommitteeTotalStake_succeeds h his
    have hadd : checkedAdd u128Max (s1.stakeOf who).usedStake amount =
        some ((s1.stakeOf who).usedStake + amount) := by
      rw [hused]
      exact checkedAdd_eq_some.2 ⟨(h.committee his).2, rfl⟩
    rw [run_bind_of_ok (run_mapError_ok.2 h1)]
    unfold changeCommitteeUsedStake committee Committee.changeUsedStake
    simp only [run_mapError, run_zoom, run_bind, run_get, checkedChange, if_true, hadd,
      run_okOr_some, run_set]
    exact ⟨_, rfl⟩

/-- An application goes through once its caller has been looked up and the slash concerns it. -/
theorem applySlashReview_succeeds (hslash : s.oc.pendingSlash.get id = some slash)
    (hamount : s.stakePerOrder = some amount) (hreview : s.oc.pendingSlashReview.get id = none)
    (htime : s.now < slash.slashExecTime)
    (hstash : s.owners.controllerStash.get applicant = some stash)
    (hrole : slash.ApplicantIsStash stash ∨ applicant ∈ slash.inconsistentCommittee)
    (hpay : CanPay s (slash.ApplicantIsStash stash) (slash.payer applicant stash) amount) :
    Succeeds (applySlashReview applicant id reason) s := by
  have hnone : (s.oc.pendingSlashReview.get id).isNone = true := by rw [hreview]; rfl
  obtain ⟨s', hs'⟩ : ∃ s', (payReviewStake (slash.ApplicantIsStash stash)
      (slash.payer applicant stash) amount).run s = (.ok (), s') := payReviewStake_succeeds hpay
  unfold OCPendingSlashInfo.payer at hpay hs'
  unfold Succeeds applySlashReview
  simp only [run_bind, run_get, hslash, hamount, hstash, run_okOr_some, run_ensure,
    if_pos hnone, if_pos htime, if_pos hrole, if_pos hpay.reserve, hs', run_modify]
  exact ⟨(), trivial⟩

/-- A caller that applies successfully controls a stash, and the slash concerns it. -/
theorem role_of_applySlashReview (hslash : s.oc.pendingSlash.get id = some slash)
    (h : Succeeds (applySlashReview applicant id reason) s) :
    ∃ stash, s.owners.controllerStash.get applicant = some stash ∧
      (slash.ApplicantIsStash stash ∨ applicant ∈ slash.inconsistentCommittee) := by
  obtain ⟨a, ha⟩ := h
  obtain ⟨s', hrun⟩ : ∃ s', (applySlashReview applicant id reason).run s = (.ok a, s') :=
    ⟨_, Prod.ext ha rfl⟩
  unfold applySlashReview at hrun
  simp only [run_bind_ok, run_get, run_okOr_ok, run_ensure_ok, hslash, some.injEq,
    Prod.mk.injEq, Except.ok.injEq, exists_eq_left', and_assoc, exists_and_left] at hrun
  obtain ⟨amount, -, -, -, -, -, stash, hstash, hrole, -⟩ := hrun
  exact ⟨stash, hstash, hrole⟩

end

/-- The controllers among the committees about to be slashed, and the controller of a refused stash,
can apply for a review; nobody else can, and of the committees none that controls no stash. -/
theorem applySlashReview_open {s : State A} {id amount : Nat} {slash : OCPendingSlashInfo A}
    (hslash : s.oc.pendingSlash.get id = some slash) (hamount : s.stakePerOrder = some amount)
    (hreview : s.oc.pendingSlashReview.get id = none) (htime : s.now < slash.slashExecTime)
    (reason : Bytes) :
    (∀ c ∈ slash.inconsistentCommittee, ∀ stash, s.owners.controllerStash.get c = some stash →
      CanPay s (slash.ApplicantIsStash stash) (slash.payer c stash) amount →
        Succeeds (applySlashReview c id reason) s) ∧
    (∀ controller stash, slash.bookResult = .onlineRefused → slash.machineStash = some stash →
      s.owners.controllerStash.get controller = some stash → CanPay s True stash amount →
        Succeeds (applySlashReview controller id reason) s) ∧
    (∀ a, a ∉ slash.inconsistentCommittee →
      (∀ stash, s.owners.controllerStash.get a = some stash →
        ¬ (slash.bookResult = .onlineRefused ∧ slash.machineStash = some stash)) →
      ¬ Succeeds (applySlashReview a id reason) s) ∧
    ∀ c, s.owners.controllerStash.get c = none →
      ¬ Succeeds (applySlashReview c id reason) s := by
  refine ⟨?_, ?_, ?_, ?_⟩
  · intro c hc stash hstash hpay
    exact applySlashReview_succeeds hslash hamount hreview htime hstash (.inr hc) hpay
  · intro controller stash hbook hmachine hstash hpay
    have his : slash.ApplicantIsStash stash := ⟨hbook, hmachine⟩
    refine applySlashReview_succeeds hslash hamount hreview htime hstash (.inl his) ?_
    rw [OCPendingSlashInfo.payer, if_pos his]
    exact ⟨hpay.reserve, fun _ => hpay.stash trivial, fun hnot => absurd his hnot⟩
  · intro a hc hs h
    obtain ⟨stash, hstash, his | hmem⟩ := role_of_applySlashReview hslash h
    · exact hs stash hstash his
    · exact hc hmem
  · intro c hnone h
    obtain ⟨stash, hstash, -⟩ := role_of_applySlashReview hslash h
    cases hnone.symm.trans hstash

end

namespace AppealDemo

open PhaseDemo

def start : Watch Nat where
  state := .fresh (.fresh { PhaseDemo.start.state.toCommittee with
    balances := ⟨PhaseDemo.start.state.balances.accounts.insert 13 ⟨1000, 1000, 0⟩⟩ })
  ended := false
  revealed := []

/-- Block 4: the slash of the committee 13 waits. -/
def slashed (first : List (Op Nat)) : Watch Nat :=
  (first ++ bring ++ VoteDemo.votes ++ [Op.endBlock fun _ _ => 0, Op.nextBlock]).foldl
    (Watch.apply crypto) start

/-- The committee 13 controls the stash 5 here. -/
def controlled : State Nat := (slashed [.profile (.setController 5 13)]).state

theorem controlled_pending : (controlled.oc.pendingSlash.get 0).isSome = true := by decide +kernel

theorem slashed_pending : ((slashed []).state.oc.pendingSlash.get 0).isSome = true := by
  decide +kernel

theorem controlled_canPay {isStash : Prop} : CanPay controlled isStash 13 10 :=
  ⟨by decide +kernel, fun _ => by decide +kernel, fun _ => by decide +kernel⟩

end AppealDemo

open AppealDemo PhaseDemo

theorem applySlashReview_open_demo :
    Succeeds (applySlashReview 13 0 []) controlled ∧
      ¬ Succeeds (applySlashReview 2 0 []) controlled := by
  have hstash : ∀ stash, controlled.owners.controllerStash.get 2 = some stash →
      ¬ (((controlled.oc.pendingSlash.get 0).get controlled_pending).bookResult = .onlineRefused ∧
        ((controlled.oc.pendingSlash.get 0).get controlled_pending).machineStash = some stash) := by
    intro stash _ h
    have hbook : ((controlled.oc.pendingSlash.get 0).get controlled_pending).bookResult ≠
        .onlineRefused := by decide +kernel
    exact hbook h.1
  have hamount : controlled.stakePerOrder = some 10 := by decide +kernel
  have h := applySlashReview_open (some_get controlled_pending).symm hamount
    (by decide +kernel) (by decide +kernel) []
  have hpay : CanPay controlled
      (((controlled.oc.pendingSlash.get 0).get controlled_pending).ApplicantIsStash 5)
      (((controlled.oc.pendingSlash.get 0).get controlled_pending).payer 13 5) 10 := by
    have hpayer : ((controlled.oc.pendingSlash.get 0).get controlled_pending).payer 13 5 = 13 := by
      decide +kernel
    rw [hpayer]
    exact controlled_canPay
  exact ⟨h.1 13 (by decide +kernel) 5 (by decide +kernel) hpay,
    h.2.2.1 2 (by decide +kernel) hstash⟩

/-- The committee 13 holds what a review costs and will be slashed, but controls no stash. -/
theorem committee_without_stash_barred :
    ∃ t : Watch Nat, (phaseSystem crypto).Reach (fun _ _ => True) t ∧
      (∃ slash, t.state.oc.pendingSlash.get 0 = some slash ∧
        13 ∈ slash.inconsistentCommittee ∧ t.state.now < slash.slashExecTime) ∧
      t.state.oc.pendingSlashReview.get 0 = none ∧ t.state.stakePerOrder = some 10 ∧
      CanPay t.state False 13 10 ∧
      ¬ Succeeds (applySlashReview 13 0 []) t.state := by
  have hreach : (phaseSystem crypto).Reach (fun _ _ => True) (slashed []) :=
    reach_inOrder Watch.toBlock (.init ⟨⟨⟨_, rfl⟩, rfl⟩, rfl⟩) (fun _ _ _ => trivial)
      (by decide +kernel) fun _ _ h => ⟨⟨h, rfl⟩, rfl⟩
  have hpay : CanPay (slashed []).state False 13 10 :=
    ⟨by decide +kernel, False.elim, fun _ => by decide +kernel⟩
  refine ⟨slashed [], hreach, ⟨_, (some_get slashed_pending).symm, ?_, ?_⟩, ?_, ?_, hpay, ?_⟩ <;>
    decide +kernel

end DeepBrainChain.OnlineCommittee
