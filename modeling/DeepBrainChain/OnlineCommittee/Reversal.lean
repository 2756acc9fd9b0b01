import DeepBrainChain.OnlineCommittee.Votes

/-!
# Cancelled slashes

A cancelled slash is turned round: the committees that were rewarded or unruly pay, the others and
the refused stash are released, and the applicant gets its stake back. What an account holds is read
as one record; every call of `do_cancel_slash` changes the record of one account, and a loop over a
list changes the record of each member once. For a committee the balances do not come out exactly:
its stake is unreserved twice.
-/

namespace DeepBrainChain.OnlineCommittee

open Lib GenericFunc Support Call StorageMap Balances SortedVec List

section

variable {A : Type} [LinearOrder A]

/-! ## What an account holds -/

/-- The reserve of an account, its stake as a committee and as a stash. -/
@[ext]
structure Holding where
  reserved : Nat
  staked : Nat
  used : Nat
  stash : Nat
deriving DecidableEq

namespace Holding

def release (n : Nat) (h : Holding) : Holding :=
  if n ≤ h.used then { h with used := h.used - n } else h

def forfeit (n : Nat) (h : Holding) : Holding :=
  if n ≤ h.staked then { h with staked := h.staked - n } else h

def refund (n : Nat) (h : Holding) : Holding :=
  if n ≤ h.stash then { h with stash := h.stash - n, reserved := h.reserved - n } else h

def pay (n : Nat) (h : Holding) : Holding := { h with reserved := h.reserved - n }

def withdraw (n : Nat) (h : Holding) : Holding :=
  if n ≤ h.staked then { h with staked := h.staked - n, reserved := h.reserved - n } else h

variable {n m : Nat} {h : Holding}

theorem release_of_le (hu : n ≤ h.used) : h.release n = { h with used := h.used - n } := if_pos hu

theorem release_reserved : (h.release n).reserved = h.reserved := by
  unfold release
  split <;> rfl

theorem release_stash : (h.release n).stash = h.stash := by
  unfold release
  split <;> rfl

theorem withdraw_reserved (hs : n ≤ h.staked) :
    ((h.pay m).withdraw n).reserved = h.reserved - m - n := by
  unfold withdraw
  exact congrArg reserved (if_pos hs)

theorem charge_of_le (hs : n ≤ h.staked) (hu : n ≤ h.used) :
    ((h.pay n).forfeit n).release n = ⟨h.reserved - n, h.staked - n, h.used - n, h.stash⟩ := by
  unfold pay forfeit
  rw [if_pos hs]
  exact release_of_le hu

theorem refund_refund (hm : n + m ≤ h.stash) : (h.refund n).refund m =
    { h with stash := h.stash - (n + m), reserved := h.reserved - (n + m) } := by
  have hn : n ≤ h.stash := by omega
  have hrest : m ≤ h.stash - n := by omega
  unfold refund
  rw [if_pos hn, if_pos hrest, Nat.sub_sub, Nat.sub_sub]

end Holding

def State.holding (s : State A) (x : A) : Holding :=
  ⟨s.balances.reserved x, (s.stakeOf x).stakedAmount, (s.stakeOf x).usedStake, s.stashStake x⟩

/-- The holding of one account changed; the slashes did not. -/
structure Touched (who : A) (f : Holding → Holding) (s s' : State A) : Prop where
  oc : s'.oc = s.oc
  holding : ∀ x, s'.holding x = if x = who then f (s.holding x) else s.holding x

variable {who : A} {f g : Holding → Holding} {s s' s₁ : State A} {l : List A}
  {x : OCPendingSlashInfo A} {stake : Nat}

theorem Touched.of_fixed (h : f (s.holding who) = s.holding who) : Touched who f s s := by
  refine ⟨rfl, ?_⟩
  intro x
  split
  · next hx => rw [hx, h]
  · rfl

theorem Touched.trans {s1 s2 : State A} (h : Touched who f s s1)
    (h' : Touched who g s1 s2) : Touched who (g ∘ f) s s2 := by
  refine ⟨h'.oc.trans h.oc, ?_⟩
  intro x
  rw [h'.holding, h.holding]
  split <;> rfl

/-- The call never fails and changes the holding of one account. -/
def Touches (c : Call (State A) Error Unit) (who : A) (f : Holding → Holding) : Prop :=
  ∀ s, ∃ s', c.run s = (.ok (), s') ∧ Touched who f s s'

theorem Touches.bind {c d : Call (State A) Error Unit} (hc : Touches c who f)
    (hd : Touches d who g) : Touches (c >>= fun _ => d) who (g ∘ f) := by
  intro s
  obtain ⟨s1, hrun, h1⟩ := hc s
  obtain ⟨s2, hrun', h2⟩ := hd s1
  exact ⟨s2, by rw [run_bind_of_ok hrun, hrun'], h1.trans h2⟩

theorem Touches.ignore {c : Call (State A) Unit Unit}
    (h : ∀ s, c.Post s (fun _ => Touched who f s) (fun _ => Touched who f s)) :
    Touches (ignore c) who f := fun s => ⟨(c.run s).2, rfl, (h s).storage⟩

theorem run_forEach_touches {c : A → Call (State A) Error Unit} (h : ∀ who, Touches (c who) who f)
    (hl : l.Nodup) (s : State A) :
    ∃ s', (forEach l c).run s = (.ok (), s') ∧ s'.oc = s.oc ∧
      ∀ x, s'.holding x = if x ∈ l then f (s.holding x) else s.holding x := by
  induction l generalizing s with
  | nil => exact ⟨s, rfl, rfl, fun x => by simp⟩
  | cons a l ih =>
    obtain ⟨hnotin, hrest⟩ := nodup_cons.1 hl
    obtain ⟨s1, hfirst, h1⟩ := h a s
    obtain ⟨s', hrun, hoc, hhold⟩ := ih hrest s1
    refine ⟨s', ?_, ?_, ?_⟩
    · rw [forEach_cons, run_bind_of_ok hfirst, hrun]
    · rw [hoc, h1.oc]
    · intro x
      rw [hhold, h1.holding]
      by_cases hx : x = a
      · subst hx
        simp [hnotin]
      · simp [hx]

/-! ## The calls of `do_cancel_slash` -/

theorem touched_setStake {c : Committee.State A}
    {i : Committee.CommitteeStakeInfo}
    (hb : ∀ x ≠ who, c.balances.reserved x = s.balances.reserved x)
    (hc : c.committeeStake = s.committeeStake)
    (hi : f (s.holding who) =
      ⟨c.balances.reserved who, i.stakedAmount, i.usedStake, s.stashStake who⟩) :
    Touched who f s (State.setCommitteeState (c.setStake who i) s) := by
  refine ⟨rfl, ?_⟩
  intro x
  have hstake : (State.setCommitteeState (c.setStake who i) s).stakeOf x =
      if x = who then i else s.stakeOf x := by
    refine (getD_insert c.committeeStake who x i .zero).trans ?_
    rw [hc]
    rfl
  unfold State.holding
  rw [hstake]
  split
  · next hx =>
    rw [hx]
    exact hi.symm
  · next hx => exact Holding.ext (hb x hx) rfl rfl rfl

theorem touches_usedStake (who : A) (n : Nat) :
    Touches (ignore (changeCommitteeUsedStake who n false)) who (Holding.release n) := by
  apply Touches.ignore
  intro s
  unfold changeCommitteeUsedStake committee Committee.changeUsedStake
  simp only [post_step, post_zoom, checkedChange, Bool.false_eq_true, if_false,
    checkedSub_eq_some, checkedSub_eq_none]
  constructor
  · rintro used ⟨hle, rfl⟩
    exact touched_setStake (fun _ _ => rfl) rfl (if_pos hle)
  · intro hlt
    exact Touched.of_fixed (if_neg (Nat.not_le.2 hlt))

theorem touches_totalStake (who : A) (n : Nat) :
    Touches (ignore (changeCommitteeTotalStake who n false false)) who (Holding.forfeit n) := by
  apply Touches.ignore
  intro s
  unfold changeCommitteeTotalStake committee Committee.doChangeReserved
  simp only [post_step, post_zoom, checkedChange, Bool.false_eq_true, if_false,
    checkedSub_eq_some, checkedSub_eq_none, Option.some.injEq, reduceCtorEq]
  constructor
  · rintro staked ⟨hle, rfl⟩
    refine ⟨?_, fun h => h.elim⟩
    rintro b rfl
    exact touched_setStake (fun _ _ => rfl) rfl (if_pos hle)
  · intro hlt
    exact Touched.of_fixed (if_neg (Nat.not_le.2 hlt))

theorem touches_withdraw (who : A) (n : Nat) :
    Touches (ignore (changeCommitteeTotalStake who n false true)) who (Holding.withdraw n) := by
  apply Touches.ignore
  intro s
  unfold changeCommitteeTotalStake committee Committee.doChangeReserved
  simp only [post_step, post_zoom, checkedChange, Bool.false_eq_true, if_false, if_true,
    checkedSub_eq_some, checkedSub_eq_none, Option.some.injEq, reduceCtorEq]
  constructor
  · rintro staked ⟨hle, rfl⟩
    refine ⟨?_, fun h => h.elim⟩
    rintro b rfl
    refine touched_setStake (fun x hx => ?_) rfl ((if_pos hle).trans (Holding.ext ?_ rfl rfl rfl))
    · refine (s.balances.unreserve_reserved who n x).trans ?_
      rw [if_neg hx]
      rfl
    · refine ((s.balances.unreserve_reserved who n who).trans ?_).symm
      rw [if_pos rfl]
      rfl
  · intro hlt
    exact Touched.of_fixed (if_neg (Nat.not_le.2 hlt))

theorem touches_unreserve (who : A) (n : Nat) :
    Touches (modify fun s => s.setBalances (s.balances.unreserve who n).1) who
      (Holding.pay n) := by
  refine fun s => ⟨_, rfl, rfl, fun x => ?_⟩
  have hreserved := s.balances.unreserve_reserved who n x
  split
  · next hx =>
    rw [if_pos hx] at hreserved
    exact Holding.ext hreserved rfl rfl rfl
  · next hx =>
    rw [if_neg hx] at hreserved
    exact Holding.ext hreserved rfl rfl rfl

theorem touches_changeStake (who : A) (n : Nat) :
    Touches (ignore (profile (OnlineProfile.changeStake who n false))) who
      (Holding.refund n) := by
  apply Touches.ignore
  intro s
  unfold profile OnlineProfile.changeStake
  simp only [post_step, post_zoom, checkedChange, Bool.false_eq_true, if_false,
    checkedSub_eq_some, checkedSub_eq_none, Option.some.injEq, reduceCtorEq]
  constructor
  · rintro stake ⟨hle, rfl⟩
    refine ⟨?_, fun h => h.elim⟩
    rintro b rfl
    refine ⟨rfl, ?_⟩
    intro x
    have hstake := getD_insert s.stakes.stashStake who x (s.stashStake who - n) 0
    have hreserved := s.balances.unreserve_reserved who n x
    unfold State.holding
    split
    · next hx =>
      subst hx
      rw [if_pos rfl] at hstake hreserved
      unfold Holding.refund
      rw [if_pos hle]
      exact Holding.ext hreserved rfl rfl hstake
    · next hx =>
      rw [if_neg hx] at hstake hreserved
      exact Holding.ext hreserved rfl rfl hstake
  · intro hlt
    exact Touched.of_fixed (if_neg (Nat.not_le.2 hlt))

theorem touches_cancelSlashOne (n : Nat) (who : A) :
    Touches (cancelSlashOne n who) who (Holding.release n ∘ Holding.forfeit n) :=
  (touches_totalStake who n).bind (touches_usedStake who n)

theorem touches_when (p : Prop) [Decidable p] {c : Call (State A) Error Unit}
    (h : Touches c who f) : Touches (when p c) who (if p then f else fun h => h) := by
  unfold when
  split
  · exact h
  · exact fun s => ⟨s, rfl, Touched.of_fixed rfl⟩

/-- What an applicant gets back: a stash its stake, a committee its stake twice. -/
theorem touches_returnReviewStake (isStash : Prop) [Decidable isStash]
    (review : OCPendingSlashReviewInfo A) (n : Nat) :
    Touches (returnReviewStake isStash review n) review.applicant
      (if isStash then Holding.refund n
        else (Holding.release n ∘ Holding.withdraw n) ∘ Holding.pay review.stakedAmount) := by
  unfold returnReviewStake
  split
  · exact touches_changeStake review.applicant n
  · exact (touches_unreserve review.applicant review.stakedAmount).bind
      ((touches_withdraw review.applicant n).bind (touches_usedStake review.applicant n))

/-! ## The slash turned round -/

namespace OCPendingSlashInfo

/-- The committees that pay when the slash is cancelled. -/
def payers (x : OCPendingSlashInfo A) : SortedVec A :=
  x.rewardCommittee.expandToOrder x.unrulyCommittee.toList

/-- The accounts that are released when the slash is cancelled. -/
def released (x : OCPendingSlashInfo A) : SortedVec A :=
  if x.bookResult = .onlineRefused then
    match x.machineStash with
    | some stash => x.inconsistentCommittee.addItem stash
    | none => x.inconsistentCommittee
  else x.inconsistentCommittee

theorem mem_payers {x : OCPendingSlashInfo A} {c : A} :
    c ∈ x.payers ↔ c ∈ x.rewardCommittee ∨ c ∈ x.unrulyCommittee := mem_expandToOrder

theorem mem_released {x : OCPendingSlashInfo A} {c : A} :
    c ∈ x.released ↔ x.ApplicantIsStash c ∨ c ∈ x.inconsistentCommittee := by
  unfold released ApplicantIsStash
  cases x.machineStash with
  | none => simp
  | some stash =>
    by_cases hr : x.bookResult = .onlineRefused
    · simp [hr, mem_addItem, eq_comm]
    · simp [hr]

/-- The committees of the order. -/
def Judged (x : OCPendingSlashInfo A) (who : A) : Prop :=
  who ∈ x.inconsistentCommittee ∨ who ∈ x.rewardCommittee ∨ who ∈ x.unrulyCommittee

/-- The lists as a summary writes them: no committee is on two of them, and a refused stash is no
committee of its own order. -/
structure Sorted (x : OCPendingSlashInfo A) : Prop where
  apart : ∀ c ∈ x.inconsistentCommittee, c ∉ x.payers
  outside : ∀ stash, x.ApplicantIsStash stash → ¬ x.Judged stash

theorem Sorted.notMem_payers (h : x.Sorted) {c : A} (hc : c ∈ x.released) : c ∉ x.payers := by
  rcases mem_released.1 hc with hstash | hc
  · exact fun hp => h.outside c hstash (.inr (mem_payers.1 hp))
  · exact h.apart c hc

end OCPendingSlashInfo

/-- Every account the slash is about holds its stake: a committee its stake for the order, an
applicant the stake of the review as well, and a stash that applied what was withheld from it. -/
structure Backed (s : State A) (x : OCPendingSlashInfo A) (applicant : A) (stake : Nat) : Prop where
  issuance : s.balances.issuance ≤ u128Max
  committees : ∀ c, x.Judged c → stake ≤ (s.stakeOf c).usedStake ∧
    stake ≤ (s.stakeOf c).stakedAmount ∧ stake ≤ s.balances.reserved c
  stash : x.ApplicantIsStash applicant → stake + x.stashSlashAmount ≤ s.stashStake applicant ∧
    stake + x.stashSlashAmount ≤ s.balances.reserved applicant
  committee : ¬ x.ApplicantIsStash applicant → stake + stake ≤ s.balances.reserved applicant

/-- The slash is reversed with exact balances, whoever applied: an applicant gets the stake of the
review back, and a refused stash what was withheld from it; each of the payers loses its stake for
the order, the other committees keep theirs, and no stake is in use for the order. -/
structure Reversed (s s' : State A) (id : Nat) (x : OCPendingSlashInfo A) (applicant : A)
    (stake : Nat) : Prop where
  stash : x.ApplicantIsStash applicant →
    s'.balances.reserved applicant + (stake + x.stashSlashAmount) = s.balances.reserved applicant ∧
      s'.stashStake applicant + (stake + x.stashSlashAmount) = s.stashStake applicant
  committee : ¬ x.ApplicantIsStash applicant →
    s'.balances.reserved applicant + stake = s.balances.reserved applicant ∧
      (s'.stakeOf applicant).stakedAmount + stake = (s.stakeOf applicant).stakedAmount
  inconsistent : ∀ c ∈ x.inconsistentCommittee, c ≠ applicant →
    (s'.stakeOf c).stakedAmount = (s.stakeOf c).stakedAmount ∧
      s'.balances.reserved c = s.balances.reserved c
  payers : ∀ c ∈ x.payers, (s'.stakeOf c).stakedAmount + stake = (s.stakeOf c).stakedAmount ∧
    s'.balances.reserved c + stake = s.balances.reserved c
  used : ∀ c, x.Judged c →
    (s'.stakeOf c).usedStake + (stake + if c = applicant then stake else 0) =
      (s.stakeOf c).usedStake
  refused : ∀ stash, x.ApplicantIsStash stash → stash ≠ applicant →
    s'.balances.reserved stash + x.stashSlashAmount = s.balances.reserved stash ∧
      s'.stashStake stash + x.stashSlashAmount = s.stashStake stash
  others : ∀ c, ¬ x.Judged c → c ∉ x.released → c ≠ applicant → s'.holding c = s.holding c
  handled : id ∉ s'.oc.unhandledSlash
  canceled : s'.oc.pendingSlash.get id = some (x.setResult .canceled)
  closed : s'.oc.pendingSlashReview.get id = none

theorem holding_slashAndReward_ne {l rewarded : List A} {c : A} (hc : c ∉ l) (n : Nat) :
    (s.slashAndReward l n rewarded).holding c = s.holding c :=
  Holding.ext (slashAndReward_reserved_ne hc n rewarded) rfl rfl rfl

section Cancel

variable {id : Nat} {review : OCPendingSlashReviewInfo A}

/-- What `cancel_slash` does, holding by holding: the applicant is paid back, the payers are
slashed, and the records follow. -/
theorem run_cancelSlash (hx : s.oc.pendingSlash.get id = some x)
    (hreview : s.oc.pendingSlashReview.get id = some review) (hstake : s.stakePerOrder = some stake)
    (h : (cancelSlash id).run s = (.ok (), s')) :
    ∃ s₁, (returnReviewStake (x.ApplicantIsStash review.applicant) review stake).run s =
        (.ok (), s₁) ∧
      (∀ c, s'.holding c = (if c ∈ x.released then Holding.release stake else fun h => h)
        ((if c ∈ x.payers then Holding.release stake ∘ Holding.forfeit stake else fun h => h)
          ((if x.ApplicantIsStash review.applicant ∧ c = review.applicant then
            Holding.refund x.stashSlashAmount else fun h => h)
              ((s₁.slashAndReward x.payers.toList stake x.released.toList).holding c)))) ∧
      s'.oc = ((s.oc.setUnhandled (s.oc.unhandledSlash.rmItem id)).putSlash id
        (x.setResult .canceled)).rmReview id := by
  unfold cancelSlash doCancelSlash at h
  simp only [run_ok, hx, hreview, hstake, Option.some.injEq] at h
  obtain ⟨-, -, _, s₁, hrun₁, _, s₃, hrun₃, _, s₄, hrun₄, _, s₅, hrun₅, rfl⟩ := h
  obtain ⟨_, hrun₁', h₁⟩ :=
    touches_returnReviewStake (x.ApplicantIsStash review.applicant) review stake s
  cases hrun₁.symm.trans hrun₁'
  obtain ⟨_, hrun₃', h₃⟩ := touches_when (x.ApplicantIsStash review.applicant)
    (touches_changeStake review.applicant x.stashSlashAmount)
    (s₁.slashAndReward x.payers.toList stake x.released.toList)
  cases hrun₃.symm.trans hrun₃'
  obtain ⟨_, hrun₄', hoc₄, h₄⟩ :=
    run_forEach_touches (touches_cancelSlashOne stake) x.payers.nodup s₃
  cases hrun₄.symm.trans hrun₄'
  obtain ⟨_, hrun₅', hoc₅, h₅⟩ :=
    run_forEach_touches (fun who => touches_usedStake who stake) x.released.nodup s₄
  cases hrun₅.symm.trans hrun₅'
  refine ⟨s₁, hrun₁, fun c => ?_, ?_⟩
  · refine (h₅ c).trans ?_
    rw [h₄, h₃.holding]
    simp only [mem_toList]
    split <;> split <;> split <;> split <;> simp_all
  · have hoc : s₅.oc = s.oc := by rw [hoc₅, hoc₄, h₃.oc]; exact h₁.oc
    exact congrArg (fun y : Slashes A => ((y.setUnhandled (y.unhandledSlash.rmItem id)).putSlash id
      (x.setResult .canceled)).rmReview id) hoc

/-- The ledger after the stash was paid back. -/
theorem refund_balances {n : Nat}
    (hrun : (ignore (profile (OnlineProfile.changeStake who n false)) :
      Call (State A) Error Unit).run s = (.ok (), s')) :
    s'.balances = s.balances ∨ s'.balances = (s.balances.unreserve who n).1 := by
  have hpost : (profile (OnlineProfile.changeStake who n false)).Post s
      (fun _ s' => s'.balances = s.balances ∨ s'.balances = (s.balances.unreserve who n).1)
      (fun _ s' => s'.balances = s.balances ∨ s'.balances = (s.balances.unreserve who n).1) := by
    unfold profile OnlineProfile.changeStake
    simp only [post_step, post_zoom, Bool.false_eq_true, if_false, Option.some.injEq, reduceCtorEq]
    refine ⟨fun stake _ => ⟨?_, fun h => h.elim⟩, fun _ => .inl rfl⟩
    rintro b rfl
    exact .inr rfl
  rw [run_ignore] at hrun
  cases hrun
  exact hpost.storage

section Stash

variable (hstash : x.ApplicantIsStash review.applicant) (hsorted : x.Sorted)
  (hback : Backed s x review.applicant stake)

include hstash hsorted hback

/-- A stash that applied: what the slash takes from each account. -/
theorem holding_slashed (hpos : 0 < stake)
    (hrun : (returnReviewStake (x.ApplicantIsStash review.applicant) review stake).run s =
      (.ok (), s₁)) (c : A) :
    (s₁.slashAndReward x.payers.toList stake x.released.toList).holding c =
      if c ∈ x.payers then (s.holding c).pay stake
      else if c = review.applicant then (s.holding c).refund stake else s.holding c := by
  obtain ⟨_, hrun', h₁⟩ :=
    touches_returnReviewStake (x.ApplicantIsStash review.applicant) review stake s
  cases hrun.symm.trans hrun'
  have hhold := h₁.holding c
  rw [if_pos hstash] at hhold
  split
  · next hc =>
    have hother : ∀ d ∈ x.payers, d ≠ review.applicant := by
      rintro d hd rfl
      exact hsorted.outside _ hstash (.inr (OCPendingSlashInfo.mem_payers.1 hd))
    rw [if_neg (hother c hc)] at hhold
    have hlive : ∀ d ∈ x.released, s.balances.Live d := by
      intro d hd
      apply live_of_reserved
      rcases OCPendingSlashInfo.mem_released.1 hd with hs | hin
      · have := (hback.stash hstash).2
        rw [Option.some.inj (hs.2.symm.trans hstash.2)]
        omega
      · have := (hback.committees d (.inl hin)).2.2
        omega
    unfold returnReviewStake at hrun
    rw [if_pos hstash] at hrun
    obtain ⟨hissuance, hlive₁⟩ : s₁.balances.issuance ≤ u128Max ∧
        ∀ d ∈ x.released.toList, s₁.balances.Live d := by
      rcases refund_balances hrun with he | he <;> rw [he]
      · exact ⟨hback.issuance, hlive⟩
      · exact ⟨(unreserve_issuance _ _ _ hback.issuance).trans_le hback.issuance,
          fun d hd => unreserve_live (hlive d hd)⟩
    have hcover : ∀ d ∈ x.payers.toList, stake ≤ s₁.balances.reserved d := by
      intro d hd
      have hsame := congrArg Holding.reserved (h₁.holding d)
      rw [if_neg (hother d hd)] at hsame
      exact (hback.committees d (.inr (OCPendingSlashInfo.mem_payers.1 hd))).2.2.trans hsame.ge
    have hreserved := slashAndReward_covered x.payers.nodup hissuance
      (fun d hd hr => hsorted.notMem_payers hr hd) hlive₁ hcover c
    rw [if_pos (mem_toList.2 hc)] at hreserved
    rw [← hhold]
    exact Holding.ext hreserved rfl rfl rfl
  · next hc =>
    rw [holding_slashAndReward_ne hc]
    exact hhold

end Stash

/-- **A cancelled slash is reversed with exact balances exactly when the refused stash applied** for
the review. -/
theorem cancel_reverses_iff (hx : s.oc.pendingSlash.get id = some x)
    (hreview : s.oc.pendingSlashReview.get id = some review)
    (hstake : s.stakePerOrder = some review.stakedAmount) (hpos : 0 < review.stakedAmount)
    (hrole : x.ApplicantIsStash review.applicant ∨ review.applicant ∈ x.inconsistentCommittee)
    (hsorted : x.Sorted) (hback : Backed s x review.applicant review.stakedAmount)
    (h : (cancelSlash id).run s = (.ok (), s')) :
    Reversed s s' id x review.applicant review.stakedAmount ↔
      x.ApplicantIsStash review.applicant := by
  obtain ⟨s₁, hrun, hhold, hoc⟩ := run_cancelSlash hx hreview hstake h
  constructor
  · intro hrev
    by_contra hnot
    have hin := hrole.resolve_left hnot
    obtain ⟨_, hrun', h₁⟩ := touches_returnReviewStake (x.ApplicantIsStash review.applicant)
      review review.stakedAmount s
    cases hrun.symm.trans hrun'
    have hres := congrArg Holding.reserved (hhold review.applicant)
    rw [if_pos (OCPendingSlashInfo.mem_released.2 (.inr hin)), if_neg (hsorted.apart _ hin),
      if_neg fun h => hnot h.1, Holding.release_reserved,
      holding_slashAndReward_ne (hsorted.apart _ hin), h₁.holding, if_pos rfl, if_neg hnot,
      Function.comp_apply, Function.comp_apply, Holding.release_reserved,
      Holding.withdraw_reserved (hback.committees _ (.inl hin)).2.1] at hres
    have hfall := (hrev.committee hnot).1
    have hheld := hback.committee hnot
    change s'.balances.reserved _ =
      s.balances.reserved _ - review.stakedAmount - review.stakedAmount at hres
    omega
  · intro hstash
    simp only [holding_slashed hstash hsorted hback hpos hrun, hstash, true_and] at hhold
    have hpayer : ∀ c ∈ x.payers, s'.holding c =
        ⟨s.balances.reserved c - review.stakedAmount,
          (s.stakeOf c).stakedAmount - review.stakedAmount,
          (s.stakeOf c).usedStake - review.stakedAmount, s.stashStake c⟩ := by
      intro c hc
      have hjudged : x.Judged c := .inr (OCPendingSlashInfo.mem_payers.1 hc)
      obtain ⟨hused, hstaked, -⟩ := hback.committees c hjudged
      have hout : c ∉ x.released := fun hr => hsorted.notMem_payers hr hc
      have hne : c ≠ review.applicant := by
        rintro rfl
        exact hsorted.outside _ hstash hjudged
      rw [hhold, if_pos hc, if_pos hc, if_neg hout, if_neg hne]
      exact Holding.charge_of_le hstaked hused
    have hrelease : ∀ c ∈ x.inconsistentCommittee, s'.holding c =
        { s.holding c with used := (s.stakeOf c).usedStake - review.stakedAmount } := by
      intro c hc
      have hout := hsorted.apart c hc
      have hne : c ≠ review.applicant := by
        rintro rfl
        exact hsorted.outside _ hstash (.inl hc)
      rw [hhold, if_neg hout, if_neg hout, if_neg hne, if_neg hne,
        if_pos (OCPendingSlashInfo.mem_released.2 (.inr hc))]
      exact Holding.release_of_le (hback.committees c (.inl hc)).1
    constructor
    · intro _
      have hout : review.applicant ∉ x.payers := fun hin =>
        hsorted.outside _ hstash (.inr (OCPendingSlashInfo.mem_payers.1 hin))
      have hown := hhold review.applicant
      obtain ⟨hle, hle'⟩ := hback.stash hstash
      rw [if_neg hout, if_neg hout, if_pos rfl, if_pos rfl, Holding.refund_refund hle,
        if_pos (OCPendingSlashInfo.mem_released.2 (.inl hstash))] at hown
      have hreserved := congrArg Holding.reserved hown
      have hstashed := congrArg Holding.stash hown
      rw [Holding.release_reserved] at hreserved
      rw [Holding.release_stash] at hstashed
      simp only [State.holding] at hreserved hstashed
      omega
    · exact fun hnot => absurd hstash hnot
    · intro c hc _
      exact ⟨congrArg Holding.staked (hrelease c hc), congrArg Holding.reserved (hrelease c hc)⟩
    · intro c hc
      obtain ⟨-, hstaked, hreserved⟩ :=
        hback.committees c (.inr (OCPendingSlashInfo.mem_payers.1 hc))
      have hs := congrArg Holding.staked (hpayer c hc)
      have hr := congrArg Holding.reserved (hpayer c hc)
      simp only [State.holding] at hs hr
      omega
    · intro c hc
      obtain ⟨hused, -, -⟩ := hback.committees c hc
      have hne : c ≠ review.applicant := by
        rintro rfl
        exact hsorted.outside _ hstash hc
      have hu : (s'.stakeOf c).usedStake = (s.stakeOf c).usedStake - review.stakedAmount := by
        rcases hc with hc | hc
        · exact congrArg Holding.used (hrelease c hc)
        · exact congrArg Holding.used (hpayer c (OCPendingSlashInfo.mem_payers.2 hc))
      rw [if_neg hne]
      omega
    · intro stash hs hne
      exact absurd (Option.some.inj (hs.2.symm.trans hstash.2)) hne
    · intro c hc hr hne
      have hout : c ∉ x.payers := fun hin => hc (.inr (OCPendingSlashInfo.mem_payers.1 hin))
      rw [hhold, if_neg hout, if_neg hout, if_neg hne, if_neg hne, if_neg hr]
    · rw [hoc]
      intro hin
      exact (mem_rmItem.1 hin).1 rfl
    · rw [hoc]
      exact get_insert_self ..
    · rw [hoc]
      exact get_remove_self ..

end Cancel

end

/-! ## A refused machine -/

namespace ReversalDemo

/-- The machine of the stash 5 was refused: 13 voted for it, 12 did not reveal its report. -/
def slash : OCPendingSlashInfo Nat where
  machineId := []
  machineStash := some 5
  stashSlashAmount := 20
  inconsistentCommittee := SortedVec.addItem ∅ 13
  unrulyCommittee := SortedVec.addItem ∅ 12
  rewardCommittee := SortedVec.addItem ∅ 11
  committeeStake := 10
  slashTime := 1
  slashExecTime := 100
  bookResult := .onlineRefused
  slashResult := .pending

def account : AccountData := ⟨1000, 1000, 0⟩

def stake : Committee.CommitteeStakeInfo := ⟨500, 10, 0, 0⟩

/-- The slash waits; 6 and 13 are controllers of the stash 5 and of another one. -/
def start : State Nat :=
  let profile : OnlineProfile.State Nat := .fresh
    { now := 2
      balances :=
      ⟨((((∅ : StorageMap Nat AccountData).insert 5 account).insert 11 account).insert 12
        account).insert 13 account⟩
      fixedTxFee := none
      dbcPrice := some
      committee := ⟨SortedVec.expandToOrder ∅ [11, 12, 13], ∅, ∅, ∅⟩
      committeeStakeParams := some ⟨100, 10, .zero⟩
      committeeStake := (((∅ : StorageMap Nat Committee.CommitteeStakeInfo).insert 11 stake).insert
        12 stake).insert 13 stake }
  (State.fresh ({ profile with
    owners.controllerStash := ((∅ : StorageMap Nat Nat).insert 6 5).insert 13 3 }.setStashStake 5
      200)).mapOc fun x => x.addSlash slash

def applied (who : Nat) : State Nat := ((applySlashReview who 0 []).dispatch start).2

theorem slash_lists (c : Nat) : (c ∈ slash.inconsistentCommittee ↔ c = 13) ∧
    (c ∈ slash.rewardCommittee ↔ c = 11) ∧ (c ∈ slash.unrulyCommittee ↔ c = 12) := by
  simp [slash]

theorem slash_sorted : slash.Sorted := by
  constructor
  · intro c hc hp
    obtain ⟨hi, hr, hu⟩ := slash_lists c
    have hp := OCPendingSlashInfo.mem_payers.1 hp
    rw [hr, hu, hi.1 hc] at hp
    omega
  · rintro stash ⟨-, hs⟩
    obtain ⟨hi, hr, hu⟩ := slash_lists stash
    rw [OCPendingSlashInfo.Judged, hi, hr, hu, ← Option.some.inj hs]
    decide

/-- The review for which the controller 6 of the stash, or the committee 13, applied. -/
def review (who : Nat) : OCPendingSlashReviewInfo Nat := ⟨who, 10, 2, 100, []⟩

theorem applied_backed (who a : Nat) (hwho : who = 6 ∧ a = 5 ∨ who = 13 ∧ a = 13) :
    Backed (applied who) slash a 10 := by
  have hlist : ∀ c ∈ [13, 11, 12], 10 ≤ ((applied who).stakeOf c).usedStake ∧
      10 ≤ ((applied who).stakeOf c).stakedAmount ∧ 10 ≤ (applied who).balances.reserved c := by
    rcases hwho with ⟨rfl, -⟩ | ⟨rfl, -⟩ <;> decide +kernel
  constructor
  · rcases hwho with ⟨rfl, -⟩ | ⟨rfl, -⟩ <;> decide +kernel
  · intro c hc
    obtain ⟨hi, hr, hu⟩ := slash_lists c
    rw [OCPendingSlashInfo.Judged, hi, hr, hu] at hc
    apply hlist c
    simpa using hc
  · rcases hwho with ⟨rfl, rfl⟩ | ⟨rfl, rfl⟩ <;> decide +kernel
  · rcases hwho with ⟨rfl, rfl⟩ | ⟨rfl, rfl⟩ <;> decide +kernel

end ReversalDemo

open ReversalDemo

theorem cancel_reverses_iff_demo :
    Reversed (applied 6) ((cancelSlash 0).dispatch (applied 6)).2 0 slash 5 10 ∧
      ¬ Reversed (applied 13) ((cancelSlash 0).dispatch (applied 13)).2 0 slash 13 10 := by
  obtain ⟨_, hrun⟩ := run_of_isOk
    (show ((cancelSlash 0).run (applied 6)).1.isOk = true by decide +kernel)
  obtain ⟨_, hrun'⟩ := run_of_isOk
    (show ((cancelSlash 0).run (applied 13)).1.isOk = true by decide +kernel)
  have hlisted : 13 ∈ slash.inconsistentCommittee := (slash_lists 13).1.2 rfl
  have hreview : (applied 6).oc.pendingSlashReview.get 0 = some (review 5) := rfl
  have hreview' : (applied 13).oc.pendingSlashReview.get 0 = some (review 13) := rfl
  have h := cancel_reverses_iff rfl hreview (by decide +kernel) (by decide)
    (.inl ⟨rfl, rfl⟩) slash_sorted (applied_backed 6 5 (.inl ⟨rfl, rfl⟩)) hrun
  have h' := cancel_reverses_iff rfl hreview' (by decide +kernel) (by decide)
    (.inr hlisted) slash_sorted (applied_backed 13 13 (.inr ⟨rfl, rfl⟩)) hrun'
  exact ⟨h.2 ⟨rfl, rfl⟩, fun hrev => absurd (h'.1 hrev) (by decide)⟩

/-- The committee 13 applies and its slash is cancelled: it got its review stake back twice, and
the stash 5 got nothing. -/
theorem cancelled_twice :
    ((applySlashReview 13 0 []).run start).1.isOk = true ∧
      ((cancelSlash 0).run (applied 13)).1.isOk = true ∧ Backed (applied 13) slash 13 10 ∧
      ((cancelSlash 0).run (applied 13)).2.balances.reserved 13 + 20 =
        (applied 13).balances.reserved 13 ∧
      ((cancelSlash 0).run (applied 13)).2.balances.reserved 13 + 10 = start.balances.reserved 13 ∧
      ((cancelSlash 0).run (applied 13)).2.balances.reserved 5 = start.balances.reserved 5 ∧
      ((cancelSlash 0).run (applied 13)).2.stashStake 5 = start.stashStake 5 := by
  refine ⟨?_, ?_, applied_backed 13 13 (.inr ⟨rfl, rfl⟩), ?_, ?_, ?_, ?_⟩ <;> decide +kernel

end DeepBrainChain.OnlineCommittee
