import DeepBrainChain.OnlineProfile.Calls
import Mathlib.Algebra.BigOperators.Intervals
import Mathlib.Algebra.BigOperators.Ring.Finset
import Mathlib.Algebra.Order.BigOperators.Group.Finset
import Mathlib.Algebra.Order.Group.Abs
import Mathlib.Algebra.Order.Group.Int

/-!
# What an era releases

The rewards of the last 150 eras are kept in a queue together with their sum. An era releases a
quarter of its own reward and a two-hundredth of each of the others in the queue, and shares that
out between the stash and the committees that verified the machine.
-/

namespace DeepBrainChain.OnlineProfile

open Lib Support StorageMap Perbill List

section

variable {A : Type} [LinearOrder A]

section

omit [LinearOrder A]

/-- The reward that `distribute_reward_to_machine` releases, with the record after the new reward
was added to it. -/
def MachineRecentRewardInfo.releasedReward (x : MachineRecentRewardInfo A) : Nat :=
  if x.recentRewardSum = 0 then 0
  else (Perbill.fromRational 49 200).mul (x.recentMachineReward.getLastD 0) +
    (Perbill.fromRational 1 200).mul x.recentRewardSum

/-- The arguments of `distribute_reward_to_machine` besides the machine. -/
structure EraTerms (A : Type) [LinearOrder A] where
  era : Nat
  eraReward : Nat
  machinePoints : StorageMap MachineId MachineGradeStatus
  stashPoints : EraStashPoints A

end

def EraTerms.distribute (c : EraTerms A) (s : State A) (m : MachineId) : State A :=
  s.distributeRewardToMachine c.era c.eraReward c.machinePoints c.stashPoints m

def EraTerms.reward (c : EraTerms A) (m : MachineId) (x : MachineRecentRewardInfo A) : Nat :=
  calcMachineTotalReward m x.machineStash c.eraReward c.machinePoints c.stashPoints

def EraTerms.record (c : EraTerms A) (m : MachineId) (x : MachineRecentRewardInfo A) :
    MachineRecentRewardInfo A :=
  x.addNewReward (c.reward m x)

variable {s : State A} {m : MachineId} {x : MachineRecentRewardInfo A} {c : EraTerms A}

theorem distribute_record (hx : s.rewards.machineRecentReward.get m = some x) :
    (c.distribute s m).rewards.machineRecentReward.get m = some (c.record m x) := by
  unfold EraTerms.distribute State.distributeRewardToMachine
  rw [hx]
  dsimp only
  split
  · exact get_insert_self ..
  · exact get_insert_self ..

/-! ## The committees of a machine -/

theorem rewardCommittees_grades (s : State A) (l : List A) (each : Nat) :
    (s.rewardCommittees l each).grades = s.grades := by
  unfold State.rewardCommittees
  induction l generalizing s with
  | nil => rfl
  | cons a l ih => exact ih _

/-- Each committee gets a share for every time it is listed, until its counter is full. -/
theorem rewardCommittees_claim (s : State A) (l : List A) (each : Nat) (a : A) :
    ((s.rewardCommittees l each).stakeOf a).canClaimReward ≤
        (s.stakeOf a).canClaimReward + l.count a * each ∧
      ((s.stakeOf a).canClaimReward + l.count a * each ≤ u128Max →
        ((s.rewardCommittees l each).stakeOf a).canClaimReward =
          (s.stakeOf a).canClaimReward + l.count a * each) := by
  unfold State.rewardCommittees
  induction l generalizing s with
  | nil => simp
  | cons b l ih =>
    rw [foldl_cons]
    obtain ⟨hle, heq⟩ := ih (s.setCommitteeState (Committee.addReward s.toCommittee b each))
    by_cases hb : b = a
    · have hone : ((s.setCommitteeState (Committee.addReward s.toCommittee b each)).stakeOf
          a).canClaimReward = saturatingAdd u128Max (s.stakeOf a).canClaimReward each := by
        rw [← hb]
        exact congrArg _ Committee.stakeOf_setStake_self
      rw [hone] at hle heq
      rw [count_cons, if_pos (by simpa using hb), Nat.add_mul, Nat.one_mul]
      have hsat : saturatingAdd u128Max (s.stakeOf a).canClaimReward each =
        min u128Max ((s.stakeOf a).canClaimReward + each) := rfl
      constructor
      · omega
      · intro hfit
        rw [heq (by omega)]
        omega
    · have hone : (s.setCommitteeState (Committee.addReward s.toCommittee b each)).stakeOf a =
          s.stakeOf a := Committee.stakeOf_setStake_of_ne (Ne.symm hb)
      rw [hone] at hle heq
      rw [count_cons, if_neg (by simpa using hb), Nat.add_zero]
      exact ⟨hle, heq⟩

/-! ## Stash and committees together -/

/-- What a call adds to the claims of the stash and of the committees of a machine. -/
def paidOut (s s' : State A) (x : MachineRecentRewardInfo A) : Nat :=
  (s'.stashMachine x.machineStash).canClaimReward - (s.stashMachine x.machineStash).canClaimReward +
    ∑ a ∈ x.rewardCommittee.toFinset,
      ((s'.stakeOf a).canClaimReward - (s.stakeOf a).canClaimReward)

/-- No counter of a claim is filled up by the release. -/
structure ClaimRoom (s : State A) (x : MachineRecentRewardInfo A) (released : Nat) : Prop where
  stash : (s.stashMachine x.machineStash).canClaimReward + released ≤ u128Max
  committee : ∀ a ∈ x.rewardCommittee,
    (s.stakeOf a).canClaimReward + x.rewardCommittee.length * released ≤ u128Max

/-- What is left when `amount` is divided among `n` is at most half a unit for each, up to the
rounding of the proportion `1 / n`. -/
def RemainderSmall (amount n : Nat) : Prop :=
  2000000000 * (amount % n) ≤ 1000000000 * n + 2 * amount * (1000000000 % n)

instance (amount n : Nat) : Decidable (RemainderSmall amount n) := by
  unfold RemainderSmall
  infer_instance

/-- Equal shares stay below the amount exactly if its remainder is small. -/
theorem mul_share_le_iff (amount n : Nat) :
    n * (Perbill.fromRational 1 n).mul amount ≤ amount ↔ RemainderSmall amount n := by
  unfold RemainderSmall
  rcases Nat.eq_zero_or_pos n with rfl | hn
  · rw [Nat.mod_zero, Nat.mod_zero]
    omega
  have hparts := parts_fromRational (p := 1) hn hn
  obtain ⟨hlo, hhi⟩ := mul_near (.fromRational 1 n) amount
  rw [hparts, Nat.one_mul] at hlo hhi
  generalize (Perbill.fromRational 1 n).mul amount = each at hlo hhi ⊢
  have hdiv := Nat.div_add_mod 1000000000 n
  have hrest := Nat.div_add_mod amount n
  have hlt := Nat.mod_lt amount hn
  generalize 1000000000 / n = p at hdiv hlo hhi
  generalize hq : amount / n = q at hrest
  generalize amount % n = t at hrest hlt ⊢
  generalize 1000000000 % n = e at hdiv ⊢
  -- the share is at most the quotient exactly if the exact share is at most half a unit above it
  have hshare : n * each ≤ amount ↔ each ≤ q := by
    rw [← hq, Nat.le_div_iff_mul_le hn, Nat.mul_comm]
  have hhalf : each ≤ q ↔ amount * p ≤ 1000000000 * q + 500000000 := by
    constructor <;> intro h <;> omega
  have hscale : amount * p ≤ 1000000000 * q + 500000000 ↔
      n * (amount * p) ≤ n * (1000000000 * q + 500000000) :=
    (Nat.mul_le_mul_left_iff hn).symm
  have hexact : n * (amount * p) + amount * e = amount * 1000000000 := by
    rw [← hdiv]
    ring
  have hwhole : n * (1000000000 * q + 500000000) + 1000000000 * t =
      1000000000 * amount + n * 500000000 := by
    rw [← hrest]
    ring
  rw [hshare, hhalf, hscale]
  have hdouble : 2 * amount * e = 2 * (amount * e) := Nat.mul_assoc ..
  omega

omit [LinearOrder A] in
theorem releasedShares_add (x : MachineRecentRewardInfo A) (era released : Nat) :
    (releasedShares x era released).1 + (releasedShares x era released).2 = released := by
  have hle := mul_le (.fromRational 99 100) released
  unfold releasedShares
  split
  · rfl
  · exact Nat.add_sub_cancel' hle

theorem sum_count_toFinset (l : List A) (each : Nat) :
    ∑ a ∈ l.toFinset, l.count a * each = l.length * each := by
  rw [← Finset.sum_mul, sum_toFinset_count_eq_length]

omit [LinearOrder A] in
theorem releasedShares_zero (x : MachineRecentRewardInfo A) (era : Nat) :
    releasedShares x era 0 = (0, 0) := by
  unfold releasedShares
  split <;> rfl

section

variable (hx : s.rewards.machineRecentReward.get m = some x)

include hx

theorem distribute_nothing (hsum : (c.record m x).recentRewardSum = 0) :
    c.distribute s m = s.putRecentReward m (c.record m x) := by
  unfold EraTerms.record EraTerms.reward at hsum ⊢
  unfold EraTerms.distribute State.distributeRewardToMachine
  rw [hx]
  dsimp only
  rw [if_pos hsum]

theorem distribute_pays (hsum : (c.record m x).recentRewardSum ≠ 0) :
    ((c.distribute s m).stashMachine x.machineStash).canClaimReward =
        saturatingAdd u128Max (s.stashMachine x.machineStash).canClaimReward
          (releasedShares (c.record m x) c.era (c.record m x).releasedReward).1 ∧
      ∀ a, (c.distribute s m).stakeOf a = (s.rewardCommittees x.rewardCommittee
        ((Perbill.fromRational 1 x.rewardCommittee.length).mul
          (releasedShares (c.record m x) c.era (c.record m x).releasedReward).2)).stakeOf a := by
  unfold MachineRecentRewardInfo.releasedReward
  rw [if_neg hsum]
  unfold EraTerms.record EraTerms.reward at hsum ⊢
  unfold EraTerms.distribute State.distributeRewardToMachine
  rw [hx]
  dsimp only
  rw [if_neg hsum]
  constructor
  · refine (congrArg StashMachine.canClaimReward (getD_insert_self ..)).trans ?_
    unfold State.stashMachine
    rw [rewardCommittees_grades]
  · intro a
    rfl

/-- The stash gets its part and each committee an equal share, until a counter is full. -/
theorem paidOut_distribute {shares : Nat × Nat}
    (hs : releasedShares (c.record m x) c.era (c.record m x).releasedReward = shares) {each : Nat}
    (he : (Perbill.fromRational 1 x.rewardCommittee.length).mul shares.2 = each) :
    paidOut s (c.distribute s m) x ≤ shares.1 + x.rewardCommittee.length * each ∧
      (ClaimRoom s x (c.record m x).releasedReward →
        paidOut s (c.distribute s m) x = shares.1 + x.rewardCommittee.length * each) := by
  by_cases hzero : (c.record m x).recentRewardSum = 0
  · have hnone : (c.record m x).releasedReward = 0 := if_pos hzero
    rw [hnone, releasedShares_zero] at hs
    subst hs
    rw [show (Perbill.fromRational 1 x.rewardCommittee.length).mul 0 = 0 from
      Nat.le_zero.1 (mul_le ..)] at he
    subst he
    have hsame : paidOut s (s.putRecentReward m (c.record m x)) x = 0 := by
      unfold paidOut
      apply Nat.add_eq_zero_iff.2
      exact ⟨Nat.sub_self _, Finset.sum_eq_zero fun a _ => Nat.sub_self _⟩
    rw [distribute_nothing hx hzero, hsame, Nat.mul_zero]
    exact ⟨Nat.le_refl 0, fun _ => rfl⟩
  · obtain ⟨hstash, hclaims⟩ := distribute_pays hx hzero
    rw [hs] at hstash
    rw [hs, he] at hclaims
    have hone : saturatingAdd u128Max (s.stashMachine x.machineStash).canClaimReward shares.1 =
      min u128Max ((s.stashMachine x.machineStash).canClaimReward + shares.1) := rfl
    unfold paidOut
    rw [hstash, ← sum_count_toFinset]
    constructor
    · apply Nat.add_le_add
      · omega
      · apply Finset.sum_le_sum
        intro a _
        have hle := (rewardCommittees_claim s x.rewardCommittee each a).1
        rw [hclaims]
        omega
    · intro hroom
      have hparts := releasedShares_add (c.record m x) c.era (c.record m x).releasedReward
      rw [hs] at hparts
      have hstashRoom := hroom.stash
      have heach : each ≤ (c.record m x).releasedReward := by
        have hle := mul_le (.fromRational 1 x.rewardCommittee.length) shares.2
        omega
      congr 1
      · omega
      · apply Finset.sum_congr rfl
        intro a ha
        have hcount : x.rewardCommittee.count a * each ≤
            x.rewardCommittee.length * (c.record m x).releasedReward :=
          Nat.mul_le_mul count_le_length heach
        have hfit := hroom.committee a (List.mem_toFinset.1 ha)
        have heq := (rewardCommittees_claim s x.rewardCommittee each a).2 (by omega)
        rw [hclaims]
        omega

end

/-! ## The part of the committees -/

section

omit [LinearOrder A]

/-- The sum of the queue once the reward of an era has come in. -/
def MachineRecentRewardInfo.sumWith (x : MachineRecentRewardInfo A) (reward : Nat) : Nat :=
  min u128Max (x.recentRewardSum + reward) -
    if x.recentMachineReward.length = 150 then x.recentMachineReward.headD 0 else 0

/-- What the committees are to share: until their deadline a hundredth of 49/200 of the new reward
and 1/200 of the queue, each of the three rounded to the nearest. -/
def MachineRecentRewardInfo.committeePart (x : MachineRecentRewardInfo A) (era reward : Nat) :
    Nat :=
  if x.rewardCommitteeDeadline < era ∨ x.sumWith reward = 0 then 0
  else ((49 * reward + 99) / 200 + (x.sumWith reward + 99) / 200 + 50) / 100

theorem mul_hundredths (n : Nat) :
    (Perbill.fromRational 49 200).mul n = (49 * n + 99) / 200 ∧
      (Perbill.fromRational 1 200).mul n = (n + 99) / 200 ∧
      (Perbill.fromRational 99 100).mul n = (99 * n + 49) / 100 := by
  have h49 := mul_near (.fromRational 49 200) n
  have h1 := mul_near (.fromRational 1 200) n
  have h99 := mul_near (.fromRational 99 100) n
  rw [parts_fromRational (by decide) (by decide)] at h49 h1 h99
  omega

theorem releasedShares_committee (x : MachineRecentRewardInfo A) (era reward : Nat) :
    (releasedShares (x.addNewReward reward) era (x.addNewReward reward).releasedReward).2 =
      x.committeePart era reward := by
  have hlast : (x.addNewReward reward).recentMachineReward.getLastD 0 = reward :=
    getLastD_concat ..
  have hsum : (x.addNewReward reward).recentRewardSum = x.sumWith reward := rfl
  have hdeadline : (x.addNewReward reward).rewardCommitteeDeadline = x.rewardCommitteeDeadline :=
    rfl
  unfold releasedShares MachineRecentRewardInfo.committeePart
    MachineRecentRewardInfo.releasedReward
  rw [hlast, hsum, hdeadline, (mul_hundredths reward).1, (mul_hundredths (x.sumWith reward)).2.1]
  by_cases hera : x.rewardCommitteeDeadline < era
  · simp only [if_pos hera, if_pos (Or.inl hera : _ ∨ x.sumWith reward = 0)]
  · by_cases hzero : x.sumWith reward = 0
    · simp only [hera, hzero, if_false, if_true, false_or, Nat.zero_sub]
    · simp only [hera, hzero, if_false, false_or, (mul_hundredths _).2.2]
      omega

end

/-- **An era pays out at most what it releases exactly if the remainder of the committees' part is
small**, which the queue, the reward of the era and the number of the committees decide. If it is
not small, only a counter that is full already can keep the claims down. -/
theorem paidOut_le_iff (s : State A) (m : MachineId) (x : MachineRecentRewardInfo A)
    (c : EraTerms A) (hx : s.rewards.machineRecentReward.get m = some x) :
    (RemainderSmall (x.committeePart c.era (c.reward m x)) x.rewardCommittee.length →
      paidOut s (c.distribute s m) x ≤ (c.record m x).releasedReward) ∧
    (ClaimRoom s x (c.record m x).releasedReward →
      paidOut s (c.distribute s m) x ≤ (c.record m x).releasedReward →
      RemainderSmall (x.committeePart c.era (c.reward m x)) x.rewardCommittee.length) := by
  have hadd := releasedShares_add (c.record m x) c.era (c.record m x).releasedReward
  have hpart : (releasedShares (c.record m x) c.era (c.record m x).releasedReward).2 =
      x.committeePart c.era (c.reward m x) := releasedShares_committee ..
  obtain ⟨hle, heq⟩ := paidOut_distribute (c := c) hx rfl rfl
  rw [← mul_share_le_iff, ← hpart]
  constructor
  · intro hsmall
    omega
  · intro hroom hpaid
    have := heq hroom
    omega

/-! ## The eras that release a reward -/

/-- The sum of the last 150 of the first `j` rewards. -/
def window (r : Nat → Nat) (j : Nat) : Nat := ∑ k ∈ Finset.Ico (j - 150) j, r k

/-- What the era `j` releases of the rewards `r`. -/
def releasedAt (r : Nat → Nat) (j : Nat) : Nat :=
  (Perbill.fromRational 49 200).mul (r j) + (Perbill.fromRational 1 200).mul (window r (j + 1))

def EraTerms.rewardIn (c : EraTerms A) (s : State A) (m : MachineId) : Nat :=
  (s.rewards.machineRecentReward.get m).elim 0 (c.reward m)

def EraTerms.releasedIn (c : EraTerms A) (s : State A) (m : MachineId) : Nat :=
  (s.rewards.machineRecentReward.get m).elim 0 fun x => (c.record m x).releasedReward

/-- One call in each era, from a new record on, and nothing else changes the record. -/
structure NotReset (m : MachineId) (s : Nat → State A) (c : Nat → EraTerms A) : Prop where
  fresh : ∃ x, (s 0).rewards.machineRecentReward.get m = some x ∧ x.recentMachineReward = [] ∧
    x.recentRewardSum = 0
  kept : ∀ j, (s (j + 1)).rewards.machineRecentReward.get m =
    ((c j).distribute (s j) m).rewards.machineRecentReward.get m

/-- The sum of the rewards in the queue and of a new one does not overflow. -/
def WindowsFit (r : Nat → Nat) : Prop := ∀ j, window r j + r j ≤ u128Max

section Run

variable {s : Nat → State A} {c : Nat → EraTerms A} {r : Nat → Nat}

section

omit [LinearOrder A]

variable {x : MachineRecentRewardInfo A}

/-- The queue is the end of the list of all rewards, and moves on by one. -/
theorem addNewReward_drop {l : List Nat} {amount : Nat}
    (hq : x.recentMachineReward = l.drop (l.length - 150))
    (hsum : x.recentRewardSum = x.recentMachineReward.sum)
    (hfit : x.recentRewardSum + amount ≤ u128Max) :
    (x.addNewReward amount).recentMachineReward =
        (l ++ [amount]).drop ((l ++ [amount]).length - 150) ∧
      (x.addNewReward amount).recentRewardSum =
        (x.addNewReward amount).recentMachineReward.sum := by
  have hlen : x.recentMachineReward.length = l.length - (l.length - 150) := by
    rw [hq, length_drop]
  have hdrop : (l ++ [amount]).drop ((l ++ [amount]).length - 150) =
      l.drop (l.length + 1 - 150) ++ [amount] := by
    rw [length_append, length_singleton, drop_append_of_le_length (by omega)]
  unfold MachineRecentRewardInfo.addNewReward
  dsimp only
  rw [saturatingAdd_of_le hfit, hdrop, hsum, sum_append, sum_singleton]
  by_cases hfull : 150 ≤ l.length
  · rw [if_pos (by omega), if_pos (by omega), append_left_inj]
    cases hc : x.recentMachineReward with
    | nil =>
      rw [hc, length_nil] at hlen
      omega
    | cons a t =>
      refine ⟨?_, ?_⟩
      · rw [show l.length + 1 - 150 = l.length - 150 + 1 by omega, ← tail_drop, ← hq, hc]
      · simp only [sum_cons, headD_cons, tail_cons]
        omega
  · rw [if_neg (by omega), if_neg (by omega), hq, show l.length + 1 - 150 = l.length - 150 by omega]
    exact ⟨rfl, rfl⟩

/-- **The window of rewards is exact**: the queue has the last 150 rewards in their order, and the
sum beside it is theirs. -/
theorem reward_window_exact (hq : x.recentMachineReward = []) (hsum : x.recentRewardSum = 0)
    (l : List Nat)
    (hfit : ∀ k < l.length, ((l.take k).drop (k - 150)).sum + l.getD k 0 ≤ u128Max) :
    let y := l.foldl MachineRecentRewardInfo.addNewReward x
    y.recentMachineReward = l.drop (l.length - 150) ∧
      y.recentMachineReward.length = min 150 l.length ∧
      y.recentRewardSum = y.recentMachineReward.sum := by
  intro y
  suffices h : y.recentMachineReward = l.drop (l.length - 150) ∧
      y.recentRewardSum = y.recentMachineReward.sum by
    refine ⟨h.1, ?_, h.2⟩
    rw [h.1, length_drop]
    omega
  induction l using List.reverseRecOn with
  | nil => exact ⟨hq, by rw [show y = x from rfl, hsum, hq, sum_nil]⟩
  | append_singleton l a ih =>
    -- the sums that must not saturate are those of the prefixes
    have hlast := hfit l.length (by simp)
    rw [take_left, getD_eq_getElem?_getD, List.getElem?_concat_length] at hlast
    obtain ⟨hq', hsum'⟩ := ih fun k hk => by
      have h := hfit k (by rw [length_append]; omega)
      rw [take_append_of_le_length hk.le, getD_eq_getElem?_getD,
        List.getElem?_append_left hk] at h
      exact h
    have hy : y = (l.foldl MachineRecentRewardInfo.addNewReward x).addNewReward a :=
      foldl_concat ..
    rw [hy]
    exact addNewReward_drop hq' hsum' (by rw [hsum', hq']; exact hlast)

/-- Two hundred rewards, of which the last 150 count. -/
theorem reward_window_exact_demo :
    let x : MachineRecentRewardInfo Nat := ⟨1, [], 0, 0, []⟩
    ((List.range 200).foldl MachineRecentRewardInfo.addNewReward x).recentRewardSum = 18675 := by
  intro x
  obtain ⟨hq, -, hsum⟩ := reward_window_exact (x := x) rfl rfl (List.range 200) (by decide +kernel)
  rw [hsum, hq]
  decide +kernel

theorem window_eq (r : Nat → Nat) (j : Nat) :
    window r j = (((List.range j).map r).drop (j - 150)).sum := by
  rw [← map_drop, range_eq_range', drop_range', Nat.zero_add, Nat.mul_one]
  rfl

theorem addNewReward_window {j : Nat}
    (hq : x.recentMachineReward = ((List.range j).map r).drop (j - 150))
    (hsum : x.recentRewardSum = window r j) (hfit : window r j + r j ≤ u128Max) :
    (x.addNewReward (r j)).recentMachineReward = ((List.range (j + 1)).map r).drop (j + 1 - 150) ∧
      (x.addNewReward (r j)).recentRewardSum = window r (j + 1) := by
  have hlen : ((List.range j).map r).length = j := by rw [length_map, length_range]
  have hall : (List.range j).map r ++ [r j] = (List.range (j + 1)).map r := by
    rw [range_succ, map_append]
    rfl
  obtain ⟨hq', hsum'⟩ := addNewReward_drop (l := (List.range j).map r) (by rw [hlen]; exact hq)
    (by rw [hsum, hq, window_eq]) (hsum.symm ▸ hfit)
  rw [length_append, hlen, length_singleton, hall] at hq'
  exact ⟨hq', by rw [hsum', hq', window_eq]⟩

end

/-- The record at every call. -/
theorem NotReset.record (h : NotReset m s c) (hr : ∀ j, (c j).rewardIn (s j) m = r j)
    (hfit : WindowsFit r)
    (j : Nat) :
    ∃ x, (s j).rewards.machineRecentReward.get m = some x ∧ (c j).reward m x = r j ∧
      x.recentMachineReward = ((List.range j).map r).drop (j - 150) ∧
      x.recentRewardSum = window r j := by
  have hreward : ∀ {j x}, (s j).rewards.machineRecentReward.get m = some x →
      (c j).reward m x = r j := by
    intro j x hx
    rw [← hr j, EraTerms.rewardIn, hx]
    rfl
  induction j with
  | zero =>
    obtain ⟨x, hx, hq, hsum⟩ := h.fresh
    exact ⟨x, hx, hreward hx, hq, hsum⟩
  | succ j ih =>
    obtain ⟨x, hx, hrx, hq, hsum⟩ := ih
    have hnext := (h.kept j).trans (distribute_record hx)
    obtain ⟨hq', hsum'⟩ := addNewReward_window hq hsum (hfit j)
    rw [← hrx] at hq' hsum'
    exact ⟨_, hnext, hreward hnext, hq', hsum'⟩

/-- **What the code releases in an era**, as a function of the rewards alone. -/
theorem NotReset.released (h : NotReset m s c) (hr : ∀ j, (c j).rewardIn (s j) m = r j)
    (hfit : WindowsFit r) (j : Nat) : (c j).releasedIn (s j) m = releasedAt r j := by
  obtain ⟨x, hx, hrx, hq, hsum⟩ := h.record hr hfit j
  obtain ⟨hq', hsum'⟩ := addNewReward_window hq hsum (hfit j)
  rw [← hrx] at hq' hsum'
  unfold EraTerms.releasedIn
  rw [hx]
  show ((c j).record m x).releasedReward = _
  unfold MachineRecentRewardInfo.releasedReward EraTerms.record releasedAt
  rw [hsum', hq', range_succ, map_append, drop_append_of_le_length
    (by rw [length_map, length_range]; omega)]
  split
  · next hzero =>
    have hle : r j ≤ window r (j + 1) := by
      unfold window
      exact Finset.single_le_sum (fun _ _ => Nat.zero_le _)
        (Finset.mem_Ico.2 ⟨by omega, Nat.lt_succ_self j⟩)
    have hnone : r j = 0 := by omega
    rw [hzero, hnone]
    rfl
  · simp

end Run

end

section Parts

variable {r : Nat → Nat} {i : Nat}

/-- The part of the reward `r i` in what the era `i + k` releases: what would be missing without
it. -/
def releasedPart (r : Nat → Nat) (i k : Nat) : Int :=
  releasedAt r (i + k) - releasedAt (Function.update r i 0) (i + k)

/-- A quarter of a reward is released at once and a two-hundredth in each of the next 150 eras, up
to a unit for each product that is rounded; a reward that stands alone is released in full, up to
a unit for each era. -/
structure ReleasedInFull (r : Nat → Nat) (i : Nat) : Prop where
  first : |4 * releasedPart r i 0 - r i| ≤ 4 * 2
  daily : ∀ k, 1 ≤ k → k ≤ 150 → |200 * releasedPart r i k - r i| ≤ 200
  total : (∀ j, j ≠ i → r j = 0) → ∀ n, i + 150 < n →
    |((∑ j ∈ Finset.range n, releasedAt r j : Nat) : Int) - r i| ≤ 151

theorem window_update (r : Nat → Nat) (i j : Nat) :
    window r j = window (Function.update r i 0) j + if j - 150 ≤ i ∧ i < j then r i else 0 := by
  unfold window
  by_cases hi : i ∈ Finset.Ico (j - 150) j
  · rw [Finset.sum_update_of_mem hi, Nat.zero_add, if_pos (Finset.mem_Ico.1 hi)]
    exact Finset.sum_eq_sum_sdiff_singleton_add hi r
  · rw [Finset.sum_update_of_notMem hi, if_neg (fun h => hi (Finset.mem_Ico.2 h)), Nat.add_zero]

/-- A two-hundredth is rounded by half a unit. -/
theorem daily_near (x : Nat) : x ≤ 200 * (Perbill.fromRational 1 200).mul x + 100 ∧
    200 * (Perbill.fromRational 1 200).mul x < x + 100 := by
  have hnear := mul_near (.fromRational 1 200) x
  rw [show (Perbill.fromRational 1 200).parts = 5000000 from rfl] at hnear
  omega

theorem latest_near (x : Nat) : 49 * x ≤ 200 * (Perbill.fromRational 49 200).mul x + 100 ∧
    200 * (Perbill.fromRational 49 200).mul x < 49 * x + 100 := by
  have hnear := mul_near (.fromRational 49 200) x
  rw [show (Perbill.fromRational 49 200).parts = 245000000 from rfl] at hnear
  omega

theorem releasedPart_later {k : Nat} (hk : 0 < k) :
    releasedPart r i k =
      ((Perbill.fromRational 1 200).mul (window (Function.update r i 0) (i + k + 1) +
          if k < 150 then r i else 0) : Nat) -
        ((Perbill.fromRational 1 200).mul (window (Function.update r i 0) (i + k + 1)) : Nat) := by
  have hother : Function.update r i 0 (i + k) = r (i + k) := Function.update_of_ne (by omega) ..
  have hcond : (i + k + 1 - 150 ≤ i ∧ i < i + k + 1) ↔ k < 150 := by omega
  unfold releasedPart releasedAt
  rw [hother, window_update r i (i + k + 1)]
  simp only [hcond]
  omega

theorem releasedPart_last (r : Nat → Nat) (i : Nat) : releasedPart r i 150 = 0 := by
  rw [releasedPart_later (by decide), if_neg (by decide), Nat.add_zero, Int.sub_self]

theorem sum_releasedAt_alone (h : ∀ j, j ≠ i → r j = 0) {n : Nat} (hn : i + 150 < n) :
    ∑ j ∈ Finset.range n, releasedAt r j =
      (Perbill.fromRational 49 200).mul (r i) + 150 * (Perbill.fromRational 1 200).mul (r i) := by
  have hempty : Function.update r i 0 = 0 := by
    funext j
    by_cases hj : j = i
    · rw [hj, Function.update_self]
      rfl
    · rw [Function.update_of_ne hj]
      exact h j hj
  have hwindow : ∀ j, window r (j + 1) = if i ≤ j ∧ j < i + 150 then r i else 0 := by
    intro j
    have hcond : (j + 1 - 150 ≤ i ∧ i < j + 1) ↔ i ≤ j ∧ j < i + 150 := by omega
    rw [window_update r i, hempty]
    simp only [hcond]
    rw [show window 0 (j + 1) = 0 from Finset.sum_eq_zero fun _ _ => rfl, Nat.zero_add]
  unfold releasedAt
  rw [Finset.sum_add_distrib]
  congr 1
  · exact Finset.sum_eq_single_of_mem i (Finset.mem_range.2 (by omega)) fun j _ hj => by
      rw [h j hj]
      rfl
  · have hsub : Finset.Ico i (i + 150) ⊆ Finset.range n := by
      intro j hj
      have := Finset.mem_Ico.1 hj
      exact Finset.mem_range.2 (by omega)
    rw [← Finset.sum_subset hsub]
    · rw [Finset.sum_congr rfl (g := fun _ => (Perbill.fromRational 1 200).mul (r i))]
      · simp
      · intro j hj
        rw [hwindow, if_pos (Finset.mem_Ico.1 hj)]
    · intro j _ hj
      rw [hwindow, if_neg fun hin => hj (Finset.mem_Ico.2 hin)]
      rfl

theorem releasedInFull_iff_le : ReleasedInFull r i ↔ r i ≤ 200 := by
  constructor
  · intro h
    have hlast := h.daily 150 (by decide) (by decide)
    rw [releasedPart_last, abs_le] at hlast
    omega
  · intro hle
    refine ⟨?_, ?_, ?_⟩
    · have hwindow := window_update r i (i + 1)
      rw [if_pos (by omega)] at hwindow
      have hlatest := latest_near (r i)
      have hwith := daily_near (window r (i + 1))
      have hwithout := daily_near (window (Function.update r i 0) (i + 1))
      have hnone : (Perbill.fromRational 49 200).mul 0 = 0 := rfl
      unfold releasedPart releasedAt
      rw [Nat.add_zero, Function.update_self, hnone, abs_le]
      omega
    · intro k hk _
      have hwithout := daily_near (window (Function.update r i 0) (i + k + 1))
      rw [releasedPart_later hk, abs_le]
      split
      · have hwith := daily_near (window (Function.update r i 0) (i + k + 1) + r i)
        omega
      · rw [Nat.add_zero]
        omega
    · intro halone n hn
      have hlatest := latest_near (r i)
      have hdaily := daily_near (r i)
      rw [sum_releasedAt_alone halone hn, abs_le]
      omega

end Parts

/-- **A reward is released in full exactly if a two-hundredth of it is at most a unit**: it leaves
the queue one era too early. -/
theorem releasedInFull_iff {A : Type} [LinearOrder A] (m : MachineId) (s : Nat → State A)
    (c : Nat → EraTerms A) (r : Nat → Nat) (h : NotReset m s c)
    (hr : ∀ j, (c j).rewardIn (s j) m = r j) (hfit : WindowsFit r) (i : Nat) :
    (∀ j, (c j).releasedIn (s j) m = releasedAt r j) ∧ (ReleasedInFull r i ↔ r i ≤ 200) :=
  ⟨h.released hr hfit, releasedInFull_iff_le⟩

/-! ## A single reward, and three committees -/

namespace ReleaseDemo

def machineId : MachineId := [byte 7]

/-- A machine of the stash 1, with the rewards `l` in its queue. -/
def start (l : List Nat) (committee : List Nat) : State Nat :=
  (State.fresh (.fresh ⟨0, ⟨∅⟩, none, fun _ => none⟩)).putRecentReward machineId
    ⟨1, l, l.sum, 10, committee⟩

def terms (amount : Nat) : EraTerms Nat where
  era := 0
  eraReward := amount
  machinePoints := (∅ : StorageMap MachineId MachineGradeStatus).insert machineId ⟨1, false⟩
  stashPoints := ⟨1, (∅ : StorageMap Nat StashMachineStatistics).insert 1 .zero⟩

def single (amount j : Nat) : EraTerms Nat := terms (if j = 0 then amount else 0)

def states (amount : Nat) : Nat → State Nat
  | 0 => start [] []
  | j + 1 => (single amount j).distribute (states amount j) machineId

theorem states_kept (amount : Nat) : NotReset machineId (states amount) (single amount) :=
  ⟨⟨_, get_insert_self .., rfl, rfl⟩, fun _ => rfl⟩

def rewards (amount j : Nat) : Nat := if j = 0 then amount else 0

theorem single_rewards {amount : Nat} (h : (terms amount).rewardIn (start [] []) machineId = amount)
    (j : Nat) : (single amount j).rewardIn (states amount j) machineId = rewards amount j := by
  cases j with
  | zero => exact h
  | succ j =>
    unfold EraTerms.rewardIn
    cases (states amount (j + 1)).rewards.machineRecentReward.get machineId with
    | none => rfl
    | some x =>
      show (single amount (j + 1)).reward machineId x = 0
      unfold EraTerms.reward calcMachineTotalReward
      dsimp only
      split
      · rfl
      · exact Nat.le_zero.1 (mul_le _ 0)

theorem rewards_fit {amount : Nat} (h : 2 * amount ≤ u128Max) : WindowsFit (rewards amount) := by
  intro j
  have hle : window (rewards amount) j ≤ amount := by
    unfold window rewards
    rw [Finset.sum_ite_eq']
    split
    · exact Nat.le_refl amount
    · exact Nat.zero_le amount
  have hone : rewards amount j ≤ amount := by
    unfold rewards
    split <;> omega
  omega

end ReleaseDemo

open ReleaseDemo in
theorem releasedInFull_small : ReleasedInFull (rewards 100) 0 := by
  have hiff := (releasedInFull_iff machineId (states 100) (single 100) (rewards 100)
    (states_kept 100) (single_rewards (by decide +kernel)) (rewards_fit (by decide)) 0).2
  exact hiff.2 (by decide)

open ReleaseDemo in
/-- A single reward of a million is never released in full: 5000 stay behind. -/
theorem last_part_stays_behind :
    NotReset machineId (states 1000000) (single 1000000) ∧
      (∀ j, (single 1000000 j).rewardIn (states 1000000 j) machineId = rewards 1000000 j) ∧
      (∀ n, 150 < n → ∑ j ∈ Finset.range n,
        (single 1000000 j).releasedIn (states 1000000 j) machineId = 995000) ∧
      ¬ ReleasedInFull (rewards 1000000) 0 := by
  have hrewards := @single_rewards 1000000 (by decide +kernel)
  have halone : ∀ j, j ≠ 0 → rewards 1000000 j = 0 := fun j hj => if_neg hj
  have hsum : ∀ n, 150 < n → ∑ j ∈ Finset.range n, releasedAt (rewards 1000000) j = 995000 := by
    intro n hn
    exact sum_releasedAt_alone halone (by omega)
  refine ⟨states_kept _, hrewards, ?_, ?_⟩
  · intro n hn
    rw [Finset.sum_congr rfl fun j _ =>
      (states_kept 1000000).released hrewards (rewards_fit (by decide)) j]
    exact hsum n hn
  · intro h
    have htotal := h.total halone 151 (by decide)
    rw [hsum 151 (by decide)] at htotal
    exact absurd htotal (by decide)

open ReleaseDemo in
theorem paidOut_le_one :
    paidOut (start [40000] [5]) ((terms 0).distribute (start [40000] [5]) machineId)
      ⟨1, [40000], 40000, 10, [5]⟩ ≤ 200 :=
  (paidOut_le_iff (start [40000] [5]) machineId ⟨1, [40000], 40000, 10, [5]⟩ (terms 0)
    (get_insert_self ..)).1 (by decide +kernel)

open ReleaseDemo in
/-- Two units are shared among three committees, and each gets one. -/
theorem three_committees_exceed :
    ((terms 0).record machineId ⟨1, [40000], 40000, 10, [5, 6, 7]⟩).releasedReward = 200 ∧
      paidOut (start [40000] [5, 6, 7])
        ((terms 0).distribute (start [40000] [5, 6, 7]) machineId)
        ⟨1, [40000], 40000, 10, [5, 6, 7]⟩ = 201 := by
  constructor
  · decide +kernel
  · decide +kernel

end DeepBrainChain.OnlineProfile
