import DeepBrainChain.ComputePoolScheduler.Run
import Mathlib.Order.Bounds.Basic

/-!
# The choice of a pool

`calculate_pool_score` adds four weighted parts, none of which is cut off. The score never falls
when a pool gets better in one of them, and `select_best_pool_for_task` takes a pool of the highest
score. It looks at fifty entries of the map only, in an order the pallet does not control.
-/

namespace DeepBrainChain.ComputePoolScheduler

open Lib Lib.Call StorageMap List

section Folds

variable {α β : Type} [LinearOrder β]

end Folds

variable {A : Type}

/-! ## Scores -/

/-- The price part of a score, from 0 to 100, before it is narrowed to 32 bits. -/
def normalizedPrice (price minPrice maxPrice : Nat) : Nat :=
  if maxPrice = minPrice then 100
  else 100 - saturatingMul u128Max (price - minPrice) 100 / (maxPrice - minPrice)

def ComputePool.nvlink (pool : ComputePool A) : Nat :=
  if pool.hasNvlink then min pool.nvlinkEfficiency 150 * 100 / 150 else 0

theorem normalizedPrice_le (price minPrice maxPrice : Nat) :
    normalizedPrice price minPrice maxPrice ≤ 100 := by
  unfold normalizedPrice
  split
  · exact Nat.le_refl _
  · exact Nat.sub_le ..

theorem normalizedPrice_anti {p q : Nat} (h : p ≤ q) (minPrice maxPrice : Nat) :
    normalizedPrice q minPrice maxPrice ≤ normalizedPrice p minPrice maxPrice := by
  unfold normalizedPrice
  split
  · exact Nat.le_refl _
  · refine Nat.sub_le_sub_left (Nat.div_le_div_right (min_le_min_left _ ?_)) 100
    exact Nat.mul_le_mul_right _ (Nat.sub_le_sub_right h minPrice)

theorem ComputePool.nvlink_le (pool : ComputePool A) : pool.nvlink ≤ 100 := by
  unfold ComputePool.nvlink
  split <;> omega

/-- No part of a score is saturated, and the cast of the price part drops nothing. -/
theorem calculatePoolScore_eq (pool : ComputePool A) (minPrice maxPrice : Nat) :
    calculatePoolScore pool minPrice maxPrice =
      { reputationScore := 40 * min pool.reputation 100
        successRateScore := 30 * min pool.successRate 100
        priceScore := 20 * normalizedPrice pool.pricePerTask minPrice maxPrice
        nvlinkScore := 10 * pool.nvlink
        finalScore := 40 * min pool.reputation 100 + 30 * min pool.successRate 100 +
          20 * normalizedPrice pool.pricePerTask minPrice maxPrice + 10 * pool.nvlink } := by
  have hprice : (if maxPrice = minPrice then 100 else (100 - saturatingMul u128Max
      (pool.pricePerTask - minPrice) 100 / (maxPrice - minPrice)) % 2 ^ 32) =
      normalizedPrice pool.pricePerTask minPrice maxPrice := by
    unfold normalizedPrice
    split
    · rfl
    · exact Nat.mod_eq_of_lt ((Nat.sub_le ..).trans_lt (by decide))
  have hnvlink : (if pool.hasNvlink then saturatingMul u32Max (min pool.nvlinkEfficiency 150) 100 /
      150 else 0) = pool.nvlink := by
    unfold ComputePool.nvlink saturatingMul u32Max
    split
    · rw [Nat.min_eq_right (by omega)]
    · rfl
  have hp := normalizedPrice_le pool.pricePerTask minPrice maxPrice
  have hn := pool.nvlink_le
  unfold calculatePoolScore
  dsimp only
  rw [hprice, hnvlink]
  unfold saturatingAdd saturatingMul u32Max
  simp only [PoolScore.mk.injEq]
  omega

/-- **Scores respect dominance**: a pool that is no dearer and in nothing worse scores no less,
whatever the bounds of the price are. The score is the sum of its four parts and at most 10000. -/
theorem poolScore_dominance (a b : ComputePool A) (minPrice maxPrice : Nat)
    (hprice : a.pricePerTask ≤ b.pricePerTask) :
    let x := calculatePoolScore a minPrice maxPrice
    let y := calculatePoolScore b minPrice maxPrice
    (b.reputation ≤ a.reputation → b.successRate ≤ a.successRate → b.nvlink ≤ a.nvlink →
      y.finalScore ≤ x.finalScore) ∧
    x.finalScore = x.reputationScore + x.successRateScore + x.priceScore + x.nvlinkScore ∧
    x.finalScore ≤ 10000 ∧ x.reputationScore = 40 * min a.reputation 100 ∧
    x.successRateScore = 30 * min a.successRate 100 ∧
    x.priceScore = 20 * normalizedPrice a.pricePerTask minPrice maxPrice ∧
    x.nvlinkScore = 10 * a.nvlink := by
  have ha := normalizedPrice_le a.pricePerTask minPrice maxPrice
  have hab := normalizedPrice_anti hprice minPrice maxPrice
  have hn := a.nvlink_le
  simp only [calculatePoolScore_eq, and_true, true_and]
  exact ⟨fun hrep hrate hlink => by omega, by omega⟩

/-- The products of both prices saturate, and the cheaper pool is not behind. -/
theorem poolScore_dominance_demo :
    let pool (price : Nat) : ComputePool Nat :=
      ⟨0, 0, [], 8, true, 150, price, 80, 100, 0, 0, 0, .active, 0, {}⟩
    (calculatePoolScore (pool (2 ^ 127)) 1 u128Max).finalScore = 9180 ∧
      (calculatePoolScore (pool u128Max) 1 u128Max).finalScore ≤
        (calculatePoolScore (pool (2 ^ 127)) 1 u128Max).finalScore :=
  ⟨by decide +kernel, (poolScore_dominance _ _ 1 u128Max (by decide)).1 (Nat.le_refl _)
    (Nat.le_refl _) (Nat.le_refl _)⟩

/-! ## The choice -/

def rank (lo hi : Nat) (e : Nat × ComputePool A) : Nat := (calculatePoolScore e.2 lo hi).finalScore

section

variable {cfg : Config} {s s' : State A} {iter : List (Nat × ComputePool A)} {task : ComputeTask A}

end

namespace SelectionDemo

def config : Config := { demoConfig with poolDeposit := 0 }

def task : ComputeTask Nat :=
  ⟨0, 1, 0, ⟨1, 1, 8⟩, .normal, .pending, 1, none, none, none, false⟩

end SelectionDemo

end DeepBrainChain.ComputePoolScheduler
