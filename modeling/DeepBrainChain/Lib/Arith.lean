import Mathlib.Algebra.BigOperators.Group.List.Basic
import Mathlib.Algebra.Order.Ring.Nat
import Mathlib.Tactic.Common

/-!
# Bounded unsigned arithmetic

Machine integers are natural numbers here; the largest value of the type is an argument of the
operations that can leave it. A saturating subtraction is the subtraction of `Nat`.
-/

namespace DeepBrainChain.Lib

def u32Max : Nat := 2 ^ 32 - 1

def u64Max : Nat := 2 ^ 64 - 1

def u128Max : Nat := 2 ^ 128 - 1

def checkedAdd (m a b : Nat) : Option Nat := if a + b ≤ m then some (a + b) else none

def checkedSub (a b : Nat) : Option Nat := if b ≤ a then some (a - b) else none

def checkedMul (m a b : Nat) : Option Nat := if a * b ≤ m then some (a * b) else none

def saturatingAdd (m a b : Nat) : Nat := min m (a + b)

def saturatingMul (m a b : Nat) : Nat := min m (a * b)

/-- `a + b` in an unchecked addition, which starts again at zero above `m`. -/
def wrappingAdd (m a b : Nat) : Nat := (a + b) % (m + 1)

/-- The change of an amount by `d`, up or down, where it can be made. -/
def checkedChange (m old d : Nat) (isAdd : Bool) : Option Nat :=
  if isAdd then checkedAdd m old d else checkedSub old d

/-- The change of an amount by `d`, up or down, cut off at `m` and at zero. -/
def saturatingChange (m old d : Nat) (isAdd : Bool) : Nat :=
  if isAdd then saturatingAdd m old d else old - d

variable {a b c m pot : Nat} {l : List Nat}

theorem checkedAdd_eq_some : checkedAdd m a b = some c ↔ a + b ≤ m ∧ c = a + b := by
  unfold checkedAdd
  by_cases h : a + b ≤ m <;> simp [h, eq_comm]

theorem checkedSub_eq_some : checkedSub a b = some c ↔ b ≤ a ∧ c = a - b := by
  unfold checkedSub
  by_cases h : b ≤ a <;> simp [h, eq_comm]

theorem checkedSub_eq_none : checkedSub a b = none ↔ a < b := by
  unfold checkedSub
  split <;> simp_all

theorem checkedMul_eq_some : checkedMul m a b = some c ↔ a * b ≤ m ∧ c = a * b := by
  unfold checkedMul
  by_cases h : a * b ≤ m <;> simp [h, eq_comm]

theorem saturatingAdd_of_le (h : a + b ≤ m) : saturatingAdd m a b = a + b :=
  Nat.min_eq_right h

theorem wrappingAdd_of_le (h : a + b ≤ m) : wrappingAdd m a b = a + b :=
  Nat.mod_eq_of_lt (Nat.lt_succ_of_le h)

/-! ## Sharing out -/

/-- Meet the demands in turn, each as far as the pot still reaches. -/
def dole : Nat → List Nat → List Nat
  | _, [] => []
  | pot, d :: l => min d pot :: dole (pot - min d pot) l

theorem sum_dole (pot : Nat) (l : List Nat) : (dole pot l).sum = min pot l.sum := by
  induction l generalizing pot with
  | nil => simp [dole]
  | cons d l ih =>
    rw [dole, List.sum_cons, List.sum_cons, ih]
    omega

/-- Nobody gets more than a common bound of the demands. -/
theorem le_of_mem_dole {n p : Nat} (hl : ∀ d ∈ l, d ≤ n) (hp : p ∈ dole pot l) : p ≤ n := by
  induction l generalizing pot with
  | nil => exact absurd hp List.not_mem_nil
  | cons d l ih =>
    rcases List.mem_cons.1 hp with rfl | hp
    · exact (Nat.min_le_left d pot).trans (hl d List.mem_cons_self)
    · exact ih (fun e he => hl e (List.mem_cons_of_mem d he)) hp

/-! ## Proportions -/

/-- A proportion in parts per billion. -/
structure Perbill where
  parts : Nat
  le_one : parts ≤ 1000000000
deriving DecidableEq

namespace Perbill

def one : Perbill := ⟨1000000000, Nat.le_refl _⟩

def zero : Perbill := ⟨0, Nat.zero_le _⟩

def fromPercent (x : Nat) : Perbill := ⟨min x 100 * 10000000, by omega⟩

/-- The proportion `p / q`, rounded down; the whole if `p` is above `q`. -/
def fromRational (p q : Nat) : Perbill :=
  if h : p ≤ q ∧ 0 < q then
    ⟨p * 1000000000 / q, Nat.div_le_of_le_mul (Nat.mul_le_mul_right 1000000000 h.1)⟩
  else one

/-- The part `r` of `x`, rounded to the nearest number and down in the middle. -/
def mul (r : Perbill) (x : Nat) : Nat :=
  x * r.parts / 1000000000 + if 500000000 < x * r.parts % 1000000000 then 1 else 0

theorem mul_le (r : Perbill) (x : Nat) : r.mul x ≤ x := by
  have h : x * r.parts ≤ x * 1000000000 := Nat.mul_le_mul_left x r.le_one
  unfold mul
  split <;> omega

/-- A part is rounded by half a unit at most. -/
theorem mul_near (r : Perbill) (x : Nat) :
    x * r.parts ≤ 1000000000 * r.mul x + 500000000 ∧
      1000000000 * r.mul x < x * r.parts + 500000000 := by
  unfold mul
  split <;> omega

variable {r : Perbill}

/-- Two parts that fit into the whole still fit after each was rounded. -/
theorem mul_add_mul_le {q : Perbill} (h : r.parts + q.parts ≤ 999999999) (x : Nat) :
    r.mul x + q.mul x ≤ x := by
  have hr := mul_near r x
  have hq := mul_near q x
  have hsum : x * r.parts + x * q.parts ≤ x * 999999999 := by
    rw [← Nat.mul_add]
    exact Nat.mul_le_mul_left x h
  omega

theorem parts_fromRational {p q : Nat} (h : p ≤ q) (hq : 0 < q) :
    (fromRational p q).parts = p * 1000000000 / q := by
  unfold fromRational
  rw [dif_pos ⟨h, hq⟩]

end Perbill

/-- A proportion in parts per hundred. -/
structure Percent where
  parts : Nat
  le_one : parts ≤ 100
deriving DecidableEq

namespace Percent

def fromPercent (x : Nat) : Percent := ⟨min x 100, Nat.min_le_right _ _⟩

/-- The part `r` of `x`, rounded to the nearest number and down in the middle. -/
def mul (r : Percent) (x : Nat) : Nat :=
  x * r.parts / 100 + if 50 < x * r.parts % 100 then 1 else 0

theorem mul_le (r : Percent) (x : Nat) : r.mul x ≤ x := by
  have h : x * r.parts ≤ x * 100 := Nat.mul_le_mul_left x r.le_one
  unfold mul
  split <;> omega

/-- Two parts that fit into the whole still fit after each was rounded. -/
theorem mul_add_mul_le {r q : Percent} (h : r.parts + q.parts ≤ 100) (x : Nat) :
    r.mul x + q.mul x ≤ x := by
  have hx : x * r.parts + x * q.parts ≤ x * 100 := by
    rw [← Nat.mul_add]
    exact Nat.mul_le_mul_left x h
  unfold mul
  generalize x * r.parts = a at hx ⊢
  generalize x * q.parts = c at hx ⊢
  split <;> split <;> omega

end Percent

end DeepBrainChain.Lib
