import DeepBrainChain.Lib.Call
import DeepBrainChain.Support.Machine
import DeepBrainChain.Lib.System
import Mathlib.Algebra.Order.Group.Nat

/-!
# The dbc-price-ocw pallet

Off-chain workers fetch the price of a coin and submit it in unsigned transactions. The pallet
keeps the last 64 prices and their average, from which every other pallet computes its amounts.

The web request of a worker is an argument: the number found in the answer, if there is one.
-/

namespace DeepBrainChain.DbcPriceOcw

open Lib Support Lib.Call

def maxLen : Nat := 64

def unsignedTxsPriority : Nat := 100

structure State where
  priceUpdateFrequency : Nat
  prices : List Nat
  priceUrl : Option (List Bytes)
  /-- In millionths of a dollar. -/
  avgPrice : Option Nat
deriving DecidableEq

def State.fresh : State := ⟨10, [], none, none⟩

inductive Origin
  | root
  | signed
  | none
deriving DecidableEq

inductive Error
  | badOrigin
  | indexOutOfRange
deriving DecidableEq

/-! ## Prices -/

/-- `add_price`: the oldest price leaves a full window. -/
def State.addPrice (s : State) (price : Nat) : State :=
  { s with prices := (if maxLen ≤ s.prices.length then s.prices.tail else s.prices) ++ [price] }

/-- `add_avg_price`: the average of a full window, from a saturating sum. -/
def State.addAvgPrice (s : State) : State :=
  if s.prices.length ≠ maxLen then s
  else { s with avgPrice := some (s.prices.foldl (saturatingAdd u64Max) 0 / s.prices.length) }

def State.getDbcPrice (s : State) : Option Nat := s.avgPrice

def checkedDiv (a b : Nat) : Option Nat := if b = 0 then none else some (a / b)

/-- The units of a coin. -/
abbrev oneDbc : Nat := 1000000000000000

def State.getDbcAmountByValue (s : State) (value : Nat) : Option Nat := do
  let price ← s.avgPrice
  let units ← checkedMul u128Max value oneDbc
  checkedDiv units price

/-- `get_dlc_amount_by_value`, at a fixed price. -/
def getDlcAmountByValue (value : Nat) : Option Nat := do
  let units ← checkedMul u128Max value oneDbc
  checkedDiv units 3000

/-! ## Calls -/

inductive PriceCall
  | submitPriceUnsigned (price : Nat)
  | submitPriceByRoot (price : Nat)
  | addPriceUrl (newUrl : Bytes)
  | setPriceUpdateFrequency (frequency : Nat)
  | rmPriceUrlByIndex (index : Nat)
deriving DecidableEq

def submitPriceUnsigned (origin : Origin) (price : Nat) : Call State Error Unit := do
  ensure (origin = .none) .badOrigin
  modify fun s => (s.addPrice price).addAvgPrice

def submitPriceByRoot (origin : Origin) (price : Nat) : Call State Error Unit := do
  ensure (origin = .root) .badOrigin
  modify fun s => (s.addPrice price).addAvgPrice

def addPriceUrl (origin : Origin) (newUrl : Bytes) : Call State Error Unit := do
  ensure (origin = .root) .badOrigin
  modify fun s => { s with priceUrl := some (s.priceUrl.getD [] ++ [newUrl]) }

/-- A frequency of zero is accepted and dropped. -/
def setPriceUpdateFrequency (origin : Origin) (frequency : Nat) : Call State Error Unit := do
  ensure (origin = .root) .badOrigin
  modify fun s => if frequency = 0 then s else { s with priceUpdateFrequency := frequency }

def rmPriceUrlByIndex (origin : Origin) (index : Nat) : Call State Error Unit := do
  ensure (origin = .root) .badOrigin
  let s ← get
  let urls := s.priceUrl.getD []
  ensure (index < urls.length) .indexOutOfRange
  let rest := urls.eraseIdx index
  set { s with priceUrl := if rest.isEmpty then none else some rest }

def PriceCall.call (origin : Origin) : PriceCall → Call State Error Unit
  | .submitPriceUnsigned price => DbcPriceOcw.submitPriceUnsigned origin price
  | .submitPriceByRoot price => DbcPriceOcw.submitPriceByRoot origin price
  | .addPriceUrl newUrl => DbcPriceOcw.addPriceUrl origin newUrl
  | .setPriceUpdateFrequency frequency => DbcPriceOcw.setPriceUpdateFrequency origin frequency
  | .rmPriceUrlByIndex index => DbcPriceOcw.rmPriceUrlByIndex origin index

/-! ## Unsigned transactions -/

inductive TransactionSource
  | inBlock
  | localNode
  | external
deriving DecidableEq

structure ValidTransaction where
  tagPrefix : String
  priority : Nat
  provides : String
  longevity : Nat
  propagate : Bool
deriving DecidableEq

inductive InvalidTransaction
  | call
deriving DecidableEq

/-- `validate_unsigned`. The source of the transaction is not looked at. -/
def validateUnsigned (_source : TransactionSource) :
    PriceCall → Except InvalidTransaction ValidTransaction
  | .submitPriceUnsigned _ =>
    .ok ⟨"dbc-price", unsignedTxsPriority, "submit_price_unsigned", 3, true⟩
  | _ => .error .call

/-- An unsigned transaction that passes its validation is dispatched without an origin. -/
def State.applyUnsigned (s : State) (source : TransactionSource) (c : PriceCall) : State :=
  match validateUnsigned source c with
  | .ok _ => ((c.call .none).dispatch s).2
  | .error _ => s

/-! ## Off-chain workers -/

/-- A number as the JSON reader returns it. -/
structure JsonNumber where
  integer : Int
  fraction : Nat
  fractionLength : Nat

/-- The number part of `parse_price`: millionths, from a number of less than 15 decimals. -/
def parsePrice (n : JsonNumber) : Option Nat :=
  if 15 ≤ n.fractionLength then none
  else
    some (saturatingAdd u64Max (saturatingMul u64Max (n.integer % (2 ^ 64)).toNat 1000000)
      (saturatingMul u64Max n.fraction 1000000 / 10 ^ n.fractionLength))

/-- `offchain_worker`: the transaction a worker submits at a block. -/
def State.offchainWorker (s : State) (now : Nat) (answer : Option JsonNumber) : Option PriceCall :=
  if s.priceUrl = none ∨ s.priceUpdateFrequency = 0 then none
  else if now % s.priceUpdateFrequency = 0 then
    (answer.bind parsePrice).map .submitPriceUnsigned
  else none

/-! # The average price of a run

Workers, root and anybody else submit prices. `validate_unsigned` treats all of them alike, so that
64 transactions of an outsider replace the whole window. -/

open List

/-! ## Averages -/

section Average

variable {lo hi : Nat} {l : List Nat}

theorem foldl_saturatingAdd (l : List Nat) (a : Nat) (h : a + l.sum ≤ u64Max) :
    l.foldl (saturatingAdd u64Max) a = a + l.sum := by
  induction l generalizing a with
  | nil => rfl
  | cons x l ih =>
    rw [sum_cons] at h ⊢
    rw [foldl_cons, saturatingAdd_of_le (by omega), ih (a + x) (by omega)]
    omega

theorem sum_bounds (h : ∀ x ∈ l, lo ≤ x ∧ x ≤ hi) :
    l.length * lo ≤ l.sum ∧ l.sum ≤ l.length * hi := by
  induction l with
  | nil => simp
  | cons x l ih =>
    obtain ⟨hlo, hhi⟩ := h x (mem_cons_self ..)
    obtain ⟨ihlo, ihhi⟩ := ih fun y hy => h y (mem_cons_of_mem x hy)
    rw [sum_cons, length_cons, Nat.succ_mul, Nat.succ_mul]
    omega

theorem average_bounds (hhi : hi < 2 ^ 58) (hlen : l.length = maxLen)
    (h : ∀ x ∈ l, lo ≤ x ∧ x ≤ hi) :
    lo ≤ l.foldl (saturatingAdd u64Max) 0 / l.length ∧
      l.foldl (saturatingAdd u64Max) 0 / l.length ≤ hi := by
  obtain ⟨hlo', hhi'⟩ := sum_bounds h
  have hfits : 0 + l.sum ≤ u64Max := by
    rw [hlen] at hhi'
    unfold maxLen at hhi'
    unfold u64Max
    omega
  rw [foldl_saturatingAdd l 0 hfits, Nat.zero_add]
  have hpos : 0 < l.length := by
    rw [hlen]
    decide
  constructor
  · rw [Nat.le_div_iff_mul_le hpos, Nat.mul_comm]
    exact hlo'
  · exact Nat.div_le_of_le_mul hhi'

end Average

/-! ## Runs -/

inductive Op
  /-- A worker runs at block `now`; its transaction comes from the node itself. -/
  | offchainWorker (now : Nat) (answer : Option JsonNumber)
  | root (c : PriceCall)
  | external (c : PriceCall)

def apply (s : State) : Op → State
  | .offchainWorker now answer =>
    match s.offchainWorker now answer with
    | some c => s.applyUnsigned .localNode c
    | none => s
  | .root c => ((c.call .root).dispatch s).2
  | .external c => s.applyUnsigned .external c

def system : System State Op where
  init s := s = .fresh
  step s op s' := s' = apply s op

/-- The price that a call submits lies between `lo` and `hi`. -/
def PriceCall.Within (lo hi : Nat) : PriceCall → Prop
  | .submitPriceUnsigned price => lo ≤ price ∧ price ≤ hi
  | .submitPriceByRoot price => lo ≤ price ∧ price ≤ hi
  | _ => True

/-- What the workers and root submit lies between `lo` and `hi`; others submit any price below
`2 ^ 58`. -/
def Op.Honest (lo hi : Nat) (s : State) : Op → Prop
  | .offchainWorker now answer => ∀ c, s.offchainWorker now answer = some c → c.Within lo hi
  | .root c => c.Within lo hi
  | .external c => c.Within 0 (2 ^ 58 - 1)

/-- What is submitted, by whomever, lies between `lo` and `hi`. -/
def Op.Within (lo hi : Nat) (s : State) : Op → Prop
  | .external c => c.Within lo hi
  | op => op.Honest lo hi s

/-- The prices in the window and their average lie between `lo` and `hi`. -/
structure Priced (lo hi : Nat) (s : State) : Prop where
  prices : ∀ x ∈ s.prices, lo ≤ x ∧ x ≤ hi
  avgPrice : ∀ p, s.avgPrice = some p → lo ≤ p ∧ p ≤ hi

section Steps

variable {lo hi : Nat} {s s' : State}

theorem Priced.addPrice (h : Priced lo hi s) {price : Nat} (hp : lo ≤ price ∧ price ≤ hi) :
    Priced lo hi (s.addPrice price) := by
  refine ⟨fun x hx => ?_, h.avgPrice⟩
  rcases mem_append.1 hx with hx | hx
  · split at hx
    · exact h.prices x (mem_of_mem_tail hx)
    · exact h.prices x hx
  · rw [mem_singleton.1 hx]
    exact hp

theorem Priced.addAvgPrice (hhi : hi < 2 ^ 58) (h : Priced lo hi s) :
    Priced lo hi s.addAvgPrice := by
  unfold State.addAvgPrice
  split
  · exact h
  · next hlen =>
    refine ⟨h.prices, fun p hp => ?_⟩
    cases hp
    exact average_bounds hhi (not_not.1 hlen) h.prices

theorem Priced.of_eq (h : Priced lo hi s) (hp : s'.prices = s.prices)
    (ha : s'.avgPrice = s.avgPrice) : Priced lo hi s' :=
  ⟨hp ▸ h.prices, ha ▸ h.avgPrice⟩

theorem Priced.dispatch (hhi : hi < 2 ^ 58) (h : Priced lo hi s) {origin : Origin} {c : PriceCall}
    (hc : c.Within lo hi) : Priced lo hi ((c.call origin).dispatch s).2 := by
  refine dispatch_keeps h fun _ s' hr => ?_
  cases c with
  | submitPriceUnsigned price =>
    simp only [run_ok, PriceCall.call, submitPriceUnsigned] at hr
    obtain ⟨-, rfl⟩ := hr
    exact (h.addPrice hc).addAvgPrice hhi
  | submitPriceByRoot price =>
    simp only [run_ok, PriceCall.call, submitPriceByRoot] at hr
    obtain ⟨-, rfl⟩ := hr
    exact (h.addPrice hc).addAvgPrice hhi
  | addPriceUrl newUrl =>
    simp only [run_ok, PriceCall.call, addPriceUrl] at hr
    obtain ⟨-, rfl⟩ := hr
    exact h.of_eq rfl rfl
  | setPriceUpdateFrequency frequency =>
    simp only [run_ok, PriceCall.call, setPriceUpdateFrequency] at hr
    obtain ⟨-, rfl⟩ := hr
    split
    · exact h
    · exact h.of_eq rfl rfl
  | rmPriceUrlByIndex index =>
    simp only [run_ok, PriceCall.call, rmPriceUrlByIndex] at hr
    obtain ⟨-, -, rfl⟩ := hr
    exact h.of_eq rfl rfl

theorem Priced.applyUnsigned (hhi : hi < 2 ^ 58) (h : Priced lo hi s) {source : TransactionSource}
    {c : PriceCall} (hc : c.Within lo hi) : Priced lo hi (s.applyUnsigned source c) := by
  unfold State.applyUnsigned
  split
  · exact h.dispatch hhi hc
  · exact h

theorem Priced.apply (hhi : hi < 2 ^ 58) (h : Priced lo hi s) {op : Op} (hop : op.Within lo hi s) :
    Priced lo hi (apply s op) := by
  cases op with
  | offchainWorker now answer =>
    cases hw : s.offchainWorker now answer with
    | none =>
      simp only [DbcPriceOcw.apply, hw]
      exact h
    | some c =>
      simp only [DbcPriceOcw.apply, hw]
      exact h.applyUnsigned hhi (hop c hw)
  | root c => exact h.dispatch hhi hop
  | external c => exact h.applyUnsigned hhi hop

/-- An amount at a price between `lo` and `hi`. -/
theorem getDbcAmountByValue_bounds {p v : Nat} (ha : s.avgPrice = some p) (hlo : 0 < lo)
    (hp : lo ≤ p ∧ p ≤ hi) (hv : v ≤ u64Max) :
    ∃ amount, s.getDbcAmountByValue v = some amount ∧
      v * 1000000000000000 / hi ≤ amount ∧ amount ≤ v * 1000000000000000 / lo := by
  have hfits : v * 1000000000000000 ≤ u128Max := by
    unfold u64Max at hv
    unfold u128Max
    omega
  have hpos : p ≠ 0 := by omega
  refine ⟨v * 1000000000000000 / p, ?_, ?_, ?_⟩
  · simp [State.getDbcAmountByValue, checkedDiv, ha, checkedMul_eq_some.2 ⟨hfits, rfl⟩, hpos]
  · exact Nat.div_le_div_left hp.2 (by omega)
  · exact Nat.div_le_div_left hp.1 hlo

end Steps

/-- **The average stays where the prices are**: in every run whose submissions all lie in an
interval, those of outsiders included, the average lies in it, and so do the amounts computed
from it. -/
theorem avgPrice_within (lo hi : Nat) (hhi : hi < 2 ^ 58) (s : State)
    (hs : system.Reach (fun s op => op.Within lo hi s) s) (p : Nat) (hp : s.avgPrice = some p) :
    lo ≤ p ∧ p ≤ hi ∧
      (0 < lo → ∀ v, v ≤ u64Max → ∃ amount, s.getDbcAmountByValue v = some amount ∧
        v * 1000000000000000 / hi ≤ amount ∧ amount ≤ v * 1000000000000000 / lo) := by
  have h : Priced lo hi s := by
    refine hs.invariant ?_ ?_
    · rintro _ rfl
      exact ⟨fun x hx => (by cases hx), fun p hp => (by cases hp)⟩
    · rintro s op _ h hop rfl
      exact h.apply hhi hop
  have hpb := h.avgPrice p hp
  exact ⟨hpb.1, hpb.2, fun hlo v hv => getDbcAmountByValue_bounds hp hlo hpb hv⟩

/-! ## A full window -/

namespace Demo

def ops (price : Nat) : List Op := List.replicate 64 (.external (.submitPriceUnsigned price))

def filled (price : Nat) : State := (ops price).foldl apply .fresh

theorem filled_reach {C : State → Op → Prop} {price : Nat}
    (h : ∀ s, C s (.external (.submitPriceUnsigned price))) : system.Reach C (filled price) := by
  refine System.Reach.path (P := C) (.init rfl) (fun s op hop => ⟨hop, rfl⟩) ?_
  refine System.Path.of_forall (fun op hop s => ?_) _
  rw [eq_of_mem_replicate hop]
  exact h s

end Demo

theorem avgPrice_within_demo :
    (Demo.filled 2000).avgPrice = some 2000 ∧
      ∃ amount, (Demo.filled 2000).getDbcAmountByValue 6 = some amount ∧
        6 * 1000000000000000 / 3000 ≤ amount ∧ amount ≤ 6 * 1000000000000000 / 1000 := by
  have hreach : system.Reach (fun s op => op.Within 1000 3000 s) (Demo.filled 2000) :=
    Demo.filled_reach fun _ => ⟨by decide, by decide⟩
  have havg : (Demo.filled 2000).avgPrice = some 2000 := by decide +kernel
  have h := avgPrice_within 1000 3000 (by decide) _ hreach 2000 havg
  exact ⟨havg, h.2.2 (by decide) 6 (by decide)⟩

/-- Nobody but an outsider submits a price, and the outsider submits 64 times one millionth: the
average leaves the interval from 1000 to 3000 of the workers and root. -/
theorem external_submissions_set_avgPrice :
    ∃ s : State, system.Reach (fun s op => op.Honest 1000 3000 s) s ∧ s.avgPrice = some 1 ∧
      s.getDbcAmountByValue 6 = some (6 * 1000000000000000) :=
  ⟨Demo.filled 1, Demo.filled_reach fun _ => ⟨by decide, by decide⟩, by decide +kernel,
    by decide +kernel⟩

end DeepBrainChain.DbcPriceOcw
