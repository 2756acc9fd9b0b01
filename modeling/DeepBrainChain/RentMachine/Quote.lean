import DeepBrainChain.RentMachine.Ledger

/-!
# The quoted fee and the charged fee

`rent_machine_by_block` cuts the duration to the longest one that is allowed and stakes the fee for
it. The query `get_dbc_machine_rent_fee` takes the duration as it is and cuts the fee to 64 bits.
Where a dearer rent costs more coins, the two agree only on rents that are not cut, up to the
rounding to whole units of value.
-/

namespace DeepBrainChain.RentMachine

open Lib GenericFunc Support Lib.Call StorageMap Option
open DbcPriceOcw (oneDbc)

/-! ## What a value costs -/

section

open DbcPriceOcw

theorem getDbcAmountByValue_eq_some {p : DbcPriceOcw.State} {price value f : Nat}
    (hp : p.avgPrice = some price) (hv : value ≤ u64Max) :
    p.getDbcAmountByValue value = some f ↔ price ≠ 0 ∧ value * oneDbc / price = f := by
  have hfit : value * oneDbc ≤ u128Max := (Nat.mul_le_mul_right _ hv).trans (by decide)
  unfold State.getDbcAmountByValue checkedDiv
  rw [hp, checkedMul_eq_some.2 ⟨hfit, rfl⟩]
  by_cases h : price = 0 <;> simp [h]

theorem amount_lt {price v w : Nat} (hpos : price ≠ 0) (hcheap : price ≤ oneDbc) (h : v < w) :
    v * oneDbc / price < w * oneDbc / price := by
  have hstep : v * oneDbc + price ≤ w * oneDbc := by
    have hmul := Nat.mul_le_mul_right oneDbc h
    rw [Nat.succ_mul] at hmul
    omega
  calc v * oneDbc / price < v * oneDbc / price + 1 := Nat.lt_succ_self _
    _ = (v * oneDbc + price) / price := (Nat.add_div_right _ (Nat.pos_of_ne_zero hpos)).symm
    _ ≤ w * oneDbc / price := Nat.div_le_div_right hstep

end

/-! ## The two fees -/

section

variable {A : Type} [LinearOrder A] {s s' : State A} {i : MachineInfo A}

variable {fee price gpuNum duration : Nat} {m : MachineId}

/-- The longest duration that is charged. -/
def State.durationCap (s : State A) : Nat := saturatingMul u32Max s.maximumRentalDuration oneDay

theorem rentFee_cost (h : (rentFee i gpuNum duration).run s = (.ok fee, s')) :
    ∃ price, s.getMachinePrice i.calcPoint gpuNum i.gpuNum = some price ∧
      price * duration ≤ u64Max ∧ s.dbcPrice (price * duration / oneDay) = some fee := by
  unfold rentFee at h
  simp only [run_ok] at h
  obtain ⟨price, hprice, value, hvalue, hfee, -⟩ := h
  obtain ⟨hfit, rfl⟩ := checkedMul_eq_some.1 hvalue
  exact ⟨price, hprice, hfit, hfee⟩

theorem getDbcMachineRentFee_eq_ok (hi : s.machine m = some i)
    (hprice : s.getMachinePrice i.calcPoint gpuNum i.gpuNum = some price) :
    s.getDbcMachineRentFee m duration gpuNum = .ok fee ↔ price * duration ≤ u64Max ∧
      (s.dbcPrice (price * duration / oneDay)).map (min u64Max) = some fee := by
  unfold State.getDbcMachineRentFee State.rentValue
  rw [hi]
  simp only [QuoteError.okOr, bind, Except.bind, hprice]
  cases hvalue : checkedMul u64Max price duration with
  | none =>
    have hover : ¬ price * duration ≤ u64Max :=
      fun hle => by simp [checkedMul_eq_some.2 ⟨hle, rfl⟩] at hvalue
    simp [hover]
  | some value =>
    obtain ⟨hfit, rfl⟩ := checkedMul_eq_some.1 hvalue
    cases hdbc : s.dbcPrice (price * duration / oneDay) with
    | none => simp [hdbc]
    | some f => simp [hdbc, hfit]

/-- The order of a rent has the fee for the duration that is charged as its stake. -/
theorem rentMachineByBlock_cost {renter : A}
    (h : (rentMachineByBlock renter m gpuNum duration).run s = (.ok (), s'))
    (hnew : s'.book.nextRentId ≠ s.book.nextRentId) :
    ∃ i o price, s.machine m = some i ∧ s'.book.rentInfo.get s.book.nextRentId = some o ∧
      s.getMachinePrice i.calcPoint gpuNum i.gpuNum = some price ∧
      price * min duration s.durationCap ≤ u64Max ∧
      s.dbcPrice (price * min duration s.durationCap / oneDay) = some o.stakeAmount := by
  unfold rentMachineByBlock at h
  simp only [run_ok] at h
  obtain ⟨i, hi, h⟩ := h
  split at h
  · simp only [run_ok] at h
    rw [h] at hnew
    exact absurd rfl hnew
  · simp only [run_ok] at h
    obtain ⟨-, -, -, _, s1, hpay, fee, s2, hfee, rentEnd, -, _, s3, hstake, h⟩ := h
    obtain ⟨price, hcost⟩ := rentFee_cost hfee
    obtain rfl := rentFee_same hfee
    have hbook := (payFixedTxFee_freeOnly hpay).book
    obtain ⟨b, -, rfl⟩ := stake_ok hstake
    obtain ⟨-, -, -, cards, orders, horder⟩ := placeOrder_ok h
    refine ⟨i, .new m renter s2.now rentEnd fee gpuNum cards, price, hi, ?_, ?_⟩
    · rw [horder, ← hbook]
      exact StorageMap.get_insert_self ..
    · -- the fee of the call itself changes neither the prices nor the machines
      unfold profile OnlineProfile.payFixedTxFee GenericFunc.payFixedTxFee at hpay
      simp only [run_ok, run_zoom_ok] at hpay
      obtain ⟨_, ⟨_, ⟨paid, -, -, rfl⟩, rfl⟩, rfl⟩ := hpay
      exact hcost

/-- A fee cut to `m` against the fee of a smaller value. -/
theorem min_eq_iff {m f g v w : Nat} (hle : v ≤ w) (heq : v = w → f = g) (hlt : v < w → f < g) :
    min m g = f ↔ f ≤ m ∧ (w = v ∨ f = m) := by
  omega

/-- **When the quoted fee is the stake of the order**: while a unit of value buys the smallest
amount at least, exactly if the fee fits into 64 bits and what was cut from the duration is worth
no unit, or the stake is just the greatest quote. -/
theorem quote_eq_stake_iff (s s' : State A) (renter : A) (m : MachineId) (gpuNum duration : Nat)
    (p : DbcPriceOcw.State) (dbc : Nat) (hdbc : p.avgPrice = some dbc) (hcheap : dbc ≤ oneDbc)
    (hp : ∀ v ≤ u64Max, s.dbcPrice v = p.getDbcAmountByValue v)
    (h : (rentMachineByBlock renter m gpuNum duration).run s = (.ok (), s'))
    (hnew : s'.book.nextRentId ≠ s.book.nextRentId) :
    ∃ i o price charged fee, s.machine m = some i ∧
      s'.book.rentInfo.get s.book.nextRentId = some o ∧
      s.getMachinePrice i.calcPoint gpuNum i.gpuNum = some price ∧
      charged = price * min duration s.durationCap / oneDay ∧ fee = charged * oneDbc / dbc ∧
      o.stakeAmount = fee ∧
      (s.getDbcMachineRentFee m duration gpuNum = .ok o.stakeAmount ↔
        price * duration ≤ u64Max ∧ fee ≤ u64Max ∧
          (price * duration / oneDay = charged ∨ fee = u64Max)) := by
  obtain ⟨i, o, price, hi, ho, hprice, hfit, hstake⟩ := rentMachineByBlock_cost h hnew
  have hsmall : ∀ d, price * d ≤ u64Max → price * d / oneDay ≤ u64Max :=
    fun d hd => (Nat.div_le_self ..).trans hd
  rw [hp _ (hsmall _ hfit), getDbcAmountByValue_eq_some hdbc (hsmall _ hfit)] at hstake
  obtain ⟨hpos, hstake⟩ := hstake
  refine ⟨i, o, price, _, _, hi, ho, hprice, rfl, rfl, hstake.symm, ?_⟩
  rw [getDbcMachineRentFee_eq_ok hi hprice, ← hstake]
  refine and_congr_right fun hlong => ?_
  rw [hp _ (hsmall _ hlong), (getDbcAmountByValue_eq_some hdbc (hsmall _ hlong)).2 ⟨hpos, rfl⟩,
    map_some, some.injEq]
  -- the query prices the duration before it is cut
  refine min_eq_iff (Nat.div_le_div_right (Nat.mul_le_mul_left _ (Nat.min_le_left ..))) ?_
    (amount_lt hpos hcheap)
  intro hsame
  rw [hsame]

end

namespace QuoteDemo

open RosterDemo

/-- The machine is online, and is rented out for a day at most. -/
def online : State Nat :=
  { (after (bring ++ rent.take 2)).state with dbcPrice := some, maximumRentalDuration := 1 }

/-- The price at which a unit of value buys a unit of coin. -/
def prices : DbcPriceOcw.State := { DbcPriceOcw.State.fresh with avgPrice := some oneDbc }

end QuoteDemo

open QuoteDemo RosterDemo in
theorem quote_eq_stake_short :
    (online.getDbcMachineRentFee machineId 300 2).toOption =
      (((rentMachineByBlock 3 machineId 2 300).run online).2.book.rentInfo.get 0).map
        (·.stakeAmount) := by
  obtain ⟨⟨⟩, hrun⟩ := run_of_isOk (c := rentMachineByBlock 3 machineId 2 300) (s := online)
    (by decide +kernel)
  have hp : ∀ v ≤ u64Max, online.dbcPrice v = prices.getDbcAmountByValue v := by
    intro v hv
    rw [(getDbcAmountByValue_eq_some rfl hv).2 ⟨by decide, Nat.mul_div_cancel v (by decide)⟩]
    rfl
  obtain ⟨i, o, price, _, _, hi, ho, hprice, rfl, rfl, -, hiff⟩ :=
    quote_eq_stake_iff online _ 3 machineId 2 300 prices oneDbc rfl (Nat.le_refl _) hp hrun
      (by decide +kernel)
  have hprice' : ((online.machine machineId).bind fun i =>
      online.getMachinePrice i.calcPoint 2 i.gpuNum) = some 500 := by
    decide +kernel
  rw [hi, bind_some, hprice, some.injEq] at hprice'
  subst hprice'
  have hshort : min 300 online.durationCap = 300 := by decide +kernel
  have hzero : online.book.nextRentId = 0 := by decide +kernel
  rw [hzero] at ho
  rw [hrun, hiff.2 ⟨by decide, by rw [hshort]; decide, .inl (by rw [hshort])⟩]
  simp only [ho, map_some]
  rfl

open QuoteDemo RosterDemo in
/-- Two days are quoted and one day is charged. -/
theorem long_rent_quoted_higher :
    ((rentMachineByBlock 3 machineId 2 28800).run online).1.isOk = true ∧
      (((rentMachineByBlock 3 machineId 2 28800).run online).2.book.rentInfo.get 0).map
        (·.stakeAmount) = some 500 ∧
      (online.getDbcMachineRentFee machineId 28800 2).toOption = some 1000 := by
  refine ⟨?_, ?_, ?_⟩
  · decide +kernel
  · decide +kernel
  · decide +kernel

end DeepBrainChain.RentMachine
