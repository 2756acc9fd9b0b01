import DeepBrainChain.OnlineProfile.Calls
import DeepBrainChain.Lib.Index
import DeepBrainChain.DbcPriceOcw

/-!
# The rent-machine pallet

Renters order graphics cards of a machine for a time. An order waits for its confirmation, runs,
and ends; it is listed under its renter, under its machine, under the block at which it ends and,
while it waits, under the block at which the wait is over. `Book` holds the orders and these
lists, with the functions that enter an order, confirm it, prolong it and strike it out.

The calls are `rent_machine`, `confirm_rent` and `relet_machine`. At the end of a block the orders
whose confirmation is overdue are struck out first, orders that are over second. Both loops of the
hook stop at the first error and leave the rest of their bucket as it is.
-/

namespace DeepBrainChain.RentMachine

open Lib GenericFunc Support Lib.Call

inductive RentStatus
  | waitingVerifying
  | renting
  | rentExpired
deriving DecidableEq

structure RentOrderDetail (A : Type) where
  machineId : MachineId
  renter : A
  rentStart : Nat
  confirmRent : Nat
  rentEnd : Nat
  stakeAmount : Nat
  rentStatus : RentStatus
  gpuNum : Nat
  gpuIndex : List Nat

def waitingConfirmingDelay : Nat := 15 * oneMinute

/-- `MachineGPUOrder`: the orders of a machine and the cards they hold. -/
structure MachineGPUOrder where
  rentOrder : SortedVec Nat
  usedGpu : SortedVec Nat

namespace MachineGPUOrder

def zero : MachineGPUOrder := ⟨∅, ∅⟩

/-- The loop of `gen_rentable_gpu` over the indexes that are left: the cards taken so far, and
the cards in use. -/
def genLoop (need : Nat) : List Nat → List Nat × SortedVec Nat → List Nat × SortedVec Nat
  | [], r => r
  | i :: l, (out, used) =>
    if out.length = need then (out, used)
    else if i ∈ used then genLoop need l (out, used)
    else genLoop need l (out ++ [i], used.addItem i)

/-- `MachineGPUOrder::gen_rentable_gpu`: the cards taken, and the orders after it. -/
def genRentableGpu (x : MachineGPUOrder) (need total : Nat) : List Nat × MachineGPUOrder :=
  let r := genLoop need (List.range total) ([], x.usedGpu)
  (r.1, { x with usedGpu := r.2 })

def addOrder (x : MachineGPUOrder) (id : Nat) : MachineGPUOrder :=
  { x with rentOrder := x.rentOrder.addItem id }

def cleanExpiredOrder (x : MachineGPUOrder) (id : Nat) (gpuIndex : List Nat) : MachineGPUOrder where
  rentOrder := x.rentOrder.rmItem id
  usedGpu := gpuIndex.foldl SortedVec.rmItem x.usedGpu

end MachineGPUOrder

structure Book (A : Type) where
  rentInfo : StorageMap Nat (RentOrderDetail A)
  nextRentId : Nat
  userOrder : Index A Nat
  machineRentOrder : StorageMap MachineId MachineGPUOrder
  confirmingOrder : Index Nat Nat
  rentEnding : Index Nat Nat

structure State (A : Type) [LinearOrder A] extends toProfile : OnlineProfile.State A where
  book : Book A
  userTotalStake : StorageMap A Nat
  rentFeePot : Option A
  maximumRentalDuration : Nat
  machineRenterRentedOrders : StorageMap (MachineId × A) (List (Nat × Nat × Nat))

/-- The errors of the pallet. `ledger` stands for an error of the balances pallet, `diverges` for
a search of a free order identifier that does not end. -/
inductive Error
  | overflow
  | insufficientValue
  | expiredConfirm
  | noOrderExist
  | statusNotAllowed
  | unlockToPayFeeFailed
  | undefinedRentPot
  | payTxFeeFailed
  | getMachinePriceFailed
  | onlyHalfHourAllowed
  | gpuNotEnough
  | notMachineRenter
  | unknown
  | reletTooShort
  | machineNotRentable
  | ledger
  | diverges
deriving DecidableEq

section

variable {A : Type} [LinearOrder A]

section

omit [LinearOrder A]

def RentOrderDetail.new (m : MachineId) (renter : A) (rentStart rentEnd stake gpuNum : Nat)
    (gpuIndex : List Nat) : RentOrderDetail A :=
  ⟨m, renter, rentStart, 0, rentEnd, stake, .waitingVerifying, gpuNum, gpuIndex⟩

def RentOrderDetail.confirmed (o : RentOrderDetail A) (now : Nat) : RentOrderDetail A :=
  { o with confirmRent := now, rentStatus := .renting, stakeAmount := 0 }

def RentOrderDetail.setRentEnd (o : RentOrderDetail A) (rentEnd : Nat) : RentOrderDetail A :=
  { o with rentEnd := rentEnd }

/-- The block at which the wait for a confirmation is over. The sum cannot wrap: the end of an order
is later, and was added up with a check. -/
def RentOrderDetail.confirmEnd (o : RentOrderDetail A) : Nat :=
  o.rentStart + waitingConfirmingDelay

end

namespace Book

section

omit [LinearOrder A]

def machineOrders (b : Book A) (m : MachineId) : MachineGPUOrder := b.machineRentOrder.getD m .zero

def succId (id : Nat) : Nat := if id = u64Max then 0 else id + 1

end

/-- Enter an order under the next identifier; `orders` are the orders of its machine, with the
cards of the order taken. -/
def insertOrder (b : Book A) (o : RentOrderDetail A) (orders : MachineGPUOrder) : Book A where
  rentInfo := b.rentInfo.insert b.nextRentId o
  nextRentId := succId b.nextRentId
  userOrder := b.userOrder.addTo o.renter b.nextRentId
  machineRentOrder := b.machineRentOrder.insert o.machineId (orders.addOrder b.nextRentId)
  confirmingOrder := b.confirmingOrder.addTo o.confirmEnd b.nextRentId
  rentEnding := b.rentEnding.addTo o.rentEnd b.nextRentId

section

omit [LinearOrder A]

/-- Write `o'` over an order `o` that waited, and no longer list it as waiting. -/
def confirmAs (b : Book A) (id : Nat) (o o' : RentOrderDetail A) : Book A :=
  { b with
    rentInfo := b.rentInfo.insert id o'
    confirmingOrder := b.confirmingOrder.rmFrom o.confirmEnd id }

/-- Write `o'` over an order `o`, and list it under its new end. -/
def prolongAs (b : Book A) (id : Nat) (o o' : RentOrderDetail A) : Book A :=
  { b with
    rentInfo := b.rentInfo.insert id o'
    rentEnding := (b.rentEnding.rmFrom o.rentEnd id).addTo o'.rentEnd id }

def confirmOrder (b : Book A) (id : Nat) (o : RentOrderDetail A) (now : Nat) : Book A :=
  b.confirmAs id o (o.confirmed now)

def prolongOrder (b : Book A) (id : Nat) (o : RentOrderDetail A) (rentEnd : Nat) : Book A :=
  b.prolongAs id o (o.setRentEnd rentEnd)

end

/-- Strike an order out, except from the list of those that wait. -/
def removeOrder (b : Book A) (id : Nat) (o : RentOrderDetail A) : Book A :=
  { b with
    rentInfo := b.rentInfo.remove id
    userOrder := b.userOrder.rmFrom o.renter id
    machineRentOrder := b.machineRentOrder.insert o.machineId
      ((b.machineOrders o.machineId).cleanExpiredOrder id o.gpuIndex)
    rentEnding := b.rentEnding.rmFrom o.rentEnd id }

omit [LinearOrder A] in
def rmConfirming (b : Book A) (block id : Nat) : Book A :=
  { b with confirmingOrder := b.confirmingOrder.rmFrom block id }

end Book

namespace State

def setProfile (p : OnlineProfile.State A) (s : State A) : State A := { s with toProfile := p }

def mapBook (s : State A) (f : Book A → Book A) : State A := { s with book := f s.book }

def setUserTotalStake (s : State A) (who : A) (amount : Nat) : State A :=
  { s with userTotalStake := s.userTotalStake.insert who amount }

def setBalances (s : State A) (b : Balances A) : State A := { s with balances := b }

/-- Remember an interval a renter paid for. -/
def addRented (s : State A) (m : MachineId) (renter : A) (id rentStart rentEnd : Nat) : State A :=
  { s with
    machineRenterRentedOrders := s.machineRenterRentedOrders.insert (m, renter)
      (s.machineRenterRentedOrders.getD (m, renter) [] ++ [(id, rentStart, rentEnd)]) }

end State

/-! ## Calls -/

def profile {ε α : Type} (c : Call (OnlineProfile.State A) ε α) : Call (State A) ε α :=
  c.zoom (fun s => s.toProfile) State.setProfile

def changeRenterTotalStake (who : A) (amount : Nat) (isAdd : Bool) : Call (State A) Unit Unit := do
  let s ← get
  let old := s.userTotalStake.getD who 0
  if isAdd then do
    let balances ← okOr (s.balances.reserve who amount) ()
    set (s.setBalances balances)
    let new ← okOr (checkedAdd u128Max old amount) ()
    modify fun s => s.setUserTotalStake who new
  else do
    ensure (amount ≤ old) ()
    set ((s.setBalances (s.balances.unreserve who amount).1).setUserTotalStake who
      (old - amount))

/-- `pay_rent_fee`. What online-profile makes of the fee may fail half way. -/
def payRentFee (renter : A) (m : MachineId) (stash : A) (fee : Nat) :
    Call (State A) Error Unit := do
  let s ← get
  let pot ← okOr s.rentFeePot .undefinedRentPot
  let toDestroy := s.grades.rentFeeDestroyPercent.mul fee
  let toStash ← okOr (checkedSub fee toDestroy) .overflow
  let b ← okOr (s.balances.transfer renter stash toStash) .ledger
  let b ← okOr (b.transfer renter pot toDestroy) .ledger
  set (s.setBalances b)
  ignore (profile (OnlineProfile.changeMachineRentFee stash m toDestroy toStash))

def rentFee (i : MachineInfo A) (gpuNum duration : Nat) : Call (State A) Error Nat := do
  let s ← get
  let price ← okOr (s.getMachinePrice i.calcPoint gpuNum i.gpuNum) .getMachinePriceFailed
  let value ← okOr (checkedMul u64Max price duration) .overflow
  okOr (s.dbcPrice (value / oneDay)) .overflow

/-- The end of `rent_machine_by_block`, once the stake is paid: the search for an identifier, and
the order. -/
def placeOrder (renter : A) (m : MachineId) (gpuNum total rentEnd fee : Nat) :
    Call (State A) Error Unit := do
  let s ← get
  ensure (s.book.rentInfo.get (Book.succId s.book.nextRentId) = none) .diverges
  let taken := (s.book.machineOrders m).genRentableGpu gpuNum total
  (profile (OnlineProfile.changeMachineStatusOnRentStart m gpuNum)).mapError fun _ => .unknown
  modify fun s => s.mapBook fun b =>
    b.insertOrder (.new m renter s.now rentEnd fee gpuNum taken.1) taken.2

/-- `rent_machine_by_block`. The sum of the cards is unchecked. -/
def rentMachineByBlock (renter : A) (m : MachineId) (gpuNum duration : Nat) :
    Call (State A) Error Unit := do
  let s ← get
  let i ← okOr (s.machine m) .unknown
  if i.gpuNum = 0 ∨ duration = 0 then pure ()
  else do
    ensure (wrappingAdd u32Max gpuNum (s.machines.rentedGpu m) ≤ i.gpuNum) .gpuNotEnough
    ensure (duration % halfHour = 0) .onlyHalfHourAllowed
    ensure (i.machineStatus = .online ∨ i.machineStatus = .rented) .machineNotRentable
    let duration := min duration (saturatingMul u32Max s.maximumRentalDuration oneDay)
    (profile (OnlineProfile.payFixedTxFee renter)).mapError fun _ => .payTxFeeFailed
    let fee ← rentFee i gpuNum duration
    let rentEnd ← okOr (checkedAdd u32Max duration s.now) .overflow
    (changeRenterTotalStake renter fee true).mapError fun _ => .insufficientValue
    placeOrder renter m gpuNum i.gpuNum rentEnd fee

def confirmRent (renter : A) (id : Nat) : Call (State A) Error Unit := do
  let s ← get
  let o ← okOr (s.book.rentInfo.get id) .unknown
  ensure (o.renter = renter) .noOrderExist
  ensure (o.rentStatus = .waitingVerifying) .noOrderExist
  let waited ← okOr (checkedSub s.now o.rentStart) .overflow
  ensure (waited ≤ waitingConfirmingDelay) .expiredConfirm
  let i ← okOr (s.machine o.machineId) .unknown
  ensure (i.machineStatus = .rented) .statusNotAllowed
  (changeRenterTotalStake renter o.stakeAmount false).mapError fun _ => .unlockToPayFeeFailed
  payRentFee renter o.machineId i.machineStash o.stakeAmount
  (profile (OnlineProfile.changeMachineStatusOnConfirmed o.machineId renter)).mapError
    fun _ => .unknown
  modify fun s => (s.mapBook fun b => b.confirmOrder id o s.now).addRented o.machineId renter
    id o.rentStart o.rentEnd

/-- How much longer an order that ends at `rentEnd` may run; the wanted end is computed without
a check. -/
def reletDuration (maxRentEnd rentEnd duration : Nat) : Nat :=
  if wrappingAdd u32Max rentEnd duration ≤ maxRentEnd then duration else maxRentEnd - rentEnd

def reletMachineByBlock (renter : A) (id duration : Nat) : Call (State A) Error Unit := do
  let s ← get
  let o ← okOr (s.book.rentInfo.get id) .unknown
  ensure (10 * oneMinute ≤ duration) .reletTooShort
  ensure (o.renter = renter) .notMachineRenter
  ensure (o.rentStatus = .renting) .noOrderExist
  let i ← okOr (s.machine o.machineId) .unknown
  let maxRentEnd ← okOr (checkedAdd u32Max (60 * oneDay) s.now) .overflow
  let add := reletDuration maxRentEnd o.rentEnd duration
  if add = 0 then pure ()
  else do
    let fee ← rentFee i o.gpuNum add
    ensure (fee < s.balances.free renter) .insufficientValue
    payRentFee renter o.machineId i.machineStash fee
    let rentEnd ← okOr (checkedAdd u32Max o.rentEnd add) .overflow
    modify fun s => (s.mapBook fun b => b.prolongOrder id o rentEnd).addRented o.machineId
      renter id o.rentStart rentEnd

/-- `set_rent_fee_pot`, a root call. -/
def setRentFeePot (pot : A) : Call (State A) Error Unit :=
  modify fun s => { s with rentFeePot := some pot }

/-! ## The end of a block -/

/-- Give the stake of an order back, if there is one left. -/
def returnStake (o : RentOrderDetail A) : Call (State A) Unit Unit :=
  when (o.stakeAmount ≠ 0)
    (ignore (changeRenterTotalStake o.renter o.stakeAmount false))

/-- One round of `check_machine_starting_status`. -/
def expireOne (block id : Nat) : Call (State A) Unit Unit := do
  let s ← get
  let o ← okOr (s.book.rentInfo.get id) ()
  returnStake o
  modify fun s => s.mapBook fun b => (b.rmConfirming block id).removeOrder id o
  profile (OnlineProfile.changeMachineStatusOnConfirmExpired o.machineId o.gpuNum)

def checkMachineStartingStatus (block : Nat) : Call (State A) Unit Unit := do
  let s ← get
  forEach (s.book.confirmingOrder.bucket block).toList (expireOne block)

/-- The two counts of `is_last_rent`: whether the machine has fewer than two running orders, and
the renter fewer than two orders of it. -/
def Book.isLastRent (b : Book A) (m : MachineId) (renter : A) : Option (Bool × Bool) :=
  ((b.machineOrders m).rentOrder.toList.mapM fun id => b.rentInfo.get id).map fun orders =>
    (decide (orders.countP (fun o => o.rentStatus = .renting) < 2),
      decide (orders.countP (fun o => o.renter = renter) < 2))

/-- One round of `check_if_rent_finished`. -/
def finishOne (id : Nat) : Call (State A) Unit Unit := do
  let s ← get
  let o ← okOr (s.book.rentInfo.get id) ()
  let last ← okOr (s.book.isLastRent o.machineId o.renter) ()
  ignore (profile (OnlineProfile.changeMachineStatusOnRentEnd o.machineId o.gpuNum
    (o.rentEnd - o.rentStart) last.1 last.2 o.renter))
  returnStake o
  modify fun s => s.mapBook fun b => b.removeOrder id o

def checkIfRentFinished (block : Nat) : Call (State A) Unit Unit := do
  let s ← get
  forEach (s.book.rentEnding.bucket block).toList finishOne

def State.onFinalize (s : State A) : State A :=
  let s := ((checkMachineStartingStatus s.now).run s).2
  ((checkIfRentFinished s.now).run s).2

end

/-! # What rent-machine answers about a machine

`MachineInfoTrait`, the queries behind the machine precompile. They read the storage and leave it
as it is; a query that has no answer names the error it stopped at. -/

inductive QuoteError
  | machineNotFound
  | machineNotRented
  | notMachineRenter
  | notMachineOwner
  | getMachinePriceFailed
  | overflow
  | unknown
deriving DecidableEq

def QuoteError.asStr : QuoteError → String
  | machineNotFound => "MachineNotFound"
  | machineNotRented => "MachineNotRented"
  | notMachineRenter => "NotMachineRenter"
  | notMachineOwner => "NotMachineOwner"
  | getMachinePriceFailed => "GetMachinePriceFailed"
  | overflow => "Overflow"
  | unknown => "Unknown"

def QuoteError.okOr {α : Type} (e : QuoteError) : Option α → Except QuoteError α
  | some a => .ok a
  | none => .error e

namespace State

variable {A : Type} [LinearOrder A]

def getMachineCalcPoint (s : State A) (m : MachineId) : Nat :=
  match s.machine m with
  | some i => i.calcPoint
  | none => 0

def getMachineCpuRate (s : State A) (m : MachineId) : Nat :=
  match s.machine m with
  | some i => i.committeeUploadInfo.cpuRate
  | none => 0

def getMachineGpuTypeAndMem (s : State A) (m : MachineId) : Bytes × Nat :=
  match s.machine m with
  | some i => (i.committeeUploadInfo.gpuType, i.committeeUploadInfo.memNum)
  | none => ([], 0)

def getMachineGpuNum (s : State A) (m : MachineId) : Nat :=
  match s.machine m with
  | some i => i.gpuNum
  | none => 0

def getRentEndAt (s : State A) (m : MachineId) (rentId : Nat) : Except QuoteError Nat := do
  let i ← QuoteError.machineNotFound.okOr (s.machine m)
  let o ← QuoteError.machineNotRented.okOr (s.book.rentInfo.get rentId)
  if o.machineId ≠ m then .error .notMachineRenter
  else if o.renter ≠ i.controller ∧ o.renter ≠ i.machineStash then .error .notMachineRenter
  else .ok o.rentEnd

/-- `is_machine_owner`, for the account an address is bound to. -/
def isMachineOwner (s : State A) (m : MachineId) (account : Option A) : Except QuoteError Bool := do
  let account ← QuoteError.notMachineOwner.okOr account
  let i ← QuoteError.machineNotFound.okOr (s.machine m)
  .ok (i.controller = account ∨ i.machineStash = account)

/-- The value of a rent, before it is turned into a currency. -/
def rentValue (s : State A) (calcPoint duration rentGpuNum totalGpuNum : Nat) :
    Except QuoteError Nat := do
  let price ← QuoteError.getMachinePriceFailed.okOr
    (s.getMachinePrice calcPoint rentGpuNum totalGpuNum)
  let value ← QuoteError.overflow.okOr (checkedMul u64Max price duration)
  .ok (value / oneDay)

def getUsdtMachineRentFee (s : State A) (m : MachineId) (duration rentGpuNum : Nat) :
    Except QuoteError Nat := do
  let i ← QuoteError.unknown.okOr (s.machine m)
  s.rentValue i.calcPoint duration rentGpuNum i.gpuNum

/-- A quarter is added, in the integers of the runtime, which wrap around. -/
def getDlcMachineRentFee (s : State A) (m : MachineId) (duration rentGpuNum : Nat) :
    Except QuoteError Nat := do
  let i ← QuoteError.unknown.okOr (s.machine m)
  let value ← s.rentValue i.calcPoint duration rentGpuNum i.gpuNum
  let fee ← QuoteError.overflow.okOr
    (DbcPriceOcw.getDlcAmountByValue
      (wrappingAdd u64Max ((Perbill.fromRational 25 100).mul value) value))
  .ok (min u64Max fee)

def getDlcRentFeeByCalcPoint (s : State A) (calcPoint duration rentGpuNum totalGpuNum : Nat) :
    Except QuoteError Nat := do
  let value ← s.rentValue calcPoint duration rentGpuNum totalGpuNum
  let fee ← QuoteError.overflow.okOr (DbcPriceOcw.getDlcAmountByValue value)
  .ok (min u64Max fee)

def getDbcMachineRentFee (s : State A) (m : MachineId) (duration rentGpuNum : Nat) :
    Except QuoteError Nat := do
  let i ← QuoteError.unknown.okOr (s.machine m)
  let value ← s.rentValue i.calcPoint duration rentGpuNum i.gpuNum
  let fee ← QuoteError.overflow.okOr (s.dbcPrice value)
  .ok (min u64Max fee)

end State

/-! # The order book

`Book.Listed` says that the four lists of the book lead to exactly the orders there are, and
`Book.Cards` that the cards in use on a machine are divided among its orders. Both are kept by
entering, confirming, prolonging and striking out an order. -/

open StorageMap SortedVec List Option

section

variable {A : Type} [LinearOrder A]

omit [LinearOrder A] in
/-- The block under which an order waits for its confirmation, while it does. -/
def RentOrderDetail.confirmKey (o : RentOrderDetail A) : Option Nat :=
  if o.rentStatus = .waitingVerifying then some o.confirmEnd else none

/-- **The lists are exact**, and the next identifier is free. -/
structure Book.Listed (b : Book A) : Prop where
  user : Exact b.rentInfo.get (fun r id => id ∈ b.userOrder.bucket r) fun o => some o.renter
  machine : Exact b.rentInfo.get (fun m id => id ∈ (b.machineOrders m).rentOrder)
    fun o => some o.machineId
  confirming : Exact b.rentInfo.get (fun n id => id ∈ b.confirmingOrder.bucket n)
    RentOrderDetail.confirmKey
  ending : Exact b.rentInfo.get (fun n id => id ∈ b.rentEnding.bucket n) fun o => some o.rentEnd
  fresh : b.rentInfo.get b.nextRentId = none

def Book.demand (b : Book A) (m : MachineId) : Nat :=
  b.rentInfo.sum fun _ o => if o.machineId = m then o.gpuNum else 0

/-- **The cards in use are divided among the orders**: every order has as many distinct cards as
it asked for, no two orders of a machine share one, and no other card is in use. -/
structure Book.Cards (b : Book A) : Prop where
  used : ∀ m j, j ∈ (b.machineOrders m).usedGpu ↔
    ∃ id o, b.rentInfo.get id = some o ∧ o.machineId = m ∧ j ∈ o.gpuIndex
  disjoint : ∀ {id id' o o' j}, b.rentInfo.get id = some o → b.rentInfo.get id' = some o' →
    id ≠ id' → o.machineId = o'.machineId → j ∈ o.gpuIndex → j ∉ o'.gpuIndex
  nodup : ∀ {id o}, b.rentInfo.get id = some o → o.gpuIndex.Nodup
  count : ∀ {id o}, b.rentInfo.get id = some o → o.gpuIndex.length = o.gpuNum
  usedCount : ∀ m, (b.machineOrders m).usedGpu.length = b.demand m

theorem Book.succId_ne (id : Nat) : Book.succId id ≠ id := by
  unfold Book.succId u64Max
  split <;> omega

theorem Book.machineOrders_insert (x : StorageMap MachineId MachineGPUOrder) (m m' : MachineId)
    (y : MachineGPUOrder) : (x.insert m y).getD m' .zero = if m' = m then y else x.getD m' .zero :=
  getD_insert ..

/-! ## Entering an order -/

section Insert

variable {b : Book A} {o : RentOrderDetail A} {orders : MachineGPUOrder}

theorem Book.machineOrders_insertOrder (m : MachineId) :
    (b.insertOrder o orders).machineOrders m =
      if m = o.machineId then orders.addOrder b.nextRentId else b.machineOrders m :=
  Book.machineOrders_insert ..

theorem Book.get_insertOrder (id : Nat) :
    (b.insertOrder o orders).rentInfo.get id =
      if id = b.nextRentId then some o else b.rentInfo.get id :=
  get_insert ..

theorem Book.Listed.insertOrder (h : b.Listed) (hw : o.rentStatus = .waitingVerifying)
    (hnext : b.rentInfo.get (Book.succId b.nextRentId) = none)
    (horders : orders.rentOrder = (b.machineOrders o.machineId).rentOrder) :
    (b.insertOrder o orders).Listed where
  user := by
    refine h.user.insert h.fresh Book.get_insertOrder fun k j => ?_
    show j ∈ (b.userOrder.addTo o.renter b.nextRentId).bucket k ↔ _
    rw [Index.mem_addTo, some.injEq, eq_comm]
  machine := by
    refine h.machine.insert h.fresh Book.get_insertOrder fun k j => ?_
    rw [Book.machineOrders_insertOrder]
    split
    · next hk =>
      subst hk
      simp [MachineGPUOrder.addOrder, horders, or_comm]
    · next hk => simp [Ne.symm hk]
  confirming := by
    refine h.confirming.insert h.fresh Book.get_insertOrder fun k j => ?_
    show j ∈ (b.confirmingOrder.addTo o.confirmEnd b.nextRentId).bucket k ↔ _
    rw [Index.mem_addTo, RentOrderDetail.confirmKey, if_pos hw, some.injEq, eq_comm]
  ending := by
    refine h.ending.insert h.fresh Book.get_insertOrder fun k j => ?_
    show j ∈ (b.rentEnding.addTo o.rentEnd b.nextRentId).bucket k ↔ _
    rw [Index.mem_addTo, some.injEq, eq_comm]
  fresh := by
    show (b.insertOrder o orders).rentInfo.get (Book.succId b.nextRentId) = none
    rw [Book.get_insertOrder, if_neg (Book.succId_ne _), hnext]

theorem Book.demand_insertOrder (hfresh : b.rentInfo.get b.nextRentId = none) (m : MachineId) :
    (b.insertOrder o orders).demand m = (if o.machineId = m then o.gpuNum else 0) + b.demand m :=
  sum_insert_of_none _ o hfresh

end Insert

/-! ## Taking cards -/

namespace MachineGPUOrder

/-- What the search for free cards finds: new cards of the list, none in use, as many as are
needed if there are enough. -/
theorem genLoop_spec (need : Nat) (l : List Nat) (out : List Nat) (used : SortedVec Nat)
    (hl : l.Nodup) : ∃ new, (genLoop need l (out, used)).1 = out ++ new ∧ new.Nodup ∧
      (∀ j ∈ new, j ∈ l ∧ j ∉ used) ∧
      (∀ j, j ∈ (genLoop need l (out, used)).2 ↔ j ∈ used ∨ j ∈ new) ∧
      (genLoop need l (out, used)).2.length = used.length + new.length ∧
      (out.length ≤ need → need ≤ out.length + (l.filter (· ∉ used)).length →
        out.length + new.length = need) := by
  induction l generalizing out used with
  | nil =>
    refine ⟨[], by simp [genLoop], nodup_nil, by simp, by simp [genLoop], by simp [genLoop],
      fun h h' => ?_⟩
    simp only [filter_nil, length_nil] at h' ⊢
    omega
  | cons i l ih =>
    obtain ⟨hi, hl⟩ := nodup_cons.1 hl
    unfold genLoop
    by_cases hlen : out.length = need
    · rw [if_pos hlen]
      exact ⟨[], by simp, nodup_nil, by simp, by simp, by simp, fun _ _ => by simpa using hlen⟩
    · rw [if_neg hlen]
      by_cases hu : i ∈ used
      · rw [if_pos hu]
        obtain ⟨new, h1, h2, h3, h4, h5, h6⟩ := ih out used hl
        refine ⟨new, h1, h2, fun j hj => ⟨mem_cons_of_mem i (h3 j hj).1, (h3 j hj).2⟩, h4, h5,
          fun h h' => h6 h ?_⟩
        simpa [hu] using h'
      · rw [if_neg hu]
        obtain ⟨new, h1, h2, h3, h4, h5, h6⟩ := ih (out ++ [i]) (used.addItem i) hl
        have hnew : i ∉ new := fun h => (h3 i h).2 (mem_addItem.2 (.inl rfl))
        refine ⟨i :: new, by simpa using h1, nodup_cons.2 ⟨hnew, h2⟩, ?_, ?_, ?_, ?_⟩
        · intro j hj
          rcases mem_cons.1 hj with rfl | hj
          · exact ⟨mem_cons_self, hu⟩
          · have hj' := h3 j hj
            rw [mem_addItem, not_or] at hj'
            exact ⟨mem_cons_of_mem i hj'.1, hj'.2.2⟩
        · intro j
          rw [h4, mem_addItem, mem_cons]
          tauto
        · rw [h5, length_addItem hu, length_cons]
          omega
        · intro h h'
          have hfilter : l.filter (· ∉ used.addItem i) = l.filter (· ∉ used) := by
            refine filter_congr fun j hj => ?_
            have hne : j ≠ i := fun e => hi (e ▸ hj)
            simp [hne]
          have hcons : ((i :: l).filter (· ∉ used)).length = (l.filter (· ∉ used)).length + 1 := by
            simp [hu]
          rw [hfilter] at h6
          simp only [length_append, length_cons, length_nil] at h6 ⊢
          have := h6 (by omega) (by omega)
          omega

theorem free_cards (used : SortedVec Nat) (total : Nat) :
    total ≤ used.length + ((List.range total).filter (· ∉ used)).length := by
  have hsplit := length_eq_length_filter_add (l := List.range total) (· ∈ used)
  have hsub : ((List.range total).filter (· ∈ used)).length ≤ used.length := by
    refine (subperm_of_subset (nodup_range.filter _) fun j hj => ?_).length_le
    simpa using (mem_filter.1 hj).2
  have hnot : (List.range total).filter (fun j => !decide (j ∈ used)) =
      (List.range total).filter (· ∉ used) := by
    refine filter_congr fun j _ => ?_
    simp
  rw [length_range, hnot] at hsplit
  omega

theorem genRentableGpu_spec (x : MachineGPUOrder) (need total : Nat)
    (hfree : need + x.usedGpu.length ≤ total) :
    (x.genRentableGpu need total).1.Nodup ∧ (x.genRentableGpu need total).1.length = need ∧
      (∀ j ∈ (x.genRentableGpu need total).1, j < total ∧ j ∉ x.usedGpu) ∧
      (∀ j, j ∈ (x.genRentableGpu need total).2.usedGpu ↔
        j ∈ x.usedGpu ∨ j ∈ (x.genRentableGpu need total).1) ∧
      (x.genRentableGpu need total).2.usedGpu.length = x.usedGpu.length + need := by
  obtain ⟨new, h1, h2, h3, h4, h5, h6⟩ :=
    genLoop_spec need (List.range total) [] x.usedGpu nodup_range
  have hcards := free_cards x.usedGpu total
  have hlen : new.length = need := by
    simpa using h6 (Nat.zero_le _) (by simp only [length_nil]; omega)
  unfold genRentableGpu
  simp only [h1, nil_append]
  refine ⟨h2, hlen, fun j hj => ⟨mem_range.1 (h3 j hj).1, (h3 j hj).2⟩, h4, ?_⟩
  rw [h5, hlen]

end MachineGPUOrder

theorem Book.Cards.insertOrder {b : Book A} {o : RentOrderDetail A} {orders : MachineGPUOrder}
    (h : b.Cards) (hfresh : b.rentInfo.get b.nextRentId = none) (hnodup : o.gpuIndex.Nodup)
    (hcount : o.gpuIndex.length = o.gpuNum)
    (hfree : ∀ j ∈ o.gpuIndex, j ∉ (b.machineOrders o.machineId).usedGpu)
    (hused : ∀ j, j ∈ orders.usedGpu ↔ j ∈ (b.machineOrders o.machineId).usedGpu ∨ j ∈ o.gpuIndex)
    (hlen : orders.usedGpu.length = (b.machineOrders o.machineId).usedGpu.length + o.gpuNum) :
    (b.insertOrder o orders).Cards := by
  -- the cards of an older order of the machine are in use
  have hold : ∀ {id o' j}, b.rentInfo.get id = some o' → o'.machineId = o.machineId →
      j ∈ o'.gpuIndex → j ∉ o.gpuIndex :=
    fun hid hm hj hj' => hfree _ hj' ((h.used _ _).2 ⟨_, _, hid, hm, hj⟩)
  refine ⟨fun m j => ?_, fun {id id' o1 o2 j} h1 h2 hne hm hj => ?_, fun {id o'} hid => ?_,
    fun {id o'} hid => ?_, fun m => ?_⟩
  · have hsplit : (∃ id o', (b.insertOrder o orders).rentInfo.get id = some o' ∧
        o'.machineId = m ∧ j ∈ o'.gpuIndex) ↔
        (o.machineId = m ∧ j ∈ o.gpuIndex) ∨ j ∈ (b.machineOrders m).usedGpu := by
      rw [h.used m j]
      constructor
      · rintro ⟨id, o', hid, hm, hj⟩
        rw [Book.get_insertOrder] at hid
        split at hid
        · cases hid
          exact .inl ⟨hm, hj⟩
        · exact .inr ⟨id, o', hid, hm, hj⟩
      · rintro (⟨hm, hj⟩ | ⟨id, o', hid, hm, hj⟩)
        · exact ⟨b.nextRentId, o, by rw [Book.get_insertOrder, if_pos rfl], hm, hj⟩
        · refine ⟨id, o', ?_, hm, hj⟩
          rw [Book.get_insertOrder, if_neg, hid]
          rintro rfl
          rw [hfresh] at hid
          cases hid
    rw [hsplit, Book.machineOrders_insertOrder]
    by_cases hm : m = o.machineId
    · subst hm
      rw [if_pos rfl]
      show j ∈ orders.usedGpu ↔ _
      rw [hused, or_comm]
      simp
    · rw [if_neg hm]
      simp [Ne.symm hm]
  · rw [Book.get_insertOrder] at h1 h2
    by_cases e1 : id = b.nextRentId
    · rw [if_pos e1] at h1
      rw [if_neg (fun e => hne (e1.trans e.symm))] at h2
      cases h1
      exact fun hj' => hold h2 hm.symm hj' hj
    · rw [if_neg e1] at h1
      by_cases e2 : id' = b.nextRentId
      · rw [if_pos e2] at h2
        cases h2
        exact hold h1 hm hj
      · rw [if_neg e2] at h2
        exact h.disjoint h1 h2 hne hm hj
  · rw [Book.get_insertOrder] at hid
    split at hid
    · cases hid
      exact hnodup
    · exact h.nodup hid
  · rw [Book.get_insertOrder] at hid
    split at hid
    · cases hid
      exact hcount
    · exact h.count hid
  · rw [Book.demand_insertOrder hfresh, Book.machineOrders_insertOrder]
    have hu := h.usedCount m
    by_cases hm : m = o.machineId
    · subst hm
      rw [if_pos rfl, if_pos rfl]
      show orders.usedGpu.length = _
      omega
    · rw [if_neg hm, if_neg (Ne.symm hm)]
      omega

/-! ## Rewriting an order -/

section Rewrite

variable {b : Book A} {id : Nat} {o : RentOrderDetail A}

section

omit [LinearOrder A]

theorem Book.get_confirmAs (o' : RentOrderDetail A) (j : Nat) :
    (b.confirmAs id o o').rentInfo.get j = if j = id then some o' else b.rentInfo.get j :=
  get_insert ..

theorem Book.get_prolongAs (o' : RentOrderDetail A) (j : Nat) :
    (b.prolongAs id o o').rentInfo.get j = if j = id then some o' else b.rentInfo.get j :=
  get_insert ..

end

theorem Book.fresh_rewrite (h : b.Listed) (ho : b.rentInfo.get id = some o)
    (o' : RentOrderDetail A) : (b.rentInfo.insert id o').get b.nextRentId = none := by
  rw [get_insert_ne, h.fresh]
  rintro rfl
  rw [h.fresh] at ho
  cases ho

variable {o' : RentOrderDetail A} {b' : Book A}

theorem Book.Listed.confirmAs (h : b.Listed) (ho : b.rentInfo.get id = some o)
    (hw : o.rentStatus = .waitingVerifying) (hr : o'.rentStatus ≠ .waitingVerifying)
    (hrenter : o'.renter = o.renter) (hm : o'.machineId = o.machineId)
    (hend : o'.rentEnd = o.rentEnd) :
    (b.confirmAs id o o').Listed where
  user := h.user.rewrite ho (Book.get_confirmAs o') (congrArg some hrenter)
  machine := h.machine.rewrite ho (Book.get_confirmAs o') (congrArg some hm)
  confirming := by
    refine h.confirming.replace ho (Book.get_confirmAs o') fun k j => ?_
    show j ∈ (b.confirmingOrder.rmFrom o.confirmEnd id).bucket k ↔ _
    rw [Index.mem_rmFrom, RentOrderDetail.confirmKey, if_pos hw, RentOrderDetail.confirmKey,
      if_neg hr, some.injEq]
    simp [eq_comm]
  ending := h.ending.rewrite ho (Book.get_confirmAs o') (congrArg some hend)
  fresh := Book.fresh_rewrite h ho _

theorem Book.Listed.prolongAs (h : b.Listed) (ho : b.rentInfo.get id = some o)
    (hrenter : o'.renter = o.renter) (hm : o'.machineId = o.machineId)
    (hkey : o'.confirmKey = o.confirmKey) : (b.prolongAs id o o').Listed where
  user := h.user.rewrite ho (Book.get_prolongAs o') (congrArg some hrenter)
  machine := h.machine.rewrite ho (Book.get_prolongAs o') (congrArg some hm)
  confirming := h.confirming.rewrite ho (Book.get_prolongAs o') hkey
  ending := by
    refine h.ending.replace ho (Book.get_prolongAs o') fun k j => ?_
    show j ∈ ((b.rentEnding.rmFrom o.rentEnd id).addTo o'.rentEnd id).bucket k ↔ _
    rw [Index.mem_addTo, Index.mem_rmFrom]
    simp [eq_comm]
  fresh := Book.fresh_rewrite h ho _

theorem Book.Listed.confirmOrder (h : b.Listed) (ho : b.rentInfo.get id = some o)
    (hw : o.rentStatus = .waitingVerifying) (now : Nat) : (b.confirmOrder id o now).Listed := by
  have hrenting : (o.confirmed now).rentStatus ≠ .waitingVerifying := by
    simp [RentOrderDetail.confirmed]
  exact h.confirmAs ho hw hrenting rfl rfl rfl

theorem Book.Listed.prolongOrder (h : b.Listed) (ho : b.rentInfo.get id = some o)
    (rentEnd : Nat) : (b.prolongOrder id o rentEnd).Listed := by
  have hlisted : (b.prolongAs id o (o.setRentEnd rentEnd)).Listed := h.prolongAs ho rfl rfl rfl
  exact hlisted

section

omit [LinearOrder A]

theorem Book.demand_rewrite (hb : b'.rentInfo = b.rentInfo.insert id o')
    (ho : b.rentInfo.get id = some o) (hm : o'.machineId = o.machineId) (hg : o'.gpuNum = o.gpuNum)
    (m : MachineId) : b'.demand m = b.demand m := by
  unfold Book.demand
  rw [hb]
  refine sum_insert_same _ ho ?_
  rw [hm, hg]

theorem Book.Cards.rewrite (h : b.Cards) (hb : b'.rentInfo = b.rentInfo.insert id o')
    (hm : ∀ m, b'.machineOrders m = b.machineOrders m) (ho : b.rentInfo.get id = some o)
    (hmachine : o'.machineId = o.machineId) (hnum : o'.gpuNum = o.gpuNum)
    (hindex : o'.gpuIndex = o.gpuIndex) : b'.Cards := by
  -- every order has the machine and the cards of an order of `b`, and the other way round
  have hback : ∀ {j x}, b'.rentInfo.get j = some x → ∃ y, b.rentInfo.get j = some y ∧
      x.machineId = y.machineId ∧ x.gpuNum = y.gpuNum ∧ x.gpuIndex = y.gpuIndex := by
    intro j x hx
    rw [hb, get_insert] at hx
    split at hx
    · next e =>
      cases hx
      exact ⟨o, e ▸ ho, hmachine, hnum, hindex⟩
    · exact ⟨x, hx, rfl, rfl, rfl⟩
  have hforth : ∀ {j y}, b.rentInfo.get j = some y → ∃ x, b'.rentInfo.get j = some x ∧
      x.machineId = y.machineId ∧ x.gpuIndex = y.gpuIndex := by
    intro j y hy
    rw [hb, get_insert]
    split
    · next e =>
      subst e
      rw [ho] at hy
      cases hy
      exact ⟨o', rfl, hmachine, hindex⟩
    · exact ⟨y, hy, rfl, rfl⟩
  refine ⟨fun m j => ?_, fun {i i' x x' j} hx hx' hne hxm hj => ?_, fun {i x} hx => ?_,
    fun {i x} hx => ?_, fun m => ?_⟩
  · rw [hm, h.used]
    constructor
    · rintro ⟨i, y, hy, hym, hj⟩
      obtain ⟨x, hx, hxm, hxi⟩ := hforth hy
      exact ⟨i, x, hx, hxm.trans hym, hxi ▸ hj⟩
    · rintro ⟨i, x, hx, hxm, hj⟩
      obtain ⟨y, hy, hym, -, hyi⟩ := hback hx
      exact ⟨i, y, hy, hym ▸ hxm, hyi ▸ hj⟩
  · obtain ⟨y, hy, hym, -, hyi⟩ := hback hx
    obtain ⟨y', hy', hym', -, hyi'⟩ := hback hx'
    rw [hyi']
    exact h.disjoint hy hy' hne (hym ▸ hym' ▸ hxm) (hyi ▸ hj)
  · obtain ⟨y, hy, -, -, hyi⟩ := hback hx
    exact hyi ▸ h.nodup hy
  · obtain ⟨y, hy, -, hyn, hyi⟩ := hback hx
    rw [hyi, hyn]
    exact h.count hy
  · rw [hm, h.usedCount, Book.demand_rewrite hb ho hmachine hnum]

end

end Rewrite

/-! ## Striking an order out -/

section Remove

variable {b : Book A} {id : Nat} {o : RentOrderDetail A}

theorem Book.get_removeOrder (b : Book A) (id : Nat) (o : RentOrderDetail A) (j : Nat) :
    (b.removeOrder id o).rentInfo.get j = if j = id then none else b.rentInfo.get j :=
  get_remove ..

theorem Book.machineOrders_removeOrder (m : MachineId) :
    (b.removeOrder id o).machineOrders m = if m = o.machineId then
      (b.machineOrders o.machineId).cleanExpiredOrder id o.gpuIndex else b.machineOrders m :=
  Book.machineOrders_insert ..

theorem Book.demand_removeOrder (ho : b.rentInfo.get id = some o) (m : MachineId) :
    (b.removeOrder id o).demand m = b.demand m - (if o.machineId = m then o.gpuNum else 0) :=
  sum_remove _ ho

/-- Striking out an order, if it is also taken from the list of those that wait. -/
theorem Book.Listed.strike (h : b.Listed) (ho : b.rentInfo.get id = some o) {c : Index Nat Nat}
    (hc : ∀ k j, j ∈ c.bucket k ↔
      j ∈ b.confirmingOrder.bucket k ∧ ¬ (o.confirmKey = some k ∧ j = id)) :
    ({ b.removeOrder id o with confirmingOrder := c } : Book A).Listed where
  user := by
    refine h.user.erase ho (Book.get_removeOrder b id o) fun k j => ?_
    show j ∈ (b.userOrder.rmFrom o.renter id).bucket k ↔ _
    rw [Index.mem_rmFrom, some.injEq, eq_comm (a := k)]
  machine := by
    refine h.machine.erase ho (Book.get_removeOrder b id o) fun k j => ?_
    show j ∈ ((b.removeOrder id o).machineOrders k).rentOrder ↔ _
    rw [Book.machineOrders_removeOrder]
    split
    · next hk =>
      subst hk
      simp [MachineGPUOrder.cleanExpiredOrder, and_comm]
    · next hk => simp [Ne.symm hk]
  confirming := h.confirming.erase ho (Book.get_removeOrder b id o) hc
  ending := by
    refine h.ending.erase ho (Book.get_removeOrder b id o) fun k j => ?_
    show j ∈ (b.rentEnding.rmFrom o.rentEnd id).bucket k ↔ _
    rw [Index.mem_rmFrom, some.injEq, eq_comm (a := k)]
  fresh := by
    show (b.removeOrder id o).rentInfo.get b.nextRentId = none
    rw [Book.get_removeOrder, h.fresh, ite_self]

theorem Book.Listed.removeOrder (h : b.Listed) (ho : b.rentInfo.get id = some o)
    (hw : o.rentStatus ≠ .waitingVerifying) : (b.removeOrder id o).Listed := by
  refine h.strike ho fun k j => ?_
  rw [RentOrderDetail.confirmKey, if_neg hw]
  simp

theorem Book.Listed.expireOrder (h : b.Listed) (ho : b.rentInfo.get id = some o)
    (hw : o.rentStatus = .waitingVerifying) :
    ((b.rmConfirming o.confirmEnd id).removeOrder id o).Listed := by
  refine h.strike ho fun k j => ?_
  show j ∈ (b.confirmingOrder.rmFrom o.confirmEnd id).bucket k ↔ _
  rw [Index.mem_rmFrom, RentOrderDetail.confirmKey, if_pos hw, some.injEq, eq_comm (a := k)]

theorem Book.Cards.removeOrder (h : b.Cards) (ho : b.rentInfo.get id = some o) :
    (b.removeOrder id o).Cards := by
  have hback : ∀ {j x}, (b.removeOrder id o).rentInfo.get j = some x →
      j ≠ id ∧ b.rentInfo.get j = some x := by
    intro j x hx
    rw [Book.get_removeOrder] at hx
    split at hx
    · cases hx
    · next hne => exact ⟨hne, hx⟩
  have hforth : ∀ {j x}, j ≠ id → b.rentInfo.get j = some x →
      (b.removeOrder id o).rentInfo.get j = some x := by
    intro j x hne hx
    rw [Book.get_removeOrder, if_neg hne, hx]
  refine ⟨fun m j => ?_, fun {i i' x x' j} hx hx' => ?_, fun {i x} hx => ?_,
    fun {i x} hx => ?_, fun m => ?_⟩
  · have hsplit : (∃ i x, (b.removeOrder id o).rentInfo.get i = some x ∧ x.machineId = m ∧
        j ∈ x.gpuIndex) ↔
        j ∈ (b.machineOrders m).usedGpu ∧ ¬ (m = o.machineId ∧ j ∈ o.gpuIndex) := by
      rw [h.used m j]
      constructor
      · rintro ⟨i, x, hx, hm, hj⟩
        obtain ⟨hne, hx⟩ := hback hx
        refine ⟨⟨i, x, hx, hm, hj⟩, fun hjo => ?_⟩
        exact h.disjoint hx ho hne (hm.trans hjo.1) hj hjo.2
      · rintro ⟨⟨i, x, hx, hm, hj⟩, hno⟩
        refine ⟨i, x, hforth ?_ hx, hm, hj⟩
        rintro rfl
        rw [ho] at hx
        cases hx
        exact hno ⟨hm.symm, hj⟩
    rw [hsplit, Book.machineOrders_removeOrder]
    split
    · next hm =>
      subst hm
      show j ∈ o.gpuIndex.foldl SortedVec.rmItem (b.machineOrders o.machineId).usedGpu ↔ _
      rw [mem_foldl_rmItem]
      simp
    · next hm => simp [hm]
  · exact h.disjoint (hback hx).2 (hback hx').2
  · exact h.nodup (hback hx).2
  · exact h.count (hback hx).2
  · rw [Book.demand_removeOrder ho, Book.machineOrders_removeOrder]
    have hu := h.usedCount m
    split
    · next hm =>
      subst hm
      have hall : ∀ j ∈ o.gpuIndex, j ∈ (b.machineOrders o.machineId).usedGpu :=
        fun j hj => (h.used _ _).2 ⟨id, o, ho, rfl, hj⟩
      show (o.gpuIndex.foldl SortedVec.rmItem (b.machineOrders o.machineId).usedGpu).length = _
      rw [length_foldl_rmItem (h.nodup ho) hall, h.count ho, if_pos rfl, hu]
    · next hm => rw [if_neg (Ne.symm hm), hu, Nat.sub_zero]

end Remove

end

end DeepBrainChain.RentMachine
