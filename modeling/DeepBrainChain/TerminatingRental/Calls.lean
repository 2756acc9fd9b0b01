import DeepBrainChain.RentMachine.Calls

/-!
# The terminating-rental pallet

Rentals that either side may end early. The pallet keeps its own machines, from the deposit of
their owners on, and an order book of the shape rent-machine has: `RentOrder`, `UserRented`,
`PendingConfirming` and `PendingRentEnding` are `rentInfo`, `userOrder`, `confirmingOrder` and
`rentEnding` of `Book`. Here the stake of an order stays with it until the order ends; it is then
given back and the rent is paid.

Four things end an order: its time is up (`checkIfRentFinished`), its renter ends it
(`terminateRent`), or the owner of the machine takes it offline or away (`machineOffline`,
`machineExit`). Each pays the rent with `payRentFee`, and each cleans up after the order in its own
way.
-/

namespace DeepBrainChain.RentMachine.Book

open Lib Support

variable {A : Type}

def setMachineOrders (b : Book A) (m : MachineId) (orders : MachineGPUOrder) : Book A :=
  { b with machineRentOrder := b.machineRentOrder.insert m orders }

def dropMachine (b : Book A) (m : MachineId) : Book A :=
  { b with machineRentOrder := b.machineRentOrder.remove m }

/-- Drop an order, and leave it in all the lists. -/
def dropOrder (b : Book A) (id : Nat) : Book A := { b with rentInfo := b.rentInfo.remove id }

end DeepBrainChain.RentMachine.Book

namespace DeepBrainChain.TerminatingRental

open Lib GenericFunc Support Lib.Call
open RentMachine (Book RentOrderDetail MachineGPUOrder waitingConfirmingDelay)
open OnlineProfile (StandardGpuPointPrice Crypto)

/-- The storage of the pallet, over the committees. `rentReserve` is no storage of the pallet: it
records what the pallet has reserved for a renter as rent and not given back. -/
structure State (A : Type) [LinearOrder A] extends toCommittee : Committee.State A where
  onlineDeposit : Nat
  stakePerGpu : Nat
  standardGpuPointPrice : Option StandardGpuPointPrice
  maximumRentalDuration : Nat
  rentFeePot : Option A
  stashController : StorageMap A A
  controllerStash : StorageMap A A
  stashServerRooms : Index A Nat
  stashMachines : StorageMap A StashMachine
  stashStake : StorageMap A Nat
  offlineMachines : Index Nat MachineId
  liveMachines : LiveMachine
  machinesInfo : StorageMap MachineId (MachineInfo A)
  machineRentedGpu : StorageMap MachineId Nat
  rentedFinished : StorageMap MachineId A
  book : Book A
  renterTotalStake : StorageMap A Nat
  rentReserve : StorageMap A Nat

/-- The errors of the modelled calls. `ledger` stands for an error of the balances pallet,
`diverges` for a search of a free order identifier that does not end. -/
inductive Error
  | alreadyController
  | noStashBond
  | payTxFeeFailed
  | machineIdExist
  | sigMachineIdNotEqualBondedMachineId
  | convertMachineIdToWalletFailed
  | badSignature
  | badMsgLen
  | machineStashNotEqualControllerStash
  | balanceNotEnough
  | telecomIsNull
  | serverRoomNotFound
  | notAllowedChangeMachineInfo
  | notMachineController
  | timeNotAllow
  | machineNotRentable
  | getMachinePriceFailed
  | gpuNotEnough
  | onlyAllowIntegerMultipleOfHour
  | overflow
  | insufficientValue
  | noOrderExist
  | notOrderRenter
  | expiredConfirm
  | statusNotAllowed
  | unknown
  | reletTooShort
  | offlineNotYetAllowed
  | ledger
  | diverges
deriving DecidableEq

section

variable {A : Type} [LinearOrder A]

section

omit [LinearOrder A]

/-- `RentOrderDetail::confirm_rent`. The stake stays with the order. -/
def confirmRentDetail (o : RentOrderDetail A) (now : Nat) : RentOrderDetail A :=
  { o with confirmRent := now, rentStatus := .renting }

def prolongedDetail (o : RentOrderDetail A) (rentEnd stakeAmount : Nat) : RentOrderDetail A :=
  { o with rentEnd := rentEnd, stakeAmount := stakeAmount }

end

namespace State

/-- The storage before the first machine. `MaximumRentalDuration` is never written. -/
def fresh (c : Committee.State A) : State A where
  toCommittee := c
  onlineDeposit := 0
  stakePerGpu := 0
  standardGpuPointPrice := none
  maximumRentalDuration := 60
  rentFeePot := none
  stashController := ∅
  controllerStash := ∅
  stashServerRooms := ∅
  stashMachines := ∅
  stashStake := ∅
  offlineMachines := ∅
  liveMachines := .zero
  machinesInfo := ∅
  machineRentedGpu := ∅
  rentedFinished := ∅
  book := ⟨∅, 0, ∅, ∅, ∅, ∅⟩
  renterTotalStake := ∅
  rentReserve := ∅

def setCommitteeState (c : Committee.State A) (s : State A) : State A := { s with toCommittee := c }

def setChain (c : Chain A) (s : State A) : State A := { s with toChain := c }

def setBalances (s : State A) (b : Balances A) : State A := { s with balances := b }

def machine (s : State A) (m : MachineId) : Option (MachineInfo A) := s.machinesInfo.get m

def putMachine (s : State A) (m : MachineId) (i : MachineInfo A) : State A :=
  { s with machinesInfo := s.machinesInfo.insert m i }

def rmMachine (s : State A) (m : MachineId) : State A :=
  { s with machinesInfo := s.machinesInfo.remove m }

def mapLive (s : State A) (f : LiveMachine → LiveMachine) : State A :=
  { s with liveMachines := f s.liveMachines }

def stashMachine (s : State A) (who : A) : StashMachine := s.stashMachines.getD who .zero

def putStashMachine (s : State A) (who : A) (x : StashMachine) : State A :=
  { s with stashMachines := s.stashMachines.insert who x }

def setStashStake (s : State A) (who : A) (amount : Nat) : State A :=
  { s with stashStake := s.stashStake.insert who amount }

def rentedGpu (s : State A) (m : MachineId) : Nat := s.machineRentedGpu.getD m 0

def setRentedGpu (s : State A) (m : MachineId) (n : Nat) : State A :=
  { s with machineRentedGpu := s.machineRentedGpu.insert m n }

def mapBook (s : State A) (f : Book A → Book A) : State A := { s with book := f s.book }

def totalStake (s : State A) (who : A) : Nat := s.renterTotalStake.getD who 0

def setTotalStake (s : State A) (who : A) (amount : Nat) : State A :=
  { s with renterTotalStake := s.renterTotalStake.insert who amount }

/-- What the pallet holds reserved for a renter as rent. -/
def heldRent (s : State A) (who : A) : Nat := s.rentReserve.getD who 0

def setHeldRent (s : State A) (who : A) (amount : Nat) : State A :=
  { s with rentReserve := s.rentReserve.insert who amount }

/-- Give a renter back what was reserved as rent, as far as the reserve goes. -/
def unreserveRent (s : State A) (who : A) (amount : Nat) : State A :=
  (s.setBalances (s.balances.unreserve who amount).1).setHeldRent who
    (s.heldRent who - (amount - (s.balances.unreserve who amount).2))

end State

/-! ## Calls -/

def payFixedTxFee (who : A) : Call (State A) Error Unit :=
  ((GenericFunc.payFixedTxFee who).zoom (fun s => s.toChain) State.setChain).mapError
    fun _ => .payTxFeeFailed

def changeStashTotalStake (who : A) (amount : Nat) (isAdd : Bool) : Call (State A) Unit Unit := do
  let s ← get
  let old := s.stashStake.getD who 0
  if isAdd then do
    let new ← okOr (checkedAdd u128Max old amount) ()
    let b ← okOr (s.balances.reserve who amount) ()
    set ((s.setBalances b).setStashStake who new)
  else do
    let new ← okOr (checkedSub old amount) ()
    set ((s.setBalances (s.balances.unreserve who amount).1).setStashStake who new)

def changeRenterTotalStake (who : A) (amount : Nat) (isAdd : Bool) : Call (State A) Unit Unit := do
  let s ← get
  let old := s.totalStake who
  if isAdd then do
    let b ← okOr (s.balances.reserve who amount) ()
    set ((s.setBalances b).setHeldRent who (s.heldRent who + amount))
    let new ← okOr (checkedAdd u128Max old amount) ()
    modify fun s => s.setTotalStake who new
  else do
    ensure (amount ≤ old) ()
    set ((s.unreserveRent who amount).setTotalStake who (old - amount))

/-! ## Prices -/

def State.getMachinePrice (s : State A) (point needGpu totalGpu : Nat) : Option Nat :=
  if totalGpu = 0 then none
  else
    s.standardGpuPointPrice.bind fun p =>
      (checkedMul u64Max p.gpuPrice point).bind fun n =>
        (checkedMul u64Max n 10000).bind fun n =>
          if p.gpuPoint = 0 then none
          else (checkedMul u64Max (n / p.gpuPoint) needGpu).map fun n => n / totalGpu / 10000

def rentFee (i : MachineInfo A) (gpuNum duration : Nat) : Call (State A) Error Nat := do
  let s ← get
  let price ← okOr (s.getMachinePrice i.calcPoint gpuNum i.gpuNum) .getMachinePriceFailed
  let value ← okOr (checkedMul u64Max price duration) .overflow
  okOr (s.dbcPrice (value / oneDay)) .overflow

def State.stakePerGpuLimit (s : State A) : Nat :=
  min s.stakePerGpu ((s.dbcPrice 800000000).getD s.stakePerGpu)

/-! ## Paying the rent -/

/-- A transfer whose failure is ignored. -/
def payOut (b : Balances A) (source dest : A) (value : Nat) : Balances A :=
  (b.transfer source dest value).getD b

/-- The transfers of `pay_rent_fee`: the part to burn, the shares of the committees and the rest
for the stash. The result is the ledger and that rest. -/
def State.payShares (s : State A) (b : Balances A) (renter : A) (i : MachineInfo A) (fee : Nat) :
    Balances A × Nat :=
  let toCommittee := fee - (Perbill.fromRational 99 100).mul fee
  let r := match s.rentFeePot with
    | none => (b, fee)
    | some pot =>
      let burn := (Perbill.fromRational 5 100).mul fee
      (payOut b renter pot burn, fee - burn)
  let each := (Perbill.fromRational 1 i.rewardCommittee.length).mul toCommittee
  let r := i.rewardCommittee.foldl (fun r c => (payOut r.1 renter c each, r.2 - each)) r
  (payOut r.1 renter i.machineStash r.2, r.2)

/-- `pay_rent_fee`. The stake of the order is given back first and the rent is paid from what is
then free. The stash stakes what it got until the machine has its full stake. -/
def payRentFee (o : RentOrderDetail A) (fee : Nat) (m : MachineId) :
    Call (State A) Error Unit := do
  let s ← get
  let i ← okOr (s.machine m) .unknown
  let s := s.unreserveRent o.renter o.stakeAmount
  let paid := s.payShares s.balances o.renter i fee
  set (s.setBalances paid.1)
  let maxStake ← okOr (checkedMul u128Max s.stakePerGpuLimit i.gpuNum) .overflow
  when (i.stakeAmount < maxStake) do
    let amount := min paid.2 (maxStake - i.stakeAmount)
    let b ← okOr (paid.1.reserve i.machineStash amount) .ledger
    modify fun s => (s.setBalances b).putMachine m
      (i.setStakeAmount (saturatingAdd u128Max i.stakeAmount amount))

/-! ## Root calls -/

def setStakePerGpu (amount : Nat) : Call (State A) Error Unit :=
  modify fun s => { s with stakePerGpu := amount }

def setOnlineDeposit (deposit : Nat) : Call (State A) Error Unit :=
  modify fun s => { s with onlineDeposit := deposit }

def setStandardGpuPointPrice (p : StandardGpuPointPrice) : Call (State A) Error Unit :=
  modify fun s => { s with standardGpuPointPrice := some p }

/-! ## Bringing a machine online -/

def setController (stash controller : A) : Call (State A) Error Unit := do
  let s ← get
  ensure (s.controllerStash.get controller = none) .alreadyController
  ensure (s.stashController.get stash = none) .alreadyController
  set { s with
    stashController := s.stashController.insert stash controller
    controllerStash := s.controllerStash.insert controller stash }

/-- `gen_server_room`; the number of the room is random. -/
def genServerRoom (controller : A) (room : Nat) : Call (State A) Error Unit := do
  let s ← get
  let stash ← okOr (s.controllerStash.get controller) .noStashBond
  payFixedTxFee controller
  modify fun s => { s with stashServerRooms := s.stashServerRooms.addTo stash room }

def checkBondingMsg (crypto : Crypto A) (stash : A) (m : MachineId) (msg sig : Bytes) :
    Call (State A) Error Unit := do
  ensure (msg.length = 112) .badMsgLen
  ensure (m = msg.take 64) .sigMachineIdNotEqualBondedMachineId
  let account ← okOr (crypto.accountFromStr (msg.drop 64)) .convertMachineIdToWalletFailed
  ensure (account = stash) .machineStashNotEqualControllerStash
  ensure (crypto.verifySig msg sig m) .badSignature

def bondMachine (crypto : Crypto A) (controller : A) (m : MachineId) (msg sig : Bytes) :
    Call (State A) Error Unit := do
  let s ← get
  let stash ← okOr (s.controllerStash.get controller) .noStashBond
  ensure (s.machine m = none) .machineIdExist
  checkBondingMsg crypto stash m msg sig
  (changeStashTotalStake stash s.onlineDeposit true).mapError fun _ => .balanceNotEnough
  modify fun s' => ((s'.mapLive (·.onBonding m)).putStashMachine stash
    ((s'.stashMachine stash).newBonding m)).putMachine m
      (.bondMachine controller stash s.now s.onlineDeposit)

def ensureController (i : MachineInfo A) (controller : A) : Call (State A) Error Unit := do
  let s ← get
  ensure (s.stashController.get i.machineStash = some controller) .notMachineController

def addMachineInfo (controller : A) (m : MachineId) (info : StakerCustomizeInfo) :
    Call (State A) Error Unit := do
  let s ← get
  let i ← okOr (s.machine m) .unknown
  ensureController i controller
  ensure (info.serverRoom ∈ s.stashServerRooms.bucket i.machineStash) .serverRoomNotFound
  ensure (info.telecomOperators ≠ []) .telecomIsNull
  ensure i.canAddCustomizeInfo .notAllowedChangeMachineInfo
  set ((s.mapLive (·.addMachineInfo m)).putMachine m (i.addMachineInfo info))

/-! ## What the verification does to a machine -/

/-- `book_machine`. The list changes even when there is no record. -/
def bookMachine (m : MachineId) : Call (State A) Unit Unit := do
  modify fun s => s.mapLive fun l =>
    { l with
      confirmedMachine := l.confirmedMachine.rmItem m
      bookedMachine := l.bookedMachine.addItem m }
  let s ← get
  let i ← okOr (s.machine m) ()
  set (s.putMachine m (i.setStatus .committeeVerifying))

def revertBookedMachine (m : MachineId) : Call (State A) Unit Unit := do
  modify fun s => s.mapLive (·.revertBook m)
  let s ← get
  let i ← okOr (s.machine m) ()
  set (s.putMachine m (i.setStatus .distributingOrder))

def confirmMachine (committee : List A) (info : CommitteeUploadInfo) :
    Call (State A) Unit Unit := do
  let s ← get
  let i ← okOr (s.machine info.machineId) ()
  changeStashTotalStake i.machineStash i.stakeAmount false
  modify fun s =>
    ((s.putMachine info.machineId
      { i.machineOnline s.now info with rewardCommittee := committee }).mapLive fun l =>
        { l with
          bookedMachine := l.bookedMachine.rmItem info.machineId
          onlineMachine := l.onlineMachine.addItem info.machineId }).putStashMachine
      i.machineStash
      ((s.stashMachine i.machineStash).machineOnline info.machineId info.gpuNum info.calcPoint)

/-- `refuse_machine`: the record is dropped, and its stash owes what it had staked. -/
def refuseMachine (m : MachineId) : Call (State A) Unit (A × Nat) := do
  let s ← get
  let i ← okOr (s.machine m) ()
  set (((s.mapLive (·.refuseMachine m)).rmMachine m).putStashMachine i.machineStash
    ((s.stashMachine i.machineStash).refuseMachine m))
  pure (i.machineStash, i.stakeAmount)

def execSlash (stash : A) (amount : Nat) : Call (State A) Unit Unit := do
  let s ← get
  let new ← okOr (checkedSub (s.stashStake.getD stash 0) amount) ()
  set (s.setStashStake stash new)

/-- What `summary_submitting_raw` does to a machine whose fault is confirmed. -/
def faultConfirmed (m : MachineId) (fault : OPSlashReason) (reporter : A) (committee : List A) :
    Call (State A) Unit Unit := do
  let s ← get
  let i ← okOr (s.machine m) ()
  set ((s.mapLive (·.machineOffline m)).putMachine m
    (i.setStatus (.reporterReportOffline fault i.machineStatus reporter committee)))

/-! ## Renting -/

def changeMachineStatusOnRentStart (m : MachineId) (gpuNum : Nat) : Call (State A) Unit Unit := do
  let s ← get
  let i ← okOr (s.machine m) ()
  set ((s.putMachine m (i.setStatus .rented)).setRentedGpu m
    (saturatingAdd u32Max (s.rentedGpu m) gpuNum))

/-- The end of `rent_machine`, once the stake is paid: the search for an identifier, and the
order. -/
def placeOrder (renter : A) (m : MachineId) (gpuNum total rentEnd fee : Nat) :
    Call (State A) Error Unit := do
  let s ← get
  ensure (s.book.rentInfo.get (Book.succId s.book.nextRentId) = none) .diverges
  let taken := (s.book.machineOrders m).genRentableGpu gpuNum total
  (changeMachineStatusOnRentStart m gpuNum).mapError fun _ => .unknown
  modify fun s' => s'.mapBook fun b =>
    b.insertOrder (.new m renter s.now rentEnd fee gpuNum taken.1) taken.2

/-- `rent_machine`. The sum of the cards is unchecked. -/
def rentMachine (renter : A) (m : MachineId) (gpuNum duration : Nat) :
    Call (State A) Error Unit := do
  let s ← get
  let i ← okOr (s.machine m) .unknown
  if i.gpuNum = 0 ∨ duration = 0 then pure ()
  else do
    ensure (wrappingAdd u32Max gpuNum (s.rentedGpu m) ≤ i.gpuNum) .gpuNotEnough
    ensure (duration % halfHour = 0) .onlyAllowIntegerMultipleOfHour
    ensure i.canRent .machineNotRentable
    let duration := min duration (saturatingMul u32Max s.maximumRentalDuration oneDay)
    payFixedTxFee renter
    let fee ← rentFee i gpuNum duration
    let rentEnd ← okOr (checkedAdd u32Max s.now duration) .overflow
    (changeRenterTotalStake renter fee true).mapError fun _ => .insufficientValue
    placeOrder renter m gpuNum i.gpuNum rentEnd fee

/-- `change_machine_status_on_confirmed`. The cards of the whole machine count as rented, each
time. -/
def changeMachineStatusOnConfirmed (m : MachineId) (renter : A) : Call (State A) Unit Unit := do
  let s ← get
  let i ← okOr (s.machine m) ()
  let x := s.stashMachine i.machineStash
  set (((s.putStashMachine i.machineStash
    { x with totalRentedGpu := saturatingAdd u64Max x.totalRentedGpu i.gpuNum }).putMachine m
      (OnlineProfile.State.confirmedBy i renter)).mapLive fun l =>
        { l with
          onlineMachine := l.onlineMachine.rmItem m
          rentedMachine := l.rentedMachine.addItem m })

def confirmRent (renter : A) (id : Nat) : Call (State A) Error Unit := do
  let s ← get
  let o ← okOr (s.book.rentInfo.get id) .unknown
  ensure (o.renter = renter) .noOrderExist
  ensure (o.rentStatus = .waitingVerifying) .noOrderExist
  let waited ← okOr (checkedSub s.now o.rentStart) .overflow
  ensure (waited ≤ waitingConfirmingDelay) .expiredConfirm
  let i ← okOr (s.machine o.machineId) .unknown
  ensure (i.machineStatus = .rented) .statusNotAllowed
  (changeMachineStatusOnConfirmed o.machineId renter).mapError fun _ => .unknown
  modify fun s => s.mapBook fun b =>
    b.confirmAs id o (confirmRentDetail o s.now)

/-- How much longer an order that ends at `rentEnd` may run. A wish beyond sixty days from now,
computed without a check, is answered with sixty days more. -/
def reletDuration (maxRentEnd rentEnd duration : Nat) : Nat :=
  if wrappingAdd u32Max rentEnd duration ≤ maxRentEnd then duration else 60 * oneDay

def reletMachine (renter : A) (id duration : Nat) : Call (State A) Error Unit := do
  let s ← get
  let o ← okOr (s.book.rentInfo.get id) .unknown
  ensure (10 * oneMinute ≤ duration) .reletTooShort
  ensure (o.renter = renter) .noOrderExist
  ensure (o.rentStatus = .renting) .noOrderExist
  let i ← okOr (s.machine o.machineId) .unknown
  let maxRentEnd ← okOr (checkedAdd u32Max (60 * oneDay) s.now) .overflow
  let add := reletDuration maxRentEnd o.rentEnd duration
  if add = 0 then pure ()
  else do
    let fee ← rentFee i o.gpuNum add
    ensure (fee < s.balances.free renter) .insufficientValue
    (changeRenterTotalStake renter fee true).mapError fun _ => .insufficientValue
    let rentEnd ← okOr (checkedAdd u32Max o.rentEnd add) .overflow
    let stake ← okOr (checkedAdd u128Max o.stakeAmount fee) .overflow
    modify fun s => s.mapBook fun b =>
      b.prolongAs id o (prolongedDetail o rentEnd stake)

/-! ## Ending orders early -/

omit [LinearOrder A] in
/-- The rent of an order that ran for `used` blocks. -/
def usedFee (o : RentOrderDetail A) (used : Nat) : Nat :=
  (Perbill.fromRational used (o.rentEnd - o.rentStart)).mul o.stakeAmount

/-- The loop of `terminate_rent` over the other orders of the machine. It drops the renter from
the record until it meets an order of the same renter. -/
def dropRenter (renter : A) : List Nat → Call (State A) Error Unit
  | [] => pure ()
  | id :: l => do
    let s ← get
    let o ← okOr (s.book.rentInfo.get id) .unknown
    if o.renter = renter then pure ()
    else do
      let i ← okOr (s.machine o.machineId) .unknown
      set (s.putMachine o.machineId { i with renters := i.renters.rmItem renter })
      dropRenter renter l

def terminateRent (renter : A) (id : Nat) : Call (State A) Error Unit := do
  let s ← get
  let o ← okOr (s.book.rentInfo.get id) .unknown
  ensure (renter = o.renter) .notOrderRenter
  let orders := (s.book.machineOrders o.machineId).cleanExpiredOrder id o.gpuIndex
  dropRenter renter orders.rentOrder.toList
  modify fun s => s.mapBook fun b => b.setMachineOrders o.machineId orders
  payRentFee o (usedFee o (s.now - o.rentStart)) o.machineId
  modify fun s => s.mapBook fun b => b.dropOrder id

/-- One round of the loops of `machine_offline` and `machine_exit`: the order pays for the full
hours it used. -/
def payAndDrop (m : MachineId) (id : Nat) : Call (State A) Error Unit := do
  let s ← get
  let o ← okOr (s.book.rentInfo.get id) .unknown
  payRentFee o (usedFee o ((s.now - o.rentStart) / oneHour * oneHour)) m
  modify fun s => s.mapBook fun b => b.dropOrder id

def machineOffline (controller : A) (m : MachineId) : Call (State A) Error Unit := do
  let s ← get
  let i ← okOr (s.machine m) .unknown
  ensureController i controller
  ensure (saturatingAdd u32Max i.lastOnlineHeight oneDay ≤ s.now) .offlineNotYetAllowed
  set (s.putMachine m { i.machineOffline s.now with renters := ∅ })
  forEach (s.book.machineOrders m).rentOrder.toList (payAndDrop m)
  modify fun s => s.mapBook fun b => b.dropMachine m
  modify fun s =>
    { s with offlineMachines := s.offlineMachines.addTo (s.now + 10 * oneDay) m }

def machineOnline (controller : A) (m : MachineId) : Call (State A) Error Unit := do
  let s ← get
  let i ← okOr (s.machine m) .unknown
  ensureController i controller
  match i.machineStatus with
  | .stakerReportOffline expire _ =>
    set (({ s with offlineMachines := s.offlineMachines.rmFrom expire m } : State A).putMachine
      m (i.reonlined s.now .online))
  | _ => throw .statusNotAllowed

/-- `machine_exit`. The orders are gone when their cards are counted. -/
def machineExit (controller : A) (m : MachineId) : Call (State A) Error Unit := do
  let s ← get
  let i ← okOr (s.machine m) .unknown
  ensureController i controller
  ensure (365 * oneDay ≤ s.now - i.onlineHeight) .timeNotAllow
  forEach (s.book.machineOrders m).rentOrder.toList (payAndDrop m)
  modify fun s => s.mapBook fun b => b.dropMachine m
  modify fun s => (s.setBalances (s.balances.unreserve i.machineStash i.stakeAmount).1)
  modify fun s => s.rmMachine m
  modify fun s => (s.putStashMachine i.machineStash
    ((s.stashMachine i.machineStash).machineExit m i.calcPoint i.gpuNum
      (s.book.machineOrders m).usedGpu.length)).mapLive (·.machineExit m)

/-! ## The end of a block -/

def isLastRent (b : Book A) (m : MachineId) : Option Bool :=
  ((b.machineOrders m).rentOrder.toList.mapM fun id => b.rentInfo.get id).map fun orders =>
    decide (orders.countP (fun o => o.rentStatus = .renting) < 2)

def rentEnded (i : MachineInfo A) (rentedGpuNum duration : Nat) (renter : A) : MachineInfo A :=
  { i with
    totalRentedDuration := wrappingAdd u32Max i.totalRentedDuration
      ((Perbill.fromRational rentedGpuNum i.gpuNum).mul duration)
    renters := i.renters.rmItem renter }

/-- `change_machine_status_on_rent_end`. A machine without cards is left as it is. -/
def changeMachineStatusOnRentEnd (m : MachineId) (rentedGpuNum duration : Nat) (last : Bool)
    (renter : A) : Call (State A) Unit Unit := do
  let s ← get
  let i ← okOr (s.machine m) ()
  if i.gpuNum = 0 then pure ()
  else do
    let new := rentEnded i rentedGpuNum duration renter
    let s := s.setRentedGpu m (s.rentedGpu m - rentedGpuNum)
    if i.machineStatus.isOffline then
      set (({ s with rentedFinished := s.rentedFinished.insert m renter } : State A).putMachine
        m new)
    else if i.machineStatus = .rented ∧ last then
      let x := s.stashMachine i.machineStash
      set (((s.mapLive fun l =>
        { l with
          rentedMachine := l.rentedMachine.rmItem m
          onlineMachine := l.onlineMachine.addItem m }).putStashMachine i.machineStash
            { x with totalRentedGpu := x.totalRentedGpu - i.gpuNum }).putMachine m
              (new.setStatus .online))
    else set (s.putMachine m new)

def cleanOrder (id : Nat) : Call (State A) Unit Unit := do
  let s ← get
  let o ← okOr (s.book.rentInfo.get id) ()
  modify fun s => s.mapBook fun b => (b.rmConfirming o.confirmEnd id).removeOrder id o

/-- One round of `check_if_rent_finished`. What the payment and the report to the machine return is
ignored. -/
def finishOne (id : Nat) : Call (State A) Unit Unit := do
  let s ← get
  let o ← okOr (s.book.rentInfo.get id) ()
  ignore (payRentFee o o.stakeAmount o.machineId)
  let s ← get
  let last ← okOr (isLastRent s.book o.machineId) ()
  ignore (changeMachineStatusOnRentEnd o.machineId o.gpuNum (o.rentEnd - o.rentStart) last
    o.renter)
  ignore (cleanOrder id)

def checkIfRentFinished : Call (State A) Unit Unit := do
  let s ← get
  forEach (s.book.rentEnding.bucket s.now).toList finishOne

/-- One round of `check_if_offline_timeout`. A machine that is back online loses its recorded stake
too. -/
def offlineTimeout (m : MachineId) : Call (State A) Unit Unit := do
  let s ← get
  let i ← okOr (s.machine m) ()
  let s := match i.machineStatus with
    | .stakerReportOffline .. =>
      s.setBalances (slashAndReward s.balances [i.machineStash] i.stakeAmount [])
    | _ => s
  set (s.putMachine m (i.setStakeAmount 0))

def checkIfOfflineTimeout : Call (State A) Unit Unit := do
  let s ← get
  forEach (s.offlineMachines.bucket s.now).toList offlineTimeout
  modify fun s' => { s' with offlineMachines := s'.offlineMachines.remove s.now }

/-- The part of `on_finalize` that is about rentals. -/
def State.onFinalize (s : State A) : State A :=
  (checkIfOfflineTimeout.run (checkIfRentFinished.run s).2).2

end

end DeepBrainChain.TerminatingRental
