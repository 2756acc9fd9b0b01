import DeepBrainChain.OnlineProfile.Storage

/-!
# Calls of the online-profile pallet

The extrinsics. Root calls take no account; a signed call takes its signer first. Signature
checks and the random number of a new server room come from outside.
-/

namespace DeepBrainChain.OnlineProfile

open Lib GenericFunc Support Lib.Call

/-- What the pallet takes from cryptography: the account a text spells (`get_account_from_str`)
and whether a signature of a message belongs to a machine (`verify_sig`). -/
structure Crypto (A : Type) where
  accountFromStr : Bytes → Option A
  verifySig : Bytes → Bytes → MachineId → Bool

section

variable {A : Type} [LinearOrder A]

/-- `REWARD_DURATION`, in eras. -/
def rewardDuration : Nat := 365 * 2

def rebondFrequency : Nat := 365 * oneDay

namespace State

def setChain (c : Chain A) (s : State A) : State A := { s with toChain := c }

/-- A machine counts as online or offline from now on: `update_snap_on_online_changed`. -/
def snapOnline (s : State A) (m : MachineId) (i : MachineInfo A) (isOnline : Bool) : State A :=
  s.mapGrades fun g => g.updateSnapOnOnlineChanged m i isOnline

/-- A machine counts as rented or free from now on: `update_snap_on_rent_changed`. -/
def snapRent (s : State A) (m : MachineId) (i : MachineInfo A) (isRented : Bool) : State A :=
  s.mapGrades fun g => g.updateSnapOnRentChanged m i isRented

def regionOnline (s : State A) (i : MachineInfo A) (isOnline : Bool) : State A :=
  s.mapMachines fun x => x.updateRegionOnOnlineChanged i isOnline

def regionRent (s : State A) (i : MachineInfo A) (isRented : Bool) : State A :=
  s.mapMachines fun x => x.updateRegionOnRentChanged i isRented

end State

def payFixedTxFee (who : A) : Call (State A) Error Unit :=
  ((GenericFunc.payFixedTxFee who).zoom (fun s => s.toChain) State.setChain).mapError
    fun _ => .payTxFeeFailed

def checkBondingMsg (crypto : Crypto A) (stash : A) (m : MachineId) (msg sig : Bytes) :
    Call (State A) Error Unit := do
  ensure (msg.length = 112) .badMsgLen
  ensure (m = msg.take 64) .sigMachineIdNotEqualBondedMachineId
  let account ← okOr (crypto.accountFromStr (msg.drop 64)) .convertMachineIdToWalletFailed
  ensure (account = stash) .machineStashNotEqualControllerStash
  ensure (crypto.verifySig msg sig m) .badSignature

/-! ## Root calls -/

def setRewardInfo (i : PhaseRewardInfoDetail) : Call (State A) Error Unit :=
  modify fun s => s.mapGrades fun g => { g with phaseRewardInfo := some i }

def setOnlineStakeParams (p : OnlineStakeParamsInfo) : Call (State A) Error Unit :=
  modify fun s => s.mapStakes fun x => { x with onlineStakeParams := some p }

def setStandardGpuPointPrice (p : StandardGpuPointPrice) : Call (State A) Error Unit :=
  modify fun s => s.mapStakes fun x => { x with standardGpuPointPrice := some p }

def setRentfeeDestroyPercent (percent : Perbill) : Call (State A) Error Unit :=
  modify fun s => s.mapGrades fun g => { g with rentFeeDestroyPercent := percent }

def updateAuthorizedForceExitAccounts (accounts : List A) : Call (State A) Error Unit :=
  modify fun s => s.mapOwners fun x => { x with authorizedForceExitAccounts := accounts }

/-! ## Owners -/

def Owners.bindController (x : Owners A) (stash controller : A) : Owners A :=
  { x with
    stashController := x.stashController.insert stash controller
    controllerStash := x.controllerStash.insert controller stash }

/-- Hand the machines of a controller and its stash over to a new controller. -/
def Owners.moveController (x : Owners A) (stash pre new : A) : Owners A :=
  { x with
    controllerMachines :=
      (x.controllerMachines.remove pre).insert new (x.controllerMachines.getD pre ∅)
    stashController := x.stashController.insert stash new
    controllerStash := (x.controllerStash.remove pre).insert new stash }

def Owners.addMachine (x : Owners A) (controller : A) (m : MachineId) : Owners A :=
  { x with
    controllerMachines := x.controllerMachines.insert controller
      ((x.controllerMachines.getD controller ∅).addItem m) }

def Owners.rmMachine (x : Owners A) (controller : A) (m : MachineId) : Owners A :=
  { x with
    controllerMachines := x.controllerMachines.insert controller
      ((x.controllerMachines.getD controller ∅).rmItem m) }

/-- Take a machine from a controller, and forget a controller without machines. -/
def Owners.exitMachine (x : Owners A) (controller : A) (m : MachineId) : Owners A :=
  let left := (x.controllerMachines.getD controller ∅).rmItem m
  { x with
    controllerMachines :=
      if left.isEmpty then x.controllerMachines.remove controller
      else x.controllerMachines.insert controller left }

def setController (stash controller : A) : Call (State A) Error Unit := do
  let s ← get
  ensure (¬ s.owners.controllerStash.contains controller) .alreadyController
  ensure (¬ s.owners.stashController.contains stash) .alreadyController
  set (s.mapOwners fun x => x.bindController stash controller)

/-- One round of `stash_reset_controller`. -/
def resetOneController (new : A) (m : MachineId) : Call (State A) Error Unit := do
  let s ← get
  let i ← okOr (s.machine m) .unknown
  set (s.putMachine m (i.setController new))

def stashResetController (stash new : A) : Call (State A) Error Unit := do
  let s ← get
  ensure (¬ s.owners.controllerStash.contains new) .alreadyController
  let pre ← okOr (s.owners.stashController.get stash) .unknown
  forEach (s.owners.controllerMachines.getD pre ∅).toList (resetOneController new)
  modify fun s => s.mapOwners fun x => x.moveController stash pre new

/-- `gen_server_room`; `room` is the random number drawn. -/
def genServerRoom (controller : A) (room : Nat) : Call (State A) Error Unit := do
  let s ← get
  let stash ← okOr (s.owners.controllerStash.get controller) .noStashBond
  payFixedTxFee controller
  modify fun s => s.mapOwners fun x =>
    { x with
      stashServerRooms := x.stashServerRooms.insert stash
        ((x.stashServerRooms.getD stash ∅).addItem room) }

/-! ## Bringing a machine online -/

def bondMachine (crypto : Crypto A) (controller : A) (m : MachineId) (msg sig : Bytes) :
    Call (State A) Error Unit := do
  let s ← get
  let stash ← okOr (s.owners.controllerStash.get controller) .noStashBond
  ensure (s.machine m = none) .machineIdExist
  ensure (m ∉ (s.stashMachine stash).totalMachine) .machineIdExist
  checkBondingMsg crypto stash m msg sig
  let amount ← okOr s.stakePerGpuV2 .calcStakeAmountFailed
  payFixedTxFee controller
  (changeStake stash amount true).mapError fun _ => .balanceNotEnough
  modify fun s =>
    (((s.putStashMachine stash ((s.stashMachine stash).newBonding m)).mapLive
      (·.onBonding m)).mapOwners (·.addMachine controller m)).putMachine m
        (.newBonding controller stash s.now amount)

/-- The stake that is due before the location of a machine under a hardware change is accepted. -/
def payVerifyFee (stash : A) (m : MachineId) : Call (State A) Error Unit := do
  let s ← get
  match s.stakes.userMutHardwareStake.get (stash, m) with
  | none => pure ()
  | some x =>
    if x.verifyFee = 0 then do
      let fee ← okOr s.calMutHardwareStake .getReonlineStakeFailed
      (changeStake stash fee true).mapError fun _ => .balanceNotEnough
      modify fun s => s.putMutHardware stash m { x with verifyFee := fee }
    else pure ()

def addMachineInfo (controller : A) (m : MachineId) (info : StakerCustomizeInfo) :
    Call (State A) Error Unit := do
  let s ← get
  let i ← okOr (s.machine m) .unknown
  ensure i.canAddServerRoom .notAllowedChangeMachineInfo
  ensure (i.controller = controller) .notMachineController
  ensure (info.telecomOperators ≠ []) .telecomIsNull
  ensure (info.serverRoom ∈ s.owners.stashServerRooms.getD i.machineStash ∅)
    .serverRoomNotFound
  payVerifyFee i.machineStash m
  modify fun s => (s.mapLive (·.onAddServerRoom m)).putMachine m (i.addServerRoomInfo info)

def updateMachineInfo (controller : A) (m : MachineId) (info : StakerCustomizeInfo) :
    Call (State A) Error Unit := do
  let s ← get
  let i ← okOr (s.machine m) .unknown
  ensure (i.stakerCustomizeInfo.telecomOperators ≠ []) .telecomIsNull
  ensure (i.controller = controller) .notMachineController
  ensure (info.telecomOperators ≠ []) .telecomIsNull
  ensure (info.serverRoom ∈ s.owners.stashServerRooms.getD i.machineStash ∅)
    .serverRoomNotFound
  set (s.putMachine m (i.addServerRoomInfo info))

def newRecentReward (i : MachineInfo A) : MachineRecentRewardInfo A where
  machineStash := i.machineStash
  recentMachineReward := []
  recentRewardSum := 0
  rewardCommitteeDeadline := i.rewardDeadline
  rewardCommittee := i.rewardCommittee

def fulfillMachine (controller : A) (m : MachineId) : Call (State A) Error Unit := do
  let s ← get
  let i ← okOr (s.machine m) .unknown
  ensure (i.controller = controller) .notMachineController
  ensure (m ∈ s.machines.liveMachines.fulfillingMachine) .machineStatusNotAllowed
  let need ← okOr (checkedMul u128Max i.initStakePerGpu i.gpuNum) .calcStakeAmountFailed
  when (i.stakeAmount < need)
    ((changeStake i.machineStash (need - i.stakeAmount) true).mapError fun _ => .balanceNotEnough)
  let new := i.fulfilled (max i.stakeAmount need) s.now (s.grades.eras.currentEra + rewardDuration)
  modify fun s =>
    (((((s.rmMutHardware i.machineStash m).putRecentReward m (newRecentReward new)).regionOnline
      new true).snapOnline m i true).mapLive fun l =>
        { l with
          fulfillingMachine := l.fulfillingMachine.rmItem m
          onlineMachine := l.onlineMachine.addItem m }).putMachine m new

def restakeOnlineMachine (controller : A) (m : MachineId) : Call (State A) Error Unit := do
  let s ← get
  let i ← okOr (s.machine m) .unknown
  ensure (i.controller = controller) .notMachineController
  ensure (rebondFrequency ≤ s.now - i.lastMachineRestake) .tooFastToReStake
  let perGpu ← okOr s.stakePerGpu .calcStakeAmountFailed
  let need ← okOr (checkedMul u128Max perGpu i.gpuNum) .calcStakeAmountFailed
  ensure (need < i.stakeAmount) .noStakeToReduce
  (changeStake i.machineStash (i.stakeAmount - need) false).mapError fun _ => .reduceStakeFailed
  modify fun s => s.putMachine m (i.restaked need s.now perGpu)

def claimRewards (controller : A) : Call (State A) Error Unit := do
  let s ← get
  let stash ← okOr (s.owners.controllerStash.get controller) .noStashAccount
  let x ← okOr (s.grades.stashMachines.get stash) .notMachineController
  let paid ← okOr x.claimReward .claimRewardFailed
  let balances ← okOr (s.balances.depositIntoExisting stash paid.1) .claimRewardFailed
  set (s.setBalances balances)
  (fulfillMachineStake stash paid.1).mapError fun _ => .claimThenFulfillFailed
  modify fun s => s.putStashMachine stash paid.2

/-! ## Offline and online again -/

/-- `machine_offline`. A rented machine loses its rental grade first. -/
def machineOffline (m : MachineId) (status : MachineStatus A) : Call (State A) Unit Unit := do
  let s ← get
  let i ← okOr (s.machine m) ()
  let s := s.mapLive (·.onOffline m)
  let s := if i.machineStatus = .rented then (s.regionRent i false).snapRent m i false else s
  set (((s.regionOnline i false).snapOnline m i false).putMachine m (i.setStatus status))

def controllerReportOffline (controller : A) (m : MachineId) : Call (State A) Error Unit := do
  let s ← get
  let i ← okOr (s.machine m) .unknown
  ensure (i.controller = controller) .notMachineController
  ensure (i.machineStatus = .online ∨ i.machineStatus = .rented) .machineStatusNotAllowed
  (machineOffline m (.stakerReportOffline s.now i.machineStatus)).mapError fun _ => .unknown

def offlineMachineChangeHardwareInfo (controller : A) (m : MachineId) :
    Call (State A) Error Unit := do
  let s ← get
  let i ← okOr (s.machine m) .unknown
  ensure (i.controller = controller) .notMachineController
  ensure (i.machineStatus = .online) .machineStatusNotAllowed
  let verifyFee ← okOr s.calMutHardwareStake .getReonlineStakeFailed
  let offlineSlash := (Perbill.fromRational 4 100).mul i.stakeAmount
  (changeStake i.machineStash (saturatingAdd u128Max verifyFee offlineSlash) true).mapError
    fun _ => .balanceNotEnough
  modify fun s =>
    ((((s.putMutHardware i.machineStash m ⟨verifyFee, offlineSlash, s.now, false⟩).regionOnline
      i false).snapOnline m i false).mapLive (·.onOfflineChangeHardware m)).putMachine m
        (i.setStatus (.stakerReportOffline s.now .online))

/-- The time a fault was reported, for the faults a committee decides. -/
def faultTime : OPSlashReason → Option Nat
  | .rentedInaccessible t | .rentedHardwareMalfunction t | .rentedHardwareCounterfeit t
  | .onlineRentFailed t => some t
  | _ => none

def offlineTime : MachineStatus A → Option Nat
  | .stakerReportOffline t _ => some t
  | .reporterReportOffline reason .. => faultTime reason
  | _ => none

def statusBefore : MachineStatus A → MachineStatus A
  | .stakerReportOffline _ before => before
  | .reporterReportOffline _ before _ _ => before
  | status => status

/-- The slash a machine brings along when it reports online. The outer option is `none` for a
machine that went offline from neither `Online` nor `Rented`: the call then does nothing. -/
def State.reportOnlineSlash (s : State A) (m : MachineId) (i : MachineInfo A) (duration : Nat) :
    Option (Option (OPPendingSlashInfo A)) :=
  match i.machineStatus with
  | .stakerReportOffline t .online =>
    some (s.newSlashWhenOffline m (.onlineReportOffline t) none [] none duration)
  | .stakerReportOffline t .rented =>
    some (s.newSlashWhenOffline m (.rentedReportOffline t) none i.renters.toList none duration)
  | .reporterReportOffline reason _ reporter committee =>
    some (s.newSlashWhenOffline m reason (some reporter)
      (s.machines.offlineMachine2renters.getD m []) (some committee) duration)
  | _ => none

/-- Whether the slash of a machine that reports online is waived: its fault was already slashed
in full, or it is an old machine that was idle before its staker took it offline. -/
def State.slashWaived (s : State A) (m : MachineId) (i : MachineInfo A) (offline : Nat) : Bool :=
  match i.machineStatus with
  | .reporterReportOffline reason .. =>
    let ever := s.slashes.maxSlashExeced.getD m 0
    reachMaxSlash reason (s.now - offline) && decide (offline < ever ∧ ever < s.now)
  | .stakerReportOffline .. =>
    decide (i.onlineHeight ≤ s.now ∧ 365 * oneDay < s.now - i.onlineHeight ∧
      i.lastOnlineHeight ≤ offline ∧ 10 * oneDay ≤ offline - i.lastOnlineHeight)
  | _ => false

/-- Stake and queue the slash of a machine that reports online, unless it is nothing. -/
def addStakedSlash (stash : A) (slash : OPPendingSlashInfo A) : Call (State A) Error Unit :=
  when (slash.slashAmount ≠ 0) do
    (changeStake stash slash.slashAmount true).mapError fun _ => .balanceNotEnough
    modify fun s => s.mapSlashes (·.addSlash slash)

def State.reonline (s : State A) (m : MachineId) (old i : MachineInfo A) : State A :=
  let s := (s.snapOnline m old true).regionOnline i true
  let s :=
    if i.machineStatus = .rented then
      ((s.mapLive fun l => { l with
          offlineMachine := l.offlineMachine.rmItem m
          rentedMachine := l.rentedMachine.addItem m }).snapRent m old true).regionRent i true
    else
      s.mapLive fun l => { l with
        offlineMachine := l.offlineMachine.rmItem m
        onlineMachine := l.onlineMachine.addItem m }
  (s.mapMachines (·.rmRentedFinished m)).putMachine m i

def controllerReportOnline (controller : A) (m : MachineId) : Call (State A) Error Unit := do
  let s ← get
  let i ← okOr (s.machine m) .unknown
  ensure (i.controller = controller) .notMachineController
  let offline ← okOr (offlineTime i.machineStatus) .machineStatusNotAllowed
  match s.reportOnlineSlash m i (s.now - offline) with
  | none => pure ()
  | some slash => do
    let slash ← okOr slash .unknown
    addStakedSlash i.machineStash
      (if s.slashWaived m i offline then { slash with slashAmount := 0 } else slash)
    let status :=
      if s.machines.rentedFinished.contains m then .online else statusBefore i.machineStatus
    modify fun s => s.reonline m i (i.reonlined s.now status)

/-! ## Exit -/

def doMachineExit (m : MachineId) (i : MachineInfo A) : Call (State A) Error Unit := do
  (changeStake i.machineStash i.stakeAmount false).mapError fun _ => .reduceStakeFailed
  modify fun s =>
    (((((s.mapMachines (·.updateRegionOnExit i)).snapOnline m i false).mapLive
      (·.onExit m)).mapOwners (·.exitMachine i.controller m)).mapMachines (·.rmInfo m))

def machineExit (controller : A) (m : MachineId) : Call (State A) Error Unit := do
  let s ← get
  let i ← okOr (s.machine m) .unknown
  ensure (i.controller = controller) .notMachineController
  ensure (i.machineStatus = .online) .machineStatusNotAllowed
  ensure (i.rewardDeadline ≤ s.grades.eras.currentEra + 365) .timeNotAllowed
  ensure (10 * oneDay ≤ s.now - i.lastOnlineHeight) .timeNotAllowed
  doMachineExit m i

/-- One round of `force_machine_exit`. -/
def forceExitOne (m : MachineId) : Call (State A) Error Unit := do
  let s ← get
  let i ← okOr (s.machine m) .unknown
  doMachineExit m i

def forceMachineExit (signer : A) (machineIds : List MachineId) : Call (State A) Error Unit := do
  let s ← get
  ensure (signer ∈ s.owners.authorizedForceExitAccounts) .notAuthorized
  forEach machineIds forceExitOne

/-! ## Slashes -/

def applySlashReview (controller : A) (id : Nat) (reason : Bytes) : Call (State A) Error Unit := do
  let s ← get
  let slash ← okOr (s.slashes.pendingSlash.get id) .unknown
  let i ← okOr (s.machine slash.machineId) .unknown
  let params ← okOr s.stakes.onlineStakeParams .getReonlineStakeFailed
  ensure (i.controller = controller) .notMachineController
  ensure (s.now < slash.slashExecTime) .expiredSlash
  (changeStake i.machineStash params.slashReviewStake true).mapError fun _ => .balanceNotEnough
  modify fun s => s.mapSlashes (·.putReview id
    { applicant := controller
      stakedAmount := params.slashReviewStake
      applyTime := s.now
      expireTime := slash.slashExecTime
      reason := reason })

/-- `cancel_slash`, from the origin that may cancel slashes. -/
def cancelSlash (id : Nat) : Call (State A) Error Unit := do
  let s ← get
  let slash ← okOr (s.slashes.pendingSlash.get id) .slashIdNotExist
  let review ← okOr (s.slashes.pendingSlashReview.get id) .unknown
  (changeStake slash.slashWho slash.slashAmount false).mapError fun _ => .reduceStakeFailed
  (changeStake slash.slashWho review.stakedAmount false).mapError fun _ => .reduceStakeFailed
  modify fun s => s.mapSlashes (·.cancel id slash.slashExecTime)

/-- `exec_slash`: anybody may queue the full slash of a fault that has lasted long enough. -/
def execSlash (m : MachineId) : Call (State A) Error Unit := do
  let s ← get
  let i ← okOr (s.machine m) .unknown
  match i.machineStatus with
  | .reporterReportOffline reason _ reporter committee => do
    let time ← okOr (faultTime reason) .machineStatusNotAllowed
    ensure (reachMaxSlash reason (s.now - time)) .machineStatusNotAllowed
    let ever := s.slashes.maxSlashExeced.getD m 0
    ensure (¬ (time < ever ∧ ever < s.now)) .machineStatusNotAllowed
    let slash ← okOr (s.newSlashWhenOffline m reason (some reporter)
      (s.machines.offlineMachine2renters.getD m []) (some committee) (s.now - time)) .unknown
    when (slash.slashAmount ≠ 0) (modify fun s => s.mapSlashes (·.addSlash slash))
    modify fun s => s.mapSlashes (·.putMaxSlashExeced m s.now)
  | _ => throw .machineStatusNotAllowed

/-! # What online-profile does for the other pallets

`OCOps` for the online committee, `RTOps` for rent-machine and `MTOps` for the maintain
committee. These are called from hooks as well, where an error does not undo earlier writes. -/

/-! ## OCOps -/

/-- Put a machine into another status and another list, if it has a record. -/
def moveMachine (m : MachineId) (status : MachineStatus A) (f : LiveMachine → LiveMachine) :
    Call (State A) Unit Unit := do
  let s ← get
  let i ← okOr (s.machine m) ()
  set ((s.mapLive f).putMachine m (i.setStatus status))

def bookedMachine (m : MachineId) : Call (State A) Unit Unit :=
  moveMachine m .committeeVerifying fun l =>
    { l with
      confirmedMachine := l.confirmedMachine.rmItem m
      bookedMachine := l.bookedMachine.addItem m }

def revertBookedMachine (m : MachineId) : Call (State A) Unit Unit :=
  moveMachine m .distributingOrder fun l =>
    { l with
      bookedMachine := l.bookedMachine.rmItem m
      confirmedMachine := l.confirmedMachine.addItem m }

/-- The record of a machine with the hardware its committees agreed on; the committees of a
machine that only changed its hardware share no rewards. -/
def State.verified (i : MachineInfo A) (committee : List A) (hardware : CommitteeUploadInfo)
    (isReonline : Bool) : MachineInfo A :=
  { i with
    rewardCommittee := if isReonline then i.rewardCommittee else committee
    committeeUploadInfo := hardware }

/-- The record of a verified machine that goes online with the stake `need`. -/
def State.wentOnline (i : MachineInfo A) (need now deadline : Nat) (isReonline : Bool) :
    MachineInfo A :=
  { i with
    stakeAmount := need
    machineStatus := .online
    lastOnlineHeight := now
    lastMachineRestake := now
    onlineHeight := if isReonline then i.onlineHeight else now
    rewardDeadline := if isReonline then i.rewardDeadline else deadline }

/-- `confirm_machine` once the stake is complete. -/
def State.confirmOnline (s : State A) (m : MachineId) (i : MachineInfo A) (isReonline : Bool) :
    State A :=
  let s := if isReonline then s.rmMutHardware i.machineStash m
    else s.putRecentReward m (newRecentReward i)
  (((s.mapLive fun l =>
    { l with
      bookedMachine := l.bookedMachine.rmItem m
      onlineMachine := l.onlineMachine.addItem m }).regionOnline i true).snapOnline m i
        true).putMachine m i

/-- `confirm_machine` when the missing stake could not be reserved. -/
def State.confirmFulfilling (s : State A) (m : MachineId) (i : MachineInfo A) (offlineTime : Nat) :
    State A :=
  ((s.putMutHardware i.machineStash m ⟨0, 0, offlineTime, true⟩).mapLive fun l =>
    { l with
      bookedMachine := l.bookedMachine.rmItem m
      fulfillingMachine := l.fulfillingMachine.addItem m }).putMachine m
        (i.setStatus .waitingFulfill)

/-- The payments of a machine that changed its hardware: the fee for the committees, and the
slash for having been offline. -/
def State.payReonline (s : State A) (stash : A) (committee : List A)
    (x : UserMutHardwareStakeInfo) : State A :=
  (s.slashAndReward stash x.verifyFee committee).slashAndReward stash x.offlineSlash []

def confirmMachine (committee : List A) (hardware : CommitteeUploadInfo) :
    Call (State A) Unit Unit := do
  let s ← get
  let m := hardware.machineId
  let old ← okOr (s.machine m) ()
  let stash := old.machineStash
  let reonline := s.stakes.userMutHardwareStake.get (stash, m)
  whenSome reonline fun x => modify fun s => s.payReonline stash committee x
  let i := State.verified old committee hardware reonline.isSome
  let need := saturatingMul u128Max i.initStakePerGpu hardware.gpuNum
  let paid ← attempt (when (i.stakeAmount < need)
    (changeStake stash (need - i.stakeAmount) true))
  match paid with
  | .error _ => modify fun s =>
    s.confirmFulfilling m i (reonline.getD .zero).offlineTime
  | .ok _ => modify fun s =>
    s.confirmOnline m (State.wentOnline i need s.now (s.grades.eras.currentEra + rewardDuration)
      reonline.isSome) reonline.isSome

def State.dropRefused (s : State A) (m : MachineId) (i : MachineInfo A) : State A :=
  (((s.putStashMachine i.machineStash ((s.stashMachine i.machineStash).refuseMachine m)).mapOwners
    (·.rmMachine i.controller m)).mapLive fun l =>
      { l with
        bookedMachine := l.bookedMachine.rmItem m
        refusedMachine := l.refusedMachine.addItem m }).mapMachines (·.rmInfo m)

/-- `refuse_machine`. It returns the stash and the stake to slash; a machine that only changed
its hardware pays its committees instead and returns nothing (an error here). -/
def refuseMachine (committee : List A) (m : MachineId) : Call (State A) Unit (A × Nat) := do
  let s ← get
  let i ← okOr (s.machine m) ()
  match s.stakes.userMutHardwareStake.get (i.machineStash, m) with
  | some x => do
    set (((s.mapLive fun l =>
      { l with
        bookedMachine := l.bookedMachine.rmItem m
        bondingMachine := l.bondingMachine.addItem m }).slashAndReward i.machineStash x.verifyFee
          committee).putMutHardware i.machineStash m { x with verifyFee := 0 })
    throw ()
  | none => do
    let slash := (Perbill.fromRational 5 100).mul i.stakeAmount
    ignore (changeStake i.machineStash (i.stakeAmount - slash) false)
    modify fun s => s.dropRefused m i
    pure (i.machineStash, slash)

/-- `exec_slash` of `OCOps` and `mt_rm_stash_total_stake` of `MTOps`: the records of a stake that
the caller takes from the reserve. -/
def rmStashTotalStake (stash : A) (amount : Nat) : Call (State A) Unit Unit := do
  let s ← get
  let total ← okOr (checkedSub s.grades.sysInfo.totalStake amount) ()
  let stake ← okOr (checkedSub (s.stashStake stash) amount) ()
  set ((s.setStashStake stash stake).mapSysInfo (·.setTotalStake total))

/-! ## RTOps -/

def State.getMachinePrice (s : State A) (point needGpu totalGpu : Nat) : Option Nat :=
  if totalGpu = 0 then none
  else
    s.stakes.standardGpuPointPrice.bind fun p =>
      (checkedMul u64Max p.gpuPrice point).bind fun n =>
        (checkedMul u64Max n 10000).bind fun n =>
          if p.gpuPoint = 0 then none
          else (checkedMul u64Max (n / p.gpuPoint) needGpu).map fun n => n / totalGpu / 10000

def changeMachineStatusOnRentStart (m : MachineId) (gpuNum : Nat) : Call (State A) Unit Unit := do
  let s ← get
  let i ← okOr (s.machine m) ()
  set ((s.putMachine m (i.setStatus .rented)).mapMachines fun x =>
    x.setRentedGpu m (saturatingAdd u32Max (x.rentedGpu m) gpuNum))

def State.confirmedBy (i : MachineInfo A) (renter : A) : MachineInfo A :=
  { i with
    renters := i.renters.addItem renter
    totalRentedTimes := wrappingAdd u64Max i.totalRentedTimes 1 }

/-- `change_machine_status_on_confirmed`. The grade changes with the first confirmed rental. -/
def changeMachineStatusOnConfirmed (m : MachineId) (renter : A) : Call (State A) Unit Unit := do
  let s ← get
  let i ← okOr (s.machine m) ()
  let new := State.confirmedBy i renter
  let s :=
    if m ∈ s.machines.liveMachines.rentedMachine then s
    else
      ((s.snapRent m i true).mapLive fun l =>
        { l with
          onlineMachine := l.onlineMachine.rmItem m
          rentedMachine := l.rentedMachine.addItem m }).regionRent new true
  set (s.putMachine m new)

def State.rentEnded (i : MachineInfo A) (rentedGpuNum duration : Nat) (isRenterLastRent : Bool)
    (renter : A) : MachineInfo A :=
  { i with
    totalRentedDuration := wrappingAdd u32Max i.totalRentedDuration
      ((Perbill.fromRational rentedGpuNum i.gpuNum).mul duration)
    renters := if isRenterLastRent then i.renters.rmItem renter else i.renters }

/-- `change_machine_status_on_rent_end`. A machine without cards is left as it is. -/
def changeMachineStatusOnRentEnd (m : MachineId) (rentedGpuNum duration : Nat)
    (isMachineLastRent isRenterLastRent : Bool) (renter : A) : Call (State A) Unit Unit := do
  let s ← get
  let i ← okOr (s.machine m) ()
  if i.gpuNum = 0 then pure ()
  else do
    let new := State.rentEnded i rentedGpuNum duration isRenterLastRent renter
    let left := s.machines.rentedGpu m - rentedGpuNum
    if i.machineStatus.isOffline then
      set ((s.mapMachines fun x => (x.putRentedFinished m renter).setRentedGpu m left).putMachine
        m new)
    else if i.machineStatus = .rented ∧ isMachineLastRent then
      let new := new.reonlined s.now .online
      set ((((s.snapRent m i false).regionRent new false).mapMachines fun x =>
        (x.setRentedGpu m left).mapLive fun l =>
          { l with
            rentedMachine := l.rentedMachine.rmItem m
            onlineMachine := l.onlineMachine.addItem m }).putMachine m new)
    else
      set ((s.mapMachines fun x => x.setRentedGpu m left).putMachine m new)

/-- `change_machine_status_on_confirm_expired`. The machine is only looked at when its last
rental is over. -/
def changeMachineStatusOnConfirmExpired (m : MachineId) (gpuNum : Nat) :
    Call (State A) Unit Unit := do
  let s ← get
  let left := s.machines.rentedGpu m - gpuNum
  if left = 0 then do
    let i ← okOr (s.machine m) ()
    modify fun s => s.putMachine m (i.setStatus .online)
  else pure ()
  modify fun s => s.mapMachines fun x => x.setRentedGpu m left

def changeMachineRentFee (stash : A) (m : MachineId) (feeToDestroy feeToStash : Nat) :
    Call (State A) Unit Unit := do
  fulfillMachineStake stash feeToStash
  let s ← get
  let i ← okOr (s.machine m) ()
  set (((s.mapSysInfo (·.changeRentFee feeToDestroy feeToStash)).putStashMachine
    i.machineStash
      ((s.stashMachine i.machineStash).changeRentFee feeToDestroy feeToStash)).putMachine
      m (i.changeRentFee feeToDestroy feeToStash))

/-! ## MTOps -/

def mtMachineOffline (reporter : A) (committee : List A) (m : MachineId)
    (fault : OPSlashReason) : Call (State A) Unit Unit := do
  let s ← get
  let i ← okOr (s.machine m) ()
  machineOffline m (.reporterReportOffline fault i.machineStatus reporter committee)

def State.addOfflineMachineToRenters (s : State A) (m : MachineId) (renters : List A) : State A :=
  s.mapMachines fun x => x.putOfflineRenters m renters

/-! # Era rewards and the block hook

A new era starts in the second block of a day. In the third block the machines to be rewarded
are listed, and in the sixty blocks after that the reward of the era before is shared out among
them by grade: a quarter at once, the rest over 150 eras. -/

open List

def Grades.currentEraReward (g : Grades A) : Option Nat :=
  g.phaseRewardInfo.bind fun p =>
    if g.eras.currentEra < p.onlineRewardStartEra then none
    else
      let duration := g.eras.currentEra - p.onlineRewardStartEra
      let reward :=
        if duration < p.firstPhaseDuration then p.phase0RewardPerEra
        else if duration < p.firstPhaseDuration + 1825 then p.phase1RewardPerEra
        else p.phase2RewardPerEra
      if p.galaxyOnEra ≠ 0 ∧ g.eras.currentEra < p.galaxyOnEra + 60 then checkedMul u128Max reward 2
      else some reward

def State.newEra (s : State A) : State A :=
  let s := s.mapGrades Grades.startEra
  s.mapRewards fun r =>
    { r with
      eraReward := r.eraReward.insert s.grades.eras.currentEra (s.grades.currentEraReward.getD 0) }

omit [LinearOrder A] in
/-- `MachineRecentRewardInfo::add_new_reward`: at most 150 rewards are kept. -/
def MachineRecentRewardInfo.addNewReward (x : MachineRecentRewardInfo A) (amount : Nat) :
    MachineRecentRewardInfo A :=
  let full := x.recentMachineReward.length = 150
  { x with
    recentMachineReward :=
      (if full then x.recentMachineReward.tail else x.recentMachineReward) ++ [amount]
    recentRewardSum := saturatingAdd u128Max x.recentRewardSum amount -
      if full then x.recentMachineReward.headD 0 else 0 }

def MachineGradeStatus.machineActualGrade (x : MachineGradeStatus) (inflation : Perbill) : Nat :=
  saturatingAdd u64Max
    (saturatingAdd u64Max x.basicGrade (if x.isRented then gradeOnRent x.basicGrade else 0))
    (inflation.mul x.basicGrade)

/-- `calc_machine_total_reward`, in an era with the total reward `eraReward`. -/
def calcMachineTotalReward (m : MachineId) (stash : A) (eraReward : Nat)
    (machinePoints : StorageMap MachineId MachineGradeStatus) (stashPoints : EraStashPoints A) :
    Nat :=
  let grade := match machinePoints.get m, stashPoints.stakerStatistic.get stash with
    | some x, some y => x.machineActualGrade y.inflation
    | _, _ => 0
  if stashPoints.total = 0 then 0
  else (Perbill.fromRational grade stashPoints.total).mul eraReward

/-- The share of a reward that is released to the stash and to the committees. -/
def releasedShares (x : MachineRecentRewardInfo A) (releaseEra released : Nat) : Nat × Nat :=
  if x.rewardCommitteeDeadline < releaseEra then (released, 0)
  else
    let toStash := (Perbill.fromRational 99 100).mul released
    (toStash, released - toStash)

/-- What the stash gets of a reward in the end: the committees take a hundredth of what is
released until their deadline. -/
def actualTotalReward (x : MachineRecentRewardInfo A) (releaseEra total : Nat) : Nat :=
  if x.rewardCommitteeDeadline < releaseEra then total
  else if x.rewardCommitteeDeadline - 150 < releaseEra then
    let daily := (Perbill.fromRational 1 200).mul total
    total - (Perbill.fromRational 1 100).mul daily * (x.rewardCommitteeDeadline - releaseEra)
  else (Perbill.fromRational 99 100).mul total

def State.rewardCommittees (s : State A) (committee : List A) (each : Nat) : State A :=
  committee.foldl (fun s c => s.setCommitteeState (Committee.addReward s.toCommittee c each)) s

def Rewards.record (r : Rewards A) (era : Nat) (m : MachineId) (stash : A)
    (actual toStash : Nat) : Rewards A :=
  { r with
    erasMachineReward := r.erasMachineReward.insert (era, m) actual
    erasStashReward := r.erasStashReward.insert (era, stash)
      (saturatingAdd u128Max (r.erasStashReward.getD (era, stash) 0) actual)
    erasMachineReleasedReward := r.erasMachineReleasedReward.insert (era, m)
      (saturatingAdd u128Max (r.erasMachineReleasedReward.getD (era, m) 0) toStash)
    erasStashReleasedReward := r.erasStashReleasedReward.insert (era, stash)
      (saturatingAdd u128Max (r.erasStashReleasedReward.getD (era, stash) 0) toStash) }

def State.distributeRewardToMachine (releaseEra eraReward : Nat)
    (machinePoints : StorageMap MachineId MachineGradeStatus) (stashPoints : EraStashPoints A)
    (s : State A) (m : MachineId) : State A :=
  match s.rewards.machineRecentReward.get m with
  | none => s
  | some old =>
    let stash := old.machineStash
    let total := calcMachineTotalReward m stash eraReward machinePoints stashPoints
    let x := old.addNewReward total
    if x.recentRewardSum = 0 then s.putRecentReward m x
    else
      let released := (Perbill.fromRational 49 200).mul (x.recentMachineReward.getLastD 0) +
        (Perbill.fromRational 1 200).mul x.recentRewardSum
      let shares := releasedShares x releaseEra released
      let actual := actualTotalReward x releaseEra total
      let s := s.rewardCommittees x.rewardCommittee
        ((Perbill.fromRational 1 x.rewardCommittee.length).mul shares.2)
      let y := s.stashMachine stash
      ((s.putStashMachine stash
        { y with
          canClaimReward := saturatingAdd u128Max y.canClaimReward shares.1
          totalEarnedReward := saturatingAdd u128Max y.totalEarnedReward actual }).mapRewards
            fun r => r.record releaseEra m stash actual shares.1).putRecentReward m x

def Rewards.setSnap (r : Rewards A) (l : List MachineId) (len : Nat) : Rewards A :=
  { r with allMachineIdSnap := l, snapLen := len }

def State.backupAndReward (s : State A) : State A :=
  let offset := s.now % oneDay
  if offset = 2 then
    let all := s.grades.stashMachines.iter.flatMap fun e => e.2.totalMachine.toList
    s.mapRewards fun r => r.setSnap all all.length
  else if 3 ≤ offset ∧ offset ≤ 62 then
    let count := s.rewards.snapLen / 60 + 1
    let era := s.grades.eras.currentEra - 1
    let all := s.rewards.allMachineIdSnap
    ((all.take count).foldl (distributeRewardToMachine era (s.rewards.eraReward.getD era 0)
      (s.grades.eras.machinePoints era) (s.grades.eras.stashPoints era)) s).mapRewards fun r =>
        r.setSnap (all.drop count) r.snapLen
  else s

def State.onInitialize (s : State A) : State A :=
  let s := s.backupAndReward
  let s := if s.now % oneDay = 1 then s.newEra else s
  (checkPendingSlash.run s.execPendingSlash).2

theorem onInitialize_idle {s : State A} (hd : s.now % oneDay ≠ 1 ∧ s.now % oneDay ≠ 2)
    (hsnap : s.rewards.allMachineIdSnap = []) (he : s.slashes.pendingExecSlash.get s.now = none)
    (hc : s.slashes.pendingSlashReviewChecking.get s.now = none) : s.onInitialize = s := by
  have hreward : s.backupAndReward = s := by
    unfold State.backupAndReward
    simp only [if_neg hd.2]
    split
    · rw [hsnap]
      simp only [take_nil, foldl_nil, drop_nil]
      rw [← hsnap]
      rfl
    · rfl
  have hexec : s.execPendingSlash = s := by
    unfold State.execPendingSlash StorageMap.getD
    rw [he]
    rfl
  have hcheck : (checkPendingSlash.run s).2 = s := by
    unfold checkPendingSlash StorageMap.contains
    rw [run_bind, run_get]
    simp only [hc, Option.isSome_none, Bool.false_eq_true, if_false, run_pure]
  unfold State.onInitialize
  simp only [hreward, if_neg hd.1, hexec, hcheck]

end

end DeepBrainChain.OnlineProfile
