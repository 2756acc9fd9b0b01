import DeepBrainChain.Lib.StorageMap
import DeepBrainChain.Lib.Arith
import DeepBrainChain.Lib.SortedVec
import Mathlib.Data.List.Lex
import Mathlib.Order.Fin.Basic
import DeepBrainChain.Lib.Plurality

/-!
# Machines

The data the machine pallets share: block constants, the status of a machine, the information
its committees and its staker submit, the record of a machine, the lists of live machines, the
statistics of a stash and the pending slashes of a stash.
-/

namespace DeepBrainChain.Support

open Lib

abbrev Bytes := List (Fin 256)

def byte (n : Nat) : Fin 256 := ⟨n % 256, Nat.mod_lt n (Nat.succ_pos 255)⟩

abbrev MachineId := Bytes

/-! ## Durations, in blocks -/

def oneMinute : Nat := 10
def sevenMinutes : Nat := 7 * oneMinute
def halfHour : Nat := 30 * oneMinute
def oneHour : Nat := 60 * oneMinute
def fourHours : Nat := 4 * oneHour
def oneDay : Nat := 24 * oneHour
def twoDays : Nat := 2 * oneDay
def fiveDays : Nat := 5 * oneDay
def tenDays : Nat := 10 * oneDay

/-! ## Status -/

/-- `OPSlashReason`: why a stash is punished, with the time the fault was reported. -/
inductive OPSlashReason
  | rentedReportOffline (time : Nat)
  | onlineReportOffline (time : Nat)
  | rentedInaccessible (time : Nat)
  | rentedHardwareMalfunction (time : Nat)
  | rentedHardwareCounterfeit (time : Nat)
  | onlineRentFailed (time : Nat)
  | committeeRefusedOnline
  | committeeRefusedMutHardware
  | reonlineShouldReward
deriving DecidableEq

/-- `MachineStatus`. An offline machine remembers the status it had. -/
inductive MachineStatus (A : Type)
  | addingCustomizeInfo
  | distributingOrder
  | committeeVerifying
  | committeeRefused (time : Nat)
  | waitingFulfill
  | online
  | stakerReportOffline (time : Nat) (before : MachineStatus A)
  | reporterReportOffline (reason : OPSlashReason) (before : MachineStatus A) (reporter : A)
      (committee : List A)
  | creating
  | rented
  | exit
deriving DecidableEq

namespace MachineStatus

variable {A : Type}

/-- The machine was taken offline by its staker or by a reporter. -/
def isOffline : MachineStatus A → Bool
  | stakerReportOffline .. | reporterReportOffline .. => true
  | _ => false

end MachineStatus

/-! ## Hardware -/

structure CommitteeUploadInfo where
  machineId : MachineId
  gpuType : Bytes
  gpuNum : Nat
  cudaCore : Nat
  gpuMem : Nat
  calcPoint : Nat
  sysDisk : Nat
  dataDisk : Nat
  cpuType : Bytes
  cpuCoreNum : Nat
  cpuRate : Nat
  memNum : Nat
  randStr : Bytes
  isSupport : Bool
deriving DecidableEq

def CommitteeUploadInfo.zero : CommitteeUploadInfo :=
  ⟨[], [], 0, 0, 0, 0, 0, 0, [], 0, 0, 0, [], false⟩

inductive Longitude
  | east (degree : Nat)
  | west (degree : Nat)
deriving DecidableEq

inductive Latitude
  | south (degree : Nat)
  | north (degree : Nat)
deriving DecidableEq

/-- `StakerCustomizeInfo`. The network speeds and the bare-machine flag are stored and never
read; they are left out. -/
structure StakerCustomizeInfo where
  serverRoom : Nat
  longitude : Longitude
  latitude : Latitude
  telecomOperators : List Bytes
deriving DecidableEq

def StakerCustomizeInfo.zero : StakerCustomizeInfo := ⟨0, .east 0, .north 0, []⟩

/-! ## The record of a machine -/

structure MachineInfo (A : Type) [LinearOrder A] where
  controller : A
  machineStash : A
  renters : SortedVec A
  lastMachineRestake : Nat
  bondingHeight : Nat
  onlineHeight : Nat
  lastOnlineHeight : Nat
  initStakePerGpu : Nat
  stakeAmount : Nat
  machineStatus : MachineStatus A
  totalRentedDuration : Nat
  totalRentedTimes : Nat
  totalRentFee : Nat
  totalBurnFee : Nat
  committeeUploadInfo : CommitteeUploadInfo
  stakerCustomizeInfo : StakerCustomizeInfo
  rewardCommittee : List A
  rewardDeadline : Nat
deriving DecidableEq

namespace MachineInfo

variable {A : Type} [LinearOrder A]

def newBonding (controller stash : A) (now initStakePerGpu : Nat) : MachineInfo A where
  controller := controller
  machineStash := stash
  renters := ∅
  lastMachineRestake := 0
  bondingHeight := now
  onlineHeight := 0
  lastOnlineHeight := 0
  initStakePerGpu := initStakePerGpu
  stakeAmount := initStakePerGpu
  machineStatus := .addingCustomizeInfo
  totalRentedDuration := 0
  totalRentedTimes := 0
  totalRentFee := 0
  totalBurnFee := 0
  committeeUploadInfo := .zero
  stakerCustomizeInfo := .zero
  rewardCommittee := []
  rewardDeadline := 0

def gpuNum (i : MachineInfo A) : Nat := i.committeeUploadInfo.gpuNum

def calcPoint (i : MachineInfo A) : Nat := i.committeeUploadInfo.calcPoint

def longitude (i : MachineInfo A) : Longitude := i.stakerCustomizeInfo.longitude

def latitude (i : MachineInfo A) : Latitude := i.stakerCustomizeInfo.latitude

def setStatus (i : MachineInfo A) (status : MachineStatus A) : MachineInfo A :=
  { i with machineStatus := status }

def setStakeAmount (i : MachineInfo A) (amount : Nat) : MachineInfo A :=
  { i with stakeAmount := amount }

def setController (i : MachineInfo A) (controller : A) : MachineInfo A :=
  { i with controller := controller }

def restaked (i : MachineInfo A) (amount now perGpu : Nat) : MachineInfo A :=
  { i with stakeAmount := amount, lastMachineRestake := now, initStakePerGpu := perGpu }

/-- The record of a machine that is online again, or rented, since `now`. -/
def reonlined (i : MachineInfo A) (now : Nat) (status : MachineStatus A) : MachineInfo A :=
  { i with lastOnlineHeight := now, machineStatus := status }

def fulfilled (i : MachineInfo A) (amount now deadline : Nat) : MachineInfo A :=
  { i with
    stakeAmount := amount
    machineStatus := .online
    onlineHeight := now
    rewardDeadline := deadline
    lastOnlineHeight := now
    lastMachineRestake := now }

def changeRentFee (i : MachineInfo A) (feeToDestroy feeToStash : Nat) : MachineInfo A :=
  { i with
    totalBurnFee := saturatingAdd u128Max i.totalBurnFee feeToDestroy
    totalRentFee := saturatingAdd u128Max i.totalRentFee feeToStash }

/-- The states in which the staker may describe the location (`can_add_server_room`). -/
def canAddServerRoom (i : MachineInfo A) : Bool :=
  match i.machineStatus with
  | .addingCustomizeInfo | .distributingOrder | .committeeVerifying | .committeeRefused _
  | .waitingFulfill | .stakerReportOffline .. => true
  | _ => false

def addServerRoomInfo (i : MachineInfo A) (info : StakerCustomizeInfo) : MachineInfo A :=
  { i with
    stakerCustomizeInfo := info
    machineStatus := match i.machineStatus with
      | .addingCustomizeInfo => .distributingOrder
      | status => status }

/-! ### As terminating-rental uses it -/

def bondMachine (controller stash : A) (now stakeAmount : Nat) : MachineInfo A :=
  { newBonding controller stash now 0 with stakeAmount := stakeAmount }

def canAddCustomizeInfo (i : MachineInfo A) : Bool :=
  match i.machineStatus with
  | .addingCustomizeInfo | .committeeVerifying | .committeeRefused _ | .waitingFulfill
  | .stakerReportOffline .. => true
  | _ => false

def addMachineInfo (i : MachineInfo A) (info : StakerCustomizeInfo) : MachineInfo A :=
  { i with stakerCustomizeInfo := info, machineStatus := .distributingOrder }

def machineOnline (i : MachineInfo A) (now : Nat) (info : CommitteeUploadInfo) : MachineInfo A :=
  { i with
    stakeAmount := 0
    machineStatus := .online
    lastOnlineHeight := now
    onlineHeight := now
    committeeUploadInfo := info }

/-- `MachineInfo::machine_offline`: the status before it is forgotten. -/
def machineOffline (i : MachineInfo A) (time : Nat) : MachineInfo A :=
  { i with machineStatus := .stakerReportOffline time .addingCustomizeInfo }

def canRent (i : MachineInfo A) : Bool :=
  match i.machineStatus with
  | .online | .rented => true
  | _ => false

end MachineInfo

/-! ## Lists of machines -/

/-- `LiveMachine`: the machines, listed by what they are waiting for. -/
structure LiveMachine where
  bondingMachine : SortedVec MachineId
  confirmedMachine : SortedVec MachineId
  bookedMachine : SortedVec MachineId
  onlineMachine : SortedVec MachineId
  fulfillingMachine : SortedVec MachineId
  refusedMachine : SortedVec MachineId
  rentedMachine : SortedVec MachineId
  offlineMachine : SortedVec MachineId

namespace LiveMachine

def zero : LiveMachine := ⟨∅, ∅, ∅, ∅, ∅, ∅, ∅, ∅⟩

def onBonding (l : LiveMachine) (m : MachineId) : LiveMachine :=
  { l with bondingMachine := l.bondingMachine.addItem m }

def onAddServerRoom (l : LiveMachine) (m : MachineId) : LiveMachine :=
  if m ∈ l.bondingMachine then
    { l with
      bondingMachine := l.bondingMachine.rmItem m
      confirmedMachine := l.confirmedMachine.addItem m }
  else l

def onOfflineChangeHardware (l : LiveMachine) (m : MachineId) : LiveMachine :=
  { l with
    onlineMachine := l.onlineMachine.rmItem m
    bondingMachine := l.bondingMachine.addItem m }

def onOffline (l : LiveMachine) (m : MachineId) : LiveMachine :=
  { l with
    onlineMachine := l.onlineMachine.rmItem m
    rentedMachine := l.rentedMachine.rmItem m
    offlineMachine := l.offlineMachine.addItem m }

def onExit (l : LiveMachine) (m : MachineId) : LiveMachine :=
  { l with onlineMachine := l.onlineMachine.rmItem m }

def addMachineInfo (l : LiveMachine) (m : MachineId) : LiveMachine :=
  { l with
    bondingMachine := l.bondingMachine.rmItem m
    confirmedMachine := l.confirmedMachine.addItem m }

def refuseMachine (l : LiveMachine) (m : MachineId) : LiveMachine :=
  { l with
    bookedMachine := l.bookedMachine.rmItem m
    refusedMachine := l.refusedMachine.addItem m }

def revertBook (l : LiveMachine) (m : MachineId) : LiveMachine :=
  { l with
    bookedMachine := l.bookedMachine.rmItem m
    confirmedMachine := l.confirmedMachine.addItem m }

def machineOffline (l : LiveMachine) (m : MachineId) : LiveMachine := l.onOffline m

def machineExit (l : LiveMachine) (m : MachineId) : LiveMachine :=
  { l with
    onlineMachine := l.onlineMachine.rmItem m
    rentedMachine := l.rentedMachine.rmItem m }

end LiveMachine

structure StashMachine where
  totalMachine : SortedVec MachineId
  onlineMachine : SortedVec MachineId
  totalCalcPoints : Nat
  totalGpuNum : Nat
  totalRentedGpu : Nat
  totalEarnedReward : Nat
  totalClaimedReward : Nat
  canClaimReward : Nat
  totalRentFee : Nat
  totalBurnFee : Nat

namespace StashMachine

def zero : StashMachine := ⟨∅, ∅, 0, 0, 0, 0, 0, 0, 0, 0⟩

def newBonding (x : StashMachine) (m : MachineId) : StashMachine :=
  { x with totalMachine := x.totalMachine.addItem m }

def refuseMachine (x : StashMachine) (m : MachineId) : StashMachine :=
  { x with totalMachine := x.totalMachine.rmItem m }

def machineOnline (x : StashMachine) (m : MachineId) (gpuNum calcPoint : Nat) : StashMachine :=
  { x with
    onlineMachine := x.onlineMachine.addItem m
    totalGpuNum := saturatingAdd u64Max x.totalGpuNum gpuNum
    totalCalcPoints := saturatingAdd u64Max x.totalCalcPoints calcPoint }

def machineExit (x : StashMachine) (m : MachineId) (calcPoint gpuCount rentedGpuCount : Nat) :
    StashMachine :=
  { x with
    totalMachine := x.totalMachine.rmItem m
    onlineMachine := x.onlineMachine.rmItem m
    totalCalcPoints := x.totalCalcPoints - calcPoint
    totalGpuNum := x.totalGpuNum - gpuCount
    totalRentedGpu := x.totalRentedGpu - rentedGpuCount }

/-- `StashMachine::claim_reward`: what is paid out, and the statistics after it. -/
def claimReward (x : StashMachine) : Option (Nat × StashMachine) :=
  (checkedAdd u128Max x.totalClaimedReward x.canClaimReward).map fun claimed =>
    (x.canClaimReward, { x with canClaimReward := 0, totalClaimedReward := claimed })

def changeRentFee (x : StashMachine) (feeToDestroy feeToStash : Nat) : StashMachine :=
  { x with
    totalBurnFee := saturatingAdd u128Max x.totalBurnFee feeToDestroy
    totalRentFee := saturatingAdd u128Max x.totalRentFee feeToStash }

end StashMachine

/-! ## Pending slashes -/

/-- `OPPendingSlashInfo`: a slash of a stash that waits to be executed. -/
structure OPPendingSlashInfo (A : Type) where
  slashWho : A
  machineId : MachineId
  slashTime : Nat
  slashAmount : Nat
  slashExecTime : Nat
  reporter : Option A
  renters : List A
  rewardToCommittee : Option (List A)
  slashReason : OPSlashReason
deriving DecidableEq

/-- `OPPendingSlashReviewInfo`: the review a controller applied for. -/
structure OPPendingSlashReviewInfo (A : Type) where
  applicant : A
  stakedAmount : Nat
  applyTime : Nat
  expireTime : Nat
  reason : Bytes
deriving DecidableEq

/-! # The verification of a machine

Three committees verify a machine: each submits a hash of what it found, and then what it found.
The summary compares the reports: it confirms or refuses the machine, or finds no consensus, and
sorts the committees into those that agree with the result, those that do not, and the unruly ones
that submitted nothing. -/

/-- 36 hours for the hashes. -/
def submitHashEnd : Nat := 36 * oneHour

/-- The reports may be submitted 36 hours after the order was distributed. -/
def submitRawStart : Nat := 36 * oneHour

/-- The summary is due 48 hours after the order was distributed. -/
def submitRawEnd : Nat := 48 * oneHour

inductive VerifyErr
  | notInBookList
  | timeNotAllow
  | alreadySubmitHash
  | alreadySubmitRaw
  | notSubmitHash
  | overflow

inductive VerifyResult
  | confirmed
  | refused
  | noConsensus
deriving DecidableEq

inductive OCBookResultType
  | onlineSucceed
  | onlineRefused
  | noConsensus
deriving DecidableEq

inductive OCVerifyStatus
  | submittingHash
  | submittingRaw
  | summarizing
  | finished
deriving DecidableEq

inductive OCMachineStatus
  | booked
  | hashed
  | confirmed

/-! ## What a committee submits -/

namespace CommitteeUploadInfo

/-- `join_str`, on numbers. -/
def joinStr (items : List Nat) : Bytes :=
  items.flatMap fun n => (Nat.toDigits 10 n).map fun c => byte c.toNat

/-- The text whose hash a committee submits first. -/
def rawInfo (x : CommitteeUploadInfo) : Bytes :=
  x.machineId ++ x.gpuType ++
    joinStr [x.gpuNum, x.cudaCore, x.gpuMem, x.calcPoint, x.sysDisk, x.dataDisk] ++
    x.cpuType ++ joinStr [x.cpuCoreNum, x.cpuRate, x.memNum] ++ x.randStr ++
    [byte (if x.isSupport then 49 else 48)]

end CommitteeUploadInfo

structure OCCommitteeOps where
  stakedDbc : Nat
  verifyTime : List Nat
  confirmHash : Bytes
  hashTime : Nat
  confirmTime : Nat
  machineStatus : OCMachineStatus
  machineInfo : CommitteeUploadInfo

namespace OCCommitteeOps

def zero : OCCommitteeOps :=
  ⟨0, [], List.replicate 16 (byte 0), 0, 0, .booked, CommitteeUploadInfo.zero⟩

def book (x : OCCommitteeOps) (stake : Nat) (verifyTime : List Nat) : OCCommitteeOps :=
  { x with stakedDbc := stake, verifyTime := verifyTime, machineStatus := .booked }

def submitHash (x : OCCommitteeOps) (time : Nat) (hash : Bytes) : OCCommitteeOps :=
  { x with machineStatus := .hashed, confirmHash := hash, hashTime := time }

def submitRaw (x : OCCommitteeOps) (time : Nat) (info : CommitteeUploadInfo) : OCCommitteeOps :=
  { x with
    confirmTime := time
    machineStatus := .confirmed
    machineInfo := { info with randStr := [] } }

end OCCommitteeOps

structure OCCommitteeMachineList where
  bookedMachine : SortedVec MachineId
  hashedMachine : SortedVec MachineId
  confirmedMachine : SortedVec MachineId
  onlineMachine : SortedVec MachineId

namespace OCCommitteeMachineList

def zero : OCCommitteeMachineList := ⟨∅, ∅, ∅, ∅⟩

def book (x : OCCommitteeMachineList) (m : MachineId) : OCCommitteeMachineList :=
  { x with bookedMachine := x.bookedMachine.addItem m }

def online (x : OCCommitteeMachineList) (m : MachineId) : OCCommitteeMachineList :=
  { x with onlineMachine := x.onlineMachine.addItem m }

def submitHash (x : OCCommitteeMachineList) (m : MachineId) : OCCommitteeMachineList :=
  { x with
    bookedMachine := x.bookedMachine.rmItem m
    hashedMachine := x.hashedMachine.addItem m }

def submitRaw (x : OCCommitteeMachineList) (m : MachineId) :
    Except VerifyErr OCCommitteeMachineList :=
  if m ∉ x.hashedMachine then .error .notSubmitHash
  else if m ∈ x.confirmedMachine then .error .alreadySubmitRaw
  else .ok
    { x with
      hashedMachine := x.hashedMachine.rmItem m
      confirmedMachine := x.confirmedMachine.addItem m }

/-- `revert_book` and `online_cleanup`. -/
def cleanup (x : OCCommitteeMachineList) (m : MachineId) : OCCommitteeMachineList :=
  { x with
    bookedMachine := x.bookedMachine.rmItem m
    hashedMachine := x.hashedMachine.rmItem m
    confirmedMachine := x.confirmedMachine.rmItem m }

end OCCommitteeMachineList

section

variable {A : Type} [LinearOrder A]

/-! ## The summary -/

/-- `Summary`. The votes are kept in the order of the accounts. -/
structure Summary (A : Type) [LinearOrder A] where
  validVote : SortedVec A
  invalidVote : SortedVec A
  unruly : SortedVec A
  info : Option CommitteeUploadInfo
  verifyResult : VerifyResult

namespace Summary

def shouldSlashCommittee (x : Summary A) : Bool :=
  !x.unruly.isEmpty || (x.verifyResult != .noConsensus && !x.invalidVote.isEmpty)

def intoBookResult (x : Summary A) : OCBookResultType :=
  match x.verifyResult with
  | .confirmed => .onlineSucceed
  | .refused => .onlineRefused
  | .noConsensus => .noConsensus

end Summary

structure OCMachineCommitteeList (A : Type) [LinearOrder A] where
  bookTime : Nat
  bookedCommittee : SortedVec A
  hashedCommittee : SortedVec A
  confirmStartTime : Nat
  confirmedCommittee : SortedVec A
  onlinedCommittee : SortedVec A
  status : OCVerifyStatus

namespace OCMachineCommitteeList

def zero : OCMachineCommitteeList A := ⟨0, ∅, ∅, 0, ∅, ∅, .submittingHash⟩

def book (x : OCMachineCommitteeList A) (who : A) (now confirmStart : Nat) :
    OCMachineCommitteeList A :=
  { x with
    bookedCommittee := x.bookedCommittee.addItem who
    bookTime := now
    confirmStartTime := confirmStart }

def submitHash (x : OCMachineCommitteeList A) (committee : A) :
    Except VerifyErr (OCMachineCommitteeList A) :=
  if committee ∉ x.bookedCommittee then .error .notInBookList
  else if committee ∈ x.hashedCommittee then .error .alreadySubmitHash
  else
    let hashed := x.hashedCommittee.addItem committee
    .ok
      { x with
        hashedCommittee := hashed
        status := if x.bookedCommittee.length = hashed.length then .submittingRaw else x.status }

def canSubmitRaw (x : OCMachineCommitteeList A) (now : Nat) : Bool :=
  x.status = .submittingHash ∧ submitRawStart + x.bookTime ≤ now

def submitRaw (x : OCMachineCommitteeList A) (time : Nat) (committee : A) :
    Except VerifyErr (OCMachineCommitteeList A) :=
  if x.status ≠ .submittingRaw ∧
      (time < x.confirmStartTime ∨ submitRawEnd + x.bookTime < time) then .error .timeNotAllow
  else if committee ∉ x.hashedCommittee then .error .notSubmitHash
  else
    let confirmed := x.confirmedCommittee.addItem committee
    .ok
      { x with
        confirmedCommittee := confirmed
        status := if confirmed.length = x.hashedCommittee.length then .summarizing else x.status }

def canSummary (x : OCMachineCommitteeList A) (now : Nat) : Bool :=
  x.status = .summarizing ∨ x.status = .submittingRaw ∧ submitRawEnd + x.bookTime ≤ now

def startRaw (x : OCMachineCommitteeList A) : OCMachineCommitteeList A :=
  { x with status := .submittingRaw }

def summaryUnruly (x : OCMachineCommitteeList A) : SortedVec A :=
  SortedVec.expandToOrder ∅ (x.bookedCommittee.toList.filter (· ∉ x.confirmedCommittee))

def afterSummary (x : OCMachineCommitteeList A) (summary : Summary A) : OCMachineCommitteeList A :=
  match summary.verifyResult with
  | .confirmed => { x with status := .finished, onlinedCommittee := summary.validVote }
  | .noConsensus => x
  | .refused => { x with status := .finished }

def twoAgainstOne (x : OCMachineCommitteeList A) (info : CommitteeUploadInfo)
    (valid₁ valid₂ invalid : A) : Summary A where
  validVote := (SortedVec.addItem ∅ valid₁).addItem valid₂
  invalidVote := SortedVec.addItem ∅ invalid
  unruly := x.summaryUnruly
  info := if info.isSupport then some info else none
  verifyResult := if info.isSupport then .confirmed else .refused

/-- What counts of a report: one against the machine says nothing else. -/
def countedInfo (x : CommitteeUploadInfo) : CommitteeUploadInfo :=
  if x.isSupport then x else CommitteeUploadInfo.zero

/-- The comparison in `summary_confirmation` of reports that differ but not all of them: two out
of three are the same. -/
def summaryMixed (x : OCMachineCommitteeList A) : List CommitteeUploadInfo → List A → Summary A
  | i₀ :: i₁ :: i₂ :: _, c₀ :: c₁ :: c₂ :: _ =>
    if i₀ = i₁ then x.twoAgainstOne i₀ c₀ c₁ c₂
    else if i₀ = i₂ then x.twoAgainstOne i₀ c₀ c₂ c₁
    else x.twoAgainstOne i₁ c₁ c₂ c₀
  | _, _ => ⟨∅, ∅, x.summaryUnruly, none, .confirmed⟩

def summaryConfirmation (x : OCMachineCommitteeList A) (submitted : List CommitteeUploadInfo) :
    Summary A :=
  let infos := submitted.map countedInfo
  let confirmed := x.confirmedCommittee
  match infos with
  -- there are as many reports as confirmed committees
  | [] => ⟨∅, ∅, x.summaryUnruly, none, .noConsensus⟩
  | info :: _ =>
    if ∀ i ∈ infos, i = info then
      ⟨confirmed, ∅, x.summaryUnruly, if info.isSupport then some info else none,
        if info.isSupport then .confirmed else .refused⟩
    else if infos.Nodup then ⟨∅, confirmed, x.summaryUnruly, none, .noConsensus⟩
    else x.summaryMixed infos confirmed.toList

end OCMachineCommitteeList

end

/-! # The count of the reports

`summary_confirmation` compares at most three reports index by index. It is a strict plurality
count: the reports that were submitted more often than any other ones decide. -/

open SortedVec

/-- A report without the random text of its hash. -/
def CommitteeUploadInfo.forget (x : CommitteeUploadInfo) : CommitteeUploadInfo :=
  { x with randStr := [] }

instance : Nontrivial CommitteeUploadInfo :=
  ⟨.zero, { CommitteeUploadInfo.zero with isSupport := true }, by decide⟩

namespace OCMachineCommitteeList

variable {A : Type} [LinearOrder A]

/-- `summary_confirmation` as it is written, with every `unwrap` and every index: `none` where it
panics. -/
def trySummaryConfirmation (x : OCMachineCommitteeList A) (submitted : List CommitteeUploadInfo) :
    Option (Summary A) :=
  let infos := submitted.map countedInfo
  let confirmed := x.confirmedCommittee.toList
  if x.confirmedCommittee.isEmpty then some ⟨∅, ∅, x.summaryUnruly, none, .noConsensus⟩
  else do
    -- the least report is the greatest one if all reports are the same
    let info ← infos[0]?
    if ∀ i ∈ infos, i = info then
      pure ⟨x.confirmedCommittee, ∅, x.summaryUnruly, if info.isSupport then some info else none,
        if info.isSupport then .confirmed else .refused⟩
    else if infos.Nodup then pure ⟨∅, x.confirmedCommittee, x.summaryUnruly, none, .noConsensus⟩
    else do
      let i₀ ← infos[0]?
      let i₁ ← infos[1]?
      if i₀ = i₁ then
        pure (x.twoAgainstOne i₀ (← confirmed[0]?) (← confirmed[1]?) (← confirmed[2]?))
      else do
        let i₂ ← infos[2]?
        if i₀ = i₂ then
          pure (x.twoAgainstOne i₀ (← confirmed[0]?) (← confirmed[2]?) (← confirmed[1]?))
        else pure (x.twoAgainstOne i₁ (← confirmed[1]?) (← confirmed[2]?) (← confirmed[0]?))

/-- The ballots `v` of the committees that submitted a report were counted. -/
structure Counts (x : OCMachineCommitteeList A) (v : A → CommitteeUploadInfo) (r : Summary A)
    (b : CommitteeUploadInfo) : Prop where
  wins : Wins (x.confirmedCommittee.toList.map v) b
  valid : ∀ c, c ∈ r.validVote ↔ c ∈ x.confirmedCommittee ∧ v c = b
  invalid : ∀ c, c ∈ r.invalidVote ↔ c ∈ x.confirmedCommittee ∧ v c ≠ b
  info : r.info = if b.isSupport then some b else none
  result : r.verifyResult = if b.isSupport then .confirmed else .refused

structure Splits (x : OCMachineCommitteeList A) (v : A → CommitteeUploadInfo) (r : Summary A) :
    Prop where
  loses : ∀ b, ¬ Wins (x.confirmedCommittee.toList.map v) b
  valid : r.validVote = ∅
  invalid : r.invalidVote = x.confirmedCommittee
  info : r.info = none
  result : r.verifyResult = .noConsensus

section

variable {x : OCMachineCommitteeList A} {v : A → CommitteeUploadInfo} {c0 c1 c2 : A}
  {b : CommitteeUploadInfo}

theorem mem_summaryUnruly {c : A} :
    c ∈ x.summaryUnruly ↔ c ∈ x.bookedCommittee ∧ c ∉ x.confirmedCommittee := by
  unfold summaryUnruly
  simp

/-- Two ballots out of three decide. -/
theorem counts_twoAgainstOne (hperm : x.confirmedCommittee.toList.Perm [c0, c1, c2])
    (heq : v c0 = v c1) (hne : v c2 ≠ v c0) :
    x.Counts v (x.twoAgainstOne (v c0) c0 c1 c2) (v c0) where
  wins := by
    refine wins_two_of_three ?_ hne
    have hmap := hperm.map v
    rw [List.map_cons, List.map_cons, List.map_cons, List.map_nil, ← heq] at hmap
    exact hmap
  valid c := by
    have hmem := hperm.mem_iff (a := c)
    simp only [List.mem_cons, List.not_mem_nil, or_false, mem_toList] at hmem
    simp only [twoAgainstOne, mem_addItem, notMem_empty, hmem]
    constructor
    · rintro (rfl | rfl | h)
      · exact ⟨.inr (.inl rfl), heq.symm⟩
      · exact ⟨.inl rfl, rfl⟩
      · cases h
    · rintro ⟨rfl | rfl | rfl, h⟩
      · exact .inr (.inl rfl)
      · exact .inl rfl
      · exact absurd h hne
  invalid c := by
    have hmem := hperm.mem_iff (a := c)
    simp only [List.mem_cons, List.not_mem_nil, or_false, mem_toList] at hmem
    simp only [twoAgainstOne, mem_addItem, notMem_empty, hmem]
    constructor
    · rintro (rfl | h)
      · exact ⟨.inr (.inr rfl), hne⟩
      · cases h
    · rintro ⟨rfl | rfl | rfl, h⟩
      · exact absurd rfl h
      · exact absurd heq.symm h
      · exact .inl rfl
  info := rfl
  result := rfl

theorem counts_unanimous (hl : x.confirmedCommittee.toList ≠ [])
    (hall : ∀ i ∈ x.confirmedCommittee.toList.map v, i = b) :
    x.Counts v ⟨x.confirmedCommittee, ∅, x.summaryUnruly, if b.isSupport then some b else none,
      if b.isSupport then .confirmed else .refused⟩ b where
  wins := wins_of_forall_eq (mt List.map_eq_nil_iff.1 hl) hall
  valid c := (and_iff_left_of_imp fun hc => hall _ (List.mem_map_of_mem hc)).symm
  invalid c := by
    refine iff_of_false notMem_empty ?_
    rintro ⟨hc, hne⟩
    exact hne (hall _ (List.mem_map_of_mem hc))
  info := rfl
  result := rfl

theorem splits_nodup (hall : ¬ ∀ i ∈ x.confirmedCommittee.toList.map v, i = b)
    (hb : b ∈ x.confirmedCommittee.toList.map v)
    (hnodup : (x.confirmedCommittee.toList.map v).Nodup) :
    x.Splits v ⟨∅, x.confirmedCommittee, x.summaryUnruly, none, .noConsensus⟩ where
  loses _ := by
    simp only [not_forall] at hall
    obtain ⟨i, hi, hne⟩ := hall
    exact not_wins_of_nodup hnodup hi hb hne
  valid := rfl
  invalid := rfl
  info := rfl
  result := rfl

omit [LinearOrder A] in
theorem exists_three {l : List A} (hlen : (c0 :: l).length ≤ 3)
    (hall : ¬ ∀ i ∈ (c0 :: l).map v, i = v c0) (hnodup : ¬ ((c0 :: l).map v).Nodup) :
    ∃ c1 c2, l = [c1, c2] := by
  match l with
  | [] => exact absurd (List.nodup_singleton _) hnodup
  | [c1] =>
    refine absurd ?_ hnodup
    simp only [List.map_cons, List.map_nil, List.mem_cons, List.not_mem_nil, or_false,
      forall_eq_or_imp, forall_eq, true_and] at hall
    simpa using Ne.symm hall
  | [c1, c2] => exact ⟨c1, c2, rfl⟩
  | _ :: _ :: _ :: l =>
    simp only [List.length_cons] at hlen
    omega

/-- **The summary is a strict plurality count** of at most three reports, and never panics. -/
theorem summaryConfirmation_counts (x : OCMachineCommitteeList A) (f : A → CommitteeUploadInfo)
    (hlen : x.confirmedCommittee.length ≤ 3) :
    x.trySummaryConfirmation (x.confirmedCommittee.toList.map f) =
        some (x.summaryConfirmation (x.confirmedCommittee.toList.map f)) ∧
      (x.summaryConfirmation (x.confirmedCommittee.toList.map f)).unruly = x.summaryUnruly ∧
      ((∃ b, x.Counts (fun c => countedInfo (f c))
          (x.summaryConfirmation (x.confirmedCommittee.toList.map f)) b) ∨
        x.Splits (fun c => countedInfo (f c))
          (x.summaryConfirmation (x.confirmedCommittee.toList.map f))) := by
  set v := fun c => countedInfo (f c) with hv
  have hinfos : (x.confirmedCommittee.toList.map f).map countedInfo =
      x.confirmedCommittee.toList.map v := List.map_map
  unfold trySummaryConfirmation summaryConfirmation SortedVec.isEmpty
  simp only [hinfos]
  rcases hl : x.confirmedCommittee.toList with _ | ⟨c0, l⟩
  · refine ⟨rfl, rfl, .inr ⟨fun b => ?_, rfl, ?_, rfl, rfl⟩⟩
    · rw [hl]
      exact not_wins_nil
    · exact (eq_empty_of_toList hl).symm
  have hfirst : v c0 ∈ x.confirmedCommittee.toList.map v := by
    rw [hl]
    exact List.mem_cons_self
  simp only [List.map_cons, List.isEmpty_cons, Bool.false_eq_true, if_false,
    List.getElem?_cons_zero, Option.bind_eq_bind, Option.bind_some]
  by_cases hall : ∀ i ∈ x.confirmedCommittee.toList.map v, i = v c0
  · have hcounts := counts_unanimous (hl ▸ List.cons_ne_nil c0 l) hall
    rw [hl, List.map_cons] at hall
    simp only [if_pos hall]
    exact ⟨rfl, trivial, .inl ⟨_, hcounts⟩⟩
  by_cases hnodup : (x.confirmedCommittee.toList.map v).Nodup
  · have hsplits := splits_nodup hall hfirst hnodup
    rw [hl, List.map_cons] at hall hnodup
    simp only [if_neg hall, if_pos hnodup]
    exact ⟨rfl, trivial, .inr hsplits⟩
  rw [hl] at hall hnodup
  obtain ⟨c1, c2, rfl⟩ := exists_three (by rw [← hl]; exact hlen) hall hnodup
  have hthree : x.confirmedCommittee.toList.Perm [c0, c1, c2] := .of_eq hl
  simp only [List.map_cons, List.map_nil] at hall hnodup ⊢
  simp only [if_neg hall, if_neg hnodup, summaryMixed, List.getElem?_cons_zero,
    List.getElem?_cons_succ, Option.bind_some]
  by_cases h1 : v c0 = v c1
  · have hne : v c2 ≠ v c0 := fun h2 => hall (by simp [h1, h2])
    simp only [if_pos h1]
    exact ⟨rfl, rfl, .inl ⟨_, counts_twoAgainstOne hthree h1 hne⟩⟩
  by_cases h2 : v c0 = v c2
  · simp only [if_neg h1, if_pos h2]
    refine ⟨rfl, rfl, .inl ⟨_, counts_twoAgainstOne (hthree.trans ?_) h2 (Ne.symm h1)⟩⟩
    exact (List.Perm.swap c2 c1 []).cons c0
  · have h3 : v c1 = v c2 := by
      by_contra h3
      exact hnodup (by simp [h1, h2, h3])
    simp only [if_neg h1, if_neg h2]
    refine ⟨rfl, rfl, .inl ⟨_, counts_twoAgainstOne (hthree.trans ?_) h3 h1⟩⟩
    exact (List.Perm.swap c1 c0 [c2]).trans ((List.Perm.swap c2 c0 []).cons c1)

/-- What a summary `r` of the ballots `v` must be. A ballot against the machine is the zero report,
whatever else its report said. -/
structure Tallied (x : OCMachineCommitteeList A) (v : A → CommitteeUploadInfo) (r : Summary A) :
    Prop where
  unruly : ∀ c, c ∈ r.unruly ↔ c ∈ x.bookedCommittee ∧ c ∉ x.confirmedCommittee
  covers : ∀ c, c ∈ x.bookedCommittee ↔ c ∈ r.validVote ∨ c ∈ r.invalidVote ∨ c ∈ r.unruly
  disjoint : ∀ c, ¬ (c ∈ r.validVote ∧ c ∈ r.invalidVote) ∧ ¬ (c ∈ r.validVote ∧ c ∈ r.unruly) ∧
    ¬ (c ∈ r.invalidVote ∧ c ∈ r.unruly)
  confirmed : ∀ b, (r.verifyResult = .confirmed ∧ r.info = some b ∧
      ∀ c, c ∈ r.validVote ↔ c ∈ x.confirmedCommittee ∧ v c = b) ↔
    b.isSupport = true ∧ Wins (x.confirmedCommittee.toList.map v) b
  refused : (r.verifyResult = .refused ∧
      ∀ c, c ∈ r.validVote ↔ c ∈ x.confirmedCommittee ∧ v c = .zero) ↔
    Wins (x.confirmedCommittee.toList.map v) .zero
  noConsensus : (r.verifyResult = .noConsensus ∧ ∀ c, c ∉ r.validVote) ↔
    ∀ b, ¬ Wins (x.confirmedCommittee.toList.map v) b

variable {v' : A → CommitteeUploadInfo} {r : Summary A}

theorem Counts.congr (h : x.Counts v r b) (hv : ∀ c ∈ x.confirmedCommittee, v c = v' c) :
    x.Counts v' r b where
  wins := by
    rw [← List.map_congr_left (f := v) (g := v') hv]
    exact h.wins
  valid c := (h.valid c).trans (and_congr_right fun hc => by rw [hv c hc])
  invalid c := (h.invalid c).trans (and_congr_right fun hc => by rw [hv c hc])
  info := h.info
  result := h.result

theorem Splits.congr (h : x.Splits v r) (hv : ∀ c ∈ x.confirmedCommittee, v c = v' c) :
    x.Splits v' r where
  loses := by
    rw [← List.map_congr_left (f := v) (g := v') hv]
    exact h.loses
  valid := h.valid
  invalid := h.invalid
  info := h.info
  result := h.result

theorem Counts.tallied (h : x.Counts v r b) (hr : r.unruly = x.summaryUnruly)
    (hsub : ∀ c ∈ x.confirmedCommittee, c ∈ x.bookedCommittee)
    (hv : ∀ c, (v c).isSupport = false → v c = .zero) : x.Tallied v r where
  unruly c := by rw [hr, mem_summaryUnruly]
  covers c := by
    rw [hr, mem_summaryUnruly, h.valid, h.invalid]
    have := hsub c
    tauto
  disjoint c := by
    rw [hr, mem_summaryUnruly, h.valid, h.invalid]
    tauto
  confirmed b' := by
    constructor
    · rintro ⟨hres, hinfo, -⟩
      rw [h.result] at hres
      rw [h.info] at hinfo
      split at hinfo
      · next hs =>
        cases hinfo
        exact ⟨hs, h.wins⟩
      · cases hinfo
    · rintro ⟨hs, hwins⟩
      cases h.wins.unique hwins
      rw [h.result, h.info, if_pos hs, if_pos hs]
      exact ⟨rfl, rfl, h.valid⟩
  refused := by
    constructor
    · rintro ⟨hres, -⟩
      rw [h.result] at hres
      split at hres
      · cases hres
      · next hs =>
        obtain ⟨c, -, hc⟩ := List.mem_map.1 h.wins.mem
        have hzero : b = .zero := by
          rw [← hc]
          exact hv c (by rw [hc]; exact Bool.eq_false_of_not_eq_true hs)
        rw [← hzero]
        exact h.wins
    · intro hwins
      cases h.wins.unique hwins
      exact ⟨h.result, h.valid⟩
  noConsensus := by
    refine iff_of_false ?_ fun hloses => hloses b h.wins
    rintro ⟨hres, -⟩
    rw [h.result] at hres
    split at hres <;> cases hres

theorem Splits.tallied (h : x.Splits v r) (hr : r.unruly = x.summaryUnruly)
    (hsub : ∀ c ∈ x.confirmedCommittee, c ∈ x.bookedCommittee) : x.Tallied v r where
  unruly c := by rw [hr, mem_summaryUnruly]
  covers c := by
    rw [hr, mem_summaryUnruly, h.valid, h.invalid]
    have := hsub c
    have := notMem_empty (a := c)
    tauto
  disjoint c := by
    rw [hr, mem_summaryUnruly, h.valid, h.invalid]
    have := notMem_empty (a := c)
    tauto
  confirmed b' := by
    refine iff_of_false ?_ fun hw => h.loses b' hw.2
    rintro ⟨hres, -⟩
    rw [h.result] at hres
    cases hres
  refused := by
    refine iff_of_false ?_ (h.loses .zero)
    rintro ⟨hres, -⟩
    rw [h.result] at hres
    cases hres
  noConsensus := by
    refine iff_of_true ⟨h.result, fun c => ?_⟩ h.loses
    rw [h.valid]
    exact notMem_empty

end

end OCMachineCommitteeList

end DeepBrainChain.Support
