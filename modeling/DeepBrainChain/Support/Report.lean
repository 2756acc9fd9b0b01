import DeepBrainChain.Support.Machine

/-!
# Reports of machine faults

A reporter reports a fault of a machine, up to three committees book the report, submit the hash of
their finding and then reveal it. A machine that cannot be reached is verified by all committees at
once and within minutes; every other fault by one committee after another, within hours.
-/

namespace DeepBrainChain.Support

open Lib

def fiveMinutes : Nat := 5 * oneMinute
def threeHours : Nat := 3 * oneHour

inductive ReportErr
  | orderNotAllowBook
  | alreadyBooked
  | notNeedEncryptedInfo
  | notOrderReporter
  | orderStatusNotFeat
  | notOrderCommittee
  | notInBookedList
  | notProperCommittee

def require (p : Prop) [Decidable p] (e : ReportErr) : Except ReportErr Unit :=
  if p then .ok () else .error e

theorem require_bind_ok {p : Prop} [Decidable p] {e : ReportErr} {r : Except ReportErr Unit} :
    (do require p e; r) = .ok () ↔ p ∧ r = .ok () := by
  unfold require
  by_cases h : p
  · simp [h, bind, Except.bind]
  · simp [h, bind, Except.bind]

theorem require_ok {p : Prop} [Decidable p] {e : ReportErr} : require p e = .ok () ↔ p := by
  unfold require
  by_cases h : p <;> simp [h]

/-- `MachineFaultType`. The public keys of the reporters are left out. -/
inductive MachineFaultType
  | rentedInaccessible (m : MachineId) (rentOrderId : Nat)
  | rentedHardwareMalfunction (hash : Bytes)
  | rentedHardwareCounterfeit (hash : Bytes)
  | onlineRentFailed (hash : Bytes)
deriving DecidableEq

namespace MachineFaultType

def isInaccessible : MachineFaultType → Bool
  | .rentedInaccessible _ _ => true
  | _ => false

/-- `get_hash`: the hash the reporter submitted. -/
def getHash : MachineFaultType → Option Bytes
  | .rentedHardwareMalfunction hash | .rentedHardwareCounterfeit hash | .onlineRentFailed hash =>
    some hash
  | .rentedInaccessible _ _ => none

end MachineFaultType

inductive ReportStatus
  | reported
  | waitingBook
  | verifying
  | submittingRaw
  | committeeConfirmed
deriving DecidableEq

section

variable {A : Type} [LinearOrder A]

inductive ReportConfirmStatus (A : Type) [LinearOrder A]
  | confirmed (support against : SortedVec A) (err : Bytes)
  | refuse (support against : SortedVec A)
  | noConsensus

structure MTReportInfoDetail (A : Type) [LinearOrder A] where
  reporter : A
  reportTime : Nat
  reporterStake : Nat
  firstBookTime : Nat
  machineId : MachineId
  rentOrderId : Nat
  errInfo : Bytes
  verifyingCommittee : Option A
  bookedCommittee : SortedVec A
  getEncryptedInfoCommittee : SortedVec A
  hashedCommittee : SortedVec A
  confirmStart : Nat
  confirmedCommittee : SortedVec A
  supportCommittee : SortedVec A
  againstCommittee : SortedVec A
  reportStatus : ReportStatus
  machineFaultType : MachineFaultType

namespace MTReportInfoDetail

def new (reporter : A) (reportTime : Nat) (fault : MachineFaultType) (reporterStake : Nat) :
    MTReportInfoDetail A where
  reporter := reporter
  reportTime := reportTime
  reporterStake := reporterStake
  firstBookTime := 0
  machineId := match fault with
    | .rentedInaccessible m _ => m
    | _ => []
  rentOrderId := match fault with
    | .rentedInaccessible _ id => id
    | _ => 0
  errInfo := []
  verifyingCommittee := none
  bookedCommittee := ∅
  getEncryptedInfoCommittee := ∅
  hashedCommittee := ∅
  confirmStart := 0
  confirmedCommittee := ∅
  supportCommittee := ∅
  againstCommittee := ∅
  reportStatus := .reported
  machineFaultType := fault

def canBook (x : MTReportInfoDetail A) (committee : A) : Except ReportErr Unit := do
  require (x.reportTime ≠ 0) .orderNotAllowBook
  require (x.reportStatus = .reported ∨ x.reportStatus = .waitingBook) .orderNotAllowBook
  require (x.bookedCommittee.length < 3) .orderNotAllowBook
  require (committee ∉ x.bookedCommittee) .alreadyBooked

def canSubmitEncryptedInfo (x : MTReportInfoDetail A) (sender receiver : A) :
    Except ReportErr Unit := do
  require (x.machineFaultType.isInaccessible = false) .notNeedEncryptedInfo
  require (x.reporter = sender) .notOrderReporter
  require (x.reportStatus = .verifying) .orderStatusNotFeat
  require (receiver ∈ x.bookedCommittee) .notOrderCommittee

def canSubmitHash (x : MTReportInfoDetail A) : Except ReportErr Unit :=
  if x.machineFaultType.isInaccessible then
    require (x.reportStatus = .waitingBook ∨ x.reportStatus = .verifying) .orderStatusNotFeat
  else require (x.reportStatus = .verifying) .orderStatusNotFeat

def canSubmitRaw (x : MTReportInfoDetail A) (who : A) : Except ReportErr Unit := do
  require (x.reportStatus = .submittingRaw) .orderStatusNotFeat
  require (who ∈ x.hashedCommittee) .notProperCommittee

def getReporterHash (x : MTReportInfoDetail A) : Except ReportErr Bytes :=
  match x.machineFaultType.getHash with
  | some hash => .ok hash
  | none => .error .orderStatusNotFeat

def canSubmitInaccessibleRaw (x : MTReportInfoDetail A) (who : A) : Except ReportErr Unit := do
  require (x.reportStatus = .submittingRaw) .orderStatusNotFeat
  require (x.machineFaultType.isInaccessible = true) .orderStatusNotFeat
  require (who ∈ x.hashedCommittee) .notProperCommittee

def canSummaryFault (x : MTReportInfoDetail A) : Prop :=
  x.firstBookTime ≠ 0 ∧ x.machineFaultType.isInaccessible = false

instance (x : MTReportInfoDetail A) : Decidable x.canSummaryFault :=
  inferInstanceAs (Decidable (_ ∧ _))

def canSummary (x : MTReportInfoDetail A) (now : Nat) : Prop :=
  x.firstBookTime ≠ 0 ∧ x.machineFaultType.isInaccessible = false ∧
    ¬ (now - x.firstBookTime < fourHours ∧ x.hashedCommittee.length ≠ x.confirmedCommittee.length)

instance (x : MTReportInfoDetail A) (now : Nat) : Decidable (x.canSummary now) :=
  inferInstanceAs (Decidable (_ ∧ _ ∧ _))

def summary (x : MTReportInfoDetail A) : ReportConfirmStatus A :=
  if x.confirmedCommittee.isEmpty then .noConsensus
  else if x.againstCommittee.length ≤ x.supportCommittee.length then
    .confirmed x.supportCommittee x.againstCommittee x.errInfo
  else .refuse x.supportCommittee x.againstCommittee

def bookReport (x : MTReportInfoDetail A) (committee : A) (now : Nat) : MTReportInfoDetail A :=
  let booked := x.bookedCommittee.addItem committee
  let inaccessible := x.machineFaultType.isInaccessible
  { x with
    bookedCommittee := booked
    firstBookTime := if x.reportStatus = .reported then now else x.firstBookTime
    confirmStart :=
      if x.reportStatus = .reported then
        if inaccessible then now + fiveMinutes else now + threeHours
      else x.confirmStart
    verifyingCommittee := if inaccessible then x.verifyingCommittee else some committee
    reportStatus :=
      if inaccessible then if booked.length = 3 then .verifying else .waitingBook
      else .verifying }

def addHash (x : MTReportInfoDetail A) (who : A) : MTReportInfoDetail A :=
  let hashed := x.hashedCommittee.addItem who
  { x with
    hashedCommittee := hashed
    verifyingCommittee := none
    reportStatus :=
      if hashed.length = 3 then .submittingRaw
      else if x.machineFaultType.isInaccessible then x.reportStatus
      else .waitingBook }

def addRaw (x : MTReportInfoDetail A) (who : A) (isSupport : Bool) (machineId : Option MachineId)
    (errReason : Bytes) : MTReportInfoDetail A :=
  { x with
    confirmedCommittee := x.confirmedCommittee.addItem who
    supportCommittee :=
      if isSupport then x.supportCommittee.addItem who else x.supportCommittee
    againstCommittee :=
      if isSupport then x.againstCommittee else x.againstCommittee.addItem who
    errInfo := if machineId.isSome then errReason else x.errInfo
    machineId := machineId.getD x.machineId }

def canSummaryInaccessible (x : MTReportInfoDetail A) (now : Nat) : Prop :=
  x.firstBookTime ≠ 0 ∧ x.machineFaultType.isInaccessible = true ∧
    x.reportStatus ≠ .reported ∧ x.reportStatus ≠ .committeeConfirmed ∧
    (x.reportStatus = .submittingRaw → now - x.firstBookTime < 10 * oneMinute →
      ¬ x.confirmedCommittee.length < x.hashedCommittee.length ∧ x.hashedCommittee.length ≠ 0)

instance (x : MTReportInfoDetail A) (now : Nat) : Decidable (x.canSummaryInaccessible now) :=
  inferInstanceAs (Decidable (_ ∧ _ ∧ _ ∧ _ ∧ _))

def cleanNotSubmitHashCommittee (x : MTReportInfoDetail A) (verifying : A) :
    MTReportInfoDetail A :=
  let booked := x.bookedCommittee.rmItem verifying
  { x with
    verifyingCommittee := none
    bookedCommittee := booked
    getEncryptedInfoCommittee := x.getEncryptedInfoCommittee.rmItem verifying
    firstBookTime := if booked.isEmpty then 0 else x.firstBookTime
    confirmStart := if booked.isEmpty then 0 else x.confirmStart
    reportStatus := if booked.isEmpty then .reported else .waitingBook }

def cleanNotSubmitRawCommittee (x : MTReportInfoDetail A) (verifying : A) : MTReportInfoDetail A :=
  { x with
    verifyingCommittee := none
    bookedCommittee := x.bookedCommittee.rmItem verifying
    getEncryptedInfoCommittee := x.getEncryptedInfoCommittee.rmItem verifying }

def setStatus (x : MTReportInfoDetail A) (status : ReportStatus) : MTReportInfoDetail A :=
  { x with reportStatus := status }

def addEncrypted (x : MTReportInfoDetail A) (committee : A) : MTReportInfoDetail A :=
  { x with getEncryptedInfoCommittee := x.getEncryptedInfoCommittee.addItem committee }

end MTReportInfoDetail

end

/-! ## Lists of reports -/

structure MTLiveReportList where
  bookableReport : SortedVec Nat
  verifyingReport : SortedVec Nat
  waitingRawReport : SortedVec Nat
  finishedReport : SortedVec Nat

namespace MTLiveReportList

def zero : MTLiveReportList := ⟨∅, ∅, ∅, ∅⟩

def newReport (l : MTLiveReportList) (id : Nat) : MTLiveReportList :=
  { l with bookableReport := l.bookableReport.addItem id }

def cancelReport (l : MTLiveReportList) (id : Nat) : MTLiveReportList :=
  { l with bookableReport := l.bookableReport.rmItem id }

def bookReport (l : MTLiveReportList) (id : Nat) (fault : MachineFaultType) (count : Nat) :
    MTLiveReportList :=
  if count = 3 ∨ fault.isInaccessible = false then
    { l with
      bookableReport := l.bookableReport.rmItem id
      verifyingReport := l.verifyingReport.addItem id }
  else l

def submitHash (l : MTLiveReportList) (id : Nat) (fault : MachineFaultType) (count : Nat) :
    MTLiveReportList :=
  if count = 3 then
    { l with
      verifyingReport := l.verifyingReport.rmItem id
      waitingRawReport := l.waitingRawReport.addItem id }
  else if fault.isInaccessible = false then
    { l with
      verifyingReport := l.verifyingReport.rmItem id
      bookableReport := l.bookableReport.addItem id }
  else l

def timeToSubmitRaw (l : MTLiveReportList) (id : Nat) : MTLiveReportList :=
  { l with
    bookableReport := l.bookableReport.rmItem id
    verifyingReport := l.verifyingReport.rmItem id
    waitingRawReport := l.waitingRawReport.addItem id }

def cleanUnfinishedReport (l : MTLiveReportList) (id : Nat) : MTLiveReportList :=
  { l with
    bookableReport := l.bookableReport.rmItem id
    verifyingReport := l.verifyingReport.rmItem id
    waitingRawReport := l.waitingRawReport.rmItem id }

def getVerifyResult {A : Type} [LinearOrder A] (l : MTLiveReportList) (id : Nat) :
    ReportConfirmStatus A → MTLiveReportList
  | .confirmed _ _ _ | .refuse _ _ =>
    { l with
      waitingRawReport := l.waitingRawReport.rmItem id
      finishedReport := l.finishedReport.addItem id }
  | .noConsensus => { l with waitingRawReport := l.waitingRawReport.rmItem id }

def cleanNotSubmitHashReport (l : MTLiveReportList) (id : Nat) : MTLiveReportList :=
  { l with
    verifyingReport := l.verifyingReport.rmItem id
    bookableReport := l.bookableReport.addItem id }

def rmVerifying (l : MTLiveReportList) (id : Nat) : MTLiveReportList :=
  { l with verifyingReport := l.verifyingReport.rmItem id }

def rmWaitingRaw (l : MTLiveReportList) (id : Nat) : MTLiveReportList :=
  { l with waitingRawReport := l.waitingRawReport.rmItem id }

def addWaitingRaw (l : MTLiveReportList) (id : Nat) : MTLiveReportList :=
  { l with waitingRawReport := l.waitingRawReport.addItem id }

def addFinished (l : MTLiveReportList) (id : Nat) : MTLiveReportList :=
  { l with finishedReport := l.finishedReport.addItem id }

end MTLiveReportList

structure ReporterReportList where
  processingReport : SortedVec Nat
  canceledReport : SortedVec Nat
  succeedReport : SortedVec Nat
  failedReport : SortedVec Nat

namespace ReporterReportList

def zero : ReporterReportList := ⟨∅, ∅, ∅, ∅⟩

def newReport (x : ReporterReportList) (id : Nat) : ReporterReportList :=
  { x with processingReport := x.processingReport.addItem id }

def cancelReport (x : ReporterReportList) (id : Nat) : ReporterReportList :=
  { x with
    processingReport := x.processingReport.rmItem id
    canceledReport := x.canceledReport.addItem id }

def cleanNotSubmitEncryptedReport (x : ReporterReportList) (id : Nat) : ReporterReportList :=
  { x with
    processingReport := x.processingReport.rmItem id
    failedReport := x.failedReport.addItem id }

def rmProcessing (x : ReporterReportList) (id : Nat) : ReporterReportList :=
  { x with processingReport := x.processingReport.rmItem id }

def addFailed (x : ReporterReportList) (id : Nat) : ReporterReportList :=
  { x with failedReport := x.failedReport.addItem id }

def addSucceed (x : ReporterReportList) (id : Nat) : ReporterReportList :=
  { x with succeedReport := x.succeedReport.addItem id }

end ReporterReportList

/-! ## Committees -/

structure MTCommitteeOrderList where
  bookedReport : SortedVec Nat
  hashedReport : SortedVec Nat
  confirmedReport : SortedVec Nat
  finishedReport : SortedVec Nat

namespace MTCommitteeOrderList

def zero : MTCommitteeOrderList := ⟨∅, ∅, ∅, ∅⟩

def addBooked (x : MTCommitteeOrderList) (id : Nat) : MTCommitteeOrderList :=
  { x with bookedReport := x.bookedReport.addItem id }

def rmBooked (x : MTCommitteeOrderList) (id : Nat) : MTCommitteeOrderList :=
  { x with bookedReport := x.bookedReport.rmItem id }

def cleanUnfinishedOrder (x : MTCommitteeOrderList) (id : Nat) : MTCommitteeOrderList :=
  { x with
    bookedReport := x.bookedReport.rmItem id
    hashedReport := x.hashedReport.rmItem id
    confirmedReport := x.confirmedReport.rmItem id }

def canSubmitHash (x : MTCommitteeOrderList) (id : Nat) : Except ReportErr Unit :=
  require (id ∈ x.bookedReport) .notInBookedList

def addHash (x : MTCommitteeOrderList) (id : Nat) : MTCommitteeOrderList :=
  { x with
    bookedReport := x.bookedReport.rmItem id
    hashedReport := x.hashedReport.addItem id }

def addRaw (x : MTCommitteeOrderList) (id : Nat) : MTCommitteeOrderList :=
  { x with
    hashedReport := x.hashedReport.rmItem id
    confirmedReport := x.confirmedReport.addItem id }

def cleanWhenSummary (x : MTCommitteeOrderList) (id : Nat) (isConfirmed : Bool) :
    MTCommitteeOrderList :=
  if isConfirmed then
    { x with
      hashedReport := x.hashedReport.rmItem id
      confirmedReport := x.confirmedReport.rmItem id
      finishedReport := x.finishedReport.addItem id }
  else
    { x with
      hashedReport := x.hashedReport.rmItem id
      bookedReport := x.bookedReport.rmItem id }

def finish (x : MTCommitteeOrderList) (id : Nat) : MTCommitteeOrderList :=
  { x with
    confirmedReport := x.confirmedReport.rmItem id
    finishedReport := x.finishedReport.addItem id }

def rmBookedHashed (x : MTCommitteeOrderList) (id : Nat) : MTCommitteeOrderList :=
  { x with
    bookedReport := x.bookedReport.rmItem id
    hashedReport := x.hashedReport.rmItem id }

end MTCommitteeOrderList

inductive MTOrderStatus
  | waitingEncrypt
  | verifying
  | waitingRaw
  | finished
deriving DecidableEq

structure MTCommitteeOpsDetail where
  bookedTime : Nat
  encryptedErrInfo : Option Bytes
  encryptedTime : Nat
  confirmHash : Bytes
  hashTime : Nat
  extraErrInfo : Bytes
  confirmTime : Nat
  confirmResult : Bool
  stakedBalance : Nat
  orderStatus : MTOrderStatus

namespace MTCommitteeOpsDetail

def zero : MTCommitteeOpsDetail :=
  ⟨0, none, 0, List.replicate 16 (byte 0), 0, [], 0, false, 0, .verifying⟩

def addEncryInfo (x : MTCommitteeOpsDetail) (info : Bytes) (time : Nat) : MTCommitteeOpsDetail :=
  { x with encryptedErrInfo := some info, encryptedTime := time, orderStatus := .verifying }

def bookReport (x : MTCommitteeOpsDetail) (fault : MachineFaultType) (now orderStake : Nat) :
    MTCommitteeOpsDetail :=
  { x with
    bookedTime := now
    stakedBalance := if fault.isInaccessible then x.stakedBalance else orderStake
    orderStatus := if fault.isInaccessible then .verifying else .waitingEncrypt }

def canSubmitHash (x : MTCommitteeOpsDetail) : Except ReportErr Unit :=
  require (x.orderStatus = .verifying) .orderStatusNotFeat

def addHash (x : MTCommitteeOpsDetail) (hash : Bytes) (time : Nat) : MTCommitteeOpsDetail :=
  { x with confirmHash := hash, hashTime := time, orderStatus := .waitingRaw }

def addRaw (x : MTCommitteeOpsDetail) (time : Nat) (isSupport : Bool) (extra : Bytes) :
    MTCommitteeOpsDetail :=
  { x with
    confirmTime := time
    extraErrInfo := extra
    confirmResult := isSupport
    orderStatus := .finished }

end MTCommitteeOpsDetail

/-! ## Stakes and results -/

/-- `ReporterStakeInfo`. Rewards of reporters are never written. -/
structure ReporterStakeInfo where
  stakedAmount : Nat
  usedStake : Nat

namespace ReporterStakeInfo

def zero : ReporterStakeInfo := ⟨0, 0⟩

def setStaked (x : ReporterStakeInfo) (amount : Nat) : ReporterStakeInfo :=
  { x with stakedAmount := amount }

def changeStakeOnReportClose (x : ReporterStakeInfo) (amount : Nat) (isSlashed : Bool) :
    ReporterStakeInfo where
  usedStake := x.usedStake - amount
  stakedAmount := if isSlashed then x.stakedAmount - amount else x.stakedAmount

end ReporterStakeInfo

structure ReporterStakeParamsInfo where
  stakeBaseline : Nat
  stakePerReport : Nat
  minFreeStakePercent : Perbill

inductive MCSlashResult
  | pending
  | canceled
  | executed
deriving DecidableEq

inductive ReportResultType
  | reportSucceed
  | reportRefused
  | reporterNotSubmitEncryptedInfo
  | noConsensus
deriving DecidableEq

def ReportResultType.slashesReporter (r : ReportResultType) : Bool :=
  r = .reportRefused || r = .reporterNotSubmitEncryptedInfo

section

variable {A : Type} [LinearOrder A]

structure MTReportResultInfo (A : Type) [LinearOrder A] where
  reportId : Nat
  reporter : A
  reporterStake : Nat
  inconsistentCommittee : SortedVec A
  unrulyCommittee : SortedVec A
  rewardCommittee : SortedVec A
  committeeStake : Nat
  machineStash : Option A
  machineId : MachineId
  slashTime : Nat
  slashExecTime : Nat
  reportResult : ReportResultType
  slashResult : MCSlashResult

namespace MTReportResultInfo

def new (id now committeeStake reporterStake : Nat) (reporter : A) (stash : Option A)
    (m : MachineId) : MTReportResultInfo A where
  reportId := id
  reporter := reporter
  reporterStake := reporterStake
  inconsistentCommittee := ∅
  unrulyCommittee := ∅
  rewardCommittee := ∅
  committeeStake := committeeStake
  machineStash := stash
  machineId := m
  slashTime := now
  slashExecTime := now + twoDays
  reportResult := .reportRefused
  slashResult := .pending

def newInaccessibleResult (now id : Nat) (info : MTReportInfoDetail A) (stash : A) :
    MTReportResultInfo A :=
  new id now 0 info.reporterStake info.reporter (some stash) info.machineId

def addUnruly (x : MTReportResultInfo A) (who : A) : MTReportResultInfo A :=
  { x with unrulyCommittee := x.unrulyCommittee.addItem who }

def setResult (x : MTReportResultInfo A) (r : ReportResultType) : MTReportResultInfo A :=
  { x with reportResult := r }

def setSlashResult (x : MTReportResultInfo A) (r : MCSlashResult) : MTReportResultInfo A :=
  { x with slashResult := r }

/-- The outcome of a vote: who was wrong, and who was right. -/
def judge (x : MTReportResultInfo A) (r : ReportResultType) (wrong right : SortedVec A) :
    MTReportResultInfo A :=
  { x with
    reportResult := r
    inconsistentCommittee := x.inconsistentCommittee.expandToOrder wrong.toList
    rewardCommittee := x.rewardCommittee.expandToOrder right.toList }

def IsSlashedReporter (x : MTReportResultInfo A) (who : A) : Prop :=
  x.reportResult.slashesReporter = true ∧ x.reporter = who

def IsSlashedCommittee (x : MTReportResultInfo A) (who : A) : Prop :=
  who ∈ x.inconsistentCommittee ∨ who ∈ x.unrulyCommittee

def IsSlashedStash (x : MTReportResultInfo A) (who : A) : Prop :=
  x.reportResult = .reportSucceed ∧ x.machineStash = some who

instance (x : MTReportResultInfo A) (who : A) : Decidable (x.IsSlashedReporter who) :=
  inferInstanceAs (Decidable (_ ∧ _))

instance (x : MTReportResultInfo A) (who : A) : Decidable (x.IsSlashedCommittee who) :=
  inferInstanceAs (Decidable (_ ∨ _))

instance (x : MTReportResultInfo A) (who : A) : Decidable (x.IsSlashedStash who) :=
  inferInstanceAs (Decidable (_ ∧ _))

/-- `get_verify_result`. A result that is there already is continued. -/
def getVerifyResult (current : Option (MTReportResultInfo A)) (now id committeeStake : Nat)
    (info : MTReportInfoDetail A) : MTReportResultInfo A :=
  let out := match current with
    | some x =>
      { x with
        reportId := id
        slashResult := .pending
        slashTime := now
        slashExecTime := now + twoDays
        reporter := info.reporter
        committeeStake := committeeStake }
    | none => new id now committeeStake 0 info.reporter none []
  match info.summary with
  | .confirmed support against _ =>
    { out.judge .reportSucceed against support with reporterStake := info.reporterStake }
  | .refuse support against =>
    { out.judge .reportRefused support against with reporterStake := info.reporterStake }
  | .noConsensus =>
    { out with
      reportResult := .noConsensus
      unrulyCommittee := out.unrulyCommittee.expandToOrder info.bookedCommittee.toList
      reporterStake := 0 }

end MTReportResultInfo

end

end DeepBrainChain.Support
