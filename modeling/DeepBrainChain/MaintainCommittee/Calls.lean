import DeepBrainChain.RentMachine.Calls
import DeepBrainChain.Support.Report

/-!
# The maintain-committee pallet

The desk holds what is known about the reports under verification: the reports, the lists of the
reports by their stage, and what each committee did. The dues are the stakes of the reporters and
what will be slashed.

The calls are the extrinsics of reporters and committees, the reviews of slashes, and at the start
of a block the reviews and slashes that are carried out. What lies outside is a parameter: the hash
function, and the reason online-profile is given for a fault.
-/

namespace DeepBrainChain.MaintainCommittee

open Lib GenericFunc Support Lib.Call

structure MTPendingSlashReviewInfo (A : Type) where
  applicant : A
  stakedAmount : Nat
  applyTime : Nat
  expireTime : Nat
  reason : Bytes

structure Desk (A : Type) [LinearOrder A] where
  nextReportId : Nat
  liveReport : MTLiveReportList
  reportInfo : StorageMap Nat (MTReportInfoDetail A)
  committeeOrder : StorageMap A MTCommitteeOrderList
  committeeOps : StorageMap (A × Nat) MTCommitteeOpsDetail

structure Dues (A : Type) [LinearOrder A] where
  reporterStakeParams : Option ReporterStakeParamsInfo
  reporterStake : StorageMap A ReporterStakeInfo
  reporterReport : StorageMap A ReporterReportList
  reportResult : StorageMap Nat (MTReportResultInfo A)
  unhandledReportResult : StorageMap Nat (SortedVec Nat)
  pendingSlashReview : StorageMap Nat (MTPendingSlashReviewInfo A)

structure State (A : Type) [LinearOrder A] extends toRent : RentMachine.State A where
  desk : Desk A
  dues : Dues A

inductive Error
  | notCommittee
  | alreadyBooked
  | orderStatusNotFeat
  | notInBookedList
  | notOrderReporter
  | notOrderCommittee
  | getStakeAmountFailed
  | stakeFailed
  | orderNotAllowCancel
  | orderNotAllowBook
  | notProperCommittee
  | notEqualReporterSubmit
  | notEqualCommitteeSubmit
  | payTxFeeFailed
  | notNeedEncryptedInfo
  | balanceNotEnough
  | stakeNotEnough
  | notReporter
  | timeNotAllowed
  | slashIdNotExist
  | notPendingReviewSlash
  | notSlashed
  | alreadyApplied
  | expiredApply
  | duplicateHash
  | notMachineRenter
  | reduceUsedStakeFailed
  | unknown
deriving DecidableEq

def Error.ofReportErr : ReportErr → Error
  | .orderNotAllowBook => .orderNotAllowBook
  | .alreadyBooked => .alreadyBooked
  | .notNeedEncryptedInfo => .notNeedEncryptedInfo
  | .notOrderReporter => .notOrderReporter
  | .orderStatusNotFeat => .orderStatusNotFeat
  | .notOrderCommittee => .notOrderCommittee
  | .notInBookedList => .notInBookedList
  | .notProperCommittee => .notProperCommittee

/-- What the pallet takes from outside: `blake2_128`. -/
structure Env where
  blake2 : Bytes → Bytes

def intoOpErr (fault : MachineFaultType) (reportTime : Nat) : OPSlashReason :=
  match fault with
  | .rentedInaccessible .. => .rentedInaccessible reportTime
  | .rentedHardwareMalfunction _ => .rentedHardwareMalfunction reportTime
  | .rentedHardwareCounterfeit _ => .rentedHardwareCounterfeit reportTime
  | .onlineRentFailed _ => .onlineRentFailed reportTime

section

variable {A : Type} [LinearOrder A]

namespace Desk

def empty : Desk A := ⟨0, .zero, ∅, ∅, ∅⟩

def info (d : Desk A) (id : Nat) : Option (MTReportInfoDetail A) := d.reportInfo.get id

def order (d : Desk A) (c : A) : MTCommitteeOrderList := d.committeeOrder.getD c .zero

def ops (d : Desk A) (c : A) (id : Nat) : MTCommitteeOpsDetail :=
  d.committeeOps.getD (c, id) .zero

def mapLive (d : Desk A) (f : MTLiveReportList → MTLiveReportList) : Desk A :=
  { d with liveReport := f d.liveReport }

def putInfo (d : Desk A) (id : Nat) (x : MTReportInfoDetail A) : Desk A :=
  { d with reportInfo := d.reportInfo.insert id x }

def rmInfo (d : Desk A) (id : Nat) : Desk A := { d with reportInfo := d.reportInfo.remove id }

def putOrder (d : Desk A) (c : A) (x : MTCommitteeOrderList) : Desk A :=
  { d with committeeOrder := d.committeeOrder.insert c x }

def putOps (d : Desk A) (c : A) (id : Nat) (x : MTCommitteeOpsDetail) : Desk A :=
  { d with committeeOps := d.committeeOps.insert (c, id) x }

def rmOps (d : Desk A) (c : A) (id : Nat) : Desk A :=
  { d with committeeOps := d.committeeOps.remove (c, id) }

/-- `get_new_report_id`, the number after `id`. -/
def nextId (id : Nat) : Nat := if id = u64Max then 0 else id + 1

def newReport (d : Desk A) (x : MTReportInfoDetail A) : Desk A :=
  { (d.mapLive (·.newReport d.nextReportId)).putInfo d.nextReportId x with
    nextReportId := nextId d.nextReportId }

end Desk

namespace Dues

def empty : Dues A := ⟨none, ∅, ∅, ∅, ∅, ∅⟩

def stakeOf (x : Dues A) (who : A) : ReporterStakeInfo := x.reporterStake.getD who .zero

def reportsOf (x : Dues A) (who : A) : ReporterReportList := x.reporterReport.getD who .zero

def setParams (x : Dues A) (p : ReporterStakeParamsInfo) : Dues A :=
  { x with reporterStakeParams := some p }

def putStake (x : Dues A) (who : A) (i : ReporterStakeInfo) : Dues A :=
  { x with reporterStake := x.reporterStake.insert who i }

def putReports (x : Dues A) (who : A) (l : ReporterReportList) : Dues A :=
  { x with reporterReport := x.reporterReport.insert who l }

def putResult (x : Dues A) (id : Nat) (r : MTReportResultInfo A) : Dues A :=
  { x with reportResult := x.reportResult.insert id r }

def updateUnhandledReport (x : Dues A) (id : Nat) (isAdd : Bool) (time : Nat) : Dues A :=
  let l := x.unhandledReportResult.getD time ∅
  { x with unhandledReportResult :=
      x.unhandledReportResult.insert time (if isAdd then l.addItem id else l.rmItem id) }

def rmUnhandled (x : Dues A) (time : Nat) : Dues A :=
  { x with unhandledReportResult := x.unhandledReportResult.remove time }

def putReview (x : Dues A) (id : Nat) (r : MTPendingSlashReviewInfo A) : Dues A :=
  { x with pendingSlashReview := x.pendingSlashReview.insert id r }

def rmReview (x : Dues A) (id : Nat) : Dues A :=
  { x with pendingSlashReview := x.pendingSlashReview.remove id }

end Dues

namespace State

def fresh (s : RentMachine.State A) : State A := ⟨s, .empty, .empty⟩

def setRent (r : RentMachine.State A) (s : State A) : State A := { s with toRent := r }

def setProfile (p : OnlineProfile.State A) (s : State A) : State A :=
  s.setRent (s.toRent.setProfile p)

def setCommitteeState (c : Committee.State A) (s : State A) : State A :=
  s.setProfile (s.toProfile.setCommitteeState c)

def setBalances (s : State A) (b : Balances A) : State A := { s with balances := b }

def mapDesk (s : State A) (f : Desk A → Desk A) : State A := { s with desk := f s.desk }

def mapDues (s : State A) (f : Dues A → Dues A) : State A := { s with dues := f s.dues }

end State

/-! ## Calls -/

def profile {ε α : Type} (c : Call (OnlineProfile.State A) ε α) : Call (State A) ε α :=
  c.zoom (fun s => s.toProfile) State.setProfile

def committee {ε α : Type} (c : Call (Committee.State A) ε α) : Call (State A) ε α :=
  c.zoom (fun s => s.toCommittee) State.setCommitteeState

def changeUsedStake (who : A) (amount : Nat) (isAdd : Bool) : Call (State A) Unit Unit :=
  committee (Committee.changeUsedStake who amount isAdd)

def changeTotalStake (who : A) (amount : Nat) (isAdd changeReserve : Bool) :
    Call (State A) Unit Unit :=
  committee (Committee.doChangeReserved who amount isAdd changeReserve)

def payFixedTxFee (who : A) : Call (State A) Error Unit :=
  (profile (OnlineProfile.payFixedTxFee who)).mapError fun _ => .payTxFeeFailed

def State.slashAndReward (s : State A) (slashWho : List A) (amount : Nat) (rewardWho : List A) :
    State A :=
  s.setBalances (GenericFunc.slashAndReward s.balances slashWho amount rewardWho)

def checked {α : Type} : Except ReportErr α → Call (State A) Error α
  | .ok a => pure a
  | .error e => throw (.ofReportErr e)

/-- `get_hash`: the parts are joined without separators. -/
def getHash (env : Env) (parts : List Bytes) : Bytes := env.blake2 parts.flatten

def toText (n : Nat) : Bytes := CommitteeUploadInfo.joinStr [n]

def voteText (isSupport : Bool) : Bytes := [byte (if isSupport then 49 else 48)]

/-! ## Stakes of reporters -/

def freeEnough (p : ReporterStakeParamsInfo) (i : ReporterStakeInfo) : Prop :=
  p.minFreeStakePercent.mul i.stakedAmount ≤ i.stakedAmount - i.usedStake

instance (p : ReporterStakeParamsInfo) (i : ReporterStakeInfo) : Decidable (freeEnough p i) :=
  inferInstanceAs (Decidable (_ ≤ _))

def changeReporterStake (reporter : A) (amount : Nat) (isAdd : Bool) :
    Call (State A) Error Unit := do
  let s ← get
  let p ← okOr s.dues.reporterStakeParams .getStakeAmountFailed
  let old := s.dues.stakeOf reporter
  let i := old.setStaked
    (if isAdd then saturatingAdd u128Max old.stakedAmount amount else old.stakedAmount - amount)
  when (isAdd = true ∨ 0 < i.usedStake) do
    ensure (i.usedStake ≤ i.stakedAmount) .stakeNotEnough
    ensure (freeEnough p i) .stakeNotEnough
  let b ← okOr
    (if isAdd then s.balances.reserve reporter amount
    else some (s.balances.unreserve reporter amount).1) .balanceNotEnough
  set ((s.setBalances b).mapDues (·.putStake reporter i))

def payStakeWhenReport (reporter : A) : Call (State A) Error Unit := do
  let s ← get
  let p ← okOr s.dues.reporterStakeParams .getStakeAmountFailed
  let i := s.dues.stakeOf reporter
  if i.stakedAmount = 0 then do
    let b ← okOr (s.balances.reserve reporter p.stakeBaseline) .balanceNotEnough
    set ((s.setBalances b).mapDues (·.putStake reporter ⟨p.stakeBaseline, p.stakePerReport⟩))
  else do
    let i := { i with usedStake := saturatingAdd u128Max i.usedStake p.stakePerReport }
    ensure (freeEnough p i) .stakeNotEnough
    set (s.mapDues (·.putStake reporter i))

/-- `ReporterStake::mutate` with `change_stake_on_report_close`. -/
def State.closeReport (s : State A) (reporter : A) (amount : Nat) (isSlashed : Bool) : State A :=
  s.mapDues fun x => x.putStake reporter
    ((x.stakeOf reporter).changeStakeOnReportClose amount isSlashed)

/-! ## Reports -/

/-- `set_reporter_stake_params`, a root call. -/
def setReporterStakeParams (p : ReporterStakeParamsInfo) : Call (State A) Error Unit :=
  modify fun s => s.mapDues (·.setParams p)

/-- `do_report_machine_fault`; `reports` are the reports of the reporter, for the caller to write. -/
def doReportMachineFault (reporter : A) (fault : MachineFaultType) (reportTime : Option Nat)
    (reports : ReporterReportList) : Call (State A) Error ReporterReportList := do
  let s ← get
  let p ← okOr s.dues.reporterStakeParams .getStakeAmountFailed
  set (s.mapDesk fun d => d.newReport
    (.new reporter (reportTime.getD s.now) fault p.stakePerReport))
  pure (reports.newReport s.desk.nextReportId)

/-- The checks and the payment of a report that a machine cannot be reached. -/
def payInaccessible (reporter : A) : MachineFaultType → Call (State A) Error Unit
  | .rentedInaccessible m rentOrderId => do
    let s ← get
    let rent ← okOr (s.book.rentInfo.get rentOrderId) .unknown
    ensure (rent.renter = reporter) .notMachineRenter
    ensure (m = rent.machineId) .notMachineRenter
    whenSome (s.machine m) fun i => when (i.machineStatus = .rented) (modify fun s =>
      s.setProfile (s.toProfile.addOfflineMachineToRenters m i.renters.toList))
    payFixedTxFee reporter
  | _ => pure ()

def reportMachineFault (reporter : A) (fault : MachineFaultType) : Call (State A) Error Unit := do
  let s ← get
  payInaccessible reporter fault
  payStakeWhenReport reporter
  let reports ← doReportMachineFault reporter fault none (s.dues.reportsOf reporter)
  modify fun s => s.mapDues (·.putReports reporter reports)

def reporterCancelReport (reporter : A) (id : Nat) : Call (State A) Error Unit := do
  let s ← get
  let info ← okOr (s.desk.info id) .unknown
  ensure (info.reporter = reporter) .notReporter
  ensure (info.reportStatus = .reported) .orderNotAllowCancel
  set (((s.closeReport reporter info.reporterStake false).mapDesk fun d =>
    (d.mapLive (·.cancelReport id)).rmInfo id).mapDues fun x =>
      x.putReports reporter ((x.reportsOf reporter).cancelReport id))

/-! ## Committees -/

/-- `book_report`: what a committee that books a report writes. -/
def Desk.book (d : Desk A) (c : A) (id : Nat) (info : MTReportInfoDetail A) (now orderStake : Nat) :
    Desk A :=
  let info' := info.bookReport c now
  (((d.putOrder c ((d.order c).addBooked id)).putOps c id
    ((d.ops c id).bookReport info.machineFaultType now orderStake)).mapLive
      (·.bookReport id info.machineFaultType info'.bookedCommittee.length)).putInfo id info'

def committeeBookReport (c : A) (id : Nat) : Call (State A) Error Unit := do
  let s ← get
  ensure (c ∈ s.committee.normal) .notCommittee
  let info ← okOr (s.desk.info id) .unknown
  checked (info.canBook c)
  let stake ← okOr s.stakePerOrder .getStakeAmountFailed
  if info.machineFaultType.isInaccessible then payFixedTxFee c
  else (changeUsedStake c stake true).mapError fun _ => .stakeFailed
  modify fun s => s.mapDesk fun d => d.book c id info s.now stake

def reporterAddEncryptedErrorInfo (reporter : A) (id : Nat) (c : A) (encrypted : Bytes) :
    Call (State A) Error Unit := do
  let s ← get
  let info ← okOr (s.desk.info id) .unknown
  checked (info.canSubmitEncryptedInfo reporter c)
  ensure ((s.desk.ops c id).orderStatus = .waitingEncrypt) .orderStatusNotFeat
  set (s.mapDesk fun d =>
    (d.putInfo id (info.addEncrypted c)).putOps c id ((d.ops c id).addEncryInfo encrypted s.now))

def Desk.IsUniqHash (d : Desk A) (id : Nat) (info : MTReportInfoDetail A) (hash : Bytes) : Prop :=
  ∀ c ∈ info.hashedCommittee.toList, (d.ops c id).confirmHash ≠ hash

instance (d : Desk A) (id : Nat) (info : MTReportInfoDetail A) (hash : Bytes) :
    Decidable (d.IsUniqHash id info hash) := inferInstanceAs (Decidable (∀ c ∈ _, _))

def Desk.addHash (d : Desk A) (c : A) (id : Nat) (info : MTReportInfoDetail A) (hash : Bytes)
    (now : Nat) : Desk A :=
  let info' := info.addHash c
  (((d.mapLive (·.submitHash id info.machineFaultType info'.hashedCommittee.length)).putInfo id
    info').putOps c id ((d.ops c id).addHash hash now)).putOrder c ((d.order c).addHash id)

def committeeSubmitVerifyHash (c : A) (id : Nat) (hash : Bytes) : Call (State A) Error Unit := do
  let s ← get
  let info ← okOr (s.desk.info id) .unknown
  checked ((s.desk.order c).canSubmitHash id)
  checked (s.desk.ops c id).canSubmitHash
  checked info.canSubmitHash
  ensure (s.desk.IsUniqHash id info hash) .duplicateHash
  set (s.mapDesk fun d => d.addHash c id info hash s.now)

def Desk.addRaw (d : Desk A) (c : A) (id : Nat) (info : MTReportInfoDetail A) (now : Nat)
    (isSupport : Bool) (m : Option MachineId) (errReason extra : Bytes) : Desk A :=
  ((d.putOrder c ((d.order c).addRaw id)).putOps c id
    ((d.ops c id).addRaw now isSupport extra)).putInfo id (info.addRaw c isSupport m errReason)

/-- The arguments of `committee_submit_verify_raw`. -/
structure RawInfo where
  machineId : MachineId
  rentOrderId : Nat
  reporterRandStr : Bytes
  committeeRandStr : Bytes
  errReason : Bytes
  extraErrInfo : Bytes
  supportReport : Bool

/-- What the reporter had hashed. -/
def RawInfo.reporterParts (r : RawInfo) : List Bytes :=
  [r.machineId, toText r.rentOrderId, r.reporterRandStr, r.errReason]

/-- What the committee had hashed. -/
def RawInfo.committeeParts (r : RawInfo) : List Bytes :=
  [r.machineId, toText r.rentOrderId, r.reporterRandStr, r.committeeRandStr,
    voteText r.supportReport, r.errReason]

def committeeSubmitVerifyRaw (env : Env) (c : A) (id : Nat) (r : RawInfo) :
    Call (State A) Error Unit := do
  let s ← get
  let info ← okOr (s.desk.info id) .unknown
  checked (info.canSubmitRaw c)
  let hash ← checked info.getReporterHash
  ensure (getHash env r.reporterParts = hash) .notEqualReporterSubmit
  ensure (getHash env r.committeeParts = (s.desk.ops c id).confirmHash)
    .notEqualCommitteeSubmit
  set (s.mapDesk fun d =>
    d.addRaw c id info s.now r.supportReport (some r.machineId) r.errReason r.extraErrInfo)

/-- What a committee had hashed about a machine that cannot be reached. -/
def inaccessibleParts (id : Nat) (randStr : Bytes) (isSupport : Bool) : List Bytes :=
  [toText id, randStr, voteText isSupport]

def committeeSubmitInaccessibleRaw (env : Env) (c : A) (id : Nat) (randStr : Bytes)
    (isSupport : Bool) : Call (State A) Error Unit := do
  let s ← get
  let info ← okOr (s.desk.info id) .unknown
  checked (info.canSubmitInaccessibleRaw c)
  ensure (getHash env (inaccessibleParts id randStr isSupport) = (s.desk.ops c id).confirmHash)
    .notEqualCommitteeSubmit
  set (s.mapDesk fun d => d.addRaw c id info s.now isSupport none [] [])

/-! ## Reviews -/

def changeCommitteeStakeOnReportClose (l : List A) (amount : Nat) (isSlash : Bool) :
    Call (State A) Unit Unit :=
  forEach l fun who => do
    when (isSlash = true) (changeTotalStake who amount false false)
    changeUsedStake who amount false

def payReviewStake (x : MTReportResultInfo A) (applicant : A) (amount : Nat) :
    Call (State A) Error Unit :=
  if x.IsSlashedReporter applicant then do
    changeReporterStake applicant amount true
    payStakeWhenReport applicant
  else if x.IsSlashedCommittee applicant then do
    (changeTotalStake applicant amount true true).mapError fun _ => .balanceNotEnough
    (changeUsedStake applicant amount true).mapError fun _ => .balanceNotEnough
  else when (x.IsSlashedStash applicant)
    ((profile (OnlineProfile.changeStake applicant amount true)).mapError
      fun _ => .balanceNotEnough)

def applySlashReview (applicant : A) (id : Nat) (reason : Bytes) : Call (State A) Error Unit := do
  let s ← get
  let p ← okOr s.dues.reporterStakeParams .getStakeAmountFailed
  let x ← okOr (s.dues.reportResult.get id) .unknown
  ensure (s.dues.pendingSlashReview.get id).isNone .alreadyApplied
  ensure (x.IsSlashedReporter applicant ∨ x.IsSlashedCommittee applicant ∨
    x.IsSlashedStash applicant) .notSlashed
  ensure (s.now < x.slashExecTime) .timeNotAllowed
  ensure (s.balances.reserve applicant p.stakePerReport).isSome .balanceNotEnough
  payReviewStake x applicant p.stakePerReport
  modify fun s => s.mapDues (·.putReview id
    ⟨applicant, p.stakePerReport, s.now, x.slashExecTime, reason⟩)

/-- Give an applicant its stake back. -/
def returnReviewStake (x : MTReportResultInfo A) (review : MTPendingSlashReviewInfo A) :
    Call (State A) Error Unit :=
  if x.IsSlashedReporter review.applicant then
    changeReporterStake review.applicant review.stakedAmount false
  else if x.IsSlashedStash review.applicant then
    (profile (OnlineProfile.changeStake review.applicant review.stakedAmount false)).mapError
      fun _ => .balanceNotEnough
  else
    (changeCommitteeStakeOnReportClose [review.applicant] review.stakedAmount false).mapError
      fun _ => .reduceUsedStakeFailed

def cancelReporterSlash (id : Nat) : Call (State A) Error Unit := do
  let s ← get
  let x ← okOr (s.dues.reportResult.get id) .slashIdNotExist
  let review ← okOr (s.dues.pendingSlashReview.get id) .notPendingReviewSlash
  ensure (s.now < review.expireTime) .expiredApply
  returnReviewStake x review
  let slashed := x.reportResult.slashesReporter
  let shouldSlash := (x.rewardCommittee.expandToOrder x.unrulyCommittee.toList).toList
  let shouldReward := x.inconsistentCommittee
  modify fun s => s.closeReport x.reporter x.reporterStake (!slashed)
  let shouldReward ← if slashed then pure (shouldReward.addItem x.reporter) else do
    modify fun s => s.slashAndReward [x.reporter] x.reporterStake shouldReward.toList
    pure shouldReward
  modify fun s =>
    (s.slashAndReward shouldSlash x.committeeStake shouldReward.toList).mapDues fun y =>
      ((y.updateUnhandledReport id false x.slashExecTime).putResult id
        (x.setSlashResult .canceled)).rmReview id

/-! ## The start of a block -/

/-- The stake of a review, taken from the records of its applicant. -/
def closeReview (x : MTReportResultInfo A) (review : MTPendingSlashReviewInfo A) :
    Call (State A) Unit Unit :=
  if x.IsSlashedReporter review.applicant then
    modify fun s => s.closeReport review.applicant review.stakedAmount true
  else if x.IsSlashedCommittee review.applicant then
    ignore (changeCommitteeStakeOnReportClose [review.applicant] review.stakedAmount true)
  else when (x.IsSlashedStash review.applicant)
    (ignore (profile (OnlineProfile.rmStashTotalStake review.applicant review.stakedAmount)))

/-- One round of `exec_review`. A review that is past its time is kept. -/
def execReviewOne (id : Nat) : Call (State A) Unit Unit := do
  let s ← get
  let review ← okOr (s.dues.pendingSlashReview.get id) ()
  let x ← okOr (s.dues.reportResult.get id) ()
  if review.expireTime < s.now then pure ()
  else do
    closeReview x review
    modify fun s =>
      (s.slashAndReward [review.applicant] review.stakedAmount []).mapDues (·.rmReview id)

def State.execReview (s : State A) : State A :=
  ((forEach (s.dues.pendingSlashReview.iter.map Prod.fst) execReviewOne).run s).2

/-- One round of `exec_slash`. -/
def execSlashOne (id : Nat) : Call (State A) Unit Unit := do
  let s ← get
  let x ← okOr (s.dues.reportResult.get id) ()
  when (x.reportResult ≠ .noConsensus) (modify fun s =>
    s.closeReport x.reporter x.reporterStake x.reportResult.slashesReporter)
  let slashed := x.unrulyCommittee.toList ++ x.inconsistentCommittee.toList
  let reward := if x.reportResult = .reportSucceed then x.rewardCommittee.toList ++ [x.reporter]
    else []
  when (x.reportResult.slashesReporter = true) (modify fun s =>
    s.slashAndReward [x.reporter] x.reporterStake x.rewardCommittee.toList)
  ignore (changeCommitteeStakeOnReportClose x.rewardCommittee.toList x.committeeStake false)
  ignore (changeCommitteeStakeOnReportClose slashed x.committeeStake true)
  modify fun s => (s.slashAndReward slashed x.committeeStake reward).mapDues
    (·.putResult id (x.setSlashResult .executed))

/-- `exec_slash`. A result that is missing stops it. -/
def execSlash : Call (State A) Unit Unit := do
  let s ← get
  forEach (s.dues.unhandledReportResult.getD s.now ∅).toList execSlashOne
  modify fun s => s.mapDues (·.rmUnhandled s.now)

def State.onInitialize (s : State A) : State A := (execSlash.run s.execReview).2

/-! # The end of a block

`summary_fault_hook` looks at the reports of faults that take hours to verify,
`summary_inaccessible_hook` at those of machines that cannot be reached. The rounds of their loops
are no transactions: an error leaves what was written before it, and the next round goes on. -/

/-! ## Machines that cannot be reached -/

namespace Desk

def startRaw (d : Desk A) (id : Nat) (info : MTReportInfoDetail A) : Desk A :=
  (d.mapLive (·.timeToSubmitRaw id)).putInfo id (info.setStatus .submittingRaw)

def closeOne (id : Nat) (info : MTReportInfoDetail A) (d : Desk A) (c : A) : Desk A :=
  if c ∈ info.confirmedCommittee then d.putOrder c ((d.order c).cleanWhenSummary id true)
  else (d.rmOps c id).putOrder c ((d.order c).cleanWhenSummary id false)

def closeInaccessible (d : Desk A) (id : Nat) (info : MTReportInfoDetail A) : Desk A :=
  info.bookedCommittee.toList.foldl (closeOne id info) (d.mapLive (·.rmWaitingRaw id))

def finishInaccessible (d : Desk A) (id : Nat) (info : MTReportInfoDetail A) : Desk A :=
  (d.putInfo id (info.setStatus .committeeConfirmed)).mapLive fun l =>
    (l.cleanUnfinishedReport id).addFinished id

end Desk

def unruly (info : MTReportInfoDetail A) (x : MTReportResultInfo A) : MTReportResultInfo A :=
  (info.bookedCommittee.toList.filter (· ∉ info.confirmedCommittee)).foldl
    MTReportResultInfo.addUnruly x

def finishInaccessible (id : Nat) (info : MTReportInfoDetail A) (x : MTReportResultInfo A)
    (reports : ReporterReportList) : Call (State A) Unit Unit :=
  modify fun s => (s.mapDesk (·.finishInaccessible id info)).mapDues fun y =>
    ((y.putReports info.reporter reports).updateUnhandledReport id true x.slashExecTime).putResult
      id x

/-- Nobody revealed a finding: the fault is reported again. -/
def reportAgain (id : Nat) (info : MTReportInfoDetail A) (x : MTReportResultInfo A)
    (reports : ReporterReportList) : Call (State A) Unit Unit := do
  let reports ← (doReportMachineFault info.reporter info.machineFaultType (some info.reportTime)
    reports).mapError fun _ => ()
  when (x.unrulyCommittee.isEmpty = false) (modify fun s => s.mapDues fun y =>
    (y.updateUnhandledReport id true x.slashExecTime).putResult id
      { x with reportResult := .noConsensus, reporterStake := 0 })
  modify fun s => s.mapDues (·.putReports info.reporter (reports.addFailed id))

/-- The end of `summary_inaccessible_report`, for a report whose findings are in. -/
def decideInaccessible (id : Nat) (info : MTReportInfoDetail A) (stash : A) :
    Call (State A) Unit Unit := do
  let s ← get
  let x := unruly info (.newInaccessibleResult s.now id info stash)
  let reports := (s.dues.reportsOf info.reporter).rmProcessing id
  set (s.mapDesk (·.closeInaccessible id info))
  if info.confirmedCommittee.isEmpty then reportAgain id info x reports
  else if info.againstCommittee.length ≤ info.supportCommittee.length then do
    profile (OnlineProfile.mtMachineOffline info.reporter info.supportCommittee.toList
      info.machineId (intoOpErr info.machineFaultType info.reportTime))
    finishInaccessible id info
      (x.judge .reportSucceed info.againstCommittee info.supportCommittee) (reports.addSucceed id)
  else
    finishInaccessible id info
      (x.judge .reportRefused info.supportCommittee info.againstCommittee) (reports.addFailed id)

def summaryInaccessibleReport (id : Nat) : Call (State A) Unit Unit := do
  let s ← get
  let info ← okOr (s.desk.info id) ()
  ensure (info.canSummaryInaccessible s.now) ()
  if info.reportStatus = .waitingBook ∨ info.reportStatus = .verifying then
    when (fiveMinutes ≤ s.now - info.firstBookTime ∨ info.hashedCommittee.length = 3)
      (modify fun s => s.mapDesk (·.startRaw id info))
  else do
    let machine ← okOr (s.machine info.machineId) ()
    decideInaccessible id info machine.machineStash

def State.summaryInaccessibleHook (s : State A) : State A :=
  let l := s.desk.liveReport
  (l.verifyingReport.toList ++ l.bookableReport.toList ++ l.waitingRawReport.toList).foldl
    (fun s id => ((summaryInaccessibleReport id).run s).2) s

/-! ## Other faults -/

namespace Desk

/-- A committee of a report whose reporter sent nothing is released. -/
def release (d : Desk A) (id : Nat) (c : A) : Desk A :=
  (d.rmOps c id).putOrder c ((d.order c).cleanUnfinishedOrder id)

/-- A committee that submitted no hash in time loses the report. -/
def dropVerifying (d : Desk A) (id : Nat) (info : MTReportInfoDetail A) (c : A) : Desk A :=
  (((d.mapLive (·.cleanNotSubmitHashReport id)).putOrder c ((d.order c).rmBooked id)).putInfo id
    (info.cleanNotSubmitHashCommittee c)).rmOps c id

def dropLast (d : Desk A) (id : Nat) (info : MTReportInfoDetail A) (c : A) : Desk A :=
  ((d.putOrder c ((d.order c).cleanUnfinishedOrder id)).rmOps c id).putInfo id
    (info.cleanNotSubmitRawCommittee c)

def finishOne (id : Nat) (d : Desk A) (c : A) : Desk A := d.putOrder c ((d.order c).finish id)

def failOne (id : Nat) (d : Desk A) (c : A) : Desk A :=
  (d.rmOps c id).putOrder c ((d.order c).rmBookedHashed id)

end Desk

/-- The reporter did not send the encrypted information in time. -/
def reporterLate (id : Nat) (info : MTReportInfoDetail A) (x : MTReportResultInfo A) :
    Call (State A) Unit Unit := do
  modify fun s => s.mapDues fun y => y.putReports info.reporter
    ((y.reportsOf info.reporter).cleanNotSubmitEncryptedReport id)
  forEach info.bookedCommittee.toList fun c => do
    let s ← get
    ignore (changeUsedStake c (s.desk.ops c id).stakedBalance false)
    modify fun s => s.mapDesk (·.release id c)
  modify fun s => (s.mapDesk fun d => d.mapLive (·.rmVerifying id)).mapDues fun y =>
    (y.updateUnhandledReport id true x.slashExecTime).putResult id
      (x.setResult .reporterNotSubmitEncryptedInfo)

def summaryBeforeSubmitRaw (id : Nat) (info : MTReportInfoDetail A) : Call (State A) Unit Unit := do
  let s ← get
  if info.reportStatus ≠ .verifying then pure ()
  else do
    let c ← okOr info.verifyingCommittee ()
    let x : MTReportResultInfo A :=
      .new id s.now (s.stakePerOrder.getD 0) info.reporterStake info.reporter none []
    let waited := s.now - (s.desk.ops c id).bookedTime
    if halfHour ≤ waited ∧ (s.desk.ops c id).encryptedErrInfo.isNone then reporterLate id info x
    else when (oneHour ≤ waited) (modify fun s =>
      (s.mapDesk (·.dropVerifying id info c)).mapDues fun y =>
        (y.updateUnhandledReport id true x.slashExecTime).putResult id (x.addUnruly c))

/-- `summary_after_submit_raw`. The status of a report that is being verified stays. -/
def summaryAfterSubmitRaw (id : Nat) : Call (State A) Unit Unit := do
  modify fun s => s.mapDesk fun d =>
    d.mapLive fun l => (l.cleanUnfinishedReport id).addWaitingRaw id
  let s ← get
  let info ← okOr (s.desk.info id) ()
  if info.reportStatus = .waitingBook then
    modify fun s => s.mapDesk (·.putInfo id (info.setStatus .submittingRaw))
  else do
    let c ← okOr info.verifyingCommittee ()
    let ops := s.desk.ops c id
    when (s.now - ops.bookedTime < oneHour) do
      ignore (changeUsedStake c ops.stakedBalance false)
      modify fun s => s.mapDesk (·.dropLast id info c)

def summaryVerifyingReport (id : Nat) : Call (State A) Unit Unit := do
  let s ← get
  let info ← okOr (s.desk.info id) ()
  ensure info.canSummaryFault ()
  if s.now - info.firstBookTime < threeHours then summaryBeforeSubmitRaw id info
  else summaryAfterSubmitRaw id

/-- What the outcome of a vote does to the committees, the machine and the reporter. -/
def applySummary (id : Nat) (info : MTReportInfoDetail A) : Call (State A) Unit Unit :=
  match info.summary with
  | .confirmed support _ _ => do
    modify fun s => s.mapDesk fun d => support.toList.foldl (Desk.finishOne id) d
    profile (OnlineProfile.mtMachineOffline info.reporter support.toList info.machineId
      (intoOpErr info.machineFaultType info.reportTime))
  | .refuse support against =>
    modify fun s => s.mapDesk fun d =>
      (support.toList ++ against.toList).foldl (Desk.finishOne id) d
  | .noConsensus => do
    modify fun s => s.mapDesk fun d => info.bookedCommittee.toList.foldl (Desk.failOne id) d
    let s ← get
    let old := s.dues.reportsOf info.reporter
    let r ← attempt (doReportMachineFault info.reporter info.machineFaultType
      (some info.reportTime) old)
    modify fun s => s.mapDues (·.putReports info.reporter (match r with
      | .ok reports => reports
      | .error _ => old))

def summarySubmittingRaw (id : Nat) : Call (State A) Unit Unit := do
  let s ← get
  let info ← okOr (s.desk.info id) ()
  if ¬ info.canSummary s.now then pure ()
  else do
    let x := MTReportResultInfo.getVerifyResult (s.dues.reportResult.get id) s.now id
      (s.stakePerOrder.getD 0) info
    set (s.mapDesk fun d => d.mapLive (·.getVerifyResult id info.summary))
    applySummary id info
    modify fun s => (s.mapDues fun y =>
      (y.updateUnhandledReport id true (s.now + twoDays)).putResult id x).mapDesk
        (·.putInfo id (if info.reportStatus = .reported then info
          else info.setStatus .committeeConfirmed))

def State.summaryFaultHook (s : State A) : State A :=
  let l := s.desk.liveReport
  let s := (l.verifyingReport.toList ++ l.bookableReport.toList).foldl
    (fun s id => ((summaryVerifyingReport id).run s).2) s
  l.waitingRawReport.toList.foldl (fun s id => ((summarySubmittingRaw id).run s).2) s

def State.onFinalize (s : State A) : State A :=
  (s.summaryFaultHook).summaryInaccessibleHook

end

end DeepBrainChain.MaintainCommittee
