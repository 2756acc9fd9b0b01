import DeepBrainChain.OnlineProfile.Calls

/-!
# The online-committee pallet

The orders of the machines that are verified, what each committee did for them, and the slashes
that follow from a summary: a slash waits two days, in which it can be reviewed and cancelled.

A committee submits the hash of its report and the report itself; a slashed committee or stash
applies for a review, which may be granted (`cancel_slash`). At the end of a block the orders that
are due are summed up and new machines are given out; at its start the reviews and the slashes are
carried out. The hooks are no transactions: an error leaves what was written before it.
-/

namespace DeepBrainChain.OnlineCommittee

open Lib GenericFunc Support Lib.Call

inductive OCSlashResult
  | pending
  | canceled
  | executed
deriving DecidableEq

structure OCPendingSlashInfo (A : Type) [LinearOrder A] where
  machineId : MachineId
  machineStash : Option A
  stashSlashAmount : Nat
  inconsistentCommittee : SortedVec A
  unrulyCommittee : SortedVec A
  rewardCommittee : SortedVec A
  committeeStake : Nat
  slashTime : Nat
  slashExecTime : Nat
  bookResult : OCBookResultType
  slashResult : OCSlashResult

structure OCPendingSlashReviewInfo (A : Type) where
  applicant : A
  stakedAmount : Nat
  applyTime : Nat
  expireTime : Nat
  reason : Bytes

structure Orders (A : Type) [LinearOrder A] where
  committeeMachine : StorageMap A OCCommitteeMachineList
  machineCommittee : StorageMap MachineId (OCMachineCommitteeList A)
  machineSubmitedHash : StorageMap MachineId (SortedVec Bytes)
  committeeOps : StorageMap (A × MachineId) OCCommitteeOps

structure Slashes (A : Type) [LinearOrder A] where
  nextSlashId : Nat
  pendingSlash : StorageMap Nat (OCPendingSlashInfo A)
  pendingSlashReview : StorageMap Nat (OCPendingSlashReviewInfo A)
  unhandledSlash : SortedVec Nat

structure State (A : Type) [LinearOrder A] extends toProfile : OnlineProfile.State A where
  orders : Orders A
  oc : Slashes A

inductive Error
  | notInBookList
  | alreadySubmitHash
  | notAllHashSubmited
  | timeNotAllow
  | notSubmitHash
  | alreadySubmitRaw
  | infoNotFeatHash
  | duplicateHash
  | getStakeAmountFailed
  | alreadyApplied
  | notSlashed
  | balanceNotEnough
  | notPendingReviewSlash
  | expiredApply
  | overflow
  | unknown

def Error.ofVerifyErr : VerifyErr → Error
  | .notInBookList => .notInBookList
  | .timeNotAllow => .timeNotAllow
  | .alreadySubmitHash => .alreadySubmitHash
  | .alreadySubmitRaw => .alreadySubmitRaw
  | .notSubmitHash => .notSubmitHash
  | .overflow => .overflow

section

variable {A : Type} [LinearOrder A]

namespace OCPendingSlashInfo

def ApplicantIsStash (x : OCPendingSlashInfo A) (stash : A) : Prop :=
  x.bookResult = .onlineRefused ∧ x.machineStash = some stash

instance (x : OCPendingSlashInfo A) (stash : A) : Decidable (x.ApplicantIsStash stash) :=
  inferInstanceAs (Decidable (_ ∧ _))

def setResult (x : OCPendingSlashInfo A) (r : OCSlashResult) : OCPendingSlashInfo A :=
  { x with slashResult := r }

end OCPendingSlashInfo

namespace Orders

def empty : Orders A := ⟨∅, ∅, ∅, ∅⟩

def machinesOf (x : Orders A) (committee : A) : OCCommitteeMachineList :=
  x.committeeMachine.getD committee .zero

def order (x : Orders A) (m : MachineId) : OCMachineCommitteeList A :=
  x.machineCommittee.getD m .zero

def ops (x : Orders A) (committee : A) (m : MachineId) : OCCommitteeOps :=
  x.committeeOps.getD (committee, m) .zero

def putOrder (x : Orders A) (m : MachineId) (o : OCMachineCommitteeList A) : Orders A :=
  { x with machineCommittee := x.machineCommittee.insert m o }

def rmOrder (x : Orders A) (m : MachineId) : Orders A :=
  { x with machineCommittee := x.machineCommittee.remove m }

def putMachines (x : Orders A) (committee : A) (l : OCCommitteeMachineList) : Orders A :=
  { x with committeeMachine := x.committeeMachine.insert committee l }

def putOps (x : Orders A) (committee : A) (m : MachineId) (o : OCCommitteeOps) : Orders A :=
  { x with committeeOps := x.committeeOps.insert (committee, m) o }

def putHashes (x : Orders A) (m : MachineId) (l : SortedVec Bytes) : Orders A :=
  { x with machineSubmitedHash := x.machineSubmitedHash.insert m l }

/-- One round of the loop of `revert_book`. -/
def revertOne (m : MachineId) (x : Orders A) (committee : A) : Orders A :=
  { x with
    committeeOps := x.committeeOps.remove (committee, m)
    committeeMachine := x.committeeMachine.insert committee ((x.machinesOf committee).cleanup m) }

def revertBook (x : Orders A) (m : MachineId) : Orders A :=
  ((x.order m).bookedCommittee.toList.foldl (revertOne m) x).rmOrder m

/-- One round of the cleaning at the end of `summary_raw`. -/
def cleanOne (m : MachineId) (x : Orders A) (committee : A) : Orders A :=
  { revertOne m x committee with machineSubmitedHash := x.machineSubmitedHash.remove m }

/-- A confirmed machine is listed under the committees that agreed. -/
def markOnline (m : MachineId) (x : Orders A) (committee : A) : Orders A :=
  x.putMachines committee ((x.machinesOf committee).online m)

end Orders

namespace Slashes

def empty : Slashes A := ⟨0, ∅, ∅, ∅⟩

/-- `get_new_slash_id`, the number after `id`. -/
def nextId (id : Nat) : Nat := if id = u64Max then 0 else id + 1

def putSlash (x : Slashes A) (id : Nat) (slash : OCPendingSlashInfo A) : Slashes A :=
  { x with pendingSlash := x.pendingSlash.insert id slash }

def addSlash (x : Slashes A) (slash : OCPendingSlashInfo A) : Slashes A :=
  { x with
    nextSlashId := nextId x.nextSlashId
    pendingSlash := x.pendingSlash.insert x.nextSlashId slash
    unhandledSlash := x.unhandledSlash.addItem x.nextSlashId }

def putReview (x : Slashes A) (id : Nat) (review : OCPendingSlashReviewInfo A) : Slashes A :=
  { x with pendingSlashReview := x.pendingSlashReview.insert id review }

def rmReview (x : Slashes A) (id : Nat) : Slashes A :=
  { x with pendingSlashReview := x.pendingSlashReview.remove id }

def setUnhandled (x : Slashes A) (l : SortedVec Nat) : Slashes A := { x with unhandledSlash := l }

end Slashes

namespace State

def fresh (s : OnlineProfile.State A) : State A := ⟨s, .empty, .empty⟩

def setProfile (p : OnlineProfile.State A) (s : State A) : State A := { s with toProfile := p }

def setCommitteeState (c : Committee.State A) (s : State A) : State A :=
  s.setProfile (s.toProfile.setCommitteeState c)

def setBalances (s : State A) (b : Balances A) : State A := { s with balances := b }

def mapOrders (s : State A) (f : Orders A → Orders A) : State A := { s with orders := f s.orders }

def mapOc (s : State A) (f : Slashes A → Slashes A) : State A := { s with oc := f s.oc }

end State

/-! ## Calls -/

def profile {ε α : Type} (c : Call (OnlineProfile.State A) ε α) : Call (State A) ε α :=
  c.zoom (fun s => s.toProfile) State.setProfile

def committee {ε α : Type} (c : Call (Committee.State A) ε α) : Call (State A) ε α :=
  c.zoom (fun s => s.toCommittee) State.setCommitteeState

def changeCommitteeUsedStake (who : A) (amount : Nat) (isAdd : Bool) : Call (State A) Unit Unit :=
  committee (Committee.changeUsedStake who amount isAdd)

def changeCommitteeTotalStake (who : A) (amount : Nat) (isAdd changeReserve : Bool) :
    Call (State A) Unit Unit :=
  committee (Committee.doChangeReserved who amount isAdd changeReserve)

/-- One round of `change_committee_stake`. -/
def changeOneStake (amount : Nat) (isSlash : Bool) (who : A) : Call (State A) Unit Unit := do
  when (isSlash = true) (changeCommitteeTotalStake who amount false false)
  changeCommitteeUsedStake who amount false

def changeCommitteeStake (l : List A) (amount : Nat) (isSlash : Bool) : Call (State A) Unit Unit :=
  forEach l (changeOneStake amount isSlash)

def State.slashAndReward (s : State A) (slashWho : List A) (amount : Nat) (rewardWho : List A) :
    State A :=
  s.setBalances (GenericFunc.slashAndReward s.balances slashWho amount rewardWho)

/-! ## Reports -/

def verified {α : Type} : Except VerifyErr α → Call (State A) Error α
  | .ok a => pure a
  | .error e => throw (.ofVerifyErr e)

def submitConfirmHash (committee : A) (m : MachineId) (hash : Bytes) :
    Call (State A) Error Unit := do
  let s ← get
  let hashes := s.orders.machineSubmitedHash.getD m ∅
  ensure (hash ∉ hashes) .duplicateHash
  let o ← verified ((s.orders.order m).submitHash committee)
  set (s.mapOrders fun x => (((x.putHashes m (hashes.addItem hash)).putOrder m o).putMachines
    committee ((x.machinesOf committee).submitHash m)).putOps committee m ((x.ops committee
    m).submitHash s.now hash))

/-- `submit_confirm_raw`; `blake2` is the hash function of the chain. -/
def submitConfirmRaw (blake2 : Bytes → Bytes) (committee : A) (info : CommitteeUploadInfo) :
    Call (State A) Error Unit := do
  let s ← get
  let m := info.machineId
  ensure (blake2 info.rawInfo = (s.orders.ops committee m).confirmHash) .infoNotFeatHash
  let l ← verified ((s.orders.machinesOf committee).submitRaw m)
  let o ← verified ((s.orders.order m).submitRaw s.now committee)
  set (s.mapOrders fun x => ((x.putMachines committee l).putOrder m o).putOps committee m
    ((x.ops committee m).submitRaw s.now info))

/-! ## Reviews -/

/-- The stake of an applicant: a stash stakes as a stash, a committee as a committee. -/
def payReviewStake (isStash : Prop) [Decidable isStash] (who : A) (amount : Nat) :
    Call (State A) Error Unit :=
  if isStash then
    (profile (OnlineProfile.changeStake who amount true)).mapError fun _ => .balanceNotEnough
  else do
    (changeCommitteeTotalStake who amount true true).mapError fun _ => .overflow
    (changeCommitteeUsedStake who amount true).mapError fun _ => .overflow

def applySlashReview (applicant : A) (id : Nat) (reason : Bytes) : Call (State A) Error Unit := do
  let s ← get
  let slash ← okOr (s.oc.pendingSlash.get id) .unknown
  let amount ← okOr s.stakePerOrder .getStakeAmountFailed
  ensure (s.oc.pendingSlashReview.get id).isNone .alreadyApplied
  ensure (s.now < slash.slashExecTime) .timeNotAllow
  let stash ← okOr (s.owners.controllerStash.get applicant) .unknown
  ensure (slash.ApplicantIsStash stash ∨ applicant ∈ slash.inconsistentCommittee) .notSlashed
  let slashed := if slash.ApplicantIsStash stash then stash else applicant
  ensure (s.balances.reserve slashed amount).isSome .balanceNotEnough
  payReviewStake (slash.ApplicantIsStash stash) slashed amount
  modify fun s => s.mapOc (·.putReview id ⟨slashed, amount, s.now, slash.slashExecTime, reason⟩)

/-- Give an applicant its stake back. A committee gets it back twice: from its reserve, and with
its records. -/
def returnReviewStake (isStash : Prop) [Decidable isStash] (review : OCPendingSlashReviewInfo A)
    (orderStake : Nat) : Call (State A) Error Unit :=
  if isStash then
    ignore (profile (OnlineProfile.changeStake review.applicant orderStake false))
  else do
    modify fun s => s.setBalances (s.balances.unreserve review.applicant review.stakedAmount).1
    ignore (changeCommitteeTotalStake review.applicant orderStake false true)
    ignore (changeCommitteeUsedStake review.applicant orderStake false)

/-- One round of the loop of `do_cancel_slash` over the committees to slash. -/
def cancelSlashOne (amount : Nat) (who : A) : Call (State A) Error Unit := do
  ignore (changeCommitteeTotalStake who amount false false)
  ignore (changeCommitteeUsedStake who amount false)

def doCancelSlash (id : Nat) : Call (State A) Error Unit := do
  let s ← get
  let slash ← okOr (s.oc.pendingSlash.get id) .unknown
  let review ← okOr (s.oc.pendingSlashReview.get id) .unknown
  let orderStake ← okOr s.stakePerOrder .getStakeAmountFailed
  ensure (s.now < review.expireTime) .expiredApply
  let isStash := slash.ApplicantIsStash review.applicant
  returnReviewStake isStash review orderStake
  let shouldSlash := slash.rewardCommittee.expandToOrder slash.unrulyCommittee.toList
  let shouldReward :=
    if slash.bookResult = .onlineRefused then
      match slash.machineStash with
      | some stash => slash.inconsistentCommittee.addItem stash
      | none => slash.inconsistentCommittee
    else slash.inconsistentCommittee
  modify fun s => s.slashAndReward shouldSlash.toList orderStake shouldReward.toList
  when isStash
    (ignore (profile (OnlineProfile.changeStake review.applicant slash.stashSlashAmount false)))
  forEach shouldSlash.toList (cancelSlashOne orderStake)
  forEach shouldReward.toList fun who =>
    ignore (changeCommitteeUsedStake who orderStake false)
  modify fun s => s.mapOc fun x =>
    ((x.setUnhandled (x.unhandledSlash.rmItem id)).putSlash id (slash.setResult .canceled)).rmReview
      id

/-- `cancel_slash`, from the origin that may cancel slashes. -/
def cancelSlash (id : Nat) : Call (State A) Error Unit := do
  let s ← get
  ensure (s.oc.pendingSlashReview.get id).isSome .notPendingReviewSlash
  doCancelSlash id

/-! ## The start of a block -/

/-- The slash of an applicant's stake, before the stake itself is burned. -/
def execReviewSlash (slash : OCPendingSlashInfo A) (review : OCPendingSlashReviewInfo A) :
    Call (State A) Unit Unit :=
  match slash.machineStash with
  | some stash =>
    when (slash.bookResult = .onlineRefused ∧ stash = review.applicant) do
      profile (OnlineProfile.rmStashTotalStake stash review.stakedAmount)
      modify fun s =>
        s.slashAndReward [stash] slash.stashSlashAmount slash.rewardCommittee.toList
  | none => changeCommitteeStake [review.applicant] review.stakedAmount true

/-- `do_a_pending_review`. A review that is past its time is kept. -/
def doAPendingReview (id : Nat) : Call (State A) Unit Unit := do
  let s ← get
  let review ← okOr (s.oc.pendingSlashReview.get id) ()
  let slash ← okOr (s.oc.pendingSlash.get id) ()
  if review.expireTime < s.now then pure ()
  else do
    execReviewSlash slash review
    modify fun s =>
      (s.slashAndReward [review.applicant] review.stakedAmount []).mapOc (·.rmReview id)

def State.checkAndExecPendingReview (s : State A) : State A :=
  (s.oc.pendingSlashReview.iter.map Prod.fst).foldl (fun s id => ((doAPendingReview id).run s).2) s

namespace OCPendingSlashInfo

/-- Whom `do_a_slash` slashes. -/
def slashedCommittee (x : OCPendingSlashInfo A) : List A :=
  if x.stashSlashAmount ≠ 0 ∨ x.rewardCommittee.isEmpty = false then
    x.unrulyCommittee.toList ++ x.inconsistentCommittee.toList
  else x.unrulyCommittee.toList

/-- Whose stake `do_a_slash` releases. -/
def releaseCommittee (x : OCPendingSlashInfo A) : List A :=
  if x.stashSlashAmount ≠ 0 ∨ x.rewardCommittee.isEmpty = false then x.rewardCommittee.toList
  else x.inconsistentCommittee.toList

end OCPendingSlashInfo

def slashStash (x : OCPendingSlashInfo A) : Call (State A) Unit Unit :=
  when (x.stashSlashAmount ≠ 0) (whenSome x.machineStash fun stash => do
    profile (OnlineProfile.rmStashTotalStake stash x.stashSlashAmount)
    modify fun s =>
      s.slashAndReward [stash] x.stashSlashAmount x.rewardCommittee.toList)

/-- `do_a_slash`; `left` are the slashes that are left to handle. -/
def doASlash (id : Nat) (left : SortedVec Nat) : Call (State A) Unit (SortedVec Nat) := do
  let s ← get
  let x ← okOr (s.oc.pendingSlash.get id) ()
  if s.now < x.slashExecTime then pure left
  else do
    slashStash x
    changeCommitteeStake x.slashedCommittee x.committeeStake true
    changeCommitteeStake x.releaseCommittee x.committeeStake false
    modify fun s =>
      (s.slashAndReward x.slashedCommittee x.committeeStake []).mapOc
        (·.putSlash id (x.setResult .executed))
    pure (left.rmItem id)

/-- The loop of `check_and_exec_pending_slash`: the slashes that are left, and the storage. -/
def execSlashes : List Nat → SortedVec Nat × State A → SortedVec Nat × State A
  | [], r => r
  | id :: l, (left, s) =>
    match (doASlash id left).run s with
    | (.ok left', s') => execSlashes l (left', s')
    | (.error _, s') => execSlashes l (left, s')

def State.checkAndExecPendingSlash (s : State A) : State A :=
  let r := execSlashes s.oc.unhandledSlash.toList (s.oc.unhandledSlash, s)
  r.2.mapOc (·.setUnhandled r.1)

def State.onInitialize (s : State A) : State A :=
  s.checkAndExecPendingReview.checkAndExecPendingSlash

/-! ## The end of a block

`statistic_result` sums up the orders that are due, and `distribute_machines` gives the machines
that wait for a verification to three random committees each. Random numbers are drawn outside:
`draw m i` is the number behind the choice of the `i`-th committee of `m`. -/

def addSummarySlash (m : MachineId) (machineStash : Option A) (slashAmount : Nat)
    (summary : Summary A) (stakePerOrder : Nat) : Call (State A) Unit Unit :=
  modify fun s => s.mapOc (·.addSlash
    { machineId := m
      machineStash := machineStash
      stashSlashAmount := slashAmount
      inconsistentCommittee := summary.invalidVote
      unrulyCommittee := summary.unruly
      rewardCommittee := summary.validVote
      committeeStake := stakePerOrder
      slashTime := s.now
      slashExecTime := twoDays + s.now
      bookResult := summary.intoBookResult
      slashResult := .pending })

/-- A refused machine: its stash, and what the stash is to be slashed. -/
def refuse (m : MachineId) (summary : Summary A) : Call (State A) Unit (Option (A × Nat)) :=
  if summary.verifyResult = .refused then do
    let r ← attempt (profile (OnlineProfile.refuseMachine summary.validVote.toList m))
    match r with
    | .ok slash => pure (some slash)
    | .error _ => pure none
  else pure none

/-- Release the stake of committees, whatever becomes of it. -/
def release (l : List A) (amount : Nat) : Call (State A) Unit Unit :=
  forEach l fun who => ignore (changeCommitteeUsedStake who amount false)

def applyResult (m : MachineId) (summary : Summary A) (stakePerOrder : Nat) :
    Call (State A) Unit Unit :=
  match summary.verifyResult with
  | .confirmed => do
    whenSome summary.info fun info =>
      profile (OnlineProfile.confirmMachine summary.validVote.toList info)
    modify fun s => s.mapOrders fun x =>
      summary.validVote.toList.foldl (Orders.markOnline m) x
  | .refused => pure ()
  | .noConsensus => do
    modify fun s => s.mapOrders (·.revertBook m)
    profile (OnlineProfile.revertBookedMachine m)
    release summary.invalidVote.toList stakePerOrder

/-- The slash of a summary. Where there is none, the committees that agreed are released. -/
def settle (m : MachineId) (summary : Summary A) (stashSlash : Option (A × Nat))
    (stakePerOrder : Nat) : Call (State A) Unit Unit :=
  if stashSlash.isSome ∨ summary.shouldSlashCommittee = true then
    addSummarySlash m (stashSlash.map Prod.fst) ((stashSlash.map Prod.snd).getD 0) summary
      stakePerOrder
  else release summary.validVote.toList stakePerOrder

/-- The end of `summary_raw`: `booked` are the committees of the order. -/
def cleanUp (m : MachineId) (summary : Summary A) (booked : List A) : Call (State A) Unit Unit :=
  modify fun s => s.mapOrders fun x =>
    booked.foldl (Orders.cleanOne m) (x.putOrder m ((x.order m).afterSummary summary))

def summaryRaw (m : MachineId) (stakePerOrder : Nat) : Call (State A) Unit Unit := do
  let s ← get
  let o := s.orders.order m
  if o.canSubmitRaw s.now = true then set (s.mapOrders (·.putOrder m o.startRaw))
  else if o.canSummary s.now = false then pure ()
  else do
    let summary := o.summaryConfirmation
      (o.confirmedCommittee.toList.map fun c => (s.orders.ops c m).machineInfo)
    let stashSlash ← refuse m summary
    applyResult m summary stakePerOrder
    settle m summary stashSlash stakePerOrder
    cleanUp m summary o.bookedCommittee.toList

/-- The storage in the middle of `statistic_result`, after the machines `l`. -/
def State.summedUp (s : State A) (l : List MachineId) : State A :=
  l.foldl (fun s' m => ((summaryRaw m (s.stakePerOrder.getD 0)).run s').2) s

def State.statisticResult (s : State A) : State A :=
  s.summedUp s.machines.liveMachines.bookedMachine.toList

/-! ## Giving out machines -/

/-- The loop of `get_work_index` over the committees that are left: each committee with the
intervals in which it verifies. -/
def pickCommittees (draw : Nat → Nat) : List Nat → List A → List (A × List Nat)
  | [], _ => []
  | i :: is, l =>
    let lucky := draw i % l.length
    match l[lucky]? with
    | some who => (who, [i, i + 3, i + 6]) :: pickCommittees draw is (l.eraseIdx lucky)
    | none => []

def State.getWorkIndex (s : State A) (draw : Nat → Nat) : Option (List (A × List Nat)) :=
  match s.availableCommittee with
  | none => none
  | some l => if l.length < 3 then none else some (pickCommittees draw [0, 1, 2] l)

def bookOne (m : MachineId) (work : A × List Nat) : Call (State A) Unit Unit := do
  let s ← get
  let stake ← okOr s.stakePerOrder ()
  changeCommitteeUsedStake work.1 stake true
  modify fun s => s.mapOrders fun x =>
    ((x.putOrder m ((x.order m).book work.1 s.now (submitRawStart + s.now))).putMachines work.1
      ((x.machinesOf work.1).book m)).putOps work.1 m ((x.ops work.1 m).book stake
        (work.2.map fun i => i * submitRawStart / 9 + s.now))

/-- One round of `distribute_machines`. -/
def State.distributeOne (draw : MachineId → Nat → Nat) (s : State A) (m : MachineId) : State A :=
  let s := s.mapOrders (·.rmOrder m)
  match s.getWorkIndex (draw m) with
  | none => s
  | some l =>
    let s := l.foldl (fun s work => ((bookOne m work).run s).2) s
    ((profile (OnlineProfile.bookedMachine m)).run s).2

def State.distributeMachines (s : State A) (draw : MachineId → Nat → Nat) : State A :=
  s.machines.liveMachines.confirmedMachine.toList.foldl (State.distributeOne draw) s

def State.onFinalize (s : State A) (draw : MachineId → Nat → Nat) : State A :=
  s.statisticResult.distributeMachines draw

end

end DeepBrainChain.OnlineCommittee
