import DeepBrainChain.Lib.Call
import DeepBrainChain.Lib.Balances

/-!
# Storage of the compute pool scheduler

The data types, constants and storage items of `pallets/compute-pool-scheduler`. Balances,
block numbers, identifiers and counters are natural numbers; where the source saturates or checks, the model
does so at the bound of the source's type. The storage also has one proof-only item, `moves`:
the history of the escrowed rewards, written next to the currency calls that move them and read
by nothing in the model.
-/

namespace DeepBrainChain.ComputePoolScheduler

open Lib

abbrev Hash := BitVec 256

inductive PoolStatus
  | active
  | inactive
  | deregistered
deriving DecidableEq

inductive TaskPriority
  | low
  | normal
  | high
  | critical
deriving DecidableEq

inductive TaskStatus
  | pending
  | assigned
  | computing
  | proofSubmitted
  | verifying
  | completed
  | failed
deriving DecidableEq

structure TaskDimensions where
  m : Nat
  n : Nat
  k : Nat

structure PoolScore where
  reputationScore : Nat := 0
  successRateScore : Nat := 0
  priceScore : Nat := 0
  nvlinkScore : Nat := 0
  finalScore : Nat := 0

structure ComputePool (A : Type) where
  poolId : Nat
  owner : A
  gpuModel : List UInt8
  gpuMemory : Nat
  hasNvlink : Bool
  nvlinkEfficiency : Nat
  pricePerTask : Nat
  reputation : Nat
  successRate : Nat
  totalTasks : Nat
  completedTasks : Nat
  failedTasks : Nat
  status : PoolStatus
  depositHeld : Nat
  score : PoolScore

structure ComputeTask (A : Type) where
  taskId : Nat
  user : A
  poolId : Nat
  dimensions : TaskDimensions
  priority : TaskPriority
  status : TaskStatus
  submittedAt : Nat
  proofHash : Option Hash
  verificationResult : Option Bool
  rewardAmount : Option Nat
  disputed : Bool

structure ReputationInfo where
  reputation : Nat := 80
  totalTasks : Nat := 0
  successfulTasks : Nat := 0
  failedTasks : Nat := 0

structure TaskEscrow (A : Type) where
  user : A
  poolOwner : A
  rewardAmount : Nat
  taskDeposit : Nat
  claimed : Bool

structure Config where
  poolDeposit : Nat
  taskDeposit : Nat
  failureSlash : Nat
  taskTimeout : Nat
  maxTasksPerPool : Nat
  initialReputation : Nat
  verificationTimeout : Nat

/-- What happened to an escrowed reward: it was locked in the user's reserve, paid to the pool
owner, or given back to the user. -/
inductive EscrowMove (A : Type)
  | locked (task : Nat) (user : A) (amount : Nat)
  | paid (task : Nat) (owner : A) (amount : Nat)
  | returned (task : Nat) (user : A) (amount : Nat)
deriving DecidableEq

def EscrowMove.task {A : Type} : EscrowMove A → Nat
  | .locked t _ _ => t
  | .paid t _ _ => t
  | .returned t _ _ => t

/-- The errors of the pallet; `arithmetic` is the overflow error of the runtime. -/
inductive Error
  | poolAlreadyExists
  | poolNotFound
  | notPoolOwner
  | poolInactive
  | invalidNvlinkEfficiency
  | invalidDimensions
  | taskNotFound
  | noAvailablePool
  | invalidTaskState
  | notTaskUser
  | notAssignedPoolOwner
  | invalidProof
  | rewardNotAvailable
  | rewardAlreadyClaimed
  | taskExpired
  | disputeNotAllowed
  | tooManyActiveTasks
  | activeTasksExist
  | insufficientBalance
  | arithmeticOverflow
  | insufficientStake
  | stakeNotFound
  | disputeAlreadyFiled
  | selfVerificationNotAllowed
  | proofNotSubmitted
  | arithmetic
deriving DecidableEq

/-- The state the pallet runs in: the block number, the ledger and the pallet's own storage. -/
structure State (A : Type) where
  now : Nat
  balances : Balances A
  nextPoolId : Nat
  nextTaskId : Nat
  pools : StorageMap Nat (ComputePool A)
  poolByOwner : StorageMap A Nat
  tasks : StorageMap Nat (ComputeTask A)
  poolTasks : StorageMap Nat (List Nat)
  activeTaskCount : StorageMap Nat Nat
  minerReputation : StorageMap A ReputationInfo
  rewards : StorageMap Nat Nat
  taskEscrowStore : StorageMap Nat (TaskEscrow A)
  poolStakes : StorageMap (Nat × A) Nat
  totalPoolStake : StorageMap Nat Nat
  proofSubmittedAt : StorageMap Nat Nat
  moves : List (EscrowMove A)

namespace State

variable {A : Type} (s : State A)

/-! ## Storage writes -/

def setBalances (b : Balances A) : State A := { s with balances := b }

def insertTask (taskId : Nat) (task : ComputeTask A) : State A :=
  { s with tasks := s.tasks.insert taskId task }

def insertPool (poolId : Nat) (pool : ComputePool A) : State A :=
  { s with pools := s.pools.insert poolId pool }

def insertReward (taskId amount : Nat) : State A :=
  { s with rewards := s.rewards.insert taskId amount }

def removeReward (taskId : Nat) : State A := { s with rewards := s.rewards.remove taskId }

def insertProofSubmittedAt (taskId now : Nat) : State A :=
  { s with proofSubmittedAt := s.proofSubmittedAt.insert taskId now }

def removeProofSubmittedAt (taskId : Nat) : State A :=
  { s with proofSubmittedAt := s.proofSubmittedAt.remove taskId }

def setNextPoolId (nextPoolId : Nat) : State A := { s with nextPoolId }

def setNextTaskId (nextTaskId : Nat) : State A := { s with nextTaskId }

def addPool [DecidableEq A] (pool : ComputePool A) (reputation : ReputationInfo) : State A :=
  { s with
    pools := s.pools.insert pool.poolId pool
    poolByOwner := s.poolByOwner.insert pool.owner pool.poolId
    minerReputation := s.minerReputation.insert pool.owner reputation
    activeTaskCount := s.activeTaskCount.insert pool.poolId 0 }

def removePool [DecidableEq A] (poolId : Nat) (owner : A) : State A :=
  { s with
    pools := s.pools.remove poolId
    poolTasks := s.poolTasks.remove poolId
    activeTaskCount := s.activeTaskCount.remove poolId
    poolByOwner := s.poolByOwner.remove owner }

def addActivity (poolId taskId : Nat) : State A :=
  { s with
    poolTasks := s.poolTasks.insert poolId (s.poolTasks.getD poolId [] ++ [taskId])
    activeTaskCount := s.activeTaskCount.insert poolId
      (saturatingAdd u32Max (s.activeTaskCount.getD poolId 0) 1) }

def lockEscrow (taskId : Nat) (escrow : TaskEscrow A) : State A :=
  { s with
    taskEscrowStore := s.taskEscrowStore.insert taskId escrow
    moves := s.moves ++ [.locked taskId escrow.user escrow.rewardAmount] }

def claimEscrow (taskId : Nat) (escrow : TaskEscrow A) (owner : A) (reward : Nat) : State A :=
  { s with
    taskEscrowStore := s.taskEscrowStore.insert taskId { escrow with claimed := true }
    moves := s.moves ++ [.paid taskId owner reward] }

def returnEscrow (taskId : Nat) (escrow : TaskEscrow A) : State A :=
  { s with
    taskEscrowStore := s.taskEscrowStore.remove taskId
    moves := s.moves ++ [.returned taskId escrow.user escrow.rewardAmount] }

/-- Write the stake of an account in a pool and the total of the pool. -/
def setStake [DecidableEq A] (poolId : Nat) (who : A) (stake total : Nat) : State A :=
  { s with
    poolStakes := s.poolStakes.insert (poolId, who) stake
    totalPoolStake := s.totalPoolStake.insert poolId total }

end State

def State.fresh {A : Type} (now : Nat) (balances : Balances A) : State A where
  now := now
  balances := balances
  nextPoolId := 0
  nextTaskId := 0
  pools := ∅
  poolByOwner := ∅
  tasks := ∅
  poolTasks := ∅
  activeTaskCount := ∅
  minerReputation := ∅
  rewards := ∅
  taskEscrowStore := ∅
  poolStakes := ∅
  totalPoolStake := ∅
  proofSubmittedAt := ∅
  moves := []

/-! # Calls of the compute pool scheduler

The extrinsics, the block hook and the helper functions of `pallets/compute-pool-scheduler`,
one definition for each function of the source. Storage iteration has no order the pallet could
rely on, so the functions that walk a map take the entries as an argument. -/

open Lib.Call

variable {A : Type} [DecidableEq A]

abbrev M (A : Type) := Call (State A) Error

/-! ## Currency -/

/-- `T::Currency::reserve(..).map_err(|_| InsufficientBalance)`. -/
def reserve (who : A) (value : Nat) : M A Unit := do
  let s ← get
  let b ← okOr (s.balances.reserve who value) .insufficientBalance
  set (s.setBalances b)

/-- `let _ = T::Currency::unreserve(..)`. -/
def unreserve (who : A) (value : Nat) : M A Unit :=
  modify fun s => s.setBalances (s.balances.unreserve who value).1

/-! ## Storage access -/

/-- `Tasks::<T>::try_mutate` with a closure that fails only on a missing task. -/
def tryMutateTask (taskId : Nat) (f : ComputeTask A → ComputeTask A) : M A Unit := do
  let s ← get
  let t ← okOr (s.tasks.get taskId) .taskNotFound
  set (s.insertTask taskId (f t))

/-- `Pools::<T>::mutate` with a closure that leaves a missing pool alone. -/
def mutatePool (poolId : Nat) (f : ComputePool A → ComputePool A) (s : State A) : State A :=
  match s.pools.get poolId with
  | some pool => s.insertPool poolId (f pool)
  | none => s

/-! ## Helper functions -/

def ensureNvlink (hasNvlink : Bool) (nvlinkEfficiency : Nat) : M A Unit :=
  ensure (if hasNvlink then 120 ≤ nvlinkEfficiency ∧ nvlinkEfficiency ≤ 150
    else nvlinkEfficiency = 100) .invalidNvlinkEfficiency

def isTerminal (status : TaskStatus) : Bool :=
  status = .completed || status = .failed

def decrementPoolActivity (poolId : Nat) (taskId : Nat) (s : State A) : State A :=
  { s with
    activeTaskCount := s.activeTaskCount.insert poolId (s.activeTaskCount.getD poolId 0 - 1)
    poolTasks := s.poolTasks.insert poolId
      ((s.poolTasks.getD poolId []).filter fun id => id ≠ taskId) }

def ReputationInfo.update (success : Bool) (rep : ReputationInfo) : ReputationInfo :=
  let rep := { rep with totalTasks := saturatingAdd u32Max rep.totalTasks 1 }
  if success then
    { rep with
      successfulTasks := saturatingAdd u32Max rep.successfulTasks 1
      reputation := min (saturatingAdd u32Max rep.reputation 1) 100 }
  else
    { rep with
      failedTasks := saturatingAdd u32Max rep.failedTasks 1
      reputation := rep.reputation - 2 }

def ComputePool.count (success : Bool) (pool : ComputePool A) : ComputePool A :=
  let totalTasks := saturatingAdd u32Max pool.totalTasks 1
  let completedTasks :=
    if success then saturatingAdd u32Max pool.completedTasks 1 else pool.completedTasks
  let failedTasks := if success then pool.failedTasks else saturatingAdd u32Max pool.failedTasks 1
  { pool with
    totalTasks, completedTasks, failedTasks
    successRate :=
      if totalTasks > 0 then min (saturatingMul u32Max completedTasks 100 / totalTasks) 100
      else pool.successRate
    reputation :=
      if success then min (saturatingAdd u32Max pool.reputation 1) 100 else pool.reputation - 2 }

def updateReputation (poolId : Nat) (success : Bool) (s : State A) : State A :=
  match s.pools.get poolId with
  | some pool =>
    { s.insertPool poolId (pool.count success) with
      minerReputation := s.minerReputation.insert pool.owner
        ((s.minerReputation.getD pool.owner {}).update success) }
  | none => s

def releaseEscrow (taskId : Nat) (s : State A) : State A :=
  let s := s.removeReward taskId
  match s.taskEscrowStore.get taskId with
  | some escrow =>
    let total := saturatingAdd u128Max escrow.rewardAmount escrow.taskDeposit
    (s.returnEscrow taskId escrow).setBalances (s.balances.unreserve escrow.user total).1
  | none => s

def slashPool (cfg : Config) (poolId : Nat) : M A Unit := do
  let s ← get
  let pool ← okOr (s.pools.get poolId) .poolNotFound
  if pool.depositHeld = 0 then
    pure ()
  else
    let slashAmount :=
      if pool.depositHeld > cfg.failureSlash then cfg.failureSlash else pool.depositHeld
    let slashed := s.balances.slashReserved pool.owner slashAmount
    let actualSlashed := slashAmount - slashed.2
    set ((s.setBalances slashed.1).insertPool poolId
      { pool with depositHeld := pool.depositHeld - actualSlashed })

def calculateReward (dimensions : TaskDimensions) (pricePerTask : Nat) (hasNvlink : Bool)
    (nvlinkEfficiency : Nat) : Option Nat := do
  let mn ← checkedMul u128Max dimensions.m dimensions.n
  let complexity ← checkedMul u128Max mn dimensions.k
  let complexityFactor := max 1 (complexity / 1000000)
  let reward ← checkedMul u128Max pricePerTask complexityFactor
  if hasNvlink then
    let scaled ← checkedMul u128Max reward nvlinkEfficiency
    pure (scaled / 100)
  else
    pure reward

def calculatePoolScore (pool : ComputePool A) (minPrice maxPrice : Nat) : PoolScore :=
  let reputationScore := min pool.reputation 100
  let successRateScore := min pool.successRate 100
  let normalizedPriceScore :=
    if maxPrice = minPrice then 100
    else
      let spread := maxPrice - minPrice
      let delta := pool.pricePerTask - minPrice
      (100 - saturatingMul u128Max delta 100 / spread) % 2 ^ 32
  let nvlinkScore :=
    if pool.hasNvlink then saturatingMul u32Max (min pool.nvlinkEfficiency 150) 100 / 150 else 0
  let reputationComponent := saturatingMul u32Max reputationScore 40
  let successComponent := saturatingMul u32Max successRateScore 30
  let priceComponent := saturatingMul u32Max normalizedPriceScore 20
  let nvlinkComponent := saturatingMul u32Max nvlinkScore 10
  { reputationScore := reputationComponent
    successRateScore := successComponent
    priceScore := priceComponent
    nvlinkScore := nvlinkComponent
    finalScore := saturatingAdd u32Max
      (saturatingAdd u32Max (saturatingAdd u32Max reputationComponent successComponent)
        priceComponent) nvlinkComponent }

/-- The pools a task may go to, among the first fifty entries. -/
def candidatePools (cfg : Config) (s : State A) (poolsIter : List (Nat × ComputePool A))
    (k : Nat) : List (Nat × ComputePool A) :=
  (poolsIter.take 50).filter fun (poolId, pool) =>
    pool.status = .active && s.activeTaskCount.getD poolId 0 < cfg.maxTasksPerPool &&
      k ≤ pool.gpuMemory

/-- The candidate with the highest score, the earliest one where scores tie. -/
def bestPool (minPrice maxPrice : Nat) (candidates : List (Nat × ComputePool A)) :
    Option (Nat × PoolScore) :=
  candidates.foldl (fun best (poolId, pool) =>
    let score := calculatePoolScore pool minPrice maxPrice
    match best with
    | some (id, current) =>
      if score.finalScore ≤ current.finalScore then some (id, current) else some (poolId, score)
    | none => some (poolId, score)) none

def selectBestPoolForTask (cfg : Config) (poolsIter : List (Nat × ComputePool A))
    (task : ComputeTask A) : M A (Nat × PoolScore) := do
  let s ← get
  let candidates := candidatePools cfg s poolsIter task.dimensions.k
  ensure (candidates ≠ []) .noAvailablePool
  let minPrice := candidates.foldl (fun p c => min p c.2.pricePerTask) u128Max
  let maxPrice := candidates.foldl (fun p c => max p c.2.pricePerTask) 0
  let selected ← okOr (bestPool minPrice maxPrice candidates) .noAvailablePool
  modify (mutatePool selected.1 fun pool => { pool with score := selected.2 })
  pure selected

/-- Shared by `verify_proof` and the automatic approval of the hook. The handler that is told
about a completed task belongs to another pallet and its result is ignored. -/
def finalizeVerification (cfg : Config) (taskId : Nat) (poolId : Nat) (result : Bool) :
    M A Unit := do
  let s ← get
  let _proofHash ← okOr ((s.tasks.get taskId).bind (·.proofHash)) .proofNotSubmitted
  tryMutateTask taskId fun t => { t with status := .verifying }
  tryMutateTask taskId fun t =>
    { t with
      verificationResult := some result
      status := if result then .completed else .failed }
  modify (decrementPoolActivity poolId taskId)
  modify (updateReputation poolId result)
  modify fun s => s.removeProofSubmittedAt taskId
  if result then
    let s ← get
    whenSome ((s.tasks.get taskId).bind (·.rewardAmount)) fun amount =>
      modify fun s => s.insertReward taskId amount
    let s ← get
    let finalTask ← okOr (s.tasks.get taskId) .taskNotFound
    let _pool ← okOr (s.pools.get finalTask.poolId) .poolNotFound
    pure ()
  else
    modify (releaseEscrow taskId)
    slashPool cfg poolId

def markTaskFailed (cfg : Config) (taskId : Nat) : M A Unit := do
  let s ← get
  let task ← okOr (s.tasks.get taskId) .taskNotFound
  if isTerminal task.status then
    pure ()
  else
    tryMutateTask taskId fun t => { t with status := .failed, verificationResult := some false }
    modify (decrementPoolActivity task.poolId taskId)
    modify (updateReputation task.poolId false)
    modify fun s => s.removeProofSubmittedAt taskId
    modify (releaseEscrow taskId)
    slashPool cfg task.poolId

/-! ## Extrinsics -/

def registerPool (cfg : Config) (owner : A) (gpuModel : List UInt8) (gpuMemory : Nat)
    (hasNvlink : Bool) (nvlinkEfficiency pricePerTask : Nat) : M A Unit := do
  let s ← get
  ensure (s.poolByOwner.get owner = none) .poolAlreadyExists
  ensure (gpuMemory > 0) .invalidDimensions
  ensure (pricePerTask ≠ 0) .insufficientBalance
  ensureNvlink hasNvlink nvlinkEfficiency
  reserve owner cfg.poolDeposit
  let s ← get
  let poolId := s.nextPoolId
  let pool : ComputePool A :=
    { poolId, owner, gpuModel, gpuMemory, hasNvlink, nvlinkEfficiency, pricePerTask
      reputation := min cfg.initialReputation 100
      successRate := 100
      totalTasks := 0
      completedTasks := 0
      failedTasks := 0
      status := .active
      depositHeld := cfg.poolDeposit
      score := {} }
  set (s.addPool pool { reputation := min cfg.initialReputation 100 })
  let nextPoolId ← okOr (checkedAdd u64Max poolId 1) .arithmeticOverflow
  modify fun s => s.setNextPoolId nextPoolId

def updatePoolConfig (sender : A) (poolId : Nat) (gpuModel : List UInt8)
    (gpuMemory : Nat) (hasNvlink : Bool) (nvlinkEfficiency pricePerTask : Nat) : M A Unit := do
  ensure (gpuMemory > 0) .invalidDimensions
  ensure (pricePerTask ≠ 0) .insufficientBalance
  ensureNvlink hasNvlink nvlinkEfficiency
  let s ← get
  let pool ← okOr (s.pools.get poolId) .poolNotFound
  ensure (pool.owner = sender) .notPoolOwner
  ensure (pool.status = .active ∨ pool.status = .inactive) .poolInactive
  set (s.insertPool poolId
    { pool with gpuModel, gpuMemory, hasNvlink, nvlinkEfficiency, pricePerTask })

def deregisterPool (sender : A) (poolId : Nat) : M A Unit := do
  let s ← get
  let pool ← okOr (s.pools.get poolId) .poolNotFound
  ensure (pool.owner = sender) .notPoolOwner
  ensure (s.activeTaskCount.getD poolId 0 = 0) .activeTasksExist
  set (s.removePool poolId pool.owner)
  unreserve pool.owner pool.depositHeld

/-- The pool a task goes to: the one its user prefers, or the best one. -/
def choosePool (cfg : Config) (poolsIter : List (Nat × ComputePool A)) (task : ComputeTask A)
    (preferredPoolId : Option Nat) : M A (Nat × PoolScore) :=
  match preferredPoolId with
  | some poolId => do
    let s ← get
    let pool ← okOr (s.pools.get poolId) .poolNotFound
    ensure (pool.status = .active) .poolInactive
    ensure (s.activeTaskCount.getD poolId 0 < cfg.maxTasksPerPool) .tooManyActiveTasks
    ensure (task.dimensions.k ≤ pool.gpuMemory) .noAvailablePool
    let score := calculatePoolScore pool pool.pricePerTask pool.pricePerTask
    modify (mutatePool poolId fun pool => { pool with score })
    pure (poolId, score)
  | none => selectBestPoolForTask cfg poolsIter task

def submitTask (cfg : Config) (user : A) (dimensions : TaskDimensions) (priority : TaskPriority)
    (preferredPoolId : Option Nat) (poolsIter : List (Nat × ComputePool A)) : M A Unit := do
  ensure (dimensions.m > 0 ∧ dimensions.n > 0 ∧ dimensions.k > 0) .invalidDimensions
  let s ← get
  let taskId := s.nextTaskId
  let task : ComputeTask A :=
    { taskId, user, dimensions, priority
      poolId := 0
      status := .pending
      submittedAt := s.now
      proofHash := none
      verificationResult := none
      rewardAmount := none
      disputed := false }
  set (s.insertTask taskId task)
  let (poolId, _score) ← choosePool cfg poolsIter task preferredPoolId
  let s ← get
  let pool ← okOr (s.pools.get poolId) .poolNotFound
  ensure (s.activeTaskCount.getD poolId 0 < cfg.maxTasksPerPool) .tooManyActiveTasks
  let reward ← okOr
    (calculateReward task.dimensions pool.pricePerTask pool.hasNvlink pool.nvlinkEfficiency)
    .arithmetic
  let totalReserved := saturatingAdd u128Max reward cfg.taskDeposit
  reserve user totalReserved
  tryMutateTask taskId fun t => { t with poolId, status := .assigned, rewardAmount := some reward }
  tryMutateTask taskId fun t => { t with status := .computing }
  let s ← get
  ensure ((s.poolTasks.getD poolId []).length < cfg.maxTasksPerPool) .tooManyActiveTasks
  let escrow : TaskEscrow A :=
    { user
      poolOwner := pool.owner
      rewardAmount := reward
      taskDeposit := cfg.taskDeposit
      claimed := false }
  set ((s.addActivity poolId taskId).lockEscrow taskId escrow)
  let nextTaskId ← okOr (checkedAdd u64Max taskId 1) .arithmeticOverflow
  modify fun s => s.setNextTaskId nextTaskId

def submitProof (cfg : Config) (sender : A) (taskId : Nat) (proofHash : Hash) :
    M A Unit := do
  ensure (proofHash ≠ 0) .invalidProof
  let s ← get
  let task ← okOr (s.tasks.get taskId) .taskNotFound
  ensure (task.status = .computing) .invalidTaskState
  let pool ← okOr (s.pools.get task.poolId) .poolNotFound
  ensure (pool.owner = sender) .notAssignedPoolOwner
  ensure (s.now ≤ saturatingAdd u32Max task.submittedAt cfg.taskTimeout) .taskExpired
  tryMutateTask taskId fun t => { t with proofHash := some proofHash, status := .proofSubmitted }
  modify fun s => s.insertProofSubmittedAt taskId s.now

def verifyProof (cfg : Config) (sender : A) (taskId : Nat) (result : Bool) : M A Unit := do
  let s ← get
  let task ← okOr (s.tasks.get taskId) .taskNotFound
  ensure (task.status = .proofSubmitted) .invalidTaskState
  ensure (task.proofHash ≠ none) .proofNotSubmitted
  let pool ← okOr (s.pools.get task.poolId) .poolNotFound
  ensure (pool.owner ≠ sender) .selfVerificationNotAllowed
  finalizeVerification cfg taskId task.poolId result

def claimReward (sender : A) (taskId : Nat) : M A Unit := do
  let s ← get
  let task ← okOr (s.tasks.get taskId) .taskNotFound
  ensure (task.status = .completed) .invalidTaskState
  ensure (task.verificationResult = some true) .rewardNotAvailable
  let pool ← okOr (s.pools.get task.poolId) .poolNotFound
  ensure (pool.owner = sender) .notAssignedPoolOwner
  let reward ← okOr (s.rewards.get taskId) .rewardNotAvailable
  let escrow ← okOr (s.taskEscrowStore.get taskId) .rewardNotAvailable
  ensure (escrow.claimed = false) .rewardAlreadyClaimed
  let moved ← okOr (s.balances.repatriateReserved escrow.user sender reward) .insufficientBalance
  ensure (moved.2 = 0) .insufficientBalance
  set ((s.claimEscrow taskId escrow sender reward).setBalances
    (moved.1.unreserve escrow.user escrow.taskDeposit).1)
  modify fun s => s.removeReward taskId

def disputeVerification (cfg : Config) (sender : A) (taskId : Nat) : M A Unit := do
  let s ← get
  let task ← okOr (s.tasks.get taskId) .taskNotFound
  ensure (task.user = sender) .notTaskUser
  ensure (task.status = .completed ∨ task.status = .failed) .disputeNotAllowed
  ensure (task.disputed = false) .disputeAlreadyFiled
  if task.verificationResult = some true then
    tryMutateTask taskId fun t =>
      { t with status := .failed, verificationResult := some false, disputed := true }
    modify (updateReputation task.poolId false)
    modify (releaseEscrow taskId)
    slashPool cfg task.poolId
  else if task.verificationResult = some false then
    tryMutateTask taskId fun t =>
      { t with status := .completed, verificationResult := some true, disputed := true }
    whenSome task.rewardAmount fun amount => modify fun s => s.insertReward taskId amount
    modify (updateReputation task.poolId true)
  else
    throw .disputeNotAllowed

def stakeToPool (who : A) (poolId : Nat) (amount : Nat) : M A Unit := do
  let s ← get
  ensure (s.pools.contains poolId) .poolNotFound
  reserve who amount
  modify fun s =>
    s.setStake poolId who (saturatingAdd u128Max (s.poolStakes.getD (poolId, who) 0) amount)
      (saturatingAdd u128Max (s.totalPoolStake.getD poolId 0) amount)

def unstakeFromPool (who : A) (poolId : Nat) (amount : Nat) : M A Unit := do
  let s ← get
  let currentStake := s.poolStakes.getD (poolId, who) 0
  ensure (amount ≤ currentStake) .stakeNotFound
  unreserve who amount
  modify fun s =>
    s.setStake poolId who (s.poolStakes.getD (poolId, who) 0 - amount)
      (s.totalPoolStake.getD poolId 0 - amount)

/-! ## The block hook -/

inductive Overdue
  | autoVerify
  | expired
deriving DecidableEq

/-- Whether a task waited too long for its verification or for its result. -/
def overdue (cfg : Config) (now : Nat) (s : State A) (taskId : Nat) : Option Overdue := do
  let task ← s.tasks.get taskId
  if isTerminal task.status then none
  else if task.status = .proofSubmitted ∧
      ∃ proofAt ∈ s.proofSubmittedAt.get taskId,
        saturatingAdd u32Max proofAt cfg.verificationTimeout < now then
    some .autoVerify
  else if saturatingAdd u32Max task.submittedAt cfg.taskTimeout < now then some .expired
  else none

/-- The hook at the start of block `now`. The two lists are collected first, from the entries of
`PoolTasks` in the order in which they are walked. -/
def onInitialize (cfg : Config) (poolTasksIter : List (Nat × List Nat)) (now : Nat) :
    M A Unit := do
  let s ← get
  let active := poolTasksIter.flatMap (·.2)
  let autoVerify := active.filter fun id => overdue cfg now s id = some .autoVerify
  let expired := active.filter fun id => overdue cfg now s id = some .expired
  forEach autoVerify fun taskId => do
    let s ← get
    whenSome (s.tasks.get taskId) fun task =>
      ignore (finalizeVerification cfg taskId task.poolId true)
  forEach expired fun taskId => ignore (markTaskFailed cfg taskId)

end DeepBrainChain.ComputePoolScheduler
