import DeepBrainChain.Lib.Call
import DeepBrainChain.Support.Machine
import DeepBrainChain.Lib.Escrow
import DeepBrainChain.Lib.System

/-!
# The task-mode pallet

An administrator publishes a task with its prices. A customer orders it: the charge, in DBC at the
price of the oracle, is split into the treasury's and the miner's share and reserved. The miner
reports completion; then the order is settled out of the reserve. An order that is not completed
in time is cancelled, and the charge goes back to the customer.
-/

namespace DeepBrainChain.TaskMode

open Lib Support Lib.Call

inductive TaskOrderStatus
  | pending
  | inProgress
  | completed
  | settled
deriving DecidableEq

structure TaskDefinition (A : Type) where
  modelId : Bytes
  version : Bytes
  admin : A
  inputPriceUsdPer1k : Nat
  outputPriceUsdPer1k : Nat
  maxTokensPerRequest : Nat
  policyCid : Bytes
  isActive : Bool

structure TaskOrder (A : Type) where
  orderId : Nat
  taskId : Nat
  customer : A
  miner : A
  inputTokens : Nat
  outputTokens : Nat
  dbcPriceSnapshot : Nat
  totalDbcCharged : Nat
  dbcBurned : Nat
  minerPayout : Nat
  createdAt : Nat
  status : TaskOrderStatus
  attestationHash : Option (BitVec 256)

structure EraTaskStats where
  totalCharged : Nat
  totalBurned : Nat
  totalMinerPayout : Nat
  completedOrders : Nat

structure Config (A : Type) where
  treasuryAccount : A
  burnPercentage : Percent
  minerPayoutPercentage : Percent
  eraDuration : Nat
  maxModelIdLen : Nat
  maxPolicyCidLen : Nat
  orderTimeout : Nat

/-- What the price provider answers at present. An amount is a `u128`. -/
structure Oracle where
  dbcPrice : Option Nat
  dbcAmountByValue : Nat → Option Nat
  bounded : ∀ value amount, dbcAmountByValue value = some amount → amount ≤ u128Max

structure State (A : Type) where
  now : Nat
  balances : Balances A
  oracle : Oracle
  nextTaskId : Nat
  nextOrderId : Nat
  taskDefinitions : StorageMap Nat (TaskDefinition A)
  taskOrders : StorageMap Nat (TaskOrder A)
  eraStats : StorageMap Nat EraTaskStats
  minerTaskStats : StorageMap (Nat × A) (Nat × Nat)

inductive Error
  | taskDefinitionNotFound
  | taskDefinitionInactive
  | taskOrderNotFound
  | invalidOrderStatus
  | tokenCountExceedsLimit
  | insufficientBalance
  | priceOracleUnavailable
  | arithmeticOverflow
  | notAuthorized
  | orderNotExpired

variable {A : Type} [DecidableEq A]

omit [DecidableEq A] in
def State.fresh (now : Nat) (balances : Balances A) (oracle : Oracle) : State A :=
  ⟨now, balances, oracle, 0, 0, ∅, ∅, ∅, ∅⟩

namespace State

section

omit [DecidableEq A]

def setBalances (s : State A) (b : Balances A) : State A := { s with balances := b }

def putOrder (s : State A) (id : Nat) (o : TaskOrder A) : State A :=
  { s with taskOrders := s.taskOrders.insert id o }

end

end State

/-! ## Amounts -/

def calculateOrderUsdValue (inputTokens outputTokens inputPrice outputPrice : Nat) :
    Option Nat := do
  let inputPart ← checkedMul u128Max inputTokens inputPrice
  let outputPart ← checkedMul u128Max outputTokens outputPrice
  let total ← checkedAdd u128Max (inputPart / 1000) (outputPart / 1000)
  if total ≤ u64Max then some total else none

section

omit [DecidableEq A]

/-- `calculate_revenue_split`: the treasury's share and the miner's, which is the rest. The
miner's percentage is only compared with the whole. -/
def Config.calculateRevenueSplit (cfg : Config A) (total : Nat) : Option (Nat × Nat) := do
  let burned := cfg.burnPercentage.mul total
  let charged ← checkedAdd u128Max burned (cfg.minerPayoutPercentage.mul total)
  if charged ≤ total then
    let payout ← checkedSub total burned
    some (burned, payout)
  else none

def Config.blockToEra (cfg : Config A) (block : Nat) : Nat :=
  if cfg.eraDuration = 0 then 0 else min (block / cfg.eraDuration) u32Max

end

/-- `split_era_rewards`: the pool of the task mode and the rental pool, which is the rest. -/
def splitEraRewards (taskModeRewardPercentage : Percent) (total : Nat) : Option (Nat × Nat) := do
  let pool := taskModeRewardPercentage.mul total
  let rental ← checkedSub total pool
  some (pool, rental)

/-! ## Tasks -/

omit [DecidableEq A] in
def createTaskDefinition (cfg : Config A) (admin : A) (modelId version : Bytes)
    (inputPrice outputPrice maxTokens : Nat) (policyCid : Bytes) : Call (State A) Error Unit := do
  ensure (modelId.length ≤ cfg.maxModelIdLen) .arithmeticOverflow
  ensure (version.length ≤ cfg.maxModelIdLen) .arithmeticOverflow
  ensure (policyCid.length ≤ cfg.maxPolicyCidLen) .arithmeticOverflow
  let s ← get
  ensure (s.nextTaskId < u64Max) .arithmeticOverflow
  set { s with
    nextTaskId := s.nextTaskId + 1
    taskDefinitions := s.taskDefinitions.insert s.nextTaskId
      ⟨modelId, version, admin, inputPrice, outputPrice, maxTokens, policyCid, true⟩ }

/-- `update_task_definition`: only what is given is replaced. -/
def updateTaskDefinition (who : A) (taskId : Nat) (inputPrice outputPrice maxTokens : Option Nat)
    (isActive : Option Bool) : Call (State A) Error Unit := do
  let s ← get
  let d ← okOr (s.taskDefinitions.get taskId) .taskDefinitionNotFound
  ensure (d.admin = who) .notAuthorized
  set { s with
    taskDefinitions := s.taskDefinitions.insert taskId { d with
      inputPriceUsdPer1k := inputPrice.getD d.inputPriceUsdPer1k
      outputPriceUsdPer1k := outputPrice.getD d.outputPriceUsdPer1k
      maxTokensPerRequest := maxTokens.getD d.maxTokensPerRequest
      isActive := isActive.getD d.isActive } }

/-! ## Orders -/

omit [DecidableEq A] in
/-- The writes of `create_task_order`. The order is filed as pending and set to work on at once. -/
def State.openOrder (s : State A) (b : Balances A) (o : TaskOrder A) : State A :=
  { s with
    balances := b
    nextOrderId := s.nextOrderId + 1
    taskOrders := (s.taskOrders.insert s.nextOrderId o).insert s.nextOrderId
      { o with status := .inProgress } }

def createTaskOrder (cfg : Config A) (customer : A) (taskId : Nat) (miner : A)
    (inputTokens outputTokens : Nat) : Call (State A) Error Unit := do
  let s ← get
  let task ← okOr (s.taskDefinitions.get taskId) .taskDefinitionNotFound
  ensure (task.isActive = true) .taskDefinitionInactive
  let tokens ← okOr (checkedAdd u64Max inputTokens outputTokens) .arithmeticOverflow
  ensure (tokens ≤ task.maxTokensPerRequest) .tokenCountExceedsLimit
  let price ← okOr s.oracle.dbcPrice .priceOracleUnavailable
  let usd ← okOr (calculateOrderUsdValue inputTokens outputTokens task.inputPriceUsdPer1k
    task.outputPriceUsdPer1k) .arithmeticOverflow
  let total ← okOr (s.oracle.dbcAmountByValue usd) .priceOracleUnavailable
  let split ← okOr (cfg.calculateRevenueSplit total) .arithmeticOverflow
  let b ← okOr (s.balances.reserve customer total) .insufficientBalance
  ensure (s.nextOrderId < u64Max) .arithmeticOverflow
  set (s.openOrder b
    { orderId := s.nextOrderId
      taskId := taskId
      customer := customer
      miner := miner
      inputTokens := inputTokens
      outputTokens := outputTokens
      dbcPriceSnapshot := price
      totalDbcCharged := total
      dbcBurned := split.1
      minerPayout := split.2
      createdAt := s.now
      status := .pending
      attestationHash := none })

def markOrderCompleted (who : A) (id : Nat) (hash : BitVec 256) : Call (State A) Error Unit := do
  let s ← get
  let o ← okOr (s.taskOrders.get id) .taskOrderNotFound
  ensure (who = o.miner) .notAuthorized
  ensure (o.status = .inProgress) .invalidOrderStatus
  set (s.putOrder id { o with status := .completed, attestationHash := some hash })

omit [DecidableEq A] in
/-- An order after `settle_task_order`: a hash that is given replaces the one on file. -/
def TaskOrder.settle (o : TaskOrder A) (hash : Option (BitVec 256)) : TaskOrder A :=
  { o with
    status := .settled
    attestationHash := hash.or o.attestationHash }

/-- The statistics of the era in which a settled order was created. -/
def State.countSettled (s : State A) (era : Nat) (o : TaskOrder A) : State A :=
  let e := s.eraStats.getD era ⟨0, 0, 0, 0⟩
  let m := s.minerTaskStats.getD (era, o.miner) (0, 0)
  { s with
    eraStats := s.eraStats.insert era
      { totalCharged := saturatingAdd u128Max e.totalCharged o.totalDbcCharged
        totalBurned := saturatingAdd u128Max e.totalBurned o.dbcBurned
        totalMinerPayout := saturatingAdd u128Max e.totalMinerPayout o.minerPayout
        completedOrders := saturatingAdd u64Max e.completedOrders 1 }
    minerTaskStats := s.minerTaskStats.insert (era, o.miner)
      (saturatingAdd u128Max m.1 o.minerPayout, saturatingAdd u64Max m.2 1) }

omit [DecidableEq A] in
def State.era (s : State A) (era : Nat) : EraTaskStats := s.eraStats.getD era ⟨0, 0, 0, 0⟩

def State.minerRewardShare (s : State A) (taskModeRewardPercentage : Percent) (era : Nat)
    (miner : A) (total : Nat) : Option Nat := do
  let pools ← splitEraRewards taskModeRewardPercentage total
  if (s.era era).totalMinerPayout = 0 then none
  else
    let m := s.minerTaskStats.getD (era, miner) (0, 0)
    if m.1 = 0 then none
    else
      let product ← checkedMul u128Max pools.1 m.1
      some (product / (s.era era).totalMinerPayout)

/-- `settle_task_order`. What a repatriation leaves in the reserve is not looked at. -/
def settleTaskOrder (cfg : Config A) (caller : A) (id : Nat) (hash : Option (BitVec 256)) :
    Call (State A) Error Unit := do
  let s ← get
  let o ← okOr (s.taskOrders.get id) .taskOrderNotFound
  ensure (o.status = .completed) .invalidOrderStatus
  let task ← okOr (s.taskDefinitions.get o.taskId) .taskDefinitionNotFound
  ensure (caller = o.customer ∨ caller = o.miner ∨ caller = task.admin) .notAuthorized
  let r ← okOr (s.balances.repatriateReserved o.customer cfg.treasuryAccount o.dbcBurned)
    .insufficientBalance
  let r' ← okOr (r.1.repatriateReserved o.customer o.miner o.minerPayout)
    .insufficientBalance
  set (((s.setBalances r'.1).putOrder id (o.settle hash)).countSettled
    (cfg.blockToEra o.createdAt) o)

/-- `cancel_expired_order`, open to every account. -/
def cancelExpiredOrder (cfg : Config A) (id : Nat) : Call (State A) Error Unit := do
  let s ← get
  let o ← okOr (s.taskOrders.get id) .taskOrderNotFound
  ensure (o.status = .pending ∨ o.status = .inProgress) .invalidOrderStatus
  let deadline ← okOr (checkedAdd u32Max o.createdAt cfg.orderTimeout) .arithmeticOverflow
  ensure (deadline < s.now) .orderNotExpired
  set ((s.setBalances (s.balances.unreserve o.customer o.totalDbcCharged).1).putOrder id
    { o with status := .settled })

/-! # Runs of task-mode

Any sequence of extrinsics, blocks, price changes and foreign transfers that leave the reserves
alone. The orders are an escrow table: what a customer has in reserve is what the orders that are
not settled add up to. The log of a run holds the identifiers of the orders that were settled or
cancelled. -/

open StorageMap Balances List Option

variable {A : Type} [DecidableEq A]

def TaskOrderStatus.isOpen : TaskOrderStatus → Bool
  | pending | inProgress | completed => true
  | settled => false

/-- An open order holds its whole charge. -/
def orderTerms : Terms A (TaskOrder A) where
  owner := TaskOrder.customer
  due o := if o.status.isOpen then o.totalDbcCharged else 0

inductive Op (A : Type)
  | createTaskDefinition (admin : A) (modelId version : Bytes)
      (inputPrice outputPrice maxTokens : Nat) (policyCid : Bytes)
  | updateTaskDefinition (who : A) (taskId : Nat) (inputPrice outputPrice maxTokens : Option Nat)
      (isActive : Option Bool)
  | createTaskOrder (customer : A) (taskId : Nat) (miner : A) (inputTokens outputTokens : Nat)
  | markOrderCompleted (who : A) (id : Nat) (hash : BitVec 256)
  | settleTaskOrder (caller : A) (id : Nat) (hash : Option (BitVec 256))
  | cancelExpiredOrder (id : Nat)
  | nextBlock
  | setOracle (oracle : Oracle)
  | external (balances : Balances A)

/-- Nobody else touches the reserves. -/
def Op.Possible (s : State A) : Op A → Prop
  | .external b => (∀ u, b.reserved u = s.balances.reserved u) ∧ b.issuance ≤ u128Max
  | _ => True

def apply (cfg : Config A) (s : State A) : Op A → State A
  | .createTaskDefinition admin modelId version inputPrice outputPrice maxTokens policyCid =>
    ((createTaskDefinition cfg admin modelId version inputPrice outputPrice maxTokens
      policyCid).dispatch s).2
  | .updateTaskDefinition who taskId inputPrice outputPrice maxTokens isActive =>
    ((updateTaskDefinition who taskId inputPrice outputPrice maxTokens isActive).dispatch s).2
  | .createTaskOrder customer taskId miner inputTokens outputTokens =>
    ((createTaskOrder cfg customer taskId miner inputTokens outputTokens).dispatch s).2
  | .markOrderCompleted who id hash => ((markOrderCompleted who id hash).dispatch s).2
  | .settleTaskOrder caller id hash => ((settleTaskOrder cfg caller id hash).dispatch s).2
  | .cancelExpiredOrder id => ((cancelExpiredOrder cfg id).dispatch s).2
  | .nextBlock => { s with now := s.now + 1 }
  | .setOracle oracle => { s with oracle := oracle }
  | .external b => s.setBalances b

def system (cfg : Config A) : System (State A) (Op A) where
  init s := ∃ now b oracle, s = State.fresh now b oracle ∧ (∀ u, b.reserved u = 0) ∧
    b.issuance ≤ u128Max
  step s op s' := op.Possible s ∧ s' = apply cfg s op

/-- The runs in which others may also touch the reserves. -/
def openSystem (cfg : Config A) : System (State A) (Op A) where
  init s := ∃ now b oracle, s = State.fresh now b oracle
  step s op s' := s' = apply cfg s op

/-- The order that an operation settles or cancels, if it succeeds. -/
def closes (cfg : Config A) (s : State A) : Op A → List Nat
  | .settleTaskOrder caller id hash =>
    if ((settleTaskOrder cfg caller id hash).run s).1.isOk then [id] else []
  | .cancelExpiredOrder id => if ((cancelExpiredOrder cfg id).run s).1.isOk then [id] else []
  | _ => []

/-- Burn and payout of an order add up to its charge. -/
def State.Split (s : State A) : Prop :=
  ∀ id o, s.taskOrders.get id = some o → o.dbcBurned + o.minerPayout = o.totalDbcCharged

/-- The open orders are the reserves, and the charge of each order is split. -/
structure Inv (s : State A) : Prop where
  backed : orderTerms.Backed s.nextOrderId s.taskOrders s.balances
  split : s.Split

def Closed (s : State A) (id : Nat) : Prop :=
  ∃ o, s.taskOrders.get id = some o ∧ o.status = .settled

/-! ## The split -/

section Split

variable {cfg : Config A} {total burned payout : Nat}

section

omit [DecidableEq A]

theorem calculateRevenueSplit_eq_some
    (h : cfg.calculateRevenueSplit total = some (burned, payout)) :
    burned + payout = total := by
  unfold Config.calculateRevenueSplit at h
  simp only [bind_eq_bind, bind_eq_some_iff] at h
  obtain ⟨charged, -, h⟩ := h
  split at h
  · simp only [bind_eq_some_iff, checkedSub_eq_some, some.injEq, Prod.mk.injEq] at h
    obtain ⟨_, ⟨hle, rfl⟩, rfl, rfl⟩ := h
    exact Nat.add_sub_cancel' hle
  · cases h

theorem calculateRevenueSplit_isSome
    (h : cfg.burnPercentage.parts + cfg.minerPayoutPercentage.parts ≤ 100) (ht : total ≤ u128Max) :
    cfg.calculateRevenueSplit total =
      some (cfg.burnPercentage.mul total, total - cfg.burnPercentage.mul total) := by
  have hsum := Percent.mul_add_mul_le h total
  have hadd : checkedAdd u128Max (cfg.burnPercentage.mul total)
      (cfg.minerPayoutPercentage.mul total) =
        some (cfg.burnPercentage.mul total + cfg.minerPayoutPercentage.mul total) :=
    checkedAdd_eq_some.2 ⟨hsum.trans ht, rfl⟩
  have hsub : checkedSub total (cfg.burnPercentage.mul total) =
      some (total - cfg.burnPercentage.mul total) :=
    checkedSub_eq_some.2 ⟨cfg.burnPercentage.mul_le total, rfl⟩
  unfold Config.calculateRevenueSplit
  simp only [bind_eq_bind, hadd, hsub, bind_some, if_pos hsum]

end

end Split

/-! ## Calls -/

section Calls

variable {cfg : Config A} {s s' : State A} {caller who customer miner : A} {id taskId : Nat}
  {inputTokens outputTokens : Nat} {u : Unit}

theorem createTaskOrder_ok
    (h : (createTaskOrder cfg customer taskId miner inputTokens outputTokens).run s = (.ok u, s')) :
    ∃ o b, s.balances.reserve o.customer o.totalDbcCharged = some b ∧ o.status = .pending ∧
      o.dbcBurned + o.minerPayout = o.totalDbcCharged ∧ s' = s.openOrder b o := by
  unfold createTaskOrder at h
  simp only [run_ok] at h
  obtain ⟨task, -, -, tokens, -, -, price, -, usd, -, total, -, split, hsplit, b, hb, -, rfl⟩ := h
  exact ⟨_, b, hb, rfl, calculateRevenueSplit_eq_some hsplit, rfl⟩

theorem markOrderCompleted_ok {hash : BitVec 256}
    (h : (markOrderCompleted who id hash).run s = (.ok u, s')) :
    ∃ o, s.taskOrders.get id = some o ∧ o.status = .inProgress ∧
      s' = s.putOrder id { o with status := .completed, attestationHash := some hash } := by
  unfold markOrderCompleted at h
  simp only [run_ok] at h
  obtain ⟨o, ho, -, hst, rfl⟩ := h
  exact ⟨o, ho, hst, rfl⟩

theorem settleTaskOrder_ok {hash : Option (BitVec 256)}
    (h : (settleTaskOrder cfg caller id hash).run s = (.ok u, s')) :
    ∃ o b b' rest rest', s.taskOrders.get id = some o ∧ o.status = .completed ∧
      s.balances.repatriateReserved o.customer cfg.treasuryAccount o.dbcBurned = some (b, rest) ∧
      b.repatriateReserved o.customer o.miner o.minerPayout = some (b', rest') ∧
      s' = ((s.setBalances b').putOrder id (o.settle hash)).countSettled
        (cfg.blockToEra o.createdAt) o := by
  unfold settleTaskOrder at h
  simp only [run_ok] at h
  obtain ⟨o, ho, hst, task, -, -, r, hr, r', hr', rfl⟩ := h
  exact ⟨o, r.1, r'.1, r.2, r'.2, ho, hst, hr, hr', rfl⟩

theorem cancelExpiredOrder_ok (h : (cancelExpiredOrder cfg id).run s = (.ok u, s')) :
    ∃ o, s.taskOrders.get id = some o ∧ (o.status = .pending ∨ o.status = .inProgress) ∧
      s' = (s.setBalances (s.balances.unreserve o.customer o.totalDbcCharged).1).putOrder id
        { o with status := .settled } := by
  unfold cancelExpiredOrder at h
  simp only [run_ok] at h
  obtain ⟨o, ho, hst, deadline, -, -, rfl⟩ := h
  exact ⟨o, ho, hst, rfl⟩

end Calls

/-! ## Steps -/

section Steps

variable {cfg : Config A} {s s' : State A} {id : Nat} {o k : TaskOrder A}

theorem Inv.covered (h : Inv s) (ho : s.taskOrders.get id = some o)
    (hst : o.status.isOpen = true) : o.totalDbcCharged ≤ s.balances.reserved o.customer := by
  have hcov := h.backed.covered ho
  simp only [orderTerms, hst, if_true] at hcov
  exact hcov

omit [DecidableEq A] in
theorem split_insert (h : s.Split) (ho : s.taskOrders.get id = some o)
    (hk : k.dbcBurned = o.dbcBurned ∧ k.minerPayout = o.minerPayout ∧
      k.totalDbcCharged = o.totalDbcCharged) (j : Nat) (x : TaskOrder A)
    (hx : (s.taskOrders.insert id k).get j = some x) :
    x.dbcBurned + x.minerPayout = x.totalDbcCharged := by
  rw [get_insert] at hx
  split at hx
  · cases hx
    rw [hk.1, hk.2.1, hk.2.2]
    exact h id o ho
  · exact h j x hx

omit [DecidableEq A] in
theorem split_openOrder {b : Balances A} (h : s.Split)
    (hsplit : o.dbcBurned + o.minerPayout = o.totalDbcCharged) : (s.openOrder b o).Split := by
  intro j x hx
  simp only [State.openOrder, get_insert] at hx
  split at hx
  · cases hx
    exact hsplit
  · exact h j x hx

omit [DecidableEq A] in
/-- An overwritten order is closed only if it was not, and the others stay as they are. -/
theorem closed_insert (ho : s.taskOrders.get id = some o) (hopen : o.status ≠ .settled)
    (hp : s'.taskOrders = s.taskOrders.insert id k) {j : Nat} (hj : Closed s j) : Closed s' j := by
  obtain ⟨x, hx, hst⟩ := hj
  refine ⟨x, ?_, hst⟩
  rw [hp, get_insert_ne, hx]
  rintro rfl
  rw [ho] at hx
  cases hx
  exact hopen hst

variable {b : Balances A} {u : Unit} {op : Op A} {C : State A → Op A → Prop}

theorem createTaskOrder_step (h : Inv s)
    (hb : s.balances.reserve o.customer o.totalDbcCharged = some b) (hst : o.status = .pending)
    (hsplit : o.dbcBurned + o.minerPayout = o.totalDbcCharged) :
    Inv (s.openOrder b o) ∧ ∀ j, Closed s j → Closed (s.openOrder b o) j := by
  have hdue : orderTerms.due o = o.totalDbcCharged := by
    simp [orderTerms, hst, TaskOrderStatus.isOpen]
  have hopen := h.backed.openEntry o (hdue.symm ▸ hb)
  have hnone := h.backed.next_none
  refine ⟨⟨hopen.rewrite (get_insert_self ..) rfl hdue.symm, split_openOrder h.split hsplit⟩, ?_⟩
  rintro j ⟨x, hx, hset⟩
  have hj : j ≠ s.nextOrderId := by
    rintro rfl
    rw [hnone] at hx
    cases hx
  refine ⟨x, ?_, hset⟩
  simp only [State.openOrder, get_insert, if_neg hj]
  exact hx

theorem markOrderCompleted_step (h : Inv s) (ho : s.taskOrders.get id = some o)
    (hst : o.status = .inProgress) (hash : BitVec 256) :
    let s' := s.putOrder id { o with status := .completed, attestationHash := some hash }
    Inv s' ∧ ∀ j, Closed s j → Closed s' j := by
  refine ⟨⟨h.backed.rewrite ho rfl ?_, split_insert h.split ho ⟨rfl, rfl, rfl⟩⟩, fun j hj =>
    closed_insert ho (by simp [hst]) rfl hj⟩
  simp [orderTerms, hst, TaskOrderStatus.isOpen]

theorem settleTaskOrder_step {b' : Balances A} {rest rest' : Nat} (h : Inv s)
    (ho : s.taskOrders.get id = some o) (hst : o.status = .completed)
    (hr : s.balances.repatriateReserved o.customer cfg.treasuryAccount o.dbcBurned = some (b, rest))
    (hr' : b.repatriateReserved o.customer o.miner o.minerPayout = some (b', rest')) :
    s.balances.Drawn b' o.customer o.totalDbcCharged fun u =>
      (if u = cfg.treasuryAccount then o.dbcBurned else 0) +
        if u = o.miner then o.minerPayout else 0 := by
  have hsplit := h.split id o ho
  have hcov := h.covered ho (by rw [hst]; rfl)
  have hfst := repatriateReserved_drawn h.backed.issuance (by omega : o.dbcBurned ≤ _) hr
  have hleft : o.minerPayout ≤ b.reserved o.customer := by
    have hres := hfst.reserved o.customer
    rw [if_pos rfl] at hres
    omega
  have hsnd := repatriateReserved_drawn (hfst.issuance.trans h.backed.issuance) hleft hr'
  rw [← hsplit]
  exact hfst.trans hsnd

theorem Inv.close {gain : A → Nat} (h : Inv s)
    (ho : s.taskOrders.get id = some o) (hst : o.status.isOpen = true)
    (hb : s.balances.Drawn b o.customer o.totalDbcCharged gain)
    (hk : k.customer = o.customer ∧ k.dbcBurned = o.dbcBurned ∧ k.minerPayout = o.minerPayout ∧
      k.totalDbcCharged = o.totalDbcCharged) (hset : k.status = .settled)
    (hbal : s'.balances = b) (hn : s'.nextOrderId = s.nextOrderId)
    (hp : s'.taskOrders = s.taskOrders.insert id k) : Inv s' := by
  refine ⟨?_, ?_⟩
  · rw [hbal, hn, hp]
    refine h.backed.draw ho hk.1 ?_ hb
    simp only [orderTerms, hst, hset, if_true]
    exact Nat.zero_add _
  · intro j x hx
    rw [hp] at hx
    exact split_insert h.split ho hk.2 j x hx

theorem cancelExpiredOrder_step (h : Inv s) (ho : s.taskOrders.get id = some o)
    (hst : o.status.isOpen = true) :
    s.balances.Drawn (s.balances.unreserve o.customer o.totalDbcCharged).1 o.customer
      o.totalDbcCharged fun u => if u = o.customer then o.totalDbcCharged else 0 :=
  unreserve_drawn h.backed.issuance (h.covered ho hst)

/-- What a call does holds of the state after it, since a failed call changes nothing. -/
theorem dispatch_step {ε α : Type} {c : Call (State A) ε α} (h : Inv s)
    (hc : ∀ a t, c.run s = (.ok a, t) → Inv t ∧ ∀ j, Closed s j → Closed t j) :
    Inv (c.dispatch s).2 ∧ ∀ j, Closed s j → Closed (c.dispatch s).2 j :=
  dispatch_keeps (I := fun t => Inv t ∧ ∀ j, Closed s j → Closed t j) ⟨h, fun _ hj => hj⟩ hc

omit [DecidableEq A] in
theorem TaskOrderStatus.isOpen_ne {x : TaskOrderStatus} (h : x.isOpen = true) : x ≠ .settled := by
  rintro rfl
  cases h

theorem settleTaskOrder_closes {hash : Option (BitVec 256)} {caller : A} (h : Inv s)
    (hr : (settleTaskOrder cfg caller id hash).run s = (.ok u, s')) :
    (Inv s' ∧ ∀ j, Closed s j → Closed s' j) ∧ ¬ Closed s id ∧ Closed s' id := by
  obtain ⟨o, b, b', rest, rest', ho, hst, hb, hb', rfl⟩ := settleTaskOrder_ok hr
  have hopen : o.status.isOpen = true := by
    rw [hst]
    rfl
  have hne := TaskOrderStatus.isOpen_ne hopen
  refine ⟨⟨h.close (k := o.settle hash) ho hopen (settleTaskOrder_step h ho hst hb hb')
    ⟨rfl, rfl, rfl, rfl⟩ rfl rfl rfl rfl, fun j hj => closed_insert ho hne rfl hj⟩, ?_,
    o.settle hash, get_insert_self .., rfl⟩
  rintro ⟨x, hx, hset⟩
  rw [ho] at hx
  cases hx
  exact hne hset

theorem cancelExpiredOrder_closes (h : Inv s)
    (hr : (cancelExpiredOrder cfg id).run s = (.ok u, s')) :
    (Inv s' ∧ ∀ j, Closed s j → Closed s' j) ∧ ¬ Closed s id ∧ Closed s' id := by
  obtain ⟨o, ho, hst, rfl⟩ := cancelExpiredOrder_ok hr
  have hopen : o.status.isOpen = true := by
    rcases hst with hst | hst <;> rw [hst] <;> rfl
  have hne := TaskOrderStatus.isOpen_ne hopen
  refine ⟨⟨h.close (k := { o with status := .settled }) ho hopen
    (cancelExpiredOrder_step h ho hopen) ⟨rfl, rfl, rfl, rfl⟩ rfl rfl rfl rfl,
    fun j hj => closed_insert ho hne rfl hj⟩, ?_, _, get_insert_self .., rfl⟩
  rintro ⟨x, hx, hset⟩
  rw [ho] at hx
  cases hx
  exact hne hset

theorem apply_step (h : Inv s) (hpos : op.Possible s) :
    Inv (apply cfg s op) ∧ ∀ j, Closed s j → Closed (apply cfg s op) j := by
  cases op with
  | createTaskDefinition admin modelId version inputPrice outputPrice maxTokens policyCid =>
    refine dispatch_step h fun _ t hr => ?_
    unfold createTaskDefinition at hr
    simp only [run_ok] at hr
    obtain ⟨-, -, -, -, rfl⟩ := hr
    exact ⟨⟨h.backed, h.split⟩, fun _ hj => hj⟩
  | updateTaskDefinition who taskId inputPrice outputPrice maxTokens isActive =>
    refine dispatch_step h fun _ t hr => ?_
    unfold updateTaskDefinition at hr
    simp only [run_ok] at hr
    obtain ⟨d, -, -, rfl⟩ := hr
    exact ⟨⟨h.backed, h.split⟩, fun _ hj => hj⟩
  | createTaskOrder customer taskId miner inputTokens outputTokens =>
    refine dispatch_step h fun _ t hr => ?_
    obtain ⟨o, b, hb, hst, hsplit, rfl⟩ := createTaskOrder_ok hr
    exact createTaskOrder_step h hb hst hsplit
  | markOrderCompleted who id hash =>
    refine dispatch_step h fun _ t hr => ?_
    obtain ⟨o, ho, hst, rfl⟩ := markOrderCompleted_ok hr
    exact markOrderCompleted_step h ho hst hash
  | settleTaskOrder caller id hash =>
    exact dispatch_step h fun _ t hr => (settleTaskOrder_closes h hr).1
  | cancelExpiredOrder id =>
    exact dispatch_step h fun _ t hr => (cancelExpiredOrder_closes h hr).1
  | nextBlock => exact ⟨⟨h.backed, h.split⟩, fun _ hj => hj⟩
  | setOracle oracle => exact ⟨⟨h.backed, h.split⟩, fun _ hj => hj⟩
  | external b =>
    exact ⟨⟨h.backed.setBalances hpos.1 hpos.2, h.split⟩, fun _ hj => hj⟩

theorem reach_inv (hs : (system cfg).Reach C s) : Inv s := by
  refine hs.invariant (I := Inv) ?_ ?_
  · rintro _ ⟨now, b, oracle, rfl, hres, hb⟩
    refine ⟨Terms.Backed.start _ hres hb, fun id o ho => ?_⟩
    simp [State.fresh] at ho
  · rintro s op _ h - ⟨hpos, rfl⟩
    exact (apply_step h hpos).1

theorem closes_step (h : Inv s) :
    (closes cfg s op).Nodup ∧
      ∀ id ∈ closes cfg s op, ¬ Closed s id ∧ Closed (apply cfg s op) id := by
  cases op with
  | settleTaskOrder caller id hash =>
    by_cases hok : ((settleTaskOrder cfg caller id hash).run s).1.isOk = true
    · obtain ⟨u, hr⟩ := run_of_isOk hok
      simp only [closes, if_pos hok, nodup_singleton, mem_singleton, forall_eq, true_and]
      exact (settleTaskOrder_closes h hr).2
    · simp [closes, hok]
  | cancelExpiredOrder id =>
    by_cases hok : ((cancelExpiredOrder cfg id).run s).1.isOk = true
    · obtain ⟨u, hr⟩ := run_of_isOk hok
      simp only [closes, if_pos hok, nodup_singleton, mem_singleton, forall_eq, true_and]
      exact (cancelExpiredOrder_closes h hr).2
    · simp [closes, hok]
  | _ => simp [closes]

end Steps

/-- **Orders are escrowed and closed once.** In every run the reserve of a customer is what its
open orders add up to, and the shares of an order make up its charge. A settlement pays the two
shares out of the reserve, a cancellation returns the charge, and no order is closed twice. The
check of the split holds for every total. -/
theorem orders_escrowed (cfg : Config A) (hburn : cfg.burnPercentage = .fromPercent 15)
    (hminer : cfg.minerPayoutPercentage = .fromPercent 85) (s : State A) (log : List Nat)
    (hs : ((system cfg).logged (closes cfg)).Reach (fun _ _ => True) (s, log)) :
    (∀ u, s.balances.reserved u = orderTerms.held s.taskOrders u) ∧
      (∀ id o, s.taskOrders.get id = some o → o.dbcBurned + o.minerPayout = o.totalDbcCharged) ∧
      (∀ caller id hash s', (settleTaskOrder cfg caller id hash).run s = (.ok (), s') → ∃ o,
        s.taskOrders.get id = some o ∧ s.balances.Drawn s'.balances o.customer o.totalDbcCharged fun
        u => (if u = cfg.treasuryAccount then o.dbcBurned else 0) + if u = o.miner then
        o.minerPayout else 0) ∧
      (∀ id s', (cancelExpiredOrder cfg id).run s = (.ok (), s') → ∃ o, s.taskOrders.get id = some o
        ∧ s.balances.Drawn s'.balances o.customer o.totalDbcCharged fun u => if u = o.customer then
        o.totalDbcCharged else 0) ∧
      log.Nodup ∧
      ∀ total ≤ u128Max, (cfg.calculateRevenueSplit total).isSome = true := by
  have hreach : (system cfg).Reach (fun _ _ => True) s :=
    System.Reach.unlog (C := fun _ _ => True) hs
  have h := reach_inv hreach
  refine ⟨h.backed.backed, h.split, ?_, ?_, ?_, ?_⟩
  · intro caller id hash s' hr
    obtain ⟨o, b, b', rest, rest', ho, hst, hb, hb', rfl⟩ := settleTaskOrder_ok hr
    exact ⟨o, ho, settleTaskOrder_step h ho hst hb hb'⟩
  · intro id s' hr
    obtain ⟨o, ho, hst, rfl⟩ := cancelExpiredOrder_ok hr
    refine ⟨o, ho, cancelExpiredOrder_step h ho ?_⟩
    rcases hst with hst | hst <;> rw [hst] <;> rfl
  · refine (System.Reach.log_nodup (C := fun _ _ => True) (K := Closed) hs ?_ ?_).1
    · rintro t op _ ht - ⟨hpos, rfl⟩
      exact (apply_step (reach_inv ht) hpos).2
    · rintro t op _ ht - ⟨hpos, rfl⟩
      exact closes_step (reach_inv ht)
  · intro total ht
    have hparts : cfg.burnPercentage.parts + cfg.minerPayoutPercentage.parts ≤ 100 := by
      rw [hburn, hminer]
      decide
    rw [calculateRevenueSplit_isSome hparts ht]
    rfl

/-! ## Rewards -/

/-- A settlement does not saturate the charge of its era. -/
def Unsaturated (cfg : Config A) (s : State A) : Op A → Prop
  | .settleTaskOrder caller id hash =>
    ((settleTaskOrder cfg caller id hash).run s).1.isOk = true → ∀ o ∈ s.taskOrders.get id,
      (s.era (cfg.blockToEra o.createdAt)).totalCharged + o.totalDbcCharged ≤ u128Max
  | _ => True

/-- A sum over the miners with statistics of an era. -/
def State.sumMiners (s : State A) (era : Nat) (f : A → Nat × Nat → Nat) : Nat :=
  s.minerTaskStats.sum fun k v => if k.1 = era then f k.2 v else 0

/-- The totals of an era are the sums over its miners, and its charges split into burns and
payouts. -/
structure Counted (s : State A) : Prop where
  paid : ∀ era, (s.era era).totalMinerPayout = s.sumMiners era fun _ v => v.1
  charged : ∀ era,
    (s.era era).totalCharged = (s.era era).totalBurned + (s.era era).totalMinerPayout

section Rewards

variable {cfg : Config A} {s : State A} {o : TaskOrder A} {era total : Nat} {op : Op A}
  {pct : Percent} {miner : A} {v : Nat × Nat}

/-- The payouts of one miner are among those of the era. -/
theorem minerTaskStats_le (s : State A) (era : Nat) (miner : A) :
    (s.minerTaskStats.getD (era, miner) (0, 0)).1 ≤ s.sumMiners era fun _ v => v.1 := by
  unfold StorageMap.getD
  cases hk : s.minerTaskStats.get (era, miner) with
  | none => exact Nat.zero_le _
  | some v =>
    have hle := le_sum (fun (k : Nat × A) (v : Nat × Nat) => if k.1 = era then v.1 else 0) hk
    rw [if_pos rfl] at hle
    exact hle

theorem countSettled_counted (h : Counted s)
    (hsplit : o.dbcBurned + o.minerPayout = o.totalDbcCharged)
    (hfit : (s.era era).totalCharged + o.totalDbcCharged ≤ u128Max) :
    Counted (s.countSettled era o) := by
  have hcharged := h.charged era
  have hpaid := h.paid era
  have hminer := minerTaskStats_le s era o.miner
  have hm := saturatingAdd_of_le (m := u128Max)
    (by omega : (s.minerTaskStats.getD (era, o.miner) (0, 0)).1 + o.minerPayout ≤ _)
  have hc := saturatingAdd_of_le hfit
  have hb := saturatingAdd_of_le (m := u128Max)
    (by omega : (s.era era).totalBurned + o.dbcBurned ≤ _)
  have hp := saturatingAdd_of_le (m := u128Max)
    (by omega : (s.era era).totalMinerPayout + o.minerPayout ≤ _)
  unfold State.era at hc hb hp
  refine ⟨fun e => ?_, fun e => ?_⟩
  · have htrade := sum_insert_getD (d := (0, 0)) (fun k v => if k.1 = e then v.1 else 0)
      s.minerTaskStats (era, o.miner) ((s.minerTaskStats.getD (era, o.miner) (0, 0)).1 +
        o.minerPayout, saturatingAdd u64Max (s.minerTaskStats.getD (era, o.miner) (0, 0)).2 1)
      (ite_self 0)
    simp only [State.era, State.countSettled, State.sumMiners, hm, hp, getD_insert]
    split
    · next he =>
      subst he
      simp only [if_true] at htrade
      simp only [State.era, State.sumMiners] at hpaid
      dsimp only
      omega
    · next he =>
      simp only [if_neg (Ne.symm he)] at htrade
      exact (h.paid e).trans htrade.symm
  · simp only [State.era, State.countSettled, hc, hb, hp, getD_insert]
    split
    · unfold State.era at hcharged
      dsimp only
      omega
    · exact h.charged e

/-- No call writes the parts of an order but the one that opens it. -/
theorem apply_split (h : s.Split) : (apply cfg s op).Split := by
  cases op with
  | createTaskDefinition =>
    refine dispatch_keeps h fun _ t hr => ?_
    unfold createTaskDefinition at hr
    simp only [run_ok] at hr
    obtain ⟨-, -, -, -, rfl⟩ := hr
    exact h
  | updateTaskDefinition =>
    refine dispatch_keeps h fun _ t hr => ?_
    unfold updateTaskDefinition at hr
    simp only [run_ok] at hr
    obtain ⟨d, -, -, rfl⟩ := hr
    exact h
  | createTaskOrder =>
    refine dispatch_keeps h fun _ t hr => ?_
    obtain ⟨o, b, -, -, hsplit, rfl⟩ := createTaskOrder_ok hr
    exact split_openOrder h hsplit
  | markOrderCompleted =>
    refine dispatch_keeps h fun _ t hr => ?_
    obtain ⟨o, ho, -, rfl⟩ := markOrderCompleted_ok hr
    exact split_insert h ho ⟨rfl, rfl, rfl⟩
  | settleTaskOrder _ _ hash =>
    refine dispatch_keeps h fun _ t hr => ?_
    obtain ⟨o, b, b', rest, rest', ho, -, -, -, rfl⟩ := settleTaskOrder_ok hr
    exact split_insert (k := o.settle hash) h ho ⟨rfl, rfl, rfl⟩
  | cancelExpiredOrder =>
    refine dispatch_keeps h fun _ t hr => ?_
    obtain ⟨o, ho, -, rfl⟩ := cancelExpiredOrder_ok hr
    exact split_insert (k := { o with status := .settled }) h ho ⟨rfl, rfl, rfl⟩
  | nextBlock | setOracle | external => exact h

theorem apply_counted (hi : s.Split) (h : Counted s) (hu : Unsaturated cfg s op) :
    Counted (apply cfg s op) := by
  -- the other calls leave the statistics alone
  have hkeep (c : Call (State A) Error Unit) (hc : Keeps Counted c) : Counted (c.dispatch s).2 :=
    dispatch_keeps h fun _ t hr => by simpa [hr] using hc.run h
  cases op with
  | settleTaskOrder caller id hash =>
    refine dispatch_keeps h fun u t hr => ?_
    have hok := congrArg (fun r => r.1.isOk) hr
    obtain ⟨o, b, b', rest, rest', ho, -, -, -, rfl⟩ := settleTaskOrder_ok hr
    exact countSettled_counted (s := (s.setBalances b').putOrder id (o.settle hash))
      ⟨h.paid, h.charged⟩ (hi id o ho) (hu hok o ho)
  | createTaskDefinition =>
    exact hkeep _ <| .guard <| .guard <| .guard <| .get fun _ h => .guard <| .set ⟨h.1, h.2⟩
  | updateTaskDefinition =>
    exact hkeep _ <| .get fun _ h => .okOr fun _ _ => .guard <| .set ⟨h.1, h.2⟩
  | createTaskOrder =>
    refine dispatch_keeps h fun _ t hr => ?_
    obtain ⟨o, b, -, -, -, rfl⟩ := createTaskOrder_ok hr
    exact ⟨h.1, h.2⟩
  | markOrderCompleted =>
    exact hkeep _ <| .get fun _ h => .okOr fun _ _ => .guard <| .guard <| .set ⟨h.1, h.2⟩
  | cancelExpiredOrder =>
    exact hkeep _ <| .get fun _ h => .okOr fun _ _ => .guard <| .okOr fun _ _ => .guard <|
      .set ⟨h.1, h.2⟩
  | _ => exact ⟨h.1, h.2⟩

theorem reach_counted (hs : (openSystem cfg).Reach (Unsaturated cfg) s) : Counted s := by
  refine (hs.invariant (I := fun s => s.Split ∧ Counted s) ?_ ?_).2
  · rintro _ ⟨now, b, oracle, rfl⟩
    refine ⟨fun id o ho => ?_, fun _ => rfl, fun _ => rfl⟩
    simp [State.fresh] at ho
  · rintro s op _ ⟨hi, h⟩ hu rfl
    exact ⟨apply_split hi, apply_counted hi h hu⟩

omit [DecidableEq A] in
theorem splitEraRewards_eq (pct : Percent) (total : Nat) :
    splitEraRewards pct total = some (pct.mul total, total - pct.mul total) := by
  simp only [splitEraRewards, checkedSub_eq_some.2 ⟨pct.mul_le total, rfl⟩]
  rfl

/-- A share is the part of the pool in proportion to the payouts, rounded down. -/
theorem minerRewardShare_le (hm : s.minerTaskStats.get (era, miner) = some v) :
    (s.minerRewardShare pct era miner total).getD 0 ≤
      v.1 * pct.mul total / (s.era era).totalMinerPayout := by
  have hget : s.minerTaskStats.getD (era, miner) (0, 0) = v := by
    rw [StorageMap.getD, hm, getD_some]
  unfold State.minerRewardShare
  rw [splitEraRewards_eq, hget]
  simp only [bind_eq_bind, bind_some]
  split_ifs
  · exact Nat.zero_le _
  · exact Nat.zero_le _
  · cases hc : checkedMul u128Max (pct.mul total) v.1 with
    | none => exact Nat.zero_le _
    | some c =>
      rw [(checkedMul_eq_some.1 hc).2, Nat.mul_comm]
      exact le_rfl

end Rewards

/-- **Rewards are not over-allocated.** In every run in which the statistics do not saturate, what
an era counts as paid is the sum over its miners, and its charge is what was burned and paid. The
shares of the miners fit into the pool of the task mode, which is the rewards less the rental
pool. -/
theorem rewards_within_pool (cfg : Config A) (pct : Percent) (s : State A)
    (hs : (openSystem cfg).Reach (Unsaturated cfg) s) (era total : Nat) :
    let e := s.era era
    e.totalMinerPayout = (s.sumMiners era fun _ v => v.1) ∧
      e.totalCharged = e.totalBurned + e.totalMinerPayout ∧
      (∀ miner, s.minerTaskStats.get (era, miner) = none →
        s.minerRewardShare pct era miner total = none) ∧
      ∃ rental, splitEraRewards pct total = some (pct.mul total, rental) ∧
        pct.mul total + rental = total ∧
        (s.sumMiners era fun miner _ => (s.minerRewardShare pct era miner total).getD 0) ≤
          pct.mul total := by
  have h := reach_counted hs
  refine ⟨h.paid era, h.charged era, fun miner hm => ?_, _, splitEraRewards_eq pct total,
    Nat.add_sub_cancel' (pct.mul_le total), ?_⟩
  · simp [State.minerRewardShare, splitEraRewards_eq, StorageMap.getD, hm]
  · have hshare : ∀ k v, s.minerTaskStats.get k = some v →
        (if k.1 = era then (s.minerRewardShare pct era k.2 total).getD 0 else 0) ≤
          (if k.1 = era then v.1 else 0) * pct.mul total /
            (s.era era).totalMinerPayout := by
      rintro ⟨e, miner⟩ v hv
      split
      · next he =>
        cases he
        exact minerRewardShare_le hv
      · exact Nat.zero_le _
    refine (sum_le_sum hshare).trans ((sum_mul_div_le _ _ _ _).trans ?_)
    rw [h.paid era]
    exact Nat.div_le_of_le_mul le_rfl

/-! ## Two orders

The customer 1 orders twice from the miner 2 at a charge of hundred; the treasury is account 0. -/

namespace Demo

def config : Config Nat where
  treasuryAccount := 0
  burnPercentage := .fromPercent 15
  minerPayoutPercentage := .fromPercent 85
  eraDuration := 10
  maxModelIdLen := 8
  maxPolicyCidLen := 8
  orderTimeout := 1

def oracle : Oracle := ⟨some 1, fun _ => some 100, fun _ _ h => by cases h; decide⟩

def start : State Nat :=
  .fresh 1 ⟨(((∅ : StorageMap Nat AccountData).insert 0 ⟨1, 0, 0⟩).insert 1 ⟨1000, 0, 0⟩).insert 2
    ⟨7, 0, 0⟩⟩ oracle

def ops : List (Op Nat) :=
  [.createTaskDefinition 3 [] [] 1000 1000 50 [], .createTaskOrder 1 0 2 10 10,
    .createTaskOrder 1 0 2 10 10, .markOrderCompleted 2 0 7, .settleTaskOrder 2 0 none,
    .nextBlock, .nextBlock, .cancelExpiredOrder 0, .cancelExpiredOrder 1, .settleTaskOrder 2 1 none]

def next (r : State Nat × List Nat) (op : Op Nat) : State Nat × List Nat :=
  (apply config r.1 op, r.2 ++ closes config r.1 op)

def run (n : Nat) : State Nat × List Nat := (ops.take n).foldl next (start, [])

theorem run_reach (n : Nat) :
    ((system config).logged (closes config)).Reach (fun _ _ => True) (run n) := by
  have hstart := reserved_of_iter (b := start.balances) (by decide +kernel)
  refine System.Reach.path (P := fun r op => op.Possible r.1)
    (.init ⟨⟨1, _, oracle, rfl, hstart, by decide +kernel⟩, rfl⟩)
    (fun r op hpos => ⟨trivial, ⟨hpos, rfl⟩, rfl⟩) (System.Path.of_forall (fun op hop r => ?_) _)
  have hall : ∀ op ∈ ops, op.Possible r.1 := by simp [ops, Op.Possible]
  exact hall op (mem_of_mem_take hop)

end Demo

/-- Two hundred are held for the two orders; the miner gets its share of the first, the second is
cancelled, and each order is in the log once. -/
theorem orders_escrowed_demo :
    (Demo.run 3).1.balances.reserved 1 = 200 ∧
      orderTerms.held (Demo.run 3).1.taskOrders 1 = 200 ∧
      (Demo.run 5).1.balances.free 2 = 92 ∧ (Demo.run 10).1.balances.free 1 = 900 ∧
      (Demo.run 10).2 = [0, 1] ∧ (Demo.run 10).2.Nodup := by
  have h3 := (orders_escrowed Demo.config rfl rfl _ _ (Demo.run_reach 3)).1 1
  have h10 := (orders_escrowed Demo.config rfl rfl _ _ (Demo.run_reach 10)).2.2.2.2.1
  have hres : (Demo.run 3).1.balances.reserved 1 = 200 := by decide +kernel
  exact ⟨hres, h3.symm.trans hres, by decide +kernel, by decide +kernel, by decide +kernel, h10⟩

/-- One order of hundred is settled; its miner gets the whole pool. -/
theorem rewards_within_pool_demo :
    let s := (Demo.ops.take 5).foldl (apply Demo.config) Demo.start
    s.minerRewardShare (.fromPercent 70) 0 2 1000 = some 700 ∧
      (s.era 0).totalCharged = 100 ∧
      (s.sumMiners 0 fun miner _ => (s.minerRewardShare (.fromPercent 70) 0 miner 1000).getD 0) ≤
        Percent.mul (.fromPercent 70) 1000 := by
  have hreach : (openSystem Demo.config).Reach (Unsaturated Demo.config)
      ((Demo.ops.take 5).foldl (apply Demo.config) Demo.start) := by
    refine System.Reach.path (P := Unsaturated Demo.config) (.init ⟨1, _, Demo.oracle, rfl⟩)
      (fun s op h => ⟨h, rfl⟩) ⟨trivial, trivial, trivial, trivial, fun _ => ?_, trivial⟩
    decide +kernel
  obtain ⟨rental, -, -, hle⟩ := (rewards_within_pool Demo.config _ _ hreach 0 1000).2.2.2
  exact ⟨by decide +kernel, by decide +kernel, hle⟩

end DeepBrainChain.TaskMode
