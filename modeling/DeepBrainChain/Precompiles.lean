import DeepBrainChain.RentMachine.Calls
import DeepBrainChain.TaskMode
import DeepBrainChain.AgentAttestation
import DeepBrainChain.ZkCompute.Run
import DeepBrainChain.ComputePoolScheduler.Calls

/-!
# The precompiles of the runtime

Contracts reach the pallets at five addresses. Each precompile reads a selector from the first
four bytes of the call data, decodes its parameters, converts them to the integers of the pallet
and runs a query or a call. It returns, it stops with a `PrecompileFailure`, or it panics: an
integer that does not fit its conversion and an index outside the parameters do that.
-/

namespace DeepBrainChain.Precompiles

open Lib Support Lib.Call

abbrev U256 := BitVec 256

abbrev H160 := BitVec 160

/-- `ethabi::ParamType`, as far as the precompiles use it. -/
inductive ParamType
  | string
  | bytes
  | uint (bits : Nat)
  | address

inductive Token
  | string (text : String)
  | bytes (content : Bytes)
  | uint (value : U256)
  | address (value : H160)
  | bool (value : Bool)
deriving DecidableEq

/-- An unsigned parameter is any word, whatever its number of bits. -/
def Token.IsOf : Token → ParamType → Prop
  | .string _, .string => True
  | .bytes _, .bytes => True
  | .uint _, .uint _ => True
  | .address _, .address => True
  | _, _ => False

inductive PrecompileFailure
  | revert (output : String)
  | outOfGas
deriving DecidableEq

/-- What ends an execution early. -/
inductive Stop
  | failure (f : PrecompileFailure)
  | panicked
deriving DecidableEq

/-- `Weight`: reads and writes of the database, or a constant. -/
inductive Weight
  | db (reads writes : Nat)
  | parts (refTime : Nat)

structure Handle where
  input : Bytes
  caller : H160
  remainingGas : Nat

/-- What the precompiles use and do not define. The decoder returns a token of the right kind for
every parameter, or an error. -/
structure Env (A : Type) where
  decode : List ParamType → Bytes → Except String (List Token)
  typed : ∀ types input param, decode types input = .ok param → List.Forall₂ Token.IsOf param types
  /-- The number a signature is selected by. -/
  selector : String → Nat
  weightToGas : Weight → Nat
  intoAccountId : H160 → A
  evmAddressToAccount : H160 → Option A
  taskMode : TaskMode.Config A
  attestation : AgentAttestation.Config
  zkCompute : ZkCompute.Config A
  debugTaskMode : TaskMode.Error → String
  debugAttestation : AgentAttestation.Error → String
  debugZkCompute : ZkCompute.Error → String

/-- The storages of the pallets behind the precompiles; an execution works on one of them. -/
structure Runtime (A : Type) [LinearOrder A] where
  rentMachine : RentMachine.State A
  taskMode : TaskMode.State A
  attestation : AgentAttestation.State A
  zkCompute : ZkCompute.State A
  computePool : ComputePoolScheduler.State A

variable {A : Type} [LinearOrder A]

abbrev M (A : Type) [LinearOrder A] (α : Type) := Call (Runtime A) Stop α

/-! ## Steps of every execution -/

def revert {α : Type} (output : String) : M A α := throw (.failure (.revert output))

def panicked {α : Type} : M A α := throw .panicked

/-- `map_err(..)?` on the answer of a query. -/
def orRevert {ε α : Type} (message : ε → String) : Except ε α → M A α
  | .ok a => pure a
  | .error e => revert (message e)

def decodeParam (env : Env A) (h : Handle) (context : String) (types : List ParamType) :
    M A (List Token) :=
  orRevert (fun e => s!"{context} failed: {e}") (env.decode types (h.input.drop 4))

def index (param : List Token) (i : Nat) : M A Token :=
  match param[i]? with
  | some t => pure t
  | none => panicked

def intoString (param : List Token) (i : Nat) (output : String) : M A String := do
  match ← index param i with
  | .string text => pure text
  | _ => revert output

def intoBytes (param : List Token) (i : Nat) (output : String) : M A Bytes := do
  match ← index param i with
  | .bytes content => pure content
  | _ => revert output

def intoUint (param : List Token) (i : Nat) (output : String) : M A U256 := do
  match ← index param i with
  | .uint value => pure value
  | _ => revert output

def intoAddress (param : List Token) (i : Nat) (output : String) : M A H160 := do
  match ← index param i with
  | .address value => pure value
  | _ => revert output

/-- `U256::as_u64` and `U256::as_u32`, by the largest number of the target. -/
def asUint (max : Nat) (n : U256) : M A Nat := if n.toNat ≤ max then pure n.toNat else panicked

def recordCost (env : Env A) (h : Handle) (weight : Weight) : M A Unit :=
  ensure (env.weightToGas weight ≤ h.remainingGas) (.failure .outOfGas)

def u256 (n : Nat) : Token := .uint (BitVec.ofNat 256 n)

def asBytes (text : String) : Bytes := text.toUTF8.toList.map fun b => ⟨b.toNat, b.toNat_lt⟩

def fromBeBytes (l : Bytes) : Nat := l.foldl (fun n b => n * 256 + b.val) 0

/-- What a precompile is made of: its selectors, and for each of them the signature and the
function that runs. -/
structure Interface (A S : Type) [LinearOrder A] where
  selectors : List S
  signature : S → String
  run : S → Env A → Handle → M A (List Token)

def Interface.select {S : Type} (I : Interface A S) (env : Env A) (code : Nat) : Option S :=
  I.selectors.find? fun s => env.selector (I.signature s) = code

def Interface.execute {S : Type} (I : Interface A S) (env : Env A) (h : Handle) :
    M A (List Token) := do
  ensure (4 ≤ h.input.length) (.failure (.revert "invalid input"))
  let code := fromBeBytes (h.input.take 4)
  match I.select env code with
  | none => revert s!"invalid selector: {code}"
  | some s => I.run s env h

/-! ## MachineInfo -/

namespace MachineInfo

inductive Selector
  | getMachineCalcPoint
  | getMachineCPURate
  | getMachineGPUCount
  | getRentEndAt
  | isMachineOwner
  | getDLCMachineRentFee
  | getDBCMachineRentFee
  | getUSDTMachineRentFee
  | getDLCRentFeeByCalcPoint
  | getMachineGPUTypeAndMem

def Selector.signature : Selector → String
  | getMachineCalcPoint => "getMachineCalcPoint(string)"
  | getMachineCPURate => "getMachineCPURate(string)"
  | getMachineGPUCount => "getMachineGPUCount(string)"
  | getRentEndAt => "getRentEndAt(string,uint256)"
  | isMachineOwner => "isMachineOwner(string,address)"
  | getDLCMachineRentFee => "getDLCMachineRentFee(string,uint256,uint256)"
  | getDBCMachineRentFee => "getDBCMachineRentFee(string,uint256,uint256)"
  | getUSDTMachineRentFee => "getUSDTMachineRentFee(string,uint256,uint256)"
  | getDLCRentFeeByCalcPoint => "getDLCRentFeeByCalcPoint(uint256,uint256,uint256,uint256)"
  | getMachineGPUTypeAndMem => "getMachineGPUTypeAndMem(string)"

/-- The queries about one machine that cannot fail. -/
def query (env : Env A) (h : Handle) (answer : RentMachine.State A → MachineId → List Token) :
    M A (List Token) := do
  let param ← decodeParam env h "decode param" [.string]
  let machineId ← intoString param 0 "decode param[0] failed"
  let s ← get
  recordCost env h (.db 1 0)
  pure (answer s.rentMachine (asBytes machineId))

def getMachineCalcPoint (env : Env A) (h : Handle) : M A (List Token) :=
  query env h fun s m => [u256 (s.getMachineCalcPoint m)]

def getMachineCPURate (env : Env A) (h : Handle) : M A (List Token) :=
  query env h fun s m => [u256 (s.getMachineCpuRate m)]

def getMachineGPUCount (env : Env A) (h : Handle) : M A (List Token) :=
  query env h fun s m => [u256 (s.getMachineGpuNum m)]

def getMachineGPUTypeAndMem (env : Env A) (h : Handle) : M A (List Token) :=
  query env h fun s m =>
    [.bytes (s.getMachineGpuTypeAndMem m).1, u256 (s.getMachineGpuTypeAndMem m).2]

def getRentEndAt (env : Env A) (h : Handle) : M A (List Token) := do
  let param ← decodeParam env h "decode param" [.string, .uint 256]
  let machineId ← intoString param 0 "decode param[0] failed"
  let rentIdUint ← intoUint param 1 "decode param[1] failed"
  let rentId ← asUint u64Max rentIdUint
  let s ← get
  let endAt ← orRevert
    (fun e => s!"err: {e.asStr}, machine_id: {machineId}, rent_id: {rentId}")
    (s.rentMachine.getRentEndAt (asBytes machineId) rentId)
  recordCost env h (.db 1 0)
  pure [u256 endAt]

def isMachineOwner (env : Env A) (h : Handle) : M A (List Token) := do
  let param ← decodeParam env h "decode param" [.string, .address]
  let machineId ← intoString param 0 "decode param[0] failed"
  let evmAddress ← intoAddress param 1 "decode param[1] failed"
  let s ← get
  let isOwner ← orRevert
    (fun e => s!"err: {e.asStr}, machine_id: {machineId}, evm_address: {evmAddress}")
    (s.rentMachine.isMachineOwner (asBytes machineId) (env.evmAddressToAccount evmAddress))
  recordCost env h (.db 1 0)
  pure [.bool isOwner]

/-- The rent fees of a machine; they differ in the query that answers. -/
def rentFee (env : Env A) (h : Handle)
    (fee : RentMachine.State A → MachineId → Nat → Nat → Except RentMachine.QuoteError Nat) :
    M A (List Token) := do
  let param ← decodeParam env h "decode param" [.string, .uint 256, .uint 256]
  let machineId ← intoString param 0 "decode param[0] failed"
  let rentDurationUint ← intoUint param 1 "decode param[1] failed"
  let rentDuration ← asUint u64Max rentDurationUint
  let rentGpuCountUint ← intoUint param 2 "decode param[2] failed"
  let rentGpuCount ← asUint u32Max rentGpuCountUint
  let s ← get
  let rentFee ← orRevert
    (fun e => s!" err: {e.asStr}, machine_id: {machineId}, rent_duration: {rentDuration}, rent_gpu_count: {rentGpuCount}")
    (fee s.rentMachine (asBytes machineId) (min u32Max rentDuration) rentGpuCount)
  recordCost env h (.db 1 0)
  pure [u256 rentFee]

def getDLCMachineRentFee (env : Env A) (h : Handle) : M A (List Token) :=
  rentFee env h RentMachine.State.getDlcMachineRentFee

def getDBCMachineRentFee (env : Env A) (h : Handle) : M A (List Token) :=
  rentFee env h RentMachine.State.getDbcMachineRentFee

def getUSDTMachineRentFee (env : Env A) (h : Handle) : M A (List Token) :=
  rentFee env h RentMachine.State.getUsdtMachineRentFee

def getDLCRentFeeByCalcPoint (env : Env A) (h : Handle) : M A (List Token) := do
  let param ← decodeParam env h "decode param" [.uint 256, .uint 256, .uint 256, .uint 256]
  let calcPointUint ← intoUint param 0 "decode param[0] failed"
  let calcPoint ← asUint u64Max calcPointUint
  let rentDurationUint ← intoUint param 1 "decode param[1] failed"
  let rentDuration ← asUint u64Max rentDurationUint
  let rentGpuCountUint ← intoUint param 2 "decode param[2] failed"
  let rentGpuCount ← asUint u32Max rentGpuCountUint
  let totalGpuCountUint ← intoUint param 3 "decode param[3] failed"
  let totalGpuCount ← asUint u32Max totalGpuCountUint
  let s ← get
  let rentFee ← orRevert
    (fun e => s!" err: {e.asStr}, calc_point: {calcPoint}, rent_duration: {rentDuration}, rent_gpu_count: {rentGpuCount},total_gpu_count: {totalGpuCount}")
    (s.rentMachine.getDlcRentFeeByCalcPoint calcPoint (min u32Max rentDuration) rentGpuCount
      totalGpuCount)
  recordCost env h (.db 1 0)
  pure [u256 rentFee]

def Selector.run : Selector → Env A → Handle → M A (List Token)
  | .getMachineCalcPoint => MachineInfo.getMachineCalcPoint
  | .getMachineCPURate => MachineInfo.getMachineCPURate
  | .getMachineGPUCount => MachineInfo.getMachineGPUCount
  | .getRentEndAt => MachineInfo.getRentEndAt
  | .isMachineOwner => MachineInfo.isMachineOwner
  | .getDLCMachineRentFee => MachineInfo.getDLCMachineRentFee
  | .getDBCMachineRentFee => MachineInfo.getDBCMachineRentFee
  | .getUSDTMachineRentFee => MachineInfo.getUSDTMachineRentFee
  | .getDLCRentFeeByCalcPoint => MachineInfo.getDLCRentFeeByCalcPoint
  | .getMachineGPUTypeAndMem => MachineInfo.getMachineGPUTypeAndMem

def interface : Interface A Selector where
  selectors := [.getMachineCalcPoint, .getMachineCPURate, .getMachineGPUCount, .getRentEndAt,
    .isMachineOwner, .getDLCMachineRentFee, .getDBCMachineRentFee, .getUSDTMachineRentFee,
    .getDLCRentFeeByCalcPoint, .getMachineGPUTypeAndMem]
  signature := Selector.signature
  run := Selector.run

end MachineInfo

/-! ## AgentTask -/

namespace AgentTask

inductive Selector
  | createTaskOrder
  | queryTaskStatus
  | getModelPrice
  | registerNode

def Selector.signature : Selector → String
  | createTaskOrder => "createTaskOrder(uint64,address,uint64,uint64)"
  | queryTaskStatus => "queryTaskStatus(uint64)"
  | getModelPrice => "getModelPrice(bytes)"
  | registerNode => "registerNode(bytes,uint32)"

def createTaskOrder (env : Env A) (h : Handle) : M A (List Token) := do
  let param ← decodeParam env h "decode param" [.uint 64, .address, .uint 64, .uint 64]
  let taskIdUint ← intoUint param 0 "decode task_id failed"
  let taskId ← asUint u64Max taskIdUint
  let minerAddress ← intoAddress param 1 "decode miner address failed"
  let inputTokensUint ← intoUint param 2 "decode input_tokens failed"
  let inputTokens ← asUint u64Max inputTokensUint
  let outputTokensUint ← intoUint param 3 "decode output_tokens failed"
  let outputTokens ← asUint u64Max outputTokensUint
  let s ← get
  let orderId := s.taskMode.nextOrderId
  ((TaskMode.createTaskOrder env.taskMode (env.intoAccountId h.caller) taskId
    (env.intoAccountId minerAddress) inputTokens outputTokens).zoom (fun s => s.taskMode)
      (fun t s => { s with taskMode := t })).mapError fun e =>
        .failure (.revert s!"create_task_order failed: {env.debugTaskMode e}")
  recordCost env h (.db 2 2)
  pure [u256 orderId]

def statusCode : TaskMode.TaskOrderStatus → Nat
  | .pending => 0
  | .inProgress => 1
  | .completed => 2
  | .settled => 3

/-- The address of the miner is always the zero address. -/
def queryTaskStatus (env : Env A) (h : Handle) : M A (List Token) := do
  let param ← decodeParam env h "decode param" [.uint 64]
  let orderIdUint ← intoUint param 0 "decode order_id failed"
  let orderId ← asUint u64Max orderIdUint
  let s ← get
  let order ← okOr (s.taskMode.taskOrders.get orderId)
    (.failure (.revert s!"order {orderId} not found"))
  recordCost env h (.db 1 0)
  pure [u256 (statusCode order.status), .address 0, u256 order.totalDbcCharged]

/-- The identifier is read from the first eight bytes; shorter parameters mean zero. -/
def getModelPrice (env : Env A) (h : Handle) : M A (List Token) := do
  let param ← decodeParam env h "decode param" [.bytes]
  let taskIdBytes ← intoBytes param 0 "decode task_id failed"
  let taskId := if 8 ≤ taskIdBytes.length then fromBeBytes (taskIdBytes.take 8) else 0
  let s ← get
  let taskDef ← okOr (s.taskMode.taskDefinitions.get taskId)
    (.failure (.revert s!"task definition not found for task_id: {taskId}"))
  recordCost env h (.db 1 0)
  pure [u256 taskDef.inputPriceUsdPer1k]

def registerNode (env : Env A) (h : Handle) : M A (List Token) := do
  let param ← decodeParam env h "decode param" [.bytes, .uint 32]
  let gpuUuid ← intoBytes param 0 "decode gpu_uuid failed"
  let tflopsUint ← intoUint param 1 "decode tflops failed"
  let tflops ← asUint u32Max tflopsUint
  ((AgentAttestation.registerNode env.attestation (env.intoAccountId h.caller) gpuUuid
    tflops).zoom (fun s => s.attestation) (fun t s => { s with attestation := t })).mapError
      fun e => .failure (.revert s!"register_node failed: {env.debugAttestation e}")
  recordCost env h (.db 1 1)
  pure [.bool true]

def Selector.run : Selector → Env A → Handle → M A (List Token)
  | .createTaskOrder => AgentTask.createTaskOrder
  | .queryTaskStatus => AgentTask.queryTaskStatus
  | .getModelPrice => AgentTask.getModelPrice
  | .registerNode => AgentTask.registerNode

def interface : Interface A Selector where
  selectors := [.createTaskOrder, .queryTaskStatus, .getModelPrice, .registerNode]
  signature := Selector.signature
  run := Selector.run

end AgentTask

/-! ## ZkCompute, ComputePool and X402Settlement

They charge before they decode, and every function takes one identifier. -/

/-- The identifier all of these functions start with. -/
def readId (env : Env A) (h : Handle) (cost : Nat) (output : String) : M A Nat := do
  recordCost env h (.parts cost)
  let param ← decodeParam env h "decode" [.uint 64]
  let id ← intoUint param 0 output
  asUint u64Max id

namespace ZkComputePrecompile

inductive Selector
  | queryTask
  | claimReward

def Selector.signature : Selector → String
  | queryTask => "queryTask(uint64)"
  | claimReward => "claimReward(uint64)"

def statusCode : ZkCompute.ZkVerificationStatus → Nat
  | .pending => 0
  | .verified => 1
  | .failed => 2

def queryTask (env : Env A) (h : Handle) : M A (List Token) := do
  let taskId ← readId env h 10000 "decode task_id failed"
  let s ← get
  pure (match s.zkCompute.tasks.get taskId with
    | some t => [u256 (statusCode t.status), u256 t.dimensions.1, u256 t.dimensions.2.1,
        u256 t.dimensions.2.2]
    | none => [u256 255, u256 0, u256 0, u256 0])

def claimReward (env : Env A) (h : Handle) : M A (List Token) := do
  let taskId ← readId env h 50000 "decode task_id failed"
  ((ZkCompute.claimReward env.zkCompute (env.intoAccountId h.caller) taskId).zoom
    (fun s => s.zkCompute) (fun t s => { s with zkCompute := t })).mapError
      fun e => .failure (.revert s!"claim_reward failed: {env.debugZkCompute e}")
  pure [.bool true]

def Selector.run : Selector → Env A → Handle → M A (List Token)
  | .queryTask => ZkComputePrecompile.queryTask
  | .claimReward => ZkComputePrecompile.claimReward

def interface : Interface A Selector where
  selectors := [.queryTask, .claimReward]
  signature := Selector.signature
  run := Selector.run

end ZkComputePrecompile

namespace ComputePoolPrecompile

inductive Selector
  | queryPool
  | queryTask

def Selector.signature : Selector → String
  | queryPool => "queryPool(uint64)"
  | queryTask => "queryTask(uint64)"

def statusCode : ComputePoolScheduler.TaskStatus → Nat
  | .pending => 0
  | .assigned => 1
  | .computing => 2
  | .proofSubmitted => 3
  | .verifying => 4
  | .completed => 5
  | .failed => 6

def queryPool (env : Env A) (h : Handle) : M A (List Token) := do
  let poolId ← readId env h 10000 "decode pool_id failed"
  let s ← get
  pure (match s.computePool.pools.get poolId with
    | some p => [.bool true, u256 p.gpuMemory, u256 p.totalTasks]
    | none => [.bool false, u256 0, u256 0])

def queryTask (env : Env A) (h : Handle) : M A (List Token) := do
  let taskId ← readId env h 10000 "decode task_id failed"
  let s ← get
  pure (match s.computePool.tasks.get taskId with
    | some t => [.bool true, u256 t.poolId, u256 (statusCode t.status)]
    | none => [.bool false, u256 0, u256 255])

def Selector.run : Selector → Env A → Handle → M A (List Token)
  | .queryPool => ComputePoolPrecompile.queryPool
  | .queryTask => ComputePoolPrecompile.queryTask

def interface : Interface A Selector where
  selectors := [.queryPool, .queryTask]
  signature := Selector.signature
  run := Selector.run

end ComputePoolPrecompile

namespace X402SettlementPrecompile

inductive Selector
  | queryPaymentIntent
  | querySettlementReceipt

def Selector.signature : Selector → String
  | queryPaymentIntent => "queryPaymentIntent(uint64)"
  | querySettlementReceipt => "querySettlementReceipt(uint64)"

def queryPaymentIntent (env : Env A) (h : Handle) : M A (List Token) := do
  let intentId ← readId env h 10000 "decode intent_id failed"
  let s ← get
  pure (match s.attestation.paymentIntents.get intentId with
    | some p => [.bool true, .bool (p.status = .settled)]
    | none => [.bool false, .bool false])

def querySettlementReceipt (env : Env A) (h : Handle) : M A (List Token) := do
  let intentId ← readId env h 10000 "decode intent_id failed"
  let s ← get
  pure [.bool (s.attestation.settlementReceipts.get intentId).isSome]

def Selector.run : Selector → Env A → Handle → M A (List Token)
  | .queryPaymentIntent => X402SettlementPrecompile.queryPaymentIntent
  | .querySettlementReceipt => X402SettlementPrecompile.querySettlementReceipt

def interface : Interface A Selector where
  selectors := [.queryPaymentIntent, .querySettlementReceipt]
  signature := Selector.signature
  run := Selector.run

end X402SettlementPrecompile

inductive Precompile
  | machineInfo
  | agentTask
  | zkCompute
  | computePool
  | x402Settlement

def execute : Precompile → Env A → Handle → M A (List Token)
  | .machineInfo => MachineInfo.interface.execute
  | .agentTask => AgentTask.interface.execute
  | .zkCompute => ZkComputePrecompile.interface.execute
  | .computePool => ComputePoolPrecompile.interface.execute
  | .x402Settlement => X402SettlementPrecompile.interface.execute

/-! # Where the precompiles panic

A parameter of type `uint64` arrives as a word of 256 bits, and the conversion to the integer of the
pallet panics where the word is too large. That is the only way, and it comes before everything else
that can stop an execution but the selection, the charge of three precompiles and the decoder. -/

variable {A : Type} [LinearOrder A] {α β S : Type}

/-- The type of a parameter, and the largest number its conversion takes, if there is one. -/
abbrev Param := ParamType × Option Nat

def Token.Within : Token → Option Nat → Prop
  | .uint n, some max => n.toNat ≤ max
  | _, _ => True

/-- The parameters from the position `i` on fit their conversions. -/
def Fits (param : List Token) (l : List Param) (i : Nat) : Prop :=
  ∀ j, i ≤ j → ∀ t p, param[j]? = some t → l[j]? = some p → t.Within p.2

/-- The integers that the call data decode to fit their conversions. -/
def InRange (env : Env A) (h : Handle) (l : List Param) : Prop :=
  ∀ param, env.decode (l.map Prod.fst) (h.input.drop 4) = .ok param → Fits param l 0

def MachineInfo.Selector.params : MachineInfo.Selector → List Param
  | getMachineCalcPoint | getMachineCPURate | getMachineGPUCount | getMachineGPUTypeAndMem =>
    [(.string, none)]
  | getRentEndAt => [(.string, none), (.uint 256, some u64Max)]
  | isMachineOwner => [(.string, none), (.address, none)]
  | getDLCMachineRentFee | getDBCMachineRentFee | getUSDTMachineRentFee =>
    [(.string, none), (.uint 256, some u64Max), (.uint 256, some u32Max)]
  | getDLCRentFeeByCalcPoint =>
    [(.uint 256, some u64Max), (.uint 256, some u64Max), (.uint 256, some u32Max),
      (.uint 256, some u32Max)]

def AgentTask.Selector.params : AgentTask.Selector → List Param
  | createTaskOrder =>
    [(.uint 64, some u64Max), (.address, none), (.uint 64, some u64Max), (.uint 64, some u64Max)]
  | queryTaskStatus => [(.uint 64, some u64Max)]
  | getModelPrice => [(.bytes, none)]
  | registerNode => [(.bytes, none), (.uint 32, some u32Max)]

/-- The parameters of the functions that take an identifier. -/
def idParams : List Param := [(.uint 64, some u64Max)]

/-- What a function charges before it decodes, if anything. -/
def Affords (env : Env A) (h : Handle) (charge : Option Nat) : Prop :=
  ∀ cost ∈ charge, env.weightToGas (.parts cost) ≤ h.remainingGas

/-- The call data of an execution fit the conversions of the function they select, or do not get
that far. -/
def Interface.InRange (I : Interface A S) (params : S → List Param) (charge : S → Option Nat)
    (env : Env A) (h : Handle) : Prop :=
  4 ≤ h.input.length → ∀ sel, I.select env (fromBeBytes (h.input.take 4)) = some sel →
    Affords env h (charge sel) → Precompiles.InRange env h (params sel)

def ZkComputePrecompile.Selector.charge : ZkComputePrecompile.Selector → Option Nat
  | queryTask => some 10000
  | claimReward => some 50000

def Precompile.InRange : Precompile → Env A → Handle → Prop
  | .machineInfo => MachineInfo.interface.InRange MachineInfo.Selector.params fun _ => none
  | .agentTask => AgentTask.interface.InRange AgentTask.Selector.params fun _ => none
  | .zkCompute => ZkComputePrecompile.interface.InRange (fun _ => idParams)
      ZkComputePrecompile.Selector.charge
  | .computePool => ComputePoolPrecompile.interface.InRange (fun _ => idParams) fun _ => some 10000
  | .x402Settlement =>
    X402SettlementPrecompile.interface.InRange (fun _ => idParams) fun _ => some 10000

/-! ## Executions that do not panic -/

/-- From every storage, `c` returns or stops with a failure. -/
def Safe (c : M A α) : Prop := ∀ s, Post c s (fun _ _ => True) (fun e _ => e ≠ .panicked)

/-- From every storage, `c` panics just if `P` holds. -/
def PanicsIff (c : M A α) (P : Prop) : Prop := ∀ s, (c.run s).1 = .error .panicked ↔ P

section Safe

variable {env : Env A} {h : Handle}

theorem Safe.bind {c : M A α} {f : α → M A β} (hc : Safe c) (hf : ∀ a, Safe (f a)) :
    Safe (c >>= f) := by
  intro s
  rw [post_bind]
  exact (hc s).mono (fun a s' _ => hf a s') fun _ _ he => he

theorem safe_pure (a : α) : Safe (pure a : M A α) := fun _ => trivial

theorem safe_get {f : Runtime A → M A α} (hf : ∀ s, Safe (f s)) : Safe (get >>= f) := by
  intro s
  rw [post_bind, post_get]
  exact hf s s

theorem safe_revert (output : String) : Safe (revert output : M A α) := by
  intro s
  simp [revert]

theorem safe_okOr (o : Option α) (f : PrecompileFailure) :
    Safe (okOr o (.failure f) : M A α) := by
  intro s
  simp

theorem safe_ensure (p : Prop) [Decidable p] (f : PrecompileFailure) :
    Safe (ensure p (.failure f) : M A Unit) := by
  intro s
  simp

theorem safe_recordCost (weight : Weight) : Safe (recordCost env h weight) := safe_ensure _ _

theorem safe_orRevert {ε : Type} (message : ε → String) (r : Except ε α) :
    Safe (orRevert message r : M A α) := by
  cases r with
  | ok a => exact safe_pure a
  | error e => exact safe_revert _

theorem safe_mapError {ε : Type} (c : Call (Runtime A) ε α) (message : ε → String) :
    Safe (c.mapError fun e => .failure (.revert (message e))) := by
  intro s
  rw [post_mapError]
  exact (post_true c s).mono (fun _ _ _ => trivial) fun _ _ _ => by simp

theorem safe_answer (weight : Weight) (output : List Token) :
    Safe (recordCost env h weight >>= fun _ => pure output) :=
  (safe_recordCost weight).bind fun _ => safe_pure output

theorem Safe.panicsIff {c : M A α} (hc : Safe c) {P : Prop} (hP : ¬ P) : PanicsIff c P :=
  fun s => iff_of_false (fun hr => (hc s).error hr rfl) hP

theorem panicsIff_pure_bind {c : M A α} {a : α} {f : α → M A β} {P : Prop}
    (hc : ∀ s, c.run s = (.ok a, s)) (hf : PanicsIff (f a) P) : PanicsIff (c >>= f) P := by
  intro s
  rw [run_bind_of_ok (hc s)]
  exact hf s

/-- A check in front of a function. -/
theorem panicsIff_ensure_bind {p : Prop} [Decidable p] {failure : PrecompileFailure}
    {f : Unit → M A α} {P : Prop} (hf : PanicsIff (f ()) P) :
    PanicsIff (ensure p (.failure failure) >>= f) (p ∧ P) := by
  intro s
  rw [run_bind, run_ensure]
  by_cases hp : p
  · simpa [hp] using hf s
  · simp [hp]

end Safe

/-! ## Parameters -/

section Parameters

variable {env : Env A} {h : Handle} {l : List Param} {param : List Token} {i max bits : Nat}
  {context output : String}

theorem fits_step {t : Token} {p : Param} (ht : param[i]? = some t) (hi : l[i]? = some p) :
    Fits param l i ↔ t.Within p.2 ∧ Fits param l (i + 1) := by
  constructor
  · intro hf
    exact ⟨hf i (Nat.le_refl i) t p ht hi, fun j hj => hf j (by omega)⟩
  · rintro ⟨hw, hf⟩ j hj t' p' ht' hi'
    rcases hj.eq_or_lt with rfl | hlt
    · obtain rfl := Option.some.inj (ht.symm.trans ht')
      obtain rfl := Option.some.inj (hi.symm.trans hi')
      exact hw
    · exact hf j hlt t' p' ht' hi'

theorem not_fits_length : ¬ ¬ Fits param l l.length := by
  intro hn
  refine hn fun j hj t p _ hp => ?_
  rw [List.getElem?_eq_none hj] at hp
  cases hp

/-- The decoder returns parameters of the right types, or the execution reverts. -/
theorem panicsIff_decodeParam (l : List Param) {f : List Token → M A α}
    (hf : ∀ param, List.Forall₂ Token.IsOf param (l.map Prod.fst) →
      PanicsIff (f param) (¬ Fits param l 0)) :
    PanicsIff (decodeParam env h context (l.map Prod.fst) >>= f) (¬ InRange env h l) := by
  intro s
  unfold decodeParam InRange
  cases hd : env.decode (l.map Prod.fst) (h.input.drop 4) with
  | error e => simp [orRevert, revert, run_bind]
  | ok param =>
    rw [run_bind_of_ok (show (orRevert _ (.ok param) : M A _).run s = (.ok param, s) from rfl),
      hf param (env.typed _ _ _ hd) s]
    simp only [Except.ok.injEq, forall_eq']

theorem exists_param {types : List ParamType} (hp : List.Forall₂ Token.IsOf param types)
    {ty : ParamType} (hi : types[i]? = some ty) : ∃ t, param[i]? = some t ∧ t.IsOf ty := by
  induction hp generalizing i with
  | nil => cases hi
  | @cons t q param types ht _ ih =>
    cases i with
    | zero =>
      obtain rfl : q = ty := Option.some.inj hi
      exact ⟨t, rfl, ht⟩
    | succ i => exact ih hi

section

variable (hp : List.Forall₂ Token.IsOf param (l.map Prod.fst))

include hp

/-- A parameter that is not converted. -/
theorem panicsIff_into {ty : ParamType} (hi : l[i]? = some (ty, none)) {c : M A β}
    (hc : ∀ t, param[i]? = some t → t.IsOf ty → ∃ a, ∀ s, c.run s = (.ok a, s)) {f : β → M A α}
    (hf : ∀ a, PanicsIff (f a) (¬ Fits param l (i + 1))) :
    PanicsIff (c >>= f) (¬ Fits param l i) := by
  obtain ⟨t, ht, hty⟩ := exists_param hp (List.getElem?_map.trans (congrArg _ hi))
  obtain ⟨a, ha⟩ := hc t ht hty
  have hw : t.Within none := by cases t <;> trivial
  rw [fits_step ht hi, and_iff_right hw]
  exact panicsIff_pure_bind ha (hf a)

theorem panicsIff_intoString (hi : l[i]? = some (.string, none)) {f : String → M A α}
    (hf : ∀ a, PanicsIff (f a) (¬ Fits param l (i + 1))) :
    PanicsIff (intoString param i output >>= f) (¬ Fits param l i) := by
  refine panicsIff_into hp hi (fun t ht hty => ?_) hf
  cases t with
  | string text => exact ⟨text, fun s => by simp [intoString, index, ht, run_bind]⟩
  | _ => cases hty

theorem panicsIff_intoBytes (hi : l[i]? = some (.bytes, none)) {f : Bytes → M A α}
    (hf : ∀ a, PanicsIff (f a) (¬ Fits param l (i + 1))) :
    PanicsIff (intoBytes param i output >>= f) (¬ Fits param l i) := by
  refine panicsIff_into hp hi (fun t ht hty => ?_) hf
  cases t with
  | bytes content => exact ⟨content, fun s => by simp [intoBytes, index, ht, run_bind]⟩
  | _ => cases hty

theorem panicsIff_intoAddress (hi : l[i]? = some (.address, none)) {f : H160 → M A α}
    (hf : ∀ a, PanicsIff (f a) (¬ Fits param l (i + 1))) :
    PanicsIff (intoAddress param i output >>= f) (¬ Fits param l i) := by
  refine panicsIff_into hp hi (fun t ht hty => ?_) hf
  cases t with
  | address value => exact ⟨value, fun s => by simp [intoAddress, index, ht, run_bind]⟩
  | _ => cases hty

/-- A parameter that is converted. -/
theorem panicsIff_uint (hi : l[i]? = some (.uint bits, some max)) {f : Nat → M A α}
    (hf : ∀ n, PanicsIff (f n) (¬ Fits param l (i + 1))) :
    PanicsIff (intoUint param i output >>= fun n => asUint max n >>= f) (¬ Fits param l i) := by
  obtain ⟨t, ht, hty⟩ := exists_param hp (List.getElem?_map.trans (congrArg _ hi))
  cases t with
  | uint n =>
    refine panicsIff_pure_bind (a := n) (fun s => by simp [intoUint, index, ht, run_bind]) ?_
    rw [fits_step ht hi]
    intro s
    by_cases hn : n.toNat ≤ max
    · simpa [asUint, hn, run_bind, Token.Within] using hf n.toNat s
    · simp [asUint, hn, run_bind, panicked, Token.Within]
  | _ => cases hty

end

end Parameters

/-! ## The functions -/

section Functions

variable {env : Env A} {h : Handle}

theorem panicsIff_query (answer : RentMachine.State A → MachineId → List Token) :
    PanicsIff (MachineInfo.query env h answer) (¬ InRange env h [(.string, none)]) := by
  refine panicsIff_decodeParam [(.string, none)] fun param hp => ?_
  refine panicsIff_intoString hp rfl fun machineId => ?_
  exact (safe_get fun s => safe_answer _ _).panicsIff not_fits_length

theorem panicsIff_rentFee
    (fee : RentMachine.State A → MachineId → Nat → Nat → Except RentMachine.QuoteError Nat) :
    PanicsIff (MachineInfo.rentFee env h fee)
      (¬ InRange env h [(.string, none), (.uint 256, some u64Max), (.uint 256, some u32Max)]) := by
  refine panicsIff_decodeParam [(.string, none), (.uint 256, _), (.uint 256, _)] fun param hp => ?_
  refine panicsIff_intoString hp rfl fun machineId => ?_
  refine panicsIff_uint hp rfl fun rentDuration => panicsIff_uint hp rfl fun rentGpuCount => ?_
  exact (safe_get fun s => (safe_orRevert _ _).bind fun _ => safe_answer _ _).panicsIff
    not_fits_length

theorem panicsIff_machineInfo (sel : MachineInfo.Selector) :
    PanicsIff (sel.run env h) (¬ InRange env h sel.params) := by
  cases sel with
  | getMachineCalcPoint => exact panicsIff_query _
  | getMachineCPURate => exact panicsIff_query _
  | getMachineGPUCount => exact panicsIff_query _
  | getMachineGPUTypeAndMem => exact panicsIff_query _
  | getRentEndAt =>
    refine panicsIff_decodeParam MachineInfo.Selector.getRentEndAt.params fun param hp => ?_
    refine panicsIff_intoString hp rfl fun machineId => ?_
    refine panicsIff_uint hp rfl fun rentId => ?_
    exact (safe_get fun s => (safe_orRevert _ _).bind fun _ => safe_answer _ _).panicsIff
      not_fits_length
  | isMachineOwner =>
    refine panicsIff_decodeParam MachineInfo.Selector.isMachineOwner.params fun param hp => ?_
    refine panicsIff_intoString hp rfl fun machineId => ?_
    refine panicsIff_intoAddress hp rfl fun evmAddress => ?_
    exact (safe_get fun s => (safe_orRevert _ _).bind fun _ => safe_answer _ _).panicsIff
      not_fits_length
  | getDLCMachineRentFee => exact panicsIff_rentFee _
  | getDBCMachineRentFee => exact panicsIff_rentFee _
  | getUSDTMachineRentFee => exact panicsIff_rentFee _
  | getDLCRentFeeByCalcPoint =>
    refine panicsIff_decodeParam MachineInfo.Selector.getDLCRentFeeByCalcPoint.params
      fun param hp => ?_
    refine panicsIff_uint hp rfl fun calcPoint => ?_
    refine panicsIff_uint hp rfl fun rentDuration => panicsIff_uint hp rfl fun rentGpuCount => ?_
    refine panicsIff_uint hp rfl fun totalGpuCount => ?_
    exact (safe_get fun s => (safe_orRevert _ _).bind fun _ => safe_answer _ _).panicsIff
      not_fits_length

theorem panicsIff_agentTask (sel : AgentTask.Selector) :
    PanicsIff (sel.run env h) (¬ InRange env h sel.params) := by
  cases sel with
  | createTaskOrder =>
    refine panicsIff_decodeParam AgentTask.Selector.createTaskOrder.params fun param hp => ?_
    refine panicsIff_uint hp rfl fun taskId => ?_
    refine panicsIff_intoAddress hp rfl fun minerAddress => ?_
    refine panicsIff_uint hp rfl fun inputTokens => panicsIff_uint hp rfl fun outputTokens => ?_
    exact (safe_get fun s => (safe_mapError _ _).bind fun _ => safe_answer _ _).panicsIff
      not_fits_length
  | queryTaskStatus =>
    refine panicsIff_decodeParam AgentTask.Selector.queryTaskStatus.params fun param hp => ?_
    refine panicsIff_uint hp rfl fun orderId => ?_
    exact (safe_get fun s => (safe_okOr _ _).bind fun _ => safe_answer _ _).panicsIff
      not_fits_length
  | getModelPrice =>
    refine panicsIff_decodeParam AgentTask.Selector.getModelPrice.params fun param hp => ?_
    refine panicsIff_intoBytes hp rfl fun taskIdBytes => ?_
    exact (safe_get fun s => (safe_okOr _ _).bind fun _ => safe_answer _ _).panicsIff
      not_fits_length
  | registerNode =>
    refine panicsIff_decodeParam AgentTask.Selector.registerNode.params fun param hp => ?_
    refine panicsIff_intoBytes hp rfl fun gpuUuid => ?_
    refine panicsIff_uint hp rfl fun tflops => ?_
    exact ((safe_mapError _ _).bind fun _ => safe_answer _ _).panicsIff not_fits_length

/-- The functions that read an identifier charge for it first. -/
theorem panicsIff_readId {cost : Nat} {output : String} {f : Nat → M A α} (hf : ∀ n, Safe (f n)) :
    PanicsIff (readId env h cost output >>= f)
      (Affords env h (some cost) ∧ ¬ InRange env h idParams) := by
  have hpaid : Affords env h (some cost) ↔ env.weightToGas (.parts cost) ≤ h.remainingGas := by
    simp [Affords]
  unfold readId recordCost
  rw [bind_bind, hpaid]
  refine panicsIff_ensure_bind ?_
  rw [bind_bind]
  refine panicsIff_decodeParam idParams fun param hp => ?_
  rw [bind_bind]
  exact panicsIff_uint hp rfl fun n => (hf n).panicsIff not_fits_length

theorem panicsIff_zkCompute (sel : ZkComputePrecompile.Selector) :
    PanicsIff (sel.run env h) (Affords env h sel.charge ∧ ¬ InRange env h idParams) := by
  cases sel with
  | queryTask => exact panicsIff_readId fun _ => safe_get fun _ => safe_pure _
  | claimReward => exact panicsIff_readId fun _ => (safe_mapError _ _).bind fun _ => safe_pure _

theorem panicsIff_computePool (sel : ComputePoolPrecompile.Selector) :
    PanicsIff (sel.run env h) (Affords env h (some 10000) ∧ ¬ InRange env h idParams) := by
  cases sel with
  | queryPool => exact panicsIff_readId fun _ => safe_get fun _ => safe_pure _
  | queryTask => exact panicsIff_readId fun _ => safe_get fun _ => safe_pure _

theorem panicsIff_x402Settlement (sel : X402SettlementPrecompile.Selector) :
    PanicsIff (sel.run env h) (Affords env h (some 10000) ∧ ¬ InRange env h idParams) := by
  cases sel with
  | queryPaymentIntent => exact panicsIff_readId fun _ => safe_get fun _ => safe_pure _
  | querySettlementReceipt => exact panicsIff_readId fun _ => safe_get fun _ => safe_pure _

theorem panicsIff_execute (I : Interface A S) (params : S → List Param) (charge : S → Option Nat)
    (hrun : ∀ sel, PanicsIff (I.run sel env h)
      (Affords env h (charge sel) ∧ ¬ InRange env h (params sel))) :
    PanicsIff (I.execute env h) (¬ I.InRange params charge env h) := by
  have hall : ¬ I.InRange params charge env h ↔ 4 ≤ h.input.length ∧
      ∃ sel, I.select env (fromBeBytes (h.input.take 4)) = some sel ∧
        Affords env h (charge sel) ∧ ¬ InRange env h (params sel) := by
    unfold Interface.InRange
    push Not
    rfl
  rw [hall]
  refine panicsIff_ensure_bind ?_
  dsimp only
  cases hsel : I.select env (fromBeBytes (h.input.take 4)) with
  | none => exact (safe_revert _).panicsIff (by simp)
  | some sel =>
    intro s
    rw [hrun sel s]
    simp

theorem panicsIff_precompile (p : Precompile) :
    PanicsIff (execute p env h) (¬ p.InRange env h) := by
  have hfree : Affords env h none := fun cost hc => by cases hc
  cases p with
  | machineInfo =>
    refine panicsIff_execute _ _ _ fun sel => ?_
    rw [and_iff_right hfree]
    exact panicsIff_machineInfo sel
  | agentTask =>
    refine panicsIff_execute _ _ _ fun sel => ?_
    rw [and_iff_right hfree]
    exact panicsIff_agentTask sel
  | zkCompute => exact panicsIff_execute _ _ _ panicsIff_zkCompute
  | computePool => exact panicsIff_execute _ _ _ panicsIff_computePool
  | x402Settlement => exact panicsIff_execute _ _ _ panicsIff_x402Settlement

end Functions

/-- **An execution panics only over its integers**: it returns or stops with a
`PrecompileFailure`, for every storage and every caller, exactly if the call data are too short,
select nothing, are not paid for, do not decode, or decode to integers that fit. -/
theorem execute_returns_or_fails_iff (p : Precompile) (env : Env A) (h : Handle) (s : Runtime A) :
    ((∃ output, ((execute p env h).run s).1 = .ok output) ∨
      ∃ f, ((execute p env h).run s).1 = .error (.failure f)) ↔ p.InRange env h := by
  have hpanics := (panicsIff_precompile p : PanicsIff (execute p env h) _) s
  rcases hr : ((execute p env h).run s).1 with e | output
  · cases e with
    | failure f => simpa [hr] using hpanics
    | panicked => simpa [hr] using hpanics
  · simpa [hr] using hpanics

/-! ## Call data that panic -/

namespace Demo

/-- Every static parameter is one word; the others are refused. -/
def decodeWords : List ParamType → Bytes → Except String (List Token)
  | [], _ => .ok []
  | .uint _ :: types, input =>
    (decodeWords types (input.drop 32)).map
      (.uint (BitVec.ofNat 256 (fromBeBytes (input.take 32))) :: ·)
  | .address :: types, input =>
    (decodeWords types (input.drop 32)).map
      (.address (BitVec.ofNat 160 (fromBeBytes (input.take 32))) :: ·)
  | _ :: _, _ => .error "InvalidData"

theorem decodeWords_typed (types : List ParamType) (input : Bytes) (param : List Token)
    (h : decodeWords types input = .ok param) : List.Forall₂ Token.IsOf param types := by
  induction types generalizing input param with
  | nil =>
    obtain rfl := Except.ok.inj h
    exact .nil
  | cons ty types ih =>
    cases ty with
    | string => cases h
    | bytes => cases h
    | uint bits =>
      cases hr : decodeWords types (input.drop 32) with
      | error e => simp [decodeWords, hr, Except.map] at h
      | ok rest =>
        simp only [decodeWords, hr, Except.map, Except.ok.injEq] at h
        obtain rfl := h
        exact .cons trivial (ih _ _ hr)
    | address =>
      cases hr : decodeWords types (input.drop 32) with
      | error e => simp [decodeWords, hr, Except.map] at h
      | ok rest =>
        simp only [decodeWords, hr, Except.map, Except.ok.injEq] at h
        obtain rfl := h
        exact .cons trivial (ih _ _ hr)

def selector (signature : String) : Nat := signature.toList.foldl (fun n c => n + c.toNat) 0

def env : Env Nat where
  decode := decodeWords
  typed := decodeWords_typed
  selector := selector
  weightToGas _ := 1
  intoAccountId := BitVec.toNat
  evmAddressToAccount _ := none
  taskMode := ⟨0, .fromPercent 15, .fromPercent 85, 10, 8, 8, 1⟩
  attestation := ⟨1, 1, 10, 1, 8, 8, 1⟩
  zkCompute := ⟨fun _ _ => true, 8, 1, 1, 1, 1, 1, 1, 1, 1, 1, 1, 1, 0⟩
  debugTaskMode _ := ""
  debugAttestation _ := ""
  debugZkCompute _ := ""

/-- A function of each precompile that converts its first parameter. -/
def signature : Precompile → String
  | .machineInfo => MachineInfo.Selector.getDLCRentFeeByCalcPoint.signature
  | .agentTask => AgentTask.Selector.queryTaskStatus.signature
  | .zkCompute => ZkComputePrecompile.Selector.queryTask.signature
  | .computePool => ComputePoolPrecompile.Selector.queryTask.signature
  | .x402Settlement => X402SettlementPrecompile.Selector.queryPaymentIntent.signature

/-- The selector and one word, which is the byte `b` followed by eight zeros. -/
def handle (p : Precompile) (b : Nat) : Handle where
  input := [0, 0, byte (selector (signature p) / 256), byte (selector (signature p))] ++
    List.replicate 23 0 ++ [byte b] ++ List.replicate 8 0
  caller := 7
  remainingGas := 100

def balances : Balances Nat := ⟨∅⟩

def runtime : Runtime Nat where
  rentMachine :=
    { toProfile := .fresh (.fresh ⟨0, balances, none, some⟩)
      book := ⟨∅, 0, ∅, ∅, ∅, ∅⟩
      userTotalStake := ∅
      rentFeePot := none
      maximumRentalDuration := 60
      machineRenterRentedOrders := ∅ }
  taskMode := .fresh 0 balances ⟨none, fun _ => none, fun _ _ h => by cases h⟩
  attestation := .fresh (.fresh 0 balances)
  zkCompute := .fresh 0 balances
  computePool := .fresh 0 balances

end Demo

/-- Two to the power of 64, where the identifier is expected: all five precompiles panic. -/
theorem execute_panics :
    ([.machineInfo, .agentTask, .zkCompute, .computePool, .x402Settlement] : List Precompile).map
      (fun p => ((execute p Demo.env (Demo.handle p 1)).run Demo.runtime).1) =
      List.replicate 5 (.error .panicked) := by
  decide +kernel

end DeepBrainChain.Precompiles
