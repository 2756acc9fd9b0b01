import DeepBrainChain.X402Settlement
import DeepBrainChain.Lib.Escrow

/-!
# The agent-attestation pallet

A registered node attests the result of a task and puts a deposit in its reserve, either by itself
or through the scheduler's callback. Within the challenge window the attestation can be
challenged; after it an unchallenged attestation is confirmed, which also makes x402-settlement
pay the attester. A challenge is resolved by root.
-/

namespace DeepBrainChain.AgentAttestation

open Lib Support X402Settlement Lib.Call

inductive AttestationStatus
  | pending
  | confirmed
  | slashed
  | defended
deriving DecidableEq

structure Attestation (A : Type) where
  id : Nat
  attester : A
  taskId : Nat
  resultHash : H256
  modelId : Bytes
  inputTokens : Nat
  outputTokens : Nat
  deposit : Nat
  status : AttestationStatus
  submittedAt : Nat
  challengeEnd : Nat
  challenger : Option A

structure NodeRegistration (A : Type) where
  owner : A
  gpuUuid : Bytes
  tflops : Nat
  registeredAt : Nat
  lastHeartbeat : Nat
  isActive : Bool

structure AgentCapability (A : Type) where
  owner : A
  modelIds : List Bytes
  maxConcurrent : Nat
  pricePerToken : Nat
  region : Bytes
  updatedAt : Nat

structure Config where
  attestationDeposit : Nat
  challengeWindow : Nat
  slashPercent : Nat
  heartbeatInterval : Nat
  maxModelIdLen : Nat
  maxGpuUuidLen : Nat
  maxModelsPerAgent : Nat

structure State (A : Type) extends toX402 : X402Settlement.State A where
  nextAttestationId : Nat
  attestations : StorageMap Nat (Attestation A)
  nodes : StorageMap A (NodeRegistration A)
  attesterTaskCount : StorageMap (A × Nat) Nat
  agentCapabilities : StorageMap A (AgentCapability A)
  modelProviders : StorageMap (Bytes × A) Bool

inductive Error
  | nodeAlreadyRegistered
  | nodeNotRegistered
  | heartbeatTooEarly
  | attestationNotFound
  | alreadyChallenged
  | challengeWindowExpired
  | challengeWindowNotExpired
  | notAttester
  | invalidStatus
  | insufficientDeposit
  | arithmeticOverflow
  | invalidModelId
  | tooManyModels
  | invalidRegion
  | duplicateAttestation

/-- The errors of the callback, which are texts. -/
inductive CompletionError
  | attestationIdOverflow
  | modelIdTooLong
  | failedToReserveDeposit

variable {A : Type} [DecidableEq A]

omit [DecidableEq A] in
/-- The storage before the first node, over any storage of x402-settlement. -/
def State.fresh (x : X402Settlement.State A) : State A := ⟨x, 0, ∅, ∅, ∅, ∅, ∅⟩

namespace State

section

omit [DecidableEq A]

def setX402 (x : X402Settlement.State A) (s : State A) : State A := { s with toX402 := x }

def setBalances (s : State A) (b : Balances A) : State A := { s with balances := b }

def putAttestation (s : State A) (id : Nat) (a : Attestation A) : State A :=
  { s with attestations := s.attestations.insert id a }

end

end State

/-! ## Nodes -/

def registerNode (cfg : Config) (who : A) (gpuUuid : Bytes) (tflops : Nat) :
    Call (State A) Error Unit := do
  let s ← get
  ensure (s.nodes.contains who = false) .nodeAlreadyRegistered
  ensure (gpuUuid.length ≤ cfg.maxGpuUuidLen) .arithmeticOverflow
  set { s with nodes := s.nodes.insert who ⟨who, gpuUuid, tflops, s.now, s.now, true⟩ }

def heartbeat (cfg : Config) (who : A) : Call (State A) Error Unit := do
  let s ← get
  let node ← okOr (s.nodes.get who) .nodeNotRegistered
  ensure (saturatingAdd u32Max node.lastHeartbeat cfg.heartbeatInterval ≤ s.now)
    .heartbeatTooEarly
  set { s with
    nodes := s.nodes.insert who { node with lastHeartbeat := s.now, isActive := true } }

/-- `update_capability`: the models on file are taken out of the index, the new ones put in. -/
def updateCapability (cfg : Config) (who : A) (modelIds : List Bytes)
    (maxConcurrent pricePerToken : Nat) (region : Bytes) : Call (State A) Error Unit := do
  let s ← get
  ensure (s.nodes.contains who = true) .nodeNotRegistered
  ensure (∀ m ∈ modelIds, m.length ≤ cfg.maxModelIdLen) .invalidModelId
  ensure (modelIds.length ≤ cfg.maxModelsPerAgent) .tooManyModels
  ensure (region.length ≤ 16) .invalidRegion
  let old := (s.agentCapabilities.get who).elim [] AgentCapability.modelIds
  let cleared := old.foldl (fun p m => p.remove (m, who)) s.modelProviders
  set { s with
    modelProviders := modelIds.foldl (fun p m => p.insert (m, who) true) cleared
    agentCapabilities := s.agentCapabilities.insert who
      ⟨who, modelIds, maxConcurrent, pricePerToken, region, s.now⟩ }

/-! ## Attestations -/

omit [DecidableEq A] in
def Attestation.new (cfg : Config) (s : State A) (attester : A) (taskId : Nat)
    (resultHash : H256) (modelId : Bytes) (inputTokens outputTokens : Nat) : Attestation A where
  id := s.nextAttestationId
  attester := attester
  taskId := taskId
  resultHash := resultHash
  modelId := modelId
  inputTokens := inputTokens
  outputTokens := outputTokens
  deposit := cfg.attestationDeposit
  status := .pending
  submittedAt := s.now
  challengeEnd := saturatingAdd u32Max s.now cfg.challengeWindow
  challenger := none

/-- The writes with which an attestation is filed. -/
def State.fileAttestation (s : State A) (b : Balances A) (a : Attestation A) : State A :=
  { s with
    balances := b
    nextAttestationId := s.nextAttestationId + 1
    attestations := s.attestations.insert s.nextAttestationId a
    attesterTaskCount := s.attesterTaskCount.insert (a.attester, a.taskId)
      (saturatingAdd u32Max (s.attesterTaskCount.getD (a.attester, a.taskId) 0) 1) }

def submitAttestation (cfg : Config) (attester : A) (taskId : Nat) (resultHash : H256)
    (modelId : Bytes) (inputTokens outputTokens : Nat) : Call (State A) Error Unit := do
  let s ← get
  ensure (s.nodes.contains attester = true) .nodeNotRegistered
  ensure (s.attesterTaskCount.getD (attester, taskId) 0 = 0) .duplicateAttestation
  let b ← okOr (s.balances.reserve attester cfg.attestationDeposit) .insufficientDeposit
  ensure (modelId.length ≤ cfg.maxModelIdLen) .arithmeticOverflow
  ensure (s.nextAttestationId < u64Max) .arithmeticOverflow
  set (s.fileAttestation b
    (.new cfg s attester taskId resultHash modelId inputTokens outputTokens))

/-- `on_task_completed`: neither a registration nor a first attestation is asked for, and the
identifier is used up even if an error follows. -/
def onTaskCompleted (cfg : Config) (attester : A) (taskId : Nat) (resultHash : H256)
    (modelId : Bytes) (inputTokens outputTokens : Nat) : Call (State A) CompletionError Nat := do
  let s ← get
  let id := s.nextAttestationId
  ensure (id < u64Max) .attestationIdOverflow
  set { s with nextAttestationId := id + 1 }
  ensure (modelId.length ≤ cfg.maxModelIdLen) .modelIdTooLong
  let b ← okOr (s.balances.reserve attester cfg.attestationDeposit) .failedToReserveDeposit
  set (s.fileAttestation b
    (.new cfg s attester taskId resultHash modelId inputTokens outputTokens))
  pure id

omit [DecidableEq A] in
def challengeAttestation (challenger : A) (id : Nat) : Call (State A) Error Unit := do
  let s ← get
  let a ← okOr (s.attestations.get id) .attestationNotFound
  ensure (a.status = .pending) .invalidStatus
  ensure (a.challenger.isNone = true) .alreadyChallenged
  ensure (s.now ≤ a.challengeEnd) .challengeWindowExpired
  set (s.putAttestation id { a with challenger := some challenger })

/-- `confirm_attestation`. The payment of x402-settlement is one from the attester to itself; its
error is dropped. -/
def confirmAttestation (id : Nat) : Call (State A) Error Unit := do
  let s ← get
  let a ← okOr (s.attestations.get id) .attestationNotFound
  ensure (a.status = .pending) .invalidStatus
  ensure (a.challenger.isNone = true) .alreadyChallenged
  ensure (a.challengeEnd < s.now) .challengeWindowNotExpired
  set (s.setBalances (s.balances.unreserve a.attester a.deposit).1)
  ignore (zoom State.toX402 State.setX402
    (settleForAttestation a.attester a.attester a.deposit))
  modify fun s => s.putAttestation id { a with status := .confirmed }

/-- `resolve_challenge`, by root. -/
def resolveChallenge (cfg : Config) (id : Nat) (guilty : Bool) : Call (State A) Error Unit := do
  let s ← get
  let a ← okOr (s.attestations.get id) .attestationNotFound
  ensure (a.status = .pending) .invalidStatus
  ensure (a.challenger.isSome = true) .invalidStatus
  if guilty then
    let slash := (Perbill.fromPercent cfg.slashPercent).mul a.deposit
    let b := (s.balances.slashReserved a.attester slash).1
    set ((s.setBalances (b.unreserve a.attester (a.deposit - slash)).1).putAttestation id
      { a with status := .slashed })
  else
    set ((s.setBalances (s.balances.unreserve a.attester a.deposit).1).putAttestation id
      { a with status := .defended })

/-! # Runs of agent-attestation

Any sequence of extrinsics, callbacks, blocks and foreign steps that leave the reserves alone. The
attestations are an escrow table in which the pending ones hold their deposits. The log of a run
holds the identifiers of the attestations that left the status. -/

open StorageMap Balances

variable {A : Type} [DecidableEq A]

/-- A pending attestation holds its deposit. -/
def attestationTerms : Terms A (Attestation A) where
  owner := Attestation.attester
  due a := if a.status = .pending then a.deposit else 0

inductive Op (A : Type)
  | registerNode (who : A) (gpuUuid : Bytes) (tflops : Nat)
  | heartbeat (who : A)
  | updateCapability (who : A) (modelIds : List Bytes) (maxConcurrent pricePerToken : Nat)
      (region : Bytes)
  | submitAttestation (attester : A) (taskId : Nat) (resultHash : H256) (modelId : Bytes)
      (inputTokens outputTokens : Nat)
  | onTaskCompleted (attester : A) (taskId : Nat) (resultHash : H256) (modelId : Bytes)
      (inputTokens outputTokens : Nat)
  | challengeAttestation (challenger : A) (id : Nat)
  | confirmAttestation (id : Nat)
  | resolveChallenge (id : Nat) (guilty : Bool)
  | nextBlock
  | external (x : X402Settlement.State A)

/-- Nobody else touches the reserves, and no lock reaches into one. -/
def Op.Possible (s : State A) : Op A → Prop
  | .external x => x.now = s.now ∧ (∀ u, x.balances.reserved u = s.balances.reserved u) ∧
      x.balances.issuance ≤ u128Max
  | _ => True

/-- The state after an operation. The scheduler drops the error of the callback, so that a failed
one still uses up its identifier. -/
def apply (cfg : Config) (s : State A) : Op A → State A
  | .registerNode who gpuUuid tflops => ((registerNode cfg who gpuUuid tflops).dispatch s).2
  | .heartbeat who => ((heartbeat cfg who).dispatch s).2
  | .updateCapability who modelIds maxConcurrent pricePerToken region =>
    ((updateCapability cfg who modelIds maxConcurrent pricePerToken region).dispatch s).2
  | .submitAttestation attester taskId resultHash modelId inputTokens outputTokens =>
    ((submitAttestation cfg attester taskId resultHash modelId inputTokens
      outputTokens).dispatch s).2
  | .onTaskCompleted attester taskId resultHash modelId inputTokens outputTokens =>
    ((onTaskCompleted cfg attester taskId resultHash modelId inputTokens outputTokens).run s).2
  | .challengeAttestation challenger id => ((challengeAttestation challenger id).dispatch s).2
  | .confirmAttestation id => ((confirmAttestation id).dispatch s).2
  | .resolveChallenge id guilty => ((resolveChallenge cfg id guilty).dispatch s).2
  | .nextBlock => { s with now := s.now + 1 }
  | .external x => s.setX402 x

def system (cfg : Config) : System (State A) (Op A) where
  init s := ∃ x, s = State.fresh x ∧ (∀ u, x.balances.reserved u = 0) ∧
    x.balances.issuance ≤ u128Max
  step s op s' := op.Possible s ∧ s' = apply cfg s op

section

omit [DecidableEq A]

def Resolved (s : State A) (id : Nat) : Prop :=
  ∃ a, s.attestations.get id = some a ∧ a.status ≠ .pending

instance (s : State A) (id : Nat) : Decidable (Resolved s id) :=
  match h : s.attestations.get id with
  | none => .isFalse fun hr => by
      obtain ⟨a, ha, -⟩ := hr
      rw [h] at ha
      cases ha
  | some a =>
    if hst : a.status = .pending then
      .isFalse fun hr => by
        obtain ⟨x, hx, hne⟩ := hr
        rw [h] at hx
        cases hx
        exact hne hst
    else .isTrue ⟨a, h, hst⟩

end

def leaves (cfg : Config) (s : State A) (op : Op A) : List Nat :=
  (s.attestations.iter.map Prod.fst).filter fun id =>
    ¬ Resolved s id ∧ Resolved (apply cfg s op) id

/-- The deposits of the open attestations are the reserves, and a confirmed one has no
challenger. -/
structure Inv (s : State A) : Prop where
  backed : attestationTerms.Backed s.nextAttestationId s.attestations s.balances
  unchallenged : ∀ id a, s.attestations.get id = some a → a.status = .confirmed →
    a.challenger = none

/-! ## Calls -/

section Calls

variable {cfg : Config} {s s' : State A} {who attester : A} {taskId id : Nat} {resultHash : H256}
  {modelId : Bytes} {inputTokens outputTokens : Nat} {guilty : Bool} {u : Unit}

theorem submitAttestation_ok
    (h : (submitAttestation cfg attester taskId resultHash modelId inputTokens outputTokens).run s =
      (.ok u, s')) :
    ∃ a b, a.status = .pending ∧ s.balances.reserve a.attester a.deposit = some b ∧
      s' = s.fileAttestation b a := by
  unfold submitAttestation at h
  simp only [run_ok] at h
  obtain ⟨-, -, b, hb, -, -, rfl⟩ := h
  exact ⟨_, b, rfl, hb, rfl⟩

omit [DecidableEq A] in
theorem challengeAttestation_ok (h : (challengeAttestation who id).run s = (.ok u, s')) :
    ∃ a, s.attestations.get id = some a ∧ a.status = .pending ∧
      s' = s.putAttestation id { a with challenger := some who } := by
  unfold challengeAttestation at h
  simp only [run_ok] at h
  obtain ⟨a, ha, hst, -, -, rfl⟩ := h
  exact ⟨a, ha, hst, rfl⟩

/-- The payment of an account to itself leaves the ledger as it is, whether it goes through. -/
theorem settleForAttestation_self (x : X402Settlement.State A) (amount : Nat) :
    ((settleForAttestation who who amount).run x).2.balances = x.balances := by
  refine Post.storage (c := settleForAttestation who who amount)
    (I := fun y => y.balances = x.balances) ?_
  unfold settleForAttestation
  simp only [post_step]
  refine ⟨fun _ => ⟨fun b hb => ?_, fun _ => trivial⟩, fun _ => trivial⟩
  simp only [Balances.transfer, or_true, if_true, Option.some.injEq] at hb
  exact hb.symm

theorem confirmAttestation_ok (h : (confirmAttestation id).run s = (.ok u, s')) :
    ∃ a, s.attestations.get id = some a ∧ a.status = .pending ∧ a.challenger = none ∧
      s'.balances = (s.balances.unreserve a.attester a.deposit).1 ∧
      s'.nextAttestationId = s.nextAttestationId ∧
      s'.attestations = s.attestations.insert id { a with status := .confirmed } := by
  unfold confirmAttestation at h
  simp only [run_ok, run_ignore, run_zoom, Option.isNone_iff_eq_none] at h
  obtain ⟨a, ha, hst, hch, -, rfl⟩ := h
  refine ⟨a, ha, hst, hch, ?_, rfl, rfl⟩
  exact settleForAttestation_self ..

section Fields

variable (s : State A) (b : Balances A) (id : Nat) (a : Attestation A)

omit [DecidableEq A]

theorem balances_putAttestation : ((s.setBalances b).putAttestation id a).balances = b := rfl

theorem nextAttestationId_putAttestation :
    ((s.setBalances b).putAttestation id a).nextAttestationId = s.nextAttestationId := rfl

theorem attestations_putAttestation :
    ((s.setBalances b).putAttestation id a).attestations = s.attestations.insert id a := rfl

end Fields

theorem resolveChallenge_ok (h : (resolveChallenge cfg id guilty).run s = (.ok u, s')) :
    ∃ a, s.attestations.get id = some a ∧ a.status = .pending ∧
      s'.nextAttestationId = s.nextAttestationId ∧
      (guilty = true → s'.balances = ((s.balances.slashReserved a.attester ((Perbill.fromPercent
        cfg.slashPercent).mul a.deposit)).1.unreserve a.attester (a.deposit - (Perbill.fromPercent
        cfg.slashPercent).mul a.deposit)).1) ∧
      (guilty = false → s'.balances = (s.balances.unreserve a.attester a.deposit).1) ∧
      s'.attestations = s.attestations.insert id
        { a with status := if guilty then .slashed else .defended } := by
  unfold resolveChallenge at h
  simp only [run_ok] at h
  obtain ⟨a, ha, hst, -, h⟩ := h
  refine ⟨a, ha, hst, ?_⟩
  cases guilty with
  | true =>
    simp only [run_ok, if_true] at h
    obtain rfl := h
    exact ⟨nextAttestationId_putAttestation .., fun _ => balances_putAttestation ..,
      fun hf => (by cases hf), attestations_putAttestation ..⟩
  | false =>
    simp only [run_ok, Bool.false_eq_true, if_false] at h
    obtain rfl := h
    exact ⟨nextAttestationId_putAttestation .., fun hf => (by cases hf),
      fun _ => balances_putAttestation .., attestations_putAttestation ..⟩

end Calls

/-! ## Steps -/

section Steps

variable {cfg : Config} {s s' : State A} {id : Nat} {a k : Attestation A} {b : Balances A}

/-- What every step keeps: the invariant, and the attestations that are resolved. -/
def Kept (s s' : State A) : Prop := Inv s' ∧ ∀ j, Resolved s j → Resolved s' j

theorem Inv.kept (h : Inv s) : Kept s s := ⟨h, fun _ hj => hj⟩

theorem Inv.covered (h : Inv s) (ha : s.attestations.get id = some a) (hst : a.status = .pending) :
    a.deposit ≤ s.balances.reserved a.attester := by
  have hcov := h.backed.covered ha
  simp only [attestationTerms, hst, if_true] at hcov
  exact hcov

theorem Inv.rewrite {n : Nat} {gain : A → Nat} (h : Inv s) (ha : s.attestations.get id = some a)
    (hst : a.status = .pending) (hk : k.attester = a.attester)
    (hdue : attestationTerms.due k + n = a.deposit)
    (hconf : k.status = .confirmed → k.challenger = none)
    (hb : s.balances.Drawn s'.balances a.attester n gain)
    (hn : s'.nextAttestationId = s.nextAttestationId)
    (hp : s'.attestations = s.attestations.insert id k) : Kept s s' := by
  refine ⟨⟨?_, fun j x hx hxst => ?_⟩, ?_⟩
  · rw [hn, hp]
    refine h.backed.draw ha hk ?_ hb
    rw [hdue]
    simp only [attestationTerms, hst, if_true]
  · rw [hp, get_insert] at hx
    split at hx
    · cases hx
      exact hconf hxst
    · exact h.unchallenged j x hx hxst
  · rintro j ⟨x, hx, hne⟩
    refine ⟨x, ?_, hne⟩
    rw [hp, get_insert_ne, hx]
    rintro rfl
    rw [ha] at hx
    cases hx
    exact hne hst

theorem fileAttestation_kept (h : Inv s) (hst : a.status = .pending)
    (hb : s.balances.reserve a.attester a.deposit = some b) : Kept s (s.fileAttestation b a) := by
  have hdue : attestationTerms.due a = a.deposit := by
    simp only [attestationTerms, hst, if_true]
  have hnone := h.backed.next_none
  refine ⟨⟨h.backed.openEntry a (hdue.symm ▸ hb), fun j x hx hxst => ?_⟩, ?_⟩
  · simp only [State.fileAttestation, get_insert] at hx
    split at hx
    · cases hx
      rw [hst] at hxst
      cases hxst
    · exact h.unchallenged j x hx hxst
  · rintro j ⟨x, hx, hne⟩
    refine ⟨x, ?_, hne⟩
    show (s.attestations.insert s.nextAttestationId a).get j = some x
    rw [get_insert_ne, hx]
    rintro rfl
    rw [hnone] at hx
    cases hx

theorem onTaskCompleted_kept (h : Inv s) (attester : A) (taskId : Nat) (resultHash : H256)
    (modelId : Bytes) (inputTokens outputTokens : Nat) :
    Kept s ((onTaskCompleted cfg attester taskId resultHash modelId inputTokens
      outputTokens).run s).2 := by
  have hskip : Kept s { s with nextAttestationId := s.nextAttestationId + 1 } :=
    ⟨⟨h.backed.skip, h.unchallenged⟩, fun _ hj => hj⟩
  refine Post.storage (c := onTaskCompleted cfg attester taskId resultHash modelId inputTokens
    outputTokens) (I := Kept s) ?_
  unfold onTaskCompleted
  simp only [post_step]
  refine ⟨fun _ => ⟨fun _ => ⟨fun b hb => ?_, fun _ => hskip⟩, fun _ => hskip⟩, fun _ => h.kept⟩
  exact fileAttestation_kept h rfl hb

theorem confirm_drawn (h : Inv s) (ha : s.attestations.get id = some a)
    (hst : a.status = .pending) :
    s.balances.Drawn (s.balances.unreserve a.attester a.deposit).1 a.attester a.deposit fun u =>
      if u = a.attester then a.deposit else 0 :=
  unreserve_drawn h.backed.issuance (h.covered ha hst)

theorem slash_drawn (h : Inv s) (ha : s.attestations.get id = some a) (hst : a.status = .pending)
    {slash : Nat} (hle : slash ≤ a.deposit) :
    let b := ((s.balances.slashReserved a.attester slash).1.unreserve a.attester
      (a.deposit - slash)).1
    s.balances.Drawn b a.attester a.deposit
        (fun u => if u = a.attester then a.deposit - slash else 0) ∧
      b.issuance + slash = s.balances.issuance := by
  have hcov := h.covered ha hst
  have hfst := slashReserved_drawn (hle.trans hcov)
  have hissue := hfst.issuance.trans h.backed.issuance
  have hleft : a.deposit - slash ≤
      (s.balances.slashReserved a.attester slash).1.reserved a.attester := by
    rw [slashReserved_reserved, if_pos rfl]
    omega
  have hsnd := unreserve_drawn hissue hleft
  have hboth := hfst.trans hsnd
  rw [Nat.add_sub_cancel' hle] at hboth
  refine ⟨⟨hboth.issuance, hboth.reserved, fun u => ?_⟩, ?_⟩
  · rw [hboth.free u, Nat.zero_add]
  · rw [unreserve_issuance _ _ _ hissue]
    exact slashReserved_issuance (hle.trans hcov)

theorem resolve_drawn {guilty : Bool} {u : Unit} (h : Inv s)
    (hr : (resolveChallenge cfg id guilty).run s = (.ok u, s')) :
    ∃ a, s.attestations.get id = some a ∧ a.status = .pending ∧
      s.balances.Drawn s'.balances a.attester a.deposit (fun u => if u = a.attester then a.deposit -
        (if guilty then (Perbill.fromPercent cfg.slashPercent).mul a.deposit else 0) else 0) ∧
      s'.balances.issuance +
        (if guilty then (Perbill.fromPercent cfg.slashPercent).mul a.deposit else 0) =
          s.balances.issuance := by
  obtain ⟨a, ha, hst, -, hguilty, hfree, -⟩ := resolveChallenge_ok hr
  refine ⟨a, ha, hst, ?_⟩
  cases guilty with
  | true =>
    rw [hguilty rfl]
    exact slash_drawn h ha hst (Perbill.mul_le _ _)
  | false =>
    rw [hfree rfl]
    exact ⟨confirm_drawn h ha hst, unreserve_issuance _ _ _ h.backed.issuance⟩

theorem dispatch_kept {ε α : Type} {c : Call (State A) ε α} (h : Inv s)
    (hc : ∀ x t, c.run s = (.ok x, t) → Kept s t) : Kept s (c.dispatch s).2 :=
  dispatch_keeps (I := Kept s) h.kept hc

theorem Inv.aside (h : Inv s) (hn : s'.nextAttestationId = s.nextAttestationId)
    (hp : s'.attestations = s.attestations) (hb : s'.balances = s.balances) : Kept s s' := by
  refine ⟨⟨?_, ?_⟩, ?_⟩
  · rw [hn, hp, hb]
    exact h.backed
  · rw [hp]
    exact h.unchallenged
  · rintro j ⟨x, hx, hne⟩
    exact ⟨x, by rw [hp, hx], hne⟩

theorem apply_kept {op : Op A} (h : Inv s) (hpos : op.Possible s) : Kept s (apply cfg s op) := by
  cases op with
  | registerNode who gpuUuid tflops =>
    refine dispatch_kept h fun _ t hr => ?_
    unfold registerNode at hr
    simp only [run_ok] at hr
    obtain ⟨-, -, rfl⟩ := hr
    exact h.aside rfl rfl rfl
  | heartbeat who =>
    refine dispatch_kept h fun _ t hr => ?_
    unfold heartbeat at hr
    simp only [run_ok] at hr
    obtain ⟨node, -, -, rfl⟩ := hr
    exact h.aside rfl rfl rfl
  | updateCapability who modelIds maxConcurrent pricePerToken region =>
    refine dispatch_kept h fun _ t hr => ?_
    unfold updateCapability at hr
    simp only [run_ok] at hr
    obtain ⟨-, -, -, -, rfl⟩ := hr
    exact h.aside rfl rfl rfl
  | submitAttestation attester taskId resultHash modelId inputTokens outputTokens =>
    refine dispatch_kept h fun _ t hr => ?_
    obtain ⟨a, b, hst, hb, rfl⟩ := submitAttestation_ok hr
    exact fileAttestation_kept h hst hb
  | onTaskCompleted attester taskId resultHash modelId inputTokens outputTokens =>
    exact onTaskCompleted_kept h attester taskId resultHash modelId inputTokens outputTokens
  | challengeAttestation challenger id =>
    refine dispatch_kept h fun _ t hr => ?_
    obtain ⟨a, ha, hst, rfl⟩ := challengeAttestation_ok hr
    refine h.rewrite (k := { a with challenger := some challenger }) ha hst rfl ?_ ?_
      (.refl _ _) rfl rfl
    · simp only [attestationTerms, hst, if_true]
      rfl
    · intro hc
      rw [hst] at hc
      cases hc
  | confirmAttestation id =>
    refine dispatch_kept h fun _ t hr => ?_
    obtain ⟨a, ha, hst, hch, hb, hn, hp⟩ := confirmAttestation_ok hr
    refine h.rewrite (k := { a with status := .confirmed }) ha hst rfl ?_ (fun _ => hch)
      (hb ▸ confirm_drawn h ha hst) hn hp
    exact Nat.zero_add _
  | resolveChallenge id guilty =>
    refine dispatch_kept h fun _ t hr => ?_
    obtain ⟨a, ha, hst, hdrawn, -⟩ := resolve_drawn h hr
    obtain ⟨x, hx, -, hn, -, -, hp⟩ := resolveChallenge_ok hr
    rw [ha] at hx
    cases hx
    refine h.rewrite (k := { a with status := if guilty then .slashed else .defended }) ha hst rfl
      ?_ (fun hc => ?_) hdrawn hn hp
    · cases guilty <;> exact Nat.zero_add _
    · cases guilty <;> cases hc
  | nextBlock => exact h.aside rfl rfl rfl
  | external x =>
    exact ⟨⟨h.backed.setBalances hpos.2.1 hpos.2.2, h.unchallenged⟩, fun _ hj => hj⟩

theorem reach_inv {C : State A → Op A → Prop} (hs : (system cfg).Reach C s) : Inv s := by
  refine hs.invariant (I := Inv) ?_ ?_
  · rintro _ ⟨x, rfl, hres, hb⟩
    refine ⟨Terms.Backed.start _ hres hb, fun id a ha => ?_⟩
    simp [State.fresh] at ha
  · rintro s op _ h - ⟨hpos, rfl⟩
    exact (apply_kept h hpos).1

theorem leaves_step (op : Op A) :
    (leaves cfg s op).Nodup ∧
      ∀ id ∈ leaves cfg s op, ¬ Resolved s id ∧ Resolved (apply cfg s op) id := by
  refine ⟨s.attestations.iter_keys_nodup.filter _, fun id hid => ?_⟩
  exact of_decide_eq_true (List.mem_filter.1 hid).2

omit [DecidableEq A] in
theorem challenge_rejected_iff {who : A} (ha : s.attestations.get id = some a)
    (hst : a.status = .pending) (hch : a.challenger = none) :
    ((challengeAttestation who id).run s).1 = .error .challengeWindowExpired ↔
      a.challengeEnd < s.now := by
  by_cases ht : s.now ≤ a.challengeEnd
  · simp [challengeAttestation, run_bind, run_ensure, ha, hst, hch, ht]
  · simp [challengeAttestation, run_bind, run_ensure, ha, hst, hch, ht, Nat.lt_of_not_le ht]

theorem confirm_rejected_iff (ha : s.attestations.get id = some a)
    (hst : a.status = .pending) (hch : a.challenger = none) :
    ((confirmAttestation id).run s).1 = .error .challengeWindowNotExpired ↔
      s.now ≤ a.challengeEnd := by
  by_cases ht : s.now ≤ a.challengeEnd
  · simp [confirmAttestation, run_bind, run_ensure, ha, hst, hch, ht, Nat.not_lt.2 ht]
  · simp [confirmAttestation, run_bind, run_ensure, ha, hst, hch, ht, Nat.lt_of_not_le ht]

end Steps

/-- **Deposits are resolved once, and the windows exclude each other.** -/
theorem attestations_resolved_once (cfg : Config) (s : State A) (log : List Nat)
    (hs : ((system cfg).logged (leaves cfg)).Reach (fun _ _ => True) (s, log)) :
    (∀ u, s.balances.reserved u = attestationTerms.held s.attestations u) ∧
      log.Nodup ∧
      (∀ id s', (confirmAttestation id).run s = (.ok (), s') → ∃ a, s.attestations.get id = some a ∧
        s.balances.Drawn s'.balances a.attester a.deposit fun u => if u = a.attester then a.deposit
        else 0) ∧
      (∀ id guilty s', (resolveChallenge cfg id guilty).run s = (.ok (), s') → ∃ a,
        s.attestations.get id = some a ∧ s.balances.Drawn s'.balances a.attester a.deposit (fun u =>
        if u = a.attester then a.deposit - (if guilty then (Perbill.fromPercent
        cfg.slashPercent).mul a.deposit else 0) else 0) ∧ s'.balances.issuance + (if guilty then
        (Perbill.fromPercent cfg.slashPercent).mul a.deposit else 0) = s.balances.issuance) ∧
      (∀ id a, s.attestations.get id = some a →
        ¬ (a.challenger.isSome = true ∧ a.status = .confirmed)) ∧
      ∀ id a, s.attestations.get id = some a → a.status = .pending → a.challenger = none →
        ∀ who, ((challengeAttestation who id).run s).1 = .error .challengeWindowExpired ↔
          ¬ ((confirmAttestation id).run s).1 = .error .challengeWindowNotExpired := by
  have h := reach_inv (System.Reach.unlog (C := fun _ _ => True) hs)
  refine ⟨h.backed.backed, ?_, ?_, ?_, ?_, ?_⟩
  · refine (System.Reach.log_nodup (C := fun _ _ => True) (K := Resolved) hs ?_ ?_).1
    · rintro t op _ ht - ⟨hpos, rfl⟩
      exact (apply_kept (reach_inv ht) hpos).2
    · rintro t op _ - - ⟨-, rfl⟩
      exact leaves_step op
  · intro id s' hr
    obtain ⟨a, ha, hst, -, hb, -, -⟩ := confirmAttestation_ok hr
    exact ⟨a, ha, hb ▸ confirm_drawn h ha hst⟩
  · intro id guilty s' hr
    obtain ⟨a, ha, -, hdrawn, hissue⟩ := resolve_drawn h hr
    exact ⟨a, ha, hdrawn, hissue⟩
  · rintro id a ha ⟨hch, hst⟩
    rw [h.unchallenged id a ha hst] at hch
    cases hch
  · intro id a ha hst hch who
    rw [challenge_rejected_iff ha hst hch, confirm_rejected_iff ha hst hch, Nat.not_le]

/-! ## Two attestations

The node 1 attests one task itself and another through the callback; account 2 challenges the
second. -/

namespace Demo

def config : Config where
  attestationDeposit := 100
  challengeWindow := 1
  slashPercent := 30
  heartbeatInterval := 5
  maxModelIdLen := 8
  maxGpuUuidLen := 8
  maxModelsPerAgent := 2

def balances : Balances Nat := ⟨(∅ : StorageMap Nat AccountData).insert 1 ⟨1000, 0, 0⟩⟩

def ops : List (Op Nat) :=
  [.registerNode 1 [] 5, .submitAttestation 1 7 0 [] 1 1, .onTaskCompleted 1 8 0 [] 1 1,
    .challengeAttestation 2 1, .nextBlock, .nextBlock, .confirmAttestation 0,
    .resolveChallenge 1 true, .confirmAttestation 1]

def next (r : State Nat × List Nat) (op : Op Nat) : State Nat × List Nat :=
  (apply config r.1 op, r.2 ++ leaves config r.1 op)

def run (n : Nat) : State Nat × List Nat :=
  (ops.take n).foldl next (.fresh (.fresh 1 balances), [])

theorem run_reach (n : Nat) :
    ((system config).logged (leaves config)).Reach (fun _ _ => True) (run n) := by
  have hstart := reserved_of_iter (b := balances) (by decide +kernel)
  refine System.Reach.path (P := fun r op => op.Possible r.1)
    (.init ⟨⟨.fresh 1 balances, rfl, hstart, by decide +kernel⟩, rfl⟩)
    (fun r op hpos => ⟨trivial, ⟨hpos, rfl⟩, rfl⟩) (System.Path.of_forall (fun op hop r => ?_) _)
  have hall : ∀ op ∈ ops, op.Possible r.1 := by simp [ops, Op.Possible]
  exact hall op (List.mem_of_mem_take hop)

end Demo

/-- Two deposits are held for the pending attestations; the first comes back whole, thirty of the
second are slashed, and each is in the log once. -/
theorem attestations_resolved_once_demo :
    (Demo.run 4).1.balances.reserved 1 = 200 ∧
      attestationTerms.held (Demo.run 4).1.attestations 1 = 200 ∧
      (Demo.run 9).1.balances.free 1 = 970 ∧ (Demo.run 9).2 = [0, 1] ∧ (Demo.run 9).2.Nodup := by
  have h4 := (attestations_resolved_once Demo.config _ _ (Demo.run_reach 4)).1 1
  have h9 := (attestations_resolved_once Demo.config _ _ (Demo.run_reach 9)).2.1
  have hres : (Demo.run 4).1.balances.reserved 1 = 200 := by decide +kernel
  exact ⟨hres, h4.symm.trans hres, by decide +kernel, by decide +kernel, h9⟩

end DeepBrainChain.AgentAttestation
