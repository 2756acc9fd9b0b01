import DeepBrainChain.Lib.Balances
import DeepBrainChain.Lib.Call
import DeepBrainChain.Support.Machine
import DeepBrainChain.Lib.System
import Mathlib.Data.List.Perm.Basic
import Mathlib.Logic.Relation

/-!
# The zk-compute pallet

A miner submits a proof with a deposit in its reserve. The verdict comes either from `verify_task`,
which runs the verifier, or from an unsigned transaction, which carries it. A rejected task loses
its deposit to the pallet's account; for an accepted one the miner claims the reward and gets the
deposit back.
-/

namespace DeepBrainChain.ZkCompute

open Lib Support Lib.Call

inductive ZkVerificationStatus
  | pending
  | verified
  | failed
deriving DecidableEq

structure ZkTask (A : Type) where
  taskId : Nat
  miner : A
  proof : Bytes
  dimensions : Nat × Nat × Nat
  status : ZkVerificationStatus
  baseReward : Nat
  multiplierQ100 : Nat
  submittedAt : Nat
  submissionDeposit : Nat
  rewardClaimed : Bool

structure Config (A : Type) where
  verify : Bytes → Nat × Nat × Nat → Bool
  maxProofSize : Nat
  maxPendingTasks : Nat
  maxVerifiedTasks : Nat
  maxPendingPerMiner : Nat
  baseReward : Nat
  submissionDeposit : Nat
  verificationTimeout : Nat
  initialMinerScore : Nat
  minMinerScoreToSubmit : Nat
  maxMinerScore : Nat
  scoreOnSuccess : Nat
  scorePenaltyOnFailure : Nat
  accountId : A

structure State (A : Type) where
  now : Nat
  balances : Balances A
  nextTaskId : Nat
  tasks : StorageMap Nat (ZkTask A)
  pendingTasks : List Nat
  verifiedTasks : List Nat
  minerScores : StorageMap A Nat
  usedNonces : StorageMap (A × Nat) Bool
  minerPendingCount : StorageMap A Nat

inductive Error
  | taskNotFound
  | taskIdOverflow
  | proofTooLarge
  | invalidDimensions
  | invalidMultiplier
  | invalidTaskStatus
  | rewardAlreadyClaimed
  | taskNotVerified
  | notTaskMiner
  | arithmeticOverflow
  | nonceAlreadyUsed
  | tooManyPendingTasks
  | tooManyVerifiedTasks
  | tooManyPendingTasksForMiner
  | insufficientMinerScore
  | balanceTransferFailed
  /-- An error of the currency, passed on. -/
  | currency

variable {A : Type} [DecidableEq A]

section

omit [DecidableEq A]

def State.fresh (now : Nat) (balances : Balances A) : State A :=
  ⟨now, balances, 0, ∅, [], [], ∅, ∅, ∅⟩

def State.setBalances (s : State A) (b : Balances A) : State A := { s with balances := b }

end

/-! ## Helpers -/

def volume (d : Nat × Nat × Nat) : Option Nat :=
  (checkedMul u128Max d.1 d.2.1).bind fun v => checkedMul u128Max v d.2.2

def validDimensions (d : Nat × Nat × Nat) : Bool :=
  if d.1 = 0 ∨ d.2.1 = 0 ∨ d.2.2 = 0 then false else (volume d).isSome

omit [DecidableEq A] in
def ZkTask.calculateReward (t : ZkTask A) : Option Nat := do
  let v ← volume t.dimensions
  let scaled ← checkedMul u128Max t.baseReward v
  let numerator ← checkedMul u128Max scaled t.multiplierQ100
  some (numerator / 100000000)

/-- `swap_remove`: the last entry takes the place of the one removed. -/
def swapRemove (l : List Nat) (i : Nat) : List Nat :=
  match l.getLast? with
  | none => l
  | some x => (l.set i x).dropLast

def removeFromPending (queue : List Nat) (id : Nat) : List Nat :=
  match queue.findIdx? (· = id) with
  | none => queue
  | some i => swapRemove queue i

def currentMinerScore (cfg : Config A) (s : State A) (miner : A) : Nat :=
  s.minerScores.getD miner cfg.initialMinerScore

def increaseScore (cfg : Config A) (s : State A) (miner : A) : State A :=
  { s with
    minerScores := s.minerScores.insert miner
      (min (saturatingAdd u32Max (currentMinerScore cfg s miner) cfg.scoreOnSuccess)
        cfg.maxMinerScore) }

def decreaseScore (cfg : Config A) (s : State A) (miner : A) : State A :=
  { s with
    minerScores := s.minerScores.insert miner
      (currentMinerScore cfg s miner - cfg.scorePenaltyOnFailure) }

omit [DecidableEq A] in
def ZkTask.judge (t : ZkTask A) (verified : Bool) : ZkTask A :=
  { t with status := if verified then .verified else .failed }

/-- What a verdict writes either way: the status, and the task leaves the queue. -/
def State.judge (s : State A) (id : Nat) (t : ZkTask A) (verified : Bool) : State A :=
  { s with
    tasks := s.tasks.insert id (t.judge verified)
    pendingTasks := removeFromPending s.pendingTasks id
    minerPendingCount := s.minerPendingCount.insert t.miner
      (s.minerPendingCount.getD t.miner 0 - 1) }

/-! ## Calls -/

def submitProof (cfg : Config A) (miner : A) (proof : Bytes) (dimensions : Nat × Nat × Nat)
    (multiplierQ100 nonce : Nat) : Call (State A) Error Unit := do
  let s ← get
  ensure (validDimensions dimensions = true) .invalidDimensions
  ensure (120 ≤ multiplierQ100 ∧ multiplierQ100 ≤ 150) .invalidMultiplier
  ensure (s.usedNonces.getD (miner, nonce) false = false) .nonceAlreadyUsed
  ensure (cfg.minMinerScoreToSubmit ≤ currentMinerScore cfg s miner) .insufficientMinerScore
  ensure (s.minerPendingCount.getD miner 0 < cfg.maxPendingPerMiner)
    .tooManyPendingTasksForMiner
  ensure (proof.length ≤ cfg.maxProofSize) .proofTooLarge
  let b ← okOr (s.balances.reserve miner cfg.submissionDeposit) .currency
  ensure (s.nextTaskId < u64Max) .taskIdOverflow
  ensure (s.pendingTasks.length < cfg.maxPendingTasks) .tooManyPendingTasks
  set { s with
    balances := b
    nextTaskId := s.nextTaskId + 1
    tasks := s.tasks.insert s.nextTaskId
      { taskId := s.nextTaskId
        miner := miner
        proof := proof
        dimensions := dimensions
        status := .pending
        baseReward := cfg.baseReward
        multiplierQ100 := multiplierQ100
        submittedAt := s.now
        submissionDeposit := cfg.submissionDeposit
        rewardClaimed := false }
    pendingTasks := s.pendingTasks ++ [s.nextTaskId]
    usedNonces := s.usedNonces.insert (miner, nonce) true
    minerPendingCount := s.minerPendingCount.insert miner
      (saturatingAdd u32Max (s.minerPendingCount.getD miner 0) 1) }

/-- `verify_task`, open to every account. After the deadline the verifier is not asked. -/
def verifyTask (cfg : Config A) (id : Nat) : Call (State A) Error Unit := do
  let s ← get
  let t ← okOr (s.tasks.get id) .taskNotFound
  ensure (t.status = .pending) .invalidTaskStatus
  let deadline ← okOr (checkedAdd u32Max t.submittedAt cfg.verificationTimeout)
    .arithmeticOverflow
  let verified := if deadline < s.now then false else cfg.verify t.proof t.dimensions
  if verified then
    ensure (s.verifiedTasks.length < cfg.maxVerifiedTasks) .tooManyVerifiedTasks
    set (increaseScore cfg
      { s.judge id t true with verifiedTasks := s.verifiedTasks ++ [id] } t.miner)
  else
    let r ← okOr (s.balances.repatriateReserved t.miner cfg.accountId t.submissionDeposit)
      .currency
    set ((decreaseScore cfg (s.judge id t false) t.miner).setBalances r.1)

def claimReward (cfg : Config A) (who : A) (id : Nat) : Call (State A) Error Unit := do
  let s ← get
  let t ← okOr (s.tasks.get id) .taskNotFound
  ensure (t.miner = who) .notTaskMiner
  ensure (t.status = .verified) .taskNotVerified
  ensure (t.rewardClaimed = false) .rewardAlreadyClaimed
  let reward ← okOr t.calculateReward .arithmeticOverflow
  let b ← okOr (s.balances.transfer cfg.accountId t.miner reward) .balanceTransferFailed
  set { s with
    balances := (b.unreserve t.miner t.submissionDeposit).1
    tasks := s.tasks.insert id { t with rewardClaimed := true } }

/-- `submit_verification_unsigned`. The verdict is an argument; a full list of verified tasks and
a failed repatriation are ignored. -/
def submitVerificationUnsigned (cfg : Config A) (id : Nat) (verified : Bool) :
    Call (State A) Error Unit := do
  let s ← get
  let t ← okOr (s.tasks.get id) .taskNotFound
  ensure (t.status = .pending) .invalidTaskStatus
  if verified then
    set (increaseScore cfg
      { s.judge id t true with
        verifiedTasks :=
          if s.verifiedTasks.length < cfg.maxVerifiedTasks then s.verifiedTasks ++ [id]
          else s.verifiedTasks } t.miner)
  else
    let b := match s.balances.repatriateReserved t.miner cfg.accountId t.submissionDeposit with
      | some r => r.1
      | none => s.balances
    set ((decreaseScore cfg (s.judge id t false) t.miner).setBalances b)

/-! ## Unsigned transactions -/

inductive InvalidTransaction
  | badProof
  | stale

section

omit [DecidableEq A]

/-- `validate_unsigned` of a verdict on `id`; its source is not looked at. -/
def State.validateUnsigned (s : State A) (id : Nat) : Except InvalidTransaction Unit :=
  match s.tasks.get id with
  | none => .error .badProof
  | some t => if t.status = .pending then .ok () else .error .stale

/-- `ocw_verify_pending_tasks`: the verdicts an off-chain worker submits. -/
def State.ocwVerifyPendingTasks (cfg : Config A) (s : State A) : List (Nat × Bool) :=
  s.pendingTasks.filterMap fun id =>
    match s.tasks.get id with
    | some t => if t.status = .pending then some (id, cfg.verify t.proof t.dimensions) else none
    | none => none

end

/-! # Runs of zk-compute

Any sequence of extrinsics, unsigned verdicts that pass `validate_unsigned`, blocks and foreign
transfers that leave the reserves alone. One lemma a call says what it does to the tasks and to
the ledger. -/

inductive Op (A : Type)
  | submitProof (miner : A) (proof : Bytes) (dimensions : Nat × Nat × Nat)
      (multiplierQ100 nonce : Nat)
  | verifyTask (id : Nat)
  | claimReward (who : A) (id : Nat)
  | submitVerificationUnsigned (id : Nat) (verified : Bool)
  | nextBlock
  | external (balances : Balances A)

/-- A verdict is accepted by `validate_unsigned`; nobody else touches the reserves, and no lock
reaches into one. -/
def Op.Possible (s : State A) : Op A → Prop
  | .submitVerificationUnsigned id _ => (s.validateUnsigned id).isOk = true
  | .external b => (∀ u, b.reserved u = s.balances.reserved u) ∧ b.issuance ≤ u128Max
  | _ => True

def apply (cfg : Config A) (s : State A) : Op A → State A
  | .submitProof miner proof dimensions multiplierQ100 nonce =>
    ((submitProof cfg miner proof dimensions multiplierQ100 nonce).dispatch s).2
  | .verifyTask id => ((verifyTask cfg id).dispatch s).2
  | .claimReward who id => ((claimReward cfg who id).dispatch s).2
  | .submitVerificationUnsigned id verified =>
    ((submitVerificationUnsigned cfg id verified).dispatch s).2
  | .nextBlock => { s with now := s.now + 1 }
  | .external b => s.setBalances b

def system (cfg : Config A) : System (State A) (Op A) where
  init s := ∃ now b, s = State.fresh now b ∧ (∀ u, b.reserved u = 0) ∧ b.issuance ≤ u128Max
  step s op s' := op.Possible s ∧ s' = apply cfg s op

/-- The runs in which others may also touch the reserves and any verdict gets in. -/
def openSystem (cfg : Config A) : System (State A) (Op A) where
  init s := ∃ now b, s = State.fresh now b
  step s op s' := s' = apply cfg s op

theorem reach_open {cfg : Config A} {C : State A → Op A → Prop} {s : State A}
    (h : (system cfg).Reach C s) : (openSystem cfg).Reach C s := by
  induction h with
  | init h =>
    obtain ⟨now, b, h, -⟩ := h
    exact .init ⟨now, b, h⟩
  | step _ hc hs ih => exact .step ih hc hs.2

/-! ## What the calls write -/

section Calls

variable {cfg : Config A} {s s' : State A} {miner who : A} {proof : Bytes}
  {dimensions : Nat × Nat × Nat} {multiplierQ100 nonce id : Nat} {verified : Bool} {u : Unit}

/-- The new task `t` waits for its verdict, its deposit reserved. -/
structure Opened (s s' : State A) (t : ZkTask A) : Prop where
  pending : t.status = .pending
  unclaimed : t.rewardClaimed = false
  reserved : s.balances.reserve t.miner t.submissionDeposit = some s'.balances
  next : s'.nextTaskId = s.nextTaskId + 1
  tasks : s'.tasks = s.tasks.insert s.nextTaskId t

/-- The pending task `t` got its verdict. -/
structure Judged (s s' : State A) (id : Nat) (t : ZkTask A) (verified : Bool) : Prop where
  get : s.tasks.get id = some t
  pending : t.status = .pending
  next : s'.nextTaskId = s.nextTaskId
  tasks : s'.tasks = s.tasks.insert id (t.judge verified)

theorem submitProof_ok
    (h : (submitProof cfg miner proof dimensions multiplierQ100 nonce).run s = (.ok u, s')) :
    ∃ t, Opened s s' t := by
  unfold submitProof at h
  simp only [run_ok] at h
  obtain ⟨-, -, -, -, -, -, -, b, hb, -, -, rfl⟩ := h
  exact ⟨_, rfl, rfl, hb, rfl, rfl⟩

theorem verifyTask_ok (h : (verifyTask cfg id).run s = (.ok u, s')) :
    ∃ t, (Judged s s' id t true ∧ s'.balances = s.balances ∧
        cfg.verify t.proof t.dimensions = true ∧ s.now ≤ t.submittedAt + cfg.verificationTimeout) ∨
      (Judged s s' id t false ∧ ∃ rest,
        s.balances.repatriateReserved t.miner cfg.accountId t.submissionDeposit =
          some (s'.balances, rest)) := by
  unfold verifyTask at h
  simp only [run_ok, checkedAdd_eq_some] at h
  obtain ⟨t, ht, hst, deadline, -, rfl, h⟩ := h
  refine ⟨t, ?_⟩
  by_cases hlate : t.submittedAt + cfg.verificationTimeout < s.now
  · simp only [run_ok, hlate, if_true, Bool.false_eq_true, if_false] at h
    obtain ⟨r, hr, rfl⟩ := h
    exact .inr ⟨⟨ht, hst, rfl, rfl⟩, r.2, hr⟩
  · cases hv : cfg.verify t.proof t.dimensions with
    | true =>
      simp only [run_ok, hlate, hv, if_true, if_false] at h
      obtain ⟨-, rfl⟩ := h
      exact .inl ⟨⟨ht, hst, rfl, rfl⟩, rfl, rfl, Nat.le_of_not_lt hlate⟩
    | false =>
      simp only [run_ok, hlate, hv, Bool.false_eq_true, if_false] at h
      obtain ⟨r, hr, rfl⟩ := h
      exact .inr ⟨⟨ht, hst, rfl, rfl⟩, r.2, hr⟩

theorem claimReward_ok (h : (claimReward cfg who id).run s = (.ok u, s')) :
    ∃ t reward b, s.tasks.get id = some t ∧ t.status = .verified ∧ t.rewardClaimed = false ∧
      t.calculateReward = some reward ∧
      s.balances.transfer cfg.accountId t.miner reward = some b ∧
      s'.balances = (b.unreserve t.miner t.submissionDeposit).1 ∧
      s'.nextTaskId = s.nextTaskId ∧
      s'.tasks = s.tasks.insert id { t with rewardClaimed := true } := by
  unfold claimReward at h
  simp only [run_ok] at h
  obtain ⟨t, ht, -, hst, hcl, reward, hrew, b, hb, rfl⟩ := h
  exact ⟨t, reward, b, ht, hst, hcl, hrew, hb, rfl, rfl, rfl⟩

/-- An unsigned verdict moves the deposit of a rejected task only if the currency agrees. -/
theorem submitVerificationUnsigned_ok
    (h : (submitVerificationUnsigned cfg id verified).run s = (.ok u, s')) :
    ∃ t, Judged s s' id t verified ∧
      (verified = true → s'.balances = s.balances) ∧
      (verified = false → ∀ r,
        s.balances.repatriateReserved t.miner cfg.accountId t.submissionDeposit = some r →
          s'.balances = r.1) := by
  unfold submitVerificationUnsigned at h
  simp only [run_ok] at h
  obtain ⟨t, ht, hst, h⟩ := h
  refine ⟨t, ?_⟩
  cases verified with
  | true =>
    simp only [run_ok, if_true] at h
    obtain rfl := h
    exact ⟨⟨ht, hst, rfl, rfl⟩, fun _ => rfl, fun hf => (by cases hf)⟩
  | false =>
    simp only [run_ok, Bool.false_eq_true, if_false] at h
    obtain rfl := h
    refine ⟨⟨ht, hst, rfl, rfl⟩, fun hf => (by cases hf), fun _ r hr => ?_⟩
    simp only [State.setBalances, hr]

end Calls

/-! ## Verdicts

`verify_task` accepts a task only if the verifier does, and in time. An unsigned verdict is taken
as it comes: `validate_unsigned` looks at the status of the task alone, so that anybody can have a
task accepted. The tasks accepted are those the verifier accepts as long as the unsigned verdicts
say what the verifier says. -/

open StorageMap

section

omit [DecidableEq A]

/-- An unsigned acceptance is the verdict of the verifier, and comes in time. -/
def Truthful (cfg : Config A) (s : State A) : Op A → Prop
  | .submitVerificationUnsigned id true => ∀ t, s.tasks.get id = some t →
      cfg.verify t.proof t.dimensions = true ∧ s.now ≤ t.submittedAt + cfg.verificationTimeout
  | _ => True

/-- The tasks accepted in `s'` were accepted in `s`, or just now by the verifier and in time. -/
def Accepted (cfg : Config A) (s s' : State A) : Prop :=
  ∀ id t', s'.tasks.get id = some t' → t'.status = .verified →
    (∃ t, s.tasks.get id = some t ∧ t.status = .verified ∧ t'.proof = t.proof ∧
      t'.dimensions = t.dimensions) ∨
    (cfg.verify t'.proof t'.dimensions = true ∧ s.now ≤ t'.submittedAt + cfg.verificationTimeout)

end

section Steps

variable {cfg : Config A} {s s' : State A} {id : Nat} {t k : ZkTask A}

section

omit [DecidableEq A]

theorem Accepted.refl (cfg : Config A) (s : State A) : Accepted cfg s s :=
  fun _ t ht hst => .inl ⟨t, ht, hst, rfl, rfl⟩

theorem Accepted.insert (hp : s'.tasks = s.tasks.insert id k)
    (hk : k.status = .verified →
      (∃ t, s.tasks.get id = some t ∧ t.status = .verified ∧ k.proof = t.proof ∧
        k.dimensions = t.dimensions) ∨
      (cfg.verify k.proof k.dimensions = true ∧
        s.now ≤ k.submittedAt + cfg.verificationTimeout)) : Accepted cfg s s' := by
  intro j x hx hst
  rw [hp, get_insert] at hx
  split at hx
  · next hj =>
    cases hx
    rw [hj]
    exact hk hst
  · exact .inl ⟨x, hx, hst, rfl, rfl⟩

theorem Judged.accepted {verified : Bool} (h : Judged s s' id t verified)
    (hv : verified = true → cfg.verify t.proof t.dimensions = true ∧
      s.now ≤ t.submittedAt + cfg.verificationTimeout) : Accepted cfg s s' := by
  refine .insert h.tasks fun hst => .inr ?_
  cases verified with
  | true => exact hv rfl
  | false => cases hst

theorem dispatch_accepted {ε α : Type} {c : Call (State A) ε α}
    (hc : ∀ a t, c.run s = (.ok a, t) → Accepted cfg s t) : Accepted cfg s (c.dispatch s).2 :=
  dispatch_keeps (I := Accepted cfg s) (.refl cfg s) hc

/-- An unsigned verdict is that of the verifier, and `verify_task` is called in time. -/
def Honest (cfg : Config A) (s : State A) : Op A → Prop
  | .submitVerificationUnsigned id verified =>
    ∀ t, s.tasks.get id = some t → verified = cfg.verify t.proof t.dimensions
  | .verifyTask id =>
    ∀ t, s.tasks.get id = some t → s.now ≤ t.submittedAt + cfg.verificationTimeout
  | _ => True

def ZkTask.Fair (cfg : Config A) (t : ZkTask A) : Prop :=
  t.status = .pending ∨ t.status = if cfg.verify t.proof t.dimensions then .verified else .failed

def State.Fair (cfg : Config A) (s : State A) : Prop :=
  ∀ id t, s.tasks.get id = some t → t.Fair cfg

theorem ocwVerifyPendingTasks_honest {verified : Bool}
    (h : (id, verified) ∈ s.ocwVerifyPendingTasks cfg) :
    Honest cfg s (.submitVerificationUnsigned id verified) := by
  intro t ht
  obtain ⟨j, -, hj⟩ := List.mem_filterMap.1 h
  cases hg : s.tasks.get j with
  | none => simp [hg] at hj
  | some x =>
    simp only [hg, Option.ite_none_right_eq_some, Option.some.injEq, Prod.mk.injEq] at hj
    obtain ⟨-, rfl, hv⟩ := hj
    cases ht.symm.trans hg
    exact hv.symm

/-- The verdicts of an off-chain worker are truthful while the time for them lasts. -/
theorem ocwVerifyPendingTasks_truthful {verified : Bool}
    (h : (id, verified) ∈ s.ocwVerifyPendingTasks cfg)
    (htime : ∀ t, s.tasks.get id = some t → s.now ≤ t.submittedAt + cfg.verificationTimeout) :
    Truthful cfg s (.submitVerificationUnsigned id verified) := by
  cases verified with
  | false => trivial
  | true => exact fun t ht => ⟨(ocwVerifyPendingTasks_honest h t ht).symm, htime t ht⟩

theorem dispatch_fair {ε α : Type} {c : Call (State A) ε α} (h : s.Fair cfg)
    (hc : ∀ a s', c.run s = (.ok a, s') → ∃ id k, s'.tasks = s.tasks.insert id k ∧ k.Fair cfg) :
    (c.dispatch s).2.Fair cfg := by
  refine dispatch_keeps h fun a s' hr j x hx => ?_
  obtain ⟨id, k, hp, hk⟩ := hc a s' hr
  rw [hp, get_insert] at hx
  split at hx
  · exact Option.some.inj hx ▸ hk
  · exact h j x hx

end

theorem apply_accepted {op : Op A} (ht : Truthful cfg s op) : Accepted cfg s (apply cfg s op) := by
  cases op with
  | submitProof miner proof dimensions multiplierQ100 nonce =>
    refine dispatch_accepted fun _ s' hr => ?_
    obtain ⟨k, hk⟩ := submitProof_ok hr
    refine .insert hk.tasks fun hst => ?_
    rw [hk.pending] at hst
    cases hst
  | verifyTask id =>
    refine dispatch_accepted fun _ s' hr => ?_
    obtain ⟨t, ⟨hj, -, hv⟩ | ⟨hj, -⟩⟩ := verifyTask_ok hr
    · exact hj.accepted fun _ => hv
    · exact hj.accepted fun hf => (by cases hf)
  | claimReward who id =>
    refine dispatch_accepted fun _ s' hr => ?_
    obtain ⟨t, reward, b, hget, hst, -, -, -, -, -, htasks⟩ := claimReward_ok hr
    exact .insert htasks fun _ => .inl ⟨t, hget, hst, rfl, rfl⟩
  | submitVerificationUnsigned id verified =>
    refine dispatch_accepted fun _ s' hr => ?_
    obtain ⟨t, hj, -, -⟩ := submitVerificationUnsigned_ok hr
    refine hj.accepted fun hv => ?_
    subst hv
    exact ht t hj.get
  | nextBlock => exact .refl cfg s
  | external b => exact .refl cfg s

theorem verifyTask_judged {u : Unit} (h : (verifyTask cfg id).run s = (.ok u, s'))
    (htime : Honest cfg s (.verifyTask id)) :
    ∃ t, Judged s s' id t (cfg.verify t.proof t.dimensions) := by
  unfold verifyTask at h
  simp only [run_ok, checkedAdd_eq_some] at h
  obtain ⟨t, ht, hst, _, -, rfl, h⟩ := h
  rw [if_neg (Nat.not_lt.2 (htime t ht))] at h
  refine ⟨t, ?_⟩
  cases hv : cfg.verify t.proof t.dimensions <;>
    simp only [hv, run_ok, if_true, Bool.false_eq_true, if_false] at h
  · obtain ⟨_, -, rfl⟩ := h
    exact ⟨ht, hst, rfl, rfl⟩
  · obtain ⟨-, rfl⟩ := h
    exact ⟨ht, hst, rfl, rfl⟩

theorem apply_fair {op : Op A} (h : s.Fair cfg) (hop : Honest cfg s op) :
    (apply cfg s op).Fair cfg := by
  cases op with
  | nextBlock | external => exact h
  | submitProof =>
    refine dispatch_fair h fun _ s' hr => ?_
    obtain ⟨k, hk⟩ := submitProof_ok hr
    exact ⟨_, k, hk.tasks, .inl hk.pending⟩
  | verifyTask id =>
    refine dispatch_fair h fun _ s' hr => ?_
    obtain ⟨t, hj⟩ := verifyTask_judged hr hop
    exact ⟨id, _, hj.tasks, .inr rfl⟩
  | claimReward who id =>
    refine dispatch_fair h fun _ s' hr => ?_
    obtain ⟨t, _, _, ht, -, -, -, -, -, -, htasks⟩ := claimReward_ok hr
    exact ⟨id, _, htasks, h id t ht⟩
  | submitVerificationUnsigned id verified =>
    refine dispatch_fair h fun _ s' hr => ?_
    obtain ⟨t, hj, -⟩ := submitVerificationUnsigned_ok hr
    rw [hop t hj.get] at hj
    exact ⟨id, _, hj.tasks, .inr rfl⟩

end Steps

/-- **A task is accepted only on a valid proof**, in every run whose unsigned acceptances are what
the verifier says and come in time: the verifier accepts every task that has the status, each was
accepted before its deadline, and a reward is paid only for such a task. -/
theorem verified_only_valid (cfg : Config A) (s : State A)
    (hs : (openSystem cfg).Reach (Truthful cfg) s) :
    (∀ id t, s.tasks.get id = some t → t.status = .verified →
      cfg.verify t.proof t.dimensions = true) ∧
    (∀ op : Op A, Truthful cfg s op → ∀ id t', (apply cfg s op).tasks.get id = some t' →
      t'.status = .verified → (∃ t, s.tasks.get id = some t ∧ t.status = .verified) ∨
        s.now ≤ t'.submittedAt + cfg.verificationTimeout) ∧
    ∀ who id s', (claimReward cfg who id).run s = (.ok (), s') →
      ∃ t, s.tasks.get id = some t ∧ cfg.verify t.proof t.dimensions = true := by
  have hvalid : ∀ id t, s.tasks.get id = some t → t.status = .verified →
      cfg.verify t.proof t.dimensions = true := by
    refine hs.invariant (I := fun s => ∀ id t, s.tasks.get id = some t → t.status = .verified →
      cfg.verify t.proof t.dimensions = true) ?_ ?_
    · rintro _ ⟨now, b, rfl⟩ id t ht
      simp [State.fresh] at ht
    · rintro s op _ ih hc rfl id t' ht' hst'
      rcases apply_accepted hc id t' ht' hst' with ⟨t, ht, hst, hproof, hdim⟩ | ⟨hv, -⟩
      · rw [hproof, hdim]
        exact ih id t ht hst
      · exact hv
  refine ⟨hvalid, fun op hc id t' ht' hst' => ?_, fun who id s' hr => ?_⟩
  · rcases apply_accepted hc id t' ht' hst' with ⟨t, ht, hst, -⟩ | ⟨-, htime⟩
    · exact .inl ⟨t, ht, hst⟩
    · exact .inr htime
  · obtain ⟨t, reward, b, hget, hst, -⟩ := claimReward_ok hr
    exact ⟨t, hget, hvalid id t hget hst⟩

/-- **The status of a task is the verdict of the verifier**, in every run whose verdicts are honest
and in time: no valid proof costs its miner the deposit. Off-chain workers are honest. -/
theorem status_is_verdict (cfg : Config A) (s : State A)
    (hs : (openSystem cfg).Reach (Honest cfg) s) :
    s.Fair cfg ∧ ∀ id verified, (id, verified) ∈ s.ocwVerifyPendingTasks cfg →
      Honest cfg s (.submitVerificationUnsigned id verified) := by
  refine ⟨?_, fun _ _ => ocwVerifyPendingTasks_honest⟩
  refine hs.invariant ?_ ?_
  · rintro _ ⟨now, b, rfl⟩ id t ht
    cases ht
  · rintro s op _ ih hop rfl
    exact apply_fair ih hop

/-! ## One task

The miner 1 submits a proof of one byte; the pallet's account 0 holds the rewards. The verifier
accepts the byte 1 only. -/

namespace Demo

def config : Config Nat where
  verify := fun proof _ => proof = [byte 1]
  maxProofSize := 8
  maxPendingTasks := 4
  maxVerifiedTasks := 4
  maxPendingPerMiner := 2
  baseReward := 1000000
  submissionDeposit := 50
  verificationTimeout := 5
  initialMinerScore := 100
  minMinerScoreToSubmit := 1
  maxMinerScore := 200
  scoreOnSuccess := 1
  scorePenaltyOnFailure := 1
  accountId := 0

def funded : Balances Nat :=
  ⟨((∅ : StorageMap Nat AccountData).insert 0 ⟨1000, 0, 0⟩).insert 1 ⟨100, 0, 0⟩⟩

def start (b : Balances Nat) : State Nat := .fresh 1 b

theorem start_init {b : Balances Nat} (hb : b.issuance ≤ u128Max)
    (h : ∀ e ∈ b.accounts.iter, e.2.reserved = 0) : (system config).init (start b) :=
  ⟨1, b, rfl, Balances.reserved_of_iter h, hb⟩

/-- The miner submits the byte `n`, and somebody reports the verdict. -/
def reported (b : Balances Nat) (n : Nat) (verified : Bool) : State Nat :=
  apply config (apply config (start b) (.submitProof 1 [byte n] (1, 1, 1) 120 0))
    (.submitVerificationUnsigned 0 verified)

theorem reported_reach {C : State Nat → Op Nat → Prop} {b : Balances Nat} {n : Nat}
    {verified : Bool} (hinit : (system config).init (start b))
    (hpos : ((apply config (start b)
      (.submitProof 1 [byte n] (1, 1, 1) 120 0)).validateUnsigned 0).isOk = true)
    (hfst : C (start b) (.submitProof 1 [byte n] (1, 1, 1) 120 0))
    (hsnd : C (apply config (start b) (.submitProof 1 [byte n] (1, 1, 1) 120 0))
      (.submitVerificationUnsigned 0 verified)) :
    (system config).Reach C (reported b n verified) :=
  .step (.step (.init hinit) hfst ⟨trivial, rfl⟩) hsnd ⟨hpos, rfl⟩

end Demo

/-- A valid proof is accepted on a truthful report, and the miner gets its reward. -/
theorem verified_only_valid_demo :
    ((Demo.reported Demo.funded 1 true).tasks.get 0).map ZkTask.status = some .verified ∧
      (∃ t, (Demo.reported Demo.funded 1 true).tasks.get 0 = some t ∧
        Demo.config.verify t.proof t.dimensions = true) ∧
      (apply Demo.config (Demo.reported Demo.funded 1 true) (.claimReward 1 0)).balances.free 1 =
        101 := by
  have hreach : (system Demo.config).Reach (Truthful Demo.config)
      (Demo.reported Demo.funded 1 true) := by
    refine Demo.reported_reach (Demo.start_init (by decide +kernel) (by decide +kernel))
      (by decide +kernel) trivial fun t ht => ?_
    have hall : ∀ e ∈ (apply Demo.config (Demo.start Demo.funded)
        (.submitProof 1 [byte 1] (1, 1, 1) 120 0)).tasks.iter,
        Demo.config.verify e.2.proof e.2.dimensions = true ∧
          (apply Demo.config (Demo.start Demo.funded)
            (.submitProof 1 [byte 1] (1, 1, 1) 120 0)).now ≤ e.2.submittedAt + 5 := by
      decide +kernel
    exact hall (0, t) (mem_iter.2 ht)
  have hok :
      ((claimReward Demo.config 1 0).run (Demo.reported Demo.funded 1 true)).1.isOk = true := by
    decide +kernel
  obtain ⟨u, hr⟩ := run_of_isOk hok
  exact ⟨by decide +kernel, (verified_only_valid Demo.config _ (reach_open hreach)).2.2 1 0 _ hr,
    by decide +kernel⟩

/-- A report that nobody checks: the verifier rejects the proof, yet the task is accepted and the
miner is paid. -/
theorem unsigned_verdict_unchecked :
    ∃ s : State Nat, (system Demo.config).Reach (fun _ _ => True) s ∧
      (s.tasks.get 0).map (fun t => (t.status, Demo.config.verify t.proof t.dimensions)) =
        some (.verified, false) ∧
      s.balances.free 1 = 50 ∧
      (apply Demo.config s (.claimReward 1 0)).balances.free 1 = 101 := by
  refine ⟨Demo.reported Demo.funded 2 true, Demo.reported_reach
    (Demo.start_init (by decide +kernel) (by decide +kernel)) (by decide +kernel) trivial trivial,
    by decide +kernel, by decide +kernel, by decide +kernel⟩

theorem status_is_verdict_demo : (Demo.reported Demo.funded 2 false).Fair Demo.config := by
  have hinit := Demo.start_init (b := Demo.funded) (by decide +kernel) (by decide +kernel)
  refine (status_is_verdict Demo.config _ (reach_open
    (Demo.reported_reach hinit (by decide +kernel) trivial ?_))).1
  exact ocwVerifyPendingTasks_honest (by decide +kernel)

/-! # The queue of pending tasks

Four pieces of storage describe one thing: the statuses of the tasks, the queue, the number of
pending tasks of each miner, and the next id. The board collects them, and every operation of a
run makes one of three moves on it or none. -/

open StorageMap List

/-! ## Removal from the queue -/

theorem cons_swapRemove_perm {l : List Nat} {i : Nat} (h : i < l.length) :
    (l[i] :: swapRemove l i).Perm l := by
  obtain ⟨ys, x, rfl⟩ : ∃ ys x, l = ys ++ [x] := by
    have hne : l ≠ [] := ne_nil_of_length_pos (by omega)
    exact ⟨l.dropLast, l.getLast hne, (dropLast_append_getLast hne).symm⟩
  have hrm : swapRemove (ys ++ [x]) i = ((ys ++ [x]).set i x).dropLast := by
    simp [swapRemove]
  rw [hrm]
  by_cases hi : i < ys.length
  · rw [set_append_left _ _ hi, dropLast_concat, getElem_append_left hi]
    have hset : (ys[i] :: ys.set i x).Perm (x :: ys[i] :: ys.eraseIdx i) :=
      ((set_perm_cons_eraseIdx hi x).cons _).trans (List.Perm.swap _ _ _)
    have hback : (x :: ys[i] :: ys.eraseIdx i).Perm (x :: ys) :=
      (getElem_cons_eraseIdx_perm hi).cons x
    exact (hset.trans hback).trans (perm_append_singleton x ys).symm
  · have hi' : i = ys.length := by
      rw [length_append, length_singleton] at h
      omega
    subst hi'
    simpa using (perm_append_singleton x ys).symm

theorem cons_removeFromPending_perm {queue : List Nat} {id : Nat} (h : id ∈ queue) :
    (id :: removeFromPending queue id).Perm queue := by
  unfold removeFromPending
  cases hf : queue.findIdx? (· = id) with
  | none =>
    rw [List.findIdx?_eq_none_iff] at hf
    exact absurd (hf id h) (by simp)
  | some i =>
    obtain ⟨hi, hid, -⟩ := List.findIdx?_eq_some_iff_getElem.1 hf
    have hget : queue[i] = id := of_decide_eq_true hid
    have hperm := cons_swapRemove_perm hi
    rw [hget] at hperm
    exact hperm

/-! ## The board -/

variable {A : Type} [DecidableEq A]

structure Board (A : Type) where
  next : Nat
  tasks : StorageMap Nat (ZkTask A)
  queue : List Nat
  count : StorageMap A Nat

omit [DecidableEq A] in
def State.board (s : State A) : Board A :=
  ⟨s.nextTaskId, s.tasks, s.pendingTasks, s.minerPendingCount⟩

namespace Board

def submit (b : Board A) (t : ZkTask A) : Board A where
  next := b.next + 1
  tasks := b.tasks.insert b.next t
  queue := b.queue ++ [b.next]
  count := b.count.insert t.miner (saturatingAdd u32Max (b.count.getD t.miner 0) 1)

def judge (b : Board A) (id : Nat) (t : ZkTask A) (verified : Bool) : Board A where
  next := b.next
  tasks := b.tasks.insert id (t.judge verified)
  queue := removeFromPending b.queue id
  count := b.count.insert t.miner (b.count.getD t.miner 0 - 1)

omit [DecidableEq A] in
def claim (b : Board A) (id : Nat) (t : ZkTask A) : Board A :=
  { b with tasks := b.tasks.insert id { t with rewardClaimed := true } }

inductive Moves (cfg : Config A) (b : Board A) : Board A → Prop
  | stay : Moves cfg b b
  | submit (t : ZkTask A) (pending : t.status = .pending) (unclaimed : t.rewardClaimed = false)
      (room : b.count.getD t.miner 0 < cfg.maxPendingPerMiner) : Moves cfg b (b.submit t)
  | judge (id : Nat) (t : ZkTask A) (verified : Bool) (get : b.tasks.get id = some t)
      (pending : t.status = .pending) : Moves cfg b (b.judge id t verified)
  | claim (id : Nat) (t : ZkTask A) (get : b.tasks.get id = some t)
    (accepted : t.status = .verified)
      (unclaimed : t.rewardClaimed = false) : Moves cfg b (b.claim id t)

def pendingOf (b : Board A) (m : A) : Nat :=
  b.tasks.sum fun _ t => if t.status = .pending ∧ t.miner = m then 1 else 0

/-- Queue and counters follow the tasks: the queue holds the pending ones once each, a miner's counter
their number, within the limit. -/
structure Exact (cfg : Config A) (b : Board A) : Prop where
  fresh : ∀ id, b.next ≤ id → b.tasks.get id = none
  nodup : b.queue.Nodup
  mem : ∀ id, id ∈ b.queue ↔ ∃ t, b.tasks.get id = some t ∧ t.status = .pending
  count : ∀ m, b.count.getD m 0 = b.pendingOf m
  limit : ∀ m, b.pendingOf m ≤ cfg.maxPendingPerMiner
  paid : ∀ id t, b.tasks.get id = some t → t.rewardClaimed = true → t.status = .verified

/-- What a later board still knows of an earlier one. -/
structure Later (b b' : Board A) : Prop where
  next : b.next ≤ b'.next
  /-- A task keeps its id and its data. A verdict and a claim are final. -/
  keep : ∀ id t, b.tasks.get id = some t → ∃ t', b'.tasks.get id = some t' ∧
    t' = { t with status := t'.status, rewardClaimed := t'.rewardClaimed } ∧
    (t.status ≠ .pending → t'.status = t.status) ∧
    (t.rewardClaimed = true → t'.rewardClaimed = true)
  /-- A new task has a new id. -/
  new : ∀ id t', b'.tasks.get id = some t' → b.tasks.get id = none → b.next ≤ id

end Board

section Moves

variable {cfg : Config A} {b b' b'' : Board A} {id : Nat} {t : ZkTask A} {m : A}

section

omit [DecidableEq A]

theorem Board.Later.refl (b : Board A) : b.Later b := by
  refine ⟨Nat.le_refl _, fun _ t ht => ⟨t, ht, rfl, fun _ => rfl, fun h => h⟩,
    fun id t' ht' hn => ?_⟩
  rw [hn] at ht'
  cases ht'

theorem Board.Later.trans (h : b.Later b') (h' : b'.Later b'') : b.Later b'' := by
  refine ⟨h.next.trans h'.next, fun id t ht => ?_, fun id t'' ht'' hn => ?_⟩
  · obtain ⟨t', ht', he, hst, hcl⟩ := h.keep id t ht
    obtain ⟨t'', ht'', he', hst', hcl'⟩ := h'.keep id t' ht'
    refine ⟨t'', ht'', ?_, fun hne => ?_, fun hc => hcl' (hcl hc)⟩
    · rw [he'] at ht'' ⊢
      rw [he]
    · have hne' : t'.status ≠ .pending := by rwa [hst hne]
      rw [hst' hne', hst hne]
  · cases hb : b'.tasks.get id with
    | some t' => exact h.new id t' hb hn
    | none => exact h.next.trans (h'.new id t'' ht'' hb)

theorem Board.Later.of_insert {k : ZkTask A} {q : List Nat} {c : StorageMap A Nat}
    (get : b.tasks.get id = some t)
    (hk : k = { t with status := k.status, rewardClaimed := k.rewardClaimed })
    (hst : t.status ≠ .pending → k.status = t.status)
    (hcl : t.rewardClaimed = true → k.rewardClaimed = true) :
    b.Later ⟨b.next, b.tasks.insert id k, q, c⟩ := by
  refine ⟨Nat.le_refl _, fun j x hx => ?_, fun j x hx hn => ?_⟩
  · by_cases hj : j = id
    · subst hj
      rw [get] at hx
      cases hx
      exact ⟨k, get_insert_self .., hk, hst, hcl⟩
    · exact ⟨x, by rw [get_insert_ne _ _ hj, hx], rfl, fun _ => rfl, fun h => h⟩
  · simp only [get_insert] at hx
    split at hx
    · next hj =>
      rw [hj, get] at hn
      cases hn
    · rw [hn] at hx
      cases hx

end

theorem Board.Moves.later (h : b.Exact cfg) (hm : b.Moves cfg b') : b.Later b' := by
  cases hm with
  | stay => exact .refl b
  | submit t pending unclaimed room =>
    refine ⟨Nat.le_succ _, fun j x hx => ?_, fun j x hx hn => ?_⟩
    · have hj : j ≠ b.next := by
        rintro rfl
        rw [h.fresh _ (Nat.le_refl _)] at hx
        cases hx
      exact ⟨x, by rw [Board.submit, get_insert_ne _ _ hj, hx], rfl, fun _ => rfl,
        fun h => h⟩
    · simp only [Board.submit, get_insert] at hx
      split at hx
      · next hj => exact Nat.le_of_eq hj.symm
      · rw [hn] at hx
        cases hx
  | judge id t verified get pending =>
    refine .of_insert get rfl (fun hne => absurd pending hne) (fun hc => hc)
  | claim id t get accepted unclaimed =>
    exact .of_insert get rfl (fun _ => rfl) (fun _ => rfl)

omit [DecidableEq A] in
theorem claimed_of_insert {k t t' : ZkTask A} {j : Nat} {tasks : StorageMap Nat (ZkTask A)}
    (ht : tasks.get id = some t) (ht' : (tasks.insert j k).get id = some t')
    (hcl : t.rewardClaimed = false) (hcl' : t'.rewardClaimed = true) :
    id = j ∧ k.rewardClaimed = true := by
  rw [get_insert] at ht'
  split at ht'
  · next hj =>
    cases ht'
    exact ⟨hj, hcl'⟩
  · rw [ht] at ht'
    cases ht'
    rw [hcl] at hcl'
    cases hcl'

theorem Board.Moves.accepted {t' : ZkTask A} (hm : b.Moves cfg b') (ht : b.tasks.get id = some t)
    (ht' : b'.tasks.get id = some t') (hcl : t.rewardClaimed = false)
    (hcl' : t'.rewardClaimed = true) : t.status = .verified := by
  cases hm with
  | stay =>
    rw [ht] at ht'
    cases ht'
    rw [hcl] at hcl'
    cases hcl'
  | submit k pending unclaimed room =>
    have hk := (claimed_of_insert ht ht' hcl hcl').2
    rw [unclaimed] at hk
    cases hk
  | judge j k verified get pending =>
    obtain ⟨rfl, hk⟩ := claimed_of_insert ht ht' hcl hcl'
    rw [get] at ht
    cases ht
    rw [ZkTask.judge, hcl] at hk
    cases hk
  | claim j k get accepted unclaimed =>
    obtain ⟨rfl, -⟩ := claimed_of_insert ht ht' hcl hcl'
    rw [get] at ht
    cases ht
    exact accepted

/-! ### Counting -/

theorem Board.pendingOf_submit (h : b.Exact cfg) (pending : t.status = .pending) (m : A) :
    (b.submit t).pendingOf m = b.pendingOf m + if t.miner = m then 1 else 0 := by
  unfold Board.pendingOf Board.submit
  simp only
  rw [sum_insert_of_none _ t (h.fresh _ (Nat.le_refl _))]
  simp only [pending, true_and]
  omega

theorem Board.pendingOf_judge (verified : Bool) (get : b.tasks.get id = some t)
    (pending : t.status = .pending) (m : A) :
    (b.judge id t verified).pendingOf m + (if t.miner = m then 1 else 0) = b.pendingOf m := by
  have hsum := sum_insert_of_some
    (fun _ (t : ZkTask A) => if t.status = .pending ∧ t.miner = m then 1 else 0)
    (t.judge verified) get
  have hnot : (t.judge verified).status ≠ .pending := by cases verified <;> intro h <;> cases h
  simp only [pending, hnot, true_and, false_and, if_false, Nat.add_zero] at hsum
  exact hsum

theorem Board.pendingOf_claim (get : b.tasks.get id = some t) (m : A) :
    (b.claim id t).pendingOf m = b.pendingOf m :=
  sum_insert_same
    (fun _ (t : ZkTask A) => if t.status = .pending ∧ t.miner = m then 1 else 0) get rfl

/-! ### Every move keeps the pieces in agreement -/

theorem Board.Exact.submit (hmax : cfg.maxPendingPerMiner ≤ u32Max) (h : b.Exact cfg)
    (pending : t.status = .pending) (unclaimed : t.rewardClaimed = false)
    (room : b.count.getD t.miner 0 < cfg.maxPendingPerMiner) : (b.submit t).Exact cfg := by
  have hnext : b.next ∉ b.queue := by
    intro hq
    obtain ⟨x, hx, -⟩ := (h.mem _).1 hq
    rw [h.fresh _ (Nat.le_refl _)] at hx
    cases hx
  refine ⟨fun j hj => ?_, ?_, fun j => ?_, fun m => ?_, fun m => ?_, fun j x hx hcl => ?_⟩
  · have hj' : b.next + 1 ≤ j := hj
    rw [Board.submit, get_insert_ne _ _ (by omega)]
    exact h.fresh j (by omega)
  · exact nodup_append.2 ⟨h.nodup, nodup_singleton _, by
      rintro x hx _ hy rfl
      rw [mem_singleton.1 hy] at hx
      exact hnext hx⟩
  · simp only [Board.submit, mem_append, mem_singleton, get_insert]
    by_cases hj : j = b.next
    · subst hj
      simp [pending]
    · simp [hj, h.mem]
  · rw [Board.pendingOf_submit h pending, ← h.count]
    simp only [Board.submit, getD_insert]
    by_cases hm : m = t.miner
    · subst hm
      rw [if_pos rfl, if_pos rfl, saturatingAdd_of_le (by omega)]
    · rw [if_neg hm, if_neg (Ne.symm hm), Nat.add_zero]
  · rw [Board.pendingOf_submit h pending]
    by_cases hm : t.miner = m
    · subst hm
      rw [if_pos rfl, ← h.count]
      exact room
    · rw [if_neg hm]
      exact h.limit m
  · simp only [Board.submit, get_insert] at hx
    split at hx
    · cases hx
      rw [unclaimed] at hcl
      cases hcl
    · exact h.paid j x hx hcl

theorem Board.Exact.judge {verified : Bool} (h : b.Exact cfg) (get : b.tasks.get id = some t)
    (pending : t.status = .pending) : (b.judge id t verified).Exact cfg := by
  have hperm := cons_removeFromPending_perm ((h.mem id).2 ⟨t, get, pending⟩)
  obtain ⟨hnot, hnodup⟩ := nodup_cons.1 (hperm.nodup_iff.2 h.nodup)
  have hjudged : (t.judge verified).status ≠ .pending := by
    cases verified <;> intro h <;> cases h
  refine ⟨fun j hj => ?_, hnodup, fun j => ?_, fun m => ?_, fun m => ?_, fun j x hx hcl => ?_⟩
  · have hne : j ≠ id := by
      rintro rfl
      rw [h.fresh j hj] at get
      cases get
    rw [Board.judge, get_insert_ne _ _ hne]
    exact h.fresh j hj
  · simp only [Board.judge, get_insert]
    by_cases hj : j = id
    · subst hj
      simp [hnot, hjudged]
    · rw [if_neg hj, ← h.mem, ← hperm.mem_iff]
      simp [hj]
  · have hsum := Board.pendingOf_judge verified get pending m
    rw [← h.count] at hsum
    simp only [Board.judge, getD_insert] at hsum ⊢
    by_cases hm : m = t.miner
    · subst hm
      rw [if_pos rfl]
      rw [if_pos rfl] at hsum
      exact Nat.sub_eq_of_eq_add hsum.symm
    · rw [if_neg hm]
      rw [if_neg (Ne.symm hm)] at hsum
      exact hsum.symm
  · have hsum := Board.pendingOf_judge verified get pending m
    have hle := h.limit m
    omega
  · simp only [Board.judge, get_insert] at hx
    split at hx
    · cases hx
      have hv := h.paid id t get hcl
      rw [pending] at hv
      cases hv
    · exact h.paid j x hx hcl

theorem Board.Exact.claim (h : b.Exact cfg) (get : b.tasks.get id = some t)
    (accepted : t.status = .verified) : (b.claim id t).Exact cfg := by
  refine ⟨fun j hj => ?_, h.nodup, fun j => ?_, fun m => ?_, fun m => ?_, fun j x hx hcl => ?_⟩
  · have hne : j ≠ id := by
      rintro rfl
      rw [h.fresh j hj] at get
      cases get
    rw [Board.claim, get_insert_ne _ _ hne]
    exact h.fresh j hj
  · simp only [Board.claim, get_insert]
    by_cases hj : j = id
    · subst hj
      simp [h.mem, get, accepted]
    · simp [hj, h.mem]
  · rw [Board.pendingOf_claim get]
    exact h.count m
  · rw [Board.pendingOf_claim get]
    exact h.limit m
  · simp only [Board.claim, get_insert] at hx
    split at hx
    · cases hx
      exact accepted
    · exact h.paid j x hx hcl

theorem Board.Exact.moves (hmax : cfg.maxPendingPerMiner ≤ u32Max) (h : b.Exact cfg)
    (hm : b.Moves cfg b') : b'.Exact cfg := by
  cases hm with
  | stay => exact h
  | submit t pending unclaimed room => exact h.submit hmax pending unclaimed room
  | judge id t verified get pending => exact h.judge get pending
  | claim id t get accepted unclaimed => exact h.claim get accepted

end Moves

/-! ## The operations move the board -/

section Calls

variable {cfg : Config A} {s s' : State A} {miner who : A} {proof : Bytes}
  {dimensions : Nat × Nat × Nat} {multiplierQ100 nonce id : Nat} {verified : Bool} {u : Unit}

theorem submitProof_moves
    (h : (submitProof cfg miner proof dimensions multiplierQ100 nonce).run s = (.ok u, s')) :
    s.board.Moves cfg s'.board := by
  unfold submitProof at h
  simp only [run_ok] at h
  obtain ⟨-, -, -, -, -, hroom, -, b, -, -, -, rfl⟩ := h
  exact Board.Moves.submit (b := s.board)
    { taskId := s.nextTaskId
      miner := miner
      proof := proof
      dimensions := dimensions
      status := .pending
      baseReward := cfg.baseReward
      multiplierQ100 := multiplierQ100
      submittedAt := s.now
      submissionDeposit := cfg.submissionDeposit
      rewardClaimed := false } rfl rfl hroom

theorem verifyTask_moves (h : (verifyTask cfg id).run s = (.ok u, s')) :
    s.board.Moves cfg s'.board := by
  unfold verifyTask at h
  simp only [run_ok, checkedAdd_eq_some] at h
  obtain ⟨t, ht, hst, deadline, -, rfl, h⟩ := h
  generalize (if t.submittedAt + cfg.verificationTimeout < s.now then false
    else cfg.verify t.proof t.dimensions) = v at h
  split at h
  · simp only [run_ok] at h
    obtain ⟨-, rfl⟩ := h
    exact Board.Moves.judge (b := s.board) id t true ht hst
  · simp only [run_ok] at h
    obtain ⟨r, -, rfl⟩ := h
    exact Board.Moves.judge (b := s.board) id t false ht hst

theorem claimReward_board (h : (claimReward cfg who id).run s = (.ok u, s')) :
    s.board.Moves cfg s'.board := by
  unfold claimReward at h
  simp only [run_ok] at h
  obtain ⟨t, ht, -, hst, hcl, reward, -, b, -, rfl⟩ := h
  exact Board.Moves.claim (b := s.board) id t ht hst hcl

theorem submitVerificationUnsigned_moves
    (h : (submitVerificationUnsigned cfg id verified).run s = (.ok u, s')) :
    s.board.Moves cfg s'.board := by
  unfold submitVerificationUnsigned at h
  simp only [run_ok] at h
  obtain ⟨t, ht, hst, h⟩ := h
  split at h
  · simp only [run_ok] at h
    obtain rfl := h
    exact Board.Moves.judge (b := s.board) id t true ht hst
  · simp only [run_ok] at h
    obtain rfl := h
    exact Board.Moves.judge (b := s.board) id t false ht hst

theorem apply_moves (cfg : Config A) (s : State A) (op : Op A) :
    s.board.Moves cfg (apply cfg s op).board := by
  have hd (c : Call (State A) Error Unit) :=
    dispatch_keeps (c := c) (I := fun s' => s.board.Moves cfg s'.board) .stay
  cases op with
  | submitProof miner proof dimensions multiplierQ100 nonce =>
    exact hd _ fun _ _ hr => submitProof_moves hr
  | verifyTask id =>
    exact hd _ fun _ _ hr => verifyTask_moves hr
  | claimReward who id =>
    exact hd _ fun _ _ hr => claimReward_board hr
  | submitVerificationUnsigned id verified =>
    exact hd _ fun _ _ hr => submitVerificationUnsigned_moves hr
  | nextBlock => exact .stay
  | external b => exact .stay

end Calls

/-- One operation leads from `s` to `s'`. -/
def Steps (cfg : Config A) (s s' : State A) : Prop := ∃ op, s' = apply cfg s op

namespace Demo

def rich : Balances Nat :=
  ⟨((∅ : StorageMap Nat AccountData).insert 0 ⟨1000, 0, 0⟩).insert 1 ⟨1000, 0, 0⟩⟩

/-- The miner 1 submits a proof; `nonce` is new each time. -/
def submit (nonce : Nat) : Op Nat := .submitProof 1 [byte 1] (1, 1, 1) 120 nonce

def queued : State Nat :=
  [submit 0, submit 1, submit 2, .verifyTask 0, submit 3].foldl (apply config) (.fresh 1 rich)

end Demo

/-- **The bookkeeping of pending tasks is exact** in every reachable state. From then on every task
keeps its id, its data and its verdict, new tasks get new ids, and a reward is claimed once, for an
accepted task. -/
theorem pending_exact (cfg : Config A) (hmax : cfg.maxPendingPerMiner ≤ u32Max) (s : State A)
    (hs : (openSystem cfg).Reach (fun _ _ => True) s) :
    s.board.Exact cfg ∧
    (∀ s', Relation.ReflTransGen (Steps cfg) s s' → s.board.Later s'.board) ∧
    ∀ s', Steps cfg s s' → ∀ id t t', s.tasks.get id = some t → s'.tasks.get id = some t' →
      t.rewardClaimed = false → t'.rewardClaimed = true → t.status = .verified := by
  have hexact : ∀ s, (openSystem cfg).Reach (fun _ _ => True) s → s.board.Exact cfg := by
    intro s hs
    refine hs.invariant (I := fun s => s.board.Exact cfg) ?_ ?_
    · rintro _ ⟨now, b, rfl⟩
      refine ⟨fun id _ => get_empty id, nodup_nil, fun id => ?_, fun m => rfl,
        fun m => Nat.zero_le _, fun id t ht => ?_⟩
      · simp [State.board, State.fresh]
      · simp [State.board, State.fresh] at ht
    · rintro s op _ h - rfl
      exact h.moves hmax (apply_moves cfg s op)
  have hlater : ∀ s', Relation.ReflTransGen (Steps cfg) s s' →
      (openSystem cfg).Reach (fun _ _ => True) s' ∧ s.board.Later s'.board := by
    intro s' hss'
    induction hss' with
    | refl => exact ⟨hs, .refl _⟩
    | @tail s1 s2 _ hstep ih =>
      obtain ⟨op, rfl⟩ := hstep
      exact ⟨.step ih.1 trivial rfl, ih.2.trans ((apply_moves cfg s1 op).later (hexact s1 ih.1))⟩
  refine ⟨hexact s hs, fun s' hss' => (hlater s' hss').2, ?_⟩
  rintro _ ⟨op, rfl⟩ id t t' ht ht' hcl hcl'
  exact (apply_moves cfg s op).accepted ht ht' hcl hcl'

/-- Two proofs of one miner wait, a third one is refused, and the verdict on the first makes room. -/
theorem pending_exact_demo :
    Demo.config.maxPendingPerMiner ≤ u32Max ∧ Demo.queued.board.Exact Demo.config ∧
      Demo.queued.pendingTasks = [1, 2] ∧ Demo.queued.minerPendingCount.getD 1 0 = 2 ∧
      (Demo.queued.tasks.get 0).map ZkTask.status = some .verified :=
  ⟨by decide, (pending_exact Demo.config (by decide) Demo.queued
    (System.Reach.path (P := fun _ _ => True) (.init ⟨1, Demo.rich, rfl⟩)
      (fun _ _ h => ⟨h, rfl⟩) (System.Path.of_forall (fun _ _ _ => trivial) _))).1,
    by decide +kernel, by decide +kernel, by decide +kernel⟩

end DeepBrainChain.ZkCompute
