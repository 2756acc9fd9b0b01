import DeepBrainChain.ComputePoolScheduler.Books
import DeepBrainChain.Lib.System

/-!
# What the longer calls write

A verdict on a task is the same change of the storage whether it comes from `verify_proof` or from
the hook, and whether or not an error follows.
-/

namespace DeepBrainChain.ComputePoolScheduler

open Lib Lib.Call StorageMap Option

variable {A : Type}

/-! ## The records of the pools -/

/-- The storage without the contents of the pools, the reputations, the stakes and the ledger. -/
structure Core (A : Type) where
  now : Nat
  nextPoolId : Nat
  nextTaskId : Nat
  pool : Nat → Bool
  tasks : StorageMap Nat (ComputeTask A)
  poolTasks : StorageMap Nat (List Nat)
  activeTaskCount : StorageMap Nat Nat
  rewards : StorageMap Nat Nat
  escrows : StorageMap Nat (TaskEscrow A)
  proofs : StorageMap Nat Nat

def State.core (s : State A) : Core A :=
  ⟨s.now, s.nextPoolId, s.nextTaskId, s.pools.contains, s.tasks, s.poolTasks, s.activeTaskCount,
    s.rewards, s.taskEscrowStore, s.proofSubmittedAt⟩

variable {cfg : Config} {s s' : State A} {id p : Nat} {t : ComputeTask A} {pool : ComputePool A}

theorem core_insertPool (h : s.pools.get p = some pool) (x : ComputePool A) :
    (s.insertPool p x).core = s.core := by
  have hpools : (s.insertPool p x).pools.contains = s.pools.contains := by
    funext q
    simp only [State.insertPool, StorageMap.contains, get_insert]
    split
    · next hq => rw [hq, h]; rfl
    · rfl
  unfold State.core
  rw [hpools]
  rfl

theorem core_mutatePool (s : State A) (p : Nat) (f : ComputePool A → ComputePool A) :
    (mutatePool p f s).core = s.core := by
  unfold mutatePool
  cases h : s.pools.get p with
  | none => rfl
  | some pool => exact core_insertPool h _

theorem mutatePool_insertTask (f : ComputePool A → ComputePool A) :
    mutatePool p f (s.insertTask id t) = (mutatePool p f s).insertTask id t := by
  have hpools : (s.insertTask id t).pools = s.pools := rfl
  unfold mutatePool
  rw [hpools]
  cases s.pools.get p <;> rfl

theorem insertTask_insertTask (t' : ComputeTask A) :
    (s.insertTask id t).insertTask id t' = s.insertTask id t' := by
  unfold State.insertTask
  rw [insert_insert]

variable [DecidableEq A]

theorem core_updateReputation (s : State A) (p : Nat) (success : Bool) :
    (updateReputation p success s).core = s.core := by
  unfold updateReputation
  cases h : s.pools.get p with
  | none => rfl
  | some pool => exact core_insertPool h _

theorem task_updateReputation (s : State A) (p : Nat) (success : Bool) (id : Nat) :
    (updateReputation p success s).tasks.get id = s.tasks.get id :=
  congrArg (fun c : Core A => c.tasks.get id) (core_updateReputation ..)

def State.slash (cfg : Config) (s : State A) (p : Nat) (pool : ComputePool A) : State A :=
  let x := if pool.depositHeld > cfg.failureSlash then cfg.failureSlash else pool.depositHeld
  let slashed := s.balances.slashReserved pool.owner x
  (s.setBalances slashed.1).insertPool p
    { pool with depositHeld := pool.depositHeld - (x - slashed.2) }

theorem slashPool_cases (cfg : Config) (p : Nat) (s : State A) :
    ((slashPool cfg p).run s).2 = s ∨
      ∃ pool, s.pools.get p = some pool ∧ ((slashPool cfg p).run s).2 = s.slash cfg p pool := by
  refine Post.storage
    (I := fun s' => s' = s ∨ ∃ pool, s.pools.get p = some pool ∧ s' = s.slash cfg p pool) ?_
  unfold slashPool
  simp only [post_step, post_ite]
  exact ⟨fun pool hp => ⟨fun _ => .inl trivial, fun _ => .inr ⟨pool, hp, rfl⟩⟩,
    fun _ => .inl trivial⟩

theorem core_slashPool (cfg : Config) (p : Nat) (s : State A) :
    ((slashPool cfg p).run s).2.core = s.core := by
  rcases slashPool_cases cfg p s with h | ⟨pool, hp, h⟩
  · rw [h]
  · rw [h]
    exact core_insertPool (s := s.setBalances _) hp _

/-! ## Verdicts -/

omit [DecidableEq A] in
def ComputeTask.verdict (t : ComputeTask A) (result : Bool) : ComputeTask A :=
  { t with
    verificationResult := some result
    status := if result then .completed else .failed }

omit [DecidableEq A] in
/-- The reward of a task is there to be claimed, if it has one. -/
def State.payable (s : State A) (id : Nat) (reward : Option Nat) : State A :=
  reward.elim s (s.insertReward id)

/-- The storage after a verdict on the task `t` of the pool `p`. -/
def State.judge (cfg : Config) (s : State A) (id : Nat) (t : ComputeTask A) (p : Nat)
    (result : Bool) : State A :=
  let s1 := (updateReputation p result
    (decrementPoolActivity p id (s.insertTask id (t.verdict result)))).removeProofSubmittedAt id
  if result then s1.payable id t.rewardAmount
  else ((slashPool cfg p).run (releaseEscrow id s1)).2

section

variable (cfg)

theorem finalizeVerification_judge (ht : s.tasks.get id = some t)
    (hproof : t.proofHash.isSome = true) (p : Nat) (result : Bool) :
    ((finalizeVerification cfg id p result).run s).2 = s.judge cfg id t p result := by
  refine Post.storage (I := fun s' => s' = s.judge cfg id t p result) ?_
  unfold finalizeVerification tryMutateTask
  simp only [post_step, ht, bind_some]
  refine ⟨fun _ _ => ⟨fun x hx => ⟨fun y hy => ?_, fun hnone => ?_⟩, fun hf => by cases hf⟩,
    fun hnone => ?_⟩
  · cases hx
    rw [State.insertTask, get_insert_self, some.injEq] at hy
    subst hy
    change Post _ (State.removeProofSubmittedAt (updateReputation p result (decrementPoolActivity p
      id ((s.insertTask id _).insertTask id (t.verdict result)))) id) _ _
    rw [insertTask_insertTask]
    unfold State.judge
    set s1 := State.removeProofSubmittedAt _ id
    cases result with
    | true =>
      have htask : s1.tasks.get id = some (t.verdict true) :=
        (task_updateReputation ..).trans (get_insert_self ..)
      simp only [if_true, post_step, post_whenSome, htask, bind_some]
      -- what follows the reward only reads
      refine ⟨fun r hr => ?_, fun hr => ?_⟩ <;> rw [show t.rewardAmount = _ from hr]
      all_goals exact ⟨fun _ _ => ⟨fun _ _ => rfl, fun _ => rfl⟩, fun _ => rfl⟩
    | false =>
      simp only [Bool.false_eq_true, if_false, post_bind, post_modify]
      exact Post.of_run rfl
  · rw [State.insertTask, get_insert_self] at hnone
    cases hnone
  · rw [hnone] at hproof
    cases hproof

theorem finalizeVerification_cases (s : State A) (id p : Nat) (result : Bool) :
    ((finalizeVerification cfg id p result).run s).2 = s ∨
      ∃ t, s.tasks.get id = some t ∧ t.proofHash.isSome = true ∧
        ((finalizeVerification cfg id p result).run s).2 = s.judge cfg id t p result := by
  cases hproof : (s.tasks.get id).bind (·.proofHash) with
  | some hash =>
    obtain ⟨t, ht, hh⟩ := bind_eq_some_iff.1 hproof
    have hsome : t.proofHash.isSome = true := by rw [hh]; rfl
    exact .inr ⟨t, ht, hsome, finalizeVerification_judge cfg ht hsome p result⟩
  | none =>
    refine .inl (Post.storage (I := fun s' => s' = s) ?_)
    unfold finalizeVerification
    simp only [post_step, hproof, reduceCtorEq, false_implies, implies_true, and_self]

theorem markTaskFailed_cases (s : State A) (id : Nat) :
    ((markTaskFailed cfg id).run s).2 = s ∨
      ∃ t, s.tasks.get id = some t ∧ isTerminal t.status = false ∧
        ((markTaskFailed cfg id).run s).2 = s.judge cfg id t t.poolId false := by
  refine Post.storage (I := fun s' => s' = s ∨ ∃ t, s.tasks.get id = some t ∧
    isTerminal t.status = false ∧ s' = s.judge cfg id t t.poolId false) ?_
  unfold markTaskFailed tryMutateTask
  simp only [post_step, post_ite]
  refine ⟨fun t ht => ⟨fun _ => .inl trivial, fun hterm => ⟨fun y hy => ?_, fun _ => .inl trivial⟩⟩,
    fun _ => .inl trivial⟩
  obtain rfl := Option.some.inj (ht.symm.trans hy)
  exact Post.of_run (.inr ⟨t, ht, by simpa using hterm, rfl⟩)

end

/-! ## Extrinsics -/

section Extrinsics

variable {sender : A} {u : Unit} {poolsIter : List (Nat × ComputePool A)} {preferred : Option Nat}

section

omit [DecidableEq A]

def State.scored (s : State A) (p : Nat) (score : PoolScore) : State A :=
  mutatePool p (fun pool => { pool with score }) s

theorem scored_balances (s : State A) (p : Nat) (score : PoolScore) :
    (s.scored p score).balances = s.balances := by
  unfold State.scored mutatePool
  cases s.pools.get p <;> rfl

/-- The choice of a pool writes a score. -/
theorem choosePool_ok {task : ComputeTask A} {r : Nat × PoolScore}
    (hr : (choosePool cfg poolsIter task preferred).run s = (.ok r, s')) :
    ∃ p score, s' = s.scored p score := by
  unfold choosePool at hr
  cases preferred with
  | some p =>
    simp only [run_ok] at hr
    obtain ⟨pool, -, -, -, -, -, rfl⟩ := hr
    exact ⟨_, _, rfl⟩
  | none =>
    simp only [run_ok, selectBestPoolForTask] at hr
    obtain ⟨-, selected, -, -, rfl⟩ := hr
    exact ⟨_, _, rfl⟩

/-- The task `t` comes into the pool `p`. -/
def State.enlist (s : State A) (id p : Nat) (t : ComputeTask A) (e : TaskEscrow A)
    (b : Balances A) : State A :=
  ((((s.setBalances b).insertTask id t).addActivity p id).lockEscrow id e).setNextTaskId (id + 1)

end

theorem submitTask_ok {dimensions : TaskDimensions} {priority : TaskPriority}
    (hr : (submitTask cfg sender dimensions priority preferred poolsIter).run s = (.ok u, s')) :
    ∃ q score p pool reward b, (s.scored q score).pools.get p = some pool ∧
      (s.poolTasks.getD p []).length < cfg.maxTasksPerPool ∧
      s.balances.reserve sender (saturatingAdd u128Max reward cfg.taskDeposit) = some b ∧
      s' = (s.scored q score).enlist s.nextTaskId p ⟨s.nextTaskId, sender, p, dimensions, priority,
          .computing, s.now, none, none, some reward, false⟩
        ⟨sender, pool.owner, reward, cfg.taskDeposit, false⟩ b := by
  unfold submitTask tryMutateTask reserve at hr
  simp only [run_ok] at hr
  obtain ⟨-, -, -, r, s1, hchoose, pool, hp, -, reward, -, _, ⟨b, hb, rfl⟩, _, ⟨x, hx, rfl⟩, _,
    ⟨y, hy, rfl⟩, hroom, next, hnext, rfl⟩ := hr
  obtain ⟨-, rfl⟩ := checkedAdd_eq_some.1 hnext
  obtain ⟨q, score, hs1⟩ := choosePool_ok hchoose
  obtain rfl := hs1.trans (mutatePool_insertTask _)
  obtain rfl := Option.some.inj ((get_insert_self ..).symm.trans hx)
  obtain rfl := Option.some.inj ((get_insert_self ..).symm.trans hy)
  have hb' : (s.scored q score).balances.reserve sender _ = some b := hb
  rw [scored_balances] at hb'
  have hlist : (s.scored q score).poolTasks = s.poolTasks :=
    congrArg Core.poolTasks (core_mutatePool ..)
  refine ⟨q, score, r.1, pool, reward, b, hp, hlist ▸ hroom, hb', ?_⟩
  -- the three writes of the task amount to the last one
  show ((((((State.setBalances _ b).insertTask _ _).insertTask _ _).insertTask _ _).addActivity _
    _).lockEscrow _ _).setNextTaskId _ = _
  rw [insertTask_insertTask, insertTask_insertTask]
  rfl

theorem submitProof_ok {hash : Hash} (hr : (submitProof cfg sender id hash).run s = (.ok u, s')) :
    ∃ t, s.tasks.get id = some t ∧ t.status = .computing ∧
      s' = (s.insertTask id { t with
        proofHash := some hash, status := .proofSubmitted }).insertProofSubmittedAt id s.now := by
  unfold submitProof tryMutateTask at hr
  simp only [run_ok] at hr
  obtain ⟨-, t, ht, hst, -, -, -, -, _, ⟨x, hx, rfl⟩, rfl⟩ := hr
  obtain rfl := Option.some.inj (ht.symm.trans hx)
  exact ⟨t, ht, hst, rfl⟩

theorem verifyProof_ok {result : Bool}
    (hr : (verifyProof cfg sender id result).run s = (.ok u, s')) :
    ∃ t, s.tasks.get id = some t ∧ t.status = .proofSubmitted ∧
      s' = s.judge cfg id t t.poolId result := by
  unfold verifyProof at hr
  simp only [run_ok] at hr
  obtain ⟨t, ht, hst, hproof, -, -, -, hfin⟩ := hr
  have hjudge := finalizeVerification_judge cfg ht (isSome_iff_ne_none.2 hproof) t.poolId result
  rw [hfin] at hjudge
  exact ⟨t, ht, hst, hjudge⟩

theorem disputeVerification_ok (hr : (disputeVerification cfg sender id).run s = (.ok u, s')) :
    ∃ t, s.tasks.get id = some t ∧ isTerminal t.status = true ∧ t.disputed = false ∧
      (t.verificationResult = some true ∧ s' = ((slashPool cfg t.poolId).run (releaseEscrow id
          (updateReputation t.poolId false
            (s.insertTask id { t.verdict false with disputed := true })))).2 ∨
        t.verificationResult = some false ∧ s' = updateReputation t.poolId true
          ((s.insertTask id { t.verdict true with disputed := true }).payable id
            t.rewardAmount)) := by
  unfold disputeVerification tryMutateTask at hr
  simp only [run_ok] at hr
  obtain ⟨t, ht, -, hst, hdisp, hr⟩ := hr
  refine ⟨t, ht, by rcases hst with hst | hst <;> simp [isTerminal, hst], hdisp, ?_⟩
  by_cases htrue : t.verificationResult = some true
  · simp only [run_ok, htrue, if_true] at hr
    obtain ⟨_, ⟨x, hx, rfl⟩, hslash⟩ := hr
    obtain rfl := Option.some.inj (ht.symm.trans hx)
    exact .inl ⟨htrue, (congrArg Prod.snd hslash).symm⟩
  · by_cases hfalse : t.verificationResult = some false
    · simp only [run_ok, hfalse, some.injEq, Bool.false_eq_true, if_false, if_true,
        run_whenSome_ok] at hr
      obtain ⟨_, ⟨x, hx, rfl⟩, s2, hs2, rfl⟩ := hr
      obtain rfl := Option.some.inj (ht.symm.trans hx)
      refine .inr ⟨hfalse, ?_⟩
      rcases hs2 with ⟨amount, hamount, rfl⟩ | ⟨hamount, rfl⟩
      all_goals
        exact congrArg (fun r => updateReputation t.poolId true (State.payable _ id r)) hamount.symm
    · simp only [run_ok, htrue, hfalse, if_false, run_throw] at hr

end Extrinsics

/-! # Every call keeps the books sound

Each extrinsic and the block hook is followed down to the changes of the books it makes. The one
exception is a dispute about a task whose reward was already claimed: it returns an escrow that
is no longer in the reserve. -/

open Balances

variable {A : Type} [DecidableEq A] {s s' : State A}

/-! ## What the helper functions do to the books -/

section

omit [DecidableEq A]

theorem books_insertTask (t : Nat) (x : ComputeTask A) :
    (s.insertTask t x).books = s.books.setTask t x.entry := by
  unfold State.books Books.setTask
  congr 1
  funext t'
  simp only [State.insertTask, get_insert, Function.update_apply]
  split <;> rfl

theorem books_insertPool (p : Nat) (x : ComputePool A) :
    (s.insertPool p x).books =
      { s.books with pool := Function.update s.books.pool p (some x.entry) } := by
  unfold State.books
  congr 1
  funext p'
  simp only [State.insertPool, get_insert, Function.update_apply]
  split <;> rfl

end

variable {p t : Nat} {x : ComputeTask A}

omit [DecidableEq A] in
theorem books_insertPool_same {pool x : ComputePool A} (hp : s.pools.get p = some pool)
    (hx : x.entry = pool.entry) : (s.insertPool p x).books = s.books := by
  have hpool : s.books.pool p = some x.entry := by simp [State.books, hp, hx]
  rw [books_insertPool, Function.update_eq_self_iff.2 hpool.symm]

theorem books_addPool (l : Balances A) (x : ComputePool A) (r : ReputationInfo) :
    (((s.setBalances l).addPool x r).setNextPoolId (x.poolId + 1)).books =
      s.books.openPool x.poolId x.owner x.depositHeld l := by
  have hpool := congrArg Books.pool (books_insertPool (s := s) x.poolId x)
  unfold Books.openPool
  rw [show Function.update s.books.pool x.poolId (some (x.owner, x.depositHeld)) = _ from
    hpool.symm]
  rfl

section

omit [DecidableEq A]

/-- The records of a new task, with the ledger its reward was taken from. -/
theorem books_enlist (l : Balances A) (e : TaskEscrow A) :
    (s.enlist t p x e l).books = s.books.lock t x.entry e l := by
  show ({ State.books ((s.setBalances l).insertTask t x) with
    nextTaskId := t + 1
    escrows := s.taskEscrowStore.insert t e
    moves := s.moves ++ [.locked t e.user e.rewardAmount] } : Books A) = _
  rw [books_insertTask]
  rfl

end

theorem books_updateReputation (p : Nat) (success : Bool) :
    (updateReputation p success s).books = s.books := by
  unfold updateReputation
  split
  · next pool hp => exact books_insertPool_same (x := pool.count success) hp rfl
  · rfl

theorem escrow_updateReputation (p : Nat) (success : Bool) (t : Nat) :
    (updateReputation p success s).taskEscrowStore.get t = s.taskEscrowStore.get t :=
  congrArg (fun c : Core A => c.escrows.get t) (core_updateReputation ..)

section

omit [DecidableEq A]

theorem books_scored (p : Nat) (score : PoolScore) : (s.scored p score).books = s.books := by
  unfold State.scored mutatePool
  split
  · next pool hp => exact books_insertPool_same (x := { pool with score }) hp rfl
  · rfl

theorem task_books (ht : s.tasks.get t = some x) : s.books.task t = some x.entry := by
  simp [State.books, ht]

theorem pool_books {x : ComputePool A} (hp : s.pools.get p = some x) :
    s.books.pool p = some (x.owner, x.depositHeld) := by
  simp [State.books, hp, ComputePool.entry]

end

/-- A task whose status is not `Completed` has no claimed escrow. -/
theorem not_claimed (h : s.books.Sound) (ht : s.tasks.get t = some x) (hst : x.status ≠ .completed)
    {e : TaskEscrow A} (he : s.taskEscrowStore.get t = some e) : e.claimed = false := by
  obtain ⟨q, hq, -, -, -, hc⟩ := h.escrow_task t e he
  have hxq : x.entry = q := Option.some.inj ((task_books ht).symm.trans hq)
  cases hcl : e.claimed with
  | false => rfl
  | true =>
    have : x.status = .completed := by
      have := hc hcl
      rw [← hxq] at this
      exact this
    exact absurd this hst

theorem insertTask_sound (h : s.books.Sound) {y : ComputeTask A} (ht : s.tasks.get t = some x)
    (hp : y.poolId = x.poolId) (hr : y.rewardAmount = x.rewardAmount)
    (hc : ∀ e, s.taskEscrowStore.get t = some e → e.claimed = true → y.status = .completed) :
    (s.insertTask t y).books.Sound := by
  rw [books_insertTask]
  exact h.setTask (task_books ht) hp hr hc

theorem releaseEscrow_sound (h : s.books.Sound)
    (hopen : ∀ e, s.taskEscrowStore.get t = some e → e.claimed = false) :
    (releaseEscrow t s).books.Sound := by
  unfold releaseEscrow
  simp only
  split
  · next e he =>
    have hle := (h.openEscrow_le he e.user).2
    have hop := hopen e he
    have hiss := total_le_issuance s.balances e.user
    have hmax : s.balances.issuance ≤ u128Max := h.issuance_le
    simp only [Books.openEscrow, hop, and_self, if_true] at hle
    have hres : s.books.balances.reserved e.user ≤ s.balances.issuance :=
      le_trans (Nat.le_add_left _ _) hiss
    have htot : saturatingAdd u128Max e.rewardAmount e.taskDeposit =
        e.rewardAmount + e.taskDeposit :=
      saturatingAdd_of_le (le_trans hle (le_trans hres hmax))
    have hd := (h.dropReward t).refund (l := (s.balances.unreserve e.user
      (saturatingAdd u128Max e.rewardAmount e.taskDeposit)).1) he hop ?_ ?_
    · exact hd
    · rw [unreserve_issuance _ _ _ hmax]
      exact hmax
    · intro u
      rw [unreserve_reserved, htot]
      rfl
  · exact h.dropReward t

theorem slashPool_sound (cfg : Config) (p : Nat) (h : s.books.Sound) :
    ((slashPool cfg p).run s).2.books.Sound := by
  rcases slashPool_cases cfg p s with hs | ⟨pool, hp, hs⟩
  · rw [hs]
    exact h
  rw [hs, State.slash]
  set x := if pool.depositHeld > cfg.failureSlash then cfg.failureSlash else pool.depositHeld
  have hx : x ≤ pool.depositHeld := by
    unfold x
    split <;> omega
  have hb := h.backed pool.owner
  rw [h.heldDeposit_eq (pool_books hp)] at hb
  have hcov : x ≤ s.balances.reserved pool.owner := by
    change s.balances.reserved pool.owner = _ at hb
    omega
  have hrem : (s.balances.slashReserved pool.owner x).2 = 0 := by
    rw [slashReserved_remaining]
    omega
  rw [hrem, Nat.sub_zero]
  have hs := h.slash (l := (s.balances.slashReserved pool.owner x).1) (pool_books hp) hx
    (le_trans (slashReserved_issuance_le ..) h.issuance_le)
    (fun u => slashReserved_reserved ..)
  rw [books_insertPool]
  exact hs

theorem payable_sound (h : s.books.Sound) (ht : s.tasks.get t = some x) :
    (s.payable t x.rewardAmount).books.Sound := by
  unfold State.payable
  cases hr : x.rewardAmount with
  | none => exact h
  | some r => exact h.setReward (task_books ht) hr

/-- Both verdicts keep the books sound; a rejection needs an escrow that was not claimed. -/
theorem judge_sound (cfg : Config) (h : s.books.Sound) (ht : s.tasks.get t = some x) (p : Nat)
    (result : Bool)
    (hopen : result = false → ∀ e, s.taskEscrowStore.get t = some e → e.claimed = false) :
    (s.judge cfg t x p result).books.Sound := by
  have hsound : (updateReputation p result (decrementPoolActivity p t
      (s.insertTask t (x.verdict result)))).books.Sound := by
    rw [books_updateReputation]
    refine insertTask_sound h ht rfl rfl fun e he hcl => ?_
    cases result with
    | true => rfl
    | false => cases hcl.symm.trans (hopen rfl e he)
  cases result with
  | true =>
    refine payable_sound (x := x.verdict true) hsound ?_
    exact (task_updateReputation ..).trans (get_insert_self ..)
  | false =>
    refine slashPool_sound cfg p (releaseEscrow_sound hsound fun e he => hopen rfl e ?_)
    change (updateReputation p false _).taskEscrowStore.get t = _ at he
    rw [escrow_updateReputation] at he
    exact he

theorem active_open (h : s.books.Sound) (ht : s.tasks.get t = some x)
    (ha : isTerminal x.status = false) (e : TaskEscrow A) (he : s.taskEscrowStore.get t = some e) :
    e.claimed = false := by
  refine not_claimed h ht ?_ he
  intro hc
  simp [isTerminal, hc] at ha

/-! ## Extrinsics -/

section Extrinsics

variable {cfg : Config} {sender : A} {u : Unit}

variable {gpuModel : List UInt8} {p t amount poolId gpuMemory pricePerTask nvlinkEfficiency : Nat}
  {hasNvlink : Bool} {poolsIter : List (Nat × ComputePool A)} {preferred : Option Nat}

theorem registerPool_sound (h : s.books.Sound)
    (hr : (registerPool cfg sender gpuModel gpuMemory hasNvlink nvlinkEfficiency
      pricePerTask).run s = (.ok u, s')) : s'.books.Sound := by
  unfold registerPool ensureNvlink reserve at hr
  simp only [run_ok] at hr
  obtain ⟨hnone, -, -, -, _, ⟨l, hl, rfl⟩, next, hnext, rfl⟩ := hr
  obtain ⟨-, rfl⟩ := checkedAdd_eq_some.1 hnext
  have hopen := h.openPool hnone (l := l) (d := cfg.poolDeposit)
    ((reserve_issuance hl).trans_le h.issuance_le) (reserve_eq_some hl).1
  rw [books_addPool]
  exact hopen

theorem updatePoolConfig_sound (h : s.books.Sound)
    (hr : (updatePoolConfig sender poolId gpuModel gpuMemory hasNvlink nvlinkEfficiency
      pricePerTask).run s = (.ok u, s')) : s'.books.Sound := by
  unfold updatePoolConfig ensureNvlink at hr
  simp only [run_ok] at hr
  obtain ⟨-, -, -, pool, hp, -, -, rfl⟩ := hr
  have hbooks := books_insertPool_same (x := { pool with
    gpuModel, gpuMemory, hasNvlink, nvlinkEfficiency, pricePerTask }) hp rfl
  rw [hbooks]
  exact h

theorem deregisterPool_sound (h : s.books.Sound)
    (hr : (deregisterPool sender poolId).run s = (.ok u, s')) : s'.books.Sound := by
  unfold deregisterPool unreserve at hr
  simp only [run_ok] at hr
  obtain ⟨pool, hp, -, -, rfl⟩ := hr
  have hmax : s.balances.issuance ≤ u128Max := h.issuance_le
  have hclose := h.closePool (l := (s.balances.unreserve pool.owner pool.depositHeld).1)
    (pool_books hp) ((unreserve_issuance _ _ _ hmax).trans_le hmax)
    (fun u => unreserve_reserved ..)
  have hpool : (fun p => ((s.pools.remove poolId).get p).map (·.entry)) =
      Function.update s.books.pool poolId none := by
    funext p
    simp only [get_remove, Function.update_apply]
    split <;> rfl
  unfold Books.closePool at hclose
  rw [← hpool] at hclose
  exact hclose

section

variable (h : s.books.Sound)

include h

theorem submitTask_sound {dimensions : TaskDimensions} {priority : TaskPriority}
    (hfree : s.balances.free sender < u128Max)
    (hr : (submitTask cfg sender dimensions priority preferred poolsIter).run s = (.ok u, s')) :
    s'.books.Sound := by
  obtain ⟨q, score, p, pool, reward, l, hp, -, hl, rfl⟩ := submitTask_ok hr
  -- the sum was not cut off, since the reserved amount was below the top of the type
  have hle := (reserve_eq_some hl).2.2
  have hsum : saturatingAdd u128Max reward cfg.taskDeposit = reward + cfg.taskDeposit := by
    unfold saturatingAdd at hle ⊢
    omega
  rw [hsum] at hl
  have hpool := pool_books hp
  rw [books_scored] at hpool
  rw [books_enlist, books_scored]
  exact h.lock ((reserve_issuance hl).trans_le h.issuance_le)
    (reserve_eq_some hl).1 rfl rfl hpool

theorem submitProof_sound {hash : Hash}
    (hr : (submitProof cfg sender t hash).run s = (.ok u, s')) : s'.books.Sound := by
  obtain ⟨task, ht, hst, rfl⟩ := submitProof_ok hr
  refine insertTask_sound (y := { task with proofHash := some hash, status := .proofSubmitted })
    h ht rfl rfl fun e he hcl => ?_
  cases hcl.symm.trans (active_open h ht (by rw [hst]; rfl) e he)

theorem verifyProof_sound {result : Bool}
    (hr : (verifyProof cfg sender t result).run s = (.ok u, s')) : s'.books.Sound := by
  obtain ⟨task, ht, hst, rfl⟩ := verifyProof_ok hr
  exact judge_sound cfg h ht _ result fun _ => active_open h ht (by rw [hst]; rfl)

theorem claimReward_sound (hr : (claimReward sender t).run s = (.ok u, s')) : s'.books.Sound := by
  unfold claimReward at hr
  simp only [run_ok] at hr
  obtain ⟨task, ht, hst, -, pool, hp, rfl, reward, hrew, e, he, hopen, ⟨l, rest⟩, hl, hrest,
    rfl⟩ := hr
  simp only at hrest
  subst hrest
  -- the reward that is paid is the one in the escrow, and the owner is the one it was locked for
  obtain ⟨q, hq, hqr, -, hown, -⟩ := h.escrow_task t e he
  obtain ⟨q', hq', hqr'⟩ := h.reward_task t reward hrew
  have hqq : q = q' := Option.some.inj (hq.symm.trans hq')
  subst hqq
  have hreward : e.rewardAmount = reward := Option.some.inj (hqr.symm.trans hqr')
  have hentry : task.entry = q := Option.some.inj ((task_books ht).symm.trans hq)
  have howner : pool.owner = e.poolOwner := by
    refine hown pool.owner pool.depositHeld ?_
    rw [← hentry]
    exact pool_books hp
  obtain ⟨-, hres⟩ := repatriateReserved_eq_some hl
  have hmax : s.balances.issuance ≤ u128Max := h.issuance_le
  have hiss := repatriateReserved_issuance hmax hl
  have hmax' : l.issuance ≤ u128Max := hiss.trans_le hmax
  have hpay := h.pay (l := (l.unreserve e.user e.taskDeposit).1) he hopen
    ((unreserve_issuance _ _ _ hmax').trans_le hmax') ?_ hq (by rw [← hentry]; exact hst)
  · rw [howner, ← hreward]
    exact hpay.dropReward t
  · intro x
    rw [unreserve_reserved, hres x, hreward, Nat.sub_sub]
    change s.balances.reserved x - _ = s.balances.reserved x - _
    split <;> rfl

/-- A dispute about a task whose escrow was not claimed keeps the books sound. -/
theorem disputeVerification_sound
    (hopen : ∀ e, s.taskEscrowStore.get t = some e → e.claimed = false)
    (hr : (disputeVerification cfg sender t).run s = (.ok u, s')) : s'.books.Sound := by
  have hnot : ∀ {st : TaskStatus} e, s.taskEscrowStore.get t = some e → e.claimed = true →
      st = .completed := by
    intro st e he hcl
    rw [hopen e he] at hcl
    cases hcl
  obtain ⟨task, ht, -, -, ⟨-, rfl⟩ | ⟨-, rfl⟩⟩ := disputeVerification_ok hr
  · -- an accepted result is withdrawn
    refine slashPool_sound cfg task.poolId (releaseEscrow_sound ?_ fun e he => hopen e ?_)
    · rw [books_updateReputation]
      exact insertTask_sound h ht rfl rfl hnot
    · rw [escrow_updateReputation] at he
      exact he
  · -- a rejected result is reinstated; its escrow is gone unless nothing was locked
    rw [books_updateReputation]
    exact payable_sound (x := { task.verdict true with disputed := true })
      (insertTask_sound h ht rfl rfl hnot) (get_insert_self ..)

theorem stakeToPool_sound
    (hr : (stakeToPool sender p amount).run s = (.ok u, s')) : s'.books.Sound := by
  unfold stakeToPool reserve at hr
  simp only [run_ok] at hr
  obtain ⟨-, _, ⟨l, hl, rfl⟩, rfl⟩ := hr
  have hres := (reserve_eq_some hl).1
  have hiss : l.issuance ≤ u128Max := (reserve_issuance hl).trans_le h.issuance_le
  have hset := h.setStake (p := p) (u := sender) (l := l)
    (v := s.poolStakes.getD (p, sender) 0 + amount)
    (w := s.totalPoolStake.getD p 0 + amount) hiss ?_ ?_ ?_
  · -- the new total is covered by the reserves, so neither sum is cut off
    have htotal : s.totalPoolStake.getD p 0 + amount ≤ u128Max := by
      have ht := hset.totals_eq p
      have hle := hset.stakedIn_le_issuance p
      rw [Books.setStake, getD_insert_self] at ht
      rw [ht]
      exact hle.trans hiss
    have hstake : s.poolStakes.getD (p, sender) 0 ≤ s.totalPoolStake.getD p 0 :=
      (Books.stake_le_stakedIn (b := s.books) p sender).trans_eq (h.totals_eq p).symm
    rw [State.setStake, saturatingAdd_of_le, saturatingAdd_of_le]
    · exact hset
    · exact htotal
    · exact (Nat.add_le_add_right hstake amount).trans htotal
  · change _ + s.balances.reserved sender = s.poolStakes.getD (p, sender) 0 + _
    rw [hres sender, if_pos rfl]
    omega
  · change _ + s.poolStakes.getD (p, sender) 0 = s.totalPoolStake.getD p 0 + _
    omega
  · intro x hx
    rw [hres x, if_neg hx]
    rfl

theorem unstakeFromPool_sound
    (hr : (unstakeFromPool sender p amount).run s = (.ok u, s')) : s'.books.Sound := by
  unfold unstakeFromPool unreserve at hr
  simp only [run_ok] at hr
  obtain ⟨hle, rfl⟩ := hr
  have hmax : s.balances.issuance ≤ u128Max := h.issuance_le
  have htotal : s.poolStakes.getD (p, sender) 0 ≤ s.totalPoolStake.getD p 0 :=
    (Books.stake_le_stakedIn (b := s.books) p sender).trans_eq (h.totals_eq p).symm
  have hcov : s.poolStakes.getD (p, sender) 0 ≤ s.balances.reserved sender :=
    h.stake_le_reserved p sender
  refine h.setStake (l := (s.balances.unreserve sender amount).1)
    ((unreserve_issuance _ _ _ hmax).trans_le hmax) ?_ ?_ ?_
  · change s.poolStakes.getD (p, sender) 0 - amount + s.balances.reserved sender =
      s.poolStakes.getD (p, sender) 0 + _
    rw [unreserve_reserved, if_pos rfl]
    omega
  · change s.totalPoolStake.getD p 0 - amount + s.poolStakes.getD (p, sender) 0 =
      s.totalPoolStake.getD p 0 + (s.poolStakes.getD (p, sender) 0 - amount)
    omega
  · intro x hx
    rw [unreserve_reserved, if_neg hx]
    rfl

end

end Extrinsics

/-! ## The block hook -/

theorem onInitialize_sound (cfg : Config) (poolTasksIter : List (Nat × List Nat)) (now : Nat) :
    Keeps (fun s : State A => s.books.Sound) (onInitialize cfg poolTasksIter now) := by
  intro s h
  unfold onInitialize
  simp only [post_bind, post_get]
  refine (Keeps.forEach (fun t _ => ?_) s h).mono (fun _ s1 h1 => ?_) (fun _ _ h1 => h1)
  · intro s1 h1
    simp only [post_bind, post_get, post_whenSome, post_ignore]
    refine ⟨fun task _ => Post.of_run ?_, fun _ => h1⟩
    rcases finalizeVerification_cases cfg s1 t task.poolId true with hs | ⟨x, hx, -, hs⟩ <;> rw [hs]
    · exact h1
    · exact judge_sound cfg h1 hx _ true (by simp)
  · refine Keeps.forEach (fun t _ => .ignore fun s2 h2 => Post.of_run ?_) s1 h1
    rcases markTaskFailed_cases cfg s2 t with hs | ⟨x, hx, ha, hs⟩ <;> rw [hs]
    · exact h2
    · exact judge_sound cfg h2 hx _ false fun _ => active_open h2 hx ha

/-! # Runs of the compute pool scheduler

Any sequence of extrinsics, blocks and foreign transfers. -/

variable {A : Type} [DecidableEq A]

/-- What can happen next. `poolsIter` and `poolTasksIter` are the entries of the walked map in
the order in which the storage returns them. -/
inductive Op (A : Type)
  | registerPool (owner : A) (gpuModel : List UInt8) (gpuMemory : Nat) (hasNvlink : Bool)
      (nvlinkEfficiency pricePerTask : Nat)
  | updatePoolConfig (sender : A) (poolId : Nat) (gpuModel : List UInt8) (gpuMemory : Nat)
      (hasNvlink : Bool) (nvlinkEfficiency pricePerTask : Nat)
  | deregisterPool (sender : A) (poolId : Nat)
  | submitTask (user : A) (dimensions : TaskDimensions) (priority : TaskPriority)
      (preferredPoolId : Option Nat) (poolsIter : List (Nat × ComputePool A))
  | submitProof (sender : A) (taskId : Nat) (proofHash : Hash)
  | verifyProof (sender : A) (taskId : Nat) (result : Bool)
  | claimReward (sender : A) (taskId : Nat)
  | disputeVerification (sender : A) (taskId : Nat)
  | stakeToPool (who : A) (poolId amount : Nat)
  | unstakeFromPool (who : A) (poolId amount : Nat)
  | nextBlock (poolTasksIter : List (Nat × List Nat))
  | external (balances : Balances A)

/-- Storage is walked in some order, and nobody else touches the reserves. -/
def Op.Possible (s : State A) : Op A → Prop
  | .submitTask _ _ _ _ poolsIter => poolsIter.Perm s.pools.iter
  | .nextBlock poolTasksIter => poolTasksIter.Perm s.poolTasks.iter
  | .external l => (∀ u, l.reserved u = s.balances.reserved u) ∧ l.issuance ≤ u128Max
  | _ => True

/-- The state after an operation. An extrinsic that fails leaves no trace; the hook keeps the
writes it made. -/
def apply (cfg : Config) (s : State A) : Op A → State A
  | .registerPool o m g n e p => ((registerPool cfg o m g n e p).dispatch s).2
  | .updatePoolConfig o i m g n e p => ((updatePoolConfig o i m g n e p).dispatch s).2
  | .deregisterPool o i => ((deregisterPool o i).dispatch s).2
  | .submitTask u d p i iter => ((submitTask cfg u d p i iter).dispatch s).2
  | .submitProof o t h => ((submitProof cfg o t h).dispatch s).2
  | .verifyProof o t r => ((verifyProof cfg o t r).dispatch s).2
  | .claimReward o t => ((claimReward o t).dispatch s).2
  | .disputeVerification o t => ((disputeVerification cfg o t).dispatch s).2
  | .stakeToPool o p a => ((stakeToPool o p a).dispatch s).2
  | .unstakeFromPool o p a => ((unstakeFromPool o p a).dispatch s).2
  | .nextBlock iter =>
    ((onInitialize cfg iter (s.now + 1)).run { s with now := s.now + 1 }).2
  | .external l => s.setBalances l

def system (cfg : Config) : System (State A) (Op A) where
  init s := ∃ now l, s = State.fresh now l ∧ (∀ u, l.reserved u = 0) ∧ l.issuance ≤ u128Max
  step s op s' := op.Possible s ∧ s' = apply cfg s op

/-- No dispute about a task whose reward was claimed, and no task of an account that holds as
much as the balance type can express. -/
def NoLateDispute (s : State A) : Op A → Prop
  | .disputeVerification _ t => ∀ e, s.taskEscrowStore.get t = some e → e.claimed = false
  | .submitTask user _ _ _ _ => s.balances.free user < u128Max
  | _ => True

theorem fresh_sound (now : Nat) (l : Balances A) (hres : ∀ u, l.reserved u = 0)
    (hl : l.issuance ≤ u128Max) : (State.fresh now l).books.Sound where
  issuance_le := hl
  backed := hres
  totals_eq := fun p => by simp [State.books, State.fresh, Books.stakedIn]
  owner_iff := fun u p => by simp [State.books, State.fresh]
  pool_lt := fun p q hq => by simp [State.books, State.fresh] at hq
  task_lt := fun t q hq => by simp [State.books, State.fresh] at hq
  escrow_task := fun t e he => by simp [State.books, State.fresh] at he
  reward_task := fun t r hr => by simp [State.books, State.fresh] at hr
  history_fits := fun t => by
    simp [State.books, State.fresh, Books.HistoryFits, Books.history]
  moves_lt := fun m hm => by simp [State.books, State.fresh] at hm

theorem apply_sound (cfg : Config) {s : State A} {op : Op A} (h : s.books.Sound)
    (hpos : op.Possible s) (hc : NoLateDispute s op) : (apply cfg s op).books.Sound := by
  have hd (c : M A Unit) := dispatch_keeps (c := c) (I := fun s' => s'.books.Sound) h
  cases op with
  | registerPool =>
    exact hd _ fun _ _ hr => registerPool_sound h hr
  | updatePoolConfig =>
    exact hd _ fun _ _ hr => updatePoolConfig_sound h hr
  | deregisterPool =>
    exact hd _ fun _ _ hr => deregisterPool_sound h hr
  | submitTask =>
    exact hd _ fun _ _ hr => submitTask_sound h hc hr
  | submitProof =>
    exact hd _ fun _ _ hr => submitProof_sound h hr
  | verifyProof =>
    exact hd _ fun _ _ hr => verifyProof_sound h hr
  | claimReward =>
    exact hd _ fun _ _ hr => claimReward_sound h hr
  | disputeVerification =>
    exact hd _ fun _ _ hr => disputeVerification_sound h hc hr
  | stakeToPool =>
    exact hd _ fun _ _ hr => stakeToPool_sound h hr
  | unstakeFromPool =>
    exact hd _ fun _ _ hr => unstakeFromPool_sound h hr
  | nextBlock iter =>
    exact (onInitialize_sound cfg iter (s.now + 1)).run (s := { s with now := s.now + 1 }) h
  | external l => exact h.setBalances hpos.2 hpos.1

theorem reach_sound {cfg : Config} {s : State A} (hs : (system cfg).Reach NoLateDispute s) :
    s.books.Sound := by
  refine hs.invariant (I := fun s => s.books.Sound) ?_ ?_
  · rintro _ ⟨now, l, rfl, hres, hl⟩
    exact fresh_sound now l hres hl
  · rintro s op _ h hc ⟨hpos, rfl⟩
    exact apply_sound cfg h hpos hc

theorem reach_apply {cfg : Config} {C : State A → Op A → Prop} {s : State A}
    (hs : (system cfg).Reach C s) (op : Op A) (hpos : op.Possible s) (hc : C s op) :
    (system cfg).Reach C (apply cfg s op) :=
  hs.step hc ⟨hpos, rfl⟩

/-- **Escrow backing.** In every state of a run without a late dispute the reserve of each
account is the deposit of its pool plus its stakes plus its open escrows, the recorded total of
each pool is the sum of its stakes, and the reward of each task that was ever locked is still
there, was paid to the pool owner, or was given back: one of the three. -/
theorem escrow_backing (cfg : Config) (s : State A) (hs : (system cfg).Reach NoLateDispute s) :
    (∀ u, s.balances.reserved u =
      s.books.heldDeposit u + s.books.stakedBy u + s.books.escrowedBy u) ∧
    (∀ p, s.totalPoolStake.getD p 0 = s.books.stakedIn p) ∧
    (∀ t, Books.HistoryFits t (Books.history s.moves t) (s.taskEscrowStore.get t)) :=
  ⟨(reach_sound hs).backed, (reach_sound hs).totals_eq, (reach_sound hs).history_fits⟩

/-! ## One task from start to dispute

Account 0 owns the only pool; account 1 stakes 30 in it and has a task computed for 50. -/

def demoConfig : Config where
  poolDeposit := 100
  taskDeposit := 10
  failureSlash := 5
  taskTimeout := 1000
  maxTasksPerPool := 10
  initialReputation := 80
  verificationTimeout := 50

def demoStart : State Nat :=
  .fresh 1 ⟨((∅ : StorageMap Nat AccountData).insert 0 ⟨1000, 0, 0⟩).insert 1 ⟨1000, 0, 0⟩⟩

def demoStaked : State Nat :=
  apply demoConfig (apply demoConfig demoStart (.registerPool 0 [] 8 false 100 50))
    (.stakeToPool 1 0 30)

def demoProved : State Nat :=
  apply demoConfig (apply demoConfig demoStaked
    (.submitTask 1 ⟨1, 1, 1⟩ .normal (some 0) demoStaked.pools.iter)) (.submitProof 0 0 7)

def demoClaimed : State Nat :=
  apply demoConfig (apply demoConfig demoProved (.verifyProof 1 0 true)) (.claimReward 0 0)

theorem demoClaimed_reach : (system demoConfig).Reach NoLateDispute demoClaimed := by
  have hstart : (system demoConfig).Reach NoLateDispute demoStart := by
    refine .init ⟨1, _, rfl, fun u => ?_, by decide +kernel⟩
    simp only [Balances.reserved, Balances.account, getD_insert, getD_empty]
    split <;> try split
    all_goals rfl
  have hstaked : (system demoConfig).Reach NoLateDispute demoStaked := by
    unfold demoStaked
    refine reach_apply (reach_apply hstart _ ?_ ?_) _ ?_ ?_ <;> exact trivial
  have hfree : demoStaked.balances.free 1 < u128Max := by decide +kernel
  have hproved : (system demoConfig).Reach NoLateDispute demoProved := by
    unfold demoProved
    refine reach_apply (reach_apply hstaked _ ?_ ?_) _ ?_ ?_
    · exact List.Perm.refl _
    · exact hfree
    all_goals exact trivial
  unfold demoClaimed
  refine reach_apply (reach_apply hproved _ ?_ ?_) _ ?_ ?_ <;> exact trivial

theorem escrow_backing_claimed :
    demoClaimed.balances.reserved 1 = 30 ∧
      demoClaimed.books.heldDeposit 1 + demoClaimed.books.stakedBy 1 +
        demoClaimed.books.escrowedBy 1 = 30 := by
  have hb := (escrow_backing demoConfig demoClaimed demoClaimed_reach).1 1
  have hr : demoClaimed.balances.reserved 1 = 30 := by decide +kernel
  exact ⟨hr, hb.symm.trans hr⟩

/-- A dispute filed after the claim pays the escrow out a second time, from the stake. -/
theorem late_dispute_unbacks_stake :
    ∃ s : State Nat, (system demoConfig).Reach (fun _ _ => True) s ∧
      s.balances.reserved 1 ≠
        s.books.heldDeposit 1 + s.books.stakedBy 1 + s.books.escrowedBy 1 ∧
      Books.history s.moves 0 = [.locked 0 1 50, .paid 0 0 50, .returned 0 1 50] := by
  refine ⟨apply demoConfig demoClaimed (.disputeVerification 1 0), ?_, ?_, ?_⟩
  · exact reach_apply (demoClaimed_reach.mono fun _ _ _ => trivial) _ trivial trivial
  · decide +kernel
  · decide +kernel

end DeepBrainChain.ComputePoolScheduler
