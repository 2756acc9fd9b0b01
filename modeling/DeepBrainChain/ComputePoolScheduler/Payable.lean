import DeepBrainChain.ComputePoolScheduler.Tasks

/-!
# Rewards that can be claimed

Whether a reward can be claimed depends on four maps: the tasks, the rewards, the escrows and the
pools. The till reads them at every id. An active task has its escrow, a completed one has its
reward, its escrow and its pool or was claimed, and a failed one has neither reward nor escrow.
Two calls break this: a pool leaves with unclaimed rewards, and a dispute completes a task whose
escrow was given back.
-/

namespace DeepBrainChain.ComputePoolScheduler

open Lib Lib.Call StorageMap Balances

variable {A : Type}

/-! ## The till -/

structure Till (A : Type) where
  pool : Nat → Bool
  task : Nat → Option (ComputeTask A)
  reward : Nat → Option Nat
  escrow : Nat → Option (TaskEscrow A)

def State.till (s : State A) : Till A :=
  ⟨s.pools.contains, s.tasks.get, s.rewards.get, s.taskEscrowStore.get⟩

def Standing (pool : Nat → Bool) (escrow : Option (TaskEscrow A)) (reward : Option Nat) :
    Option (ComputeTask A) → Prop
  | none => escrow = none ∧ reward = none
  | some t =>
    match t.status with
    | .completed => ∃ e, escrow = some e ∧ ((e.claimed = true ∧ reward = none) ∨
        (e.claimed = false ∧ reward = some e.rewardAmount ∧ pool t.poolId = true))
    | .failed => escrow = none ∧ reward = none
    | _ => ∃ e, escrow = some e ∧ e.claimed = false ∧ t.rewardAmount = some e.rewardAmount ∧
        reward = none

namespace Till

def Stands (b : Till A) : Prop := ∀ id, Standing b.pool (b.escrow id) (b.reward id) (b.task id)

def put (b : Till A) (id : Nat) (t : ComputeTask A) (e : Option (TaskEscrow A))
    (r : Option Nat) : Till A where
  pool := b.pool
  task := fun j => if j = id then some t else b.task j
  reward := fun j => if j = id then r else b.reward j
  escrow := fun j => if j = id then e else b.escrow j

variable {b : Till A} {id : Nat} {t t' : ComputeTask A} {e : Option (TaskEscrow A)}
  {r : Option Nat}

theorem Stands.put (h : b.Stands) (hid : Standing b.pool e r (some t)) :
    (b.put id t e r).Stands := by
  intro j
  by_cases hj : j = id
  · simp only [Till.put, hj, if_true]
    exact hid
  · simp only [Till.put, hj, if_false]
    exact h j

theorem Stands.congr {b' : Till A} (h : b.Stands) (he : b' = b) : b'.Stands := he ▸ h

theorem Stands.setPool {f : Nat → Bool} (h : b.Stands)
    (hf : ∀ id t e, b.task id = some t → t.status = .completed → b.escrow id = some e →
      e.claimed = false → b.pool t.poolId = true → f t.poolId = true) :
    Stands { b with pool := f } := by
  intro j
  have hj := h j
  cases ht : b.task j with
  | none =>
    rw [ht] at hj
    simp only
    exact hj
  | some t =>
    rw [ht] at hj
    simp only
    unfold Standing at hj ⊢
    cases hst : t.status
    case completed =>
      simp only [hst] at hj ⊢
      obtain ⟨e, he, hc | ⟨hc, hr, hp⟩⟩ := hj
      · exact ⟨e, he, .inl hc⟩
      · exact ⟨e, he, .inr ⟨hc, hr, hf j t e ht hst he hc hp⟩⟩
    all_goals
      simp only [hst] at hj ⊢
      exact hj

theorem Stands.closePool {p : Nat} (h : b.Stands)
    (hp : ∀ id t e, b.task id = some t → t.status = .completed → t.poolId = p →
      b.escrow id = some e → e.claimed = true) :
    Stands { b with pool := fun q => q ≠ p && b.pool q } := by
  refine h.setPool fun id t e ht hst he hc hpool => ?_
  have hne : t.poolId ≠ p := fun hpe => by cases hc.symm.trans (hp id t e ht hst hpe he)
  simp [hne, hpool]

theorem Stands.active (h : b.Stands) (ht : b.task id = some t) (ha : isTerminal t.status = false) :
    ∃ e, b.escrow id = some e ∧ e.claimed = false ∧ t.rewardAmount = some e.rewardAmount ∧
      b.reward id = none := by
  have hid := h id
  rw [ht] at hid
  unfold Standing at hid
  cases hst : t.status
  case completed => simp [isTerminal, hst] at ha
  case failed => simp [isTerminal, hst] at ha
  all_goals
    simp only [hst] at hid
    exact hid

theorem Stands.completed (h : b.Stands) (ht : b.task id = some t) (hst : t.status = .completed) :
    ∃ e, b.escrow id = some e ∧ ((e.claimed = true ∧ b.reward id = none) ∨
      (e.claimed = false ∧ b.reward id = some e.rewardAmount ∧ b.pool t.poolId = true)) := by
  have hid := h id
  rw [ht] at hid
  unfold Standing at hid
  simp only [hst] at hid
  exact hid

theorem Stands.failed (h : b.Stands) (ht : b.task id = some t) (hst : t.status = .failed) :
    b.escrow id = none ∧ b.reward id = none := by
  have hid := h id
  rw [ht] at hid
  unfold Standing at hid
  simp only [hst] at hid
  exact hid

theorem Stands.absent (h : b.Stands) (ht : b.task id = none) :
    b.escrow id = none ∧ b.reward id = none := by
  have hid := h id
  rw [ht] at hid
  exact hid

end Till

variable {pool : Nat → Bool}

theorem Standing.of_active {t : ComputeTask A} {e : TaskEscrow A} (ha : isTerminal t.status = false)
    (hc : e.claimed = false)
    (hr : t.rewardAmount = some e.rewardAmount) : Standing pool (some e) none (some t) := by
  unfold Standing
  cases hst : t.status
  case completed => simp [isTerminal, hst] at ha
  case failed => simp [isTerminal, hst] at ha
  all_goals
    simp only [hst]
    exact ⟨e, rfl, hc, hr, trivial⟩

theorem Standing.of_completed {t : ComputeTask A} {e : TaskEscrow A} (hst : t.status = .completed)
    (hc : e.claimed = false) (hp : pool t.poolId = true) :
    Standing pool (some e) (some e.rewardAmount) (some t) := by
  unfold Standing
  simp only [hst]
  exact ⟨e, rfl, .inr ⟨hc, rfl, hp⟩⟩

theorem Standing.of_claimed {t : ComputeTask A} {e : TaskEscrow A} (hst : t.status = .completed)
    (hc : e.claimed = true) : Standing pool (some e) none (some t) := by
  unfold Standing
  simp only [hst]
  exact ⟨e, rfl, .inl ⟨hc, trivial⟩⟩

theorem Standing.of_failed {t : ComputeTask A} (hst : t.status = .failed) :
    Standing pool none none (some t) := by
  unfold Standing
  simp only [hst]
  exact ⟨trivial, trivial⟩

/-! ## What the functions write to it -/

section Writes

variable (s : State A)

theorem Till.ext {b b' : Till A} (hp : b.pool = b'.pool) (ht : b.task = b'.task)
    (hr : b.reward = b'.reward) (he : b.escrow = b'.escrow) : b = b' := by
  cases b
  cases b'
  simp only [Till.mk.injEq]
  exact ⟨hp, ht, hr, he⟩

theorem till_of_core {s s' : State A} (h : s'.core = s.core) : s'.till = s.till :=
  congrArg (fun c : Core A => (⟨c.pool, c.tasks.get, c.rewards.get, c.escrows.get⟩ : Till A)) h

theorem till_insertTask (id : Nat) (t : ComputeTask A) :
    (s.insertTask id t).till =
      s.till.put id t (s.taskEscrowStore.get id) (s.rewards.get id) := by
  refine Till.ext rfl ?_ ?_ ?_
  · funext j
    exact get_insert ..
  · funext j
    show s.rewards.get j = if j = id then s.rewards.get id else s.rewards.get j
    split
    · next hj => rw [hj]
    · rfl
  · funext j
    show s.taskEscrowStore.get j =
      if j = id then s.taskEscrowStore.get id else s.taskEscrowStore.get j
    split
    · next hj => rw [hj]
    · rfl

theorem till_insertReward (id r : Nat) :
    (s.insertReward id r).till =
      { s.till with reward := fun j => if j = id then some r else s.till.reward j } := by
  refine Till.ext rfl rfl ?_ rfl
  funext j
  exact get_insert ..

variable [DecidableEq A]

def Till.release (b : Till A) (id : Nat) : Till A :=
  { b with
    reward := fun j => if j = id then none else b.reward j
    escrow := fun j => if j = id then none else b.escrow j }

theorem till_releaseEscrow (id : Nat) : (releaseEscrow id s).till = s.till.release id := by
  unfold releaseEscrow
  cases he : s.taskEscrowStore.get id with
  | none =>
    refine Till.ext ?_ ?_ ?_ ?_
    · simp [State.removeReward, he, State.till, Till.release]
    · simp [State.removeReward, he, State.till, Till.release]
    · funext j
      simp only [State.removeReward, he, State.till, Till.release, get_remove]
    · funext j
      simp only [State.removeReward, he, State.till, Till.release]
      split
      · next hj => rw [hj, he]
      · rfl
  | some e =>
    refine Till.ext ?_ ?_ ?_ ?_
    · simp [State.removeReward, State.returnEscrow, State.setBalances, he, State.till, Till.release]
    · simp [State.removeReward, State.returnEscrow, State.setBalances, he, State.till, Till.release]
    · funext j
      simp only [State.removeReward, State.returnEscrow, State.setBalances, he, State.till,
        Till.release, get_remove]
    · funext j
      simp only [State.removeReward, State.returnEscrow, State.setBalances, he, State.till,
        Till.release, get_remove]

end Writes

variable [DecidableEq A]

/-! ## Verdicts -/

section Verdicts

variable {s s' : State A} {cfg : Config} {id p : Nat} {t : ComputeTask A}

section

omit [DecidableEq A]

theorem till_put_release (b : Till A) (t : ComputeTask A) (e : Option (TaskEscrow A))
    (r : Option Nat) : (b.put id t e r).release id = b.put id t none none := by
  refine Till.ext rfl rfl ?_ ?_ <;>
  · funext j
    simp only [Till.put, Till.release]
    split <;> rfl

end

/-- A verdict fills in the reward of a completed task, or returns the escrow of a failed one. -/
def Till.judge (b : Till A) (id : Nat) (t : ComputeTask A) (result : Bool) : Till A :=
  if result then b.put id (t.verdict true) (b.escrow id) (t.rewardAmount.or (b.reward id))
  else b.put id (t.verdict false) none none

theorem judge_till (p : Nat) (result : Bool) :
    (s.judge cfg id t p result).till = s.till.judge id t result := by
  have hs1 : ((updateReputation p result (decrementPoolActivity p id (s.insertTask id
      (t.verdict result)))).removeProofSubmittedAt id).till =
      s.till.put id (t.verdict result) (s.till.escrow id) (s.till.reward id) :=
    (till_of_core (core_updateReputation ..)).trans (till_insertTask s id _)
  unfold State.judge Till.judge
  cases result with
  | true =>
    simp only [if_true]
    cases t.rewardAmount with
    | none => exact hs1
    | some r =>
      refine (till_insertReward _ id r).trans ?_
      rw [hs1]
      refine Till.ext rfl rfl ?_ rfl
      funext j
      simp only [Till.put]
      split <;> rfl
  | false =>
    simp only [Bool.false_eq_true, if_false]
    rw [till_of_core (core_slashPool ..), till_releaseEscrow, hs1, till_put_release]

omit [DecidableEq A] in
theorem Till.Stands.judge {b : Till A} (h : b.Stands) (ht : b.task id = some t)
    (ha : isTerminal t.status = false) (hp : b.pool t.poolId = true) (result : Bool) :
    (b.judge id t result).Stands := by
  obtain ⟨e, he, hc, hr, hnone⟩ := h.active ht ha
  unfold Till.judge
  cases result with
  | true =>
    rw [if_pos rfl, he, hr]
    exact h.put (.of_completed rfl hc hp)
  | false =>
    rw [if_neg Bool.false_ne_true]
    exact h.put (.of_failed rfl)

theorem judge_stands {max : Nat} (hroll : s.roll.Exact max) (ht : s.tasks.get id = some t)
    (ha : isTerminal t.status = false) (result : Bool) (h : s.till.Stands) :
    (s.judge cfg id t t.poolId result).till.Stands := by
  rw [judge_till]
  exact h.judge ht ha (hroll.employed id t _ ht (t.workplace_active ha)) result

end Verdicts

/-! ## Extrinsics -/

section Extrinsics

variable {s s' : State A} {cfg : Config} {sender : A} {id p max : Nat} {u : Unit}

variable {gpuModel : List UInt8} {gpuMemory pricePerTask nvlinkEfficiency : Nat}
  {hasNvlink : Bool} {poolsIter : List (Nat × ComputePool A)} {preferred : Option Nat}

theorem registerPool_till (h : s.till.Stands)
    (hr : (registerPool cfg sender gpuModel gpuMemory hasNvlink nvlinkEfficiency pricePerTask).run
      s = (.ok u, s')) : s'.till.Stands := by
  have hroll := congrArg Roll.pool (registerPool_roll hr)
  unfold registerPool ensureNvlink reserve at hr
  simp only [run_ok] at hr
  obtain ⟨-, -, -, -, _, ⟨b, -, rfl⟩, next, -, rfl⟩ := hr
  refine h.setPool fun _ t _ _ _ _ _ hp => (congrFun hroll t.poolId).trans ?_
  have hold : s.roll.pool t.poolId = true := hp
  simp only [Roll.openPool, hold, Bool.or_true]

theorem updatePoolConfig_till
    (hr : (updatePoolConfig sender p gpuModel gpuMemory hasNvlink nvlinkEfficiency
      pricePerTask).run s = (.ok u, s')) : s'.till = s.till := by
  unfold updatePoolConfig ensureNvlink at hr
  simp only [run_ok] at hr
  obtain ⟨-, -, -, pool, hp, -, -, rfl⟩ := hr
  exact till_of_core (core_insertPool hp _)

theorem deregisterPool_till (hr : (deregisterPool sender p).run s = (.ok u, s')) :
    s'.till = { s.till with pool := fun q => q ≠ p && s.till.pool q } := by
  have hroll := congrArg Roll.pool (deregisterPool_roll hr).2
  unfold deregisterPool unreserve at hr
  simp only [run_ok] at hr
  obtain ⟨pool, -, -, -, rfl⟩ := hr
  exact Till.ext hroll rfl rfl rfl

theorem submitTask_till {dimensions : TaskDimensions} {priority : TaskPriority}
    (hr : (submitTask cfg sender dimensions priority preferred poolsIter).run s = (.ok u, s')) :
    ∃ t e, t.status = .computing ∧ e.claimed = false ∧ t.rewardAmount = some e.rewardAmount ∧
      s'.till = s.till.put s.nextTaskId t (some e) (s.till.reward s.nextTaskId) := by
  obtain ⟨q, score, p, pool, reward, l, -, -, -, rfl⟩ := submitTask_ok hr
  have htill : (s.scored q score).till = s.till := till_of_core (core_mutatePool ..)
  refine ⟨⟨s.nextTaskId, sender, p, dimensions, priority, .computing, s.now, none, none,
    some reward, false⟩, ⟨sender, pool.owner, reward, cfg.taskDeposit, false⟩, rfl, rfl, rfl, ?_⟩
  rw [← htill]
  refine Till.ext rfl ?_ ?_ ?_
  · funext j
    exact get_insert ..
  · funext j
    show _ = if j = s.nextTaskId then _ else _
    split
    · next hj => rw [hj]; rfl
    · rfl
  · funext j
    exact get_insert ..

theorem claimReward_till (hr : (claimReward sender id).run s = (.ok u, s')) :
    ∃ t e, s.till.task id = some t ∧ t.status = .completed ∧ s.till.escrow id = some e ∧
      s'.till = s.till.put id t (some { e with claimed := true }) none := by
  unfold claimReward at hr
  simp only [run_ok] at hr
  obtain ⟨t, ht, hst, -, pool, -, -, reward, -, e, he, -, moved, -, -, rfl⟩ := hr
  refine ⟨t, e, ht, hst, he, Till.ext rfl ?_ ?_ ?_⟩
  · funext j
    show s.tasks.get j = if j = id then some t else s.tasks.get j
    split
    · next hj => rw [hj, ht]
    · rfl
  · funext j
    exact get_remove ..
  · funext j
    exact get_insert ..

theorem disputeVerification_till (hf : ∀ t, s.tasks.get id = some t → t.WellFormed)
    (hfail : ∀ t, s.tasks.get id = some t → t.status ≠ .failed)
    (hr : (disputeVerification cfg sender id).run s = (.ok u, s')) :
    ∃ t, t.status = .failed ∧ s'.till = s.till.put id t none none := by
  obtain ⟨t, ht, hterm, -, ⟨-, rfl⟩ | ⟨hfalse, -⟩⟩ := disputeVerification_ok hr
  · refine ⟨{ t.verdict false with disputed := true }, rfl, ?_⟩
    rw [till_of_core (core_slashPool ..), till_releaseEscrow,
      till_of_core (core_updateReputation ..),
      till_insertTask, till_put_release]
  · have hwell := hf t ht
    unfold ComputeTask.WellFormed at hwell
    have hst : t.status = .completed := by
      have hne := hfail t ht
      cases hst : t.status <;> simp_all [isTerminal]
    rw [hst] at hwell
    cases hwell.symm.trans hfalse

end Extrinsics

/-! ## The hook -/

/-! ## Runs -/

/-- The roll is exact and the till covers what it owes. -/
structure Orderly (max : Nat) (s : State A) : Prop where
  roll : s.roll.Exact max
  till : s.till.Stands

/-- No pool leaves while one of its completed tasks is unclaimed, and nobody disputes a failed
task. -/
def NothingStranded (s : State A) : Op A → Prop
  | .deregisterPool _ p => ∀ id t e, s.tasks.get id = some t → t.status = .completed →
      t.poolId = p → s.taskEscrowStore.get id = some e → e.claimed = true
  | .disputeVerification _ id => ∀ t, s.tasks.get id = some t → t.status ≠ .failed
  | _ => True

section Steps

variable {cfg : Config} {s : State A} {op : Op A}

theorem apply_stands (h : Orderly cfg.maxTasksPerPool s) (hpos : op.Walks s)
    (hc : NothingStranded s op) : (apply cfg s op).till.Stands := by
  have hd (c : M A Unit) := dispatch_keeps (c := c) (I := fun s' => s'.till.Stands) h.till
  cases op with
  | registerPool =>
    exact hd _ fun _ _ hr => registerPool_till h.till hr
  | updatePoolConfig =>
    exact hd _ fun _ _ hr => h.till.congr (updatePoolConfig_till hr)
  | deregisterPool sender p =>
    refine hd _ fun _ _ hr => ?_
    exact (h.till.closePool hc).congr (deregisterPool_till hr)
  | submitTask =>
    refine hd _ fun _ s' hr => ?_
    obtain ⟨t, e, hst, hcl, hamount, htill⟩ := submitTask_till hr
    have hnone : s.till.reward s.nextTaskId = none := (h.till.absent h.roll.next_none).2
    rw [htill, hnone]
    exact h.till.put (.of_active (by rw [hst]; rfl) hcl hamount)
  | submitProof sender id hash =>
    refine hd _ fun _ s' hr => ?_
    obtain ⟨t, ht, hst, rfl⟩ := submitProof_ok hr
    obtain ⟨e, he, hcl, hamount, hnone⟩ := h.till.active ht (by rw [hst]; rfl)
    have hput := till_insertTask s id { t with
      proofHash := some hash, status := .proofSubmitted }
    change s.taskEscrowStore.get id = some e at he
    change s.rewards.get id = none at hnone
    rw [he, hnone] at hput
    refine Till.Stands.congr (h.till.put ?_) hput
    exact .of_active rfl hcl hamount
  | verifyProof =>
    refine hd _ fun _ s' hr => ?_
    obtain ⟨t, ht, hst, rfl⟩ := verifyProof_ok hr
    exact judge_stands h.roll ht (by rw [hst]; rfl) _ h.till
  | claimReward =>
    refine hd _ fun _ s' hr => ?_
    obtain ⟨t, e, ht, hst, -, htill⟩ := claimReward_till hr
    rw [htill]
    exact h.till.put (.of_claimed hst rfl)
  | disputeVerification sender id =>
    refine hd _ fun _ s' hr => ?_
    obtain ⟨t, hst, htill⟩ := disputeVerification_till (fun t ht => h.roll.formed id t ht) hc hr
    rw [htill]
    exact h.till.put (.of_failed hst)
  | stakeToPool =>
    refine hd _ fun _ s' hr => ?_
    unfold stakeToPool reserve at hr
    simp only [run_ok] at hr
    obtain ⟨-, _, ⟨b, -, rfl⟩, rfl⟩ := hr
    exact h.till
  | unstakeFromPool =>
    refine hd _ fun _ s' hr => ?_
    unfold unstakeFromPool unreserve at hr
    simp only [run_ok] at hr
    obtain ⟨-, rfl⟩ := hr
    exact h.till
  | nextBlock iter =>
    exact (onInitialize_rule (s := { s with now := s.now + 1 }) (I := fun _ s1 => s1.till.Stands)
      h.roll hpos h.till
      (fun s1 id _ t h1 ht hst hI => judge_stands h1 ht (by rw [hst]; rfl) true hI)
      fun s1 id t h1 ht ha _ hI => judge_stands h1 ht ha false hI).2.2
  | external l => exact h.till

theorem reach_orderly (hmax : cfg.maxTasksPerPool ≤ u32Max)
    (hs : (taskSystem cfg).Reach NothingStranded s) : Orderly cfg.maxTasksPerPool s := by
  refine hs.invariant (I := fun s => Orderly cfg.maxTasksPerPool s) ?_ ?_
  · rintro s hinit
    refine ⟨reach_roll hmax (C := NothingStranded) (.init hinit), ?_⟩
    obtain ⟨now, l, rfl⟩ := hinit
    intro id
    exact ⟨get_empty id, get_empty id⟩
  · rintro s op _ h hc ⟨hpos, rfl⟩
    exact ⟨(apply_rolls hmax h.roll hpos).1, apply_stands h hpos hc⟩

theorem claimReward_succeeds {id r : Nat} {t : ComputeTask A} {e : TaskEscrow A}
    {pool : ComputePool A} (ht : s.tasks.get id = some t) (hst : t.status = .completed)
    (hres : t.verificationResult = some true) (hpool : s.pools.get t.poolId = some pool)
    (hr : s.rewards.get id = some r) (he : s.taskEscrowStore.get id = some e)
    (hcl : e.claimed = false) (hfits : s.balances.issuance ≤ u128Max)
    (halive : s.balances.Live pool.owner) (hcover : r ≤ s.balances.reserved e.user) :
    ((claimReward pool.owner id).run s).1.isOk = true := by
  obtain ⟨b, hb, -⟩ := repatriateReserved_paid hfits (.inr halive) hcover
  unfold claimReward
  simp only [run_bind, run_get, ht, run_okOr_some, run_ensure, hst, if_true, hres, hpool, hr, he,
    hcl, hb, run_set, run_modify]
  rfl

end Steps

/-- **No reward is stranded** in a run in which no pool leaves with an unclaimed task and nobody
disputes a failed one: a completed task that was not claimed can be claimed by the owner of its
pool, rewards are recorded for such tasks only, an open escrow belongs to a task that is active or
completed, and every task has its escrow open, claimed or given back. -/
theorem rewards_claimable (cfg : Config) (hmax : cfg.maxTasksPerPool ≤ u32Max) (s : State A)
    (hs : (taskSystem cfg).Reach NothingStranded s) :
    (∀ id t, s.tasks.get id = some t → t.status = .completed → (∀ e, s.taskEscrowStore.get id = some
      e → e.claimed = false) → ∃ e pool, s.taskEscrowStore.get id = some e ∧ s.rewards.get id = some
      e.rewardAmount ∧ s.pools.get t.poolId = some pool ∧ (s.balances.issuance ≤ u128Max →
      s.balances.Live pool.owner → e.rewardAmount ≤ s.balances.reserved e.user →
      ((claimReward pool.owner id).run s).1.isOk = true)) ∧
    (∀ id r, s.rewards.get id = some r → ∃ t e, s.tasks.get id = some t ∧
      t.status = .completed ∧ s.taskEscrowStore.get id = some e ∧ e.claimed = false) ∧
    (∀ id e, s.taskEscrowStore.get id = some e → e.claimed = false →
      ∃ t, s.tasks.get id = some t ∧ (t.status = .completed ∨ isTerminal t.status = false)) ∧
    ∀ id t, s.tasks.get id = some t →
      (∃ e, s.taskEscrowStore.get id = some e) ∨
        (t.status = .failed ∧ s.taskEscrowStore.get id = none) := by
  have h := reach_orderly hmax hs
  have hterm : ∀ t : ComputeTask A, t.status = .completed ∨ t.status = .failed ∨
      isTerminal t.status = false := by
    intro t
    cases hst : t.status <;> simp [isTerminal]
  refine ⟨fun id t ht hst hcl => ?_, fun id r hr => ?_, fun id e he hcl => ?_, fun id t ht => ?_⟩
  · obtain ⟨e, he, ⟨hc, -⟩ | ⟨hc, hr, hp⟩⟩ := h.till.completed ht hst
    · rw [hcl e he] at hc
      cases hc
    · obtain ⟨pool, hpool⟩ := Option.isSome_iff_exists.1 hp
      have hres : t.verificationResult = some true := by
        have hwell := h.roll.formed id t ht
        unfold ComputeTask.WellFormed at hwell
        rw [hst] at hwell
        exact hwell
      exact ⟨e, pool, he, hr, hpool, fun hfits halive hcover =>
        claimReward_succeeds ht hst hres hpool hr he hc hfits halive hcover⟩
  · cases ht : s.tasks.get id with
    | none =>
      have hnone := (h.till.absent ht).2
      cases hr.symm.trans hnone
    | some t =>
      rcases hterm t with hst | hst | hst
      · obtain ⟨e, he, ⟨-, hnone⟩ | ⟨hc, -⟩⟩ := h.till.completed ht hst
        · cases hr.symm.trans hnone
        · exact ⟨t, e, rfl, hst, he, hc⟩
      · have hnone := (h.till.failed ht hst).2
        cases hr.symm.trans hnone
      · obtain ⟨e, -, -, -, hnone⟩ := h.till.active ht hst
        cases hr.symm.trans hnone
  · cases ht : s.tasks.get id with
    | none =>
      have hnone := (h.till.absent ht).1
      cases he.symm.trans hnone
    | some t =>
      refine ⟨t, rfl, ?_⟩
      rcases hterm t with hst | hst | hst
      · exact .inl hst
      · have hnone := (h.till.failed ht hst).1
        cases he.symm.trans hnone
      · exact .inr hst
  · rcases hterm t with hst | hst | hst
    · obtain ⟨e, he, -⟩ := h.till.completed ht hst
      exact .inl ⟨e, he⟩
    · exact .inr ⟨hst, (h.till.failed ht hst).1⟩
    · obtain ⟨e, he, -⟩ := h.till.active ht hst
      exact .inl ⟨e, he⟩

/-! ## One completed task -/

namespace PayableDemo

def opened : State Nat := apply demoConfig demoStart (.registerPool 0 [] 8 false 100 50)

/-- The task of account 1 waits for its verdict; its reward is 50. -/
def ops : List (Op Nat) :=
  [.registerPool 0 [] 8 false 100 50,
    .submitTask 1 ⟨1, 1, 1⟩ .normal (some 0) opened.pools.iter, .submitProof 0 0 7]

def after (l : List (Op Nat)) : State Nat := (ops ++ l).foldl (apply demoConfig) demoStart

theorem after_reach {C : State Nat → Op Nat → Prop} {l : List (Op Nat)}
    (hops : ∀ op ∈ ops, ∀ s, C s op)
    (hl : System.Path (apply demoConfig) (fun s op => op.Walks s ∧ C s op) l (after [])) :
    (taskSystem demoConfig).Reach C (after l) := by
  have hstart : (taskSystem demoConfig).Reach C (after []) := by
    refine System.Reach.path (P := fun s op => op.Walks s ∧ C s op) (.init ⟨1, _, rfl⟩)
      (fun s op h => ⟨h.2, h.1, rfl⟩) ?_
    exact ⟨⟨trivial, hops _ (by simp [ops]) _⟩, ⟨List.Perm.refl _, hops _ (by simp [ops]) _⟩,
      ⟨trivial, hops _ (by simp [ops]) _⟩, trivial⟩
  have hend := hstart.path (P := fun s op => op.Walks s ∧ C s op)
    (fun s op h => ⟨h.2, h.1, rfl⟩) hl
  unfold after at hend ⊢
  rw [List.append_nil, ← List.foldl_append] at hend
  exact hend

end PayableDemo

theorem rewards_claimable_demo :
    (∃ t e, (PayableDemo.after [.verifyProof 1 0 true]).tasks.get 0 = some t ∧ t.status = .completed
      ∧ (PayableDemo.after [.verifyProof 1 0 true]).taskEscrowStore.get 0 = some e ∧ e.claimed =
      false) ∧
    ((claimReward 0 0).run (PayableDemo.after [.verifyProof 1 0 true])).1.isOk = true := by
  have hreach : (taskSystem demoConfig).Reach NothingStranded
      (PayableDemo.after [.verifyProof 1 0 true]) := by
    refine PayableDemo.after_reach (fun op hop s => ?_) ⟨⟨trivial, trivial⟩, trivial⟩
    simp only [PayableDemo.ops, List.mem_cons, List.not_mem_nil, or_false] at hop
    rcases hop with rfl | rfl | rfl <;> trivial
  exact ⟨(rewards_claimable demoConfig (by decide) _ hreach).2.1 0 50 (by decide +kernel),
    by decide +kernel⟩

/-- The pool leaves after the verdict, and its owner cannot claim the reward any more. In the other
run the task fails, its escrow is given back, and a dispute completes it: a reward without an
escrow. -/
theorem rewards_stranded :
    (∃ s : State Nat, (taskSystem demoConfig).Reach (fun _ _ => True) s ∧ (s.tasks.get 0).map
      ComputeTask.status = some .completed ∧ (s.taskEscrowStore.get 0).map TaskEscrow.claimed = some
      false ∧ s.rewards.get 0 = some 50 ∧ s.pools.contains 0 = false ∧ ((claimReward 0 0).run
      s).1.isOk = false) ∧
    ∃ s : State Nat, (taskSystem demoConfig).Reach (fun _ _ => True) s ∧
      (s.tasks.get 0).map ComputeTask.status = some .completed ∧ s.rewards.get 0 = some 50 ∧
      s.taskEscrowStore.contains 0 = false ∧ ((claimReward 0 0).run s).1.isOk = false := by
  refine ⟨⟨PayableDemo.after [.verifyProof 1 0 true, .deregisterPool 0 0], ?_, by decide +kernel,
    by decide +kernel, by decide +kernel, by decide +kernel, by decide +kernel⟩,
    ⟨PayableDemo.after [.verifyProof 1 0 false, .disputeVerification 1 0], ?_, by decide +kernel,
      by decide +kernel, by decide +kernel, by decide +kernel⟩⟩
  · exact PayableDemo.after_reach (fun _ _ _ => trivial)
      ⟨⟨trivial, trivial⟩, ⟨trivial, trivial⟩, trivial⟩
  · exact PayableDemo.after_reach (fun _ _ _ => trivial)
      ⟨⟨trivial, trivial⟩, ⟨trivial, trivial⟩, trivial⟩

end DeepBrainChain.ComputePoolScheduler
