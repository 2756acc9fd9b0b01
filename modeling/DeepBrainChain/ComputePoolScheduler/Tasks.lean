import DeepBrainChain.Lib.Index
import DeepBrainChain.ComputePoolScheduler.Run

/-!
# The roll of active tasks

The part of the storage that says which task is at work in which pool: the tasks, the list and the
counter of each pool, and which pools there are. The roll is exact when list and counter agree
with the tasks. A task is admitted to a pool, written, and leaves it when its status is final.
-/

namespace DeepBrainChain.ComputePoolScheduler

open Lib StorageMap List

variable {A : Type}

structure Roll (A : Type) where
  nextPoolId : Nat
  nextTaskId : Nat
  pool : Nat → Bool
  tasks : StorageMap Nat (ComputeTask A)
  poolTasks : StorageMap Nat (List Nat)
  activeTaskCount : StorageMap Nat Nat

def State.roll (s : State A) : Roll A :=
  ⟨s.nextPoolId, s.nextTaskId, s.pools.contains, s.tasks, s.poolTasks, s.activeTaskCount⟩

def ComputeTask.workplace (t : ComputeTask A) : Option Nat :=
  if isTerminal t.status then none else some t.poolId

/-- A status as it is found between calls, with the data that goes with it. -/
def ComputeTask.WellFormed (t : ComputeTask A) : Prop :=
  match t.status with
  | .computing => True
  | .proofSubmitted => t.proofHash.isSome = true
  | .completed => t.verificationResult = some true
  | .failed => t.verificationResult = some false
  | .pending | .assigned | .verifying => False

namespace Roll

def listOf (r : Roll A) (p : Nat) : List Nat := r.poolTasks.getD p []

def setTask (r : Roll A) (id : Nat) (t : ComputeTask A) : Roll A :=
  { r with tasks := r.tasks.insert id t }

def enroll (r : Roll A) (p : Nat) (t : ComputeTask A) : Roll A :=
  { r with
    nextTaskId := r.nextTaskId + 1
    tasks := r.tasks.insert r.nextTaskId t
    poolTasks := r.poolTasks.insert p (r.listOf p ++ [r.nextTaskId])
    activeTaskCount := r.activeTaskCount.insert p
      (saturatingAdd u32Max (r.activeTaskCount.getD p 0) 1) }

def leave (r : Roll A) (p id : Nat) : Roll A :=
  { r with
    activeTaskCount := r.activeTaskCount.insert p (r.activeTaskCount.getD p 0 - 1)
    poolTasks := r.poolTasks.insert p ((r.listOf p).filter fun x => x ≠ id) }

def openPool (r : Roll A) : Roll A :=
  { r with
    nextPoolId := r.nextPoolId + 1
    pool := fun q => q = r.nextPoolId || r.pool q
    activeTaskCount := r.activeTaskCount.insert r.nextPoolId 0 }

def closePool (r : Roll A) (p : Nat) : Roll A :=
  { r with
    pool := fun q => q ≠ p && r.pool q
    poolTasks := r.poolTasks.remove p
    activeTaskCount := r.activeTaskCount.remove p }

/-- **The roll is exact.** -/
structure Exact (max : Nat) (r : Roll A) : Prop where
  listed : Lib.Exact r.tasks.get (fun p id => id ∈ r.listOf p) ComputeTask.workplace
  nodup : ∀ p, (r.listOf p).Nodup
  count : ∀ p, r.activeTaskCount.getD p 0 = (r.listOf p).length
  count_le : ∀ p, (r.listOf p).length ≤ max
  employed : ∀ id t p, r.tasks.get id = some t → t.workplace = some p → r.pool p = true
  pool_lt : ∀ p, r.pool p = true → p < r.nextPoolId
  task_lt : ∀ id t, r.tasks.get id = some t → id < r.nextTaskId
  formed : ∀ id t, r.tasks.get id = some t → t.WellFormed

variable {r : Roll A} {max p id : Nat} {t t' : ComputeTask A}

theorem tasks_setTask (r : Roll A) (id : Nat) (t : ComputeTask A) (j : Nat) :
    (r.setTask id t).tasks.get j = if j = id then some t else r.tasks.get j :=
  get_insert ..

/-- What holds of every task and of the one that is written holds of every task after. -/
theorem forall_setTask {P : Nat → ComputeTask A → Prop}
    (hold : ∀ j x, r.tasks.get j = some x → P j x)
    (hnew : P id t) (j : Nat) (x : ComputeTask A) (hx : (r.setTask id t).tasks.get j = some x) :
    P j x := by
  rw [tasks_setTask] at hx
  split at hx
  · next hj =>
    cases hx
    rw [hj]
    exact hnew
  · exact hold j x hx

theorem listOf_leave (r : Roll A) (p id q : Nat) :
    (r.leave p id).listOf q = if q = p then (r.listOf p).filter fun x => x ≠ id else r.listOf q :=
  getD_insert ..

theorem listOf_enroll (r : Roll A) (p : Nat) (t : ComputeTask A) (q : Nat) :
    (r.enroll p t).listOf q = if q = p then r.listOf p ++ [r.nextTaskId] else r.listOf q :=
  getD_insert ..

namespace Exact

section

variable (h : r.Exact max)

include h

theorem mem_listOf (ht : r.tasks.get id = some t) (hw : t.workplace = some p) :
    id ∈ r.listOf p := h.listed.listed_of ht hw

theorem next_none : r.tasks.get r.nextTaskId = none := by
  cases hg : r.tasks.get r.nextTaskId with
  | none => rfl
  | some t => exact absurd (h.task_lt _ t hg) (Nat.lt_irrefl _)

theorem listOf_nil (hzero : r.activeTaskCount.getD p 0 = 0) : r.listOf p = [] := by
  rw [h.count] at hzero
  exact eq_nil_of_length_eq_zero hzero

theorem setTask (ht : r.tasks.get id = some t)
    (hw : t'.workplace = t.workplace) (hf : t'.WellFormed) : (r.setTask id t').Exact max :=
  { h with
    listed := h.listed.rewrite ht (r.tasks_setTask id t') hw
    employed := fun j x q hx => forall_setTask (P := fun _ x => x.workplace = some q → _)
      (fun j x hx => h.employed j x q hx) (fun hp => h.employed id t q ht (hw ▸ hp)) j x hx
    task_lt := forall_setTask h.task_lt (h.task_lt id t ht)
    formed := forall_setTask h.formed hf }

theorem finish (ht : r.tasks.get id = some t) (hp : t.workplace = some p) (hw : t'.workplace = none)
    (hf : t'.WellFormed) : ((r.setTask id t').leave p id).Exact max where
  listed := by
    refine h.listed.replace ht (r.tasks_setTask id t') fun q j => ?_
    simp only [listOf_leave, hp, hw, Option.some.injEq, reduceCtorEq, false_and, or_false]
    by_cases hq : q = p
    · subst hq
      rw [if_pos rfl, mem_filter]
      simp only [true_and, decide_eq_true_eq]
      exact Iff.rfl
    · rw [if_neg hq]
      simp only [Ne.symm hq, false_and, not_false_eq_true, and_true]
      exact Iff.rfl
  nodup := by
    intro q
    rw [listOf_leave]
    split
    · exact (h.nodup p).filter _
    · exact h.nodup q
  count := by
    intro q
    have hmem : id ∈ r.listOf p := h.mem_listOf ht hp
    have hlen : ((r.listOf p).filter fun x => x ≠ id).length = (r.listOf p).length - 1 := by
      rw [← length_erase_of_mem hmem, (h.nodup p).erase_eq_filter id]
      refine congrArg List.length (filter_congr fun x _ => ?_)
      by_cases hx : x = id <;> simp [hx]
    rw [listOf_leave]
    show (r.activeTaskCount.insert p (r.activeTaskCount.getD p 0 - 1)).getD q 0 = _
    rw [getD_insert, h.count]
    split
    · exact hlen.symm
    · exact h.count q
  count_le := by
    intro q
    rw [listOf_leave]
    split
    · exact (length_filter_le ..).trans (h.count_le p)
    · exact h.count_le q
  employed := by
    intro j x q
    refine forall_setTask (P := fun _ x => x.workplace = some q → r.pool q = true)
      (fun j x hx => h.employed j x q hx) (fun hq => ?_) j x
    rw [hw] at hq
    cases hq
  pool_lt := h.pool_lt
  task_lt := forall_setTask h.task_lt (h.task_lt id t ht)
  formed := forall_setTask h.formed hf

theorem enroll (hmax : max ≤ u32Max) (hpool : r.pool p = true) (hroom : (r.listOf p).length < max)
    (hw : t.workplace = some p) (hf : t.WellFormed) : (r.enroll p t).Exact max where
  listed := by
    refine h.listed.insert h.next_none (fun j => get_insert ..) fun q j => ?_
    rw [listOf_enroll]
    by_cases hq : q = p
    · subst hq
      rw [if_pos rfl, mem_append, mem_singleton, hw]
      simp
    · rw [if_neg hq, hw]
      simp [Ne.symm hq]
  nodup := by
    intro q
    rw [listOf_enroll]
    split
    · refine nodup_append.2 ⟨h.nodup p, nodup_singleton _, ?_⟩
      rintro x hx y hy rfl
      rw [mem_singleton.1 hy] at hx
      exact h.listed.notListed h.next_none p hx
    · exact h.nodup q
  count := by
    intro q
    rw [listOf_enroll]
    show (r.activeTaskCount.insert p (saturatingAdd u32Max (r.activeTaskCount.getD p 0) 1)).getD q
      0 = _
    rw [getD_insert, h.count, saturatingAdd_of_le (by omega)]
    split
    · rw [length_append]
      rfl
    · exact h.count q
  count_le := by
    intro q
    rw [listOf_enroll]
    split
    · rw [length_append]
      exact hroom
    · exact h.count_le q
  employed := by
    intro j x q
    refine forall_setTask (P := fun _ x => x.workplace = some q → r.pool q = true)
      (fun j x hx => h.employed j x q hx) (fun hq => ?_) j x
    rw [hw] at hq
    cases hq
    exact hpool
  pool_lt := h.pool_lt
  task_lt := forall_setTask (fun j x hx => (h.task_lt j x hx).trans (Nat.lt_succ_self _))
    (Nat.lt_succ_self _)
  formed := forall_setTask h.formed hf

theorem openPool : r.openPool.Exact max where
  __ := h
  count := by
    intro q
    -- nobody works in a pool that does not exist yet
    have hnil : r.listOf r.nextPoolId = [] := by
      refine eq_nil_iff_forall_not_mem.2 fun id hid => ?_
      obtain ⟨t, ht, hw⟩ := (h.listed r.nextPoolId id).1 hid
      exact absurd (h.pool_lt _ (h.employed id t _ ht hw)) (Nat.lt_irrefl _)
    show (r.activeTaskCount.insert r.nextPoolId 0).getD q 0 = (r.listOf q).length
    rw [getD_insert]
    split
    · next hq =>
      rw [hq, hnil]
      rfl
    · exact h.count q
  employed := by
    intro id t p ht hp
    simp [Roll.openPool, h.employed id t p ht hp]
  pool_lt := by
    intro p hp
    simp only [Roll.openPool, Bool.or_eq_true, decide_eq_true_eq] at hp
    show p < r.nextPoolId + 1
    rcases hp with hp | hp
    · rw [hp]
      exact Nat.lt_succ_self _
    · exact (h.pool_lt p hp).trans (Nat.lt_succ_self _)

theorem closePool (hzero : r.activeTaskCount.getD p 0 = 0) : (r.closePool p).Exact max := by
  have hnil := h.listOf_nil hzero
  have hlist : ∀ q, (r.closePool p).listOf q = r.listOf q := by
    intro q
    show (r.poolTasks.remove p).getD q [] = r.poolTasks.getD q []
    rw [getD_remove]
    split
    · next hq =>
      rw [hq]
      exact hnil.symm
    · rfl
  refine ⟨fun q id => ?_, fun q => ?_, fun q => ?_, fun q => ?_, ?_, ?_, h.task_lt, h.formed⟩
  · show id ∈ (r.closePool p).listOf q ↔ _
    rw [hlist]
    exact h.listed q id
  · rw [hlist]
    exact h.nodup q
  · rw [hlist]
    show (r.activeTaskCount.remove p).getD q 0 = _
    rw [getD_remove]
    split
    · next hq =>
      rw [hq, hnil]
      rfl
    · exact h.count q
  · rw [hlist]
    exact h.count_le q
  · intro id t q ht hq
    have hne : q ≠ p := by
      rintro rfl
      have hmem := h.mem_listOf ht hq
      rw [hnil] at hmem
      cases hmem
    simp [Roll.closePool, hne, h.employed id t q ht hq]
  · intro q hq
    simp only [Roll.closePool, Bool.and_eq_true] at hq
    exact h.pool_lt q hq.2

end

end Exact

end Roll

/-! ## The way of a task -/

def TaskStatus.Before : TaskStatus → TaskStatus → Prop
  | .computing, .proofSubmitted | .computing, .completed | .computing, .failed => True
  | .proofSubmitted, .completed | .proofSubmitted, .failed => True
  | _, _ => False

theorem TaskStatus.Before.trans {x y z : TaskStatus} (h : x.Before y) (h' : y.Before z) :
    x.Before z := by
  cases x <;> cases y <;> simp only [TaskStatus.Before] at h <;> cases z <;>
    simp only [TaskStatus.Before] at h' ⊢

/-- A task keeps its status or goes forward. -/
structure Advance (t t' : ComputeTask A) : Prop where
  status : t'.status = t.status ∨ t.status.Before t'.status
  disputed : t'.disputed = t.disputed

theorem Advance.refl (t : ComputeTask A) : Advance t t := ⟨.inl rfl, rfl⟩

theorem Advance.trans {t t' t'' : ComputeTask A} (h : Advance t t') (h' : Advance t' t'') :
    Advance t t'' := by
  refine ⟨?_, h'.disputed.trans h.disputed⟩
  rcases h.status with he | hb
  · rw [← he]
    exact h'.status
  · rcases h'.status with he' | hb'
    · rw [he']
      exact .inr hb
    · exact .inr (hb.trans hb')

/-- A final status turned into the other one. -/
structure Flip (t t' : ComputeTask A) : Prop where
  terminal : isTerminal t.status = true
  terminal_after : isTerminal t'.status = true
  undisputed : t.disputed = false
  disputed : t'.disputed = true

/-- Every task of `r` is still in `r'` and has gone forward. -/
def Roll.Advances (r r' : Roll A) : Prop :=
  ∀ id t, r.tasks.get id = some t → ∃ t', r'.tasks.get id = some t' ∧ Advance t t'

namespace Roll.Advances

variable {r r' r'' : Roll A} {id : Nat} {t t' : ComputeTask A}

theorem refl (r : Roll A) : r.Advances r := fun _ t ht => ⟨t, ht, .refl t⟩

theorem trans (h : r.Advances r') (h' : r'.Advances r'') : r.Advances r'' := by
  intro id t ht
  obtain ⟨t', ht', hadv⟩ := h id t ht
  obtain ⟨t'', ht'', hadv'⟩ := h' id t' ht'
  exact ⟨t'', ht'', hadv.trans hadv'⟩

theorem of_tasks (h : r'.tasks = r.tasks) : r.Advances r' :=
  fun _ t ht => ⟨t, by rw [h, ht], .refl t⟩

theorem setTask (ht : r.tasks.get id = some t) (hadv : Advance t t')
    (hr : r'.tasks = r.tasks.insert id t') : r.Advances r' := by
  intro j x hx
  rw [hr, get_insert]
  split
  · next hj =>
    subst hj
    rw [ht] at hx
    cases hx
    exact ⟨t', rfl, hadv⟩
  · exact ⟨x, hx, .refl x⟩

end Roll.Advances

/-! # Runs keep the roll

Each call is one move of the roll, or none. The hook collects the tasks it acts on before it
writes; no task is collected twice, since the lists of the pools are disjoint. The runs here put
no condition on what others do to the balances. -/

open Lib.Call

variable {A : Type} [DecidableEq A]

/-! ## Writes beside the roll -/

section Aside

variable (s : State A)

omit [DecidableEq A] in
theorem roll_of_core {s s' : State A} (h : s'.core = s.core) : s'.roll = s.roll :=
  congrArg (fun c : Core A => (⟨c.nextPoolId, c.nextTaskId, c.pool, c.tasks, c.poolTasks,
    c.activeTaskCount⟩ : Roll A)) h

theorem roll_releaseEscrow (id : Nat) : (releaseEscrow id s).roll = s.roll := by
  unfold releaseEscrow
  simp only
  split <;> rfl

theorem roll_slash_release (cfg : Config) (id p : Nat) :
    ((slashPool cfg p).run (releaseEscrow id s)).2.roll = s.roll :=
  (roll_of_core (core_slashPool ..)).trans (roll_releaseEscrow s id)

end Aside

/-! ## Verdicts -/

section Verdicts

variable {s : State A} {cfg : Config} {id p : Nat} {t : ComputeTask A}

section

omit [DecidableEq A]

theorem ComputeTask.workplace_verdict (t : ComputeTask A) (result : Bool) :
    (t.verdict result).workplace = none := by
  cases result <;> rfl

theorem ComputeTask.wellFormed_verdict (t : ComputeTask A) (result : Bool) :
    (t.verdict result).WellFormed := by
  cases result <;> rfl

end

theorem judge_roll (p : Nat) (result : Bool) :
    (s.judge cfg id t p result).roll = (s.roll.setTask id (t.verdict result)).leave p id := by
  have hs1 : ((updateReputation p result (decrementPoolActivity p id (s.insertTask id
      (t.verdict result)))).removeProofSubmittedAt id).roll =
      (s.roll.setTask id (t.verdict result)).leave p id :=
    roll_of_core (core_updateReputation ..)
  rw [← hs1]
  unfold State.judge
  cases result with
  | true => cases t.rewardAmount <;> rfl
  | false => exact roll_slash_release ..

section

omit [DecidableEq A]

theorem ComputeTask.WellFormed.active (h : t.WellFormed) (ha : isTerminal t.status = false) :
    t.status = .computing ∨ t.status = .proofSubmitted := by
  unfold ComputeTask.WellFormed at h
  cases hst : t.status <;> simp_all [isTerminal]

theorem ComputeTask.advance_verdict (h : t.WellFormed) (ha : isTerminal t.status = false)
    (result : Bool) : Advance t (t.verdict result) := by
  refine ⟨.inr ?_, rfl⟩
  rcases h.active ha with hst | hst <;> rw [hst] <;> cases result <;> exact trivial

theorem ComputeTask.workplace_active (ha : isTerminal t.status = false) :
    t.workplace = some t.poolId := by
  unfold ComputeTask.workplace
  rw [ha]
  rfl

end

variable {max : Nat}

omit [DecidableEq A] in
theorem Roll.Exact.verdict {r : Roll A} (h : r.Exact max) (ht : r.tasks.get id = some t)
    (ha : isTerminal t.status = false) (result : Bool) :
    ((r.setTask id (t.verdict result)).leave t.poolId id).Exact max ∧
      r.Advances ((r.setTask id (t.verdict result)).leave t.poolId id) :=
  ⟨h.finish ht (t.workplace_active ha) (t.workplace_verdict result) (t.wellFormed_verdict result),
    .setTask ht (t.advance_verdict (h.formed id t ht) ha result) rfl⟩

theorem judge_exact (h : s.roll.Exact max) (ht : s.tasks.get id = some t)
    (ha : isTerminal t.status = false) (result : Bool) :
    (s.judge cfg id t t.poolId result).roll.Exact max ∧
      s.roll.Advances (s.judge cfg id t t.poolId result).roll := by
  rw [judge_roll]
  exact h.verdict ht ha result

end Verdicts

/-! ## Extrinsics -/

section Extrinsics

variable {s s' : State A} {cfg : Config} {sender : A} {id p : Nat} {u : Unit}

variable {gpuModel : List UInt8} {amount gpuMemory pricePerTask nvlinkEfficiency : Nat}
  {hasNvlink : Bool} {poolsIter : List (Nat × ComputePool A)} {preferred : Option Nat}

theorem registerPool_roll
    (hr : (registerPool cfg sender gpuModel gpuMemory hasNvlink nvlinkEfficiency pricePerTask).run
      s = (.ok u, s')) : s'.roll = s.roll.openPool := by
  unfold registerPool ensureNvlink reserve at hr
  simp only [run_ok] at hr
  obtain ⟨-, -, -, -, _, ⟨b, -, rfl⟩, next, hnext, rfl⟩ := hr
  obtain ⟨-, rfl⟩ := checkedAdd_eq_some.1 hnext
  unfold State.roll Roll.openPool
  simp only [State.setNextPoolId, State.addPool, State.setBalances, Roll.mk.injEq, true_and,
    and_true]
  funext q
  simp only [StorageMap.contains, get_insert]
  by_cases hq : q = s.nextPoolId <;> simp [hq]

theorem updatePoolConfig_roll
    (hr : (updatePoolConfig sender p gpuModel gpuMemory hasNvlink nvlinkEfficiency
      pricePerTask).run s = (.ok u, s')) : s'.roll = s.roll := by
  unfold updatePoolConfig ensureNvlink at hr
  simp only [run_ok] at hr
  obtain ⟨-, -, -, pool, hp, -, -, rfl⟩ := hr
  exact roll_of_core (core_insertPool hp _)

theorem deregisterPool_roll (hr : (deregisterPool sender p).run s = (.ok u, s')) :
    s.roll.activeTaskCount.getD p 0 = 0 ∧ s'.roll = s.roll.closePool p := by
  unfold deregisterPool unreserve at hr
  simp only [run_ok] at hr
  obtain ⟨pool, -, -, hzero, rfl⟩ := hr
  refine ⟨hzero, ?_⟩
  unfold State.roll Roll.closePool
  simp only [State.setBalances, State.removePool, Roll.mk.injEq, true_and, and_true]
  funext q
  simp only [StorageMap.contains, get_remove]
  by_cases hq : q = p <;> simp [hq]

theorem submitTask_roll {dimensions : TaskDimensions} {priority : TaskPriority}
    (hr : (submitTask cfg sender dimensions priority preferred poolsIter).run s = (.ok u, s')) :
    ∃ p t, s.roll.pool p = true ∧ (s.roll.listOf p).length < cfg.maxTasksPerPool ∧
      t.poolId = p ∧ t.status = .computing ∧ s'.roll = s.roll.enroll p t := by
  obtain ⟨q, score, p, pool, reward, l, hp, hroom, -, rfl⟩ := submitTask_ok hr
  have hroll : (s.scored q score).roll = s.roll := roll_of_core (core_mutatePool ..)
  refine ⟨p, ⟨s.nextTaskId, sender, p, dimensions, priority, .computing, s.now, none, none,
    some reward, false⟩, ?_, hroom, rfl, rfl, ?_⟩
  · rw [← hroll]
    exact Option.isSome_iff_exists.2 ⟨pool, hp⟩
  · have hnext : (s.scored q score).nextTaskId = s.nextTaskId := congrArg Roll.nextTaskId hroll
    rw [← hroll, ← hnext]
    rfl

theorem submitProof_roll {hash : Hash} (hr : (submitProof cfg sender id hash).run s = (.ok u, s')) :
    ∃ t, s.roll.tasks.get id = some t ∧ t.status = .computing ∧
      s'.roll = s.roll.setTask id { t with proofHash := some hash, status := .proofSubmitted } := by
  obtain ⟨t, ht, hst, rfl⟩ := submitProof_ok hr
  exact ⟨t, ht, hst, rfl⟩

theorem claimReward_roll (hr : (claimReward sender id).run s = (.ok u, s')) : s'.roll = s.roll := by
  unfold claimReward at hr
  simp only [run_ok] at hr
  obtain ⟨task, -, -, -, pool, -, -, reward, -, escrow, -, -, moved, -, -, rfl⟩ := hr
  rfl

theorem disputeVerification_roll (hr : (disputeVerification cfg sender id).run s = (.ok u, s')) :
    ∃ t result, s.roll.tasks.get id = some t ∧ isTerminal t.status = true ∧ t.disputed = false ∧
      s'.roll = s.roll.setTask id { t.verdict result with disputed := true } := by
  obtain ⟨t, ht, hterm, hdisp, ⟨-, rfl⟩ | ⟨-, rfl⟩⟩ := disputeVerification_ok hr
  · refine ⟨t, false, ht, hterm, hdisp, ?_⟩
    exact (roll_slash_release ..).trans (roll_of_core (core_updateReputation ..))
  · refine ⟨t, true, ht, hterm, hdisp, (roll_of_core (core_updateReputation ..)).trans ?_⟩
    cases t.rewardAmount <;> rfl

theorem stakeToPool_roll (hr : (stakeToPool sender p amount).run s = (.ok u, s')) :
    s'.roll = s.roll := by
  unfold stakeToPool reserve at hr
  simp only [run_ok] at hr
  obtain ⟨-, _, ⟨b, -, rfl⟩, rfl⟩ := hr
  rfl

theorem unstakeFromPool_roll
    (hr : (unstakeFromPool sender p amount).run s = (.ok u, s')) : s'.roll = s.roll := by
  unfold unstakeFromPool unreserve at hr
  simp only [run_ok] at hr
  obtain ⟨-, rfl⟩ := hr
  rfl

end Extrinsics

/-! ## The hook -/

section Hook

variable {s : State A} {cfg : Config} {max : Nat}

variable {r : Roll A} {iter : List (Nat × List Nat)}

omit [DecidableEq A] in
theorem Roll.Exact.active_nodup (h : r.Exact max)
    (hperm : iter.Perm r.poolTasks.iter) : (iter.flatMap (·.2)).Nodup := by
  have hget : ∀ e ∈ r.poolTasks.iter, r.listOf e.1 = e.2 := by
    intro e he
    have hg := mem_iter.1 (show (e.1, e.2) ∈ r.poolTasks.iter from he)
    show (r.poolTasks.get e.1).getD [] = e.2
    rw [hg]
    rfl
  rw [(hperm.flatMap_right _).nodup_iff, List.nodup_flatMap]
  refine ⟨fun e he => hget e he ▸ h.nodup e.1, ?_⟩
  have hkeys : r.poolTasks.iter.Pairwise fun e e' => e.1 ≠ e'.1 :=
    List.pairwise_map.1 r.poolTasks.iter_keys_nodup
  refine hkeys.imp_of_mem fun {e e'} he he' hne => ?_
  intro id hid hid'
  change id ∈ e.2 at hid
  change id ∈ e'.2 at hid'
  rw [← hget e he] at hid
  rw [← hget e' he'] at hid'
  obtain ⟨t, ht, hw⟩ := (h.listed e.1 id).1 hid
  have hw' := h.listed.eq_key ht hid'
  rw [hw] at hw'
  exact hne (Option.some.inj hw')

/-- The loop of automatic approvals, with the tasks that are left. -/
structure Approving (max : Nat) (r : Roll A) (left : List Nat) (s : State A) : Prop where
  exact : s.roll.Exact max
  advances : r.Advances s.roll
  nodup : left.Nodup
  waiting : ∀ id ∈ left, ∃ t, s.roll.tasks.get id = some t ∧ t.status = .proofSubmitted

theorem Approving.round (cfg : Config) {id : Nat} {left : List Nat}
    (h : Approving max r (id :: left) s) :
    ∃ t, s.tasks.get id = some t ∧ t.status = .proofSubmitted ∧ (do
      let s ← get
      whenSome (s.tasks.get id) fun task =>
        ignore (finalizeVerification cfg id task.poolId true) : M A Unit).run s =
          (.ok (), s.judge cfg id t t.poolId true) ∧
      Approving max r left (s.judge cfg id t t.poolId true) := by
  obtain ⟨t, ht, hst⟩ := h.waiting id List.mem_cons_self
  have hproof : t.proofHash.isSome = true := by
    have hf := h.exact.formed id t ht
    unfold ComputeTask.WellFormed at hf
    rw [hst] at hf
    exact hf
  change s.tasks.get id = some t at ht
  have hjudge := finalizeVerification_judge cfg ht hproof t.poolId true
  obtain ⟨hexact, hadv⟩ := judge_exact (s := s) h.exact ht (by rw [hst]; rfl) true
  refine ⟨t, ht, hst, ?_, hexact, h.advances.trans hadv, (List.nodup_cons.1 h.nodup).2, ?_⟩
  · simp only [run_bind, run_get, ht, whenSome, run_ignore, hjudge]
  · intro j hj
    obtain ⟨x, hx, hxst⟩ := h.waiting j (List.mem_cons_of_mem _ hj)
    refine ⟨x, ?_, hxst⟩
    rw [judge_roll]
    show (s.roll.setTask id (t.verdict true)).tasks.get j = some x
    rw [Roll.tasks_setTask, if_neg, hx]
    rintro rfl
    exact (List.nodup_cons.1 h.nodup).1 hj

omit [DecidableEq A] in
theorem autoVerify_waiting (cfg : Config) (iter : List (Nat × List Nat)) (now : Nat) :
    ∀ id ∈ (iter.flatMap (·.2)).filter (fun id => overdue cfg now s id = some .autoVerify),
      ∃ t, s.roll.tasks.get id = some t ∧ t.status = .proofSubmitted := by
  intro id hid
  have hover := of_decide_eq_true (List.mem_filter.1 hid).2
  unfold overdue at hover
  cases hg : s.tasks.get id with
  | none => simp [hg] at hover
  | some t =>
    refine ⟨t, hg, ?_⟩
    simp only [hg, Option.bind_eq_bind, Option.bind_some] at hover
    split at hover
    · cases hover
    · split at hover
      · next hc => exact hc.1
      · split at hover <;> cases hover

/-- What holds before the hook, with the tasks it has to approve, and is kept by its verdicts holds
after it. -/
theorem onInitialize_rule {cfg : Config} {now : Nat} {I : List Nat → State A → Prop}
    (h : s.roll.Exact max) (hperm : iter.Perm s.poolTasks.iter)
    (hs : I ((iter.flatMap (·.2)).filter fun id => overdue cfg now s id = some .autoVerify) s)
    (htrue : ∀ s1 id left t, s1.roll.Exact max → s1.tasks.get id = some t →
      t.status = .proofSubmitted → I (id :: left) s1 → I left (s1.judge cfg id t t.poolId true))
    (hfalse : ∀ s1 id t, s1.roll.Exact max → s1.tasks.get id = some t →
      isTerminal t.status = false → overdue cfg now s id = some .expired → I [] s1 →
      I [] (s1.judge cfg id t t.poolId false)) :
    ((onInitialize cfg iter now).run s).2.roll.Exact max ∧
      s.roll.Advances ((onInitialize cfg iter now).run s).2.roll ∧
      I [] ((onInitialize cfg iter now).run s).2 := by
  obtain ⟨s1, hrun, h1, hI⟩ := run_forEach
    (I := fun left s1 => Approving max s.roll left s1 ∧ I left s1) (fun id left s1 h1 => by
      obtain ⟨t, ht, hst, hround, h2⟩ := h1.1.round cfg
      exact ⟨_, hround, h2, htrue s1 id left t h1.1.exact ht hst h1.2⟩)
    ⟨⟨h, .refl _, (h.active_nodup hperm).filter _, autoVerify_waiting cfg iter now⟩, hs⟩
  have hloop : Keeps (fun s1 : State A => s1.roll.Exact max ∧ s.roll.Advances s1.roll ∧ I [] s1)
      (forEach ((iter.flatMap (·.2)).filter fun id => overdue cfg now s id = some .expired)
        fun id => ignore (markTaskFailed cfg id) : M A Unit) := by
    refine .forEach fun id hid => .ignore fun s1 hs1 => Post.of_run ?_
    rcases markTaskFailed_cases cfg s1 id with heq | ⟨t, ht, ha, heq⟩ <;> rw [heq]
    · exact hs1
    · obtain ⟨hexact, hadv⟩ := judge_exact hs1.1 ht ha false
      exact ⟨hexact, hs1.2.1.trans hadv,
        hfalse s1 id t hs1.1 ht ha (of_decide_eq_true (List.mem_filter.1 hid).2) hs1.2.2⟩
  have hend := hloop.run (s := s1) ⟨h1.exact, h1.advances, hI⟩
  unfold onInitialize
  rw [run_bind_of_ok (run_get s), run_bind_of_ok hrun]
  exact hend

end Hook

/-! ## Runs -/

/-- Storage is walked in some order; the balances may change in any way. -/
def Op.Walks (s : State A) : Op A → Prop
  | .submitTask _ _ _ _ poolsIter => poolsIter.Perm s.pools.iter
  | .nextBlock poolTasksIter => poolTasksIter.Perm s.poolTasks.iter
  | _ => True

def taskSystem (cfg : Config) : System (State A) (Op A) where
  init s := ∃ now l, s = State.fresh now l
  step s op s' := op.Walks s ∧ s' = apply cfg s op

/-- The tasks whose final status a step turns into the other one. -/
def flips (cfg : Config) (s : State A) (op : Op A) : List Nat :=
  (s.tasks.iter.filter fun e => isTerminal e.2.status &&
    ((apply cfg s op).tasks.get e.1).any fun t' => t'.status ≠ e.2.status).map Prod.fst

def Disputed (s : State A) (id : Nat) : Prop :=
  ∃ t, s.tasks.get id = some t ∧ t.disputed = true

/-- Every task of `r` is still in `r'`; it has gone forward, or `op` is a dispute that turned its
final status. -/
def Roll.Follows (op : Op A) (r r' : Roll A) : Prop :=
  ∀ id t, r.tasks.get id = some t → ∃ t', r'.tasks.get id = some t' ∧
    (Advance t t' ∨ (Flip t t' ∧ ∃ sender, op = .disputeVerification sender id))

section Steps

variable {cfg : Config} {s : State A} {op : Op A}

variable {r r' : Roll A} {max : Nat}

section

omit [DecidableEq A]

theorem Roll.Advances.follows (h : r.Advances r') (op : Op A) : r.Follows op r' := by
  intro id t ht
  obtain ⟨t', ht', hadv⟩ := h id t ht
  exact ⟨t', ht', .inl hadv⟩

/-- A successful extrinsic keeps the roll exact and moves the tasks on; a failed one changes
nothing. -/
theorem dispatch_rolls {α : Type} {c : M A α} (h : s.roll.Exact max)
    (hc : ∀ a s', c.run s = (.ok a, s') → s'.roll.Exact max ∧ s.roll.Follows op s'.roll) :
    (c.dispatch s).2.roll.Exact max ∧ s.roll.Follows op (c.dispatch s).2.roll :=
  dispatch_keeps (I := fun s' : State A => s'.roll.Exact max ∧ s.roll.Follows op s'.roll)
    ⟨h, (Roll.Advances.refl _).follows op⟩ hc

theorem Roll.Exact.same (h : r.Exact max) (he : r' = r) (op : Op A) :
    r'.Exact max ∧ r.Follows op r' := by
  rw [he]
  exact ⟨h, (Roll.Advances.refl r).follows op⟩

end

theorem apply_rolls (hmax : cfg.maxTasksPerPool ≤ u32Max) (h : s.roll.Exact cfg.maxTasksPerPool)
    (hpos : op.Walks s) :
    (apply cfg s op).roll.Exact cfg.maxTasksPerPool ∧ s.roll.Follows op (apply cfg s op).roll := by
  cases op with
  | registerPool =>
    refine dispatch_rolls h fun _ s' hr => ?_
    rw [registerPool_roll hr]
    exact ⟨h.openPool, (Roll.Advances.of_tasks rfl).follows _⟩
  | updatePoolConfig =>
    exact dispatch_rolls h fun _ s' hr => h.same (updatePoolConfig_roll hr) _
  | deregisterPool sender p =>
    refine dispatch_rolls h fun _ s' hr => ?_
    obtain ⟨hzero, hroll⟩ := deregisterPool_roll hr
    rw [hroll]
    exact ⟨h.closePool hzero, (Roll.Advances.of_tasks rfl).follows _⟩
  | submitTask user dimensions priority preferred poolsIter =>
    refine dispatch_rolls h fun _ s' hr => ?_
    obtain ⟨p, t, hpool, hroom, htp, hst, hroll⟩ := submitTask_roll hr
    have hwork : t.workplace = some p := by
      rw [ComputeTask.workplace_active (by rw [hst]; rfl), htp]
    have hformed : t.WellFormed := by
      unfold ComputeTask.WellFormed
      rw [hst]
      trivial
    rw [hroll]
    refine ⟨h.enroll hmax hpool hroom hwork hformed, Roll.Advances.follows (fun id x hx => ?_) _⟩
    refine ⟨x, ?_, .refl x⟩
    rw [Roll.enroll, get_insert_ne, hx]
    rintro rfl
    rw [h.next_none] at hx
    cases hx
  | submitProof sender id hash =>
    refine dispatch_rolls h fun _ s' hr => ?_
    obtain ⟨t, ht, hst, hroll⟩ := submitProof_roll hr
    rw [hroll]
    have hadv : Advance t { t with proofHash := some hash, status := .proofSubmitted } := by
      refine ⟨.inr ?_, rfl⟩
      rw [hst]
      trivial
    refine ⟨h.setTask ht ?_ rfl, (Roll.Advances.setTask ht hadv rfl).follows _⟩
    simp [ComputeTask.workplace, isTerminal, hst]
  | verifyProof sender id result =>
    refine dispatch_rolls h fun _ s' hr => ?_
    obtain ⟨t, ht, hst, rfl⟩ := verifyProof_ok hr
    obtain ⟨hexact, hadv⟩ := judge_exact h ht (by rw [hst]; rfl) result
    exact ⟨hexact, hadv.follows _⟩
  | claimReward => exact dispatch_rolls h fun _ s' hr => h.same (claimReward_roll hr) _
  | disputeVerification sender id =>
    refine dispatch_rolls h fun _ s' hr => ?_
    obtain ⟨t, result, ht, hterm, hdisp, hroll⟩ := disputeVerification_roll hr
    rw [hroll]
    refine ⟨h.setTask ht ?_ (t.wellFormed_verdict result), fun j x hx => ?_⟩
    · have hwork : t.workplace = none := by
        unfold ComputeTask.workplace
        rw [hterm]
        rfl
      rw [hwork]
      exact t.workplace_verdict result
    · rw [Roll.tasks_setTask]
      split
      · next hj =>
        subst hj
        rw [ht] at hx
        cases hx
        refine ⟨_, rfl, .inr ⟨⟨hterm, ?_, hdisp, rfl⟩, sender, rfl⟩⟩
        cases result <;> rfl
      · exact ⟨x, hx, .inl (.refl x)⟩
  | stakeToPool => exact dispatch_rolls h fun _ s' hr => h.same (stakeToPool_roll hr) _
  | unstakeFromPool => exact dispatch_rolls h fun _ s' hr => h.same (unstakeFromPool_roll hr) _
  | nextBlock iter =>
    obtain ⟨hexact, hadv, -⟩ := onInitialize_rule (s := { s with now := s.now + 1 })
      (I := fun _ _ => True) h hpos trivial (fun _ _ _ _ _ _ _ _ => trivial)
      fun _ _ _ _ _ _ _ _ => trivial
    exact ⟨hexact, hadv.follows _⟩
  | external l => exact h.same rfl _

theorem reach_roll (hmax : cfg.maxTasksPerPool ≤ u32Max) {C : State A → Op A → Prop}
    (hs : (taskSystem cfg).Reach C s) : s.roll.Exact cfg.maxTasksPerPool := by
  refine hs.invariant (I := fun s => s.roll.Exact cfg.maxTasksPerPool) ?_ ?_
  · rintro _ ⟨now, l, rfl⟩
    refine ⟨fun p id => ?_, fun p => ?_, fun p => ?_, fun p => ?_, ?_, ?_, ?_, ?_⟩ <;>
      simp [State.roll, State.fresh, Roll.listOf, StorageMap.contains]
  · rintro s op _ h - ⟨hpos, rfl⟩
    exact (apply_rolls hmax h hpos).1

omit [DecidableEq A] in
theorem Advance.terminal {t t' : ComputeTask A} (h : Advance t t')
    (ht : isTerminal t.status = true) : t'.status = t.status := by
  rcases h.status with he | hb
  · exact he
  · cases hst : t.status <;> simp_all [isTerminal, TaskStatus.Before]

theorem flips_step (hf : s.roll.Follows op (apply cfg s op).roll) :
    (flips cfg s op).Nodup ∧
      ∀ id ∈ flips cfg s op, ¬ Disputed s id ∧ Disputed (apply cfg s op) id := by
  refine ⟨s.tasks.iter_keys_nodup.sublist (List.filter_sublist.map _), fun id hid => ?_⟩
  obtain ⟨⟨j, t⟩, he, rfl⟩ := List.mem_map.1 hid
  obtain ⟨hmem, hflip⟩ := List.mem_filter.1 he
  have ht := mem_iter.1 hmem
  obtain ⟨t', ht', hmove⟩ := hf j t ht
  change (apply cfg s op).tasks.get j = some t' at ht'
  simp only [ht', Option.any_some, Bool.and_eq_true, decide_eq_true_eq] at hflip
  rcases hmove with hadv | ⟨hfl, -⟩
  · exact absurd (hadv.terminal hflip.1) hflip.2
  · refine ⟨?_, t', ht', hfl.disputed⟩
    rintro ⟨x, hx, hd⟩
    rw [ht] at hx
    cases hx
    rw [hfl.undisputed] at hd
    cases hd

theorem disputed_step (hf : s.roll.Follows op (apply cfg s op).roll) (id : Nat)
    (h : Disputed s id) : Disputed (apply cfg s op) id := by
  obtain ⟨t, ht, hd⟩ := h
  obtain ⟨t', ht', hadv | ⟨hfl, -⟩⟩ := hf id t ht
  · exact ⟨t', ht', hadv.disputed.trans hd⟩
  · exact ⟨t', ht', hfl.disputed⟩

end Steps

/-- **The bookkeeping of tasks is exact.** In every run the counter of a pool is the length of its
list, which holds each active task of the pool once and never more tasks than allowed, and an
active task has a pool. A status only goes forward, except that a dispute turns a final one; the
log of these turns has no task twice. -/
theorem tasks_exact (cfg : Config) (hmax : cfg.maxTasksPerPool ≤ u32Max) (s : State A)
    (log : List Nat) (hs : ((taskSystem cfg).logged (flips cfg)).Reach (fun _ _ => True) (s, log)) :
    (∀ p, s.activeTaskCount.getD p 0 = (s.poolTasks.getD p []).length ∧ (s.poolTasks.getD p
      []).Nodup ∧ (∀ id, id ∈ s.poolTasks.getD p [] ↔ ∃ t, s.tasks.get id = some t ∧ t.poolId = p ∧
      t.status ≠ .completed ∧ t.status ≠ .failed) ∧ s.activeTaskCount.getD p 0 ≤
      cfg.maxTasksPerPool) ∧
    (∀ id t, s.tasks.get id = some t → t.status ≠ .completed → t.status ≠ .failed →
      s.pools.contains t.poolId = true) ∧
    (∀ op : Op A, op.Walks s → ∀ id t, s.tasks.get id = some t → ∃ t', (apply cfg s op).tasks.get id
      = some t' ∧ (t'.status = t.status ∨ t.status.Before t'.status ∨ (isTerminal t.status = true ∧
      isTerminal t'.status = true ∧ ∃ sender, op = .disputeVerification sender id))) ∧
    log.Nodup := by
  have hreach : (taskSystem cfg).Reach (fun _ _ => True) s :=
    System.Reach.unlog (C := fun _ _ => True) hs
  have h := reach_roll hmax hreach
  have hactive : ∀ t : ComputeTask A, isTerminal t.status = false ↔
      t.status ≠ .completed ∧ t.status ≠ .failed := by
    intro t
    simp [isTerminal]
  refine ⟨fun p => ⟨h.count p, h.nodup p, fun id => ?_, ?_⟩, fun id t ht hc hf => ?_,
    fun op hpos id t ht => ?_, ?_⟩
  · refine (h.listed p id).trans (exists_congr fun t => and_congr_right fun _ => ?_)
    rw [← hactive t]
    unfold ComputeTask.workplace
    cases isTerminal t.status <;> simp
  · exact (h.count p).trans_le (h.count_le p)
  · exact h.employed id t _ ht (t.workplace_active ((hactive t).2 ⟨hc, hf⟩))
  · obtain ⟨t', ht', hadv | ⟨hfl, hop⟩⟩ := (apply_rolls hmax h hpos).2 id t ht
    · exact ⟨t', ht', hadv.status.imp_right .inl⟩
    · exact ⟨t', ht', .inr (.inr ⟨hfl.terminal, hfl.terminal_after, hop⟩)⟩
  · refine (System.Reach.log_nodup (C := fun _ _ => True) (K := Disputed) hs ?_ ?_).1
    · rintro t op _ ht - ⟨hpos, rfl⟩
      exact disputed_step (apply_rolls hmax (reach_roll hmax ht) hpos).2
    · rintro t op _ ht - ⟨hpos, rfl⟩
      exact flips_step (apply_rolls hmax (reach_roll hmax ht) hpos).2

/-! ## One task from start to dispute -/

def demoNext (r : State Nat × List Nat) (op : Op Nat) : State Nat × List Nat :=
  (apply demoConfig r.1 op, r.2 ++ flips demoConfig r.1 op)

def demoOps : List (Op Nat) :=
  [.registerPool 0 [] 8 false 100 50, .stakeToPool 1 0 30,
    .submitTask 1 ⟨1, 1, 1⟩ .normal (some 0) demoStaked.pools.iter, .submitProof 0 0 7,
    .verifyProof 1 0 true, .disputeVerification 1 0, .disputeVerification 1 0]

def demoRun (n : Nat) : State Nat × List Nat := (demoOps.take n).foldl demoNext (demoStart, [])

theorem demoRun_reach (n : Nat) :
    ((taskSystem demoConfig).logged (flips demoConfig)).Reach (fun _ _ => True) (demoRun n) := by
  have hwalk : System.Path demoNext (fun r op => op.Walks r.1) demoOps (demoStart, []) :=
    ⟨trivial, trivial, List.Perm.refl _, trivial, trivial, trivial, trivial, trivial⟩
  exact System.Reach.path (.init ⟨⟨1, _, rfl⟩, rfl⟩)
    (fun r op hpos => ⟨trivial, ⟨hpos, rfl⟩, rfl⟩) (hwalk.take n)

/-- The task is on the list of the pool while it is computed; the dispute turns its status once. -/
theorem tasks_exact_demo :
    (demoRun 4).1.poolTasks.getD 0 [] = [0] ∧ (demoRun 4).1.activeTaskCount.getD 0 0 = 1 ∧
      ((demoRun 7).1.tasks.get 0).map ComputeTask.status = some .failed ∧ (demoRun 7).2 = [0] ∧
      (demoRun 7).2.Nodup := by
  have h4 := (tasks_exact demoConfig (by decide) (demoRun 4).1 (demoRun 4).2
    (demoRun_reach 4)).1 0
  have h7 := (tasks_exact demoConfig (by decide) (demoRun 7).1 (demoRun 7).2
    (demoRun_reach 7)).2.2.2
  have hlist : (demoRun 4).1.poolTasks.getD 0 [] = [0] := by decide +kernel
  have hcount : (demoRun 4).1.activeTaskCount.getD 0 0 = 1 := by
    rw [h4.1, hlist]
    rfl
  exact ⟨hlist, hcount, by decide +kernel, by decide +kernel, h7⟩

end DeepBrainChain.ComputePoolScheduler
