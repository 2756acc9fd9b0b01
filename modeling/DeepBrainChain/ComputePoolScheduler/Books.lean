import DeepBrainChain.ComputePoolScheduler.Calls

/-!
# The books behind the escrows

The part of the pallet's state that says who has money locked and why: the ledger, the deposit of
each pool, the stakes, the escrows and the rewards. `Books.Sound` is the accounting invariant over
it. There is one lemma for each way in which the pallet can change the books.
-/

namespace DeepBrainChain.ComputePoolScheduler

open Lib StorageMap Option

variable {A : Type}

/-- What the books know about a task: its pool, its reward and its status. -/
structure TaskEntry where
  poolId : Nat
  reward : Option Nat
  status : TaskStatus

def ComputeTask.entry (t : ComputeTask A) : TaskEntry := ⟨t.poolId, t.rewardAmount, t.status⟩

/-- What the books know about a pool: its owner and the deposit held for it. -/
def ComputePool.entry (p : ComputePool A) : A × Nat := (p.owner, p.depositHeld)

/-- Owners, deposits, stakes, escrows and rewards, with the ledger that carries them. -/
structure Books (A : Type) where
  balances : Balances A
  nextPoolId : Nat
  nextTaskId : Nat
  pool : Nat → Option (A × Nat)
  poolByOwner : StorageMap A Nat
  task : Nat → Option TaskEntry
  rewards : StorageMap Nat Nat
  escrows : StorageMap Nat (TaskEscrow A)
  stakes : StorageMap (Nat × A) Nat
  totals : StorageMap Nat Nat
  moves : List (EscrowMove A)

def State.books (s : State A) : Books A where
  balances := s.balances
  nextPoolId := s.nextPoolId
  nextTaskId := s.nextTaskId
  pool := fun p => (s.pools.get p).map (·.entry)
  poolByOwner := s.poolByOwner
  task := fun t => (s.tasks.get t).map (·.entry)
  rewards := s.rewards
  escrows := s.taskEscrowStore
  stakes := s.poolStakes
  totals := s.totalPoolStake
  moves := s.moves

namespace Books

variable [DecidableEq A] (b : Books A)

/-- The deposit held for the pool of `u`, if `u` owns one. -/
def heldDeposit (u : A) : Nat :=
  match b.poolByOwner.get u with
  | some p => ((b.pool p).map (·.2)).getD 0
  | none => 0

def stakedBy (u : A) : Nat := b.stakes.sum fun k v => if k.2 = u then v else 0

def stakedIn (p : Nat) : Nat := b.stakes.sum fun k v => if k.1 = p then v else 0

/-- Reward and deposit of an escrow of `u` that was not claimed. -/
def openEscrow (u : A) (e : TaskEscrow A) : Nat :=
  if e.user = u ∧ e.claimed = false then e.rewardAmount + e.taskDeposit else 0

/-- What `u` has in escrow for tasks whose reward was not claimed. -/
def escrowedBy (u : A) : Nat := b.escrows.sum fun _ e => openEscrow u e

/-- The moves of the reward of task `t`, oldest first. -/
def history (moves : List (EscrowMove A)) (t : Nat) : List (EscrowMove A) :=
  moves.filter fun m => m.task = t

/-- The history that fits the escrow of task `t`: an escrow that is there was locked and, if it
is claimed, paid to the pool owner and nothing else; one that is not there either never was or
was locked and then given back. -/
def HistoryFits (t : Nat) (history : List (EscrowMove A)) : Option (TaskEscrow A) → Prop
  | some e =>
    if e.claimed then
      history = [.locked t e.user e.rewardAmount, .paid t e.poolOwner e.rewardAmount]
    else history = [.locked t e.user e.rewardAmount]
  | none => history = [] ∨ ∃ u r, history = [.locked t u r, .returned t u r]

/-- **The accounting invariant.** -/
structure Sound : Prop where
  issuance_le : b.balances.issuance ≤ u128Max
  backed : ∀ u, b.balances.reserved u = b.heldDeposit u + b.stakedBy u + b.escrowedBy u
  totals_eq : ∀ p, b.totals.getD p 0 = b.stakedIn p
  owner_iff : ∀ u p, b.poolByOwner.get u = some p ↔ ∃ d, b.pool p = some (u, d)
  pool_lt : ∀ p q, b.pool p = some q → p < b.nextPoolId
  task_lt : ∀ t q, b.task t = some q → t < b.nextTaskId
  escrow_task : ∀ t e, b.escrows.get t = some e → ∃ q, b.task t = some q ∧
    q.reward = some e.rewardAmount ∧ q.poolId < b.nextPoolId ∧
    (∀ o d, b.pool q.poolId = some (o, d) → o = e.poolOwner) ∧
    (e.claimed = true → q.status = .completed)
  reward_task : ∀ t r, b.rewards.get t = some r → ∃ q, b.task t = some q ∧ q.reward = some r
  history_fits : ∀ t, HistoryFits t (history b.moves t) (b.escrows.get t)
  moves_lt : ∀ m ∈ b.moves, m.task < b.nextTaskId

/-! ## Tasks and rewards -/

def setTask (t : Nat) (q : TaskEntry) : Books A :=
  { b with task := Function.update b.task t (some q) }

def setReward (t : Nat) (r : Nat) : Books A := { b with rewards := b.rewards.insert t r }

def dropReward (t : Nat) : Books A := { b with rewards := b.rewards.remove t }

variable {b}

section

omit [DecidableEq A]

theorem task_setTask (t t' : Nat) (q : TaskEntry) :
    (b.setTask t q).task t' = if t' = t then some q else b.task t' := by
  exact Function.update_apply ..

end

namespace Sound

variable {t : Nat} {q : TaskEntry}

/-- A task may change its status as long as a task with a claimed escrow stays completed. -/
theorem setTask (h : b.Sound) {q' : TaskEntry} (hq : b.task t = some q) (hp : q'.poolId = q.poolId)
    (hr : q'.reward = q.reward)
    (hc : ∀ e, b.escrows.get t = some e → e.claimed = true → q'.status = .completed) :
    (b.setTask t q').Sound :=
  { h with
    task_lt := by
      intro t' x hx
      rw [task_setTask] at hx
      split at hx
      · next ht => rw [ht]; exact h.task_lt t q hq
      · exact h.task_lt t' x hx
    escrow_task := by
      intro t' e he
      obtain ⟨x, hx, h1, h2, h3, h4⟩ := h.escrow_task t' e he
      by_cases ht : t' = t
      · subst ht
        have hxq : q = x := Option.some.inj (hq.symm.trans hx)
        subst hxq
        refine ⟨q', by rw [task_setTask, if_pos rfl], hr.trans h1, hp ▸ h2, ?_, hc e he⟩
        rw [hp]
        exact h3
      · exact ⟨x, by rw [task_setTask, if_neg ht]; exact hx, h1, h2, h3, h4⟩
    reward_task := by
      intro t' r hrw
      obtain ⟨x, hx, h1⟩ := h.reward_task t' r hrw
      by_cases ht : t' = t
      · subst ht
        have hxq : q = x := Option.some.inj (hq.symm.trans hx)
        subst hxq
        exact ⟨q', by rw [task_setTask, if_pos rfl], hr.trans h1⟩
      · exact ⟨x, by rw [task_setTask, if_neg ht]; exact hx, h1⟩ }

theorem setReward (h : b.Sound) {r : Nat} (hq : b.task t = some q)
    (hr : q.reward = some r) : (b.setReward t r).Sound :=
  { h with
    reward_task := by
      intro t' r' hrw
      simp only [Books.setReward, get_insert] at hrw
      split at hrw
      · next ht =>
        cases hrw
        subst ht
        exact ⟨q, hq, hr⟩
      · exact h.reward_task t' r' hrw }

theorem dropReward (h : b.Sound) (t : Nat) : (b.dropReward t).Sound :=
  { h with
    reward_task := by
      intro t' r hrw
      simp only [Books.dropReward, get_remove] at hrw
      split at hrw
      · cases hrw
      · exact h.reward_task t' r hrw }

end Sound

/-! ## Escrows -/

omit [DecidableEq A] in
theorem history_append (moves : List (EscrowMove A)) (m : EscrowMove A) (t : Nat) :
    history (moves ++ [m]) t = history moves t ++ if m.task = t then [m] else [] := by
  unfold history
  rw [List.filter_append]
  by_cases h : m.task = t <;> simp [h]

/-- Lock a reward for the new task `t` and number the next one. -/
def lock (b : Books A) (t : Nat) (q : TaskEntry) (e : TaskEscrow A) (l : Balances A) : Books A :=
  { b with
    balances := l
    nextTaskId := t + 1
    task := Function.update b.task t (some q)
    escrows := b.escrows.insert t e
    moves := b.moves ++ [.locked t e.user e.rewardAmount] }

def pay (b : Books A) (t : Nat) (e : TaskEscrow A) (l : Balances A) : Books A :=
  { b with
    balances := l
    escrows := b.escrows.insert t { e with claimed := true }
    moves := b.moves ++ [.paid t e.poolOwner e.rewardAmount] }

def refund (b : Books A) (t : Nat) (e : TaskEscrow A) (l : Balances A) : Books A :=
  { b with
    balances := l
    escrows := b.escrows.remove t
    moves := b.moves ++ [.returned t e.user e.rewardAmount] }

namespace Sound

variable {t : Nat} {e : TaskEscrow A} {q : TaskEntry} {l : Balances A}

section

variable (h : b.Sound)

include h

theorem openEscrow_le (he : b.escrows.get t = some e)
    (u : A) : openEscrow u e ≤ b.escrowedBy u ∧ openEscrow u e ≤ b.balances.reserved u := by
  have hle : openEscrow u e ≤ b.escrowedBy u := le_sum (fun _ e => openEscrow u e) he
  have hb := h.backed u
  omega

theorem next_fresh :
    b.task b.nextTaskId = none ∧ b.escrows.get b.nextTaskId = none ∧
      history b.moves b.nextTaskId = [] := by
  have htask : b.task b.nextTaskId = none := by
    cases hq : b.task b.nextTaskId with
    | none => rfl
    | some q => exact absurd (h.task_lt _ q hq) (lt_irrefl _)
  refine ⟨htask, ?_, ?_⟩
  · cases he : b.escrows.get b.nextTaskId with
    | none => rfl
    | some e =>
      obtain ⟨q, hq, -⟩ := h.escrow_task _ e he
      rw [htask] at hq
      cases hq
  · unfold history
    rw [List.filter_eq_nil_iff]
    intro m hm ht
    have := h.moves_lt m hm
    simp only [decide_eq_true_eq] at ht
    omega

theorem lock {d : Nat}
    (hl : l.issuance ≤ u128Max)
    (hres : ∀ u, l.reserved u =
      b.balances.reserved u + if u = e.user then e.rewardAmount + e.taskDeposit else 0)
    (hnew : e.claimed = false) (hq : q.reward = some e.rewardAmount)
    (hp : b.pool q.poolId = some (e.poolOwner, d)) :
    (b.lock b.nextTaskId q e l).Sound where
  issuance_le := hl
  backed := by
    intro u
    have hb := h.backed u
    have hsum : (b.lock b.nextTaskId q e l).escrowedBy u = openEscrow u e + b.escrowedBy u :=
      sum_insert_of_none _ e h.next_fresh.2.1
    change l.reserved u = b.heldDeposit u + b.stakedBy u + _
    rw [hres u, hsum, openEscrow, hnew, hb]
    by_cases hu : e.user = u
    · subst hu
      simp only [and_self, if_true]
      omega
    · simp only [hu, Ne.symm hu, false_and, if_false]
      omega
  totals_eq := h.totals_eq
  owner_iff := h.owner_iff
  pool_lt := h.pool_lt
  task_lt := by
    intro t x hx
    change t < b.nextTaskId + 1
    simp only [Books.lock, Function.update_apply] at hx
    split at hx
    · omega
    · have := h.task_lt t x hx
      omega
  escrow_task := by
    intro t x hx
    simp only [Books.lock, get_insert] at hx
    by_cases ht : t = b.nextTaskId
    · rw [if_pos ht, some.injEq] at hx
      subst hx ht
      refine ⟨q, by simp [Books.lock], hq, h.pool_lt _ _ hp, ?_, by simp [hnew]⟩
      intro o d' ho
      have hod := hp.symm.trans ho
      simp only [some.injEq, Prod.mk.injEq] at hod
      exact hod.1.symm
    · rw [if_neg ht] at hx
      obtain ⟨y, hy, hrest⟩ := h.escrow_task t x hx
      exact ⟨y, by simp [Books.lock, ht, hy], hrest⟩
  reward_task := by
    intro t r hr
    obtain ⟨y, hy, hyr⟩ := h.reward_task t r hr
    have ht : t ≠ b.nextTaskId := (h.task_lt t y hy).ne
    exact ⟨y, by simp [Books.lock, ht, hy], hyr⟩
  history_fits := by
    intro t
    change HistoryFits t (history (b.moves ++ [.locked b.nextTaskId e.user e.rewardAmount]) t)
      ((b.escrows.insert b.nextTaskId e).get t)
    rw [history_append, get_insert]
    by_cases ht : t = b.nextTaskId
    · subst ht
      simp [EscrowMove.task, HistoryFits, hnew, h.next_fresh.2.2]
    · simpa [EscrowMove.task, ht, Ne.symm ht] using h.history_fits t
  moves_lt := by
    intro m hm
    change m.task < b.nextTaskId + 1
    simp only [Books.lock, List.mem_append, List.mem_singleton] at hm
    rcases hm with hm | rfl
    · have := h.moves_lt m hm
      omega
    · simp [EscrowMove.task]

/-- An open escrow leaves the books: `es` is without its amount, and `m` is its last move. -/
theorem closeEscrow (he : b.escrows.get t = some e) (hopen : e.claimed = false)
    (hl : l.issuance ≤ u128Max)
    (hres : ∀ u, l.reserved u =
      b.balances.reserved u - if u = e.user then e.rewardAmount + e.taskDeposit else 0)
    {es : StorageMap Nat (TaskEscrow A)} {m : EscrowMove A} (hm : m.task = t)
    (hsum : ∀ u, es.sum (fun _ e => openEscrow u e) + openEscrow u e = b.escrowedBy u)
    (hget : ∀ t', t' ≠ t → es.get t' = b.escrows.get t')
    (hclaimed : ∀ x, es.get t = some x → x = { e with claimed := true } ∧
      ∃ q, b.task t = some q ∧ q.status = .completed)
    (hfits : HistoryFits t [.locked t e.user e.rewardAmount, m] (es.get t)) :
    ({ b with balances := l, escrows := es, moves := b.moves ++ [m] } : Books A).Sound :=
  { h with
    issuance_le := hl
    backed := by
      intro u
      have hb := h.backed u
      have hs := hsum u
      change l.reserved u = b.heldDeposit u + b.stakedBy u + es.sum (fun _ e => openEscrow u e)
      rw [hres u]
      unfold openEscrow at hs ⊢
      rw [hopen] at hs
      by_cases hu : e.user = u
      · subst hu
        simp only [and_self, if_true] at hs ⊢
        omega
      · simp only [hu, Ne.symm hu, false_and, if_false] at hs ⊢
        omega
    escrow_task := by
      intro t' x hx
      by_cases ht : t' = t
      · subst ht
        obtain ⟨rfl, q, hq, hst⟩ := hclaimed x hx
        obtain ⟨y, hy, h1, h2, h3, -⟩ := h.escrow_task t' e he
        cases hq.symm.trans hy
        exact ⟨q, hy, h1, h2, h3, fun _ => hst⟩
      · exact h.escrow_task t' x ((hget t' ht).symm.trans hx)
    history_fits := by
      intro t'
      rw [history_append]
      by_cases ht : t' = t
      · subst ht
        have hf := h.history_fits t'
        rw [he, HistoryFits, hopen] at hf
        rw [if_pos hm, hf]
        exact hfits
      · rw [if_neg (hm.trans_ne (Ne.symm ht)), List.append_nil, hget t' ht]
        exact h.history_fits t'
    moves_lt := by
      intro x hx
      rcases List.mem_append.1 hx with hx | hx
      · exact h.moves_lt x hx
      · obtain ⟨y, hy, -⟩ := h.escrow_task t e he
        rw [List.mem_singleton.1 hx, hm]
        exact h.task_lt t y hy }

theorem pay
    (he : b.escrows.get t = some e) (hopen : e.claimed = false) (hl : l.issuance ≤ u128Max)
    (hres : ∀ u, l.reserved u =
      b.balances.reserved u - if u = e.user then e.rewardAmount + e.taskDeposit else 0)
    (hq : b.task t = some q) (hst : q.status = .completed) :
    (b.pay t e l).Sound := by
  refine h.closeEscrow he hopen hl hres rfl (fun u => ?_)
    (fun t' => get_insert_ne b.escrows _) (fun x hx => ?_) ?_
  · have := sum_insert_of_some (fun _ e => openEscrow u e) { e with claimed := true } he
    simpa [openEscrow, escrowedBy] using this
  · rw [get_insert_self] at hx
    exact ⟨(Option.some.inj hx).symm, q, hq, hst⟩
  · rw [get_insert_self]
    rfl

theorem refund
    (he : b.escrows.get t = some e) (hopen : e.claimed = false) (hl : l.issuance ≤ u128Max)
    (hres : ∀ u, l.reserved u =
      b.balances.reserved u - if u = e.user then e.rewardAmount + e.taskDeposit else 0) :
    (b.refund t e l).Sound := by
  refine h.closeEscrow he hopen hl hres rfl (fun u => ?_)
    (fun t' => get_remove_ne b.escrows) (fun x hx => ?_) ?_
  · rw [Nat.add_comm]
    exact (sum_eq_add_remove (fun _ e => openEscrow u e) he).symm
  · rw [get_remove_self] at hx
    cases hx
  · rw [get_remove_self]
    exact .inr ⟨_, _, rfl⟩

end

end Sound

/-! ## Pools -/

/-- Register pool `p` of `owner` with its deposit, and number the next one. -/
def openPool (b : Books A) (p : Nat) (owner : A) (deposit : Nat) (l : Balances A) : Books A :=
  { b with
    balances := l
    nextPoolId := p + 1
    pool := Function.update b.pool p (some (owner, deposit))
    poolByOwner := b.poolByOwner.insert owner p }

def closePool (b : Books A) (p : Nat) (owner : A) (l : Balances A) : Books A :=
  { b with
    balances := l
    pool := Function.update b.pool p none
    poolByOwner := b.poolByOwner.remove owner }

def slash (b : Books A) (p : Nat) (owner : A) (deposit amount : Nat) (l : Balances A) : Books A :=
  { b with
    balances := l
    pool := Function.update b.pool p (some (owner, deposit - amount)) }

namespace Sound

variable {d p : Nat} {o u : A} {l : Balances A}

section

variable (h : b.Sound)

include h

theorem heldDeposit_eq (hp : b.pool p = some (o, d)) : b.heldDeposit o = d := by
  unfold heldDeposit
  rw [(h.owner_iff o p).2 ⟨d, hp⟩]
  simp [hp]

/-- An account that does not own pool `p` owns none or another one. -/
theorem poolByOwner_ne (hp : b.pool p = some (o, d))
    (hu : u ≠ o) : b.poolByOwner.get u ≠ some p := by
  intro hup
  obtain ⟨d', hd'⟩ := (h.owner_iff u p).1 hup
  rw [hp, some.injEq, Prod.mk.injEq] at hd'
  exact hu hd'.1.symm

theorem heldDeposit_update (x : Option (A × Nat)) (hp : b.pool p = some (o, d)) (hu : u ≠ o) :
    ({ b with pool := Function.update b.pool p x } : Books A).heldDeposit u = b.heldDeposit u := by
  have hne := h.poolByOwner_ne hp hu
  unfold heldDeposit
  simp only
  split
  · next p' hp' =>
    have : p' ≠ p := by
      rintro rfl
      exact hne hp'
    rw [Function.update_of_ne this]
  · rfl

theorem openPool (hnone : b.poolByOwner.get o = none) (hl : l.issuance ≤ u128Max)
    (hres : ∀ u, l.reserved u = b.balances.reserved u + if u = o then d else 0) :
    (b.openPool b.nextPoolId o d l).Sound :=
  { h with
    issuance_le := hl
    backed := by
      intro u
      have hb := h.backed u
      have hheld : (b.openPool b.nextPoolId o d l).heldDeposit u =
          b.heldDeposit u + if u = o then d else 0 := by
        unfold heldDeposit
        simp only [Books.openPool, get_insert]
        by_cases hu : u = o
        · subst hu
          simp [hnone]
        · simp only [hu, if_false, Nat.add_zero]
          split
          · next p hp =>
            obtain ⟨d', hd⟩ := (h.owner_iff u p).1 hp
            rw [Function.update_of_ne (h.pool_lt p _ hd).ne]
          · rfl
      change l.reserved u = _ + b.stakedBy u + b.escrowedBy u
      rw [hres u, hheld]
      omega
    owner_iff := by
      intro u p
      simp only [Books.openPool, get_insert, Function.update_apply]
      by_cases hp : p = b.nextPoolId
      · subst hp
        by_cases hu : u = o
        · simp [hu]
        · have hne : b.poolByOwner.get u ≠ some b.nextPoolId := by
            intro hc
            obtain ⟨d', hd⟩ := (h.owner_iff u _).1 hc
            exact absurd (h.pool_lt _ _ hd) (lt_irrefl _)
          simp [hu, Ne.symm hu, hne]
      · by_cases hu : u = o
        · subst hu
          have hno : ¬ ∃ d', b.pool p = some (u, d') := by
            rw [← h.owner_iff u p, hnone]
            simp
          simp only [if_true, hp, if_false]
          constructor
          · intro hc
            exact absurd (Option.some.inj hc).symm hp
          · intro hc
            exact absurd hc hno
        · simp only [hu, hp, if_false]
          exact h.owner_iff u p
    pool_lt := by
      intro p q hq
      change p < b.nextPoolId + 1
      simp only [Books.openPool, Function.update_apply] at hq
      split at hq
      · omega
      · have := h.pool_lt p q hq
        omega
    escrow_task := by
      intro t e he
      obtain ⟨q, hq, h1, h2, h3, h4⟩ := h.escrow_task t e he
      refine ⟨q, hq, h1, Nat.lt_succ_of_lt h2, fun o' d' ho => ?_, h4⟩
      simp only [Books.openPool, Function.update_of_ne h2.ne] at ho
      exact h3 o' d' ho }

theorem closePool (hp : b.pool p = some (o, d)) (hl : l.issuance ≤ u128Max)
    (hres : ∀ u, l.reserved u = b.balances.reserved u - if u = o then d else 0) :
    (b.closePool p o l).Sound :=
  { h with
    issuance_le := hl
    backed := by
      intro u
      have hb := h.backed u
      change l.reserved u = _ + b.stakedBy u + b.escrowedBy u
      rw [hres u]
      by_cases hu : u = o
      · subst hu
        have hheld : (b.closePool p u l).heldDeposit u = 0 := by
          unfold heldDeposit
          simp [Books.closePool]
        rw [h.heldDeposit_eq hp] at hb
        rw [hheld, if_pos rfl]
        omega
      · have hheld : (b.closePool p o l).heldDeposit u = b.heldDeposit u := by
          rw [← h.heldDeposit_update none hp hu]
          unfold heldDeposit
          simp only [Books.closePool, get_remove_ne _ hu]
        rw [hheld, if_neg hu]
        omega
    owner_iff := by
      intro u p'
      simp only [Books.closePool, get_remove, Function.update_apply]
      by_cases hp' : p' = p
      · subst hp'
        by_cases hu : u = o
        · simp [hu]
        · simp [hu, h.poolByOwner_ne hp hu]
      · by_cases hu : u = o
        · subst hu
          have hno : ¬ ∃ d, b.pool p' = some (u, d) := by
            rw [← h.owner_iff u p', (h.owner_iff u p).2 ⟨d, hp⟩]
            simpa using Ne.symm hp'
          simp only [if_true, hp', if_false, reduceCtorEq, false_iff]
          exact hno
        · simp only [hu, hp', if_false]
          exact h.owner_iff u p'
    pool_lt := by
      intro p' q hq
      simp only [Books.closePool, Function.update_apply] at hq
      split at hq
      · cases hq
      · exact h.pool_lt p' q hq
    escrow_task := by
      intro t e he
      obtain ⟨q, hq, h1, h2, h3, h4⟩ := h.escrow_task t e he
      refine ⟨q, hq, h1, h2, fun o' d' ho => ?_, h4⟩
      simp only [Books.closePool, Function.update_apply] at ho
      split at ho
      · cases ho
      · exact h3 o' d' ho }

theorem slash {x : Nat} (hp : b.pool p = some (o, d)) (hx : x ≤ d) (hl : l.issuance ≤ u128Max)
    (hres : ∀ u, l.reserved u = b.balances.reserved u - if u = o then x else 0) :
    (b.slash p o d x l).Sound :=
  { h with
    issuance_le := hl
    backed := by
      intro u
      have hb := h.backed u
      change l.reserved u = _ + b.stakedBy u + b.escrowedBy u
      rw [hres u]
      by_cases hu : u = o
      · subst hu
        have hheld : (b.slash p u d x l).heldDeposit u = d - x := by
          unfold heldDeposit
          simp [Books.slash, (h.owner_iff u p).2 ⟨d, hp⟩]
        rw [h.heldDeposit_eq hp] at hb
        rw [hheld, if_pos rfl]
        omega
      · have hheld : (b.slash p o d x l).heldDeposit u = b.heldDeposit u :=
          h.heldDeposit_update (some (o, d - x)) hp hu
        rw [hheld, if_neg hu]
        omega
    owner_iff := by
      intro u p'
      simp only [Books.slash, Function.update_apply]
      by_cases hp' : p' = p
      · subst hp'
        rw [h.owner_iff u p', hp]
        simp
      · simp only [hp', if_false]
        exact h.owner_iff u p'
    pool_lt := by
      intro p' q hq
      simp only [Books.slash, Function.update_apply] at hq
      split at hq
      · next hp' => rw [hp']; exact h.pool_lt p _ hp
      · exact h.pool_lt p' q hq
    escrow_task := by
      intro t e he
      obtain ⟨q, hq, h1, h2, h3, h4⟩ := h.escrow_task t e he
      refine ⟨q, hq, h1, h2, fun o' d' ho => ?_, h4⟩
      simp only [Books.slash, Function.update_apply] at ho
      split at ho
      · next hqp =>
        simp only [some.injEq, Prod.mk.injEq] at ho
        exact ho.1 ▸ h3 o d (hqp ▸ hp)
      · exact h3 o' d' ho }

end

end Sound

/-! ## Stakes -/

/-- Write what `u` has staked in pool `p`, and the total of the pool. -/
def setStake (b : Books A) (p : Nat) (u : A) (stake total : Nat) (l : Balances A) : Books A :=
  { b with
    balances := l
    stakes := b.stakes.insert (p, u) stake
    totals := b.totals.insert p total }

/-- A weight over the stakes moves by the change of the stake that is written. -/
theorem sum_stakes_insert (m : StorageMap (Nat × A) Nat) (k : Nat × A) (v : Nat)
    (P : Nat × A → Prop) [DecidablePred P] :
    ((m.insert k v).sum fun k v => if P k then v else 0) + (if P k then m.getD k 0 else 0) =
      (m.sum fun k v => if P k then v else 0) + if P k then v else 0 := by
  unfold StorageMap.getD
  cases hk : m.get k with
  | none =>
    rw [sum_insert_of_none _ v hk]
    simp only [getD_none, ite_self]
    omega
  | some w => exact sum_insert_of_some (fun k v => if P k then v else 0) v hk

theorem stake_le_sum (m : StorageMap (Nat × A) Nat) (k : Nat × A) (P : Nat × A → Prop)
    [DecidablePred P] (hk : P k) : m.getD k 0 ≤ m.sum fun k v => if P k then v else 0 := by
  unfold StorageMap.getD
  cases hm : m.get k with
  | none => exact Nat.zero_le _
  | some v =>
    have := le_sum (fun k v => if P k then v else 0) hm
    simpa [hk] using this

theorem stake_le_stakedIn (p : Nat) (u : A) : b.stakes.getD (p, u) 0 ≤ b.stakedIn p :=
  stake_le_sum b.stakes (p, u) (fun k => k.1 = p) rfl

namespace Sound

theorem stakedIn_le_issuance (h : b.Sound) (p : Nat) : b.stakedIn p ≤ b.balances.issuance := by
  unfold stakedIn Balances.issuance
  refine sum_le_sum_of_inj (fun k : Nat × A => k.2) ?_ ?_
  · intro k v hk hpos
    have hstake : v ≤ b.stakedBy k.2 := by
      have := le_sum (fun (k' : Nat × A) v => if k'.2 = k.2 then v else 0) hk
      simpa [stakedBy] using this
    have hb := h.backed k.2
    have hv : (if k.1 = p then v else 0) ≤ v := by split <;> omega
    unfold Balances.reserved Balances.account StorageMap.getD at hb
    cases ha : b.balances.accounts.get k.2 with
    | none =>
      rw [ha] at hb
      simp only [getD_none, AccountData.zero] at hb
      omega
    | some d =>
      rw [ha] at hb
      simp only [getD_some] at hb
      exact ⟨d, rfl, by unfold AccountData.total; omega⟩
  · intro k v k' v' _ _ hpos hpos' heq
    have hk : k.1 = p := by
      by_contra hne
      simp [hne] at hpos
    have hk' : k'.1 = p := by
      by_contra hne
      simp [hne] at hpos'
    exact Prod.ext (hk.trans hk'.symm) heq

theorem stake_le_reserved (h : b.Sound) (p : Nat) (u : A) :
    b.stakes.getD (p, u) 0 ≤ b.balances.reserved u := by
  have hle : _ ≤ b.stakedBy u := stake_le_sum b.stakes (p, u) (fun k => k.2 = u) rfl
  have hb := h.backed u
  omega

variable {l : Balances A}

theorem setStake (h : b.Sound) {p : Nat} {u : A} {v w : Nat} (hl : l.issuance ≤ u128Max)
    (hstake : v + b.balances.reserved u = b.stakes.getD (p, u) 0 + l.reserved u)
    (htotal : w + b.stakes.getD (p, u) 0 = b.totals.getD p 0 + v)
    (hother : ∀ x, x ≠ u → l.reserved x = b.balances.reserved x) : (b.setStake p u v w l).Sound :=
  { h with
    issuance_le := hl
    backed := by
      intro x
      have hb := h.backed x
      have hsum := sum_stakes_insert b.stakes (p, u) v (fun k => k.2 = x)
      change l.reserved x = b.heldDeposit x + (b.stakes.insert (p, u) v).sum _ + b.escrowedBy x
      unfold stakedBy at hb
      by_cases hx : x = u
      · subst hx
        simp only [if_true] at hsum
        omega
      · simp only [Ne.symm hx, if_false] at hsum
        rw [hother x hx]
        omega
    totals_eq := by
      intro p'
      have ht := h.totals_eq p'
      have hsum := sum_stakes_insert b.stakes (p, u) v (fun k => k.1 = p')
      change (b.totals.insert p w).getD p' 0 = (b.stakes.insert (p, u) v).sum _
      rw [getD_insert]
      unfold stakedIn at ht
      by_cases hp : p' = p
      · subst hp
        simp only [if_true] at hsum ⊢
        omega
      · simp only [hp, Ne.symm hp, if_false] at hsum ⊢
        omega }

theorem setBalances (h : b.Sound) (hl : l.issuance ≤ u128Max)
    (hres : ∀ u, l.reserved u = b.balances.reserved u) :
    ({ b with balances := l } : Books A).Sound :=
  { h with
    issuance_le := hl
    backed := fun u => (hres u).trans (h.backed u) }

end Sound

end Books

end DeepBrainChain.ComputePoolScheduler
