import DeepBrainChain.Lib.Escrow
import DeepBrainChain.ZkCompute.Run

/-!
# Deposits

The tasks are an escrow table: a deposit is held while the task is pending, and from its acceptance
until the reward is claimed. `verify_task` passes a failed repatriation on, so that the verdict is
undone with it; the unsigned verdict ignores it.
-/

namespace DeepBrainChain.ZkCompute

open Lib Lib.Call Support StorageMap Balances

variable {A : Type} [DecidableEq A]

def taskTerms : Terms A (ZkTask A) where
  owner := ZkTask.miner
  due t := match t.status with
    | .pending => t.submissionDeposit
    | .verified => if t.rewardClaimed then 0 else t.submissionDeposit
    | .failed => 0

/-- The account of the pallet exists when an unsigned verdict rejects a task. -/
def PayeeAlive (cfg : Config A) (s : State A) : Op A → Prop
  | .submitVerificationUnsigned _ false => s.balances.Live cfg.accountId
  | _ => True

/-- The deposits of the pending tasks are the reserves, and a pending task is unclaimed. -/
structure Inv (s : State A) : Prop where
  backed : taskTerms.Backed s.nextTaskId s.tasks s.balances
  unclaimed : ∀ id t, s.tasks.get id = some t → t.status = .pending → t.rewardClaimed = false

/-- The task whose reward an operation pays, if it succeeds. -/
def claims (cfg : Config A) (s : State A) : Op A → List Nat
  | .claimReward who id => if ((claimReward cfg who id).run s).1.isOk then [id] else []
  | _ => []

def Claimed (s : State A) (id : Nat) : Prop :=
  ∃ t, s.tasks.get id = some t ∧ t.rewardClaimed = true

section Steps

variable {cfg : Config A} {s s' : State A} {id : Nat} {t k : ZkTask A}

omit [DecidableEq A] in
theorem due_pending (h : t.status = .pending) : taskTerms.due t = t.submissionDeposit := by
  simp only [taskTerms, h]

theorem unclaimed_insert (h : Inv s) (hp : s'.tasks = s.tasks.insert id k)
    (hk : k.status = .pending → k.rewardClaimed = false) :
    ∀ j x, s'.tasks.get j = some x → x.status = .pending → x.rewardClaimed = false := by
  intro j x hx hst
  rw [hp, get_insert] at hx
  split at hx
  · cases hx
    exact hk hst
  · exact h.unclaimed j x hx hst

variable {j rest : Nat} {verified : Bool} {u : Unit} {who : A} {op : Op A} {x : ZkTask A}

omit [DecidableEq A] in
theorem claimed_insert (hp : s'.tasks = s.tasks.insert id k)
    (hk : Claimed s id → k.rewardClaimed = true) (hj : Claimed s j) : Claimed s' j := by
  obtain ⟨x, hx, hcl⟩ := hj
  by_cases hji : j = id
  · subst hji
    exact ⟨k, by rw [hp, get_insert_self], hk ⟨x, hx, hcl⟩⟩
  · exact ⟨x, by rw [hp, get_insert_ne _ _ hji, hx], hcl⟩

theorem Opened.step (h : Inv s) (ho : Opened s s' t) :
    Inv s' ∧ ∀ j, Claimed s j → Claimed s' j := by
  have hopen := h.backed.openEntry t ((due_pending ho.pending).symm ▸ ho.reserved)
  refine ⟨⟨?_, unclaimed_insert h ho.tasks fun _ => ho.unclaimed⟩, fun j hj => ?_⟩
  · rw [ho.next, ho.tasks]
    exact hopen
  · refine claimed_insert ho.tasks (fun hn => ?_) hj
    obtain ⟨x, hx, -⟩ := hn
    rw [h.backed.next_none] at hx
    cases hx

omit [DecidableEq A] in
theorem Judged.claimed (hj : Judged s s' id t verified) (j : Nat)
    (hc : Claimed s j) : Claimed s' j := by
  refine claimed_insert hj.tasks (fun hid => ?_) hc
  obtain ⟨x, hx, hcl⟩ := hid
  rw [hj.get] at hx
  cases hx
  exact hcl

section

variable (h : Inv s)

include h

theorem Judged.unclaimed (hj : Judged s s' id t verified) :
    ∀ j x, s'.tasks.get j = some x → x.status = .pending → x.rewardClaimed = false := by
  refine unclaimed_insert h hj.tasks fun hst => ?_
  cases verified <;> cases hst

theorem Judged.accept (hj : Judged s s' id t true) (hb : s'.balances = s.balances) : Inv s' := by
  refine ⟨?_, hj.unclaimed h⟩
  rw [hj.next, hj.tasks, hb]
  refine h.backed.rewrite hj.get rfl ?_
  rw [due_pending hj.pending]
  simp only [taskTerms, ZkTask.judge, if_true, h.unclaimed id t hj.get hj.pending,
    Bool.false_eq_true, if_false]

theorem Judged.drawn (hj : Judged s s' id t false)
    (hr : s.balances.repatriateReserved t.miner cfg.accountId t.submissionDeposit =
      some (s'.balances, rest)) :
    s.balances.Drawn s'.balances t.miner t.submissionDeposit fun u =>
      if u = cfg.accountId then t.submissionDeposit else 0 := by
  have hcov := h.backed.covered hj.get
  rw [due_pending hj.pending] at hcov
  exact repatriateReserved_drawn h.backed.issuance hcov hr

theorem Judged.reject (hj : Judged s s' id t false)
    (hr : s.balances.repatriateReserved t.miner cfg.accountId t.submissionDeposit =
      some (s'.balances, rest)) : Inv s' := by
  refine ⟨?_, hj.unclaimed h⟩
  rw [hj.next, hj.tasks]
  refine h.backed.draw hj.get rfl ?_ (hj.drawn h hr)
  rw [due_pending hj.pending]
  exact Nat.zero_add _

theorem submitVerificationUnsigned_rejects
    (halive : s.balances.Live cfg.accountId)
    (hr : (submitVerificationUnsigned cfg id false).run s = (.ok u, s')) :
    ∃ t rest, Judged s s' id t false ∧
      s.balances.repatriateReserved t.miner cfg.accountId t.submissionDeposit =
        some (s'.balances, rest) := by
  obtain ⟨t, hj, -, hb⟩ := submitVerificationUnsigned_ok hr
  have hlive : cfg.accountId = t.miner ∨ s.balances.Live cfg.accountId := .inr halive
  obtain ⟨r, hrep⟩ := repatriateReserved_isSome t.submissionDeposit h.backed.issuance hlive
  refine ⟨t, r.2, hj, ?_⟩
  rw [hrep, hb rfl r hrep]

/-- The reward comes out of the pallet's free balance, the deposit out of the miner's reserve. -/
theorem claim_moves {reward : Nat} {b : Balances A} (ht : s.tasks.get id = some t)
    (hst : t.status = .verified) (hcl : t.rewardClaimed = false)
    (hb : s.balances.transfer cfg.accountId t.miner reward = some b)
    (hbal : s'.balances = (b.unreserve t.miner t.submissionDeposit).1) :
    (∀ x, s'.balances.reserved x + (if x = t.miner then t.submissionDeposit else 0) =
        s.balances.reserved x) ∧
      ∀ x, s'.balances.free x + (if x = cfg.accountId then reward else 0) =
        s.balances.free x + if x = t.miner then reward + t.submissionDeposit else 0 := by
  have hpaid := h.backed.transfer hb
  have hcov := hpaid.covered ht
  simp only [taskTerms, hst, hcl, Bool.false_eq_true, if_false] at hcov
  have hdrawn := unreserve_drawn hpaid.issuance hcov
  refine ⟨fun x => ?_, fun x => ?_⟩
  · rw [hbal, hdrawn.reserved x]
    exact transfer_reserved hb x
  · have hfree := transfer_free hb x
    have hback := hdrawn.free x
    rw [hbal, hback]
    by_cases hx : x = t.miner
    · rw [if_pos hx] at hfree ⊢
      rw [if_pos hx]
      omega
    · rw [if_neg hx] at hfree ⊢
      rw [if_neg hx]
      omega

theorem claimReward_step (hr : (claimReward cfg who id).run s = (.ok u, s')) :
    (Inv s' ∧ ∀ j, Claimed s j → Claimed s' j) ∧ ¬ Claimed s id ∧ Claimed s' id := by
  obtain ⟨t, reward, b, ht, hst, hcl, -, hb, hbal, hnext, htasks⟩ := claimReward_ok hr
  have hpaid := h.backed.transfer hb
  have hcov := hpaid.covered ht
  have hdue : taskTerms.due t = t.submissionDeposit := by
    simp only [taskTerms, hst, hcl, Bool.false_eq_true, if_false]
  rw [hdue] at hcov
  refine ⟨⟨⟨?_, unclaimed_insert h htasks fun hp => ?_⟩, fun j hj =>
    claimed_insert htasks (fun _ => rfl) hj⟩, ?_, _, by rw [htasks, get_insert_self],
    rfl⟩
  · rw [hbal, hnext, htasks]
    refine hpaid.draw ht rfl ?_ (unreserve_drawn hpaid.issuance hcov)
    rw [hdue]
    simp only [taskTerms, hst, if_true, Nat.zero_add]
  · rw [hst] at hp
    cases hp
  · rintro ⟨x, hx, hxcl⟩
    rw [ht] at hx
    cases hx
    rw [hcl] at hxcl
    cases hxcl

end

theorem dispatch_step {ε α : Type} {c : Call (State A) ε α} (h : Inv s)
    (hc : ∀ a t, c.run s = (.ok a, t) → Inv t ∧ ∀ j, Claimed s j → Claimed t j) :
    Inv (c.dispatch s).2 ∧ ∀ j, Claimed s j → Claimed (c.dispatch s).2 j :=
  dispatch_keeps (I := fun t => Inv t ∧ ∀ j, Claimed s j → Claimed t j) ⟨h, fun _ hj => hj⟩ hc

theorem apply_step (h : Inv s) (hpos : op.Possible s) (hc : PayeeAlive cfg s op) :
    Inv (apply cfg s op) ∧ ∀ j, Claimed s j → Claimed (apply cfg s op) j := by
  cases op with
  | submitProof miner proof dimensions multiplierQ100 nonce =>
    refine dispatch_step h fun _ s' hr => ?_
    obtain ⟨t, ht⟩ := submitProof_ok hr
    exact ht.step h
  | verifyTask id =>
    refine dispatch_step h fun _ s' hr => ?_
    obtain ⟨t, ⟨hj, hb, -⟩ | ⟨hj, rest, hb⟩⟩ := verifyTask_ok hr
    · exact ⟨hj.accept h hb, hj.claimed⟩
    · exact ⟨hj.reject h hb, hj.claimed⟩
  | claimReward who id => exact dispatch_step h fun _ s' hr => (claimReward_step h hr).1
  | submitVerificationUnsigned id verified =>
    refine dispatch_step h fun _ s' hr => ?_
    cases verified with
    | true =>
      obtain ⟨t, hj, hb, -⟩ := submitVerificationUnsigned_ok hr
      exact ⟨hj.accept h (hb rfl), hj.claimed⟩
    | false =>
      obtain ⟨t, rest, hj, hb⟩ := submitVerificationUnsigned_rejects h hc hr
      exact ⟨hj.reject h hb, hj.claimed⟩
  | nextBlock => exact ⟨⟨h.backed, h.unclaimed⟩, fun _ hj => hj⟩
  | external b =>
    exact ⟨⟨h.backed.setBalances hpos.1 hpos.2, h.unclaimed⟩, fun _ hj => hj⟩

theorem reach_inv (hs : (system cfg).Reach (PayeeAlive cfg) s) : Inv s := by
  refine hs.invariant (I := Inv) ?_ ?_
  · rintro _ ⟨now, b, rfl, hres, hb⟩
    refine ⟨Terms.Backed.start _ hres hb, fun id t ht => ?_⟩
    simp [State.fresh] at ht
  · rintro s op _ h hc ⟨hpos, rfl⟩
    exact (apply_step h hpos hc).1

theorem claims_step (h : Inv s) :
    (claims cfg s op).Nodup ∧
      ∀ id ∈ claims cfg s op, ¬ Claimed s id ∧ Claimed (apply cfg s op) id := by
  cases op with
  | claimReward who id =>
    by_cases hok : ((claimReward cfg who id).run s).1.isOk = true
    · obtain ⟨u, hr⟩ := run_of_isOk hok
      simp only [claims, if_pos hok, List.nodup_singleton, List.mem_singleton, forall_eq, true_and]
      exact (claimReward_step h hr).2
    · simp [claims, hok]
  | _ => simp [claims]

/-- A task that is rejected in a step. -/
structure Rejects (s s' : State A) (id : Nat) (t : ZkTask A) : Prop where
  get : s.tasks.get id = some t
  before : t.status ≠ .failed
  after : (s'.tasks.get id).map ZkTask.status = some .failed

section

omit [DecidableEq A]

theorem not_rejects_insert (hp : s'.tasks = s.tasks.insert id k)
    (hk : k.status = .failed → ∃ y, s.tasks.get id = some y ∧ y.status = .failed)
    (hr : Rejects s s' j x) : False := by
  have hafter := hr.after
  rw [hp, get_insert] at hafter
  split at hafter
  · next hj =>
    obtain ⟨y, hy, hst⟩ := hk (by simpa using hafter)
    rw [← hj, hr.get] at hy
    cases hy
    exact hr.before hst
  · rw [hr.get] at hafter
    exact hr.before (by simpa using hafter)

theorem Judged.rejects_eq (hj : Judged s s' id t false) (hr : Rejects s s' j x) : x = t := by
  by_cases hji : j = id
  · have hget := hr.get
    rw [hji, hj.get] at hget
    cases hget
    rfl
  · have hafter := hr.after
    rw [hj.tasks, get_insert_ne _ _ hji, hr.get] at hafter
    exact absurd (by simpa using hafter) hr.before

theorem Rejects.tasks_ne (hr : Rejects s s' j x) : s'.tasks ≠ s.tasks := by
  intro hp
  have hafter := hr.after
  rw [hp, hr.get] at hafter
  exact hr.before (by simpa using hafter)

end

/-- **A rejected task loses its deposit in the step that rejects it.** -/
theorem rejects_drawn (h : Inv s) (hc : PayeeAlive cfg s op)
    (hr : Rejects s (apply cfg s op) id t) :
    s.balances.Drawn (apply cfg s op).balances t.miner t.submissionDeposit fun u =>
      if u = cfg.accountId then t.submissionDeposit else 0 := by
  have hdispatch : ∀ {ε α : Type} (c : Call (State A) ε α),
      (∀ a s', c.run s = (.ok a, s') → Rejects s s' id t → s.balances.Drawn s'.balances t.miner
        t.submissionDeposit fun u => if u = cfg.accountId then t.submissionDeposit else 0) →
      Rejects s (c.dispatch s).2 id t →
        s.balances.Drawn (c.dispatch s).2.balances t.miner t.submissionDeposit fun u =>
          if u = cfg.accountId then t.submissionDeposit else 0 := by
    intro ε α c hok hrej
    rcases dispatch_cases c s with ⟨a, hrun⟩ | hsame
    · exact hok a _ hrun hrej
    · rw [hsame] at hrej
      exact absurd rfl hrej.tasks_ne
  cases op with
  | submitProof miner proof dimensions multiplierQ100 nonce =>
    refine hdispatch _ (fun _ s' hrun hrej => ?_) hr
    obtain ⟨x, hx⟩ := submitProof_ok hrun
    refine (not_rejects_insert hx.tasks (fun hst => ?_) hrej).elim
    rw [hx.pending] at hst
    cases hst
  | verifyTask id' =>
    refine hdispatch _ (fun _ s' hrun hrej => ?_) hr
    obtain ⟨x, ⟨hj, -⟩ | ⟨hj, rest, hb⟩⟩ := verifyTask_ok hrun
    · refine (not_rejects_insert hj.tasks (fun hst => ?_) hrej).elim
      cases hst
    · rw [hj.rejects_eq hrej]
      exact hj.drawn h hb
  | claimReward who id' =>
    refine hdispatch _ (fun _ s' hrun hrej => ?_) hr
    obtain ⟨x, reward, b, hx, hst, -, -, -, -, -, htasks⟩ := claimReward_ok hrun
    exact (not_rejects_insert htasks (fun hf => ⟨x, hx, hf⟩) hrej).elim
  | submitVerificationUnsigned id' verified =>
    refine hdispatch _ (fun _ s' hrun hrej => ?_) hr
    cases verified with
    | true =>
      obtain ⟨x, hj, -, -⟩ := submitVerificationUnsigned_ok hrun
      refine (not_rejects_insert hj.tasks (fun hst => ?_) hrej).elim
      cases hst
    | false =>
      obtain ⟨x, rest, hj, hb⟩ := submitVerificationUnsigned_rejects h hc hrun
      rw [hj.rejects_eq hrej]
      exact hj.drawn h hb
  | nextBlock => exact absurd rfl hr.tasks_ne
  | external b => exact absurd rfl hr.tasks_ne

end Steps

/-- **Deposits are accounted for**, in every run in which the account of the pallet exists
whenever an unsigned verdict rejects a task. -/
theorem deposits_accounted (cfg : Config A) (s : State A) (log : List Nat)
    (hs : ((system cfg).logged (claims cfg)).Reach (fun p => PayeeAlive cfg p.1) (s, log)) :
    (∀ u, s.balances.reserved u = taskTerms.held s.tasks u) ∧
      (∀ op : Op A, op.Possible s → PayeeAlive cfg s op → ∀ id t, Rejects s (apply cfg s op) id t →
        s.balances.Drawn (apply cfg s op).balances t.miner t.submissionDeposit fun u => if u =
        cfg.accountId then t.submissionDeposit else 0) ∧
      (∀ who id s', (claimReward cfg who id).run s = (.ok (), s') → ∃ t reward, s.tasks.get id =
        some t ∧ (∀ u, s'.balances.reserved u + (if u = t.miner then t.submissionDeposit else 0) =
        s.balances.reserved u) ∧ ∀ u, s'.balances.free u + (if u = cfg.accountId then reward else 0)
        = s.balances.free u + if u = t.miner then reward + t.submissionDeposit else 0) ∧
      log.Nodup := by
  have h := reach_inv (System.Reach.unlog hs)
  refine ⟨h.backed.backed, fun op _ hc id t hr => rejects_drawn h hc hr,
    fun who id s' hr => ?_, ?_⟩
  · obtain ⟨t, reward, b, ht, hst, hcl, -, hb, hbal, -, -⟩ := claimReward_ok hr
    exact ⟨t, reward, ht, claim_moves h ht hst hcl hb hbal⟩
  refine (System.Reach.log_nodup (K := Claimed) hs ?_ ?_).1
  · rintro t op _ ht hc ⟨hpos, rfl⟩
    exact (apply_step (reach_inv ht) hpos hc).2
  · rintro t op _ ht hc ⟨hpos, rfl⟩
    exact claims_step (reach_inv ht)

namespace Demo

/-- Nobody has paid anything to the account of the pallet yet. -/
def unfunded : Balances Nat := ⟨(∅ : StorageMap Nat AccountData).insert 1 ⟨100, 0, 0⟩⟩

end Demo

theorem deposits_accounted_demo :
    (Demo.reported Demo.funded 2 false).balances.reserved 1 = 0 ∧
      taskTerms.held (Demo.reported Demo.funded 2 false).tasks 1 = 0 ∧
      (Demo.reported Demo.funded 2 false).balances.free 0 = 1050 := by
  have hreach : ((system Demo.config).logged (claims Demo.config)).Reach
      (fun p => PayeeAlive Demo.config p.1) (Demo.reported Demo.funded 2 false, []) := by
    have hsubmit : ((system Demo.config).logged (claims Demo.config)).Reach
        (fun p => PayeeAlive Demo.config p.1) (apply Demo.config (Demo.start Demo.funded)
          (.submitProof 1 [byte 2] (1, 1, 1) 120 0), []) :=
      .step (s := (Demo.start Demo.funded, [])) (i := .submitProof 1 [byte 2] (1, 1, 1) 120 0)
        (.init ⟨Demo.start_init (by decide +kernel) (by decide +kernel), rfl⟩) trivial
        ⟨⟨trivial, rfl⟩, rfl⟩
    refine hsubmit.step (i := .submitVerificationUnsigned 0 false) ?_ ⟨⟨?_, rfl⟩, rfl⟩
    · show Balances.Live (A := Nat) _ _
      decide +kernel
    · show Except.isOk _ = true
      decide +kernel
  have hres : (Demo.reported Demo.funded 2 false).balances.reserved 1 = 0 := by decide +kernel
  exact ⟨hres, ((deposits_accounted Demo.config _ _ hreach).1 1).symm.trans hres,
    by decide +kernel⟩

/-- The deposit of a rejected task stays in the reserve if the pallet's account does not exist. -/
theorem rejected_deposit_stays :
    ∃ s : State Nat, (system Demo.config).Reach (fun _ _ => True) s ∧
      (s.tasks.get 0).map ZkTask.status = some .failed ∧ s.balances.reserved 1 = 50 ∧
      taskTerms.held s.tasks 1 = 0 := by
  exact ⟨Demo.reported Demo.unfunded 2 false, Demo.reported_reach
    (Demo.start_init (by decide +kernel) (by decide +kernel)) (by decide +kernel) trivial trivial,
    by decide +kernel, by decide +kernel, by decide +kernel⟩

/-! # Which proofs are paid

The verifier of the runtime binds a proof to its dimensions, not to its miner, and reads the first
97 bytes only; the pallet does not remember proofs. So a proof is paid once only if nobody submits
it twice. -/

variable {A : Type} [DecidableEq A]

/-! ## The verifier of the runtime -/

/-- `u32::to_le_bytes`. -/
def leBytes (n : Nat) : Bytes := (List.range 4).map fun i => byte (n / 256 ^ i)

/-- The bytes that are hashed: version, commitment and nonce of the proof, and the dimensions. -/
def bindingPreimage (proof : Bytes) (d : Nat × Nat × Nat) : Bytes :=
  proof.take 65 ++ leBytes d.1 ++ leBytes d.2.1 ++ leBytes d.2.2

/-- `HashCommitmentZkVerifier::verify`. -/
def hashCommitmentVerify (blake2 : Bytes → Bytes) (proof : Bytes) (d : Nat × Nat × Nat) : Bool :=
  if proof.length < 97 then false
  else if proof.head? ≠ some (byte 1) then false
  else if d.1 = 0 ∨ d.2.1 = 0 ∨ d.2.2 = 0 then false
  else if 65536 < d.1 ∨ 65536 < d.2.1 ∨ 65536 < d.2.2 then false
  else (proof.drop 65).take 32 = blake2 (bindingPreimage proof d)

/-- What follows the binding hash is not looked at. -/
theorem hashCommitmentVerify_append {blake2 : Bytes → Bytes} {p : Bytes} {d : Nat × Nat × Nat}
    (hhash : ∀ x, (blake2 x).length = 32) (hp : p.length = 65) (hv : p.head? = some (byte 1))
    (hd : d.1 ≠ 0 ∧ d.2.1 ≠ 0 ∧ d.2.2 ≠ 0) (hmax : d.1 ≤ 65536 ∧ d.2.1 ≤ 65536 ∧ d.2.2 ≤ 65536)
    (extra : Bytes) :
    hashCommitmentVerify blake2 (p ++ (blake2 (bindingPreimage p d) ++ extra)) d = true := by
  have hlen := hhash (bindingPreimage p d)
  have hpre : bindingPreimage (p ++ (blake2 (bindingPreimage p d) ++ extra)) d =
      bindingPreimage p d := by
    simp only [bindingPreimage, List.take_append_of_le_length hp.ge]
  unfold hashCommitmentVerify
  rw [hpre, List.drop_left' hp, List.take_left' hlen, List.head?_append, hv, if_neg, if_neg, if_neg,
    if_neg]
  · exact decide_eq_true rfl
  · omega
  · omega
  · simp
  · simp only [List.length_append]
    omega

/-! ## Tasks along a run -/

/-- The commitment of the proof, and the dimensions. -/
def ZkTask.work (t : ZkTask A) : Bytes × Nat × Nat × Nat := ((t.proof.drop 1).take 32, t.dimensions)

/-- What an operation writes to the tasks: nothing, a verdict or a claim, or a submitted task. -/
inductive Wrote (s s' : State A) : Op A → Prop
  | nothing {op : Op A} (tasks : s'.tasks = s.tasks) : Wrote s s' op
  | rewrite {op : Op A} {id : Nat} {t k : ZkTask A} (get : s.tasks.get id = some t)
      (same : k = { t with status := k.status, rewardClaimed := k.rewardClaimed })
      (tasks : s'.tasks = s.tasks.insert id k) : Wrote s s' op
  | submit {miner : A} {proof : Bytes} {d : Nat × Nat × Nat} {q n id : Nat} {t : ZkTask A}
      (given : t.proof = proof ∧ t.dimensions = d)
      (valid : validDimensions t.dimensions = true ∧ 0 < t.multiplierQ100)
      (tasks : s'.tasks = s.tasks.insert id t) : Wrote s s' (.submitProof miner proof d q n)

section Steps

variable {cfg : Config A} {s s' : State A} {id : Nat} {t : ZkTask A} {op : Op A}

omit [DecidableEq A] in
theorem Judged.wrote {verified : Bool} (h : Judged s s' id t verified) : Wrote s s' op :=
  .rewrite h.get rfl h.tasks

theorem apply_wrote (cfg : Config A) (s : State A) (op : Op A) : Wrote s (apply cfg s op) op := by
  have hd (c : Call (State A) Error Unit) := dispatch_keeps (c := c) (I := fun s' => Wrote s s' op)
    (.nothing rfl)
  cases op with
  | submitProof =>
    refine hd _ fun _ s' hr => ?_
    unfold submitProof at hr
    simp only [run_ok] at hr
    obtain ⟨hv, hq, -, -, -, -, -, -, b, -, -, -, rfl⟩ := hr
    exact .submit ⟨rfl, rfl⟩ ⟨hv, Nat.lt_of_lt_of_le (by decide) hq⟩ rfl
  | verifyTask =>
    refine hd _ fun _ s' hr => ?_
    obtain ⟨t, ⟨hj, -⟩ | ⟨hj, -⟩⟩ := verifyTask_ok hr
    · exact hj.wrote
    · exact hj.wrote
  | claimReward =>
    refine hd _ fun _ s' hr => ?_
    obtain ⟨t, -, -, ht, -, -, -, -, -, -, htasks⟩ := claimReward_ok hr
    exact .rewrite ht rfl htasks
  | submitVerificationUnsigned =>
    refine hd _ fun _ s' hr => ?_
    obtain ⟨t, hj, -⟩ := submitVerificationUnsigned_ok hr
    exact hj.wrote
  | nextBlock => exact .nothing rfl
  | external => exact .nothing rfl

theorem reach_valid {C : State A → Op A → Prop} (hs : (system cfg).Reach C s) :
    ∀ id t, s.tasks.get id = some t →
      validDimensions t.dimensions = true ∧ 0 < t.multiplierQ100 := by
  refine hs.invariant (I := fun s => ∀ id t, s.tasks.get id = some t →
    validDimensions t.dimensions = true ∧ 0 < t.multiplierQ100) ?_ ?_
  · rintro _ ⟨now, b, rfl, -⟩ id t ht
    simp [State.fresh] at ht
  · rintro s op _ h - ⟨-, rfl⟩ j x hx
    cases apply_wrote cfg s op with
    | nothing tasks => exact h j x (tasks ▸ hx)
    | rewrite get same tasks =>
      rcases get_insert_cases (tasks ▸ hx) with ⟨-, rfl⟩ | hx
      · have hold := h _ _ get
        rw [same]
        exact hold
      · exact h j x hx
    | submit given valid tasks =>
      rcases get_insert_cases (tasks ▸ hx) with ⟨-, rfl⟩ | hx
      · exact valid
      · exact h j x hx

end Steps

/-! ## A proof is paid once -/

/-- A submission repeats the work of no task. -/
def Unrepeated (s : State A) : Op A → Prop
  | .submitProof _ proof d _ _ =>
    ∀ id t, s.tasks.get id = some t → t.work ≠ ((proof.drop 1).take 32, d)
  | _ => True

def WorkInj (m : StorageMap Nat (ZkTask A)) : Prop :=
  ∀ i j x y, m.get i = some x → m.get j = some y → x.work = y.work → i = j

omit [DecidableEq A] in
theorem WorkInj.insert {m : StorageMap Nat (ZkTask A)} {id : Nat} {k : ZkTask A} (h : WorkInj m)
    (hk : ∀ j y, m.get j = some y → y.work = k.work → j = id) : WorkInj (m.insert id k) := by
  intro i j x y hx hy he
  rcases get_insert_cases hx with ⟨hi, rfl⟩ | hx <;>
    rcases get_insert_cases hy with ⟨hj, rfl⟩ | hy
  · exact hi.trans hj.symm
  · exact hi.trans (hk j y hy he.symm).symm
  · exact (hk i x hx he).trans hj.symm
  · exact h i j x y hx hy he

theorem reach_work_inj {cfg : Config A} {s : State A} (hs : (openSystem cfg).Reach Unrepeated s) :
    WorkInj s.tasks := by
  refine hs.invariant (I := fun s => WorkInj s.tasks) ?_ ?_
  · rintro _ ⟨now, b, rfl⟩ i j x y hx
    simp [State.fresh] at hx
  · rintro s op _ h hc rfl
    cases apply_wrote cfg s op with
    | nothing tasks => exact tasks ▸ h
    | @rewrite _ id t k get same tasks =>
      have hwork : k.work = t.work := by rw [same]; rfl
      rw [tasks]
      exact h.insert fun j y hy he => h j id y t hy get (he.trans hwork)
    | submit given valid tasks =>
      obtain ⟨rfl, rfl⟩ := given
      rw [tasks]
      exact h.insert fun j y hy he => absurd he (hc j y hy)

/-- **A proof is paid once if nobody submits it twice**: then two paid tasks differ in their
commitment or in their dimensions. -/
theorem proof_paid_once (cfg : Config A) (s : State A) (hs : (openSystem cfg).Reach Unrepeated s)
    (i j : Nat) (hi : Claimed s i) (hj : Claimed s j) (hne : i ≠ j) :
    ∃ x y, s.tasks.get i = some x ∧ s.tasks.get j = some y ∧
      ((x.proof.drop 1).take 32 ≠ (y.proof.drop 1).take 32 ∨ x.dimensions ≠ y.dimensions) := by
  obtain ⟨x, hx, -⟩ := hi
  obtain ⟨y, hy, -⟩ := hj
  refine ⟨x, y, hx, hy, ?_⟩
  by_contra hsame
  rw [not_or, not_not, not_not] at hsame
  exact hne (reach_work_inj hs i j x y hx hy (Prod.ext hsame.1 hsame.2))

namespace Replay

/-- The verifier of the runtime with a hash function that is always zero. -/
def config (maxVerifiedTasks : Nat) : Config Nat :=
  { Demo.config with
    verify := hashCommitmentVerify fun _ => List.replicate 32 (byte 0)
    maxProofSize := 128
    maxVerifiedTasks }

def balances : Balances Nat := ⟨Demo.funded.accounts.insert 2 ⟨100, 0, 0⟩⟩

/-- A proof with the commitment of 32 times `c`. -/
def proof (c : Nat) : Bytes := byte 1 :: (List.replicate 32 (byte c) ++ List.replicate 64 (byte 0))

def paid (miner id nonce : Nat) (proof : Bytes) : List (Op Nat) :=
  [.submitProof miner proof (1, 1, 1) 120 nonce, .verifyTask id, .claimReward miner id]

def after (n : Nat) (ops : List (Op Nat)) : State Nat :=
  ops.foldl (apply (config n)) (.fresh 1 balances)

theorem reach {n : Nat} {C : State Nat → Op Nat → Prop} {ops : List (Op Nat)}
    (h : System.Path (apply (config n)) (fun s op => op.Possible s ∧ C s op) ops
      (.fresh 1 balances)) : (system (config n)).Reach C (after n ops) := by
  have hres := reserved_of_iter (b := balances) (by decide +kernel)
  exact System.Reach.path (P := fun s op => op.Possible s ∧ C s op)
    (.init ⟨1, balances, rfl, hres, by decide +kernel⟩) (fun s op h => ⟨h.2, h.1, rfl⟩) h

def distinct : List (Op Nat) := paid 1 0 0 (proof 3) ++ paid 2 1 0 (proof 4)

/-- The miner 2 copies the proof of the miner 1 with a byte behind it, and the miner 1 submits it
again under a new nonce. -/
def copied : List (Op Nat) :=
  paid 1 0 0 (proof 3) ++ paid 2 1 0 (proof 3 ++ [byte 7]) ++ paid 1 2 1 (proof 3)

end Replay

open Replay in
theorem proof_paid_once_demo :
    Claimed (after 4 distinct) 0 ∧ Claimed (after 4 distinct) 1 ∧
    ∃ x y, (after 4 distinct).tasks.get 0 = some x ∧ (after 4 distinct).tasks.get 1 = some y ∧
      ((x.proof.drop 1).take 32 ≠ (y.proof.drop 1).take 32 ∨ x.dimensions ≠ y.dimensions) := by
  have hreach : (system (config 4)).Reach Unrepeated (after 4 distinct) := by
    have hnew : ∀ e ∈ (after 4 (distinct.take 3)).tasks.iter,
        e.2.work ≠ (((proof 4).drop 1).take 32, 1, 1, 1) := by decide +kernel
    refine reach ⟨⟨trivial, fun id t ht => ?_⟩, ⟨trivial, trivial⟩, ⟨trivial, trivial⟩,
      ⟨trivial, fun id t ht => hnew (id, t) (mem_iter.2 ht)⟩, ⟨trivial, trivial⟩,
      ⟨trivial, trivial⟩, trivial⟩
    simp [State.fresh] at ht
  have hpaid : ∀ i < 2, ((after 4 distinct).tasks.get i).map ZkTask.rewardClaimed = some true := by
    decide +kernel
  have h0 := Option.map_eq_some_iff.1 (hpaid 0 (by decide))
  have h1 := Option.map_eq_some_iff.1 (hpaid 1 (by decide))
  exact ⟨h0, h1, proof_paid_once _ _ (reach_open hreach) 0 1 h0 h1 (by decide)⟩

open Replay in
/-- Whatever the hash function is, a proof may be followed by any bytes. Three tasks with the same
commitment and dimensions are paid. -/
theorem proof_paid_three_times :
    (∀ (blake2 : Bytes → Bytes) (p : Bytes) (d : Nat × Nat × Nat),
      (∀ x, (blake2 x).length = 32) → p.length = 65 → p.head? = some (byte 1) →
      (d.1 ≠ 0 ∧ d.2.1 ≠ 0 ∧ d.2.2 ≠ 0) → (d.1 ≤ 65536 ∧ d.2.1 ≤ 65536 ∧ d.2.2 ≤ 65536) →
      ∀ extra,
        hashCommitmentVerify blake2 (p ++ (blake2 (bindingPreimage p d) ++ extra)) d = true) ∧
    (system (config 4)).Reach (fun _ op => ∀ id v, op ≠ .submitVerificationUnsigned id v)
      (after 4 copied) ∧
    (after 4 copied).tasks.iter.length = 3 ∧
    (∀ e ∈ (after 4 copied).tasks.iter, e.2.rewardClaimed = true ∧
      e.2.work = (List.replicate 32 (byte 3), 1, 1, 1)) ∧
    (after 4 copied).balances.free 1 = 102 ∧ (after 4 copied).balances.free 2 = 101 := by
  refine ⟨fun blake2 p d hhash hp hv hd hmax => hashCommitmentVerify_append hhash hp hv hd hmax, ?_,
    by decide +kernel, by decide +kernel, by decide +kernel, by decide +kernel⟩
  refine reach (System.Path.of_forall (fun op hop s => ?_) _)
  have hall : ∀ op ∈ copied, op.Possible s ∧ ∀ id v, op ≠ .submitVerificationUnsigned id v := by
    simp [copied, paid, Op.Possible]
  exact hall op hop

/-! ## An honest task is completed -/

section Honest

variable {cfg : Config A} {s : State A} {id : Nat} {t : ZkTask A}

def ZkTask.product (t : ZkTask A) : Nat :=
  t.baseReward * (t.dimensions.1 * t.dimensions.2.1 * t.dimensions.2.2) * t.multiplierQ100

omit [DecidableEq A] in
theorem calculateReward_eq_some (hv : validDimensions t.dimensions = true)
    (hq : 0 < t.multiplierQ100) {r : Nat} :
    t.calculateReward = some r ↔ t.product ≤ u128Max ∧ r = t.product / 100000000 := by
  have hvol : volume t.dimensions =
      some (t.dimensions.1 * t.dimensions.2.1 * t.dimensions.2.2) := by
    unfold validDimensions at hv
    split at hv
    · cases hv
    · obtain ⟨v, hsome⟩ := Option.isSome_iff_exists.1 hv
      rw [hsome]
      simp only [volume, Option.bind_eq_some_iff, checkedMul_eq_some] at hsome
      obtain ⟨_, ⟨-, rfl⟩, -, rfl⟩ := hsome
      rfl
  have hle : ∀ n, n ≤ n * t.multiplierQ100 := fun n => Nat.le_mul_of_pos_right n hq
  unfold ZkTask.calculateReward ZkTask.product
  simp only [hvol, Option.bind_eq_bind, Option.bind_some, Option.bind_eq_some_iff,
    checkedMul_eq_some, Option.some.injEq]
  constructor
  · rintro ⟨_, ⟨-, rfl⟩, _, ⟨hfit, rfl⟩, rfl⟩
    exact ⟨hfit, rfl⟩
  · rintro ⟨hfit, rfl⟩
    exact ⟨_, ⟨(hle _).trans hfit, rfl⟩, _, ⟨hfit, rfl⟩, rfl⟩

theorem verifyTask_accepts_iff (ht : s.tasks.get id = some t) (hst : t.status = .pending)
    (hv : cfg.verify t.proof t.dimensions = true)
    (hnow : s.now ≤ t.submittedAt + cfg.verificationTimeout)
    (hfit : t.submittedAt + cfg.verificationTimeout ≤ u32Max) :
    (∃ s', (verifyTask cfg id).run s = (.ok (), s') ∧
        s'.tasks.get id = some { t with status := .verified }) ↔
      s.verifiedTasks.length < cfg.maxVerifiedTasks := by
  have hlate := Nat.not_lt.2 hnow
  constructor
  · rintro ⟨s', hr, -⟩
    unfold verifyTask at hr
    simp only [run_ok, checkedAdd_eq_some] at hr
    obtain ⟨x, hx, -, deadline, -, rfl, hr⟩ := hr
    obtain rfl := Option.some.inj (ht.symm.trans hx)
    simp only [run_ok, hlate, hv, if_true, if_false] at hr
    exact hr.1
  · intro hroom
    have hr : (verifyTask cfg id).run s = (.ok (), increaseScore cfg
        { s.judge id t true with verifiedTasks := s.verifiedTasks ++ [id] } t.miner) := by
      unfold verifyTask
      simp only [run_ok, checkedAdd_eq_some]
      refine ⟨t, ht, hst, hfit, _, rfl, ?_⟩
      simp only [run_ok, hlate, hv, if_true, if_false]
      exact ⟨hroom, trivial⟩
    exact ⟨_, hr, StorageMap.get_insert_self ..⟩

end Honest

/-- **An honest task is completed** exactly if the list of accepted tasks has room when it is
verified, and the product of its reward fits when it is claimed. -/
theorem honest_task_completed_iff (cfg : Config A) (s : State A)
    (hs : (system cfg).Reach (PayeeAlive cfg) s) (id : Nat) (t : ZkTask A)
    (ht : s.tasks.get id = some t) :
    (t.status = .pending → cfg.verify t.proof t.dimensions = true →
      s.now ≤ t.submittedAt + cfg.verificationTimeout →
      t.submittedAt + cfg.verificationTimeout ≤ u32Max →
      ((∃ s', (verifyTask cfg id).run s = (.ok (), s') ∧
          s'.tasks.get id = some { t with status := .verified }) ↔
        s.verifiedTasks.length < cfg.maxVerifiedTasks)) ∧
    (t.status = .verified → t.rewardClaimed = false →
      (s.balances.account cfg.accountId).frozen + t.product / 100000000 ≤
        s.balances.free cfg.accountId →
      ((∃ s', (claimReward cfg t.miner id).run s = (.ok (), s') ∧
          (∀ x, s'.balances.reserved x + (if x = t.miner then t.submissionDeposit else 0) =
            s.balances.reserved x) ∧
          ∀ x, s'.balances.free x + (if x = cfg.accountId then t.product / 100000000 else 0) =
            s.balances.free x + if x = t.miner then t.product / 100000000 + t.submissionDeposit
              else 0) ↔
        t.product ≤ u128Max)) := by
  refine ⟨verifyTask_accepts_iff ht, fun hst hcl hheld => ?_⟩
  have h := reach_inv hs
  obtain ⟨hv, hq⟩ := reach_valid hs id t ht
  constructor
  · rintro ⟨s', hr, -⟩
    obtain ⟨x, reward, -, hx, -, -, hrew, -⟩ := claimReward_ok hr
    obtain rfl := Option.some.inj (ht.symm.trans hx)
    exact ((calculateReward_eq_some hv hq).1 hrew).1
  · intro hfit
    obtain ⟨b, hb⟩ := transfer_isSome t.miner h.backed.issuance hheld
    have hrew := (calculateReward_eq_some hv hq).2 ⟨hfit, rfl⟩
    obtain ⟨s', hr⟩ : ∃ s', (claimReward cfg t.miner id).run s = (.ok (), s') := by
      unfold claimReward
      simp only [run_ok]
      exact ⟨_, t, ht, rfl, hst, hcl, _, hrew, b, hb, rfl⟩
    obtain ⟨x, reward, b', hx, -, -, hcalc, hb', hbal, -, -⟩ := claimReward_ok hr
    obtain rfl := Option.some.inj (ht.symm.trans hx)
    obtain ⟨-, rfl⟩ := (calculateReward_eq_some hv hq).1 hcalc
    exact ⟨s', hr, claim_moves h ht hst hcl hb' hbal⟩

open Replay in
/-- A submitted task is accepted in its block. -/
theorem honest_task_completed_demo :
    ∃ s', (verifyTask (config 4) 0).run (after 4 (distinct.take 1)) = (.ok (), s') ∧
      (s'.tasks.get 0).map ZkTask.status = some .verified := by
  have hreach : (system (config 4)).Reach (PayeeAlive (config 4)) (after 4 (distinct.take 1)) :=
    reach ⟨⟨trivial, trivial⟩, trivial⟩
  have hfacts : ∀ e ∈ (after 4 (distinct.take 1)).tasks.iter, e.2.status = .pending ∧
      (config 4).verify e.2.proof e.2.dimensions = true ∧ e.2.submittedAt = 1 := by decide +kernel
  have hsome : ((after 4 (distinct.take 1)).tasks.get 0).isSome = true := by decide +kernel
  obtain ⟨t, ht⟩ := Option.isSome_iff_exists.1 hsome
  obtain ⟨hst, hv, hat⟩ := hfacts (0, t) (mem_iter.2 ht)
  have hdone := (honest_task_completed_iff (config 4) _ hreach 0 t ht).1 hst hv
  rw [hat] at hdone
  obtain ⟨s', hr, hs'⟩ := (hdone (by decide) (by decide)).2 (by decide +kernel)
  exact ⟨s', hr, by rw [hs']; rfl⟩

open Replay in
/-- The list of accepted tasks has room for one task, and the second honest one is refused. A
reward that fits is refused as well if the product before the division does not fit. -/
theorem honest_task_refused :
    (system (config 1)).Reach (fun _ _ => True) (after 1 (distinct.take 4)) ∧
    ((after 1 (distinct.take 4)).tasks.get 1).map (fun t =>
      (t.status, (config 1).verify t.proof t.dimensions, t.submittedAt)) =
        some (.pending, true, 1) ∧
    ((verifyTask (config 1) 1).run (after 1 (distinct.take 4))).1.isOk = false ∧
    let t : ZkTask Nat := ⟨0, 1, [], (2 ^ 31, 2 ^ 31, 8), .verified, 10 ^ 17, 150, 1, 50, false⟩
    validDimensions t.dimensions = true ∧ t.product / 100000000 ≤ u128Max ∧
      t.calculateReward = none := by
  refine ⟨reach ?_, by decide +kernel, by decide +kernel, by decide +kernel⟩
  exact ⟨⟨trivial, trivial⟩, ⟨trivial, trivial⟩, ⟨trivial, trivial⟩, ⟨trivial, trivial⟩, trivial⟩

end DeepBrainChain.ZkCompute
