import DeepBrainChain.OnlineCommittee.Run

/-!
# The phases of an order

A committee may submit its hash at any time: the pallet never looks at the end of the time for
hashes.
-/

namespace DeepBrainChain.OnlineCommittee

open Lib GenericFunc Support Lib.Call SortedVec List

section

variable {A : Type} [LinearOrder A]

/-! ## Blocks in which nothing is due

An order waits a day and a half for its hashes and a slash two days. While nothing is due, a block
only moves the clock: a run can be followed over thousands of such blocks at once. -/

section Idle

open StorageMap

def State.atBlock (s : State A) (k : Nat) : State A :=
  s.setProfile { s.toProfile with now := k }

/-- Nothing is due at the end of block `k` and at the start of the next one. -/
structure State.Idle (s : State A) (k : Nat) : Prop where
  day : (k + 1) % oneDay ≠ 1 ∧ (k + 1) % oneDay ≠ 2
  snap : s.rewards.allMachineIdSnap = []
  exec : s.slashes.pendingExecSlash.get (k + 1) = none
  checking : s.slashes.pendingSlashReviewChecking.get (k + 1) = none
  reviews : s.oc.pendingSlashReview.iter = []
  slashes : ∀ id ∈ s.oc.unhandledSlash,
    ∃ x, s.oc.pendingSlash.get id = some x ∧ k + 1 < x.slashExecTime
  waiting : s.machines.liveMachines.confirmedMachine.toList = []
  orders : ∀ m ∈ s.machines.liveMachines.bookedMachine,
    (s.orders.order m).canSubmitRaw k = false ∧ (s.orders.order m).canSummary k = false

variable {s : State A}

theorem statisticResult_idle (h : ∀ m ∈ s.machines.liveMachines.bookedMachine,
    (s.orders.order m).canSubmitRaw s.now = false ∧ (s.orders.order m).canSummary s.now = false) :
    s.statisticResult = s := by
  have hone : ∀ m ∈ s.machines.liveMachines.bookedMachine,
      ((summaryRaw m (s.stakePerOrder.getD 0)).run s).2 = s := by
    intro m hm
    obtain ⟨hraw, hsum⟩ := h m hm
    unfold summaryRaw
    rw [run_bind, run_get]
    simp only [hraw, hsum, Bool.false_eq_true, if_false, if_true, run_pure]
  unfold State.statisticResult State.summedUp
  generalize hl : s.machines.liveMachines.bookedMachine.toList = l
  have hall : ∀ m ∈ l, ((summaryRaw m (s.stakePerOrder.getD 0)).run s).2 = s := by
    intro m hm
    rw [← hl] at hm
    exact hone m hm
  clear hl
  generalize s.stakePerOrder.getD 0 = stake at hall ⊢
  induction l with
  | nil => rfl
  | cons m l ih =>
    rw [foldl_cons, hall m mem_cons_self]
    exact ih fun m' hm' => hall m' (mem_cons_of_mem m hm')

theorem onFinalize_idle (h : s.Idle s.now) (draw : MachineId → Nat → Nat) :
    s.onFinalize draw = s := by
  unfold State.onFinalize State.distributeMachines
  rw [statisticResult_idle h.orders, h.waiting]
  rfl

theorem execSlashes_idle {l : List Nat} (left : SortedVec Nat)
    (h : ∀ id ∈ l, ∃ x, s.oc.pendingSlash.get id = some x ∧ s.now < x.slashExecTime) :
    execSlashes l (left, s) = (left, s) := by
  induction l with
  | nil => rfl
  | cons id l ih =>
    obtain ⟨x, hx, hnow⟩ := h id mem_cons_self
    have hrun : (doASlash id left).run s = (.ok left, s) := by
      unfold doASlash
      rw [run_bind, run_get]
      simp only [hx]
      rw [run_bind, run_okOr_some]
      simp only [hnow, if_true, run_pure]
    unfold execSlashes
    rw [hrun]
    exact ih fun id' h' => h id' (mem_cons_of_mem id h')

theorem onInitialize_idle (hr : s.oc.pendingSlashReview.iter = [])
    (hs : ∀ id ∈ s.oc.unhandledSlash,
      ∃ x, s.oc.pendingSlash.get id = some x ∧ s.now < x.slashExecTime) :
    s.onInitialize = s := by
  unfold State.onInitialize State.checkAndExecPendingReview
  rw [hr]
  unfold State.checkAndExecPendingSlash
  rw [map_nil, foldl_nil, execSlashes_idle _ hs]
  rfl

/-- **An idle block** moves the clock. -/
theorem startBlock_idle (h : s.Idle s.now) : s.startBlock = s.atBlock (s.now + 1) := by
  have hp := OnlineProfile.onInitialize_idle (s := { s.toProfile with now := s.now + 1 })
    h.day h.snap
    h.exec h.checking
  unfold State.startBlock
  rw [hp]
  exact onInitialize_idle (s := s.atBlock (s.now + 1)) h.reviews h.slashes

theorem State.Idle.atBlock {k j : Nat} (h : s.Idle k) : (s.atBlock j).Idle k :=
  ⟨h.day, h.snap, h.exec, h.checking, h.reviews, h.slashes, h.waiting, h.orders⟩

theorem idle_of_waiting {k : Nat} (hd : (k + 1) % oneDay ≠ 1 ∧ (k + 1) % oneDay ≠ 2)
    (hsnap : s.rewards.allMachineIdSnap = []) (he : s.slashes.pendingExecSlash.iter = [])
    (hc : s.slashes.pendingSlashReviewChecking.iter = [])
    (hr : s.oc.pendingSlashReview.iter = []) (hu : s.oc.unhandledSlash.toList = [])
    (hw : s.machines.liveMachines.confirmedMachine.toList = [])
    (ho : ∀ m ∈ s.machines.liveMachines.bookedMachine.toList,
      (s.orders.order m).status = .submittingHash ∧
        k < submitRawStart + (s.orders.order m).bookTime) : s.Idle k where
  day := hd
  snap := hsnap
  exec := get_of_iter_nil he _
  checking := get_of_iter_nil hc _
  reviews := hr
  slashes := fun id hid => by
    have hid : id ∈ s.oc.unhandledSlash.toList := hid
    rw [hu] at hid
    cases hid
  waiting := hw
  orders := fun m hm => by
    obtain ⟨hst, htime⟩ := ho m hm
    unfold OCMachineCommitteeList.canSubmitRaw OCMachineCommitteeList.canSummary
    rw [hst]
    simp only [true_and, reduceCtorEq, false_and, or_self, decide_false, decide_eq_false_iff_not,
      and_true]
    omega

end Idle

/-! ## Phases -/

/-- The place of a status in the course of an order. -/
def rank : OCVerifyStatus → Nat
  | .submittingHash => 0
  | .submittingRaw => 1
  | .summarizing => 2
  | .finished => 3

theorem rank_le_finished (st : OCVerifyStatus) : rank st ≤ rank .finished := by
  cases st <;> decide

/-- The order of `m` in its course; `revealed` says that a report on `m` was seen. Once the order
has left its first phase, the time for hashes is over or all of them are there. -/
structure InPhase (now : Nat) (m : MachineId) (revealed : Prop) (x : Orders A) : Prop where
  booked : ∀ c ∈ (x.order m).hashedCommittee, c ∈ (x.order m).bookedCommittee
  start : ∀ c ∈ (x.order m).bookedCommittee,
    (x.order m).confirmStartTime = submitRawStart + (x.order m).bookTime
  late : (x.order m).status ≠ .submittingHash ∨ revealed →
    (∀ c ∈ (x.order m).bookedCommittee, c ∈ (x.order m).hashedCommittee) ∨
      submitHashEnd + (x.order m).bookTime ≤ now
  closed : (x.order m).status = .finished →
    ∀ c ∈ (x.order m).hashedCommittee, m ∉ (x.machinesOf c).hashedMachine

section InPhase

variable {now now' : Nat} {m : MachineId} {r r' redo : Prop} {hashes : A → Prop} {x x' : Orders A}
    {c : A}

theorem InPhase.mono (h : InPhase now m r x) (hn : now ≤ now') (hr : r' → r) :
    InPhase now' m r' x :=
  ⟨h.booked, h.start, fun hl => (h.late (hl.imp_right hr)).imp_right (·.trans hn), h.closed⟩

theorem InPhase.same (h : InPhase now m r x) (hs : Same m x x') : InPhase now m r x' := by
  refine ⟨?_, ?_, ?_, ?_⟩ <;> rw [hs.order]
  · exact h.booked
  · exact h.start
  · exact h.late
  · intro hf c hc
    rw [hs.hashed]
    exact h.closed hf c hc

theorem InPhase.fresh (hf : Fresh (x.order m)) (hr : ¬ r) : InPhase now m r x := by
  refine ⟨?_, hf.start, ?_, ?_⟩
  · rw [hf.hashed]
    exact fun c hc => absurd hc notMem_empty
  · rintro (hst | hrev)
    · exact absurd hf.status hst
    · exact absurd hrev hr
  · intro hst
    rw [hf.status] at hst
    cases hst

variable {o o' : OCMachineCommitteeList A}

theorem submitHash_ok (h : o.submitHash c = .ok o') :
    c ∈ o.bookedCommittee ∧ c ∉ o.hashedCommittee ∧
      o' = { o with
        hashedCommittee := o.hashedCommittee.addItem c
        status := if o.bookedCommittee.length = (o.hashedCommittee.addItem c).length
          then .submittingRaw else o.status } := by
  unfold OCMachineCommitteeList.submitHash at h
  split at h
  · cases h
  split at h
  · cases h
  next hb hh =>
    cases h
    exact ⟨not_not.1 hb, hh, rfl⟩

theorem submitRaw_ok (h : o.submitRaw now c = .ok o') :
    (o.status = .submittingRaw ∨ o.confirmStartTime ≤ now) ∧ c ∈ o.hashedCommittee ∧
      o' = { o with
        confirmedCommittee := o.confirmedCommittee.addItem c
        status := if (o.confirmedCommittee.addItem c).length = o.hashedCommittee.length
          then .summarizing else o.status } := by
  unfold OCMachineCommitteeList.submitRaw at h
  split at h
  · cases h
  split at h
  · cases h
  next ht hh =>
    cases h
    refine ⟨?_, not_not.1 hh, rfl⟩
    by_cases hst : o.status = .submittingRaw
    · exact .inl hst
    · exact .inr (Nat.le_of_not_lt fun hlt => ht ⟨hst, .inl hlt⟩)

section

variable (h : InPhase now m r x)

include h

/-- A hash that comes in time finds the order in its first phase, and no report was seen. -/
theorem InPhase.hash_first (hb : c ∈ (x.order m).bookedCommittee)
    (hh : c ∉ (x.order m).hashedCommittee) (hin : now < submitHashEnd + (x.order m).bookTime) :
    (x.order m).status = .submittingHash ∧ ¬ r := by
  have hnot : ¬ ((x.order m).status ≠ .submittingHash ∨ r) := by
    intro hl
    rcases h.late hl with hall | htime
    · exact hh (hall c hb)
    · omega
  exact ⟨not_not.1 fun hst => hnot (.inl hst), fun hr => hnot (.inr hr)⟩

theorem InPhase.hash (ho : (x.order m).submitHash c = .ok (x'.order m))
    (hin : now < submitHashEnd + (x.order m).bookTime) : InPhase now m r x' := by
  obtain ⟨hb, hh, ho'⟩ := submitHash_ok ho
  obtain ⟨hst, hr⟩ := h.hash_first hb hh hin
  have hsub : ∀ d ∈ (x.order m).hashedCommittee.addItem c, d ∈ (x.order m).bookedCommittee := by
    intro d hd
    rcases mem_addItem.1 hd with rfl | hd
    · exact hb
    · exact h.booked d hd
  refine ⟨?_, ?_, ?_, ?_⟩ <;> rw [ho']
  · exact hsub
  · exact h.start
  · rintro (hne | hrev)
    · -- the last hash has come in
      have hlen : (x.order m).bookedCommittee.length =
          ((x.order m).hashedCommittee.addItem c).length := by
        by_contra hlen
        simp only [hlen, if_false] at hne
        exact hne hst
      exact .inl (subset_of_length_eq hsub hlen.symm)
    · exact absurd hrev hr
  · intro hf
    simp only [hst] at hf
    split at hf <;> cases hf

theorem InPhase.raw (hc : m ∈ (x.machinesOf c).hashedMachine)
    (ho : (x.order m).submitRaw now c = .ok (x'.order m)) : InPhase now m True x' := by
  obtain ⟨ht, hh, ho'⟩ := submitRaw_ok ho
  refine ⟨?_, ?_, fun _ => ?_, fun hf => ?_⟩ <;> rw [ho'] at *
  · exact h.booked
  · exact h.start
  · rcases ht with hst | htime
    · exact h.late (.inl (by rw [hst]; simp))
    · rw [h.start c (h.booked c hh)] at htime
      exact .inr htime
  · simp only at hf
    split at hf
    · cases hf
    · exact absurd hc (h.closed hf c hh)

theorem InPhase.turn (ht : Turn now redo hashes m x x')
    (hin : ∀ c, hashes c → c ∈ (x.order m).bookedCommittee → c ∉ (x.order m).hashedCommittee →
      now < submitHashEnd + (x.order m).bookTime)
    (hr : r' → r) (hredo : redo → ¬ r') : InPhase now m r' x' := by
  cases ht with
  | same hs => exact (h.same hs).mono le_rfl hr
  | hash c hh ho =>
    obtain ⟨hb, hn, -⟩ := submitHash_ok ho
    exact (h.hash ho (hin c hh hb hn)).mono le_rfl hr
  | raw c hc ho => exact (h.raw hc ho).mono le_rfl fun _ => trivial
  | startRaw hs ho =>
    have hs := of_decide_eq_true hs
    refine ⟨?_, ?_, fun _ => .inr ?_, ?_⟩ <;> rw [ho]
    · exact h.booked
    · exact h.start
    · exact hs.2
    · intro hf
      cases hf
  | finish hs l ho hc =>
    have hs := of_decide_eq_true hs
    have hleft : (x.order m).status ≠ .submittingHash := by
      rcases hs with hs | ⟨hs, -⟩ <;> rw [hs] <;> simp
    refine ⟨?_, ?_, fun _ => ?_, fun _ => ?_⟩ <;> rw [ho]
    · exact h.booked
    · exact h.start
    · exact h.late (.inl hleft)
    · exact fun c hh => hc c (h.booked c hh)
  | fresh hredo' hf => exact .fresh hf (hredo hredo')

theorem InPhase.forward (ht : Turn now redo hashes m x x')
    (hin : ∀ c, hashes c → c ∈ (x.order m).bookedCommittee → c ∉ (x.order m).hashedCommittee →
      now < submitHashEnd + (x.order m).bookTime) (hredo : ¬ redo) :
    rank (x.order m).status ≤ rank (x'.order m).status := by
  cases ht with
  | same hs => rw [hs.order]
  | hash c hh ho =>
    obtain ⟨hb, hn, -⟩ := submitHash_ok ho
    rw [(h.hash_first hb hn (hin c hh hb hn)).1]
    exact Nat.zero_le _
  | raw c hc ho =>
    obtain ⟨-, hh, ho'⟩ := submitRaw_ok ho
    rw [ho']
    simp only
    split
    · -- a finished order takes no report
      have hne : (x.order m).status ≠ .finished := fun hf => h.closed hf c hh hc
      cases hst : (x.order m).status with
      | finished => exact absurd hst hne
      | _ => decide
    · exact le_rfl
  | startRaw hs ho =>
    rw [(of_decide_eq_true hs).1]
    exact Nat.zero_le _
  | finish hs l ho hc =>
    rw [ho]
    exact rank_le_finished _
  | fresh hr _ => exact absurd hr hredo

end

end InPhase

/-! ## Runs -/

/-- A block, with the machines on which a report was seen since they were given out. -/
structure Watch (A : Type) [LinearOrder A] extends Block A where
  revealed : List MachineId

def Succeeds {ε α : Type} (c : Call (State A) ε α) (s : State A) : Prop := ∃ a, (c.run s).1 = .ok a

instance {ε α : Type} (c : Call (State A) ε α) (s : State A) : Decidable (Succeeds c s) :=
  decidable_of_iff ((c.run s).1.toOption.isSome = true) <| by
    unfold Succeeds
    cases (c.run s).1 <;> simp [Except.toOption]

instance (s : State A) (m : MachineId) : Decidable (s.Redistributed m) :=
  inferInstanceAs (Decidable (_ ∧ _ ∧ _ ∧ _ ∨ _))

/-- The machines on which a report was seen, after an operation in `s`. -/
def seenAfter (crypto : Crypto A) (s : State A) (seen : List MachineId) : Op A → List MachineId
  | .submitConfirmRaw c info =>
    if Succeeds (submitConfirmRaw crypto.blake2 c info) s then info.machineId :: seen else seen
  | .endBlock _ => seen.filter fun m => ¬ s.Redistributed m
  | _ => seen

def Watch.apply (crypto : Crypto A) (t : Watch A) (op : Op A) : Watch A where
  toBlock := Block.apply crypto t.toBlock op
  revealed := seenAfter crypto t.state t.revealed op

def phaseSystem (crypto : Crypto A) : System (Watch A) (Op A) where
  init t := Block.Initial t.toBlock ∧ t.revealed = []
  step t op t' := op.Possible t.toBlock ∧ t' = t.apply crypto op

/-- A committee that still owes its hash submits it in time. -/
def HashInTime (t : Watch A) : Op A → Prop
  | .submitConfirmHash c m _ =>
    c ∈ (t.state.orders.order m).bookedCommittee → c ∉ (t.state.orders.order m).hashedCommittee →
      t.state.now < submitHashEnd + (t.state.orders.order m).bookTime
  | _ => True

/-- The operation gives the machine out again, or takes it from its committees. -/
def Op.Redistributes (s : State A) (m : MachineId) : Op A → Prop
  | .endBlock _ => s.Redistributed m
  | _ => False

/-- The operation is the hash of `c` for `m`. -/
def Op.Hashes (m : MachineId) (op : Op A) (c : A) : Prop := ∃ hash, op = .submitConfirmHash c m hash

section Run

variable {crypto : Crypto A} {s : State A} {m : MachineId}

/-- What a call does to an order, if it goes through, it does when it is dispatched. -/
theorem dispatch_turn {ε α : Type} {redo : Prop} {hashes : A → Prop} {c : Call (State A) ε α}
    (h : ∀ a s', c.run s = (.ok a, s') →
      s'.now = s.now ∧ Turn s.now redo hashes m s.orders s'.orders) :
    (c.dispatch s).2.now = s.now ∧ Turn s.now redo hashes m s.orders (c.dispatch s).2.orders :=
  dispatch_keeps
    (I := fun s' : State A => s'.now = s.now ∧ Turn s.now redo hashes m s.orders s'.orders)
    ⟨rfl, .same (.refl m _)⟩ h

theorem apply_turn (op : Op A) (hop : op ≠ .nextBlock) :
    (apply crypto s op).now = s.now ∧
      Turn s.now (op.Redistributes s m) (op.Hashes m) m s.orders (apply crypto s op).orders := by
  have hrest : ∀ s', AtRest s.now s.orders s' → s'.now = s.now ∧
      Turn s.now (op.Redistributes s m) (op.Hashes m) m s.orders s'.orders := by
    rintro s' ⟨hn, hx⟩
    rw [hx]
    exact ⟨hn, .same (.refl m _)⟩
  cases op with
  | profile op => exact hrest _ ⟨profile_now crypto.keys s.toProfile op, rfl⟩
  | submitConfirmHash c m0 hash =>
    refine dispatch_turn fun _ s' hr => ?_
    obtain ⟨hn, ho, hothers⟩ := submitConfirmHash_turn hr
    by_cases hm : m = m0
    · subst hm
      exact ⟨hn, .hash c ⟨hash, rfl⟩ ho⟩
    · exact ⟨hn, .same (hothers m hm)⟩
  | submitConfirmRaw c info =>
    refine dispatch_turn fun _ s' hr => ?_
    obtain ⟨hn, hc, ho, hothers⟩ := submitConfirmRaw_turn hr
    by_cases hm : m = info.machineId
    · subst hm
      exact ⟨hn, .raw c hc ho⟩
    · exact ⟨hn, .same (hothers m hm)⟩
  | applySlashReview applicant id reason =>
    exact hrest _ (dispatch_atRest (aloof_atRest.applySlashReview applicant id reason))
  | cancelSlash id => exact hrest _ (dispatch_atRest (aloof_atRest.cancelSlash id))
  | endBlock draw =>
    obtain ⟨hn, ht⟩ := onFinalize_turn draw s m
    exact ⟨hn, ht.mono id fun _ h => h.elim⟩
  | nextBlock => exact absurd rfl hop

variable {t : Watch A} {op : Op A}

theorem HashInTime.hashes (hc : HashInTime t op) (c : A) (hh : op.Hashes m c)
    (hb : c ∈ (t.state.orders.order m).bookedCommittee)
    (hn : c ∉ (t.state.orders.order m).hashedCommittee) :
    t.state.now < submitHashEnd + (t.state.orders.order m).bookTime := by
  obtain ⟨hash, rfl⟩ := hh
  exact hc hb hn

/-- Every order is in its course. -/
def Watch.Inv (t : Watch A) : Prop :=
  ∀ m, InPhase t.state.now m (m ∈ t.revealed) t.state.orders

theorem Watch.Inv.raw (h : t.Inv) (c : A) (info : CommitteeUploadInfo) :
    (t.apply crypto (.submitConfirmRaw c info)).Inv := by
  intro m
  show InPhase ((submitConfirmRaw crypto.blake2 c info).dispatch t.state).2.now m
    (m ∈ seenAfter crypto t.state t.revealed (.submitConfirmRaw c info))
    ((submitConfirmRaw crypto.blake2 c info).dispatch t.state).2.orders
  unfold seenAfter Call.dispatch
  split
  · next a s' hr =>
    have hs : Succeeds (submitConfirmRaw crypto.blake2 c info) t.state := ⟨a, by rw [hr]⟩
    obtain ⟨hn, hc, ho, hothers⟩ := submitConfirmRaw_turn hr
    simp only
    rw [if_pos hs, hn]
    by_cases hm : m = info.machineId
    · subst hm
      exact ((h info.machineId).raw hc ho).mono le_rfl fun _ => trivial
    · refine ((h m).same (hothers m hm)).mono le_rfl fun hmem => ?_
      exact (mem_cons.1 hmem).resolve_left hm
  · next e s' hr =>
    have hs : ¬ Succeeds (submitConfirmRaw crypto.blake2 c info) t.state := by
      rintro ⟨a, ha⟩
      rw [hr] at ha
      cases ha
    simp only
    rw [if_neg hs]
    exact h m

theorem Watch.Inv.step (h : t.Inv) (hc : HashInTime t op) : (t.apply crypto op).Inv := by
  have hturn : op ≠ .nextBlock → ∀ m, (m ∈ seenAfter crypto t.state t.revealed op →
      m ∈ t.revealed ∧ ¬ op.Redistributes t.state m) →
      InPhase (OnlineCommittee.apply crypto t.state op).now m
        (m ∈ seenAfter crypto t.state t.revealed op)
        (OnlineCommittee.apply crypto t.state op).orders := by
    intro hop m hseen
    obtain ⟨hn, ht⟩ := apply_turn (s := t.state) (m := m) op hop
    rw [hn]
    exact (h m).turn ht hc.hashes (fun hm => (hseen hm).1) fun hr hm => (hseen hm).2 hr
  cases op with
  | submitConfirmRaw c info => exact h.raw c info
  | nextBlock =>
    intro m
    obtain ⟨hn, hx⟩ := startBlock_atRest t.state
    show InPhase t.state.startBlock.now m (m ∈ t.revealed) t.state.startBlock.orders
    rw [hn, hx]
    exact (h m).mono (Nat.le_succ _) id
  | endBlock draw =>
    refine fun m => hturn (by simp) m fun hm => ?_
    obtain ⟨hm, hr⟩ := mem_filter.1 hm
    have hr : ¬ t.state.Redistributed m := of_decide_eq_true hr
    exact ⟨hm, hr⟩
  | profile op => exact fun m => hturn (by simp) m fun hm => ⟨hm, id⟩
  | submitConfirmHash c m0 hash => exact fun m => hturn (by simp) m fun hm => ⟨hm, id⟩
  | applySlashReview applicant _ reason => exact fun m => hturn (by simp) m fun hm => ⟨hm, id⟩
  | cancelSlash _ => exact fun m => hturn (by simp) m fun hm => ⟨hm, id⟩

theorem reach_inPhase (ht : (phaseSystem crypto).Reach HashInTime t) : t.Inv := by
  refine ht.invariant (I := Watch.Inv) ?_ ?_
  · rintro t ⟨⟨⟨c, hs⟩, -⟩, hrev⟩ m
    rw [hrev]
    refine .fresh ?_ not_mem_nil
    rw [hs]
    exact fresh_zero
  · rintro t op _ h hc ⟨-, rfl⟩
    exact h.step hc

end Run

/-- **Orders only move forward.** In every run in which a committee that owes its hash submits it
before the end of the time for hashes: no step takes the order of a machine back, unless it gives
the machine out again, and no hash for the machine goes through after a report on it. -/
theorem phases_forward (crypto : Crypto A) (t : Watch A)
    (ht : (phaseSystem crypto).Reach HashInTime t) (op : Op A) (hc : HashInTime t op)
    (m : MachineId) :
    (¬ op.Redistributes t.state m → rank (t.state.orders.order m).status ≤
      rank ((t.apply crypto op).state.orders.order m).status) ∧
    ∀ c hash, op = .submitConfirmHash c m hash → Succeeds (submitConfirmHash c m hash) t.state →
      m ∉ t.revealed := by
  have h := reach_inPhase ht m
  refine ⟨fun hr => ?_, ?_⟩
  · by_cases hop : op = .nextBlock
    · subst hop
      show _ ≤ rank (t.state.startBlock.orders.order m).status
      rw [(startBlock_atRest t.state).2]
    · exact h.forward (apply_turn op hop).2 hc.hashes hr
  · rintro c hash rfl ⟨u, hu⟩
    have hrun : (submitConfirmHash c m hash).run t.state =
        (.ok u, ((submitConfirmHash c m hash).run t.state).2) := Prod.ext hu rfl
    obtain ⟨-, ho, -⟩ := submitConfirmHash_turn hrun
    obtain ⟨hb, hn, -⟩ := submitHash_ok ho
    exact (h.hash_first hb hn (hc hb hn)).2

variable {C : Watch A → Op A → Prop}

theorem reach_idle {crypto : Crypto A} {s : State A} (n : Nat)
    (hs : (phaseSystem crypto).Reach C ⟨⟨s, false⟩, []⟩)
    (hC : ∀ t draw, C t (.endBlock draw) ∧ C t .nextBlock)
    (h : ∀ k, s.now ≤ k → k < s.now + n → s.Idle k) :
    (phaseSystem crypto).Reach C ⟨⟨s.atBlock (s.now + n), false⟩, []⟩ := by
  induction n with
  | zero => exact hs
  | succ n ih =>
    have hidle : (s.atBlock (s.now + n)).Idle (s.now + n) :=
      (h (s.now + n) (Nat.le_add_right ..) (Nat.lt_succ_self _)).atBlock
    have hrun := ih fun k hk hlt => h k hk (Nat.lt_succ_of_lt hlt)
    have hend : (phaseSystem crypto).Reach C ⟨⟨s.atBlock (s.now + n), true⟩, []⟩ := by
      refine hrun.step (i := .endBlock fun _ _ => 0) (hC _ _).1 ⟨rfl, ?_⟩
      unfold Watch.apply Block.apply
      simp only [apply, onFinalize_idle (s := s.atBlock (s.now + n)) hidle]
      rfl
    refine hend.step (i := .nextBlock) (hC _ fun _ _ => 0).2 ⟨rfl, ?_⟩
    unfold Watch.apply Block.apply
    simp only [apply, startBlock_idle (s := s.atBlock (s.now + n)) hidle]
    rfl

end

/-! ## A hash after a report

Three committees get a machine in block 2. One of them submits its hash; the time for hashes ends
in block 21602. -/

namespace PhaseDemo

def machineId : MachineId := List.replicate 64 (byte 7)

def crypto : Crypto Nat := ⟨⟨fun _ => some 1, fun _ _ _ => true⟩, id⟩

def committees : SortedVec Nat := ⟨[11, 12, 13], by decide⟩

def stake : Committee.CommitteeStakeInfo := ⟨1000, 0, 0, 0⟩

def start : Watch Nat where
  state := .fresh (.fresh
    { now := 2
      balances := ⟨((∅ : StorageMap Nat AccountData).insert 1 ⟨1000, 0, 0⟩).insert 2 ⟨1000, 0, 0⟩⟩
      fixedTxFee := some 1
      dbcPrice := some
      committee := ⟨committees, ∅, ∅, ∅⟩
      committeeStakeParams := some ⟨100, 10, .zero⟩
      committeeStake := ((((∅ : StorageMap Nat Committee.CommitteeStakeInfo).insert 11 stake).insert
        12 stake).insert 13 stake) })
  ended := false
  revealed := []

def report : CommitteeUploadInfo :=
  { CommitteeUploadInfo.zero with machineId := machineId, gpuNum := 4, calcPoint := 100 }

def bring : List (Op Nat) :=
  [.profile (.setOnlineStakeParams ⟨1000, 1000, 10, 10⟩), .profile (.setController 1 2), .profile
    (.genServerRoom 2 5), .profile (.bondMachine 2 machineId (machineId ++ List.replicate 48 (byte
    1)) []), .profile (.addMachineInfo 2 machineId ⟨5, .east 0, .north 0, [[byte 1]]⟩), .endBlock
    fun _ _ => 0, .nextBlock]

/-- Block 3: the machine is given out, and the first hash comes in. -/
def hashed : Watch Nat :=
  Watch.apply crypto (bring.foldl (Watch.apply crypto) start)
    (.submitConfirmHash 11 machineId report.rawInfo)

def midnight : List (Op Nat) :=
  [.endBlock fun _ _ => 0, .nextBlock, .endBlock fun _ _ => 0, .nextBlock,
    .endBlock fun _ _ => 0, .nextBlock]

def second : Watch Nat :=
  midnight.foldl (Watch.apply crypto) ⟨⟨hashed.state.atBlock 14400, false⟩, []⟩

/-- Block 21602: the time for hashes is over, and the committee 11 reveals its report. -/
def revealed : Watch Nat :=
  Watch.apply crypto ⟨⟨second.state.atBlock 21602, false⟩, []⟩ (.submitConfirmRaw 11 report)

theorem hashed_reach : (phaseSystem crypto).Reach HashInTime hashed := by
  have hbring : (phaseSystem crypto).Reach HashInTime (bring.foldl (Watch.apply crypto) start) := by
    refine reach_inOrder Watch.toBlock (.init ⟨⟨⟨_, rfl⟩, rfl⟩, rfl⟩) (fun op hop t => ?_)
      (by decide +kernel) fun _ _ h => ⟨⟨h, rfl⟩, rfl⟩
    simp only [bring, mem_cons, not_mem_nil, or_false] at hop
    rcases hop with rfl | rfl | rfl | rfl | rfl | rfl | rfl <;> trivial
  have hopen : (bring.foldl (Watch.apply crypto) start).ended = false := by decide +kernel
  refine hbring.step (i := .submitConfirmHash 11 machineId report.rawInfo) (fun _ _ => ?_)
    ⟨hopen, rfl⟩
  decide +kernel

theorem waiting_idle {s : State Nat} {k : Nat}
    (hd : (k + 1) % oneDay ≠ 1 ∧ (k + 1) % oneDay ≠ 2) (hk : k < 21602)
    (hs : s.rewards.allMachineIdSnap = [] ∧ s.slashes.pendingExecSlash.iter.map Prod.fst = [] ∧
      s.slashes.pendingSlashReviewChecking.iter.map Prod.fst = [] ∧
      s.oc.pendingSlashReview.iter.map Prod.fst = [] ∧ s.oc.unhandledSlash.toList = [] ∧
      s.machines.liveMachines.confirmedMachine.toList = [] ∧
      ∀ m ∈ s.machines.liveMachines.bookedMachine.toList,
        (s.orders.order m).status = .submittingHash ∧ (s.orders.order m).bookTime = 2) :
    s.Idle k := by
  obtain ⟨hsnap, he, hc, hr, hu, hw, ho⟩ := hs
  refine idle_of_waiting hd hsnap (map_eq_nil_iff.1 he) (map_eq_nil_iff.1 hc)
    (map_eq_nil_iff.1 hr) hu hw fun m hm => ⟨(ho m hm).1, ?_⟩
  rw [(ho m hm).2]
  exact hk

theorem revealed_reach : (phaseSystem crypto).Reach (fun _ _ => True) revealed := by
  have hC : ∀ (t : Watch Nat) (draw : MachineId → Nat → Nat), True ∧ True :=
    fun _ _ => ⟨trivial, trivial⟩
  have hday : oneDay = 14400 := rfl
  have hh : hashed = ⟨⟨hashed.state, false⟩, []⟩ := by
    have he : hashed.ended = false := by decide +kernel
    have hr : hashed.revealed = [] := by decide +kernel
    rw [← he, ← hr]
  have hstart : (phaseSystem crypto).Reach (fun _ _ => True) ⟨⟨hashed.state, false⟩, []⟩ := by
    rw [← hh]
    exact hashed_reach.mono fun _ _ _ => trivial
  have hnow : hashed.state.now = 3 := by decide +kernel
  have hfirst := reach_idle 14397 hstart hC fun k hk hlt => by
    rw [hnow] at hk hlt
    refine waiting_idle ⟨?_, ?_⟩ (by omega) (by decide +kernel) <;>
    · rw [hday]
      omega
  rw [hnow] at hfirst
  have hsecond : (phaseSystem crypto).Reach (fun _ _ => True) second :=
    reach_inOrder Watch.toBlock hfirst (fun _ _ _ => trivial)
      (by decide +kernel) fun _ _ h => ⟨⟨h, rfl⟩, rfl⟩
  have hs : second = ⟨⟨second.state, false⟩, []⟩ := by
    have he : second.ended = false := by decide +kernel
    have hr : second.revealed = [] := by decide +kernel
    rw [← he, ← hr]
  rw [hs] at hsecond
  have hnow2 : second.state.now = 14403 := by decide +kernel
  have hlast := reach_idle 7199 hsecond hC fun k hk hlt => by
    rw [hnow2] at hk hlt
    refine waiting_idle ⟨?_, ?_⟩ (by omega) (by decide +kernel) <;>
    · rw [hday]
      omega
  rw [hnow2] at hlast
  exact hlast.step (i := .submitConfirmRaw 11 report) trivial ⟨rfl, rfl⟩

end PhaseDemo

open PhaseDemo in
theorem phases_forward_second_hash :
    machineId ∉ hashed.revealed ∧
      rank (hashed.state.orders.order machineId).status ≤ rank ((hashed.apply crypto
        (.submitConfirmHash 12 machineId [byte 1])).state.orders.order machineId).status := by
  have h := phases_forward crypto hashed hashed_reach (.submitConfirmHash 12 machineId [byte 1])
    (fun _ _ => by decide +kernel) machineId
  exact ⟨h.2 12 [byte 1] rfl (by decide +kernel), h.1 id⟩

open PhaseDemo in
/-- After a report was seen, another committee submits its hash, and the last hash takes the order
back from its summary. -/
theorem late_hash_goes_back :
    ∃ t : Watch Nat, (phaseSystem crypto).Reach (fun _ _ => True) t ∧
      machineId ∈ t.revealed ∧
      Succeeds (submitConfirmHash 12 machineId [byte 1]) t.state ∧
      let t' := t.apply crypto (.submitConfirmHash 12 machineId [byte 1])
      (t'.state.orders.order machineId).status = .summarizing ∧
        ((t'.apply crypto (.submitConfirmHash 13 machineId [byte 2])).state.orders.order
          machineId).status = .submittingRaw :=
  ⟨revealed, revealed_reach, by decide +kernel, by decide +kernel, by decide +kernel,
    by decide +kernel⟩

/-! # What a hash commits to

A committee first submits the hash of a text and then the report the text was made from. The text
joins the fields of the report without separators, so that neighbouring fields can trade bytes:
the text determines the report among the reports whose fields have given widths, and not beyond. -/

/-! ## Numbers as text -/

def digits (n : Nat) : Bytes := (Nat.toDigits 10 n).map fun c => byte c.toNat

theorem ofNat_byte {c : Char} (h : c.isDigit = true) : Char.ofNat (byte c.toNat).val = c := by
  have hle : c.toNat ≤ 57 := by
    unfold Char.isDigit at h
    simp only [Bool.and_eq_true, decide_eq_true_eq] at h
    exact UInt32.le_iff_toNat_le.1 h.2
  have hmod : (byte c.toNat).val = c.toNat := Nat.mod_eq_of_lt (by omega)
  rw [hmod, Char.ofNat_toNat]

theorem digits_inj {n k : Nat} (h : digits n = digits k) : n = k := by
  have hback : ∀ n, (digits n).map (fun b => Char.ofNat b.val) = Nat.toDigits 10 n := by
    intro n
    unfold digits
    rw [List.map_map]
    have hall : ∀ c ∈ Nat.toDigits 10 n, Char.ofNat (byte c.toNat).val = c :=
      fun c hc => ofNat_byte (Nat.isDigit_of_mem_toDigits (by decide) (by decide) hc)
    exact (map_congr_left hall).trans (List.map_id _)
  have htext : Nat.toDigits 10 n = Nat.toDigits 10 k := by
    rw [← hback n, h, hback k]
  have hval := congrArg (fun l => Nat.ofDigitChars 10 l 0) htext
  simp only [Nat.ofDigitChars_toDigits (by decide : 1 < 10) (by decide : 10 ≤ 10)] at hval
  exact hval

theorem joinStr_cons (n : Nat) (l : List Nat) :
    CommitteeUploadInfo.joinStr (n :: l) = digits n ++ CommitteeUploadInfo.joinStr l := rfl

theorem joinStr_append_inj {l k : List Nat} {r q : Bytes}
    (hw : l.map (fun n => (digits n).length) = k.map fun n => (digits n).length)
    (h : CommitteeUploadInfo.joinStr l ++ r = CommitteeUploadInfo.joinStr k ++ q) :
    l = k ∧ r = q := by
  induction l generalizing k with
  | nil =>
    cases k with
    | nil => exact ⟨rfl, h⟩
    | cons b k => cases hw
  | cons a l ih =>
    cases k with
    | nil => cases hw
    | cons b k =>
      obtain ⟨hab, hw⟩ := List.cons.inj hw
      rw [joinStr_cons, joinStr_cons, append_assoc, append_assoc] at h
      obtain ⟨hd, hrest⟩ := append_inj h hab
      obtain ⟨rfl, hr⟩ := ih hw hrest
      rw [digits_inj hd]
      exact ⟨rfl, hr⟩

/-! ## Reports as text -/

/-- The numbers before the type of the CPU. -/
def gpuNumbers (x : CommitteeUploadInfo) : List Nat :=
  [x.gpuNum, x.cudaCore, x.gpuMem, x.calcPoint, x.sysDisk, x.dataDisk]

def cpuNumbers (x : CommitteeUploadInfo) : List Nat := [x.cpuCoreNum, x.cpuRate, x.memNum]

/-- The fields of two reports take the same room in the text; the random string takes the rest. -/
structure SameWidths (x y : CommitteeUploadInfo) : Prop where
  machineId : x.machineId.length = y.machineId.length
  gpuType : x.gpuType.length = y.gpuType.length
  gpuNumbers : (gpuNumbers x).map (fun n => (digits n).length) =
    (gpuNumbers y).map fun n => (digits n).length
  cpuType : x.cpuType.length = y.cpuType.length
  cpuNumbers : (cpuNumbers x).map (fun n => (digits n).length) =
    (cpuNumbers y).map fun n => (digits n).length

theorem rawInfo_inj {x y : CommitteeUploadInfo} (hw : SameWidths x y)
    (h : x.rawInfo = y.rawInfo) : x = y := by
  unfold CommitteeUploadInfo.rawInfo at h
  simp only [append_assoc] at h
  obtain ⟨hid, h⟩ := append_inj h hw.machineId
  obtain ⟨hgpu, h⟩ := append_inj h hw.gpuType
  obtain ⟨hnums, h⟩ := joinStr_append_inj hw.gpuNumbers h
  obtain ⟨hcpu, h⟩ := append_inj h hw.cpuType
  obtain ⟨hnums', h⟩ := joinStr_append_inj hw.cpuNumbers h
  obtain ⟨hrand, hbit⟩ := append_inj' h rfl
  have hsupport : x.isSupport = y.isSupport := by
    cases hx : x.isSupport <;> cases hy : y.isSupport <;> rw [hx, hy] at hbit
    · exact absurd hbit (by decide)
    · exact absurd hbit (by decide)
  simp only [gpuNumbers, cpuNumbers, List.cons.injEq, and_true] at hnums hnums'
  obtain ⟨h1, h2, h3, h4, h5, h6⟩ := hnums
  obtain ⟨h7, h8, h9⟩ := hnums'
  cases x
  cases y
  simp_all

variable {A : Type} [LinearOrder A]

theorem submitConfirmRaw_hash {blake2 : Bytes → Bytes} {s : State A} {c : A}
    {info : CommitteeUploadInfo} (h : Succeeds (submitConfirmRaw blake2 c info) s) :
    blake2 info.rawInfo = (s.orders.ops c info.machineId).confirmHash := by
  obtain ⟨a, ha⟩ := h
  have hrun : (submitConfirmRaw blake2 c info).run s =
      (.ok a, ((submitConfirmRaw blake2 c info).run s).2) := Prod.ext ha rfl
  unfold submitConfirmRaw at hrun
  simp only [run_ok] at hrun
  exact hrun.1

theorem SameWidths.refl (x : CommitteeUploadInfo) : SameWidths x x := ⟨rfl, rfl, rfl, rfl, rfl⟩

/-- **A hash commits to one report of given widths**, and to no more: under an injective hash
function two reports that a committee can reveal for one hash are the same exactly if their fields
have the same widths. -/
theorem commitment_binding (blake2 : Bytes → Bytes) (hinj : Function.Injective blake2) (c : A)
    (hash : Bytes) (s s' : State A) (x y : CommitteeUploadInfo)
    (hx : Succeeds (submitConfirmRaw blake2 c x) s)
    (hhx : (s.orders.ops c x.machineId).confirmHash = hash)
    (hy : Succeeds (submitConfirmRaw blake2 c y) s')
    (hhy : (s'.orders.ops c y.machineId).confirmHash = hash) : x = y ↔ SameWidths x y := by
  refine ⟨fun h => h ▸ .refl x, fun hw => rawInfo_inj hw (hinj ?_)⟩
  rw [submitConfirmRaw_hash hx, submitConfirmRaw_hash hy, hhx, hhy]

/-! ## Two reports for one hash -/

namespace PhaseDemo

def oneGpu : CommitteeUploadInfo := { report with gpuNum := 1, cudaCore := 23 }

def twelveGpus : CommitteeUploadInfo := { report with gpuNum := 12, cudaCore := 3 }

/-- All three hashes are in, the first of them for both reports. -/
def committed : List (Op Nat) :=
  bring ++ [.submitConfirmHash 11 machineId oneGpu.rawInfo,
    .submitConfirmHash 12 machineId [byte 1], .submitConfirmHash 13 machineId [byte 2]]

def allHashed : Watch Nat := committed.foldl (Watch.apply crypto) start

end PhaseDemo

open PhaseDemo in
/-- Both reports are accepted for one hash, and differ in the widths of their numbers. -/
theorem commitment_binding_demo :
    Succeeds (submitConfirmRaw id 11 oneGpu) allHashed.state ∧
      Succeeds (submitConfirmRaw id 11 twelveGpus) allHashed.state ∧
      ¬ SameWidths oneGpu twelveGpus := by
  have hone : Succeeds (submitConfirmRaw id 11 oneGpu) allHashed.state := by decide +kernel
  have htwelve : Succeeds (submitConfirmRaw id 11 twelveGpus) allHashed.state := by
    decide +kernel
  refine ⟨hone, htwelve, fun hw => ?_⟩
  have hne : oneGpu ≠ twelveGpus := by decide
  exact hne ((commitment_binding id Function.injective_id 11 oneGpu.rawInfo _ _ oneGpu twelveGpus
    hone (by decide +kernel) htwelve (by decide +kernel)).2 hw)

open PhaseDemo in
/-- One GPU with 23 cores and twelve GPUs with 3 cores have the same text: the committee can reveal
either. -/
theorem two_reports_one_hash :
    ∃ t : Watch Nat, (phaseSystem crypto).Reach (fun _ _ => True) t ∧
      Function.Injective crypto.blake2 ∧ oneGpu ≠ twelveGpus ∧
      oneGpu.rawInfo = twelveGpus.rawInfo ∧
      Succeeds (submitConfirmRaw crypto.blake2 11 oneGpu) t.state ∧
      Succeeds (submitConfirmRaw crypto.blake2 11 twelveGpus) t.state := by
  refine ⟨allHashed, ?_, Function.injective_id, by decide, by decide +kernel, by decide +kernel,
    by decide +kernel⟩
  exact reach_inOrder Watch.toBlock (.init ⟨⟨⟨_, rfl⟩, rfl⟩, rfl⟩) (fun _ _ _ => trivial)
    (by decide +kernel) fun _ _ h => ⟨⟨h, rfl⟩, rfl⟩

end DeepBrainChain.OnlineCommittee
