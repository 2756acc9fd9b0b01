import DeepBrainChain.OnlineCommittee.Calls
import DeepBrainChain.OnlineProfile.Ops

/-!
# Runs of online-committee

Any sequence of the pallet's extrinsics, of operations of online-profile and of changes below it,
of ends of blocks and of new blocks. Stakes and slashes do not touch the orders, and nothing but a
new block moves the clock: `AtRest` collects the calls for which this holds.
-/

namespace DeepBrainChain.OnlineCommittee

open Lib GenericFunc Support Lib.Call

section

variable {A : Type} [LinearOrder A]

inductive Op (A : Type) [LinearOrder A]
  | profile (op : OnlineProfile.Op A)
  | submitConfirmHash (committee : A) (m : MachineId) (hash : Bytes)
  | submitConfirmRaw (committee : A) (info : CommitteeUploadInfo)
  | applySlashReview (applicant : A) (id : Nat) (reason : Bytes)
  | cancelSlash (id : Nat)
  | endBlock (draw : MachineId → Nat → Nat)
  | nextBlock

/-- What the pallet takes from outside: signatures and a hash function. -/
structure Crypto (A : Type) where
  keys : OnlineProfile.Crypto A
  blake2 : Bytes → Bytes

/-- A new block: the clock, and the hooks in the order of the runtime. -/
def State.startBlock (s : State A) : State A :=
  (State.setProfile (OnlineProfile.State.onInitialize { s.toProfile with now := s.now + 1 })
    s).onInitialize

def apply (crypto : Crypto A) (s : State A) : Op A → State A
  | .profile op => State.setProfile (OnlineProfile.apply crypto.keys s.toProfile op) s
  | .submitConfirmHash committee m hash => ((submitConfirmHash committee m hash).dispatch s).2
  | .submitConfirmRaw committee info =>
    ((submitConfirmRaw crypto.blake2 committee info).dispatch s).2
  | .applySlashReview applicant id reason => ((applySlashReview applicant id reason).dispatch s).2
  | .cancelSlash id => ((cancelSlash id).dispatch s).2
  | .endBlock draw => s.onFinalize draw
  | .nextBlock => s.startBlock

abbrev Block (A : Type) [LinearOrder A] := Lib.Block (State A)

/-- Extrinsics come before the end of the block, operations of other pallets at any time. -/
def Op.Possible (t : Block A) : Op A → Prop
  | .profile _ => True
  | .nextBlock => t.ended = true
  | _ => t.ended = false

def Op.ends : Op A → Bool → Bool
  | .endBlock _, _ => true
  | .nextBlock, _ => false
  | _, ended => ended

/-- The operations come in an order in which each of them is possible. -/
def Op.inOrder : Bool → List (Op A) → Bool
  | _, [] => true
  | ended, op :: l =>
    (match op with
      | .profile _ => true
      | .nextBlock => ended
      | _ => !ended) && inOrder (op.ends ended) l

theorem Op.inOrder_cons {t : Block A} {op : Op A} {l : List (Op A)}
    (h : Op.inOrder t.ended (op :: l) = true) :
    op.Possible t ∧ Op.inOrder (op.ends t.ended) l = true := by
  unfold Op.inOrder at h
  rw [Bool.and_eq_true] at h
  refine ⟨?_, h.2⟩
  have hop := h.1
  cases op
  case profile => trivial
  case nextBlock => exact hop
  all_goals exact (Bool.not_eq_eq_eq_not.1 hop)

def Block.apply (crypto : Crypto A) (t : Block A) (op : Op A) : Block A :=
  ⟨OnlineCommittee.apply crypto t.state op, op.ends t.ended⟩

/-- A run that takes the operations of a list, in a system over the blocks that records more. -/
theorem reach_inOrder {σ : Type} {S : System σ (Op A)} {C : σ → Op A → Prop} {f : σ → Op A → σ}
    (block : σ → Block A) {l : List (Op A)} {t : σ} (ht : S.Reach C t) (hC : ∀ op ∈ l, ∀ t, C t op)
    (hl : Op.inOrder (block t).ended l = true)
    (hstep : ∀ t op, op.Possible (block t) → S.step t op (f t op) ∧
      (block (f t op)).ended = op.ends (block t).ended) : S.Reach C (l.foldl f t) := by
  induction l generalizing t with
  | nil => exact ht
  | cons op l ih =>
    obtain ⟨hpos, hrest⟩ := Op.inOrder_cons hl
    obtain ⟨hs, hended⟩ := hstep t op hpos
    refine ih (ht.step (hC op List.mem_cons_self t) hs) (fun op' h => ?_) (hended ▸ hrest)
    exact hC op' (List.mem_cons_of_mem op h)

def Block.Initial (t : Block A) : Prop :=
  (∃ c, t.state = State.fresh (OnlineProfile.State.fresh c)) ∧ t.ended = false

/-! ## Calls that leave the orders alone -/

/-- A property that no stake, no payment and no record of a slash touches. -/
structure Aloof (I : State A → Prop) : Prop where
  committee : ∀ {s : State A} {c : Committee.State A}, c.now = s.now → I s →
    I (State.setCommitteeState c s)
  balances : ∀ {s : State A} {b : Balances A}, I s → I (s.setBalances b)
  oc : ∀ {s : State A} {f : Slashes A → Slashes A}, I s → I (s.mapOc f)
  changeStake : ∀ who amount isAdd, Keeps I (profile (OnlineProfile.changeStake who amount isAdd))
  rmStashTotalStake : ∀ stash amount,
    Keeps I (profile (OnlineProfile.rmStashTotalStake stash amount))

namespace Aloof

variable {I : State A → Prop}

section

variable (hI : Aloof I)

include hI

theorem changeCommitteeUsedStake (who : A) (amount : Nat) (isAdd : Bool) :
    Keeps I (changeCommitteeUsedStake who amount isAdd) := by
  intro s hs
  unfold OnlineCommittee.changeCommitteeUsedStake OnlineCommittee.committee
    Committee.changeUsedStake
  simp only [post_step, post_zoom]
  exact ⟨fun _ _ => hI.committee rfl hs, fun _ => hI.committee rfl hs⟩

theorem changeCommitteeTotalStake (who : A) (amount : Nat) (isAdd changeReserve : Bool) :
    Keeps I (changeCommitteeTotalStake who amount isAdd changeReserve) := by
  intro s hs
  unfold OnlineCommittee.changeCommitteeTotalStake OnlineCommittee.committee
    Committee.doChangeReserved
  simp only [post_step, post_zoom]
  exact ⟨fun _ _ => ⟨fun _ _ => hI.committee rfl hs, fun _ => hI.committee rfl hs⟩,
    fun _ => hI.committee rfl hs⟩

theorem changeCommitteeStake (l : List A) (amount : Nat) (isSlash : Bool) :
    Keeps I (changeCommitteeStake l amount isSlash) :=
  Keeps.forEach fun who _ => (hI.changeCommitteeTotalStake who amount false false).when.bind
    fun _ => hI.changeCommitteeUsedStake who amount false

theorem slashAndReward (l : List A) (amount : Nat) (l' : List A) {s : State A}
    (hs : I s) : I (s.slashAndReward l amount l') := hI.balances hs

theorem doAPendingReview (id : Nat) : Keeps I (doAPendingReview id) := by
  refine .get fun s _ => .okOr fun review _ => .okOr fun slash _ => ?_
  refine .ite (Keeps.pure ())
    (Keeps.bind ?_ fun _ => .modify fun s hs => hI.oc (hI.slashAndReward _ _ _ hs))
  unfold execReviewSlash
  split
  · next stash _ =>
    refine .when ((hI.rmStashTotalStake stash _).bind fun _ => ?_)
    exact .modify fun s hs => hI.slashAndReward _ _ _ hs
  · exact hI.changeCommitteeStake _ _ _

theorem doASlash (id : Nat) (left : SortedVec Nat) : Keeps I (doASlash id left) := by
  refine .get fun s _ => .okOr fun slash _ => .ite (Keeps.pure left) ?_
  have hstash : Keeps I (slashStash slash) := by
    refine .when (Keeps.whenSome fun stash => (hI.rmStashTotalStake stash _).bind fun _ => ?_)
    exact .modify fun s hs => hI.slashAndReward _ _ _ hs
  refine hstash.bind fun _ => (hI.changeCommitteeStake _ _ _).bind fun _ => ?_
  refine (hI.changeCommitteeStake _ _ _).bind fun _ => ?_
  exact .bind (Keeps.modify fun s hs => hI.oc (hI.slashAndReward _ _ _ hs)) fun _ =>
    .pure _

theorem execSlashes (l : List Nat) (r : SortedVec Nat × State A) (hr : I r.2) :
    I (execSlashes l r).2 := by
  induction l generalizing r with
  | nil => exact hr
  | cons id l ih =>
    obtain ⟨left, s⟩ := r
    have hone := (hI.doASlash id left).run hr
    unfold OnlineCommittee.execSlashes
    split
    · next left' s' hrun =>
      rw [hrun] at hone
      exact ih _ hone
    · next s' hrun =>
      rw [hrun] at hone
      exact ih _ hone

theorem onInitialize {s : State A} (hs : I s) : I s.onInitialize := by
  have hreview : I s.checkAndExecPendingReview := by
    unfold State.checkAndExecPendingReview
    generalize s.oc.pendingSlashReview.iter.map Prod.fst = ids
    induction ids generalizing s with
    | nil => exact hs
    | cons id ids ih => exact ih ((hI.doAPendingReview id).run hs)
  unfold State.onInitialize State.checkAndExecPendingSlash
  exact hI.oc (hI.execSlashes _ (_, s.checkAndExecPendingReview) hreview)

theorem applySlashReview (applicant : A) (id : Nat) (reason : Bytes) :
    Keeps I (applySlashReview applicant id reason) := by
  refine .get fun s _ => .okOr fun slash _ => .okOr fun amount _ => ?_
  refine .guard <| .guard <| .okOr fun stash _ => ?_
  refine .guard <| .guard <| .bind ?_ fun _ => ?_
  · refine .ite (hI.changeStake _ _ _).mapError ?_
    exact (hI.changeCommitteeTotalStake _ _ _ _).mapError.bind fun _ =>
      (hI.changeCommitteeUsedStake _ _ _).mapError
  · exact .modify fun s hs => hI.oc hs

theorem returnReviewStake (isStash : Prop) [Decidable isStash] (review : OCPendingSlashReviewInfo A)
    (orderStake : Nat) : Keeps I (returnReviewStake isStash review orderStake) := by
  refine .ite (hI.changeStake _ _ _).ignore ?_
  refine .bind (Keeps.modify fun s hs => hI.balances hs) fun _ => ?_
  exact (hI.changeCommitteeTotalStake _ _ _ _).ignore.bind fun _ =>
    (hI.changeCommitteeUsedStake _ _ _).ignore

theorem cancelSlash (id : Nat) : Keeps I (cancelSlash (A := A) id) := by
  refine .get fun s _ => .guard <| ?_
  refine .get fun s _ => .okOr fun slash _ => .okOr fun review _ => ?_
  refine .okOr fun orderStake _ => .guard <| ?_
  refine (hI.returnReviewStake _ review orderStake).bind fun _ => ?_
  refine .bind (Keeps.modify fun s hs => hI.slashAndReward _ _ _ hs) fun _ => ?_
  refine (Keeps.when (hI.changeStake _ _ _).ignore).bind fun _ => ?_
  refine (Keeps.forEach fun who _ => ?_).bind fun _ => ?_
  · exact (hI.changeCommitteeTotalStake _ _ _ _).ignore.bind fun _ =>
      (hI.changeCommitteeUsedStake _ _ _).ignore
  · refine (Keeps.forEach fun who _ => ?_).bind fun _ => .modify fun s hs => hI.oc hs
    exact (hI.changeCommitteeUsedStake _ _ _).ignore

end

end Aloof

/-- The orders are `x` and the clock stands at `n`. -/
def AtRest (n : Nat) (x : Orders A) (s : State A) : Prop := s.now = n ∧ s.orders = x

section

variable {n : Nat} {x : Orders A}

theorem profile_atRest {ε α : Type} {c : Call (OnlineProfile.State A) ε α}
    (hc : Keeps (fun s => s.now = n) c) : Keeps (AtRest n x) (profile c) := by
  intro s hs
  unfold profile
  rw [post_zoom]
  exact (hc _ hs.1).mono (fun _ _ h => ⟨h, hs.2⟩) fun _ _ h => ⟨h, hs.2⟩

theorem aloof_atRest : Aloof (AtRest (A := A) n x) where
  committee hn hs := ⟨hn.trans hs.1, hs.2⟩
  balances hs := hs
  oc hs := hs
  changeStake who amount isAdd := by
    refine profile_atRest fun s hs => ?_
    refine (OnlineProfile.changeStake_post who amount isAdd).mono (fun _ _ h => ?_) ?_
    · exact h.now.trans hs
    · rintro _ _ rfl
      exact hs
  rmStashTotalStake stash amount := by
    refine profile_atRest fun s hs => ?_
    refine (OnlineProfile.rmStashTotalStake_post stash amount).mono (fun _ _ h => ?_) ?_
    · exact h.now.trans hs
    · rintro _ _ rfl
      exact hs

end

theorem dispatch_atRest {ε α : Type} {c : Call (State A) ε α} {s : State A}
    (hc : Keeps (AtRest s.now s.orders) c) : AtRest s.now s.orders (c.dispatch s).2 :=
  dispatch_keeps (I := AtRest s.now s.orders) ⟨rfl, rfl⟩ fun _ _ hr =>
    (hc s ⟨rfl, rfl⟩).ok hr

theorem profile_now (keys : OnlineProfile.Crypto A) (p : OnlineProfile.State A)
    (op : OnlineProfile.Op A) : (OnlineProfile.apply keys p op).now = p.now :=
  (OnlineProfile.apply_may keys p op).events.now

theorem startBlock_atRest (s : State A) : AtRest (s.now + 1) s.orders s.startBlock :=
  aloof_atRest.onInitialize ⟨(OnlineProfile.onInitialize_blockStart _).now, rfl⟩

/-! # What can happen to an order

What a step does to the order of one machine is said once, by `Turn`: a hash, a report, the two
changes the end of a block makes, or a new start, which only a machine gets that is given out
again. -/

open StorageMap SortedVec

/-! ## The orders under each write -/

namespace Orders

variable (x : Orders A) (m m' : MachineId) (c c' : A)

theorem order_putOrder (o : OCMachineCommitteeList A) :
    (x.putOrder m o).order m' = if m' = m then o else x.order m' :=
  getD_insert ..

theorem order_rmOrder : (x.rmOrder m).order m' = if m' = m then .zero else x.order m' :=
  getD_remove ..

theorem machinesOf_putMachines (l : OCCommitteeMachineList) :
    (x.putMachines c l).machinesOf c' = if c' = c then l else x.machinesOf c' :=
  getD_insert ..

theorem ops_putOps (o : OCCommitteeOps) :
    (x.putOps c m o).ops c' m' = if (c', m') = (c, m) then o else x.ops c' m' :=
  getD_insert ..

theorem machinesOf_revertOne :
    (revertOne m x c).machinesOf c' = if c' = c then (x.machinesOf c).cleanup m
      else x.machinesOf c' :=
  getD_insert ..

theorem ops_revertOne :
    (revertOne m x c).ops c' m' = if (c', m') = (c, m) then .zero else x.ops c' m' :=
  getD_remove ..

end Orders

/-- The order of `m`, and what its committees did for it, stay. -/
structure Same (m : MachineId) (x x' : Orders A) : Prop where
  order : x'.order m = x.order m
  hashed : ∀ c, m ∈ (x'.machinesOf c).hashedMachine ↔ m ∈ (x.machinesOf c).hashedMachine
  ops : ∀ c, x'.ops c m = x.ops c m

section Same

variable {x x' x'' : Orders A} {m m' : MachineId}

theorem Same.refl (m : MachineId) (x : Orders A) : Same m x x :=
  ⟨rfl, fun _ => Iff.rfl, fun _ => rfl⟩

theorem Same.trans (h : Same m x x') (h' : Same m x' x'') : Same m x x'' :=
  ⟨h'.order.trans h.order, fun c => (h'.hashed c).trans (h.hashed c),
    fun c => (h'.ops c).trans (h.ops c)⟩

theorem Same.foldl {β : Type} {f : Orders A → β → Orders A} (hf : ∀ x b, Same m x (f x b))
    (l : List β) (x : Orders A) : Same m x (l.foldl f x) := by
  induction l generalizing x with
  | nil => exact .refl m x
  | cons b l ih => exact (hf x b).trans (ih _)

theorem Same.putOrder (hne : m' ≠ m) (x : Orders A) (o : OCMachineCommitteeList A) :
    Same m' x (x.putOrder m o) :=
  ⟨(Orders.order_putOrder ..).trans (if_neg hne), fun _ => Iff.rfl, fun _ => rfl⟩

theorem Same.putHashes (m m' : MachineId) (x : Orders A) (l : SortedVec Bytes) :
    Same m' x (x.putHashes m l) := ⟨rfl, fun _ => Iff.rfl, fun _ => rfl⟩

theorem Same.rmOrder (hne : m' ≠ m) (x : Orders A) : Same m' x (x.rmOrder m) :=
  ⟨(Orders.order_rmOrder ..).trans (if_neg hne), fun _ => Iff.rfl, fun _ => rfl⟩

theorem Same.putOps (hne : m' ≠ m) (x : Orders A) (c : A) (o : OCCommitteeOps) :
    Same m' x (x.putOps c m o) := by
  refine ⟨rfl, fun _ => Iff.rfl, fun c' => ?_⟩
  rw [Orders.ops_putOps, if_neg]
  intro he
  exact hne (Prod.mk.inj he).2

/-- Writing the machines of a committee, if `m'` is hashed in both or in neither. -/
theorem Same.putMachines {c : A} {l : OCCommitteeMachineList}
    (hl : m' ∈ l.hashedMachine ↔ m' ∈ (x.machinesOf c).hashedMachine) :
    Same m' x (x.putMachines c l) := by
  refine ⟨rfl, fun c' => ?_, fun _ => rfl⟩
  rw [Orders.machinesOf_putMachines]
  split
  · next he =>
    rw [he]
    exact hl
  · exact Iff.rfl

theorem Same.revertOne (hne : m' ≠ m) (x : Orders A) (c : A) :
    Same m' x (Orders.revertOne m x c) := by
  refine ⟨rfl, fun c' => ?_, fun c' => ?_⟩
  · rw [Orders.machinesOf_revertOne]
    split
    · next he =>
      rw [he]
      exact mem_rmItem.trans (and_iff_right hne)
    · exact Iff.rfl
  · rw [Orders.ops_revertOne, if_neg]
    intro he
    exact hne (Prod.mk.inj he).2

theorem Same.cleanOne (hne : m' ≠ m) (x : Orders A) (c : A) : Same m' x (Orders.cleanOne m x c) :=
  ⟨(Same.revertOne hne x c).order, (Same.revertOne hne x c).hashed, (Same.revertOne hne x c).ops⟩

theorem Same.markOnline (m m' : MachineId) (x : Orders A) (c : A) :
    Same m' x (Orders.markOnline m x c) := Same.putMachines Iff.rfl

theorem Same.revertBook (hne : m' ≠ m) (x : Orders A) : Same m' x (x.revertBook m) :=
  (Same.foldl (Same.revertOne hne) _ x).trans (.rmOrder hne _)

theorem hashed_foldl_cleanOne (l : List A) (x : Orders A) (c : A) :
    m ∈ ((l.foldl (Orders.cleanOne m) x).machinesOf c).hashedMachine ↔
      m ∈ (x.machinesOf c).hashedMachine ∧ c ∉ l := by
  induction l generalizing x with
  | nil => simp
  | cons d l ih =>
    rw [List.foldl_cons, ih]
    show m ∈ ((Orders.revertOne m x d).machinesOf c).hashedMachine ∧ c ∉ l ↔ _
    rw [Orders.machinesOf_revertOne, List.mem_cons]
    by_cases he : c = d
    · simp [he, OCCommitteeMachineList.cleanup]
    · simp [he]

theorem order_foldl_cleanOne (l : List A) (x : Orders A) :
    (l.foldl (Orders.cleanOne m) x).order m' = x.order m' := by
  induction l generalizing x with
  | nil => rfl
  | cons d l ih => exact (ih _).trans rfl

end Same

/-! ## What can happen to an order -/

/-- An order nobody has acted on. -/
structure Fresh (o : OCMachineCommitteeList A) : Prop where
  status : o.status = .submittingHash
  hashed : o.hashedCommittee = ∅
  start : ∀ c ∈ o.bookedCommittee, o.confirmStartTime = submitRawStart + o.bookTime

/-- One step, seen from the machine `m`: a hash only of a committee in `hashes`, and a new start
only where `redo` allows one. -/
inductive Turn (now : Nat) (redo : Prop) (hashes : A → Prop) (m : MachineId) (x x' : Orders A) :
    Prop
  | same (h : Same m x x')
  | hash (c : A) (hh : hashes c) (ho : (x.order m).submitHash c = .ok (x'.order m))
  | raw (c : A) (hc : m ∈ (x.machinesOf c).hashedMachine)
      (ho : (x.order m).submitRaw now c = .ok (x'.order m))
  | startRaw (hs : (x.order m).canSubmitRaw now = true)
      (ho : x'.order m = (x.order m).startRaw)
  | finish (hs : (x.order m).canSummary now = true) (l : SortedVec A)
      (ho : x'.order m = { x.order m with status := .finished, onlinedCommittee := l })
      (hc : ∀ c ∈ (x.order m).bookedCommittee, m ∉ (x'.machinesOf c).hashedMachine)
  | fresh (hr : redo) (h : Fresh (x'.order m))

section Turn

variable {now : Nat} {redo redo' : Prop} {hashes : A → Prop} {m : MachineId} {x x' x'' : Orders A}

theorem Turn.same_right (h : Turn now redo hashes m x x') (h' : Same m x' x'') :
    Turn now redo hashes m x x'' := by
  cases h with
  | same h => exact .same (h.trans h')
  | hash c hh ho => exact .hash c hh (h'.order ▸ ho)
  | raw c hc ho => exact .raw c hc (h'.order ▸ ho)
  | startRaw hs ho => exact .startRaw hs (h'.order.trans ho)
  | finish hs l ho hc =>
    refine .finish hs l (h'.order.trans ho) fun c hb => ?_
    rw [h'.hashed]
    exact hc c hb
  | fresh hr h => exact .fresh hr (h'.order ▸ h)

theorem Turn.same_left (h : Same m x x') (h' : Turn now redo hashes m x' x'') :
    Turn now redo hashes m x x'' := by
  cases h' with
  | same h' => exact .same (h.trans h')
  | hash c hh ho => exact .hash c hh (h.order ▸ ho)
  | raw c hc ho => exact .raw c ((h.hashed c).1 hc) (h.order ▸ ho)
  | startRaw hs ho => exact .startRaw (h.order ▸ hs) (h.order ▸ ho)
  | finish hs l ho hc => exact .finish (h.order ▸ hs) l (h.order ▸ ho) (h.order ▸ hc)
  | fresh hr h' => exact .fresh hr h'

theorem Turn.mono {hashes' : A → Prop} (h : Turn now redo hashes m x x') (hr : redo → redo')
    (hh : ∀ c, hashes c → hashes' c) : Turn now redo' hashes' m x x' := by
  cases h with
  | same h => exact .same h
  | hash c h ho => exact .hash c (hh c h) ho
  | raw c hc ho => exact .raw c hc ho
  | startRaw hs ho => exact .startRaw hs ho
  | finish hs l ho hc => exact .finish hs l ho hc
  | fresh h h' => exact .fresh (hr h) h'

end Turn

/-! ## The turns of each operation -/

section Calls

variable {s s' : State A} {m : MachineId} {u : Unit}

theorem run_verified_ok {α : Type} {r : Except VerifyErr α} {a : α} :
    (verified r : Call (State A) Error α).run s = (.ok a, s') ↔ r = .ok a ∧ s = s' := by
  cases r with
  | ok b => simp [verified]
  | error e => simp [verified, Call.throw, Call.run]

theorem submitConfirmHash_turn {c : A} {m0 : MachineId} {hash : Bytes}
    (h : (submitConfirmHash c m0 hash).run s = (.ok u, s')) :
    s'.now = s.now ∧ (s.orders.order m0).submitHash c = .ok (s'.orders.order m0) ∧
      ∀ m, m ≠ m0 → Same m s.orders s'.orders := by
  unfold submitConfirmHash at h
  simp only [run_ok, run_verified_ok] at h
  obtain ⟨-, o, ho, -, rfl, rfl⟩ := h
  refine ⟨rfl, ?_, fun m hne => ?_⟩
  · rw [ho]
    show _ = Except.ok ((Orders.putOrder _ m0 o).order m0)
    rw [Orders.order_putOrder, if_pos rfl]
  · refine Same.trans ?_ (Same.putOps hne _ c _)
    refine ((Same.putHashes m0 m _ _).trans (Same.putOrder hne _ o)).trans (Same.putMachines ?_)
    exact mem_addItem.trans (or_iff_right hne)

theorem submitConfirmRaw_turn {blake2 : Bytes → Bytes} {c : A} {info : CommitteeUploadInfo}
    (h : (submitConfirmRaw blake2 c info).run s = (.ok u, s')) :
    s'.now = s.now ∧ info.machineId ∈ (s.orders.machinesOf c).hashedMachine ∧
      (s.orders.order info.machineId).submitRaw s.now c =
        .ok (s'.orders.order info.machineId) ∧
      ∀ m, m ≠ info.machineId → Same m s.orders s'.orders := by
  unfold submitConfirmRaw at h
  simp only [run_ok, run_verified_ok] at h
  obtain ⟨-, l, hl, o, ho, rfl⟩ := h
  unfold OCCommitteeMachineList.submitRaw at hl
  split at hl
  · cases hl
  split at hl
  · cases hl
  next hin _ =>
    cases hl
    refine ⟨rfl, not_not.1 hin, ?_, fun m hne => ?_⟩
    · rw [ho]
      show _ = Except.ok ((Orders.putOrder _ info.machineId o).order info.machineId)
      rw [Orders.order_putOrder, if_pos rfl]
    · refine Same.trans (Same.trans (Same.putMachines ?_) (Same.putOrder hne _ o))
        (Same.putOps hne _ c _)
      exact mem_rmItem.trans (and_iff_right hne)

end Calls

/-! ## The end of a block -/

def State.summary (s : State A) (m : MachineId) : Summary A :=
  (s.orders.order m).summaryConfirmation
    ((s.orders.order m).confirmedCommittee.toList.map fun c => (s.orders.ops c m).machineInfo)

/-- The end of the block finds no consensus about `m`. -/
def State.Undecided (s : State A) (m : MachineId) : Prop :=
  (s.orders.order m).canSubmitRaw s.now = false ∧ (s.orders.order m).canSummary s.now = true ∧
    (s.summary m).verifyResult = .noConsensus

/-- What `summary_raw` does to the orders, and not to the clock. -/
structure Summed (m : MachineId) (s s' : State A) : Prop where
  now : s'.now = s.now
  turn : Turn s.now (s.Undecided m) (fun _ => False) m s.orders s'.orders
  others : ∀ m', m' ≠ m → Same m' s.orders s'.orders

section Summary

variable {s s' : State A} {m : MachineId} {n : Nat} {x : Orders A}

theorem fresh_zero : Fresh (.zero : OCMachineCommitteeList A) :=
  ⟨rfl, rfl, fun _ hc => absurd hc notMem_empty⟩

theorem refuse_atRest (m : MachineId) (summary : Summary A) :
    Keeps (AtRest n x) (refuse m summary) := by
  refine .ite ?_ (Keeps.pure none)
  refine .bind (Keeps.attempt (profile_atRest fun s hs => ?_)) fun r => ?_
  · exact (OnlineProfile.refuseMachine_post _ m).mono (fun _ _ h => h.events.now.trans hs)
      fun _ _ h => h.events.now.trans hs
  · cases r <;> exact .pure _

theorem release_atRest (l : List A) (amount : Nat) : Keeps (AtRest n x) (release l amount) :=
  Keeps.forEach fun who _ => (aloof_atRest.changeCommitteeUsedStake who amount false).ignore

theorem settle_atRest (m : MachineId) (summary : Summary A) (stashSlash : Option (A × Nat))
    (stake : Nat) : Keeps (AtRest n x) (settle m summary stashSlash stake) :=
  Keeps.ite (Keeps.modify fun _ hs => hs) (release_atRest _ stake)

theorem confirmMachine_atRest (l : List A) (info : CommitteeUploadInfo) :
    Keeps (AtRest n x) (profile (OnlineProfile.confirmMachine l info)) := by
  refine profile_atRest fun s hs => ?_
  refine (OnlineProfile.confirmMachine_post l info).mono (fun _ _ h => h.events.now.trans hs) ?_
  rintro _ _ rfl
  exact hs

theorem revertBookedMachine_atRest (m : MachineId) :
    Keeps (AtRest n x) (profile (OnlineProfile.revertBookedMachine m)) := by
  refine profile_atRest fun s hs => ?_
  refine (OnlineProfile.moveMachine_post rfl _).mono (fun _ _ h => h.now.trans hs) ?_
  rintro _ _ rfl
  exact hs

/-- The storage after the result of a summary: the order is gone if there is no consensus. -/
structure Decided (m : MachineId) (summary : Summary A) (n : Nat) (x : Orders A) (s : State A) :
    Prop where
  now : s.now = n
  order : if summary.verifyResult = .noConsensus then s.orders.order m = .zero
    else Same m x s.orders
  others : ∀ m', m' ≠ m → Same m' x s.orders

theorem applyResult_decided (m : MachineId) (summary : Summary A) (stake : Nat)
    (hs : AtRest n x s) :
    Post (applyResult m summary stake) s (fun _ => Decided m summary n x)
      (fun _ => Decided m summary n x) := by
  unfold applyResult
  split
  · next hv =>
    have hdone : ∀ s1 : State A, s1.now = n → (∀ m', Same m' x s1.orders) →
        Decided m summary n x s1 := by
      intro s1 hn h1
      refine ⟨hn, ?_, fun m' _ => h1 m'⟩
      rw [hv, if_neg (by simp)]
      exact h1 m
    have hconf : Keeps (AtRest n x) (whenSome summary.info fun info =>
        profile (OnlineProfile.confirmMachine summary.validVote.toList info)) :=
      Keeps.whenSome fun info => confirmMachine_atRest _ info
    rw [post_bind]
    refine (hconf s hs).mono ?_ ?_
    · rintro _ s1 ⟨hn, rfl⟩
      exact hdone _ hn fun m' => Same.foldl (Same.markOnline m m') _ _
    · rintro _ s1 ⟨hn, rfl⟩
      exact hdone _ hn fun m' => .refl m' _
  · next hv =>
    obtain ⟨hn, rfl⟩ := hs
    refine ⟨hn, ?_, fun m' _ => .refl m' _⟩
    rw [hv, if_neg (by simp)]
    exact .refl m _
  · next hv =>
    obtain ⟨hn, rfl⟩ := hs
    have hrest : Keeps (AtRest n (s.orders.revertBook m)) (do
        profile (OnlineProfile.revertBookedMachine m)
        release summary.invalidVote.toList stake) :=
      (revertBookedMachine_atRest m).bind fun _ => release_atRest _ stake
    have hdone : ∀ s1, AtRest n (s.orders.revertBook m) s1 → Decided m summary n s.orders s1 := by
      rintro s1 ⟨hn1, hx1⟩
      refine ⟨hn1, ?_, fun m' hne => ?_⟩
      · rw [hv, if_pos rfl, hx1]
        exact (Orders.order_rmOrder ..).trans (if_pos rfl)
      · rw [hx1]
        exact .revertBook hne _
    rw [post_bind, post_modify]
    exact (hrest (s.mapOrders (·.revertBook m)) ⟨hn, rfl⟩).mono (fun _ => hdone) fun _ => hdone

/-- Where `summary_raw` may stop. -/
theorem Decided.summed (hraw : (s.orders.order m).canSubmitRaw s.now = false)
    (hsum : (s.orders.order m).canSummary s.now = true)
    (h : Decided m (s.summary m) s.now s.orders s') : Summed m s s' := by
  refine ⟨h.now, ?_, h.others⟩
  have ho := h.order
  split at ho
  · next hv =>
    refine .fresh ⟨hraw, hsum, hv⟩ ?_
    rw [ho]
    exact fresh_zero
  · exact .same ho

theorem Decided.cleanUp (hraw : (s.orders.order m).canSubmitRaw s.now = false)
    (hsum : (s.orders.order m).canSummary s.now = true)
    (h : Decided m (s.summary m) s.now s.orders s') :
    Summed m s (s'.mapOrders fun x => (s.orders.order m).bookedCommittee.toList.foldl
      (Orders.cleanOne m) (x.putOrder m ((x.order m).afterSummary (s.summary m)))) := by
  set o' := (s'.orders.order m).afterSummary (s.summary m) with ho'
  set z := (s.orders.order m).bookedCommittee.toList.foldl (Orders.cleanOne m)
    (s'.orders.putOrder m o')
  have hz : z.order m = o' := by
    rw [order_foldl_cleanOne, Orders.order_putOrder, if_pos rfl]
  have hclean : ∀ c ∈ (s.orders.order m).bookedCommittee, m ∉ (z.machinesOf c).hashedMachine :=
    fun c hc hin => ((hashed_foldl_cleanOne _ _ c).1 hin).2 hc
  refine ⟨h.now, ?_, fun m' hne => ?_⟩
  · show Turn s.now (s.Undecided m) (fun _ => False) m s.orders z
    have ho := h.order
    unfold OCMachineCommitteeList.afterSummary at ho'
    split at ho'
    · next hv =>
      rw [hv, if_neg (by simp)] at ho
      refine .finish hsum (s.summary m).validVote ?_ hclean
      rw [hz, ho', ho.order]
    · next hv =>
      rw [hv, if_pos rfl] at ho
      refine .fresh ⟨hraw, hsum, hv⟩ ?_
      rw [hz, ho', ho]
      exact fresh_zero
    · next hv =>
      rw [hv, if_neg (by simp)] at ho
      refine .finish hsum (s.orders.order m).onlinedCommittee ?_ hclean
      rw [hz, ho', ho.order]
  · exact ((h.others m' hne).trans (.putOrder hne _ o')).trans
      (Same.foldl (Same.cleanOne hne) _ _)

theorem summaryRaw_summed (m : MachineId) (stake : Nat) (s : State A) :
    Summed m s ((summaryRaw m stake).run s).2 := by
  have hrest : Summed m s s := ⟨rfl, .same (.refl m _), fun m' _ => .refl m' _⟩
  refine Post.storage (I := Summed m s) ?_
  unfold summaryRaw
  rw [post_bind, post_get, post_ite]
  refine ⟨fun hraw => ?_, fun hraw => ?_⟩
  · refine ⟨rfl, .startRaw hraw ?_, fun m' hne => .putOrder hne _ _⟩
    exact (Orders.order_putOrder ..).trans (if_pos rfl)
  rw [post_ite]
  refine ⟨fun _ => hrest, fun hsum => ?_⟩
  have hraw : (s.orders.order m).canSubmitRaw s.now = false := Bool.eq_false_of_not_eq_true hraw
  have hsum : (s.orders.order m).canSummary s.now = true := Bool.eq_true_of_not_eq_false hsum
  change Post (do
    let r ← refuse m (s.summary m)
    applyResult m (s.summary m) stake
    settle m (s.summary m) r stake
    cleanUp m (s.summary m) (s.orders.order m).bookedCommittee.toList) s _ _
  have hstart : AtRest s.now s.orders s := ⟨rfl, rfl⟩
  rw [post_bind]
  refine (refuse_atRest m (s.summary m) s hstart).mono (fun r s1 h1 => ?_) ?_
  · rw [post_bind]
    refine (applyResult_decided m (s.summary m) stake h1).mono (fun _ s2 h2 => ?_) fun _ s2 h2 =>
      h2.summed hraw hsum
    have hdec : ∀ s3, AtRest s2.now s2.orders s3 → Decided m (s.summary m) s.now s.orders s3 := by
      rintro s3 ⟨hn, hx⟩
      refine ⟨hn.trans h2.now, ?_, ?_⟩ <;> rw [hx]
      · exact h2.order
      · exact h2.others
    rw [post_bind]
    refine (settle_atRest m (s.summary m) r stake s2 ⟨rfl, rfl⟩).mono (fun _ s3 h3 => ?_)
      fun _ s3 h3 => (hdec s3 h3).summed hraw hsum
    exact (hdec s3 h3).cleanUp hraw hsum
  · rintro _ s1 ⟨hn, hx⟩
    exact ⟨hn, .same (hx ▸ .refl m _), fun m' _ => hx ▸ .refl m' _⟩

end Summary

/-- The machine is taken from its committees, or given out, at the end of this block. -/
def State.Redistributed (s : State A) (m : MachineId) : Prop :=
  m ∈ s.machines.liveMachines.bookedMachine ∧ s.Undecided m ∨
    m ∈ s.statisticResult.machines.liveMachines.confirmedMachine

section EndOfBlock

variable {s s' : State A} {m : MachineId}

theorem Same.undecided (h : Same m s.orders s'.orders) (hn : s'.now = s.now) :
    s'.Undecided m ↔ s.Undecided m := by
  unfold State.Undecided State.summary
  simp only [h.order, h.ops, hn]

theorem foldl_summaryRaw (stake : Nat) {l : List MachineId} (hl : l.Nodup) (s : State A) :
    let s' := l.foldl (fun s' m => ((summaryRaw m stake).run s').2) s
    s'.now = s.now ∧ (∀ m ∉ l, Same m s.orders s'.orders) ∧
      ∀ m ∈ l, Turn s.now (s.Undecided m) (fun _ => False) m s.orders s'.orders := by
  induction l generalizing s with
  | nil => exact ⟨rfl, fun m _ => .refl m _, fun m hm => absurd hm List.not_mem_nil⟩
  | cons a l ih =>
    obtain ⟨ha, hl⟩ := List.nodup_cons.1 hl
    have hone := summaryRaw_summed a stake s
    set s1 := ((summaryRaw a stake).run s).2
    obtain ⟨hn, hout, hin⟩ := ih hl s1
    simp only [List.foldl_cons]
    refine ⟨hn.trans hone.now, fun m hm => ?_, fun m hm => ?_⟩
    · obtain ⟨hne, hm⟩ := not_or.1 (mt List.mem_cons.2 hm)
      exact (hone.others m hne).trans (hout m hm)
    · by_cases he : m = a
      · subst he
        exact hone.turn.same_right (hout m ha)
      · -- the order of `m` is as it was when its turn comes
        have hsame := hone.others m he
        have hrest := hin m ((List.mem_cons.1 hm).resolve_left he)
        rw [hone.now] at hrest
        exact (hrest.same_left hsame).mono (hsame.undecided hone.now).1 fun _ h => h

theorem bookOne_fresh {n : Nat} (m : MachineId) (work : A × List Nat) (hn : s.now = n)
    (hf : Fresh (s.orders.order m)) :
    let s' := ((bookOne m work).run s).2
    s'.now = n ∧ Fresh (s'.orders.order m) ∧ ∀ m', m' ≠ m → Same m' s.orders s'.orders := by
  refine Post.storage (c := bookOne m work) (I := fun s' => s'.now = n ∧
    Fresh (s'.orders.order m) ∧ ∀ m', m' ≠ m → Same m' s.orders s'.orders) ?_
  have hrest : s.now = n ∧ Fresh (s.orders.order m) ∧
      ∀ m', m' ≠ m → Same m' s.orders s.orders := ⟨hn, hf, fun m' _ => .refl m' _⟩
  unfold bookOne
  rw [post_bind, post_get, post_bind, post_okOr]
  refine ⟨fun stake _ => ?_, fun _ => hrest⟩
  rw [post_bind]
  refine (aloof_atRest.changeCommitteeUsedStake work.1 stake true s ⟨rfl, rfl⟩).mono ?_ ?_
  · rintro _ s1 ⟨hn1, hx1⟩
    rw [post_modify]
    refine ⟨hn1.trans hn, ?_, fun m' hne => ?_⟩
    · show Fresh ((Orders.putOrder s1.orders m _).order m)
      rw [Orders.order_putOrder, if_pos rfl, hx1]
      exact ⟨hf.status, hf.hashed, fun _ _ => rfl⟩
    · rw [← hx1]
      refine ((Same.putOrder hne _ _).trans (Same.putMachines ?_)).trans (Same.putOps hne _ _ _)
      exact Iff.rfl
  · rintro _ s1 ⟨hn1, hx1⟩
    rw [hn1, hx1]
    exact hrest

theorem foldl_bookOne {n : Nat} (m : MachineId) (l : List (A × List Nat)) (hn : s.now = n)
    (hf : Fresh (s.orders.order m)) :
    let s' := l.foldl (fun s work => ((bookOne m work).run s).2) s
    s'.now = n ∧ Fresh (s'.orders.order m) ∧ ∀ m', m' ≠ m → Same m' s.orders s'.orders := by
  induction l generalizing s with
  | nil => exact ⟨hn, hf, fun m' _ => .refl m' _⟩
  | cons work l ih =>
    obtain ⟨hn1, hf1, hothers1⟩ := bookOne_fresh m work hn hf
    obtain ⟨hn2, hf2, hothers2⟩ := ih hn1 hf1
    exact ⟨hn2, hf2, fun m' hne => (hothers1 m' hne).trans (hothers2 m' hne)⟩

theorem distributeOne_fresh (draw : MachineId → Nat → Nat) (s : State A) (m : MachineId) :
    let s' := State.distributeOne draw s m
    s'.now = s.now ∧ Fresh (s'.orders.order m) ∧ ∀ m', m' ≠ m → Same m' s.orders s'.orders := by
  have hrm : Fresh ((s.orders.rmOrder m).order m) := by
    rw [Orders.order_rmOrder, if_pos rfl]
    exact fresh_zero
  have hothers : ∀ m', m' ≠ m → Same m' s.orders (s.orders.rmOrder m) :=
    fun m' hne => .rmOrder hne _
  unfold State.distributeOne
  simp only
  split
  · exact ⟨rfl, hrm, hothers⟩
  · next l _ =>
    obtain ⟨hn, hf, hb⟩ := foldl_bookOne (s := s.mapOrders (·.rmOrder m)) m l rfl hrm
    have hbooked : Keeps (AtRest s.now (l.foldl (fun s work => ((bookOne m work).run s).2)
        (s.mapOrders (·.rmOrder m))).orders) (profile (OnlineProfile.bookedMachine m)) := by
      refine profile_atRest fun p hp => ?_
      refine (OnlineProfile.moveMachine_post rfl _).mono (fun _ _ h => h.now.trans hp) ?_
      rintro _ _ rfl
      exact hp
    obtain ⟨hn', hx'⟩ := hbooked.run ⟨hn, rfl⟩
    refine ⟨hn', ?_, fun m' hne => ?_⟩ <;> rw [hx']
    · exact hf
    · exact (hothers m' hne).trans (hb m' hne)

theorem foldl_distributeOne (draw : MachineId → Nat → Nat) (l : List MachineId) (s : State A) :
    let s' := l.foldl (State.distributeOne draw) s
    s'.now = s.now ∧ (∀ m ∈ l, Fresh (s'.orders.order m)) ∧
      ∀ m ∉ l, Same m s.orders s'.orders := by
  induction l generalizing s with
  | nil => exact ⟨rfl, fun m hm => absurd hm List.not_mem_nil, fun m _ => .refl m _⟩
  | cons a l ih =>
    obtain ⟨hn1, hf1, ho1⟩ := distributeOne_fresh draw s a
    obtain ⟨hn2, hf2, ho2⟩ := ih (State.distributeOne draw s a)
    simp only [List.foldl_cons]
    refine ⟨hn2.trans hn1, fun m hm => ?_, fun m hm => ?_⟩
    · by_cases hl : m ∈ l
      · exact hf2 m hl
      · rw [(ho2 m hl).order, (List.mem_cons.1 hm).resolve_right hl]
        exact hf1
    · obtain ⟨hne, hl⟩ := not_or.1 (mt List.mem_cons.2 hm)
      exact (ho1 m hne).trans (ho2 m hl)

/-- **The end of a block**, for one machine. -/
theorem onFinalize_turn (draw : MachineId → Nat → Nat) (s : State A) (m : MachineId) :
    (s.onFinalize draw).now = s.now ∧
      Turn s.now (s.Redistributed m) (fun _ => False) m s.orders (s.onFinalize draw).orders := by
  obtain ⟨hn1, hout, hin⟩ := foldl_summaryRaw (s.stakePerOrder.getD 0)
    s.machines.liveMachines.bookedMachine.nodup s
  obtain ⟨hn2, hfresh, hsame⟩ := foldl_distributeOne draw
    s.statisticResult.machines.liveMachines.confirmedMachine.toList s.statisticResult
  refine ⟨hn2.trans hn1, ?_⟩
  by_cases hc : m ∈ s.statisticResult.machines.liveMachines.confirmedMachine
  · exact .fresh (.inr hc) (hfresh m hc)
  · by_cases hb : m ∈ s.machines.liveMachines.bookedMachine
    · exact ((hin m hb).mono (fun hu => .inl ⟨hb, hu⟩) fun _ h => h).same_right (hsame m hc)
    · exact .same ((hout m hb).trans (hsame m hc))

end EndOfBlock

end

end DeepBrainChain.OnlineCommittee
