import DeepBrainChain.OnlineCommittee.Phases
import DeepBrainChain.OnlineProfile.Roster

/-!
# The votes that are counted

What `summary_raw` counts is what the committees revealed, and what they revealed is what they had
committed themselves to since the machine was given out. A poll follows a run and keeps, for each
machine, the hashes and the reports of its current order.
-/

namespace DeepBrainChain.OnlineCommittee

open Lib GenericFunc Support Lib.Call SortedVec

section

variable {A : Type} [LinearOrder A]

/-! ## The machines that are being verified -/

/-- The orders are `x`, and the machines are where `l` lists them. -/
def Moored (x : Orders A) (l : LiveMachine) (s : State A) : Prop :=
  s.orders = x ∧ s.machines.liveMachines = l

/-- The orders are `x`, and no machine is booked that `l` does not book. -/
def Ebbs (x : Orders A) (l : MachineId → Prop) (s : State A) : Prop :=
  s.orders = x ∧ ∀ m, s.toProfile.Booked m → l m

section

variable {x : Orders A} {l : LiveMachine} {p : MachineId → Prop} {s s' : State A} {m : MachineId}

theorem aloof_berths {q : Orders A → LiveMachine → Prop} :
    Aloof fun s : State A => q s.orders s.machines.liveMachines where
  committee _ hs := hs
  balances hs := hs
  oc hs := hs
  changeStake who amount isAdd := by
    intro s hs
    unfold profile OnlineProfile.changeStake
    simp only [post_step, post_zoom]
    exact ⟨fun _ _ => ⟨fun _ _ => hs, fun _ => hs⟩, fun _ => hs⟩
  rmStashTotalStake stash amount := by
    intro s hs
    unfold profile OnlineProfile.rmStashTotalStake
    simp only [post_step, post_zoom]
    exact ⟨fun _ _ => ⟨fun _ _ => hs, fun _ => hs⟩, fun _ => hs⟩

theorem aloof_moored : Aloof (Moored x l) := aloof_berths (q := fun x' l' => x' = x ∧ l' = l)

theorem dispatch_moored {ε α : Type} {c : Call (State A) ε α} {s : State A}
    (hc : Keeps (Moored s.orders s.machines.liveMachines) c) :
    Moored s.orders s.machines.liveMachines (c.dispatch s).2 :=
  dispatch_keeps (I := Moored s.orders s.machines.liveMachines) ⟨rfl, rfl⟩ fun _ _ hr =>
    (hc s ⟨rfl, rfl⟩).ok hr

theorem startBlock_moored (s : State A) : Moored s.orders s.machines.liveMachines s.startBlock := by
  refine aloof_moored.onInitialize ⟨rfl, ?_⟩
  exact congrArg OnlineProfile.Roster.live (OnlineProfile.onInitialize_roster _)

theorem profile_ebbs {ε α : Type} {c : Call (OnlineProfile.State A) ε α}
    (hc : Keeps (fun q => ∀ m, q.Booked m → p m) c) : Keeps (Ebbs x p) (profile c) := by
  intro s hs
  unfold profile
  rw [post_zoom]
  exact (hc _ hs.2).mono (fun _ _ h => ⟨hs.1, h⟩) fun _ _ h => ⟨hs.1, h⟩

theorem refuse_ebbs (m : MachineId) (summary : Summary A) :
    Keeps (Ebbs x p) (refuse m summary) := by
  refine .ite ?_ (Keeps.pure none)
  refine .bind (Keeps.attempt (profile_ebbs fun q hq => ?_)) fun r => ?_
  · have hstep : ∀ q' : OnlineProfile.State A,
      (OnlineProfile.Op.refuseMachine summary.validVote.toList m).Moves q.now
        q.roster q'.roster → ∀ m, q'.Booked m → p m :=
      fun q' h m hm => hq m (h.booked (by simp) hm)
    refine (OnlineProfile.refuseMachine_moves _ m q).mono (fun _ q' h => hstep q' h) ?_
    rintro _ q' (rfl | h)
    · exact hq
    · exact hstep q' h
  · cases r <;> exact .pure _

theorem settle_moored (m : MachineId) (summary : Summary A) (stashSlash : Option (A × Nat))
    (stake : Nat) : Keeps (Moored x l) (settle m summary stashSlash stake) :=
  Keeps.ite (Keeps.modify fun _ hs => hs)
    (Keeps.forEach fun who _ => (aloof_moored.changeCommitteeUsedStake who stake false).ignore)

theorem applyResult_booked (m : MachineId) (summary : Summary A) (stake : Nat)
    (hs : ∀ m, s.toProfile.Booked m → p m) :
    Post (applyResult m summary stake) s
      (fun _ s' => (∀ m, s'.toProfile.Booked m → p m) ∧ (summary.verifyResult = .confirmed →
        ∀ info, summary.info = some info → ¬ s'.toProfile.Booked info.machineId))
      (fun _ s' => ∀ m, s'.toProfile.Booked m → p m) := by
  unfold applyResult
  split
  · next hv =>
    simp only [post_bind, post_whenSome, profile, post_zoom, post_modify]
    refine ⟨fun info hinfo => ?_, fun hinfo => ⟨hs, fun _ info h => ?_⟩⟩
    · refine (OnlineProfile.confirmMachine_moves _ info s.toProfile).mono (fun _ q h => ?_) ?_
      · refine ⟨fun m hm => hs m (h.booked (by simp) hm), fun _ info' h' => ?_⟩
        cases hinfo.symm.trans h'
        intro hm
        have hm : info.machineId ∈ q.roster.live.list .booked := hm
        obtain ⟨-, he | he⟩ := h <;> rw [he] at hm <;>
          simp [OnlineProfile.Roster.put, LiveMachine.move] at hm
      · rintro _ _ rfl
        exact hs
    · rw [hinfo] at h
      cases h
  · next hv => exact ⟨hs, fun h => by rw [hv] at h; cases h⟩
  · next hv =>
    have hkeep : Keeps (fun s : State A => ∀ m, s.toProfile.Booked m → p m) (do
        profile (OnlineProfile.revertBookedMachine m)
        release summary.invalidVote.toList stake) := by
      refine .bind (fun s hs => ?_) fun _ => .forEach fun who _ => ?_
      · unfold profile
        rw [post_zoom]
        refine (OnlineProfile.moveMachine_roster m _ _ s.toProfile).mono (fun _ q h => ?_) ?_
        · intro m' hm'
          have hm' : m' ∈ q.roster.live.list .booked := hm'
          rw [h.2] at hm'
          exact hs m' (mem_rmItem.1 hm').2
        · rintro _ _ rfl
          exact hs
      · exact (aloof_berths (q := fun _ l => ∀ m ∈ l.bookedMachine, p m)
          |>.changeCommitteeUsedStake who stake false).ignore
    rw [post_bind, post_modify]
    exact (hkeep (s.mapOrders (·.revertBook m)) hs).mono
      (fun _ _ h => ⟨h, fun h' => by rw [hv] at h'; cases h'⟩) fun _ _ h => h

end

/-! ## What the summary of an order leaves -/

/-- What `summary_raw` does to the order it is called for. The machine of an order that is finished
is no longer being verified, unless it was refused or its report named another machine. -/
inductive Judged (m : MachineId) (s s' : State A) : Prop
  | same (h : Same m s.orders s'.orders)
  | startRaw (hs : (s.orders.order m).canSubmitRaw s.now = true)
      (ho : s'.orders = s.orders.putOrder m (s.orders.order m).startRaw)
  | dropped (ho : s'.orders.order m = .zero)
  | finish (hs : (s.orders.order m).canSummary s.now = true) (l : SortedVec A)
      (ho : s'.orders.order m =
        { s.orders.order m with status := .finished, onlinedCommittee := l })
      (hops : ∀ c ∈ (s.orders.order m).bookedCommittee, s'.orders.ops c m = .zero)
      (hc : ∀ c ∈ (s.orders.order m).bookedCommittee, m ∉ (s'.orders.machinesOf c).hashedMachine)
      (hlive : s'.toProfile.Booked m → (s.summary m).verifyResult = .refused ∨ (s.summary
        m).verifyResult = .confirmed ∧ ∀ info, (s.summary m).info = some info → info.machineId ≠ m)

section

variable {s s' : State A} {m : MachineId} {p : MachineId → Prop}

theorem ops_foldl_cleanOne (l : List A) (x : Orders A) (c : A) :
    (l.foldl (Orders.cleanOne m) x).ops c m = if c ∈ l then .zero else x.ops c m := by
  induction l generalizing x with
  | nil => rfl
  | cons d l ih =>
    have hone : (Orders.cleanOne m x d).ops c m = if (c, m) = (d, m) then .zero else x.ops c m :=
      Orders.ops_revertOne ..
    rw [List.foldl_cons, ih, hone]
    by_cases hcd : c = d
    · simp [hcd]
    · simp [hcd]

/-- Where `summary_raw` stops before the cleaning. -/
theorem Decided.judged (h : Decided m (s.summary m) s.now s.orders s') : Judged m s s' := by
  have ho := h.order
  split at ho
  · exact .dropped ho
  · exact .same ho

theorem Decided.judged_cleanUp (hsum : (s.orders.order m).canSummary s.now = true)
    (h : Decided m (s.summary m) s.now s.orders s')
    (hlive : (s.summary m).verifyResult = .confirmed →
      ∀ info, (s.summary m).info = some info → ¬ s'.toProfile.Booked info.machineId) :
    Judged m s (s'.mapOrders fun x => (s.orders.order m).bookedCommittee.toList.foldl
      (Orders.cleanOne m) (x.putOrder m ((x.order m).afterSummary (s.summary m)))) := by
  set o' := (s'.orders.order m).afterSummary (s.summary m) with ho'
  set s'' := s'.mapOrders fun x => (s.orders.order m).bookedCommittee.toList.foldl
    (Orders.cleanOne m) (x.putOrder m ((x.order m).afterSummary (s.summary m))) with hs''
  have horder : s''.orders.order m = o' :=
    (order_foldl_cleanOne ..).trans ((Orders.order_putOrder ..).trans (if_pos rfl))
  have hclean : ∀ c ∈ (s.orders.order m).bookedCommittee,
      m ∉ (s''.orders.machinesOf c).hashedMachine :=
    fun c hc hin => ((hashed_foldl_cleanOne _ _ c).1 hin).2 hc
  have hops : ∀ c ∈ (s.orders.order m).bookedCommittee, s''.orders.ops c m = .zero :=
    fun c hc => (ops_foldl_cleanOne ..).trans (if_pos hc)
  have ho := h.order
  unfold OCMachineCommitteeList.afterSummary at ho'
  split at ho'
  · next hv =>
    rw [hv, if_neg (by simp)] at ho
    rw [ho', ho.order] at horder
    refine .finish hsum (s.summary m).validVote horder hops hclean fun hm => .inr ⟨hv, ?_⟩
    rintro info hinfo rfl
    exact hlive hv info hinfo hm
  · next hv =>
    rw [hv, if_pos rfl] at ho
    rw [ho', ho] at horder
    exact .dropped horder
  · next hv =>
    rw [hv, if_neg (by simp)] at ho
    rw [ho', ho.order] at horder
    exact .finish hsum (s.orders.order m).onlinedCommittee horder hops hclean fun _ => .inl hv

theorem summaryRaw_judged (m : MachineId) (stake : Nat) (s : State A)
    (hp : ∀ m, s.toProfile.Booked m → p m) :
    Judged m s ((summaryRaw m stake).run s).2 ∧
      ∀ m', ((summaryRaw m stake).run s).2.toProfile.Booked m' → p m' := by
  refine Post.storage
    (I := fun s' : State A => Judged m s s' ∧ ∀ m', s'.toProfile.Booked m' → p m') ?_
  unfold summaryRaw
  rw [post_bind, post_get, post_ite]
  refine ⟨fun hraw => ⟨.startRaw hraw rfl, hp⟩, fun hraw => ?_⟩
  rw [post_ite]
  refine ⟨fun _ => ⟨.same (.refl m _), hp⟩, fun hsum => ?_⟩
  have hsum : (s.orders.order m).canSummary s.now = true := Bool.eq_true_of_not_eq_false hsum
  change Post (do
    let r ← refuse m (s.summary m)
    applyResult m (s.summary m) stake
    settle m (s.summary m) r stake
    cleanUp m (s.summary m) (s.orders.order m).bookedCommittee.toList) s _ _
  have hrefuse := (refuse_atRest m (s.summary m) s ⟨rfl, rfl⟩).and
    (refuse_ebbs m (s.summary m) s (x := s.orders) (p := p) ⟨rfl, hp⟩)
  rw [post_bind]
  refine hrefuse.mono ?_ ?_
  · rintro r s1 ⟨h1, -, hp1⟩
    have happly := (applyResult_decided m (s.summary m) stake h1).and
      (applyResult_booked m (s.summary m) stake hp1)
    rw [post_bind]
    refine happly.mono ?_ fun _ s2 h2 => ⟨h2.1.judged, h2.2⟩
    rintro _ s2 ⟨hdec, hp2, hlive⟩
    -- the slash is entered beside the orders
    have hsettle := (settle_atRest m (s.summary m) r stake s2 ⟨rfl, rfl⟩).and
      (settle_moored m (s.summary m) r stake s2 (x := s2.orders)
        (l := s2.machines.liveMachines) ⟨rfl, rfl⟩)
    have hafter : ∀ s3, AtRest s2.now s2.orders s3 ∧ Moored s2.orders s2.machines.liveMachines s3 →
        Decided m (s.summary m) s.now s.orders s3 ∧
          ∀ m', s3.toProfile.Booked m' ↔ s2.toProfile.Booked m' := by
      rintro s3 ⟨⟨hn, hx⟩, -, hl⟩
      refine ⟨⟨hn.trans hdec.now, ?_, ?_⟩, fun m' => ?_⟩
      · rw [hx]
        exact hdec.order
      · rw [hx]
        exact hdec.others
      · unfold OnlineProfile.State.Booked
        rw [hl]
    rw [post_bind]
    refine hsettle.mono (fun _ s3 h₃ => ?_) fun _ s3 h₃ => ?_
    · obtain ⟨hdec3, hbooked⟩ := hafter s3 h₃
      refine ⟨hdec3.judged_cleanUp hsum fun hv info hinfo hm => ?_, fun m' hm' => ?_⟩
      · exact hlive hv info hinfo ((hbooked _).1 hm)
      · exact hp2 m' ((hbooked m').1 hm')
    · obtain ⟨hdec3, hbooked⟩ := hafter s3 h₃
      exact ⟨hdec3.judged, fun m' hm' => hp2 m' ((hbooked m').1 hm')⟩
  · rintro _ s1 ⟨⟨hn, hx⟩, -, hp1⟩
    exact ⟨.same (hx ▸ .refl m _), hp1⟩

end

/-! ## Polls -/

/-- What the committees of the current order of a machine committed themselves to, and what they
revealed. -/
structure Ballots (A : Type) where
  committed : A → Option Bytes
  opened : A → Option CommitteeUploadInfo

namespace Ballots

omit [LinearOrder A] in
def blank : Ballots A := ⟨fun _ => none, fun _ => none⟩

def commit (b : Ballots A) (c : A) (hash : Bytes) : Ballots A :=
  { b with committed := Function.update b.committed c (some hash) }

def reveal (b : Ballots A) (c : A) (info : CommitteeUploadInfo) : Ballots A :=
  { b with opened := Function.update b.opened c (some info) }

omit [LinearOrder A] in
/-- What counts of the report of a committee. -/
def ballot (b : Ballots A) (c : A) : CommitteeUploadInfo :=
  OCMachineCommitteeList.countedInfo ((b.opened c).getD .zero).forget

end Ballots

/-- The ballots of each machine after an operation in `s`. -/
def ballotsAfter (crypto : Crypto A) (s : State A) (b : MachineId → Ballots A) :
    Op A → MachineId → Ballots A
  | .submitConfirmHash c m hash =>
    if Succeeds (submitConfirmHash c m hash) s then Function.update b m ((b m).commit c hash) else b
  | .submitConfirmRaw c info =>
    if Succeeds (submitConfirmRaw crypto.blake2 c info) s then
      Function.update b info.machineId ((b info.machineId).reveal c info)
    else b
  | .endBlock _ => fun m =>
    if m ∈ s.statisticResult.machines.liveMachines.confirmedMachine then .blank else b m
  | _ => b

/-- A run, and the ballots of each machine since it was given out. -/
structure Poll (A : Type) [LinearOrder A] extends Block A where
  ballots : MachineId → Ballots A

def Poll.apply (crypto : Crypto A) (t : Poll A) (op : Op A) : Poll A where
  toBlock := Block.apply crypto t.toBlock op
  ballots := ballotsAfter crypto t.state t.ballots op

def pollSystem (crypto : Crypto A) : System (Poll A) (Op A) where
  init t := Block.Initial t.toBlock ∧ ∀ m, t.ballots m = .blank
  step t op t' := op.Possible t.toBlock ∧ t' = t.apply crypto op

/-- `booked_machine` is called by the hooks of this pallet only. -/
def Op.Outside (_ : Poll A) : Op A → Prop
  | .profile (.bookedMachine _) => False
  | _ => True

/-! ## What the ballots say about an order -/

/-- The order of `m` follows the ballots. -/
structure Polled (blake2 : Bytes → Bytes) (m : MachineId) (b : Ballots A) (x : Orders A) :
    Prop where
  confirmed : ∀ c ∈ (x.order m).confirmedCommittee, c ∈ (x.order m).hashedCommittee
  hashed : ∀ c ∈ (x.order m).hashedCommittee, c ∈ (x.order m).bookedCommittee
  three : (x.order m).bookedCommittee.length ≤ 3
  committed : ∀ c ∈ (x.order m).hashedCommittee, ∃ hash, b.committed c = some hash ∧
    (m ∈ (x.machinesOf c).hashedMachine → (x.ops c m).confirmHash = hash)
  opened : ∀ c ∈ (x.order m).confirmedCommittee, ∃ info, b.opened c = some info ∧
    info.machineId = m ∧ b.committed c = some (blake2 info.rawInfo)

def Counted (m : MachineId) (b : Ballots A) (x : Orders A) : Prop :=
  ∀ c ∈ (x.order m).confirmedCommittee,
    OCMachineCommitteeList.countedInfo (x.ops c m).machineInfo = b.ballot c

/-- No committee can act on the order any more. -/
structure Closed (m : MachineId) (x : Orders A) : Prop where
  status : (x.order m).status = .finished
  hashed : ∀ c ∈ (x.order m).bookedCommittee, c ∈ (x.order m).hashedCommittee
  cleaned : ∀ c ∈ (x.order m).bookedCommittee, m ∉ (x.machinesOf c).hashedMachine

/-- The order of `m` follows the ballots, and while `m` is being verified they are counted. -/
structure Fair (blake2 : Bytes → Bytes) (m : MachineId) (b : Ballots A) (s : State A) : Prop where
  polled : Polled blake2 m b s.orders
  counted : s.toProfile.Booked m → Counted m b s.orders ∨ Closed m s.orders

section

variable {blake2 : Bytes → Bytes} {m : MachineId} {b b' : Ballots A} {x x' : Orders A}
  {s s' : State A} {c : A}

theorem Polled.same (h : Polled blake2 m b x) (hs : Same m x x') : Polled blake2 m b x' where
  confirmed := by rw [hs.order]; exact h.confirmed
  hashed := by rw [hs.order]; exact h.hashed
  three := by rw [hs.order]; exact h.three
  committed := by
    rw [hs.order]
    intro c hc
    obtain ⟨hash, hcom, hops⟩ := h.committed c hc
    refine ⟨hash, hcom, fun hm => ?_⟩
    rw [hs.ops]
    exact hops ((hs.hashed c).1 hm)
  opened := by rw [hs.order]; exact h.opened

theorem Polled.confirmed_le (h : Polled blake2 m b x) : (x.order m).confirmedCommittee.length ≤ 3 :=
  (length_le_of_subset fun c hc => h.hashed c (h.confirmed c hc)).trans h.three

theorem Counted.same (h : Counted m b x) (hs : Same m x x') : Counted m b x' := by
  intro c hc
  rw [hs.order] at hc
  rw [hs.ops]
  exact h c hc

theorem Closed.same (h : Closed m x) (hs : Same m x x') : Closed m x' where
  status := by rw [hs.order]; exact h.status
  hashed := by rw [hs.order]; exact h.hashed
  cleaned := by
    rw [hs.order]
    intro c hc hm
    exact h.cleaned c hc ((hs.hashed c).1 hm)

theorem Fair.same (h : Fair blake2 m b s) (hs : Same m s.orders s'.orders)
    (hb : s'.toProfile.Booked m → s.toProfile.Booked m) : Fair blake2 m b s' where
  polled := h.polled.same hs
  counted hm := (h.counted (hb hm)).imp (·.same hs) (·.same hs)

/-- An order of at most `k` committees nobody has acted on. -/
structure Clear (k : Nat) (o : OCMachineCommitteeList A) : Prop where
  hashed : ∀ c, c ∉ o.hashedCommittee
  confirmed : ∀ c, c ∉ o.confirmedCommittee
  booked : o.bookedCommittee.length ≤ k

theorem clear_zero (k : Nat) : Clear k (.zero : OCMachineCommitteeList A) :=
  ⟨fun _ => notMem_empty, fun _ => notMem_empty, Nat.zero_le k⟩

theorem Clear.fair (h : Clear 3 (s.orders.order m)) : Fair blake2 m b s where
  polled :=
    { confirmed := fun c hc => absurd hc (h.confirmed c)
      hashed := fun c hc => absurd hc (h.hashed c)
      three := h.booked
      committed := fun c hc => absurd hc (h.hashed c)
      opened := fun c hc => absurd hc (h.confirmed c) }
  counted _ := .inl fun c hc => absurd hc (h.confirmed c)

/-- The committee `c` acts on the order of `m`: nothing changes for the others. -/
structure Acts (m : MachineId) (c : A) (s s' : State A) (o : OCCommitteeOps) : Prop where
  profile : s'.toProfile = s.toProfile
  ops : s'.orders.ops c m = o
  others : ∀ d, d ≠ c → s'.orders.ops d m = s.orders.ops d m ∧
    s'.orders.machinesOf d = s.orders.machinesOf d

theorem submitConfirmHash_acts {hash : Bytes} {u : Unit}
    (h : (submitConfirmHash c m hash).run s = (.ok u, s')) :
    Acts m c s s' ((s.orders.ops c m).submitHash s.now hash) := by
  unfold submitConfirmHash at h
  simp only [run_ok, run_verified_ok] at h
  obtain ⟨-, o, -, -, rfl, rfl⟩ := h
  refine ⟨rfl, (Orders.ops_putOps ..).trans (if_pos rfl), fun d hd => ⟨?_, ?_⟩⟩
  · exact (Orders.ops_putOps ..).trans (if_neg fun he => hd (Prod.mk.inj he).1)
  · exact (Orders.machinesOf_putMachines ..).trans (if_neg hd)

theorem submitConfirmRaw_acts {info : CommitteeUploadInfo} {u : Unit}
    (h : (submitConfirmRaw blake2 c info).run s = (.ok u, s')) :
    Acts info.machineId c s s' ((s.orders.ops c info.machineId).submitRaw s.now info) ∧
      blake2 info.rawInfo = (s.orders.ops c info.machineId).confirmHash ∧
      info.machineId ∉ (s'.orders.machinesOf c).hashedMachine := by
  unfold submitConfirmRaw at h
  simp only [run_ok, run_verified_ok] at h
  obtain ⟨hhash, l, hl, o, ho, rfl⟩ := h
  refine ⟨⟨rfl, (Orders.ops_putOps ..).trans (if_pos rfl), fun d hd => ⟨?_, ?_⟩⟩, hhash, ?_⟩
  · exact (Orders.ops_putOps ..).trans (if_neg fun he => hd (Prod.mk.inj he).1)
  · exact (Orders.machinesOf_putMachines ..).trans (if_neg hd)
  · have hmine : (((s.orders.putMachines c l).putOrder info.machineId o).putOps c info.machineId
        ((s.orders.ops c info.machineId).submitRaw s.now info)).machinesOf c = l :=
      (Orders.machinesOf_putMachines ..).trans (if_pos rfl)
    have hleft : info.machineId ∉ l.hashedMachine := by
      unfold OCCommitteeMachineList.submitRaw at hl
      split at hl
      · cases hl
      split at hl
      · cases hl
      · cases hl
        exact fun hm => (mem_rmItem.1 hm).1 rfl
    intro hm
    exact hleft (hmine ▸ hm)

theorem Fair.hash {hash : Bytes} {u : Unit} (h : Fair blake2 m b s)
    (hr : (submitConfirmHash c m hash).run s = (.ok u, s')) :
    Fair blake2 m (b.commit c hash) s' := by
  have hacts := submitConfirmHash_acts hr
  obtain ⟨-, ho, -⟩ := submitConfirmHash_turn hr
  obtain ⟨hbooked, hnot, ho'⟩ := submitHash_ok ho
  have hcom : ∀ d, d ≠ c → (b.commit c hash).committed d = b.committed d :=
    fun d hd => Function.update_of_ne hd _ _
  have hne : ∀ d ∈ (s.orders.order m).confirmedCommittee, d ≠ c := by
    rintro d hd rfl
    exact hnot (h.polled.confirmed d hd)
  refine ⟨⟨?_, ?_, ?_, ?_, ?_⟩, fun hm => ?_⟩
  · rw [ho']
    exact fun d hd => mem_addItem.2 (.inr (h.polled.confirmed d hd))
  · rw [ho']
    intro d hd
    rcases mem_addItem.1 hd with rfl | hd
    · exact hbooked
    · exact h.polled.hashed d hd
  · rw [ho']
    exact h.polled.three
  · rw [ho']
    intro d hd
    by_cases hdc : d = c
    · subst hdc
      refine ⟨hash, Function.update_self .., fun _ => ?_⟩
      rw [hacts.ops]
      rfl
    · obtain ⟨hash', hcom', hops⟩ :=
        h.polled.committed d ((mem_addItem.1 hd).resolve_left hdc)
      refine ⟨hash', (hcom d hdc).trans hcom', ?_⟩
      rw [(hacts.others d hdc).1, (hacts.others d hdc).2]
      exact hops
  · rw [ho']
    intro d hd
    obtain ⟨info, hopen, hinfo, hcom'⟩ := h.polled.opened d hd
    exact ⟨info, hopen, hinfo, (hcom d (hne d hd)).trans hcom'⟩
  · rw [hacts.profile] at hm
    rcases h.counted hm with hcounted | hclosed
    · refine .inl fun d hd => ?_
      rw [ho'] at hd
      rw [(hacts.others d (hne d hd)).1]
      exact hcounted d hd
    · exact absurd (hclosed.hashed c hbooked) hnot

theorem Fair.raw {info : CommitteeUploadInfo} {u : Unit} (h : Fair blake2 info.machineId b s)
    (hr : (submitConfirmRaw blake2 c info).run s = (.ok u, s')) :
    Fair blake2 info.machineId (b.reveal c info) s' := by
  obtain ⟨hacts, hhash, hgone⟩ := submitConfirmRaw_acts hr
  obtain ⟨-, hin, ho, -⟩ := submitConfirmRaw_turn hr
  obtain ⟨-, hhashed, ho'⟩ := submitRaw_ok ho
  have hopen : ∀ d, d ≠ c → (b.reveal c info).opened d = b.opened d :=
    fun d hd => Function.update_of_ne hd _ _
  have hmine : (b.reveal c info).opened c = some info := Function.update_self ..
  refine ⟨⟨?_, ?_, ?_, ?_, ?_⟩, fun hm => ?_⟩
  · rw [ho']
    intro d hd
    rcases mem_addItem.1 hd with rfl | hd
    · exact hhashed
    · exact h.polled.confirmed d hd
  · rw [ho']
    exact h.polled.hashed
  · rw [ho']
    exact h.polled.three
  · rw [ho']
    intro d hd
    obtain ⟨hash, hcom, hops⟩ := h.polled.committed d hd
    refine ⟨hash, hcom, fun hm => ?_⟩
    by_cases hdc : d = c
    · subst hdc
      exact absurd hm hgone
    · rw [(hacts.others d hdc).2] at hm
      rw [(hacts.others d hdc).1]
      exact hops hm
  · rw [ho']
    intro d hd
    by_cases hdc : d = c
    · subst hdc
      obtain ⟨hash, hcom, hops⟩ := h.polled.committed d hhashed
      refine ⟨info, hmine, rfl, hcom.trans ?_⟩
      rw [hhash, hops hin]
    · obtain ⟨info', hopen', hrest⟩ :=
        h.polled.opened d ((mem_addItem.1 hd).resolve_left hdc)
      exact ⟨info', (hopen d hdc).trans hopen', hrest⟩
  · rw [hacts.profile] at hm
    rcases h.counted hm with hcounted | hclosed
    · refine .inl fun d hd => ?_
      rw [ho'] at hd
      unfold Ballots.ballot
      by_cases hdc : d = c
      · subst hdc
        rw [hacts.ops, hmine]
        rfl
      · rw [(hacts.others d hdc).1, hopen d hdc]
        exact hcounted d ((mem_addItem.1 hd).resolve_left hdc)
    · exact absurd hin (hclosed.cleaned c (h.polled.hashed c hhashed))

/-! ## The end of a block -/

theorem Polled.counts (h : Polled blake2 m b s.orders) :
    (∃ w, (s.orders.order m).Counts (fun c => OCMachineCommitteeList.countedInfo (s.orders.ops c
        m).machineInfo) (s.summary m) w) ∨
      (s.orders.order m).Splits
        (fun c => OCMachineCommitteeList.countedInfo (s.orders.ops c m).machineInfo)
        (s.summary m) :=
  (OCMachineCommitteeList.summaryConfirmation_counts _ _ h.confirmed_le).2.2

theorem countedInfo_of_not_support {y w : CommitteeUploadInfo}
    (h : OCMachineCommitteeList.countedInfo y = w) (hw : w.isSupport = false) : w = .zero := by
  unfold OCMachineCommitteeList.countedInfo at h
  split at h
  · next hy =>
    rw [h, hw] at hy
    cases hy
  · exact h.symm

theorem countedInfo_of_support {y w : CommitteeUploadInfo}
    (h : OCMachineCommitteeList.countedInfo y = w) (hw : w.isSupport = true) : w = y := by
  unfold OCMachineCommitteeList.countedInfo at h
  split at h
  · exact h.symm
  · rw [← h] at hw
    cases hw

theorem not_finished_of_canSummary {o : OCMachineCommitteeList A} {now : Nat}
    (h : o.canSummary now = true) : o.status ≠ .finished := by
  unfold OCMachineCommitteeList.canSummary at h
  intro hst
  rw [hst] at h
  simp at h

theorem Fair.confirmed_names (h : Polled blake2 m b s.orders) (hc : Counted m b s.orders)
    (hv : (s.summary m).verifyResult = .confirmed) :
    ∃ info, (s.summary m).info = some info ∧ info.machineId = m := by
  rcases h.counts with ⟨w, hw⟩ | hsplit
  · have hresult := hw.result
    rw [hv] at hresult
    split at hresult
    · next hsupport =>
      refine ⟨w, by rw [hw.info, if_pos hsupport], ?_⟩
      obtain ⟨d, hd, hdw⟩ := List.mem_map.1 hw.wins.mem
      obtain ⟨info, hopen, hinfo, -⟩ := h.opened d hd
      have hballot : b.ballot d = w := (hc d hd).symm.trans hdw
      unfold Ballots.ballot at hballot
      rw [hopen] at hballot
      rw [countedInfo_of_support hballot hsupport]
      exact hinfo
    · cases hresult
  · rw [hsplit.result] at hv
    cases hv

/-- The committees that refused a machine before all hashes were in all opposed it. -/
theorem Fair.refused_opposed (h : Polled blake2 m b s.orders) (hc : Counted m b s.orders)
    (hv : (s.summary m).verifyResult = .refused)
    (hlt : (s.orders.order m).confirmedCommittee.length ≤ 2) :
    ∀ d ∈ (s.orders.order m).confirmedCommittee, b.ballot d = .zero := by
  rcases h.counts with ⟨w, hw⟩ | hsplit
  · intro d hd
    have hresult := hw.result
    rw [hv] at hresult
    split at hresult
    · cases hresult
    · next hsupport =>
      have hall := hw.wins.forall_eq (by rw [List.length_map]; exact hlt)
      have hdw := hall _ (List.mem_map_of_mem hd)
      rw [← hc d hd, hdw]
      exact countedInfo_of_not_support hdw (Bool.eq_false_of_not_eq_true hsupport)
  · rw [hsplit.result] at hv
    cases hv

theorem Fair.judged (h : Fair blake2 m b s) (hj : Judged m s s')
    (hb : s'.toProfile.Booked m → s.toProfile.Booked m) : Fair blake2 m b s' := by
  cases hj with
  | same hs => exact h.same hs hb
  | dropped ho =>
    refine Clear.fair ?_
    rw [ho]
    exact clear_zero 3
  | startRaw hs ho =>
    have horder : s'.orders.order m = (s.orders.order m).startRaw := by
      rw [ho, Orders.order_putOrder, if_pos rfl]
    have hops : ∀ d, s'.orders.ops d m = s.orders.ops d m := fun d => by rw [ho]; rfl
    have hmachines : ∀ d, s'.orders.machinesOf d = s.orders.machinesOf d := fun d => by
      rw [ho]
      rfl
    refine ⟨⟨?_, ?_, ?_, ?_, ?_⟩, fun hm => ?_⟩
    · rw [horder]
      exact h.polled.confirmed
    · rw [horder]
      exact h.polled.hashed
    · rw [horder]
      exact h.polled.three
    · rw [horder]
      simp only [hops, hmachines]
      exact h.polled.committed
    · rw [horder]
      exact h.polled.opened
    · rcases h.counted (hb hm) with hcounted | hclosed
      · refine .inl fun d hd => ?_
        rw [horder] at hd
        rw [hops]
        exact hcounted d hd
      · have hst : (s.orders.order m).status = .submittingHash := by
          unfold OCMachineCommitteeList.canSubmitRaw at hs
          exact (of_decide_eq_true hs).1
        rw [hclosed.status] at hst
        cases hst
  | finish hsum l ho hops hclean hlive =>
    refine ⟨⟨?_, ?_, ?_, ?_, ?_⟩, fun hm => ?_⟩
    · rw [ho]
      exact h.polled.confirmed
    · rw [ho]
      exact h.polled.hashed
    · rw [ho]
      exact h.polled.three
    · rw [ho]
      intro d hd
      obtain ⟨hash, hcom, -⟩ := h.polled.committed d hd
      exact ⟨hash, hcom, fun hm => absurd hm (hclean d (h.polled.hashed d hd))⟩
    · rw [ho]
      exact h.polled.opened
    · have hcounted : Counted m b s.orders :=
        (h.counted (hb hm)).resolve_right fun hclosed =>
          not_finished_of_canSummary hsum hclosed.status
      rcases hlive hm with hv | ⟨hv, hother⟩
      · by_cases hall : ∀ c ∈ (s.orders.order m).bookedCommittee,
            c ∈ (s.orders.order m).hashedCommittee
        · refine .inr ⟨?_, ?_, ?_⟩
          · rw [ho]
          · rw [ho]
            exact hall
          · rw [ho]
            exact hclean
        · -- somebody owes a hash, so that there are two reports at most
          simp only [not_forall] at hall
          obtain ⟨d, hd, hnot⟩ := hall
          have hlt := length_lt_of_notMem h.polled.hashed hd hnot
          have hle := length_le_of_subset h.polled.confirmed
          have h3 := h.polled.three
          have hzero := Fair.refused_opposed h.polled hcounted hv (by omega)
          refine .inl fun c hc => ?_
          rw [ho] at hc
          rw [hops c (h.polled.hashed c (h.polled.confirmed c hc)), hzero c hc]
          rfl
      · obtain ⟨info, hinfo, hname⟩ := Fair.confirmed_names h.polled hcounted hv
        exact absurd hname (hother info hinfo)

theorem summaryRaw_fair {v : MachineId → Ballots A} (h : ∀ m, Fair blake2 m (v m) s)
    (m : MachineId) (stake : Nat) : ∀ m', Fair blake2 m' (v m') ((summaryRaw m stake).run s).2 := by
  intro m'
  obtain ⟨hj, hbooked⟩ := summaryRaw_judged m stake s fun _ h => h
  by_cases hm : m' = m
  · subst hm
    exact (h m').judged hj (hbooked m')
  · exact (h m').same ((summaryRaw_summed m stake s).others m' hm) (hbooked m')

theorem foldl_summaryRaw_fair {v : MachineId → Ballots A} (h : ∀ m, Fair blake2 m (v m) s)
    (stake : Nat) (l : List MachineId) :
    ∀ m, Fair blake2 m (v m) (l.foldl (fun s' m => ((summaryRaw m stake).run s').2) s) := by
  induction l generalizing s with
  | nil => exact h
  | cons a l ih => exact ih (summaryRaw_fair h a stake)

theorem bookOne_clear {k : Nat} (m : MachineId) (work : A × List Nat) {l : LiveMachine}
    (hl : s.machines.liveMachines = l) (hc : Clear k (s.orders.order m)) :
    let s' := ((bookOne m work).run s).2
    s'.machines.liveMachines = l ∧ Clear (k + 1) (s'.orders.order m) := by
  refine Post.storage (c := bookOne m work)
    (I := fun s' => s'.machines.liveMachines = l ∧ Clear (k + 1) (s'.orders.order m)) ?_
  have hweak : Clear (k + 1) (s.orders.order m) :=
    ⟨hc.hashed, hc.confirmed, hc.booked.trans (Nat.le_succ k)⟩
  unfold bookOne
  rw [post_bind, post_get, post_bind, post_okOr]
  refine ⟨fun stake _ => ?_, fun _ => ⟨hl, hweak⟩⟩
  rw [post_bind]
  refine (aloof_moored.changeCommitteeUsedStake work.1 stake true s ⟨rfl, rfl⟩).mono ?_ ?_
  · rintro _ s1 ⟨hx1, hl1⟩
    rw [post_modify]
    refine ⟨hl1.trans hl, ?_⟩
    show Clear (k + 1) ((Orders.putOrder s1.orders m _).order m)
    rw [Orders.order_putOrder, if_pos rfl, hx1]
    refine ⟨hc.hashed, hc.confirmed, (length_addItem_le _ _).trans ?_⟩
    exact Nat.succ_le_succ hc.booked
  · rintro _ s1 ⟨hx1, hl1⟩
    rw [hx1]
    exact ⟨hl1.trans hl, hweak⟩

theorem foldl_bookOne_clear {k : Nat} (m : MachineId) (works : List (A × List Nat))
    {l : LiveMachine} (hl : s.machines.liveMachines = l) (hc : Clear k (s.orders.order m)) :
    let s' := works.foldl (fun s work => ((bookOne m work).run s).2) s
    s'.machines.liveMachines = l ∧ Clear (k + works.length) (s'.orders.order m) := by
  induction works generalizing s k with
  | nil => exact ⟨hl, hc⟩
  | cons work works ih =>
    obtain ⟨hl1, hc1⟩ := bookOne_clear m work hl hc
    obtain ⟨hl2, hc2⟩ := ih hl1 hc1
    refine ⟨hl2, ?_⟩
    rw [List.length_cons, Nat.add_comm works.length 1, ← Nat.add_assoc]
    exact hc2

omit [LinearOrder A] in
theorem length_pickCommittees (draw : Nat → Nat) (is : List Nat) (l : List A) :
    (pickCommittees draw is l).length ≤ is.length := by
  induction is generalizing l with
  | nil => exact Nat.le_refl 0
  | cons i is ih =>
    unfold pickCommittees
    simp only
    split
    · exact Nat.succ_le_succ (ih _)
    · exact Nat.zero_le _

/-- A machine that is given out has three committees at most, which have done nothing yet. -/
theorem distributeOne_clear (draw : MachineId → Nat → Nat) (s : State A) (m : MachineId) :
    let s' := State.distributeOne draw s m
    Clear 3 (s'.orders.order m) ∧
      ∀ m', s'.toProfile.Booked m' → m' = m ∨ s.toProfile.Booked m' := by
  have hzero : Clear 0 ((s.orders.rmOrder m).order m) := by
    rw [Orders.order_rmOrder, if_pos rfl]
    exact clear_zero 0
  unfold State.distributeOne State.getWorkIndex
  simp only
  split
  · exact ⟨⟨hzero.hashed, hzero.confirmed, hzero.booked.trans (Nat.zero_le 3)⟩, fun m' h => .inr h⟩
  · next works hworks =>
    have hlen : works.length ≤ 3 := by
      split at hworks
      · cases hworks
      · split at hworks
        · cases hworks
        · cases hworks
          exact length_pickCommittees ..
    obtain ⟨hl, hc⟩ := foldl_bookOne_clear (s := s.mapOrders (·.rmOrder m)) m works rfl hzero
    set s1 := works.foldl (fun s work => ((bookOne m work).run s).2) (s.mapOrders (·.rmOrder m))
    have hbook : Post (profile (OnlineProfile.bookedMachine m)) s1
        (fun _ s' => s'.orders = s1.orders ∧
          ∀ m', s'.toProfile.Booked m' → m' = m ∨ s1.toProfile.Booked m')
        (fun _ s' => s'.orders = s1.orders ∧
          ∀ m', s'.toProfile.Booked m' → m' = m ∨ s1.toProfile.Booked m') := by
      unfold profile
      rw [post_zoom]
      refine (OnlineProfile.moveMachine_roster m _ _ s1.toProfile).mono (fun _ q hq => ?_) ?_
      · refine ⟨rfl, fun m' hm' => ?_⟩
        have hm' : m' ∈ q.roster.live.list .booked := hm'
        rw [hq.2] at hm'
        exact mem_addItem.1 hm'
      · rintro _ _ rfl
        exact ⟨rfl, fun m' hm' => .inr hm'⟩
    obtain ⟨hx, hbooked⟩ := Post.storage
      (I := fun s' : State A => s'.orders = s1.orders ∧
        ∀ m', s'.toProfile.Booked m' → m' = m ∨ s1.toProfile.Booked m') hbook
    refine ⟨?_, fun m' hm' => (hbooked m' hm').imp_right fun h => ?_⟩
    · rw [hx]
      exact ⟨hc.hashed, hc.confirmed, hc.booked.trans (by omega)⟩
    · unfold OnlineProfile.State.Booked at h
      rw [hl] at h
      exact h

theorem foldl_distributeOne_fair {v : MachineId → Ballots A} (draw : MachineId → Nat → Nat)
    (l : List MachineId) (h : ∀ m, Fair blake2 m (v m) s) :
    let s' := l.foldl (State.distributeOne draw) s
    (∀ m, Fair blake2 m (v m) s') ∧ ∀ m ∈ l, Clear 3 (s'.orders.order m) := by
  induction l generalizing s with
  | nil => exact ⟨h, fun m hm => absurd hm List.not_mem_nil⟩
  | cons a l ih =>
    obtain ⟨hclear, hbooked⟩ := distributeOne_clear draw s a
    obtain ⟨-, -, hothers⟩ := distributeOne_fresh draw s a
    have hone : ∀ m, Fair blake2 m (v m) (State.distributeOne draw s a) := by
      intro m
      by_cases hm : m = a
      · subst hm
        exact hclear.fair
      · exact (h m).same (hothers m hm) fun hb => (hbooked m hb).resolve_left hm
    obtain ⟨hfair, hrest⟩ := ih hone
    refine ⟨hfair, fun m hm => ?_⟩
    by_cases hl : m ∈ l
    · exact hrest m hl
    · rcases List.mem_cons.1 hm with rfl | hm
      · have hsame := (foldl_distributeOne draw l (State.distributeOne draw s m)).2.2 m hl
        rw [List.foldl_cons, hsame.order]
        exact hclear
      · exact absurd hm hl

/-! ## Runs -/

def Poll.Inv (crypto : Crypto A) (t : Poll A) : Prop :=
  ∀ m, Fair crypto.blake2 m (t.ballots m) t.state

theorem Fair.moored (h : Fair blake2 m b s)
    (hs : Moored s.orders s.machines.liveMachines s') : Fair blake2 m b s' := by
  refine h.same (hs.1 ▸ .refl m _) fun hm => ?_
  unfold OnlineProfile.State.Booked at hm
  rw [hs.2] at hm
  exact hm

theorem dispatch_succeeds {ε α : Type} (c : Call (State A) ε α) (s : State A) :
    (∃ a s', Succeeds c s ∧ c.run s = (.ok a, s') ∧ (c.dispatch s).2 = s') ∨
      ¬ Succeeds c s ∧ (c.dispatch s).2 = s := by
  unfold dispatch
  split
  · next a s' hr => exact .inl ⟨a, s', ⟨a, by rw [hr]⟩, hr, rfl⟩
  · next e s' hr =>
    refine .inr ⟨?_, rfl⟩
    rintro ⟨a, ha⟩
    rw [hr] at ha
    cases ha

variable {crypto : Crypto A} {t : Poll A}

theorem Poll.Inv.step (h : t.Inv crypto) (op : Op A) (hop : op.Outside t) :
    (t.apply crypto op).Inv crypto := by
  intro m
  cases op with
  | profile op =>
    have hb : (OnlineProfile.apply crypto.keys t.state.toProfile op).Booked m →
        t.state.toProfile.Booked m := by
      refine OnlineProfile.apply_booked crypto.keys t.state.toProfile ?_
      rintro m0 rfl
      exact hop
    exact (h m).same (.refl m _) hb
  | submitConfirmHash c m0 hash =>
    show Fair crypto.blake2 m
      ((if Succeeds (submitConfirmHash c m0 hash) t.state then _ else t.ballots) m)
      ((submitConfirmHash c m0 hash).dispatch t.state).2
    rcases dispatch_succeeds (submitConfirmHash c m0 hash) t.state with
      ⟨_, s', hs, hr, he⟩ | ⟨hs, he⟩
    · rw [if_pos hs, he]
      by_cases hm : m = m0
      · subst hm
        rw [Function.update_self]
        exact (h m).hash hr
      · rw [Function.update_of_ne hm]
        refine (h m).same ((submitConfirmHash_turn hr).2.2 m hm) ?_
        rw [(submitConfirmHash_acts hr).profile]
        exact id
    · rw [if_neg hs, he]
      exact h m
  | submitConfirmRaw c info =>
    show Fair crypto.blake2 m
      ((if Succeeds (submitConfirmRaw crypto.blake2 c info) t.state then _ else t.ballots) m)
      ((submitConfirmRaw crypto.blake2 c info).dispatch t.state).2
    rcases dispatch_succeeds (submitConfirmRaw crypto.blake2 c info) t.state with
      ⟨_, s', hs, hr, he⟩ | ⟨hs, he⟩
    · rw [if_pos hs, he]
      by_cases hm : m = info.machineId
      · subst hm
        rw [Function.update_self]
        exact (h _).raw hr
      · rw [Function.update_of_ne hm]
        refine (h m).same ((submitConfirmRaw_turn hr).2.2.2 m hm) ?_
        rw [(submitConfirmRaw_acts hr).1.profile]
        exact id
    · rw [if_neg hs, he]
      exact h m
  | applySlashReview applicant id reason =>
    exact (h m).moored (dispatch_moored (aloof_moored.applySlashReview applicant id reason))
  | cancelSlash id => exact (h m).moored (dispatch_moored (aloof_moored.cancelSlash id))
  | nextBlock => exact (h m).moored (startBlock_moored t.state)
  | endBlock draw =>
    have hsum := foldl_summaryRaw_fair h (t.state.stakePerOrder.getD 0)
      t.state.machines.liveMachines.bookedMachine.toList
    obtain ⟨hfair, hclear⟩ := foldl_distributeOne_fair draw
      t.state.statisticResult.machines.liveMachines.confirmedMachine.toList hsum
    show Fair crypto.blake2 m
      (if m ∈ t.state.statisticResult.machines.liveMachines.confirmedMachine then .blank
        else t.ballots m) (t.state.onFinalize draw)
    split
    · next hm => exact (hclear m hm).fair
    · exact hfair m

theorem poll_inv (ht : (pollSystem crypto).Reach Op.Outside t) : t.Inv crypto := by
  refine ht.invariant (I := Poll.Inv crypto) ?_ ?_
  · rintro t ⟨⟨⟨p, hs⟩, -⟩, -⟩ m
    refine Clear.fair ?_
    rw [hs]
    exact clear_zero 3
  · rintro t op _ h hop ⟨-, rfl⟩
    exact h.step op hop

end

/-- **Every summary is a strict plurality count.** In every run, whenever `summary_raw` evaluates
the reports on a machine: it does not panic, its result is the plurality of what the committees
revealed, and what each of them revealed since the machine was given out is what it had committed
itself to. -/
theorem summary_strict_plurality (crypto : Crypto A) (t : Poll A)
    (ht : (pollSystem crypto).Reach Op.Outside t) (l₁ l₂ : List MachineId) (m : MachineId)
    (hm : t.state.machines.liveMachines.bookedMachine.toList = l₁ ++ m :: l₂)
    (hsum : ((t.state.summedUp l₁).orders.order m).canSummary t.state.now = true) :
    let s := t.state.summedUp l₁
    let o := s.orders.order m
    o.trySummaryConfirmation
        (o.confirmedCommittee.toList.map fun c => (s.orders.ops c m).machineInfo) =
        some (s.summary m) ∧
      o.Tallied (t.ballots m).ballot (s.summary m) ∧
      ∀ c ∈ o.confirmedCommittee, ∃ info, (t.ballots m).opened c = some info ∧
        info.machineId = m ∧ (t.ballots m).committed c = some (crypto.blake2 info.rawInfo) ∧
        OCMachineCommitteeList.countedInfo (s.orders.ops c m).machineInfo =
          OCMachineCommitteeList.countedInfo info.forget := by
  intro s o
  have hinv := poll_inv ht m
  have hnodup := t.state.machines.liveMachines.bookedMachine.nodup
  rw [hm] at hnodup
  have hbooked : t.state.toProfile.Booked m := by
    show m ∈ t.state.machines.liveMachines.bookedMachine.toList
    rw [hm]
    exact List.mem_append_right _ List.mem_cons_self
  -- the machines before `m` in the loop leave its order alone
  have hsame : Same m t.state.orders s.orders := by
    refine (foldl_summaryRaw _ (List.nodup_append.1 hnodup).1 t.state).2.1 m fun hin => ?_
    exact (List.nodup_append.1 hnodup).2.2 m hin m List.mem_cons_self rfl
  have hpolled := hinv.polled.same hsame
  have hcounted : Counted m (t.ballots m) s.orders := by
    refine ((hinv.counted hbooked).resolve_right fun hclosed => ?_).same hsame
    refine not_finished_of_canSummary hsum ?_
    rw [hsame.order]
    exact hclosed.status
  have hsub : ∀ c ∈ o.confirmedCommittee, c ∈ o.bookedCommittee :=
    fun c hc => hpolled.hashed c (hpolled.confirmed c hc)
  obtain ⟨htry, hunruly, hcount⟩ := OCMachineCommitteeList.summaryConfirmation_counts o
    (fun c => (s.orders.ops c m).machineInfo) hpolled.confirmed_le
  refine ⟨htry, ?_, fun c hc => ?_⟩
  · rcases hcount with ⟨w, hw⟩ | hsplit
    · refine (hw.congr hcounted).tallied hunruly hsub fun c hc => ?_
      exact countedInfo_of_not_support rfl hc
    · exact (hsplit.congr hcounted).tallied hunruly hsub
  · obtain ⟨info, hopen, hname, hcom⟩ := hpolled.opened c hc
    refine ⟨info, hopen, hname, hcom, ?_⟩
    have hballot := hcounted c hc
    unfold Ballots.ballot at hballot
    rw [hopen] at hballot
    exact hballot

end

namespace VoteDemo

open PhaseDemo

def start : Poll Nat := ⟨PhaseDemo.start.toBlock, fun _ => .blank⟩

/-- Two committees agree on the machine, and the committee 13 reports something else. -/
def reportOf (c : Nat) : CommitteeUploadInfo :=
  { report with
    randStr := [byte c]
    isSupport := true
    gpuNum := if c = 13 then 5 else 4 }

def votes : List (Op Nat) :=
  [11, 12, 13].map (fun c => .submitConfirmHash c machineId (reportOf c).rawInfo) ++
    [11, 12, 13].map (fun c => .submitConfirmRaw c (reportOf c))

def voted : Poll Nat := (bring ++ votes).foldl (Poll.apply crypto) start

theorem voted_reach : (pollSystem crypto).Reach Op.Outside voted := by
  refine reach_inOrder Poll.toBlock (.init ⟨⟨⟨_, rfl⟩, rfl⟩, fun _ => rfl⟩) (fun op hop t => ?_)
    (by decide +kernel) fun _ _ h => ⟨⟨h, rfl⟩, rfl⟩
  simp only [bring, votes, List.map_cons, List.map_nil, List.cons_append, List.nil_append,
    List.mem_cons, List.not_mem_nil, or_false] at hop
  rcases hop with rfl | rfl | rfl | rfl | rfl | rfl | rfl | rfl | rfl | rfl | rfl | rfl | rfl <;>
    trivial

end VoteDemo

open VoteDemo PhaseDemo

theorem summary_strict_plurality_demo :
    ((voted.state.summedUp []).orders.order machineId).Tallied (voted.ballots machineId).ballot
        ((voted.state.summedUp []).summary machineId) ∧
      ((voted.state.summedUp []).summary machineId).verifyResult = .confirmed := by
  have h := summary_strict_plurality crypto voted voted_reach [] [] machineId (by decide +kernel)
    (by decide +kernel)
  exact ⟨h.2.1, by decide +kernel⟩

end DeepBrainChain.OnlineCommittee
