import DeepBrainChain.RentMachine.LiveOrders

/-!
# The renters of a machine

The record of a machine lists its renters: a renter enters with a confirmation, and leaves with the
end of an order if it has no other order of the machine. The orders counted there are all orders,
also those that wait for their confirmation.
-/

namespace DeepBrainChain.RentMachine

open Lib GenericFunc Support Lib.Call StorageMap SortedVec Option
open OnlineProfile (Crypto Shows blind_tenants)

section

variable {A : Type} [LinearOrder A] {s s' s₀ : State A} {crypto : Crypto A} {t : Block A}
  {u : Unit} {f : MachineId → Option (SortedVec A)}

/-- The renters in the records are `f`. -/
def Lists (f : MachineId → Option (SortedVec A)) (s : State A) : Prop := s.toProfile.tenants = f

/-! ## Calls -/

theorem profile_lists {ε α : Type} {c : Call (OnlineProfile.State A) ε α}
    (h : Keeps (Shows OnlineProfile.State.tenants f) c) : Keeps (Lists f) (profile c) := by
  intro s hs
  unfold profile
  rw [post_zoom]
  exact (h s.toProfile hs).mono (fun _ _ hp => hp) fun _ _ hp => hp

theorem changeRenterTotalStake_lists (who : A) (amount : Nat) (isAdd : Bool) :
    Keeps (Lists f) (changeRenterTotalStake who amount isAdd) := by
  intro s hs
  unfold changeRenterTotalStake
  simp only [post_step, post_ite]
  exact ⟨fun _ => ⟨fun _ _ => ⟨fun _ _ => hs, fun _ => hs⟩, fun _ => hs⟩,
    fun _ => ⟨fun _ => hs, fun _ => hs⟩⟩

theorem payRentFee_lists (renter : A) (m : MachineId) (stash : A) (fee : Nat) :
    Keeps (Lists f) (payRentFee renter m stash fee) := by
  intro s hs
  unfold payRentFee
  simp only [post_step]
  refine ⟨fun _ _ => ⟨fun toStash _ => ⟨fun _ _ => ⟨fun b _ => ?_, fun _ => hs⟩, fun _ => hs⟩,
    fun _ => hs⟩, fun _ => hs⟩
  have hpaid : Lists f (s.setBalances b) := hs
  exact Keeps.ignore
    (profile_lists (blind_tenants.record.changeMachineRentFee stash m _ toStash)) _ hpaid

theorem returnStake_lists (o : RentOrderDetail A) : Keeps (Lists f) (returnStake o) :=
  Keeps.when (Keeps.ignore (changeRenterTotalStake_lists o.renter o.stakeAmount false))

variable {renter : A} {m : MachineId} {id due gpuNum duration : Nat} {o : RentOrderDetail A}
  {b : Book A} {x : Bool} {l : SortedVec A} {op : Op A}

theorem rentMachineByBlock_lists
    (h : (rentMachineByBlock renter m gpuNum duration).run s = (.ok u, s')) :
    s'.toProfile.tenants = s.toProfile.tenants := by
  unfold rentMachineByBlock at h
  simp only [run_ok] at h
  obtain ⟨i, hi, h⟩ := h
  split at h
  · simp only [run_ok] at h
    rw [h]
  · simp only [run_ok] at h
    obtain ⟨-, -, -, _, s1, hpay, fee, s2, hfee, rentEnd, -, _, s3, hstake, h⟩ := h
    obtain rfl := rentFee_same hfee
    have h1 : Lists s.toProfile.tenants s2 :=
      (profile_lists (blind_tenants.record.payFixedTxFee renter) s rfl).ok hpay
    have h3 : Lists s.toProfile.tenants s3 :=
      (changeRenterTotalStake_lists renter fee true s2 h1).ok hstake
    unfold placeOrder at h
    simp only [run_ok] at h
    obtain ⟨-, _, s4, hstart, rfl⟩ := h
    have h4 : Lists s.toProfile.tenants s4 :=
      (profile_lists (OnlineProfile.changeMachineStatusOnRentStart_tenants m gpuNum _) s3
        h3).ok hstart
    exact h4

theorem confirmRent_lists (h : (confirmRent renter id).run s = (.ok u, s')) :
    ∃ o l, s.book.rentInfo.get id = some o ∧ s.toProfile.tenants o.machineId = some l ∧
      s'.toProfile.tenants = fun x =>
        if x = o.machineId then some (l.addItem o.renter) else s.toProfile.tenants x := by
  unfold confirmRent at h
  simp only [run_ok] at h
  obtain ⟨o, ho, rfl, hw, _, -, -, i, -, -, _, s1, hstake, _, s2, hpay, _, s3, hconf, rfl⟩ := h
  have h1 : Lists s.toProfile.tenants s1 :=
    (changeRenterTotalStake_lists o.renter o.stakeAmount false s rfl).ok hstake
  have h2 : Lists s.toProfile.tenants s2 :=
    (payRentFee_lists o.renter o.machineId i.machineStash o.stakeAmount s1 h1).ok hpay
  rw [profile, run_zoom_ok] at hconf
  obtain ⟨p, hp, rfl⟩ := hconf
  obtain ⟨l, hl, hlisted⟩ :=
    (OnlineProfile.changeMachineStatusOnConfirmed_tenants o.machineId o.renter s2.toProfile).ok hp
  rw [(h2 : s2.toProfile.tenants = _)] at hl hlisted
  exact ⟨o, l, ho, hl, hlisted⟩

theorem reletMachineByBlock_lists
    (h : (reletMachineByBlock renter id duration).run s = (.ok u, s')) :
    s'.toProfile.tenants = s.toProfile.tenants := by
  unfold reletMachineByBlock at h
  simp only [run_ok] at h
  obtain ⟨o, ho, -, -, hr, i, -, maxRentEnd, -, h⟩ := h
  split at h
  · simp only [run_ok] at h
    rw [h]
  · simp only [run_ok] at h
    obtain ⟨fee, s1, hfee, -, _, s2, hpay, rentEnd, hend, rfl⟩ := h
    obtain rfl := rentFee_same hfee
    have h2 : Lists s1.toProfile.tenants s2 :=
      (payRentFee_lists renter o.machineId i.machineStash fee s1 rfl).ok hpay
    exact h2

/-! ## The end of a block -/

theorem expireOne_lists (block id : Nat) : Keeps (Lists f) (expireOne block id) := by
  refine .get fun s hs => .okOr fun o _ => (returnStake_lists o).bind fun _ => ?_
  refine .bind (Keeps.modify fun _ h => h) fun _ => ?_
  exact profile_lists (OnlineProfile.changeMachineStatusOnConfirmExpired_tenants _ _ f)

theorem finishOne_lists (hinv : Inv due s) (ho : s.book.rentInfo.get id = some o)
    (h : (finishOne id).run s = (.ok u, s')) :
    ∃ last l, s.book.isLastRent o.machineId o.renter = some last ∧
      s.toProfile.tenants o.machineId = some l ∧
      s'.toProfile.tenants = fun x => if x = o.machineId then
        some (if last.2 then l.rmItem o.renter else l) else s.toProfile.tenants x := by
  obtain ⟨i, hi, hg⟩ := hinv.live o.machineId ⟨id, o, ho, rfl⟩
  unfold finishOne at h
  simp only [run_ok, run_ignore, ho, some.injEq] at h
  obtain ⟨last, hlast, _, s2, hreturn, rfl⟩ := h
  refine ⟨last, i.renters, hlast, OnlineProfile.tenants_of_machine hi, ?_⟩
  rw [← OnlineProfile.changeMachineStatusOnRentEnd_tenants o.gpuNum (o.rentEnd - o.rentStart)
    last.1 last.2 o.renter hi hg]
  have h2 := (returnStake_lists o _ rfl).ok hreturn
  exact h2

def Book.Lets (b : Book A) (m : MachineId) (r : A) : Prop :=
  ∃ id o, b.rentInfo.get id = some o ∧ o.machineId = m ∧ o.renter = r ∧ o.rentStatus = .renting

/-- **The renters in the records are those of the running orders.** -/
structure Known (s : State A) : Prop where
  placed : ∀ {id o}, s.book.rentInfo.get id = some o →
    o.rentStatus = .waitingVerifying ∨ o.rentStatus = .renting
  renters : ∀ {m l}, s.toProfile.tenants m = some l → ∀ r, r ∈ l ↔ s.book.Lets m r

theorem renter_unique (hb : b.Listed) (h : b.isLastRent m renter = some (x, true)) {id' : Nat}
    {o' : RentOrderDetail A} (ho : b.rentInfo.get id = some o) (ho' : b.rentInfo.get id' = some o')
    (hm : o.machineId = m) (hm' : o'.machineId = m) (hr : o.renter = renter)
    (hr' : o'.renter = renter) : id = id' := by
  unfold Book.isLastRent at h
  obtain ⟨orders, horders, hlast⟩ := map_eq_some_iff.1 h
  rw [Prod.mk.injEq, decide_eq_true_eq] at hlast
  exact eq_of_countP_lt hb horders hlast.2 ho ho' hm hm' (decide_eq_true hr) (decide_eq_true hr')

theorem renter_again (hb : b.Listed) (h : b.isLastRent m renter = some (x, false)) (id : Nat) :
    ∃ id' o, id' ≠ id ∧ b.rentInfo.get id' = some o ∧ o.machineId = m ∧ o.renter = renter := by
  unfold Book.isLastRent at h
  obtain ⟨orders, horders, hlast⟩ := map_eq_some_iff.1 h
  rw [Prod.mk.injEq, decide_eq_false_iff_not] at hlast
  obtain ⟨id', o, hne, ho, hm, hr⟩ := exists_of_le_countP hb horders hlast.2 id
  exact ⟨id', o, hne, ho, hm, of_decide_eq_true hr⟩

/-! ### Calls -/

theorem Known.same (h : Known s) (hb : s'.book = s.book)
    (ht : s'.toProfile.tenants = s.toProfile.tenants) : Known s' := by
  constructor
  · intro id o ho
    rw [hb] at ho
    exact h.placed ho
  · intro m l hl r
    rw [ht] at hl
    rw [hb]
    exact h.renters hl r

theorem Known.relisted (h : Known s) (hinv : Inv due s) (hb : s'.book = s.book)
    (ht : OnlineProfile.Relisted s.toProfile.tenants s'.toProfile.tenants) : Known s' := by
  refine ⟨fun ho => h.placed (hb ▸ ho), ?_⟩
  intro m l hl r
  rw [hb]
  rcases ht with hthin | ⟨m0, hnone, hnew⟩
  · rcases hthin m with hsame | hgone
    · rw [hsame] at hl
      exact h.renters hl r
    · rw [hgone] at hl
      cases hl
  · rw [hnew] at hl
    beta_reduce at hl
    split at hl
    · next hm =>
      subst hm
      cases hl
      constructor
      · intro hr
        exact (notMem_empty hr).elim
      · rintro ⟨id, o, ho, rfl, -, -⟩
        obtain ⟨i, hi, -⟩ := hinv.live o.machineId ⟨id, o, ho, rfl⟩
        have hsome := OnlineProfile.tenants_of_machine hi
        rw [hnone] at hsome
        cases hsome
    · exact h.renters hl r

theorem Known.placed_order (h : Known s) (hp : Placed renter m gpuNum duration s s')
    (hfresh : s.book.rentInfo.get s.book.nextRentId = none)
    (ht : s'.toProfile.tenants = s.toProfile.tenants) : Known s' := by
  obtain ⟨i, fee, -, -, -, hb⟩ := hp.order
  constructor
  · intro id o ho
    rw [hb, Book.get_insertOrder] at ho
    split at ho
    · cases ho
      exact .inl rfl
    · exact h.placed ho
  · intro m' l hl r
    rw [ht] at hl
    rw [h.renters hl r]
    -- the new order does not run yet
    constructor
    · rintro ⟨id, o, ho, hm, hr, hrent⟩
      refine ⟨id, o, ?_, hm, hr, hrent⟩
      rw [hb, Book.get_insertOrder, if_neg]
      · exact ho
      · rintro rfl
        rw [hfresh] at ho
        cases ho
    · rintro ⟨id, o, ho, hm, hr, hrent⟩
      rw [hb, Book.get_insertOrder] at ho
      split at ho
      · cases ho
        cases hrent
      · exact ⟨id, o, ho, hm, hr, hrent⟩

/-- An order that is written as a running one adds its renter, and nobody else. -/
theorem Known.rewritten {o' : RentOrderDetail A} (h : Known s)
    (ho : s.book.rentInfo.get id = some o)
    (hb : s'.book.rentInfo = s.book.rentInfo.insert id o') (hm : o'.machineId = o.machineId)
    (hr : o'.renter = o.renter) (hrent : o'.rentStatus = .renting)
    (ht : ∀ {m l'}, s'.toProfile.tenants m = some l' → ∀ r, r ∈ l' ↔
      (m = o.machineId ∧ r = o.renter) ∨ s.book.Lets m r) : Known s' := by
  have hget : ∀ j, s'.book.rentInfo.get j = if j = id then some o' else s.book.rentInfo.get j := by
    intro j
    rw [hb, get_insert]
  constructor
  · intro j x hx
    rw [hget] at hx
    split at hx
    · cases hx
      exact .inr hrent
    · exact h.placed hx
  · intro m l' hl' r
    rw [ht hl' r]
    constructor
    · rintro (⟨rfl, rfl⟩ | ⟨j, x, hx, rfl, rfl, hxr⟩)
      · exact ⟨id, o', by rw [hget, if_pos rfl], hm, hr, hrent⟩
      · by_cases hj : j = id
        · subst hj
          rw [ho] at hx
          cases hx
          exact ⟨j, o', by rw [hget, if_pos rfl], hm, hr, hrent⟩
        · exact ⟨j, x, by rw [hget, if_neg hj, hx], rfl, rfl, hxr⟩
    · rintro ⟨j, x, hx, rfl, rfl, hxr⟩
      rw [hget] at hx
      split at hx
      · cases hx
        exact .inl ⟨hm, hr⟩
      · exact .inr ⟨j, x, hx, rfl, rfl, hxr⟩

theorem Known.confirmed (o' : RentOrderDetail A) (h : Known s)
    (ho : s.book.rentInfo.get id = some o)
    (hb : s'.book.rentInfo = s.book.rentInfo.insert id o') (hm : o'.machineId = o.machineId)
    (hr : o'.renter = o.renter) (hrent : o'.rentStatus = .renting)
    (hl : s.toProfile.tenants o.machineId = some l)
    (ht : s'.toProfile.tenants = fun x =>
      if x = o.machineId then some (l.addItem o.renter) else s.toProfile.tenants x) : Known s' := by
  refine h.rewritten ho hb hm hr hrent fun {m l'} hl' r => ?_
  rw [ht] at hl'
  beta_reduce at hl'
  split at hl'
  · next hm' =>
    subst hm'
    cases hl'
    rw [mem_addItem, h.renters hl r]
    simp
  · next hm' =>
    rw [h.renters hl' r]
    simp [hm']

theorem Known.prolonged (o' : RentOrderDetail A) (h : Known s)
    (ho : s.book.rentInfo.get id = some o) (hrenting : o.rentStatus = .renting)
    (hb : s'.book.rentInfo = s.book.rentInfo.insert id o') (hm : o'.machineId = o.machineId)
    (hr : o'.renter = o.renter) (hrent : o'.rentStatus = .renting)
    (ht : s'.toProfile.tenants = s.toProfile.tenants) : Known s' := by
  refine h.rewritten ho hb hm hr hrent fun {m l} hl r => ?_
  rw [ht] at hl
  rw [h.renters hl r, or_iff_right_of_imp]
  rintro ⟨rfl, rfl⟩
  exact ⟨id, o, ho, rfl, rfl, hrenting⟩

/-! ### The hook -/

theorem Known.struck_placed (h : Known s) (hs : Struck id o s s') {j : Nat} {x : RentOrderDetail A}
    (hx : s'.book.rentInfo.get j = some x) :
    x.rentStatus = .waitingVerifying ∨ x.rentStatus = .renting := by
  rw [hs.get] at hx
  split at hx
  · cases hx
  · exact h.placed hx

theorem Struck.lets (h : Struck id o s s') (m : MachineId)
    (r : A) : s'.book.Lets m r ↔ ∃ j x, j ≠ id ∧ s.book.rentInfo.get j = some x ∧
      x.machineId = m ∧ x.renter = r ∧ x.rentStatus = .renting := by
  constructor
  · rintro ⟨j, x, hx, hm⟩
    rw [h.get] at hx
    split at hx
    · cases hx
    · next hne => exact ⟨j, x, hne, hx, hm⟩
  · rintro ⟨j, x, hne, hx, hm⟩
    exact ⟨j, x, by rw [h.get, if_neg hne, hx], hm⟩

theorem Known.expired (h : Known s) (hs : Struck id o s s') (hw : o.rentStatus = .waitingVerifying)
    (ht : s'.toProfile.tenants = s.toProfile.tenants) : Known s' := by
  refine ⟨h.struck_placed hs, ?_⟩
  intro m l hl r
  rw [ht] at hl
  rw [h.renters hl r, hs.lets]
  constructor
  · rintro ⟨j, x, hx, hm, hr, hrent⟩
    refine ⟨j, x, ?_, hx, hm, hr, hrent⟩
    rintro rfl
    rw [hs.order] at hx
    cases hx
    rw [hw] at hrent
    cases hrent
  · rintro ⟨j, x, -, hx⟩
    exact ⟨j, x, hx⟩

/-- **An order that is over** takes its renter along, unless another order of the renter runs. -/
theorem Known.finished (h : Known s) (hinv : Inv due s)
    (hs : Struck id o s s') (hrent : o.rentStatus = .renting) {last : Bool × Bool}
    (hlast : s.book.isLastRent o.machineId o.renter = some last)
    (hl : s.toProfile.tenants o.machineId = some l)
    (ht : s'.toProfile.tenants = fun x => if x = o.machineId then
      some (if last.2 then l.rmItem o.renter else l) else s.toProfile.tenants x)
    (hother : last.2 = false → ∃ j x, j ≠ id ∧ s.book.rentInfo.get j = some x ∧
      x.machineId = o.machineId ∧ x.renter = o.renter ∧ x.rentStatus = .renting) : Known s' := by
  obtain ⟨first, only⟩ := last
  refine ⟨h.struck_placed hs, ?_⟩
  intro m l' hl' r
  rw [ht] at hl'
  beta_reduce at hl'
  rw [hs.lets]
  -- only the renter of the order, and only at its machine, can have lost its last order
  have helse : m ≠ o.machineId ∨ r ≠ o.renter →
      (s.book.Lets m r ↔ ∃ j x, j ≠ id ∧ s.book.rentInfo.get j = some x ∧
        x.machineId = m ∧ x.renter = r ∧ x.rentStatus = .renting) := by
    intro hor
    constructor
    · rintro ⟨j, x, hx, rfl, rfl, hxr⟩
      refine ⟨j, x, ?_, hx, rfl, rfl, hxr⟩
      rintro rfl
      rw [hs.order] at hx
      cases hx
      rcases hor with hne | hne <;> exact hne rfl
    · rintro ⟨j, x, -, hx⟩
      exact ⟨j, x, hx⟩
  split at hl'
  · next hm =>
    subst hm
    cases only with
    | true =>
      cases hl'
      rw [if_pos rfl, mem_rmItem, h.renters hl r]
      by_cases hr : r = o.renter
      · subst hr
        constructor
        · rintro ⟨hne, -⟩
          exact (hne rfl).elim
        · rintro ⟨j, x, hne, hx, hxm, hxr, -⟩
          exact (hne (renter_unique hinv.listed hlast hx hs.order hxm rfl hxr rfl)).elim
      · rw [← helse (.inr hr)]
        simp [hr]
    | false =>
      cases hl'
      rw [if_neg Bool.false_ne_true, h.renters hl r]
      by_cases hr : r = o.renter
      · subst hr
        constructor
        · intro _
          exact hother rfl
        · intro _
          exact ⟨id, o, hs.order, rfl, rfl, hrent⟩
      · exact helse (.inr hr)
  · next hm =>
    rw [h.renters hl' r]
    exact helse (.inl hm)

/-- If a running order ends now, its renter has another one of the machine that runs on, or none
that waits for longer. -/
def EndsClean (s : State A) : Prop :=
  ∀ id o, s.book.rentInfo.get id = some o → o.rentStatus = .renting → o.rentEnd = s.now →
    (∃ id' o', s.book.rentInfo.get id' = some o' ∧ o'.machineId = o.machineId ∧
      o'.renter = o.renter ∧ o'.rentStatus = .renting ∧ o'.rentEnd ≠ s.now) ∨
    ∀ id' o', s.book.rentInfo.get id' = some o' → o'.machineId = o.machineId →
      o'.renter = o.renter → o'.rentStatus = .waitingVerifying → o'.confirmEnd = s.now

/-- In the middle of the hook that started in `s₀`: what runs on is still there. -/
structure Underway (s₀ s : State A) : Prop where
  known : Known s
  running : ∀ {id o}, s₀.book.rentInfo.get id = some o → o.rentStatus = .renting →
    o.rentEnd ≠ s₀.now → s.book.rentInfo.get id = some o

theorem onFinalize_known (hc : EndsClean s) (hinv : Inv s.now s) (h : Known s) :
    Known s.onFinalize := by
  have hunderway : Underway s s := ⟨h, fun ho _ _ => ho⟩
  refine (onFinalize_rule hinv hunderway ?_ ?_).1.known
  · intro s1 s2 id o hmid hinv hrun hs hw
    refine ⟨hmid.known.expired hs hw ((expireOne_lists s.now id s1 rfl).ok hrun),
      hs.running hmid.running fun hr => ?_⟩
    rw [hw] at hr
    cases hr
  · intro s2 s3 id o hstrikes hgone hmid hinv hrun hs hend hw
    have hrent := (hmid.known.placed hs.order).resolve_left hw
    obtain ⟨last, l', hlast, hl, ht⟩ := finishOne_lists hinv hs.order hrun
    refine ⟨hmid.known.finished hinv hs hrent hlast hl ht ?_, hs.running hmid.running fun _ => hend⟩
    intro hmore
    obtain ⟨first, only⟩ := last
    subst hmore
    obtain ⟨j, x, hne, hx, hxm, hxr⟩ := renter_again hinv.listed hlast id
    rcases hmid.known.placed hx with hxw | hxrent
    · -- the other order waits: then one that runs on is the reason to keep the renter
      have hrun' := hc id o (hstrikes.get hs.order) hrent hend
      rcases hrun' with ⟨k, z, hz, hzm, hzr, hzrent, hzend⟩ | hwait
      · refine ⟨k, z, ?_, hmid.running hz hzrent hzend, hzm, hzr, hzrent⟩
        rintro rfl
        rw [hstrikes.get hs.order] at hz
        cases hz
        exact hzend hend
      · exact (hgone j x hx hxw (hwait j x (hstrikes.get hx) hxm hxr hxw)).elim
    · exact ⟨j, x, hne, hx, hxm, hxr, hxrent⟩

/-! ## Runs -/

/-- A machine with orders keeps its record, and no running order ends while its renter waits for
another one. -/
def RentersCounted (t : Block A) : Op A → Prop
  | .endBlock => EndsClean t.state
  | op => KeepsRented t op

theorem RentersCounted.keeps (h : RentersCounted t op) : KeepsRented t op := by
  cases op with
  | endBlock => trivial
  | _ => exact h

theorem apply_known (hinv : Inv t.due t.state) (h : Known t.state) (hp : op.Possible t)
    (hc : RentersCounted t op) : Known (apply crypto t op).state := by
  cases op with
  | profile op =>
    exact h.relisted hinv rfl (OnlineProfile.apply_tenants crypto t.state.toProfile op)
  | rentMachine renter m gpuNum duration =>
    refine dispatch_keeps (I := Known) h fun _ s' hr => ?_
    rcases rentMachineByBlock_ok hr with rfl | hplaced
    · exact h
    · exact h.placed_order hplaced hinv.listed.fresh (rentMachineByBlock_lists hr)
  | confirmRent renter id =>
    refine dispatch_keeps (I := Known) h fun _ s' hr => ?_
    obtain ⟨o, ho, -, hb, -⟩ := (confirmRent_ok hr).order
    obtain ⟨o', l, ho', hl, ht⟩ := confirmRent_lists hr
    rw [ho] at ho'
    cases ho'
    exact h.confirmed (o.confirmed t.state.now) ho (by rw [hb]; rfl) rfl rfl rfl hl ht
  | reletMachine renter id duration =>
    refine dispatch_keeps (I := Known) h fun _ s' hr => ?_
    have ht := reletMachineByBlock_lists hr
    rcases reletMachineByBlock_ok hr with rfl | ⟨o, rentEnd, ho, hrent, -, hb, -⟩
    · exact h
    · exact h.prolonged (o.setRentEnd rentEnd) ho hrent (by rw [hb]; rfl) rfl rfl hrent ht
  | setRentFeePot pot => exact h.same rfl rfl
  | endBlock =>
    rw [Block.due, if_neg (Bool.eq_false_iff.1 hp)] at hinv
    exact onFinalize_known hc hinv h
  | nextBlock =>
    have hs := (startBlock_same t.state).2
    refine h.same hs.book (funext fun m => ?_)
    have hm := congrArg (Option.map (·.renters)) (hs.machine m)
    exact hm

theorem reach_known (ht : (orderSystem crypto).Reach RentersCounted t) :
    Inv t.due t.state ∧ Known t.state := by
  refine ht.invariant (I := fun t => Inv t.due t.state ∧ Known t.state) ?_ ?_
  · rintro t ⟨hinit, hnone⟩
    refine ⟨init_inv hinit, ?_, ?_⟩
    · intro id o ho
      rw [hinit.2.1] at ho
      cases ho
    · intro m l hl r
      obtain ⟨i, hi, -⟩ := map_eq_some_iff.1 hl
      rw [hnone m] at hi
      cases hi
  · rintro t op _ ⟨hinv, h⟩ hc ⟨hp, rfl⟩
    exact ⟨apply_inv crypto hinv hp hc.keeps, apply_known hinv h hp hc⟩

/-- **The renters of a machine are those of its running orders** in every run in which a machine
with orders keeps its record, and no running order ends while its renter waits for another one. -/
theorem renters_current (crypto : Crypto A) (t : Block A)
    (ht : (orderSystem crypto).Reach RentersCounted t) (m : MachineId) (i : MachineInfo A)
    (hi : t.state.machine m = some i) (r : A) :
    r ∈ i.renters ↔ ∃ id o, t.state.book.rentInfo.get id = some o ∧ o.machineId = m ∧
      o.renter = r ∧ o.rentStatus = .renting :=
  (reach_known ht).2.renters (OnlineProfile.tenants_of_machine hi) r

end

open RosterDemo in
theorem renters_current_confirmed :
    ∃ i, confirmed.state.machine machineId = some i ∧ i.renters.toList = [3] ∧
      ∀ r, r ∈ i.renters ↔ ∃ id o, confirmed.state.book.rentInfo.get id = some o ∧
        o.machineId = machineId ∧ o.renter = r ∧ o.rentStatus = .renting := by
  have hfree : ∀ t : Block Nat, t.state.book = .empty → ¬ t.state.book.Rents machineId := by
    rintro t he ⟨id, o, ho, -⟩
    rw [he] at ho
    cases ho
  have hrented : (orderSystem crypto).Reach RentersCounted (after (bring ++ rent)) := by
    refine reach_orders ⟨⟨trivial, trivial⟩, ⟨trivial, trivial⟩, ⟨trivial, trivial⟩,
      ⟨trivial, trivial⟩, ⟨trivial, trivial⟩, ⟨trivial, trivial⟩, ⟨trivial, trivial⟩,
      ⟨trivial, trivial⟩, ⟨trivial, ?_⟩, ⟨rfl, ?_⟩, trivial⟩
    · intro hR
      exact (hfree _ rfl hR).elim
    · show (_ : Nat) ≤ u32Max
      decide +kernel
  have hreach : (orderSystem crypto).Reach RentersCounted confirmed :=
    hrented.step (i := .confirmRent 3 0) trivial ⟨rfl, rfl⟩
  have hlist : (confirmed.state.machine machineId).map (·.renters.toList) = some [3] := by
    decide +kernel
  obtain ⟨i, hi, hr⟩ := map_eq_some_iff.1 hlist
  exact ⟨i, hi, hr, renters_current crypto confirmed hreach machineId i hi⟩

open RosterDemo in
/-- When the running order of account 3 ends, the account stays listed, since its second order
waits; the machine is online, and no order of it runs. -/
theorem listed_without_running_order :
    ∃ t : Block Nat, (orderSystem crypto).Reach (fun _ op => op.undisturbing = true) t ∧
      t.ended = true ∧
      (t.state.machine machineId).map (fun i => (i.machineStatus, i.renters.toList)) =
        some (.online, [3]) ∧
      ¬ ∃ id o, t.state.book.rentInfo.get id = some o ∧ o.machineId = machineId ∧
        o.renter = 3 ∧ o.rentStatus = .renting := by
  refine ⟨apply crypto ending .endBlock, ending_reach.step (i := .endBlock) rfl ⟨rfl, rfl⟩, rfl, ?_,
    ?_⟩
  · decide +kernel
  · rintro ⟨id, o, ho, -, -, hr⟩
    have hall : (apply crypto ending .endBlock).state.book.rentInfo.iter.map
        (fun x => x.2.rentStatus) = [.waitingVerifying] := by decide +kernel
    have hmem : o.rentStatus ∈ (apply crypto ending .endBlock).state.book.rentInfo.iter.map
        (fun x => x.2.rentStatus) :=
      List.mem_map.2 ⟨(id, o), mem_iter.2 ho, rfl⟩
    rw [hall, List.mem_singleton, hr] at hmem
    cases hmem

end DeepBrainChain.RentMachine
