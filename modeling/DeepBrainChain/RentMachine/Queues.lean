import DeepBrainChain.OnlineProfile.Ops
import DeepBrainChain.RentMachine.Calls

/-!
# The queues of rent-machine

`Inv due` is the invariant of the order book: its lists are exact, no order is overdue at the
block `due`, the count of rented cards of a machine is the demand of its orders, and every machine
with an order has a record with cards. The calls keep it; the hook at the end of the block `due`
takes it to `due + 1`, since under the invariant neither of its two loops can stop early.
-/

namespace DeepBrainChain.RentMachine

open Lib GenericFunc Support Lib.Call StorageMap List
open OnlineProfile (Events onlyQuiet onlyQuiet_spares Rental Touch Quiet HasCards Label)

section

variable {A : Type} [LinearOrder A] {s s' s'' : State A} {u : Unit} {due : Nat}

/-! ## What the calls do

One lemma a call: which order it writes into the book, and what it does to online-profile on the
way. Payments are `Side` effects: they leave the book alone and cause only quiet events. -/

section Steps

/-- Payments and other changes that leave the book alone. -/
structure Side (s s' : State A) : Prop where
  book : s'.book = s.book
  duration : s'.maximumRentalDuration = s.maximumRentalDuration
  events : Events onlyQuiet s.toProfile s'.toProfile

theorem Side.refl (s : State A) : Side s s := ⟨rfl, rfl, Events.refl _⟩

theorem Side.trans (h : Side s s') (h' : Side s' s'') : Side s s'' :=
  ⟨h'.book.trans h.book, h'.duration.trans h.duration, h.events.trans h'.events⟩

theorem Side.of_quiet (hb : s'.book = s.book)
    (hd : s'.maximumRentalDuration = s.maximumRentalDuration)
    (hq : Quiet s.toProfile s'.toProfile) : Side s s' := ⟨hb, hd, hq.events rfl⟩

theorem profile_side {p : OnlineProfile.State A} (h : Events onlyQuiet s.toProfile p) :
    Side s (s.setProfile p) := ⟨rfl, rfl, h⟩

theorem payFixedTxFee_side {who : A}
    (h : (profile (OnlineProfile.payFixedTxFee who)).run s = (.ok u, s')) : Side s s' := by
  rw [profile, run_zoom_ok] at h
  obtain ⟨p, hp, rfl⟩ := h
  exact profile_side ((OnlineProfile.payFixedTxFee_quiet hp).events rfl)

theorem changeRenterTotalStake_post (who : A) (amount : Nat) (isAdd : Bool) :
    Post (changeRenterTotalStake who amount isAdd) s (fun _ s' => Side s s')
      (fun _ s' => Side s s') := by
  have hset : ∀ b, Side s (s.setBalances b) := fun b => .of_quiet rfl rfl ⟨rfl, rfl, rfl, rfl⟩
  unfold changeRenterTotalStake
  simp only [post_step, post_ite]
  refine ⟨fun _ => ⟨fun b _ => ⟨fun new _ => ?_, fun _ => hset b⟩, fun _ => Side.refl s⟩,
    fun _ => ⟨fun _ => ?_, fun _ => Side.refl s⟩⟩
  · exact .of_quiet rfl rfl ⟨rfl, rfl, rfl, rfl⟩
  · exact .of_quiet rfl rfl ⟨rfl, rfl, rfl, rfl⟩

variable {renter : A} {m : MachineId} {id fee gpuNum duration : Nat}

theorem payRentFee_side {stash : A}
    (h : (payRentFee renter m stash fee).run s = (.ok u, s')) : Side s s' := by
  unfold payRentFee at h
  simp only [run_ok, run_ignore] at h
  obtain ⟨_, _, _, _, _, _, b, _, rfl⟩ := h
  have hpaid : Side s (s.setBalances b) := .of_quiet rfl rfl ⟨rfl, rfl, rfl, rfl⟩
  refine hpaid.trans (profile_side ?_)
  exact Post.storage (I := Events onlyQuiet _) (OnlineProfile.changeMachineRentFee_events ..)

theorem rentFee_same {i : MachineInfo A}
    (h : (rentFee i gpuNum duration).run s = (.ok fee, s')) : s' = s := by
  unfold rentFee at h
  simp only [run_ok] at h
  obtain ⟨_, _, _, _, _, rfl⟩ := h
  rfl

/-! ## The calls -/

/-- An order was entered: the payments led to `p`, and the machine was then marked as rented. -/
structure Placed (renter : A) (m : MachineId) (gpuNum duration : Nat) (s s' : State A) : Prop where
  next : s.book.rentInfo.get (Book.succId s.book.nextRentId) = none
  length : s'.maximumRentalDuration = s.maximumRentalDuration
  halfHours : duration ≠ 0 ∧ duration % halfHour = 0
  order : ∃ i fee, s.machine m = some i ∧ 0 < i.gpuNum ∧
    wrappingAdd u32Max gpuNum (s.machines.rentedGpu m) ≤ i.gpuNum ∧
    s'.book = s.book.insertOrder (.new m renter s.now
      (min duration (saturatingMul u32Max s.maximumRentalDuration oneDay) + s.now) fee gpuNum
      ((s.book.machineOrders m).genRentableGpu gpuNum i.gpuNum).1)
      ((s.book.machineOrders m).genRentableGpu gpuNum i.gpuNum).2
  rental : ∃ p i, Events onlyQuiet s.toProfile p ∧
    Rental m (saturatingAdd u32Max (p.machines.rentedGpu m) gpuNum) i (i.setStatus .rented) p
      s'.toProfile

theorem Placed.now (h : Placed renter m gpuNum duration s s') : s'.now = s.now := by
  obtain ⟨p, i, hquiet, hrental⟩ := h.rental
  exact hrental.now.trans hquiet.now

/-- **`rent_machine_by_block`** does nothing or enters an order. -/
theorem rentMachineByBlock_ok
    (h : (rentMachineByBlock renter m gpuNum duration).run s = (.ok u, s')) :
    s' = s ∨ Placed renter m gpuNum duration s s' := by
  unfold rentMachineByBlock at h
  simp only [run_ok] at h
  obtain ⟨i, hi, h⟩ := h
  split at h
  · simp only [run_ok] at h
    exact .inl h.symm
  · next hz =>
    obtain ⟨hg, hd⟩ := not_or.1 hz
    simp only [run_ok] at h
    obtain ⟨hroom, hhalf, -, _, s1, hpay, fee, s2, hfee, rentEnd, hend, _, s3, hstake, h⟩ := h
    obtain rfl := rentFee_same hfee
    have hside : Side s s3 :=
      (payFixedTxFee_side hpay).trans ((changeRenterTotalStake_post ..).ok hstake)
    unfold placeOrder at h
    simp only [run_ok, profile, run_zoom_ok] at h
    obtain ⟨hnext, _, _, ⟨p, hstart, rfl⟩, rfl⟩ := h
    obtain ⟨i0, hrental, -⟩ := (OnlineProfile.changeMachineStatusOnRentStart_post ..).ok hstart
    obtain ⟨-, rfl⟩ := checkedAdd_eq_some.1 hend
    have hnow : p.now = s.now := hrental.now.trans hside.events.now
    rw [hside.book] at hnext
    refine .inr ⟨hnext, hside.duration, ⟨hd, hhalf⟩, ⟨i, fee, hi, by omega, hroom, ?_⟩,
      ⟨s3.toProfile, i0, hside.events, hrental⟩⟩
    show s3.book.insertOrder (.new m renter p.now _ fee gpuNum _) _ = _
    rw [hside.book, hnow]

/-- A waiting order was confirmed: the book has it renting, and its machine was told. -/
structure ConfirmedOrder (id : Nat) (s s' : State A) : Prop where
  length : s'.maximumRentalDuration = s.maximumRentalDuration
  order : ∃ o, s.book.rentInfo.get id = some o ∧ o.rentStatus = .waitingVerifying ∧
    s'.book = s.book.confirmOrder id o s.now ∧
    ∃ p i, Events onlyQuiet s.toProfile p ∧ p.machine o.machineId = some i ∧
      Touch o.machineId (some (OnlineProfile.State.confirmedBy i o.renter)) p s'.toProfile

theorem ConfirmedOrder.now (h : ConfirmedOrder id s s') : s'.now = s.now := by
  obtain ⟨o, -, -, -, p, i, hquiet, -, htouch⟩ := h.order
  exact htouch.now.trans hquiet.now

/-- **`confirm_rent`** confirms a waiting order. -/
theorem confirmRent_ok (h : (confirmRent renter id).run s = (.ok u, s')) :
    ConfirmedOrder id s s' := by
  unfold confirmRent at h
  simp only [run_ok, profile, run_zoom_ok] at h
  obtain ⟨o, ho, rfl, hw, _, -, -, i, -, -, _, s1, hstake, _, s2, hpay, _, _, ⟨p, hconf, rfl⟩,
    rfl⟩ := h
  have hside : Side s s2 :=
    ((changeRenterTotalStake_post ..).ok hstake).trans (payRentFee_side hpay)
  obtain ⟨i0, hi0, htouch, -⟩ := (OnlineProfile.changeMachineStatusOnConfirmed_post ..).ok hconf
  refine ⟨hside.duration, o, ho, hw, ?_, s2.toProfile, i0, hside.events, hi0, htouch⟩
  show s2.book.confirmOrder id o p.now = _
  rw [hside.book, htouch.now, hside.events.now]

/-- **`relet_machine_by_block`** does nothing or prolongs a running order. -/
theorem reletMachineByBlock_ok (h : (reletMachineByBlock renter id duration).run s = (.ok u, s')) :
    s' = s ∨ ∃ o rentEnd, s.book.rentInfo.get id = some o ∧ o.rentStatus = .renting ∧
      o.rentEnd ≤ rentEnd ∧ s'.book = s.book.prolongOrder id o rentEnd ∧
      s'.maximumRentalDuration = s.maximumRentalDuration ∧
      Events onlyQuiet s.toProfile s'.toProfile := by
  unfold reletMachineByBlock at h
  simp only [run_ok] at h
  obtain ⟨o, ho, -, -, hr, i, -, maxRentEnd, -, h⟩ := h
  split at h
  · simp only [run_ok] at h
    exact .inl h.symm
  · simp only [run_ok] at h
    obtain ⟨fee, s1, hfee, -, _, s2, hpay, rentEnd, hend, rfl⟩ := h
    obtain rfl := rentFee_same hfee
    obtain ⟨-, hle⟩ := checkedAdd_eq_some.1 hend
    have hside := payRentFee_side hpay
    refine .inr ⟨o, rentEnd, ho, hr, by omega, ?_, hside.duration, hside.events⟩
    show s2.book.prolongOrder id o rentEnd = _
    rw [hside.book]

theorem returnStake_run (o : RentOrderDetail A) (s : State A) :
    ∃ s', (returnStake o).run s = (.ok (), s') ∧ Side s s' := by
  unfold returnStake when
  rw [run_ite]
  split
  · exact ⟨_, rfl, Post.storage (I := Side s) (changeRenterTotalStake_post ..)⟩
  · exact ⟨s, rfl, Side.refl s⟩

end Steps

/-! ## The invariant -/

def Book.Rents (b : Book A) (m : MachineId) : Prop :=
  ∃ id o, b.rentInfo.get id = some o ∧ o.machineId = m

/-- An order is not overdue at the block `due`, and is confirmed before it ends or never. -/
def RentOrderDetail.Timely (due : Nat) (o : RentOrderDetail A) : Prop :=
  due ≤ o.rentEnd ∧
    (o.rentStatus = .waitingVerifying → due ≤ o.confirmEnd ∧ o.confirmEnd < o.rentEnd)

/-- **The invariant of the order book.** -/
structure Inv (due : Nat) (s : State A) : Prop where
  listed : s.book.Listed
  timely : ∀ {id o}, s.book.rentInfo.get id = some o → o.Timely due
  rented : ∀ m, s.machines.rentedGpu m = s.book.demand m
  live : HasCards s.book.Rents (fun _ g => 0 < g) s.toProfile
  length : 1 ≤ s.maximumRentalDuration

theorem Inv.events {L : Label → Prop} (h : Inv due s) (hb : s'.book = s.book)
    (hd : s'.maximumRentalDuration = s.maximumRentalDuration)
    (he : Events L s.toProfile s'.toProfile)
    (hL : ∀ l, L l → l.spares s.book.Rents fun _ g => 0 < g) : Inv due s' where
  listed := hb ▸ h.listed
  timely := hb ▸ h.timely
  rented m := by rw [he.rentedGpu, hb, h.rented]
  live := hb ▸ h.live.events he hL
  length := hd ▸ h.length

theorem Inv.side (h : Inv due s) (hs : Side s s') : Inv due s' :=
  h.events hs.book hs.duration hs.events onlyQuiet_spares

/-! ## Calls -/

variable {m : MachineId} {renter : A} {id block gpuNum duration : Nat} {o : RentOrderDetail A}
  {s₀ : State A} {P : State A → Prop}

omit [LinearOrder A] in
theorem timely_new {length fee now : Nat} {cards : List Nat}
    (hd : duration ≠ 0 ∧ duration % halfHour = 0) (hl : 1 ≤ length) :
    (RentOrderDetail.new m renter now
      (min duration (saturatingMul u32Max length oneDay) + now) fee gpuNum cards).Timely now := by
  have hlong : 300 ≤ duration := by
    unfold halfHour oneMinute at hd
    omega
  have hday : 14400 ≤ saturatingMul u32Max length oneDay := by
    unfold saturatingMul u32Max oneDay oneHour oneMinute
    omega
  refine ⟨Nat.le_add_left _ _, fun _ => ⟨Nat.le_add_right _ _, ?_⟩⟩
  show now + waitingConfirmingDelay < _ + now
  unfold waitingConfirmingDelay oneMinute
  omega

theorem Inv.placed (h : Inv s.now s) (hp : Placed renter m gpuNum duration s s')
    (hfit : gpuNum + s.machines.rentedGpu m ≤ u32Max) : Inv s.now s' := by
  obtain ⟨i, fee, hi, hg, -, hb⟩ := hp.order
  obtain ⟨p, i0, hquiet, hrental⟩ := hp.rental
  refine ⟨?_, fun {id o} ho => ?_, fun m' => ?_, ?_, hp.length ▸ h.length⟩
  · rw [hb]
    exact h.listed.insertOrder rfl hp.next rfl
  · rw [hb, Book.get_insertOrder] at ho
    split at ho
    · cases ho
      exact timely_new hp.halfHours h.length
    · exact h.timely ho
  · rw [hrental.rented, hb, Book.demand_insertOrder h.listed.fresh, hquiet.rentedGpu,
      hquiet.rentedGpu, h.rented m']
    have hm := h.rented m
    unfold saturatingAdd
    show _ = (if m = m' then gpuNum else 0) + _
    split
    · next e =>
      subst e
      rw [if_pos rfl]
      omega
    · next e =>
      rw [if_neg (Ne.symm e), Nat.zero_add]
  · -- the machine of the new order has a record, and so have the others
    have hK : HasCards (fun m' => m' = m ∨ s.book.Rents m') (fun _ g => 0 < g) s.toProfile := by
      rintro m' (rfl | hm')
      · exact ⟨i, hi, hg⟩
      · exact h.live m' hm'
    refine ((hK.events hquiet onlyQuiet_spares).rental hrental).mono ?_
    rintro m' ⟨id, o, ho, rfl⟩
    rw [hb, Book.get_insertOrder] at ho
    split at ho
    · cases ho
      exact .inl rfl
    · exact .inr ⟨id, o, ho, rfl⟩

theorem Inv.rewrite (h : Inv due s) (o' : RentOrderDetail A) (ho : s.book.rentInfo.get id = some o)
    (hb : s'.book.rentInfo = s.book.rentInfo.insert id o') (hlisted : s'.book.Listed)
    (hm : o'.machineId = o.machineId) (hg : o'.gpuNum = o.gpuNum) (htimely : o'.Timely due)
    (hlen : s'.maximumRentalDuration = s.maximumRentalDuration)
    (hrented : ∀ m, s'.machines.rentedGpu m = s.machines.rentedGpu m)
    (hcards : HasCards s.book.Rents (fun _ g => 0 < g) s'.toProfile) : Inv due s' := by
  refine ⟨hlisted, fun {j x} hx => ?_, fun m => ?_, hcards.mono ?_, hlen ▸ h.length⟩
  · rw [hb, get_insert] at hx
    split at hx
    · cases hx
      exact htimely
    · exact h.timely hx
  · rw [hrented, h.rented, Book.demand_rewrite hb ho hm hg]
  · rintro m ⟨j, x, hx, rfl⟩
    rw [hb, get_insert] at hx
    split at hx
    · cases hx
      exact ⟨id, o, ho, hm.symm⟩
    · exact ⟨j, x, hx, rfl⟩

theorem Inv.confirmed (h : Inv due s) (hc : ConfirmedOrder id s s') : Inv due s' := by
  obtain ⟨o, ho, hw, hb, p, i, hquiet, hi, htouch⟩ := hc.order
  have hp : HasCards s.book.Rents (fun _ g => 0 < g) p :=
    h.live.events hquiet onlyQuiet_spares
  refine h.rewrite (o.confirmed s.now) ho (by rw [hb]; rfl) ?_ rfl rfl
    ⟨(h.timely ho).1, fun hwait => ?_⟩ hc.length (fun m => ?_) (hp.touch htouch fun hm => ?_)
  · rw [hb]
    exact h.listed.confirmOrder ho hw s.now
  · cases hwait
  · unfold OnlineProfile.Machines.rentedGpu
    rw [htouch.rented, hquiet.frame.2]
  · obtain ⟨j, hj, hpos⟩ := hp _ hm
    rw [hi] at hj
    cases hj
    exact ⟨_, rfl, hpos⟩

theorem Inv.relet {rentEnd : Nat} (h : Inv due s) (ho : s.book.rentInfo.get id = some o)
    (hr : o.rentStatus = .renting) (hle : o.rentEnd ≤ rentEnd)
    (hb : s'.book = s.book.prolongOrder id o rentEnd)
    (hlen : s'.maximumRentalDuration = s.maximumRentalDuration)
    (he : Events onlyQuiet s.toProfile s'.toProfile) : Inv due s' := by
  refine h.rewrite (o.setRentEnd rentEnd) ho (by rw [hb]; rfl) ?_ rfl rfl
    ⟨(h.timely ho).1.trans hle, fun hwait => ?_⟩ hlen he.rentedGpu
    (h.live.events he onlyQuiet_spares)
  · rw [hb]
    exact h.listed.prolongOrder ho rentEnd
  · have hwait' : o.rentStatus = .waitingVerifying := hwait
    rw [hr] at hwait'
    cases hwait'

/-! ## The end of a block -/

/-- An order was struck out: its cards are returned, and every machine keeps its record. -/
structure Struck (id : Nat) (o : RentOrderDetail A) (s s' : State A) : Prop where
  order : s.book.rentInfo.get id = some o
  info : s'.book.rentInfo = s.book.rentInfo.remove id
  orders : ∀ m, s'.book.machineOrders m = (s.book.removeOrder id o).machineOrders m
  listed : s'.book.Listed
  now : s'.now = s.now
  length : s'.maximumRentalDuration = s.maximumRentalDuration
  rented : ∀ m, s'.machines.rentedGpu m =
    s.machines.rentedGpu m - if o.machineId = m then o.gpuNum else 0
  cards : ∀ K P, HasCards K P s.toProfile → HasCards K P s'.toProfile

/-- Orders were struck out, one after another. -/
def Strikes : State A → State A → Prop :=
  Relation.ReflTransGen fun s s' => ∃ id o, Struck id o s s'

theorem Struck.get (h : Struck id o s s') (j : Nat) :
    s'.book.rentInfo.get j = if j = id then none else s.book.rentInfo.get j := by
  rw [h.info, get_remove]

theorem Struck.mem {K : Type} (h : Struck id o s s') {listed listed' : K → Nat → Prop}
    {key : RentOrderDetail A → Option K} (hx : Exact s.book.rentInfo.get listed key)
    (hx' : Exact s'.book.rentInfo.get listed' key) (k : K)
    (j : Nat) : listed' k j ↔ listed k j ∧ j ≠ id := by
  rw [hx' k j, hx k j, h.get]
  by_cases hj : j = id <;> simp [hj]

theorem Inv.struck (h : Inv due s) (hs : Struck id o s s') : Inv due s' := by
  refine ⟨hs.listed, fun {j x} hx => ?_, fun m => ?_, (hs.cards _ _ h.live).mono ?_,
    hs.length ▸ h.length⟩
  · rw [hs.get] at hx
    split at hx
    · cases hx
    · exact h.timely hx
  · have hd : s'.book.demand m = s.book.demand m - if o.machineId = m then o.gpuNum else 0 := by
      unfold Book.demand
      rw [hs.info]
      exact Book.demand_removeOrder hs.order m
    rw [hs.rented, h.rented, hd]
  · rintro m ⟨j, x, hx, rfl⟩
    rw [hs.get] at hx
    split at hx
    · cases hx
    · exact ⟨j, x, hx, rfl⟩

/-- **One round of the first loop** strikes out an order whose wait is over. -/
theorem expireOne_run (h : Inv due s) (hid : id ∈ s.book.confirmingOrder.bucket block) :
    ∃ s' o, (expireOne block id).run s = (.ok (), s') ∧ Struck id o s s' ∧
      o.rentStatus = .waitingVerifying := by
  obtain ⟨o, ho, hkey⟩ := (h.listed.confirming block id).1 hid
  have hw : o.rentStatus = .waitingVerifying := by
    by_contra hw
    rw [RentOrderDetail.confirmKey, if_neg hw] at hkey
    cases hkey
  rw [RentOrderDetail.confirmKey, if_pos hw, Option.some.injEq] at hkey
  subst hkey
  obtain ⟨s1, hret, hside⟩ := returnStake_run o s
  obtain ⟨i, hi, -⟩ := (h.side hside).live o.machineId ⟨id, o, hside.book ▸ ho, rfl⟩
  obtain ⟨i', p, hrun, hrental, -⟩ :=
    OnlineProfile.changeMachineStatusOnConfirmExpired_run o.gpuNum hi
  refine ⟨(s1.mapBook fun b => (b.rmConfirming o.confirmEnd id).removeOrder id o).setProfile p, o,
    ?_, ⟨ho, ?_, fun m => ?_, ?_, hrental.now.trans hside.events.now, hside.duration, fun m => ?_,
      fun K P hK => (hK.events hside.events onlyQuiet_spares).rental hrental⟩, hw⟩
  · unfold expireOne
    rw [run_bind_of_ok (run_get s), ho, run_bind_of_ok (run_okOr_some o _ s), run_bind_of_ok hret,
      run_bind_of_ok (run_modify _ s1), profile, run_zoom]
    exact congrArg (fun r => (r.1, State.setProfile r.2 _)) hrun
  · exact congrArg (fun b => b.rentInfo.remove id) hside.book
  · exact congrArg (fun b => (b.removeOrder id o).machineOrders m) hside.book
  · show ((s1.book.rmConfirming o.confirmEnd id).removeOrder id o).Listed
    rw [hside.book]
    exact h.listed.expireOrder ho hw
  · exact (hrental.rented_sub m).trans (by rw [hside.events.rentedGpu])

theorem mapM_isSome {α β : Type} {f : α → Option β} {l : List α}
    (h : ∀ a ∈ l, ∃ b, f a = some b) : ∃ r, l.mapM f = some r := by
  induction l with
  | nil => exact ⟨[], rfl⟩
  | cons a l ih =>
    obtain ⟨b, hb⟩ := h a mem_cons_self
    obtain ⟨r, hr⟩ := ih fun a' ha' => h a' (mem_cons_of_mem a ha')
    exact ⟨b :: r, by simp [mapM_cons, hb, hr]⟩

theorem isLastRent_isSome {b : Book A} (h : b.Listed) (m : MachineId) (renter : A) :
    ∃ r, b.isLastRent m renter = some r := by
  have hall : ∀ id ∈ (b.machineOrders m).rentOrder.toList, ∃ o, b.rentInfo.get id = some o := by
    intro id hid
    obtain ⟨o, ho, -⟩ := (h.machine m id).1 hid
    exact ⟨o, ho⟩
  obtain ⟨orders, horders⟩ := mapM_isSome hall
  unfold Book.isLastRent
  rw [horders]
  exact ⟨_, rfl⟩

/-- **One round of the second loop** strikes out an order that is over. -/
theorem finishOne_run (h : Inv due s) (ho : s.book.rentInfo.get id = some o)
    (hw : o.rentStatus ≠ .waitingVerifying) :
    ∃ s', (finishOne id).run s = (.ok (), s') ∧ Struck id o s s' := by
  obtain ⟨last, hlast⟩ := isLastRent_isSome h.listed o.machineId o.renter
  obtain ⟨i, hi, hg⟩ := h.live o.machineId ⟨id, o, ho, rfl⟩
  obtain ⟨i', p, hrun, hrental, -⟩ := OnlineProfile.changeMachineStatusOnRentEnd_run o.gpuNum
    (o.rentEnd - o.rentStart) last.1 last.2 o.renter hi hg
  have hend : (ignore (profile (OnlineProfile.changeMachineStatusOnRentEnd o.machineId o.gpuNum
      (o.rentEnd - o.rentStart) last.1 last.2 o.renter)) : Call (State A) Unit Unit).run s =
      (.ok (), s.setProfile p) := by
    rw [run_ignore, profile, run_zoom, hrun]
  obtain ⟨s1, hret, hside⟩ := returnStake_run o (s.setProfile p)
  refine ⟨s1.mapBook fun b => b.removeOrder id o, ?_, ⟨ho, ?_, fun m => ?_, ?_,
    hside.events.now.trans hrental.now, hside.duration, fun m => ?_,
    fun K P hK => (hK.rental hrental).events hside.events onlyQuiet_spares⟩⟩
  · unfold finishOne
    rw [run_bind_of_ok (run_get s), ho, run_bind_of_ok (run_okOr_some o _ s), hlast,
      run_bind_of_ok (run_okOr_some last _ s), run_bind_of_ok hend, run_bind_of_ok hret, run_modify]
  · exact congrArg (fun b => b.rentInfo.remove id) hside.book
  · exact congrArg (fun b => (b.removeOrder id o).machineOrders m) hside.book
  · show (s1.book.removeOrder id o).Listed
    rw [hside.book]
    exact h.listed.removeOrder ho hw
  · exact (hside.events.rentedGpu m).trans (hrental.rented_sub m)

/-- In the middle of a loop over a bucket: what is left of the bucket is what is left to do. -/
structure Sweep (s₀ : State A) (block : Nat) (bucket : Book A → SortedVec Nat) (l : List Nat)
    (s : State A) : Prop where
  strikes : Strikes s₀ s
  inv : Inv block s
  todo : ∀ id, id ∈ bucket s.book ↔ id ∈ l
  nodup : l.Nodup

theorem Sweep.next {bucket : Book A → SortedVec Nat} {l : List Nat}
    (h : Sweep s₀ block bucket (id :: l) s) (hs : Struck id o s s')
    (hb : ∀ j, j ∈ bucket s'.book ↔ j ∈ bucket s.book ∧ j ≠ id) : Sweep s₀ block bucket l s' := by
  obtain ⟨hid, hl⟩ := nodup_cons.1 h.nodup
  refine ⟨h.strikes.tail ⟨id, o, hs⟩, h.inv.struck hs, fun j => ?_, hl⟩
  rw [hb, h.todo, mem_cons]
  constructor
  · rintro ⟨rfl | hj, hne⟩
    · exact absurd rfl hne
    · exact hj
  · exact fun hj => ⟨.inr hj, fun e => hid (e ▸ hj)⟩

theorem Strikes.now (h : Strikes s s') : s'.now = s.now := by
  induction h with
  | refl => rfl
  | tail _ hs ih =>
    obtain ⟨_, _, hs⟩ := hs
    exact hs.now.trans ih

theorem Strikes.get (h : Strikes s s')
    (ho : s'.book.rentInfo.get id = some o) : s.book.rentInfo.get id = some o := by
  induction h with
  | refl => exact ho
  | tail _ hs ih =>
    obtain ⟨_, _, hs⟩ := hs
    rw [hs.get] at ho
    split at ho
    · cases ho
    · exact ih ho

/-- **The first loop** empties its bucket, and keeps what its rounds keep. -/
theorem checkMachineStartingStatus_run (h : Inv block s)
    (hP : P s) (hexpire : ∀ {s1 s2 id o}, P s1 → Inv block s1 → (expireOne block id).run s1 = (.ok
      (), s2) → Struck id o s1 s2 → o.rentStatus = .waitingVerifying → P s2) :
    ∃ s', (checkMachineStartingStatus block).run s = (.ok (), s') ∧
      Sweep s block (fun b => b.confirmingOrder.bucket block) [] s' ∧ P s' := by
  unfold checkMachineStartingStatus
  rw [run_bind_of_ok (run_get s)]
  refine run_forEach
    (I := fun l s' => Sweep s block (fun b => b.confirmingOrder.bucket block) l s' ∧ P s')
    (fun id l s1 h1 => ?_) ⟨⟨.refl, h, fun id => Iff.rfl, SortedVec.nodup _⟩, hP⟩
  obtain ⟨h1, hP1⟩ := h1
  obtain ⟨s2, o, hrun, hs, hw⟩ := expireOne_run h1.inv ((h1.todo id).2 mem_cons_self)
  exact ⟨s2, hrun, h1.next hs (hs.mem h1.inv.listed.confirming hs.listed.confirming block),
    hexpire hP1 h1.inv hrun hs hw⟩

/-- **The second loop** empties its bucket, and keeps what its rounds keep. -/
theorem checkIfRentFinished_run (h : Inv block s) (hP : P s)
    (hfinish : ∀ {s1 s2 id o}, Strikes s s1 → P s1 → Inv block s1 → (finishOne id).run s1 = (.ok (),
      s2) → Struck id o s1 s2 → o.rentEnd = block → o.rentStatus ≠ .waitingVerifying → P s2) :
    ∃ s', (checkIfRentFinished block).run s = (.ok (), s') ∧
      Sweep s block (fun b => b.rentEnding.bucket block) [] s' ∧ P s' := by
  unfold checkIfRentFinished
  rw [run_bind_of_ok (run_get s)]
  refine run_forEach
    (I := fun l s' => Sweep s block (fun b => b.rentEnding.bucket block) l s' ∧ P s')
    (fun id l s1 h1 => ?_) ⟨⟨.refl, h, fun id => Iff.rfl, SortedVec.nodup _⟩, hP⟩
  obtain ⟨h1, hP1⟩ := h1
  obtain ⟨o, ho, hend⟩ := (h1.inv.listed.ending block id).1 ((h1.todo id).2 mem_cons_self)
  rw [Option.some.injEq] at hend
  -- an order that still waited would have to be confirmed before this block
  have hw : o.rentStatus ≠ .waitingVerifying := by
    intro hw
    have hlate := (h1.inv.timely ho).2 hw
    omega
  obtain ⟨s2, hrun, hs⟩ := finishOne_run h1.inv ho hw
  exact ⟨s2, hrun, h1.next hs (hs.mem h1.inv.listed.ending hs.listed.ending block),
    hfinish h1.strikes hP1 h1.inv hrun hs hend hw⟩

theorem Sweep.none_waits {n due : Nat} {s1 : State A}
    (h : Sweep s due (fun b => b.confirmingOrder.bucket n) [] s1) (id : Nat) (o : RentOrderDetail A)
    (ho : s1.book.rentInfo.get id = some o) (hw : o.rentStatus = .waitingVerifying) :
    o.confirmEnd ≠ n := by
  intro e
  have hmem : id ∈ s1.book.confirmingOrder.bucket n := by
    refine h.inv.listed.confirming.listed_of ho ?_
    rw [RentOrderDetail.confirmKey, if_pos hw, e]
  exact not_mem_nil ((h.todo id).1 hmem)

/-- **The rule of the hook**: it strikes out the orders that are due, first those whose wait is
over, and keeps what every such round keeps. -/
theorem onFinalize_rule (h : Inv s.now s) (hP : P s)
    (hexpire : ∀ {s1 s2 id o}, P s1 → Inv s.now s1 → (expireOne s.now id).run s1 = (.ok (), s2) →
      Struck id o s1 s2 → o.rentStatus = .waitingVerifying → P s2)
    (hfinish : ∀ {s1 s2 id o}, Strikes s s1 →
      (∀ id o, s1.book.rentInfo.get id = some o → o.rentStatus = .waitingVerifying →
        o.confirmEnd ≠ s.now) → P s1 → Inv s.now s1 → (finishOne id).run s1 = (.ok (), s2) →
      Struck id o s1 s2 → o.rentEnd = s.now → o.rentStatus ≠ .waitingVerifying → P s2) :
    P s.onFinalize ∧ Strikes s s.onFinalize ∧ Inv s.now s.onFinalize ∧
      ∀ id o, s.onFinalize.book.rentInfo.get id = some o → o.rentEnd ≠ s.now ∧
        (o.rentStatus = .waitingVerifying → o.confirmEnd ≠ s.now) := by
  obtain ⟨s1, hrun1, h1, hP1⟩ := checkMachineStartingStatus_run h hP hexpire
  obtain ⟨s2, hrun2, h2, hP2⟩ := checkIfRentFinished_run h1.inv hP1 fun hstrikes =>
    hfinish (h1.strikes.trans hstrikes) fun id o ho => h1.none_waits id o (hstrikes.get ho)
  have hfin : s.onFinalize = s2 := by
    unfold State.onFinalize
    rw [hrun1]
    simp only
    rw [h1.strikes.now, hrun2]
  rw [hfin]
  refine ⟨hP2, h1.strikes.trans h2.strikes, h2.inv, fun id o ho => ⟨fun e => ?_, ?_⟩⟩
  · have hmem : id ∈ s2.book.rentEnding.bucket s.now :=
      h2.inv.listed.ending.listed_of ho (congrArg some e)
    exact not_mem_nil ((h2.todo id).1 hmem)
  · exact h1.none_waits id o (h2.strikes.get ho)

/-- **The hook settles everything that is due**: it strikes out orders, and none that is left ends
or waits for its confirmation at this block. -/
theorem onFinalize_spec (h : Inv s.now s) :
    Inv (s.now + 1) s.onFinalize ∧ Strikes s s.onFinalize := by
  obtain ⟨-, hstrikes, hinv, hleft⟩ := onFinalize_rule (P := fun _ => True) h trivial
    (fun _ _ _ _ _ => trivial) fun _ _ _ _ _ _ _ _ => trivial
  refine ⟨⟨hinv.listed, fun {id o} ho => ?_, hinv.rented, hinv.live, hinv.length⟩, hstrikes⟩
  obtain ⟨hend, hwait⟩ := hinv.timely ho
  obtain ⟨hne, hne'⟩ := hleft id o ho
  refine ⟨by omega, fun hw => ?_⟩
  obtain ⟨hconf, hlt⟩ := hwait hw
  have := hne' hw
  exact ⟨by omega, hlt⟩

/-- What runs on after the block of the hook is still there after a round. -/
theorem Struck.running (hs : Struck id o s s')
    (h : ∀ {id o}, s₀.book.rentInfo.get id = some o → o.rentStatus = .renting →
      o.rentEnd ≠ s₀.now → s.book.rentInfo.get id = some o)
    (ho : o.rentStatus = .renting → o.rentEnd = s₀.now) {j : Nat}
    {x : RentOrderDetail A} (hx : s₀.book.rentInfo.get j = some x) (hr : x.rentStatus = .renting)
    (hend : x.rentEnd ≠ s₀.now) : s'.book.rentInfo.get j = some x := by
  have hat := h hx hr hend
  rw [hs.get, if_neg]
  · exact hat
  · rintro rfl
    rw [hs.order] at hat
    cases hat
    exact hend (ho hr)

/-! ## Which order holds which card

The cards in use on a machine are divided among its orders, and every card is one the machine has.
The search for free cards always finds enough, since the cards in use are as many as the orders ask
for. -/

def State.CardsOf (s : State A) (m : MachineId) (g : Nat) : Prop :=
  ∃ i, s.machine m = some i ∧ g = i.gpuNum

/-- **Every card in use belongs to one order**, and to a machine that has it. -/
structure Divided (s : State A) : Prop where
  cards : s.book.Cards
  bound : ∀ {id o i j}, s.book.rentInfo.get id = some o → s.machine o.machineId = some i →
    j ∈ o.gpuIndex → j < i.gpuNum

theorem Inv.cardsOf (h : Inv due s) : HasCards s.book.Rents s.CardsOf s.toProfile := by
  intro m hm
  obtain ⟨i, hi, -⟩ := h.live m hm
  exact ⟨i, hi, i, hi, rfl⟩

/-- The orders hold cards they held before, on machines with as many cards as before. -/
theorem Divided.keep (h : Divided s) (hc : s'.book.Cards)
    (hb : ∀ {id o'}, s'.book.rentInfo.get id = some o' → ∃ o, s.book.rentInfo.get id = some o ∧
      o'.machineId = o.machineId ∧ o'.gpuIndex = o.gpuIndex)
    (hm : HasCards s.book.Rents s.CardsOf s'.toProfile) : Divided s' := by
  refine ⟨hc, fun {id o' i' j} ho' hi' hj => ?_⟩
  obtain ⟨o, ho, hmachine, hindex⟩ := hb ho'
  obtain ⟨i, hi, i0, hi0, hg⟩ := hm o.machineId ⟨id, o, ho, rfl⟩
  have hi'' : s'.machine o.machineId = some i' := hmachine ▸ hi'
  rw [hi] at hi''
  cases hi''
  rw [hg]
  exact h.bound ho hi0 (hindex ▸ hj)

omit [LinearOrder A] in
theorem Book.Cards.congr {b b' : Book A} (h : b.Cards) (hi : b'.rentInfo = b.rentInfo)
    (ho : ∀ m, b'.machineOrders m = b.machineOrders m) : b'.Cards where
  used m j := by rw [ho, hi, h.used]
  disjoint := hi ▸ h.disjoint
  nodup := hi ▸ h.nodup
  count := hi ▸ h.count
  usedCount m := by
    unfold Book.demand
    rw [ho, hi]
    exact h.usedCount m

theorem Divided.events {L : Label → Prop} (h : Divided s) (hinv : Inv due s)
    (hb : s'.book = s.book) (he : Events L s.toProfile s'.toProfile)
    (hL : ∀ l, L l → l.spares s.book.Rents s.CardsOf) : Divided s' := by
  refine h.keep (hb ▸ h.cards) (fun {id o} ho => ?_) (hinv.cardsOf.events he hL)
  rw [hb] at ho
  exact ⟨o, ho, rfl, rfl⟩

theorem Divided.placed {renter : A} {m : MachineId} {gpuNum duration : Nat} (h : Divided s)
    (hinv : Inv due s) (hp : Placed renter m gpuNum duration s s')
    (hfit : gpuNum + s.machines.rentedGpu m ≤ u32Max) : Divided s' := by
  obtain ⟨i, fee, hi, -, hroom, hb⟩ := hp.order
  obtain ⟨p, i0, hquiet, hrental⟩ := hp.rental
  -- the cards in use are those the orders of the machine ask for
  have hfree : gpuNum + (s.book.machineOrders m).usedGpu.length ≤ i.gpuNum := by
    rw [h.cards.usedCount, ← hinv.rented, ← wrappingAdd_of_le hfit]
    exact hroom
  obtain ⟨hnodup, hlen, hnew, hused, hcount⟩ :=
    MachineGPUOrder.genRentableGpu_spec (s.book.machineOrders m) gpuNum i.gpuNum hfree
  have hK : HasCards (fun m' => m' = m ∨ s.book.Rents m') s.CardsOf s.toProfile := by
    rintro m' (rfl | hm')
    · exact ⟨i, hi, i, hi, rfl⟩
    · exact hinv.cardsOf m' hm'
  have hK' := (hK.events hquiet onlyQuiet_spares).rental hrental
  refine ⟨?_, fun {id o i' j} ho hi' hj => ?_⟩
  · rw [hb]
    exact h.cards.insertOrder hinv.listed.fresh hnodup hlen (fun j hj => (hnew j hj).2) hused hcount
  · have hsame : ∀ {g}, s.CardsOf o.machineId g → (o.machineId = m ∨ s.book.Rents o.machineId) →
        i'.gpuNum = g := by
      rintro g ⟨x, hx, rfl⟩ hm
      obtain ⟨y, hy, x', hx', hg⟩ := hK' _ hm
      rw [hi'] at hy
      rw [hx] at hx'
      cases hy
      cases hx'
      exact hg
    rw [hb, Book.get_insertOrder] at ho
    split at ho
    · cases ho
      rw [hsame ⟨i, hi, rfl⟩ (.inl rfl)]
      exact (hnew j hj).1
    · obtain ⟨x, hx, -⟩ := hinv.live o.machineId ⟨id, o, ho, rfl⟩
      rw [hsame ⟨x, hx, rfl⟩ (.inr ⟨id, o, ho, rfl⟩)]
      exact h.bound ho hx hj

variable {id : Nat} {o : RentOrderDetail A}

theorem Divided.rewrite (h : Divided s) (o' : RentOrderDetail A)
    (ho : s.book.rentInfo.get id = some o) (hb : s'.book.rentInfo = s.book.rentInfo.insert id o')
    (horders : ∀ m, s'.book.machineOrders m = s.book.machineOrders m)
    (hm : o'.machineId = o.machineId) (hg : o'.gpuNum = o.gpuNum) (hi : o'.gpuIndex = o.gpuIndex)
    (hcards : HasCards s.book.Rents s.CardsOf s'.toProfile) : Divided s' := by
  refine h.keep (h.cards.rewrite hb horders ho hm hg hi) (fun {j x} hx => ?_) hcards
  rw [hb, StorageMap.get_insert] at hx
  split at hx
  · next e =>
    subst e
    cases hx
    exact ⟨o, ho, hm, hi⟩
  · exact ⟨x, hx, rfl, rfl⟩

theorem Divided.confirmed (h : Divided s) (hinv : Inv due s)
    (hc : ConfirmedOrder id s s') : Divided s' := by
  obtain ⟨o, ho, -, hb, p, i, hquiet, hi, htouch⟩ := hc.order
  have hp : HasCards s.book.Rents s.CardsOf p := hinv.cardsOf.events hquiet onlyQuiet_spares
  refine h.rewrite (o.confirmed s.now) ho (by rw [hb]; rfl) (fun m => by rw [hb]; rfl)
    rfl rfl rfl (hp.touch htouch fun hm => ?_)
  obtain ⟨j, hj, hg⟩ := hp _ hm
  rw [hi] at hj
  cases hj
  exact ⟨_, rfl, hg⟩

theorem Divided.relet {rentEnd : Nat} (h : Divided s) (hinv : Inv due s)
    (ho : s.book.rentInfo.get id = some o) (hb : s'.book = s.book.prolongOrder id o rentEnd)
    (he : Events onlyQuiet s.toProfile s'.toProfile) : Divided s' :=
  h.rewrite (o.setRentEnd rentEnd) ho (by rw [hb]; rfl) (fun m => by rw [hb]; rfl) rfl rfl rfl
    (hinv.cardsOf.events he onlyQuiet_spares)

theorem Divided.struck (h : Divided s) (hinv : Inv due s) (hs : Struck id o s s') : Divided s' := by
  have hc : (s.book.removeOrder id o).Cards := h.cards.removeOrder hs.order
  refine h.keep (hc.congr hs.info hs.orders) (fun {j x} hx => ?_) (hs.cards _ _ hinv.cardsOf)
  rw [hs.get] at hx
  split at hx
  · cases hx
  · exact ⟨x, hx, rfl, rfl⟩

theorem Divided.strikes (h : Divided s) (hinv : Inv due s) (hs : Strikes s s') : Divided s' := by
  have hboth : Inv due s' ∧ Divided s' := by
    induction hs with
    | refl => exact ⟨hinv, h⟩
    | tail _ hstep ih =>
      obtain ⟨id, o, hstep⟩ := hstep
      exact ⟨ih.1.struck hstep, ih.2.struck ih.1 hstep⟩
  exact hboth.2

end

end DeepBrainChain.RentMachine
