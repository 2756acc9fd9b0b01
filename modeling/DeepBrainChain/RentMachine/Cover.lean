import DeepBrainChain.RentMachine.Run

/-!
# Prolonged orders of rent-machine

Whatever duration a renter asks for, an order that `relet_machine` prolongs ends sixty days from
now at the latest, its renter pays for the blocks that were added, and it is listed under its new
end and under no other block. The list of ends is exact in every run: no operation on machines
touches it.
-/

namespace DeepBrainChain.RentMachine

open Lib GenericFunc Support Lib.Call StorageMap Balances Option
open OnlineProfile (Crypto)

section

variable {A : Type} [LinearOrder A] {s s' : State A}

/-! ## The list of ends -/

/-- **The list of ends is exact**, and the next identifier is free. -/
structure Book.Ends (b : Book A) : Prop where
  ending : Exact b.rentInfo.get (fun n id => id ∈ b.rentEnding.bucket n) fun o => some o.rentEnd
  fresh : b.rentInfo.get b.nextRentId = none

section Ends

variable {b : Book A} {id : Nat} {o : RentOrderDetail A}

theorem Book.Ends.insertOrder {orders : MachineGPUOrder} (h : b.Ends)
    (hnext : b.rentInfo.get (Book.succId b.nextRentId) = none) :
    (b.insertOrder o orders).Ends where
  ending := by
    refine h.ending.insert h.fresh Book.get_insertOrder fun k j => ?_
    show j ∈ (b.rentEnding.addTo o.rentEnd b.nextRentId).bucket k ↔ _
    rw [Index.mem_addTo, some.injEq, eq_comm]
  fresh := by
    show (b.insertOrder o orders).rentInfo.get (Book.succId b.nextRentId) = none
    rw [Book.get_insertOrder, if_neg (Book.succId_ne _), hnext]

section

omit [LinearOrder A]

theorem Book.Ends.fresh_rewrite (h : b.Ends) (ho : b.rentInfo.get id = some o)
    (o' : RentOrderDetail A) : (b.rentInfo.insert id o').get b.nextRentId = none := by
  rw [get_insert_ne, h.fresh]
  rintro rfl
  rw [h.fresh] at ho
  cases ho

theorem Book.Ends.confirmOrder (h : b.Ends) (ho : b.rentInfo.get id = some o) (now : Nat) :
    (b.confirmOrder id o now).Ends where
  ending := h.ending.rewrite ho (Book.get_confirmAs (o.confirmed now)) rfl
  fresh := h.fresh_rewrite ho _

theorem Book.Ends.prolongOrder (h : b.Ends) (ho : b.rentInfo.get id = some o) (rentEnd : Nat) :
    (b.prolongOrder id o rentEnd).Ends where
  ending := by
    refine h.ending.replace ho (Book.get_prolongAs (o.setRentEnd rentEnd)) fun k j => ?_
    show j ∈ ((b.rentEnding.rmFrom o.rentEnd id).addTo rentEnd id).bucket k ↔ _
    rw [Index.mem_addTo, Index.mem_rmFrom]
    simp [eq_comm, RentOrderDetail.setRentEnd]
  fresh := h.fresh_rewrite ho _

end

theorem Book.Ends.removeOrder (h : b.Ends) (ho : b.rentInfo.get id = some o) :
    (b.removeOrder id o).Ends where
  ending := by
    refine h.ending.erase ho (Book.get_removeOrder b id o) fun k j => ?_
    show j ∈ (b.rentEnding.rmFrom o.rentEnd id).bucket k ↔ _
    rw [Index.mem_rmFrom, some.injEq, eq_comm (a := k)]
  fresh := by
    show (b.removeOrder id o).rentInfo.get b.nextRentId = none
    rw [Book.get_removeOrder, h.fresh, ite_self]

end Ends

theorem profile_book {ε α : Type} (c : Call (OnlineProfile.State A) ε α) (b : Book A) :
    Keeps (fun s => s.book = b) (profile c) := by
  intro s hs
  unfold profile
  rw [post_zoom]
  exact (post_true c s.toProfile).mono (fun _ _ _ => hs) fun _ _ _ => hs

theorem returnStake_book (o : RentOrderDetail A) (b : Book A) :
    Keeps (fun s => s.book = b) (returnStake o) := by
  refine .when (Keeps.ignore ?_)
  intro s hs
  exact (changeRenterTotalStake_post ..).mono (fun _ _ h => h.book.trans hs)
    fun _ _ h => h.book.trans hs

theorem expireOne_ends (block id : Nat) :
    Keeps (fun s : State A => s.book.Ends) (expireOne block id) := by
  intro s hs
  unfold expireOne
  simp only [post_step]
  refine ⟨?_, fun _ => hs⟩
  intro o ho
  have hback : ∀ s1 : State A, s1.book = s.book → s1.book.Ends := by
    intro s1 hb
    rw [hb]
    exact hs
  refine (returnStake_book o s.book s rfl).mono (fun _ s1 hb => ?_) fun _ s1 hb => hback s1 hb
  have hends : ((s1.book.rmConfirming block id).removeOrder id o).Ends := by
    rw [hb]
    exact Book.Ends.removeOrder (b := s.book.rmConfirming block id) ⟨hs.ending, hs.fresh⟩ ho
  exact (profile_book _ _ _ rfl).mono (fun _ s2 h2 => by rw [h2]; exact hends)
    fun _ s2 h2 => by rw [h2]; exact hends

theorem finishOne_ends (id : Nat) : Keeps (fun s : State A => s.book.Ends) (finishOne id) := by
  intro s hs
  unfold finishOne
  simp only [post_step, post_ignore]
  refine ⟨?_, fun _ => hs⟩
  intro o ho
  refine ⟨?_, fun _ => hs⟩
  intro last _
  have hround : ∀ s1 : State A, s1.book = s.book → Post (returnStake o) s1
      (fun _ s2 => ((s2.mapBook fun b => b.removeOrder id o).book).Ends)
      (fun _ s2 => s2.book.Ends) := by
    intro s1 hb
    refine (returnStake_book o s.book s1 hb).mono (fun _ s2 h2 => ?_) fun _ s2 h2 => ?_
    · show (s2.book.removeOrder id o).Ends
      rw [h2]
      exact hs.removeOrder ho
    · rw [h2]
      exact hs
  exact (profile_book _ s.book s rfl).mono (fun _ s1 hb => hround s1 hb) fun _ s1 hb => hround s1 hb

theorem onFinalize_ends (hs : s.book.Ends) : s.onFinalize.book.Ends := by
  have hfirst : Keeps (fun s : State A => s.book.Ends) (checkMachineStartingStatus s.now) :=
    Keeps.get fun s1 _ => .forEach fun id _ => expireOne_ends s.now id
  have hsecond : ∀ block, Keeps (fun s : State A => s.book.Ends) (checkIfRentFinished block) :=
    fun block => .get fun s1 _ => .forEach fun id _ => finishOne_ends id
  exact (hsecond _).run (hfirst.run hs)

/-- **The list of ends is exact in every run.** -/
theorem reach_ends {crypto : Crypto A} {t : Block A}
    (ht : (system crypto).Reach (fun _ _ => True) t) : t.state.book.Ends := by
  refine ht.invariant (I := fun t => t.state.book.Ends) ?_ ?_
  · rintro t ⟨-, hb, -, -⟩
    rw [hb]
    exact ⟨Book.Listed.empty.ending, Book.Listed.empty.fresh⟩
  · rintro t op _ h - ⟨-, rfl⟩
    cases op with
    | profile op => exact h
    | rentMachine renter m gpuNum duration =>
      refine dispatch_keeps (I := fun s => s.book.Ends)
        (c := rentMachineByBlock renter m gpuNum duration) h fun _ s' hr => ?_
      rcases rentMachineByBlock_ok hr with rfl | hplaced
      · exact h
      · obtain ⟨i, fee, -, -, -, hb⟩ := hplaced.order
        rw [hb]
        exact h.insertOrder hplaced.next
    | confirmRent renter id =>
      refine dispatch_keeps (I := fun s => s.book.Ends) (c := RentMachine.confirmRent renter id) h
        fun _ s' hr => ?_
      obtain ⟨o, ho, -, hb, -⟩ := (confirmRent_ok hr).order
      rw [hb]
      exact h.confirmOrder ho _
    | reletMachine renter id duration =>
      refine dispatch_keeps (I := fun s => s.book.Ends)
        (c := reletMachineByBlock renter id duration) h fun _ s' hr => ?_
      rcases reletMachineByBlock_ok hr with rfl | ⟨o, rentEnd, ho, -, -, hb, -⟩
      · exact h
      · rw [hb]
        exact h.prolongOrder ho rentEnd
    | setRentFeePot pot => exact h
    | endBlock => exact onFinalize_ends h
    | nextBlock => exact h

/-! ## What a prolongation costs -/

def State.wealth (s : State A) (x : A) : Nat := (s.balances.account x).total

/-- The accounts have what `w` says. -/
def Holds (w : A → Nat) (s : OnlineProfile.State A) : Prop :=
  ∀ x, (s.balances.account x).total = w x

theorem total_reserve {b b' : Balances A} {who : A} {value : Nat}
    (h : b.reserve who value = some b') (x : A) : (b'.account x).total = (b.account x).total := by
  obtain ⟨hreserved, hfree, hle⟩ := reserve_eq_some h
  have hr := hreserved x
  have hf := hfree x
  show b'.free x + b'.reserved x = b.free x + b.reserved x
  rw [hr, hf]
  split
  · next hx =>
    subst hx
    omega
  · omega

theorem changeStake_holds (w : A → Nat) (who : A) (amount : Nat) :
    Keeps (Holds w) (OnlineProfile.changeStake who amount true) := by
  refine .get fun s hs => .okOr fun stake _ => .okOr fun b hb => .set ?_
  intro x
  exact (total_reserve hb x).trans (hs x)

theorem fulfillOne_holds (w : A → Nat) (m : MachineId) (left : Nat) :
    Keeps (Holds w) (OnlineProfile.fulfillOne m left) := by
  refine .get fun s _ => ?_
  split
  · exact .pure _
  · refine .okOr fun perGpu _ => .okOr fun need _ => ?_
    refine .ite (Keeps.pure _) (Keeps.ite ?_ ?_) <;>
    · refine (changeStake_holds w _ _).bind fun _ => .bind ?_ fun _ => .pure _
      exact .modify fun _ h => h

theorem fulfillLoop_holds (w : A → Nat) (l : List MachineId) (left : Nat) :
    Keeps (Holds w) (OnlineProfile.fulfillLoop l left) := by
  induction l generalizing left with
  | nil => exact .pure ()
  | cons m l ih =>
    refine (fulfillOne_holds w m left).bind fun r => ?_
    cases r with
    | none => exact .pure ()
    | some left => exact ih left

theorem changeMachineRentFee_holds (w : A → Nat) (stash : A) (m : MachineId)
    (feeToDestroy feeToStash : Nat) :
    Keeps (Holds w) (OnlineProfile.changeMachineRentFee stash m feeToDestroy feeToStash) := by
  refine .bind (Keeps.get fun s _ => fulfillLoop_holds w _ _) fun _ => ?_
  exact .get fun s hs => .okOr fun i _ => .set hs

/-- The renter paid `fee`: the pot got its share and the stash the rest. -/
def Paid (renter stash : A) (fee : Nat) (s s' : State A) : Prop :=
  ∃ pot, s.rentFeePot = some pot ∧ ∃ toStash toPot, toStash + toPot = fee ∧
    toPot = s.grades.rentFeeDestroyPercent.mul fee ∧
    ∀ x, s'.wealth x + (if x = renter then fee else 0) =
      s.wealth x + (if x = stash then toStash else 0) + if x = pot then toPot else 0

theorem total_transfer {b b' : Balances A} {source dest : A} {value : Nat}
    (h : b.transfer source dest value = some b') (x : A) :
    (b'.account x).total + (if x = source then value else 0) =
      (b.account x).total + if x = dest then value else 0 := by
  have hfree := transfer_free h x
  have hreserved := transfer_reserved h x
  show b'.free x + b'.reserved x + _ = b.free x + b.reserved x + _
  omega

theorem payRentFee_paid {renter stash : A} {m : MachineId} {fee : Nat} {u : Unit}
    (h : (payRentFee renter m stash fee).run s = (.ok u, s')) : Paid renter stash fee s s' := by
  unfold payRentFee at h
  simp only [run_ok, run_ignore] at h
  obtain ⟨pot, hpot, toStash, hsplit, b1, hfirst, b2, hsecond, rfl⟩ := h
  obtain ⟨hle, rfl⟩ := checkedSub_eq_some.1 hsplit
  refine ⟨pot, hpot, _, _, Nat.sub_add_cancel hle, rfl, ?_⟩
  intro x
  have hkept : ((profile (OnlineProfile.changeMachineRentFee stash m
      (s.grades.rentFeeDestroyPercent.mul fee)
      (fee - s.grades.rentFeeDestroyPercent.mul fee))).run (s.setBalances b2)).2.wealth x =
      (b2.account x).total :=
    (changeMachineRentFee_holds (fun x => (b2.account x).total) _ _ _ _).run (fun _ => rfl) x
  rw [hkept]
  have h1 := total_transfer hfirst x
  have h2 := total_transfer hsecond x
  unfold State.wealth
  by_cases hx : x = renter
  · rw [if_pos hx] at h1 h2 ⊢
    omega
  · rw [if_neg hx] at h1 h2 ⊢
    omega

/-! ## The call -/

def State.rentPrice (s : State A) (i : MachineInfo A) (gpuNum duration : Nat) : Option Nat :=
  (s.getMachinePrice i.calcPoint gpuNum i.gpuNum).bind fun price =>
    s.dbcPrice (price * duration / oneDay)

theorem rentFee_ok {i : MachineInfo A} {gpuNum duration fee : Nat}
    (h : (rentFee i gpuNum duration).run s = (.ok fee, s')) :
    s' = s ∧ s.rentPrice i gpuNum duration = some fee := by
  unfold rentFee at h
  simp only [run_ok] at h
  obtain ⟨price, hprice, value, hvalue, hfee, rfl⟩ := h
  obtain ⟨-, rfl⟩ := checkedMul_eq_some.1 hvalue
  refine ⟨rfl, ?_⟩
  unfold State.rentPrice
  rw [hprice, bind_some, hfee]

/-- The order was prolonged until `rentEnd`, was paid for, and is listed under its new end. -/
structure Relet (renter : A) (id rentEnd : Nat) (o : RentOrderDetail A) (s s' : State A) :
    Prop where
  later : o.rentEnd < rentEnd
  order : s'.book.rentInfo.get id = some (o.setRentEnd rentEnd)
  paid : ∃ i fee, s.machine o.machineId = some i ∧
    s.rentPrice i o.gpuNum (rentEnd - o.rentEnd) = some fee ∧
    Paid renter i.machineStash fee s s'
  ending : ∀ k, id ∈ s'.book.rentEnding.bucket k ↔ k = rentEnd

/-- The end of a prolonged order, whether the sum the code compares wraps or not. -/
theorem reletDuration_spec {now rentEnd duration : Nat} (hmax : now + 60 * oneDay ≤ u32Max)
    (hpos : reletDuration (now + 60 * oneDay) rentEnd duration ≠ 0)
    (hadd : rentEnd + reletDuration (now + 60 * oneDay) rentEnd duration ≤ u32Max) :
    rentEnd + reletDuration (now + 60 * oneDay) rentEnd duration =
      min (rentEnd + duration) (now + 60 * oneDay) := by
  unfold reletDuration at hpos hadd ⊢
  split at hadd
  · next hle =>
    rw [if_pos hle]
    rw [wrappingAdd_of_le hadd] at hle
    omega
  · next hgt =>
    rw [if_neg hgt] at hpos ⊢
    have hlong : now + 60 * oneDay < rentEnd + duration := by
      by_contra hshort
      apply hgt
      rw [wrappingAdd_of_le (by omega)]
      omega
    omega

/-- **A prolonged order ends sixty days from now at the latest**, at the end its renter asked for
if that is earlier; the added blocks are paid for at their price, and the order is listed under its
new end only. -/
theorem relet_capped_and_paid {crypto : Crypto A} {t : Block A}
    (ht : (system crypto).Reach (fun _ _ => True) t) {renter : A} {id duration : Nat}
    {o : RentOrderDetail A} (ho : t.state.book.rentInfo.get id = some o) {u : Unit}
    (h : (reletMachineByBlock renter id duration).run t.state = (.ok u, s')) :
    s' = t.state ∨
      Relet renter id (min (o.rentEnd + duration) (t.state.now + 60 * oneDay)) o t.state s' := by
  have hends := reach_ends ht
  unfold reletMachineByBlock at h
  simp only [run_ok, ho, some.injEq] at h
  obtain ⟨-, -, -, i, hi, maxRentEnd, hmax, h⟩ := h
  obtain ⟨hfit, rfl⟩ := checkedAdd_eq_some.1 hmax
  rw [Nat.add_comm (60 * oneDay)] at h hfit
  split at h
  · simp only [run_ok] at h
    exact .inl h.symm
  · next hpos =>
    simp only [run_ok] at h
    obtain ⟨fee, s1, hfee, -, _, s2, hpay, rentEnd, hend, rfl⟩ := h
    obtain ⟨rfl, hprice⟩ := rentFee_ok hfee
    obtain ⟨hadd, rfl⟩ := checkedAdd_eq_some.1 hend
    have hpaid := payRentFee_paid hpay
    have hbook := (payRentFee_side hpay).book
    have hsame := reletDuration_spec hfit hpos hadd
    rw [← hsame]
    set newEnd := o.rentEnd + reletDuration (t.state.now + 60 * oneDay) o.rentEnd duration with hdef
    have hnew : (t.state.book.prolongOrder id o newEnd).rentInfo.get id =
        some (o.setRentEnd newEnd) :=
      get_insert_self ..
    have hexact := (hends.prolongOrder ho newEnd).ending
    refine .inr ⟨?_, ?_, ⟨i, fee, hi, ?_, hpaid⟩, ?_⟩
    · omega
    · show (s2.book.prolongOrder id o newEnd).rentInfo.get id = _
      rw [hbook, hnew]
    · rw [hdef, Nat.add_sub_cancel_left]
      exact hprice
    · intro k
      show id ∈ (s2.book.prolongOrder id o newEnd).rentEnding.bucket k ↔ _
      rw [hbook]
      constructor
      · intro hk
        exact (Option.some.inj (hexact.eq_key hnew hk)).symm
      · rintro rfl
        exact hexact.listed_of hnew rfl

/-! ## Tenants -/

/-- The order is still there, with the same renter and cards, and ends no earlier. -/
def State.Runs (id : Nat) (o : RentOrderDetail A) (s : State A) : Prop :=
  ∃ e, o.rentEnd ≤ e ∧ s.book.rentInfo.get id = some (o.setRentEnd e)

/-- **A tenant stays until the end.** Whatever happens to a machine that keeps its record, nothing
but the hook of its last block ends a confirmed order. -/
theorem running_order_stays (crypto : Crypto A) (t : Block A)
    (ht : (system crypto).Reach KeepsRented t) (op : Op A) (hp : op.Possible t) (id : Nat)
    (o : RentOrderDetail A) (ho : t.state.book.rentInfo.get id = some o)
    (hr : o.rentStatus = .renting) :
    (op = .endBlock ∧ o.rentEnd = t.state.now) ∨ (apply crypto t op).state.Runs id o := by
  have h := reach_inv ht
  have hsame : t.state.Runs id o := ⟨o.rentEnd, le_rfl, ho⟩
  cases op with
  | profile | setRentFeePot => exact .inr hsame
  | nextBlock =>
    refine .inr ⟨o.rentEnd, le_rfl, ?_⟩
    exact (congrArg (·.rentInfo.get id) (startBlock_same t.state).2.book).trans ho
  | endBlock =>
    by_cases hend : o.rentEnd = t.state.now
    · exact .inl ⟨rfl, hend⟩
    rw [Block.due, if_neg (Bool.eq_false_iff.1 hp)] at h
    refine .inr ⟨o.rentEnd, le_rfl, (onFinalize_rule (P := fun s => ∀ {id o},
      t.state.book.rentInfo.get id = some o → o.rentStatus = .renting → o.rentEnd ≠ t.state.now →
      s.book.rentInfo.get id = some o) h (fun ho _ _ => ho) ?_ ?_).1 ho hr hend⟩
    · intro _ _ _ _ hP _ _ hs hw
      refine hs.running hP fun hr => ?_
      rw [hw] at hr
      cases hr
    · exact fun _ _ hP _ _ hs he _ => hs.running hP fun _ => he
  | rentMachine renter m gpuNum duration =>
    refine .inr (dispatch_keeps (I := State.Runs id o) hsame fun _ s' hrun => ?_)
    rcases rentMachineByBlock_ok hrun with rfl | hplaced
    · exact hsame
    obtain ⟨_, _, -, -, -, hb⟩ := hplaced.order
    refine ⟨o.rentEnd, le_rfl, ?_⟩
    rw [hb, Book.get_insertOrder, if_neg]
    · exact ho
    · rintro rfl
      cases ho.symm.trans h.listed.fresh
  | confirmRent renter j =>
    refine .inr (dispatch_keeps (I := State.Runs id o) hsame fun _ s' hrun => ?_)
    obtain ⟨x, hx, hw, hb, -⟩ := (confirmRent_ok hrun).order
    refine ⟨o.rentEnd, le_rfl, ?_⟩
    rw [hb, Book.confirmOrder, Book.confirmAs, get_insert, if_neg]
    · exact ho
    · rintro rfl
      cases ho.symm.trans hx
      cases hr.symm.trans hw
  | reletMachine renter j duration =>
    refine .inr (dispatch_keeps (I := State.Runs id o) hsame fun _ s' hrun => ?_)
    rcases reletMachineByBlock_ok hrun with rfl | ⟨x, e, hx, -, hle, hb, -⟩
    · exact hsame
    rw [State.Runs, hb]
    by_cases hj : id = j
    · subst hj
      cases ho.symm.trans hx
      exact ⟨e, hle, get_insert_self ..⟩
    · exact ⟨o.rentEnd, le_rfl, (get_insert ..).trans ((if_neg hj).trans ho)⟩

end

/-! ## A prolongation of the small chain -/

/-- Account 2 has confirmed the order 0. -/
def demoConfirmed : Block Nat := apply demoCrypto demoRented (.confirmRent 2 0)

theorem relet_capped_and_paid_demo : ∃ o, demoConfirmed.state.book.rentInfo.get 0 = some o ∧
    Relet 2 0 (400 + 600) o demoConfirmed.state
      ((reletMachineByBlock 2 0 600).dispatch demoConfirmed.state).2 := by
  have hrented : (system demoCrypto).Reach (fun _ _ => True) demoRented :=
    reach_apply demoStart_reach _ rfl trivial
  have hreach : (system demoCrypto).Reach (fun _ _ => True) demoConfirmed :=
    reach_apply hrented _ rfl trivial
  have hend : (demoConfirmed.state.book.rentInfo.get 0).map (·.rentEnd) = some 400 := by
    decide +kernel
  obtain ⟨o, ho, hrentEnd⟩ := map_eq_some_iff.1 hend
  obtain ⟨_, hrun⟩ := run_of_isOk
    (show ((reletMachineByBlock 2 0 600).run demoConfirmed.state).1.isOk = true by decide +kernel)
  refine ⟨o, ho, ?_⟩
  have hnow : demoConfirmed.state.now = 100 := by decide +kernel
  rcases relet_capped_and_paid hreach ho hrun with hsame | hrelet
  · have hmoved :
      ((reletMachineByBlock 2 0 600).dispatch demoConfirmed.state).2.book.rentEnding.bucket
        1000 ≠ demoConfirmed.state.book.rentEnding.bucket 1000 := by decide +kernel
    rw [hsame] at hmoved
    exact absurd rfl hmoved
  · have hmin : min (400 + 600) (100 + 60 * oneDay) = 400 + 600 := by decide
    rw [hrentEnd, hnow, hmin] at hrelet
    exact hrelet

theorem running_order_stays_demo : ∃ o, demoConfirmed.state.book.rentInfo.get 0 = some o ∧
    (apply demoCrypto demoConfirmed (.reletMachine 2 0 600)).state.Runs 0 o := by
  have hrented : (system demoCrypto).Reach KeepsRented demoRented :=
    reach_apply demoStart_reach _ rfl (by show 2 + _ ≤ _; decide +kernel)
  obtain ⟨o, ho, hr⟩ := map_eq_some_iff.1 (by decide +kernel :
    (demoConfirmed.state.book.rentInfo.get 0).map (·.rentStatus) = some .renting)
  exact ⟨o, ho, (running_order_stays demoCrypto demoConfirmed (reach_apply hrented _ rfl trivial)
    (.reletMachine 2 0 600) rfl 0 o ho hr).resolve_left fun h => nomatch h.1⟩

/-! # Cards that are never rented twice

The count of rented cards of a machine may be too high: an order can disappear without giving its
cards back. It is never too low, as long as no request makes the sum of the cards wrap. This is all
the search for free cards needs. `Book.Covered` says so of an order book, whichever pallet keeps
it. -/

open SortedVec

section

variable {A : Type} [LinearOrder A]

/-! ## The order book -/

/-- **The counts cover the cards in use.** The cards of an order are in use and its own, the
machine lists the order, and `rented` counts at least the cards in use. -/
structure Book.Covered (b : Book A) (rented : MachineId → Nat) : Prop where
  used : ∀ {id o j}, b.rentInfo.get id = some o → j ∈ o.gpuIndex →
    j ∈ (b.machineOrders o.machineId).usedGpu
  disjoint : ∀ {id id' o o' j}, b.rentInfo.get id = some o → b.rentInfo.get id' = some o' →
    id ≠ id' → o.machineId = o'.machineId → j ∈ o.gpuIndex → j ∉ o'.gpuIndex
  nodup : ∀ {id o}, b.rentInfo.get id = some o → o.gpuIndex.Nodup
  count : ∀ {id o}, b.rentInfo.get id = some o → o.gpuIndex.length = o.gpuNum
  listed : ∀ {id o}, b.rentInfo.get id = some o → id ∈ (b.machineOrders o.machineId).rentOrder
  counted : ∀ m, (b.machineOrders m).usedGpu.length ≤ rented m
  fresh : b.rentInfo.get b.nextRentId = none

/-- What a request for cards gets: as many distinct cards of the machine as it asked for, none of
them in another order. -/
structure Sold (b : Book A) (id : Nat) (o : RentOrderDetail A) (m : MachineId)
    (gpuNum total : Nat) : Prop where
  machine : o.machineId = m
  nodup : o.gpuIndex.Nodup
  count : o.gpuIndex.length = gpuNum
  below : ∀ j ∈ o.gpuIndex, j < total
  own : ∀ id' o' j, b.rentInfo.get id' = some o' → id' ≠ id → o'.machineId = m →
    j ∈ o.gpuIndex → j ∉ o'.gpuIndex

namespace Book.Covered

variable {b b' : Book A} {rented rented' : MachineId → Nat} {id : Nat} {o : RentOrderDetail A}

omit [LinearOrder A] in
theorem empty (h : b.rentInfo = ∅) (hm : ∀ m, b.machineOrders m = .zero) : b.Covered rented := by
  have hnone : ∀ {id o}, b.rentInfo.get id ≠ some o := by
    intro id o ho
    rw [h, get_empty] at ho
    cases ho
  refine ⟨fun ho => (hnone ho).elim, fun ho => (hnone ho).elim, fun ho => (hnone ho).elim,
    fun ho => (hnone ho).elim, fun ho => (hnone ho).elim, fun m => ?_, ?_⟩
  · rw [hm]
    exact Nat.zero_le _
  · rw [h, get_empty]

theorem insertOrder {orders : MachineGPUOrder} {total : Nat} (h : b.Covered rented)
    (hnext : b.rentInfo.get (Book.succId b.nextRentId) = none)
    (hindex : o.gpuIndex = ((b.machineOrders o.machineId).genRentableGpu o.gpuNum total).1)
    (horders : orders = ((b.machineOrders o.machineId).genRentableGpu o.gpuNum total).2)
    (hroom : o.gpuNum + rented o.machineId ≤ total)
    (hrented : ∀ m, rented m + (if m = o.machineId then o.gpuNum else 0) ≤ rented' m) :
    (b.insertOrder o orders).Covered rented' ∧
      Sold (b.insertOrder o orders) b.nextRentId o o.machineId o.gpuNum total := by
  have hfree : o.gpuNum + (b.machineOrders o.machineId).usedGpu.length ≤ total := by
    have hcounted := h.counted o.machineId
    omega
  obtain ⟨hnodup, hlen, hnew, hused, hcount⟩ :=
    MachineGPUOrder.genRentableGpu_spec (b.machineOrders o.machineId) o.gpuNum total hfree
  rw [← hindex] at hnodup hlen hnew hused
  rw [← horders] at hused hcount
  -- the cards of an older order of the machine are in use
  have hold : ∀ {id o' j}, b.rentInfo.get id = some o' → o'.machineId = o.machineId →
      j ∈ o'.gpuIndex → j ∉ o.gpuIndex := by
    intro id o' j hid hm hj hj'
    apply (hnew j hj').2
    rw [← hm]
    exact h.used hid hj
  have hsplit : ∀ {id o'}, (b.insertOrder o orders).rentInfo.get id = some o' →
      (id = b.nextRentId ∧ o' = o) ∨ (id ≠ b.nextRentId ∧ b.rentInfo.get id = some o') := by
    intro id o' hid
    rw [Book.get_insertOrder] at hid
    split at hid
    · next e =>
      cases hid
      exact .inl ⟨e, rfl⟩
    · next e => exact .inr ⟨e, hid⟩
  refine ⟨⟨?_, ?_, ?_, ?_, ?_, ?_, ?_⟩, rfl, hnodup, hlen, fun j hj => (hnew j hj).1, ?_⟩
  · intro id o' j hid hj
    rw [Book.machineOrders_insertOrder]
    split
    · next hm =>
      rw [MachineGPUOrder.addOrder, hused]
      rcases hsplit hid with ⟨-, rfl⟩ | ⟨-, hid⟩
      · exact .inr hj
      · left
        rw [← hm]
        exact h.used hid hj
    · next hm =>
      rcases hsplit hid with ⟨-, rfl⟩ | ⟨-, hid⟩
      · exact (hm rfl).elim
      · exact h.used hid hj
  · intro id id' o1 o2 j h1 h2 hne hm hj
    rcases hsplit h1 with ⟨e1, rfl⟩ | ⟨-, g1⟩
    · rcases hsplit h2 with ⟨e2, -⟩ | ⟨-, g2⟩
      · exact (hne (e1.trans e2.symm)).elim
      · exact fun hj' => hold g2 hm.symm hj' hj
    · rcases hsplit h2 with ⟨-, rfl⟩ | ⟨-, g2⟩
      · exact hold g1 hm hj
      · exact h.disjoint g1 g2 hne hm hj
  · intro id o' hid
    rcases hsplit hid with ⟨-, rfl⟩ | ⟨-, hid⟩
    · exact hnodup
    · exact h.nodup hid
  · intro id o' hid
    rcases hsplit hid with ⟨-, rfl⟩ | ⟨-, hid⟩
    · exact hlen
    · exact h.count hid
  · intro id o' hid
    rw [Book.machineOrders_insertOrder]
    rcases hsplit hid with ⟨rfl, rfl⟩ | ⟨-, hid⟩
    · rw [if_pos rfl, MachineGPUOrder.addOrder, mem_addItem]
      exact .inl rfl
    · split
      · next hm =>
        rw [MachineGPUOrder.addOrder, mem_addItem]
        right
        rw [horders, ← hm]
        exact h.listed hid
      · exact h.listed hid
  · intro m
    have hm := hrented m
    have hcounted := h.counted m
    rw [Book.machineOrders_insertOrder]
    split
    · next e =>
      subst e
      rw [if_pos rfl] at hm
      rw [MachineGPUOrder.addOrder, hcount]
      omega
    · next e =>
      rw [if_neg e] at hm
      omega
  · show (b.insertOrder o orders).rentInfo.get (Book.succId b.nextRentId) = none
    rw [Book.get_insertOrder, if_neg (Book.succId_ne _), hnext]
  · intro id' o' j hid hne hm hj hj'
    rcases hsplit hid with ⟨e, -⟩ | ⟨-, hid⟩
    · exact hne e
    · exact hold hid hm hj' hj

section

omit [LinearOrder A]

theorem rewrite {o' : RentOrderDetail A} (h : b.Covered rented)
    (ho : b.rentInfo.get id = some o) (hinfo : b'.rentInfo = b.rentInfo.insert id o')
    (horders : b'.machineRentOrder = b.machineRentOrder) (hnext : b'.nextRentId = b.nextRentId)
    (hm : o'.machineId = o.machineId) (hnum : o'.gpuNum = o.gpuNum)
    (hindex : o'.gpuIndex = o.gpuIndex) : b'.Covered rented := by
  have hlist : ∀ m, b'.machineOrders m = b.machineOrders m := by
    intro m
    unfold Book.machineOrders
    rw [horders]
  have hback : ∀ {j x}, b'.rentInfo.get j = some x → ∃ y, b.rentInfo.get j = some y ∧
      x.machineId = y.machineId ∧ x.gpuNum = y.gpuNum ∧ x.gpuIndex = y.gpuIndex := by
    intro j x hx
    rw [hinfo, get_insert] at hx
    split at hx
    · next e =>
      cases hx
      exact ⟨o, e ▸ ho, hm, hnum, hindex⟩
    · exact ⟨x, hx, rfl, rfl, rfl⟩
  refine ⟨?_, ?_, ?_, ?_, ?_, ?_, ?_⟩
  · intro j x k hx hk
    obtain ⟨y, hy, hym, -, hyi⟩ := hback hx
    rw [hlist, hym]
    exact h.used hy (hyi ▸ hk)
  · intro j j' x x' k hx hx' hne hxm hk
    obtain ⟨y, hy, hym, -, hyi⟩ := hback hx
    obtain ⟨y', hy', hym', -, hyi'⟩ := hback hx'
    rw [hyi']
    exact h.disjoint hy hy' hne (hym ▸ hym' ▸ hxm) (hyi ▸ hk)
  · intro j x hx
    obtain ⟨y, hy, -, -, hyi⟩ := hback hx
    exact hyi ▸ h.nodup hy
  · intro j x hx
    obtain ⟨y, hy, -, hyn, hyi⟩ := hback hx
    rw [hyi, hyn]
    exact h.count hy
  · intro j x hx
    obtain ⟨y, hy, hym, -, -⟩ := hback hx
    rw [hlist, hym]
    exact h.listed hy
  · intro m
    rw [hlist]
    exact h.counted m
  · rw [hnext, hinfo, get_insert_ne, h.fresh]
    rintro rfl
    rw [h.fresh] at ho
    cases ho

/-- Orders disappear; the machines of those that are left keep their lists and their cards. -/
theorem shed (h : b.Covered rented)
    (hsub : ∀ {j x}, b'.rentInfo.get j = some x → b.rentInfo.get j = some x ∧ (∀ k ∈ x.gpuIndex, k ∈
      (b'.machineOrders x.machineId).usedGpu) ∧ j ∈ (b'.machineOrders x.machineId).rentOrder)
    (hcounted : ∀ m, (b'.machineOrders m).usedGpu.length ≤ rented' m)
    (hnext : b'.nextRentId = b.nextRentId) : b'.Covered rented' where
  used hx hk := (hsub hx).2.1 _ hk
  disjoint hx hx' := h.disjoint (hsub hx).1 (hsub hx').1
  nodup hx := h.nodup (hsub hx).1
  count hx := h.count (hsub hx).1
  listed hx := (hsub hx).2.2
  counted := hcounted
  fresh := by
    rw [hnext]
    cases hn : b'.rentInfo.get b.nextRentId with
    | none => rfl
    | some x =>
      have hx := (hsub hn).1
      rw [h.fresh] at hx
      cases hx

/-- An order is struck out and its cards are free again. The count may fall by as many. -/
theorem strike (h : b.Covered rented) (ho : b.rentInfo.get id = some o)
    (hget : ∀ j, b'.rentInfo.get j = if j = id then none else b.rentInfo.get j)
    (horders : ∀ m, b'.machineOrders m = if m = o.machineId then
      (b.machineOrders o.machineId).cleanExpiredOrder id o.gpuIndex else b.machineOrders m)
    (hnext : b'.nextRentId = b.nextRentId)
    (hrented : ∀ m, rented m ≤ rented' m + if o.machineId = m then o.gpuNum else 0) :
    b'.Covered rented' := by
  refine h.shed ?_ ?_ hnext
  · intro j x hx
    rw [hget] at hx
    split at hx
    · cases hx
    · next hne =>
      refine ⟨hx, ?_⟩
      rw [horders]
      split
      · next hm =>
        refine ⟨fun k hk => ?_, ?_⟩
        · show k ∈ o.gpuIndex.foldl SortedVec.rmItem (b.machineOrders o.machineId).usedGpu
          rw [mem_foldl_rmItem, ← hm]
          exact ⟨h.used hx hk, h.disjoint hx ho hne hm hk⟩
        · show j ∈ (b.machineOrders o.machineId).rentOrder.rmItem id
          rw [mem_rmItem, ← hm]
          exact ⟨hne, h.listed hx⟩
      · exact ⟨fun k hk => h.used hx hk, h.listed hx⟩
  · intro m
    have hcounted := h.counted m
    have hm := hrented m
    rw [horders]
    split
    · next e =>
      subst e
      show (o.gpuIndex.foldl SortedVec.rmItem (b.machineOrders o.machineId).usedGpu).length ≤ _
      rw [length_foldl_rmItem (h.nodup ho) fun j hj => h.used ho hj, h.count ho]
      rw [if_pos rfl] at hm
      omega
    · next e =>
      rw [if_neg (Ne.symm e)] at hm
      omega

end

end Book.Covered

/-! ## Calls of rent-machine -/

variable {s s' : State A} {u : Unit}

/-- The counts of a state cover the cards its orders hold. -/
def State.Covered (s : State A) : Prop := s.book.Covered s.machines.rentedGpu

/-- The count of rented cards of `m` fell by at most `n`, and no other count fell. -/
def Lowered (m : MachineId) (n : Nat) (p p' : OnlineProfile.State A) : Prop :=
  ∀ m', p.machines.rentedGpu m' ≤ p'.machines.rentedGpu m' + if m = m' then n else 0

variable {m : MachineId} {n : Nat} {p p' : OnlineProfile.State A}

theorem Lowered.of_eq
    (h : ∀ m', p'.machines.rentedGpu m' = p.machines.rentedGpu m') : Lowered m n p p' := by
  intro m'
  rw [h]
  exact Nat.le_add_right ..

theorem Lowered.set
    (h : p'.machines.machineRentedGpu =
      p.machines.machineRentedGpu.insert m (p.machines.rentedGpu m - n)) : Lowered m n p p' := by
  intro m'
  have hm : p'.machines.rentedGpu m' =
      if m' = m then p.machines.rentedGpu m - n else p.machines.rentedGpu m' := by
    show p'.machines.machineRentedGpu.getD m' 0 = _
    rw [h]
    exact getD_insert ..
  rw [hm]
  split
  · next e =>
    subst e
    rw [if_pos rfl]
    omega
  · exact Nat.le_add_right ..

theorem changeMachineStatusOnConfirmExpired_lowered (m : MachineId) (gpuNum : Nat)
    (p : OnlineProfile.State A) :
    Post (OnlineProfile.changeMachineStatusOnConfirmExpired m gpuNum) p
      (fun _ p' => Lowered m gpuNum p p') (fun _ p' => Lowered m gpuNum p p') := by
  unfold OnlineProfile.changeMachineStatusOnConfirmExpired
  simp only [post_step, post_ite]
  refine ⟨fun _ => ⟨fun i _ => ?_, fun _ => ?_⟩, fun _ => ?_⟩
  · exact Lowered.set rfl
  · exact Lowered.of_eq fun _ => rfl
  · exact Lowered.set rfl

theorem changeMachineStatusOnRentEnd_lowered (m : MachineId) (gpuNum duration : Nat)
    (lastOfMachine lastOfRenter : Bool) (renter : A) (p : OnlineProfile.State A) :
    Post (OnlineProfile.changeMachineStatusOnRentEnd m gpuNum duration lastOfMachine lastOfRenter
      renter) p (fun _ p' => Lowered m gpuNum p p') (fun _ p' => Lowered m gpuNum p p') := by
  unfold OnlineProfile.changeMachineStatusOnRentEnd
  simp only [post_step, post_ite]
  refine ⟨fun i _ => ⟨fun _ => ?_, fun _ => ⟨fun _ => ?_, fun _ => ⟨fun _ => ?_, fun _ => ?_⟩⟩⟩,
    fun _ => ?_⟩
  · exact Lowered.of_eq fun _ => rfl
  · exact Lowered.set rfl
  · exact Lowered.set rfl
  · exact Lowered.set rfl
  · exact Lowered.of_eq fun _ => rfl

theorem State.Covered.of_eq (h : s.Covered) (hb : s'.book = s.book)
    (hr : s'.machines.machineRentedGpu = s.machines.machineRentedGpu) : s'.Covered := by
  unfold State.Covered OnlineProfile.Machines.rentedGpu at *
  rw [hb, hr]
  exact h

theorem State.Covered.side (h : s.Covered) (hs : Side s s') : s'.Covered :=
  h.of_eq hs.book hs.events.frame.2

theorem State.Covered.placed {renter : A} {gpuNum duration : Nat} (h : s.Covered)
    (hp : Placed renter m gpuNum duration s s') (hfit : gpuNum + s.machines.rentedGpu m ≤ u32Max) :
    s'.Covered ∧ ∃ i o, s.machine m = some i ∧ gpuNum + s.machines.rentedGpu m ≤ i.gpuNum ∧
      (∀ id, s'.book.rentInfo.get id =
        if id = s.book.nextRentId then some o else s.book.rentInfo.get id) ∧
      Sold s'.book s.book.nextRentId o m gpuNum i.gpuNum := by
  obtain ⟨i, fee, hi, -, hroom, hb⟩ := hp.order
  obtain ⟨p, i0, hquiet, hrental⟩ := hp.rental
  rw [wrappingAdd_of_le hfit] at hroom
  have hrented : ∀ m', s.machines.rentedGpu m' + (if m' = m then gpuNum else 0) ≤
      s'.machines.rentedGpu m' := by
    intro m'
    rw [hrental.rented, hquiet.rentedGpu, hquiet.rentedGpu]
    split
    · next e =>
      subst e
      unfold saturatingAdd
      omega
    · exact le_rfl
  obtain ⟨hcovered, hsold⟩ := Book.Covered.insertOrder (o := .new m renter s.now
    (min duration (saturatingMul u32Max s.maximumRentalDuration oneDay) + s.now) fee gpuNum
    ((s.book.machineOrders m).genRentableGpu gpuNum i.gpuNum).1) h hp.next rfl rfl hroom hrented
  unfold State.Covered
  rw [hb]
  exact ⟨hcovered, i, _, hi, hroom, Book.get_insertOrder, hsold⟩

/-- The book after a round of the hook that struck out `o`. -/
theorem State.Covered.struck {id : Nat} {o : RentOrderDetail A} (h : s.Covered)
    (ho : s.book.rentInfo.get id = some o) {c : Index Nat Nat}
    (hb : s'.book = { s.book.removeOrder id o with confirmingOrder := c })
    (hr : Lowered o.machineId o.gpuNum s.toProfile s'.toProfile) : s'.Covered := by
  refine Book.Covered.strike h ho (fun j => ?_) (fun m => ?_) ?_ hr
  · rw [hb]
    exact Book.get_removeOrder s.book id o j
  · rw [hb]
    exact Book.machineOrders_removeOrder m
  · rw [hb]
    rfl

theorem returnStake_side (o : RentOrderDetail A) (s : State A) :
    Post (returnStake o) s (fun _ s' => Side s s') (fun _ _ => False) := by
  unfold returnStake
  simp only [post_when, post_ignore]
  exact ⟨fun _ => changeRenterTotalStake_post .., fun _ => Side.refl s⟩

theorem expireOne_covered (block id : Nat) :
    Keeps (fun s : State A => s.Covered) (expireOne block id) := by
  intro s hs
  unfold expireOne
  simp only [post_step, profile, post_zoom]
  refine ⟨?_, fun _ => hs⟩
  intro o ho
  refine (returnStake_side o s).mono (fun _ s1 h1 => ?_) fun _ _ h => h.elim
  have hstruck : ∀ p, Lowered o.machineId o.gpuNum s1.toProfile p →
      ((s1.mapBook fun b => (b.rmConfirming block id).removeOrder id o).setProfile p).Covered := by
    intro p hp
    have hget : s1.book.rentInfo.get id = some o := by
      rw [h1.book]
      exact ho
    exact (hs.side h1).struck (c := s1.book.confirmingOrder.rmFrom block id) hget rfl hp
  exact (changeMachineStatusOnConfirmExpired_lowered ..).mono (fun _ p hp => hstruck p hp)
    fun _ p hp => hstruck p hp

theorem finishOne_covered (id : Nat) : Keeps (fun s : State A => s.Covered) (finishOne id) := by
  intro s hs
  unfold finishOne
  simp only [post_step, post_ignore, profile, post_zoom]
  refine ⟨?_, fun _ => hs⟩
  intro o ho
  refine ⟨?_, fun _ => hs⟩
  intro last _
  have hround : ∀ p, Lowered o.machineId o.gpuNum s.toProfile p →
      Post (returnStake o) (s.setProfile p)
        (fun _ s2 => (s2.mapBook fun b => b.removeOrder id o).Covered)
        (fun _ s2 => s2.Covered) := by
    intro p hp
    refine (returnStake_side o (s.setProfile p)).mono (fun _ s2 h2 => ?_) fun _ _ h => h.elim
    have hbook : s2.book = s.book := h2.book
    refine hs.struck (c := s.book.confirmingOrder) ho ?_ ?_
    · show s2.book.removeOrder id o = _
      rw [hbook]
      rfl
    · intro m
      have hsame : s2.machines.rentedGpu m = p.machines.rentedGpu m := h2.events.rentedGpu m
      show _ ≤ s2.machines.rentedGpu m + _
      rw [hsame]
      exact hp m
  exact (changeMachineStatusOnRentEnd_lowered ..).mono (fun _ p hp => hround p hp)
    fun _ p hp => hround p hp

theorem State.Covered.onFinalize (hs : s.Covered) : s.onFinalize.Covered := by
  have hfirst : Keeps (fun s : State A => s.Covered) (checkMachineStartingStatus s.now) :=
    Keeps.get fun s1 _ => .forEach fun id _ => expireOne_covered s.now id
  have hsecond : ∀ block, Keeps (fun s : State A => s.Covered) (checkIfRentFinished block) :=
    fun block => .get fun s1 _ => .forEach fun id _ => finishOne_covered id
  exact (hsecond _).run (hfirst.run hs)

/-! ## Runs -/

/-- No request makes the sum of the cards wrap. -/
def Fits (t : Block A) : Op A → Prop
  | .rentMachine _ m gpuNum _ => gpuNum + t.state.machines.rentedGpu m ≤ u32Max
  | _ => True

/-- **In every run without such a request the counts cover the cards in use.** -/
theorem reach_covered {crypto : Crypto A} {t : Block A} (ht : (system crypto).Reach Fits t) :
    t.state.Covered := by
  refine ht.invariant (I := fun t => t.state.Covered) ?_ ?_
  · rintro t ⟨-, hb, -, -⟩
    refine Book.Covered.empty ?_ ?_
    · rw [hb]
      rfl
    · intro m
      rw [hb]
      exact getD_empty ..
  · rintro t op _ h hfit ⟨-, rfl⟩
    cases op with
    | profile op =>
      exact h.of_eq rfl (OnlineProfile.apply_may crypto t.state.toProfile op).events.frame.2
    | rentMachine renter m gpuNum duration =>
      refine dispatch_keeps (I := fun s => s.Covered)
        (c := rentMachineByBlock renter m gpuNum duration) h fun _ s' hr => ?_
      rcases rentMachineByBlock_ok hr with rfl | hplaced
      · exact h
      · exact (h.placed hplaced hfit).1
    | confirmRent renter id =>
      refine dispatch_keeps (I := fun s => s.Covered) (c := RentMachine.confirmRent renter id) h
        fun _ s' hr => ?_
      obtain ⟨o, ho, -, hb, p, i, hquiet, -, htouch⟩ := (confirmRent_ok hr).order
      have hbook : s'.book.Covered t.state.machines.rentedGpu := by
        rw [hb]
        exact Book.Covered.rewrite h ho rfl rfl rfl rfl rfl rfl
      have hrented : s'.machines.machineRentedGpu = t.state.machines.machineRentedGpu :=
        htouch.rented.trans hquiet.frame.2
      unfold State.Covered OnlineProfile.Machines.rentedGpu
      rw [hrented]
      exact hbook
    | reletMachine renter id duration =>
      refine dispatch_keeps (I := fun s => s.Covered)
        (c := reletMachineByBlock renter id duration) h fun _ s' hr => ?_
      rcases reletMachineByBlock_ok hr with rfl | ⟨o, rentEnd, ho, -, -, hb, -, he⟩
      · exact h
      · have hbook : s'.book.Covered t.state.machines.rentedGpu := by
          rw [hb]
          exact Book.Covered.rewrite h ho rfl rfl rfl rfl rfl rfl
        unfold State.Covered OnlineProfile.Machines.rentedGpu
        rw [he.frame.2]
        exact hbook
    | setRentFeePot pot => exact h
    | endBlock => exact State.Covered.onFinalize h
    | nextBlock =>
      obtain ⟨-, hsame⟩ := startBlock_same t.state
      have hrented : t.state.startBlock.machines.rentedGpu = t.state.machines.rentedGpu :=
        funext hsame.rented
      show t.state.startBlock.book.Covered t.state.startBlock.machines.rentedGpu
      rw [hrented, hsame.book]
      exact h

end

end DeepBrainChain.RentMachine
