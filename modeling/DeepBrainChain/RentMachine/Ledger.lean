import DeepBrainChain.RentMachine.Lists

/-!
# The stakes of the renters

A renter stakes the price of an order until it is confirmed; then the stake pays for it. `Ledger`
ties the total of a renter to the stakes of its orders, whatever happens to the machines. The
reserve of a renter follows the total as long as nobody else moves it.
-/

namespace DeepBrainChain.RentMachine

open Lib GenericFunc Support Lib.Call StorageMap Balances Option
open OnlineProfile (Crypto)

section

variable {A : Type} [LinearOrder A]

def Book.staked (b : Book A) (r : A) : Nat :=
  b.rentInfo.sum fun _ o => if o.renter = r then o.stakeAmount else 0

def State.totalStake (s : State A) (r : A) : Nat := s.userTotalStake.getD r 0

/-- The totals are those of the orders, and what is confirmed is paid. -/
structure Ledger (s : State A) : Prop where
  total : ∀ r, s.totalStake r = s.book.staked r
  paid : ∀ {id o}, s.book.rentInfo.get id = some o → o.rentStatus = .renting → o.stakeAmount = 0
  fresh : s.book.rentInfo.get s.book.nextRentId = none

section Book

variable {s s' : State A} {id : Nat} {o o' : RentOrderDetail A}

theorem le_staked {b : Book A} (ho : b.rentInfo.get id = some o) :
    o.stakeAmount ≤ b.staked o.renter := by
  have hle := le_sum (fun _ (x : RentOrderDetail A) =>
    if x.renter = o.renter then x.stakeAmount else 0) ho
  rw [if_pos rfl] at hle
  exact hle

theorem Ledger.same (h : Ledger s) (hb : s'.book = s.book)
    (ht : s'.userTotalStake = s.userTotalStake) : Ledger s' := by
  refine ⟨fun r => ?_, ?_, ?_⟩
  · unfold State.totalStake
    rw [hb, ht]
    exact h.total r
  · rw [hb]
    exact h.paid
  · rw [hb]
    exact h.fresh

theorem Ledger.insert (h : Ledger s) (hw : o.rentStatus ≠ .renting)
    (hi : s'.book.rentInfo = s.book.rentInfo.insert s.book.nextRentId o)
    (hn : s'.book.nextRentId = Book.succId s.book.nextRentId)
    (hf : s.book.rentInfo.get (Book.succId s.book.nextRentId) = none)
    (ht : s'.userTotalStake =
      s.userTotalStake.insert o.renter (s.totalStake o.renter + o.stakeAmount)) :
    Ledger s' := by
  refine ⟨fun r => ?_, fun {j x} hx hr => ?_, ?_⟩
  · have hsum := sum_insert_of_none
      (fun _ (x : RentOrderDetail A) => if x.renter = r then x.stakeAmount else 0) o h.fresh
    unfold State.totalStake Book.staked
    rw [hi, hsum, ht, getD_insert]
    have hr := h.total r
    unfold State.totalStake Book.staked at hr
    by_cases he : r = o.renter
    · subst he
      rw [if_pos rfl, if_pos rfl, ← hr, Nat.add_comm]
      rfl
    · rw [if_neg he, if_neg (Ne.symm he), Nat.zero_add]
      exact hr
  · rw [hi, get_insert] at hx
    split at hx
    · cases hx
      exact absurd hr hw
    · exact h.paid hx hr
  · rw [hi, hn, get_insert, if_neg, hf]
    unfold Book.succId
    split
    · next he =>
      rw [he]
      decide
    · exact Nat.succ_ne_self _

theorem Ledger.rewrite (h : Ledger s) (ho : s.book.rentInfo.get id = some o)
    (hr : o'.renter = o.renter) (hle : o'.stakeAmount ≤ o.stakeAmount)
    (hpaid : o'.rentStatus = .renting → o'.stakeAmount = 0)
    (hi : s'.book.rentInfo = s.book.rentInfo.insert id o')
    (hn : s'.book.nextRentId = s.book.nextRentId)
    (ht : ∀ r, s'.totalStake r = s.totalStake r -
      if r = o.renter then o.stakeAmount - o'.stakeAmount else 0) : Ledger s' := by
  refine ⟨fun r => ?_, fun {j x} hx hrent => ?_, ?_⟩
  · have hsum := sum_insert_of_some
      (fun _ (x : RentOrderDetail A) => if x.renter = r then x.stakeAmount else 0) o' ho
    have hst := h.total r
    unfold Book.staked at hst ⊢
    rw [ht, hi]
    simp only [hr] at hsum
    by_cases he : r = o.renter
    · subst he
      have hin := le_staked ho
      unfold Book.staked at hin
      simp only [if_true] at hsum ⊢
      omega
    · rw [if_neg (Ne.symm he), if_neg (Ne.symm he)] at hsum
      rw [if_neg he]
      omega
  · rw [hi, get_insert] at hx
    split at hx
    · cases hx
      exact hpaid hrent
    · exact h.paid hx hrent
  · rw [hi, hn, get_insert, if_neg, h.fresh]
    rintro rfl
    rw [h.fresh] at ho
    cases ho

theorem Ledger.remove (h : Ledger s) (ho : s.book.rentInfo.get id = some o)
    (hi : s'.book.rentInfo = s.book.rentInfo.remove id)
    (hn : s'.book.nextRentId = s.book.nextRentId)
    (ht : ∀ r, s'.totalStake r = s.totalStake r - if r = o.renter then o.stakeAmount else 0) :
    Ledger s' := by
  refine ⟨fun r => ?_, fun {j x} hx hrent => ?_, ?_⟩
  · have hsum := sum_remove
      (fun _ (x : RentOrderDetail A) => if x.renter = r then x.stakeAmount else 0) ho
    have hst := h.total r
    unfold Book.staked at hst ⊢
    rw [ht, hi, hsum, hst]
    simp only [eq_comm]
  · rw [hi, get_remove] at hx
    split at hx
    · cases hx
    · exact h.paid hx hrent
  · rw [hi, hn, get_remove]
    split
    · rfl
    · exact h.fresh

end Book

/-! ## What the calls move -/

section Calls

variable {s s' : State A} {u : Unit} {renter : A}

variable {id fee amount gpuNum duration : Nat} {m : MachineId} {b : Balances A}

theorem stake_ok (h : (changeRenterTotalStake renter amount true).run s = (.ok u, s')) :
    ∃ b, s.balances.reserve renter amount = some b ∧
      s' = (s.setBalances b).setUserTotalStake renter (s.totalStake renter + amount) := by
  unfold changeRenterTotalStake at h
  simp only [run_ok, if_true] at h
  obtain ⟨b, hb, new, hnew, rfl⟩ := h
  obtain ⟨-, rfl⟩ := checkedAdd_eq_some.1 hnew
  exact ⟨b, hb, rfl⟩

def State.unstake (s : State A) (renter : A) (amount : Nat) : State A :=
  (s.setBalances (s.balances.unreserve renter amount).1).setUserTotalStake renter
    (s.totalStake renter - amount)

theorem unstake_ok (h : (changeRenterTotalStake renter amount false).run s = (.ok u, s')) :
    amount ≤ s.totalStake renter ∧ s' = s.unstake renter amount := by
  unfold changeRenterTotalStake at h
  simp only [run_ok, Bool.false_eq_true, if_false] at h
  exact ⟨h.1, h.2.symm⟩

theorem totalStake_unstake (amount : Nat) (r : A) :
    (s.unstake renter amount).totalStake r =
      s.totalStake r - if r = renter then amount else 0 := by
  unfold State.unstake State.totalStake State.setUserTotalStake
  simp only [getD_insert]
  split
  · next he => rw [he]
  · rfl

/-- Nothing but free balances moves, and perhaps the machines. -/
structure FreeOnly (s s' : State A) : Prop where
  book : s'.book = s.book
  total : s'.userTotalStake = s.userTotalStake
  reserved : ∀ x, s'.balances.reserved x = s.balances.reserved x

theorem payFixedTxFee_freeOnly {who : A}
    (h : (profile (OnlineProfile.payFixedTxFee who)).run s = (.ok u, s')) : FreeOnly s s' := by
  unfold profile OnlineProfile.payFixedTxFee GenericFunc.payFixedTxFee at h
  simp only [run_ok, run_zoom_ok] at h
  obtain ⟨_, ⟨_, ⟨fee, -, -, rfl⟩, rfl⟩, rfl⟩ := h
  exact ⟨rfl, rfl, fun x => slash_reserved _ _ _ x⟩

theorem placeOrder_ok {total rentEnd : Nat}
    (h : (placeOrder renter m gpuNum total rentEnd fee).run s = (.ok u, s')) :
    s.book.rentInfo.get (Book.succId s.book.nextRentId) = none ∧
      s'.userTotalStake = s.userTotalStake ∧ s'.balances = s.balances ∧
      ∃ cards orders, s'.book = s.book.insertOrder
        (.new m renter s.now rentEnd fee gpuNum cards) orders := by
  unfold placeOrder OnlineProfile.changeMachineStatusOnRentStart at h
  simp only [run_ok, profile, run_zoom_ok] at h
  obtain ⟨hnext, _, ⟨_, ⟨_, -, rfl⟩, rfl⟩, rfl⟩ := h
  exact ⟨hnext, rfl, rfl, _, _, rfl⟩

/-- **`rent_machine`** takes the stake of the order it enters. -/
theorem rentMachineByBlock_stakes
    (h : (rentMachineByBlock renter m gpuNum duration).run s = (.ok u, s')) :
    s' = s ∨ ∃ (s1 : State A) (o : RentOrderDetail A) (orders : MachineGPUOrder),
      FreeOnly s s1 ∧ o.renter = renter ∧ o.rentStatus = .waitingVerifying ∧
      s.book.rentInfo.get (Book.succId s.book.nextRentId) = none ∧
      s'.book = s.book.insertOrder o orders ∧
      s'.userTotalStake = s.userTotalStake.insert renter (s.totalStake renter + o.stakeAmount) ∧
      s1.balances.reserve renter o.stakeAmount = some s'.balances := by
  unfold rentMachineByBlock at h
  simp only [run_ok] at h
  obtain ⟨i, hi, h⟩ := h
  split at h
  · simp only [run_ok] at h
    exact .inl h.symm
  · simp only [run_ok] at h
    obtain ⟨-, -, -, _, s1, hpay, fee, s2, hfee, rentEnd, -, _, s3, hstake, h⟩ := h
    obtain rfl := rentFee_same hfee
    have hfree := payFixedTxFee_freeOnly hpay
    obtain ⟨b, hb, rfl⟩ := stake_ok hstake
    obtain ⟨hnext, htotal, hbal, cards, orders, hbook⟩ := placeOrder_ok h
    refine .inr ⟨s2, .new m renter s2.now rentEnd fee gpuNum cards, orders, hfree, rfl, rfl, ?_,
      hbook.trans ?_, htotal.trans ?_, hb.trans ?_⟩
    · rw [← hfree.book]
      exact hnext
    · show s2.book.insertOrder (.new m renter s2.now rentEnd fee gpuNum cards) orders = _
      rw [hfree.book]
    · show s2.userTotalStake.insert renter (s2.totalStake renter + fee) = _
      unfold State.totalStake
      rw [hfree.total]
      rfl
    · rw [hbal]
      rfl

/-- The storage after a rent was paid to the stash and into the pot. -/
def State.payShares (s : State A) (b : Balances A) (m : MachineId) (stash : A)
    (toDestroy toStash : Nat) : State A :=
  s.setProfile ((OnlineProfile.changeMachineRentFee stash m toDestroy toStash).run
    (s.setBalances b).toProfile).2

theorem payRentFee_ok {stash : A} (h : (payRentFee renter m stash fee).run s = (.ok u, s')) :
    ∃ pot b₁ b₂ toStash, s.rentFeePot = some pot ∧
      toStash + s.grades.rentFeeDestroyPercent.mul fee = fee ∧
      s.balances.transfer renter stash toStash = some b₁ ∧
      b₁.transfer renter pot (s.grades.rentFeeDestroyPercent.mul fee) = some b₂ ∧
      s' = s.payShares b₂ m stash (s.grades.rentFeeDestroyPercent.mul fee) toStash := by
  unfold payRentFee at h
  simp only [run_ok, run_ignore] at h
  obtain ⟨pot, hpot, toStash, hsub, b₁, h1, b₂, h2, rfl⟩ := h
  obtain ⟨hle, rfl⟩ := checkedSub_eq_some.1 hsub
  refine ⟨pot, b₁, b₂, _, hpot, by omega, h1, h2, rfl⟩

theorem changeMachineStatusOnConfirmed_balances (m : MachineId) (renter : A) :
    Keeps (fun p : OnlineProfile.State A => p.balances = b)
      (OnlineProfile.changeMachineStatusOnConfirmed m renter) := by
  refine .get fun p hp => .okOr fun i _ => .set ?_
  split <;> exact hp

theorem changeMachineStatusOnRentEnd_balances (m : MachineId) (gpuNum duration : Nat)
    (last lastOfRenter : Bool) (renter : A) :
    Keeps (fun p : OnlineProfile.State A => p.balances = b)
      (OnlineProfile.changeMachineStatusOnRentEnd m gpuNum duration last lastOfRenter renter) := by
  refine .get fun p hp => .okOr fun i _ => .ite (Keeps.pure ()) ?_
  exact .ite (Keeps.set hp) (Keeps.ite (Keeps.set hp) (Keeps.set hp))

theorem changeMachineStatusOnConfirmExpired_balances (m : MachineId) (gpuNum : Nat) :
    Keeps (fun p : OnlineProfile.State A => p.balances = b)
      (OnlineProfile.changeMachineStatusOnConfirmExpired m gpuNum) := by
  refine .get fun p _ => .ite (Keeps.okOr fun i _ => ?_) (Keeps.modify fun p hp => hp)
  exact .bind (Keeps.modify fun p hp => hp) fun _ => .modify fun p hp => hp

/-- **`confirm_rent`** pays the order from its stake. -/
theorem confirmRent_pays (h : (confirmRent renter id).run s = (.ok u, s')) :
    ∃ o i s1, s.book.rentInfo.get id = some o ∧ o.renter = renter ∧
      s.machine o.machineId = some i ∧ o.stakeAmount ≤ s.totalStake renter ∧
      (payRentFee renter o.machineId i.machineStash o.stakeAmount).run
        (s.unstake renter o.stakeAmount) = (.ok (), s1) ∧
      (∃ now, s'.book = s1.book.confirmOrder id o now) ∧
      s'.userTotalStake = s1.userTotalStake ∧ s'.balances = s1.balances := by
  unfold confirmRent at h
  simp only [run_ok, profile, run_zoom_ok] at h
  obtain ⟨o, ho, hr, -, _, -, -, i, hi, -, _, s1, hstake, _, s2, hpay, _, _, ⟨p, hconf, rfl⟩,
    rfl⟩ := h
  obtain ⟨hle, rfl⟩ := unstake_ok hstake
  have hbal := (changeMachineStatusOnConfirmed_balances o.machineId renter _ rfl).ok hconf
  exact ⟨o, i, s2, ho, hr, hi, hle, hpay, ⟨_, rfl⟩, rfl, hbal⟩

theorem reletMachineByBlock_pays
    (h : (reletMachineByBlock renter id duration).run s = (.ok u, s')) :
    s' = s ∨ ∃ o i s1 fee rentEnd, s.book.rentInfo.get id = some o ∧ o.renter = renter ∧
      o.rentStatus = .renting ∧ s.machine o.machineId = some i ∧
      (payRentFee renter o.machineId i.machineStash fee).run s = (.ok (), s1) ∧
      s'.book = s1.book.prolongOrder id o rentEnd ∧ s'.userTotalStake = s1.userTotalStake ∧
      s'.balances = s1.balances := by
  unfold reletMachineByBlock at h
  simp only [run_ok] at h
  obtain ⟨o, ho, -, hr, hst, i, hi, maxRentEnd, -, h⟩ := h
  split at h
  · simp only [run_ok] at h
    exact .inl h.symm
  · simp only [run_ok] at h
    obtain ⟨fee, s1, hfee, -, _, s2, hpay, rentEnd, hend, rfl⟩ := h
    obtain rfl := rentFee_same hfee
    exact .inr ⟨o, i, s2, fee, rentEnd, ho, hr, hst, hi, hpay, rfl, rfl, rfl⟩

end Calls

/-! ## The purse of one renter -/

/-- The reserve of `r` is its stake in this pallet, over the part `base` that others hold. -/
structure Purse (r : A) (base : Nat) (s : State A) : Prop where
  ledger : Ledger s
  reserve : s.balances.reserved r = base + s.totalStake r

theorem Purse.same {r : A} {base : Nat} {s s' : State A} (h : Purse r base s)
    (hb : s'.book = s.book) (ht : s'.userTotalStake = s.userTotalStake)
    (hr : s'.balances.reserved r = s.balances.reserved r) : Purse r base s' := by
  refine ⟨h.ledger.same hb ht, ?_⟩
  unfold State.totalStake
  rw [hr, ht]
  exact h.reserve

section Hook

variable {r : A} {base : Nat} {s s' : State A}

/-- The order `id` is gone and its renter has the stake back. -/
structure Refunded (id : Nat) (o : RentOrderDetail A) (s s' : State A) : Prop where
  order : s.book.rentInfo.get id = some o
  info : s'.book.rentInfo = s.book.rentInfo.remove id
  next : s'.book.nextRentId = s.book.nextRentId
  total : ∀ u, s'.totalStake u = s.totalStake u - if u = o.renter then o.stakeAmount else 0
  balances : s'.balances = (s.balances.unreserve o.renter o.stakeAmount).1

theorem unreserve_zero (b : Balances A) (who : A) : b.unreserve who 0 = (b, 0) := by
  unfold Balances.unreserve
  rw [if_pos rfl]

theorem profile_keeps_balances {ε α : Type} {c : Call (OnlineProfile.State A) ε α}
    (hc : Keeps (fun p => p.balances = s.balances) c) :
    Post (profile c) s
      (fun _ s' => s'.book = s.book ∧ s'.userTotalStake = s.userTotalStake ∧
        s'.balances = s.balances)
      (fun _ s' => s'.book = s.book ∧ s'.userTotalStake = s.userTotalStake ∧
        s'.balances = s.balances) := by
  unfold profile
  rw [post_zoom]
  exact (hc _ rfl).mono (fun _ _ h => ⟨rfl, rfl, h⟩) fun _ _ h => ⟨rfl, rfl, h⟩

variable {o : RentOrderDetail A}

theorem returnStake_post (hle : o.stakeAmount ≤ s.totalStake o.renter) :
    Post (returnStake o) s
      (fun _ s' => s'.book = s.book ∧
        (∀ u, s'.totalStake u = s.totalStake u - if u = o.renter then o.stakeAmount else 0) ∧
        s'.balances = (s.balances.unreserve o.renter o.stakeAmount).1) (fun _ _ => False) := by
  unfold returnStake
  rw [post_when]
  refine ⟨fun hne => ?_, fun hz => ?_⟩
  · rw [post_ignore]
    unfold changeRenterTotalStake
    simp only [post_step, Bool.false_eq_true, if_false]
    exact ⟨fun _ => ⟨rfl, totalStake_unstake o.stakeAmount, rfl⟩, fun hlt => absurd hle hlt⟩
  · rw [not_not.1 hz, unreserve_zero]
    exact ⟨rfl, fun u => by rw [ite_self, Nat.sub_zero], rfl⟩

/-- **One round of the first loop**, however it ends. -/
theorem expireOne_refunds (block id : Nat) (h : Ledger s) :
    Post (expireOne block id) s (fun _ s' => s' = s ∨ ∃ o, Refunded id o s s')
      (fun _ s' => s' = s ∨ ∃ o, Refunded id o s s') := by
  unfold expireOne
  simp only [post_step]
  refine ⟨fun o ho => ?_, fun _ => .inl trivial⟩
  have hle : o.stakeAmount ≤ s.totalStake o.renter := by
    rw [h.total]
    exact le_staked ho
  refine (returnStake_post hle).mono (fun _ s1 hret => ?_) fun _ _ hf => hf.elim
  obtain ⟨hb, ht, hbal⟩ := hret
  have hgone : Refunded id o s
      (s1.mapBook fun b => (b.rmConfirming block id).removeOrder id o) := by
    refine ⟨ho, ?_, ?_, ht, hbal⟩
    · show s1.book.rentInfo.remove id = _
      rw [hb]
    · show s1.book.nextRentId = _
      rw [hb]
  have hdone : ∀ s2 : State A,
      s2.book = (s1.book.rmConfirming block id).removeOrder id o ∧
        s2.userTotalStake = s1.userTotalStake ∧ s2.balances = s1.balances →
      Refunded id o s s2 := by
    rintro s2 ⟨hb2, ht2, hbal2⟩
    refine ⟨ho, ?_, ?_, fun u => ?_, hbal2.trans hbal⟩
    · exact (congrArg Book.rentInfo hb2).trans hgone.info
    · exact (congrArg Book.nextRentId hb2).trans hgone.next
    · unfold State.totalStake
      rw [ht2]
      exact ht u
  refine (profile_keeps_balances
    (changeMachineStatusOnConfirmExpired_balances o.machineId o.gpuNum)).mono
    (fun _ s2 h2 => .inr ⟨o, hdone s2 h2⟩) fun _ s2 h2 => .inr ⟨o, hdone s2 h2⟩

/-- **One round of the second loop**, however it ends. -/
theorem finishOne_refunds (id : Nat) (h : Ledger s) :
    Post (finishOne id) s (fun _ s' => s' = s ∨ ∃ o, Refunded id o s s')
      (fun _ s' => s' = s ∨ ∃ o, Refunded id o s s') := by
  unfold finishOne
  simp only [post_step, post_ignore]
  refine ⟨fun o ho => ⟨fun last _ => ?_, fun _ => .inl trivial⟩, fun _ => .inl trivial⟩
  have hend : ∀ s1 : State A, s1.book = s.book ∧ s1.userTotalStake = s.userTotalStake ∧
      s1.balances = s.balances →
      Post (returnStake o) s1 (fun _ s2 => (s2.mapBook fun b => b.removeOrder id o) = s ∨
        ∃ o', Refunded id o' s (s2.mapBook fun b => b.removeOrder id o))
        (fun _ s2 => s2 = s ∨ ∃ o', Refunded id o' s s2) := by
    rintro s1 ⟨hb1, ht1, hbal1⟩
    have hle : o.stakeAmount ≤ s1.totalStake o.renter := by
      unfold State.totalStake
      rw [ht1]
      show _ ≤ s.totalStake o.renter
      rw [h.total]
      exact le_staked ho
    refine (returnStake_post hle).mono (fun _ s2 hret => ?_) fun _ _ hf => hf.elim
    obtain ⟨hb, ht, hbal⟩ := hret
    refine .inr ⟨o, ho, ?_, ?_, ?_, ?_⟩
    · show s2.book.rentInfo.remove id = _
      rw [hb, hb1]
    · show s2.book.nextRentId = _
      rw [hb, hb1]
    · intro u
      rw [← show s1.totalStake u = s.totalStake u by unfold State.totalStake; rw [ht1]]
      exact ht u
    · rw [← hbal1]
      exact hbal
  exact (profile_keeps_balances (changeMachineStatusOnRentEnd_balances _ _ _ _ _ _)).mono
    (fun _ s1 h1 => hend s1 h1) fun _ s1 h1 => hend s1 h1

/-- In the hook begun in `s₀`: what leaves the reserve of `r` is free again. -/
structure Settling (r : A) (base : Nat) (s₀ s : State A) : Prop where
  purse : Purse r base s
  issuance : s.balances.issuance ≤ u128Max
  kept : ∀ {id o}, s.book.rentInfo.get id = some o → s₀.book.rentInfo.get id = some o
  free : s.balances.free r + s.totalStake r = s₀.balances.free r + s₀.totalStake r

theorem Settling.refunded {s₀ : State A} {id : Nat} (h : Settling r base s₀ s)
    (hr : Refunded id o s s') : Settling r base s₀ s' := by
  have hle : o.stakeAmount ≤ s.totalStake o.renter := by
    rw [h.purse.ledger.total]
    exact le_staked hr.order
  have hres := h.purse.reserve
  have hfree := h.free
  refine ⟨⟨h.purse.ledger.remove hr.order hr.info hr.next hr.total, ?_⟩, ?_, fun {j x} hx => ?_, ?_⟩
  · rw [hr.balances, unreserve_reserved, hr.total, hres]
    split
    · next he =>
      rw [← he] at hle
      omega
    · rfl
  · rw [hr.balances, unreserve_issuance _ _ _ h.issuance]
    exact h.issuance
  · rw [hr.info, get_remove] at hx
    split at hx
    · cases hx
    · exact h.kept hx
  · rw [hr.balances, hr.total]
    by_cases he : r = o.renter
    · have hcov : o.stakeAmount ≤ s.balances.reserved o.renter := by
        rw [← he] at hle ⊢
        omega
      rw [unreserve_free h.issuance hcov, if_pos he]
      rw [← he] at hle
      omega
    · rw [unreserve_free_ne _ _ _ he, if_neg he]
      exact hfree

/-- **The hook gives stakes back**, and does nothing else to the money of a renter. -/
theorem onFinalize_settling (h : Purse r base s) (hi : s.balances.issuance ≤ u128Max) :
    Settling r base s s.onFinalize := by
  have hstart : Settling r base s s := ⟨h, hi, id, rfl⟩
  have hround : ∀ {c : Call (State A) Unit Unit} {id : Nat} (s1 : State A),
      (Ledger s1 → Post c s1 (fun _ s' => s' = s1 ∨ ∃ o, Refunded id o s1 s')
        (fun _ s' => s' = s1 ∨ ∃ o, Refunded id o s1 s')) →
      Settling r base s s1 →
        Post c s1 (fun _ => Settling r base s) (fun _ => Settling r base s) := by
    intro c id s1 hc h1
    have hkeep : ∀ s', s' = s1 ∨ (∃ o, Refunded id o s1 s') → Settling r base s s' := by
      rintro s' (rfl | ⟨o, ho⟩)
      · exact h1
      · exact h1.refunded ho
    exact (hc h1.purse.ledger).mono (fun _ => hkeep) fun _ => hkeep
  have hfirst : ∀ block, Keeps (Settling r base s) (checkMachineStartingStatus block) :=
    fun block => .get fun s1 _ => .forEach fun id _ s2 h2 =>
      hround s2 (expireOne_refunds block id) h2
  have hsecond : ∀ block, Keeps (Settling r base s) (checkIfRentFinished block) :=
    fun block => .get fun s1 _ => .forEach fun id _ s2 h2 =>
      hround s2 (finishOne_refunds id) h2
  exact (hsecond _).run ((hfirst _).run hstart)

end Hook

/-! ## Runs -/

/-- Online-profile, told that a rent was paid, does not move the reserve of `r`. -/
def Calm (r : A) (s : State A) (stash : A) (m : MachineId) : Prop :=
  ∀ b toDestroy toStash, ((OnlineProfile.changeMachineRentFee stash m toDestroy toStash).run
    (s.toProfile.setBalances b)).2.balances.reserved r = b.reserved r

/-- Nobody else moves the reserve of `r`. -/
def Alone (crypto : Crypto A) (r : A) (t : Block A) (op : Op A) : Prop :=
  t.state.balances.issuance ≤ u128Max ∧
    match op with
    | .profile op =>
      (OnlineProfile.apply crypto t.state.toProfile op).balances.reserved r =
        t.state.balances.reserved r
    | .confirmRent _ id | .reletMachine _ id _ =>
      ∀ o i, t.state.book.rentInfo.get id = some o → t.state.machine o.machineId = some i →
        Calm r t.state i.machineStash o.machineId
    | .nextBlock => t.state.startBlock.balances.reserved r = t.state.balances.reserved r
    | _ => True

/-- The pallet, from a state without orders and stakes on, in which others hold `base` of the
reserve of `r`. -/
def ledgerSystem (crypto : Crypto A) (r : A) (base : Nat) : System (Block A) (Op A) where
  init t := t.ended = false ∧ t.state.book = .empty ∧ t.state.userTotalStake = ∅ ∧
    t.state.balances.reserved r = base
  step t op t' := op.Possible t ∧ t' = apply crypto t op

/-- What a confirmation of `r` moves: its stake is unreserved, and paid to the stash and into the
pot. -/
def PaysFromStake (r : A) (id : Nat) (s s' : State A) : Prop :=
  ∃ o i pot b₁ b₂ toStash toDestroy, s.book.rentInfo.get id = some o ∧ o.renter = r ∧
    s.machine o.machineId = some i ∧ s.rentFeePot = some pot ∧
    toStash + toDestroy = o.stakeAmount ∧
    (s.balances.unreserve r o.stakeAmount).2 = 0 ∧
    (s.balances.unreserve r o.stakeAmount).1.transfer r i.machineStash toStash = some b₁ ∧
    b₁.transfer r pot toDestroy = some b₂ ∧
    s'.balances = ((OnlineProfile.changeMachineRentFee i.machineStash o.machineId toDestroy
      toStash).run (s.toProfile.setBalances b₂)).2.balances

section Run

variable {crypto : Crypto A} {r : A} {base : Nat} {t : Block A} {s s' : State A} {u : Unit}

variable {renter : A} {m : MachineId} {id duration : Nat} {op : Op A}

theorem Purse.rent {gpuNum : Nat} (h : Purse r base s)
    (hr : (rentMachineByBlock renter m gpuNum duration).run s = (.ok u, s')) :
    Purse r base s' ∧ ∀ id o, s.book.rentInfo.get id = some o →
      s'.book.rentInfo.get id = some o := by
  rcases rentMachineByBlock_stakes hr with
    rfl | ⟨s1, o, orders, hfree, rfl, hw, hnext, hb, ht, hres⟩
  · exact ⟨h, fun _ _ ho => ho⟩
  have hinfo : s'.book.rentInfo = s.book.rentInfo.insert s.book.nextRentId o := by
    rw [hb]
    rfl
  refine ⟨⟨h.ledger.insert (o := o) (by rw [hw]; simp) hinfo (by rw [hb]; rfl) hnext ht, ?_⟩,
    fun j x hx => ?_⟩
  · rw [(reserve_eq_some hres).1, hfree.reserved, h.reserve]
    unfold State.totalStake
    rw [ht, getD_insert]
    split
    · next he =>
      rw [he, Nat.add_assoc]
      rfl
    · rfl
  · rw [hinfo, get_insert, if_neg, hx]
    rintro rfl
    rw [h.ledger.fresh] at hx
    cases hx

omit [LinearOrder A] in
theorem get_insert_isSome {b : Book A} {o o' : RentOrderDetail A}
    {x : StorageMap Nat (RentOrderDetail A)} (hx : x = b.rentInfo.insert id o') (j : Nat)
    (hj : b.rentInfo.get j = some o) : (x.get j).isSome = true := by
  rw [hx, get_insert]
  split
  · rfl
  · rw [hj]
    rfl

theorem payRentFee_reserved {stash : A} {fee : Nat} (hcalm : Calm r s stash m)
    (h : (payRentFee renter m stash fee).run s = (.ok u, s')) :
    s'.book = s.book ∧ s'.userTotalStake = s.userTotalStake ∧
      s'.balances.reserved r = s.balances.reserved r := by
  obtain ⟨pot, b₁, b₂, toStash, -, -, h1, h2, rfl⟩ := payRentFee_ok h
  refine ⟨rfl, rfl, (hcalm b₂ _ _).trans ?_⟩
  rw [transfer_reserved h2, transfer_reserved h1]

theorem Purse.confirm (h : Purse r base s)
    (hcalm : ∀ o i, s.book.rentInfo.get id = some o → s.machine o.machineId = some i →
      Calm r s i.machineStash o.machineId)
    (hr : (confirmRent renter id).run s = (.ok u, s')) :
    Purse r base s' ∧ ∀ j o, s.book.rentInfo.get j = some o →
      (s'.book.rentInfo.get j).isSome = true := by
  obtain ⟨o, i, s1, ho, rfl, hi, hle, hpay, ⟨now, hb⟩, ht, hbal⟩ := confirmRent_pays hr
  have hcalm1 : Calm r (s.unstake o.renter o.stakeAmount) i.machineStash o.machineId :=
    hcalm o i ho hi
  obtain ⟨hb1, ht1, hres1⟩ := payRentFee_reserved hcalm1 hpay
  have hinfo : s'.book.rentInfo = s.book.rentInfo.insert id (o.confirmed now) := by
    rw [hb, hb1]
    rfl
  have htotal : ∀ x, s'.totalStake x = s.totalStake x -
      if x = o.renter then o.stakeAmount else 0 := by
    intro x
    rw [← totalStake_unstake o.stakeAmount x]
    unfold State.totalStake
    rw [ht, ht1]
  have hrenter : (o.confirmed now).renter = o.renter := rfl
  refine ⟨⟨h.ledger.rewrite ho hrenter (Nat.zero_le _) (fun _ => rfl) hinfo
    (by rw [hb, hb1]; rfl) htotal, ?_⟩, fun j x hx => get_insert_isSome hinfo j hx⟩
  rw [hbal, hres1, htotal]
  show (s.balances.unreserve o.renter o.stakeAmount).1.reserved r = _
  rw [unreserve_reserved, h.reserve]
  split
  · next he =>
    rw [← he] at hle
    omega
  · rfl

theorem Purse.relet (h : Purse r base s)
    (hcalm : ∀ o i, s.book.rentInfo.get id = some o → s.machine o.machineId = some i →
      Calm r s i.machineStash o.machineId)
    (hr : (reletMachineByBlock renter id duration).run s = (.ok u, s')) :
    Purse r base s' ∧ ∀ j o, s.book.rentInfo.get j = some o →
      (s'.book.rentInfo.get j).isSome = true := by
  rcases reletMachineByBlock_pays hr with
    rfl | ⟨o, i, s1, fee, rentEnd, ho, rfl, hst, hi, hpay, hb, ht, hbal⟩
  · exact ⟨h, fun j o hj => by rw [hj]; rfl⟩
  obtain ⟨hb1, ht1, hres1⟩ := payRentFee_reserved (hcalm o i ho hi) hpay
  have hinfo : s'.book.rentInfo = s.book.rentInfo.insert id (o.setRentEnd rentEnd) := by
    rw [hb, hb1]
    rfl
  have htotal : ∀ x, s'.totalStake x = s.totalStake x := by
    intro x
    unfold State.totalStake
    rw [ht, ht1]
  have hrenter : (o.setRentEnd rentEnd).renter = o.renter := rfl
  refine ⟨⟨h.ledger.rewrite ho hrenter le_rfl
    (fun hrent => h.ledger.paid (o := o) ho hrent) hinfo (by rw [hb, hb1]; rfl) fun x => ?_, ?_⟩,
    fun j x hx => get_insert_isSome hinfo j hx⟩
  · rw [htotal]
    show _ = _ - if x = o.renter then o.stakeAmount - o.stakeAmount else 0
    rw [Nat.sub_self, ite_self, Nat.sub_zero]
  · rw [hbal, hres1, htotal]
    exact h.reserve

/-- What a step does to the purse of `r`, and that orders go at the end of a block only. -/
structure Kept (r : A) (base : Nat) (op : Op A) (s s' : State A) : Prop where
  purse : Purse r base s'
  orders : op = .endBlock ∨ ∀ id o, s.book.rentInfo.get id = some o →
    (s'.book.rentInfo.get id).isSome = true

theorem dispatch_kept {ε α : Type} {c : Call (State A) ε α} (h : Purse r base s)
    (hc : ∀ a s', c.run s = (.ok a, s') → Purse r base s' ∧ ∀ j o, s.book.rentInfo.get j = some o →
      (s'.book.rentInfo.get j).isSome = true) : Kept r base op s (c.dispatch s).2 := by
  refine dispatch_keeps (I := Kept r base op s) ⟨h, .inr fun j o hj => by rw [hj]; rfl⟩ ?_
  intro a s' hr
  exact ⟨(hc a s' hr).1, .inr (hc a s' hr).2⟩

theorem apply_kept (h : Purse r base t.state) (hc : Alone crypto r t op) :
    Kept r base op t.state (apply crypto t op).state := by
  have hsame : ∀ s', s'.book = t.state.book → s'.userTotalStake = t.state.userTotalStake →
      s'.balances.reserved r = t.state.balances.reserved r → Kept r base op t.state s' := by
    intro s' hb ht hr
    refine ⟨h.same hb ht hr, .inr fun j o hj => ?_⟩
    rw [hb, hj]
    rfl
  cases op with
  | profile op => exact hsame _ rfl rfl hc.2
  | rentMachine renter m gpuNum duration =>
    refine dispatch_kept h fun _ s' hr => ?_
    obtain ⟨hp, ho⟩ := h.rent hr
    refine ⟨hp, fun j o hj => ?_⟩
    rw [ho j o hj]
    rfl
  | confirmRent renter id => exact dispatch_kept h fun _ s' hr => h.confirm hc.2 hr
  | reletMachine renter id duration => exact dispatch_kept h fun _ s' hr => h.relet hc.2 hr
  | setRentFeePot pot => exact hsame _ rfl rfl rfl
  | endBlock => exact ⟨(onFinalize_settling h hc.1).purse, .inl rfl⟩
  | nextBlock => exact hsame _ rfl rfl hc.2

theorem reach_purse (ht : (ledgerSystem crypto r base).Reach (Alone crypto r) t) :
    Purse r base t.state := by
  refine ht.invariant (I := fun t => Purse r base t.state) ?_ ?_
  · rintro t ⟨-, hb, htot, hres⟩
    refine ⟨⟨fun x => ?_, fun {id o} ho => ?_, ?_⟩, ?_⟩
    · unfold State.totalStake Book.staked
      rw [hb, htot]
      rfl
    · rw [hb] at ho
      cases (get_empty _).symm.trans ho
    · rw [hb]
      exact get_empty _
    · unfold State.totalStake
      rw [hres, htot]
      rfl
  · rintro t op _ h hc ⟨-, rfl⟩
    exact (apply_kept h hc).purse

theorem confirmRent_paysFromStake (h : Purse r base s)
    (hr : (confirmRent r id).run s = (.ok u, s')) : PaysFromStake r id s s' := by
  obtain ⟨o, i, s1, ho, hren, hi, hle, hpay, -, -, hbal⟩ := confirmRent_pays hr
  obtain ⟨pot, b₁, b₂, toStash, hpot, hsum, h1, h2, rfl⟩ := payRentFee_ok hpay
  have hcov : o.stakeAmount ≤ s.balances.reserved r := by
    rw [h.reserve]
    omega
  exact ⟨o, i, pot, b₁, b₂, toStash, _, ho, hren, hi, hpot, hsum,
    unreserve_remaining _ _ _ hcov, h1, h2, hbal⟩

end Run

/-- **The stakes of a renter** whose reserve nobody else moves: its total is the sum of the stakes
of its orders and is what the pallet holds of its reserve, a confirmed order holds none, a
confirmation pays from the stake, and orders go only at the end of a block, when what the renter
no longer has at stake is free again. -/
theorem renter_ledger (crypto : Crypto A) (r : A) (base : Nat) (t : Block A)
    (ht : (ledgerSystem crypto r base).Reach (Alone crypto r) t) :
    (∀ u, t.state.totalStake u = t.state.book.staked u) ∧
    (∀ id o, t.state.book.rentInfo.get id = some o → o.rentStatus = .renting → o.stakeAmount = 0) ∧
    t.state.balances.reserved r = base + t.state.totalStake r ∧
    (∀ id s', (confirmRent r id).run t.state = (.ok (), s') → PaysFromStake r id t.state s') ∧
    (∀ op, Alone crypto r t op → op ≠ .endBlock → ∀ id o, t.state.book.rentInfo.get id = some o →
      ((apply crypto t op).state.book.rentInfo.get id).isSome = true) ∧
    (Alone crypto r t .endBlock →
      (∀ id o, t.state.onFinalize.book.rentInfo.get id = some o →
        t.state.book.rentInfo.get id = some o) ∧
      t.state.onFinalize.balances.free r + t.state.onFinalize.book.staked r =
        t.state.balances.free r + t.state.book.staked r) := by
  have h := reach_purse ht
  refine ⟨h.ledger.total, fun id o => h.ledger.paid, h.reserve,
    fun id s' hr => confirmRent_paysFromStake h hr, fun op hc hne => ?_, fun hc => ?_⟩
  · exact (apply_kept h hc).orders.resolve_left hne
  · have hend := onFinalize_settling h hc.1
    refine ⟨fun id o => hend.kept, ?_⟩
    rw [← h.ledger.total, ← hend.purse.ledger.total]
    exact hend.free

theorem renter_ledger_rented :
    0 < demoRented.state.totalStake 2 ∧
      demoRented.state.totalStake 2 = demoRented.state.book.staked 2 ∧
      demoRented.state.balances.reserved 2 = 0 + demoRented.state.totalStake 2 := by
  have hstart : (ledgerSystem demoCrypto 2 0).Reach (Alone demoCrypto 2) demoStart :=
    .init ⟨rfl, rfl, rfl, by decide +kernel⟩
  have hrented : (ledgerSystem demoCrypto 2 0).Reach (Alone demoCrypto 2) demoRented :=
    hstart.step (i := .rentMachine 2 [byte 7] 2 300) ⟨by decide +kernel, trivial⟩ ⟨rfl, rfl⟩
  have h := renter_ledger demoCrypto 2 0 demoRented hrented
  exact ⟨by decide +kernel, h.1 2, h.2.2.1⟩

end

end DeepBrainChain.RentMachine
