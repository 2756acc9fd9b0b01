import DeepBrainChain.TerminatingRental.Steps
import DeepBrainChain.RentMachine.Cover

/-!
# Runs of terminating-rental

Blocks of calls, from the empty storage on. The committees verify the machines that wait for it;
what they find is not looked at here, so the outcome of a verification is a step of its own, on any
machine in the list it takes its machines from. The hook at the end of a block ends the orders whose
time is up.
-/

namespace DeepBrainChain.TerminatingRental

open Lib GenericFunc Support Lib.Call StorageMap Option
open OnlineProfile (StandardGpuPointPrice Crypto)
open RentMachine (Book RentOrderDetail MachineGPUOrder Sold)

section

variable {A : Type} [LinearOrder A]

abbrev Block (A : Type) [LinearOrder A] := Lib.Block (State A)

/-- What can happen next. `outside` is what other pallets do to the state below this one. -/
inductive Op (A : Type) [LinearOrder A]
  | setStakePerGpu (amount : Nat)
  | setOnlineDeposit (deposit : Nat)
  | setStandardGpuPointPrice (price : StandardGpuPointPrice)
  | setController (stash controller : A)
  | genServerRoom (controller : A) (room : Nat)
  | bondMachine (controller : A) (m : MachineId) (msg sig : Bytes)
  | addMachineInfo (controller : A) (m : MachineId) (info : StakerCustomizeInfo)
  | bookMachine (m : MachineId)
  | revertBookedMachine (m : MachineId)
  | confirmMachine (committee : List A) (info : CommitteeUploadInfo)
  | refuseMachine (m : MachineId)
  | execSlash (stash : A) (amount : Nat)
  | faultConfirmed (m : MachineId) (fault : OPSlashReason) (reporter : A) (committee : List A)
  | rentMachine (renter : A) (m : MachineId) (gpuNum duration : Nat)
  | confirmRent (renter : A) (id : Nat)
  | reletMachine (renter : A) (id duration : Nat)
  | terminateRent (renter : A) (id : Nat)
  | machineOffline (controller : A) (m : MachineId)
  | machineOnline (controller : A) (m : MachineId)
  | machineExit (controller : A) (m : MachineId)
  | outside (c : Committee.State A)
  | endBlock
  | nextBlock

/-- Calls are made before the hook at the end of a block, and the next block starts after it. The
committees look at machines that are booked or can be. -/
def Op.Possible (t : Block A) : Op A → Prop
  | .bookMachine m => m ∈ t.state.liveMachines.confirmedMachine
  | .revertBookedMachine m | .refuseMachine m => m ∈ t.state.liveMachines.bookedMachine
  | .confirmMachine _ info => info.machineId ∈ t.state.liveMachines.bookedMachine
  | .execSlash .. | .faultConfirmed .. => True
  | .outside c => c.now = t.state.now
  | .nextBlock => t.ended = true
  | _ => t.ended = false

def apply (crypto : Crypto A) (t : Block A) : Op A → Block A
  | .setStakePerGpu amount => { t with state := ((setStakePerGpu amount).dispatch t.state).2 }
  | .setOnlineDeposit deposit => { t with state := ((setOnlineDeposit deposit).dispatch t.state).2 }
  | .setStandardGpuPointPrice price =>
    { t with state := ((setStandardGpuPointPrice price).dispatch t.state).2 }
  | .setController stash controller =>
    { t with state := ((setController stash controller).dispatch t.state).2 }
  | .genServerRoom controller room =>
    { t with state := ((genServerRoom controller room).dispatch t.state).2 }
  | .bondMachine controller m msg sig =>
    { t with state := ((bondMachine crypto controller m msg sig).dispatch t.state).2 }
  | .addMachineInfo controller m info =>
    { t with state := ((addMachineInfo controller m info).dispatch t.state).2 }
  | .bookMachine m => { t with state := ((bookMachine m).run t.state).2 }
  | .revertBookedMachine m => { t with state := ((revertBookedMachine m).run t.state).2 }
  | .confirmMachine committee info =>
    { t with state := ((confirmMachine committee info).run t.state).2 }
  | .refuseMachine m => { t with state := ((refuseMachine m).run t.state).2 }
  | .execSlash stash amount => { t with state := ((execSlash stash amount).run t.state).2 }
  | .faultConfirmed m fault reporter committee =>
    { t with state := ((faultConfirmed m fault reporter committee).run t.state).2 }
  | .rentMachine renter m gpuNum duration =>
    { t with state := ((rentMachine renter m gpuNum duration).dispatch t.state).2 }
  | .confirmRent renter id => { t with state := ((confirmRent renter id).dispatch t.state).2 }
  | .reletMachine renter id duration =>
    { t with state := ((reletMachine renter id duration).dispatch t.state).2 }
  | .terminateRent renter id => { t with state := ((terminateRent renter id).dispatch t.state).2 }
  | .machineOffline controller m =>
    { t with state := ((machineOffline controller m).dispatch t.state).2 }
  | .machineOnline controller m =>
    { t with state := ((machineOnline controller m).dispatch t.state).2 }
  | .machineExit controller m => { t with state := ((machineExit controller m).dispatch t.state).2 }
  | .outside c => { t with state := t.state.setCommitteeState c }
  | .endBlock => ⟨t.state.onFinalize, true⟩
  | .nextBlock => ⟨{ t.state with now := t.state.now + 1 }, false⟩

def system (crypto : Crypto A) : System (Block A) (Op A) where
  init t := t.ended = false ∧ ∃ c, t.state = .fresh c
  step t op t' := op.Possible t ∧ t' = apply crypto t op

/-! ## The end of a block -/

variable {s s' : State A} {u : Unit}

/-- What the end of an order does to its machine: the count of its rented cards falls by at most
those of the order. -/
structure Relieved (m : MachineId) (n : Nat) (s s' : State A) : Prop where
  book : s'.book = s.book
  rented : ∀ m', s.rentedGpu m' ≤ s'.rentedGpu m' + if m = m' then n else 0

theorem Relieved.of_eq {m : MachineId} {n : Nat} (hb : s'.book = s.book)
    (hr : s'.machineRentedGpu = s.machineRentedGpu) : Relieved m n s s' := by
  refine ⟨hb, fun m' => ?_⟩
  unfold State.rentedGpu
  rw [hr]
  exact Nat.le_add_right ..

theorem Relieved.set {m : MachineId} {n : Nat} (hb : s'.book = s.book)
    (hr : s'.machineRentedGpu = s.machineRentedGpu.insert m (s.rentedGpu m - n)) :
    Relieved m n s s' := by
  refine ⟨hb, fun m' => ?_⟩
  have hm : s'.rentedGpu m' = if m' = m then s.rentedGpu m - n else s.rentedGpu m' := by
    show s'.machineRentedGpu.getD m' 0 = _
    rw [hr]
    exact StorageMap.getD_insert ..
  rw [hm]
  split
  · next e =>
    subst e
    rw [if_pos rfl]
    omega
  · exact Nat.le_add_right ..

theorem changeMachineStatusOnRentEnd_post (m : MachineId) (gpuNum duration : Nat) (last : Bool)
    (renter : A) : Post (changeMachineStatusOnRentEnd m gpuNum duration last renter) s
      (fun _ s' => Relieved m gpuNum s s') (fun _ s' => Relieved m gpuNum s s') := by
  unfold changeMachineStatusOnRentEnd
  simp only [post_step, post_ite]
  refine ⟨fun i _ => ⟨fun _ => ?_, fun _ => ⟨fun _ => ?_, fun _ => ⟨fun _ => ?_, fun _ => ?_⟩⟩⟩,
    fun _ => ?_⟩
  · exact Relieved.of_eq rfl rfl
  · exact Relieved.set rfl rfl
  · exact Relieved.set rfl rfl
  · exact Relieved.set rfl rfl
  · exact Relieved.of_eq rfl rfl

theorem payRentFee_kept (o : RentMachine.RentOrderDetail A) (fee : Nat) (m : MachineId) :
    Post (payRentFee o fee m) s
      (fun _ s' => s'.book = s.book ∧ s'.machineRentedGpu = s.machineRentedGpu)
      (fun _ s' => s'.book = s.book ∧ s'.machineRentedGpu = s.machineRentedGpu) := by
  refine (payRentFee_post o fee m).mono (fun _ _ h => ⟨h.2.book, h.2.rented⟩) fun _ _ h => ?_
  rcases h with ⟨-, h⟩ | ⟨-, rfl⟩
  · exact ⟨h.book, h.rented⟩
  · exact ⟨rfl, rfl⟩

/-! # Cards that are never rented twice, in both pallets

terminating-rental keeps the counts of rented cards and the order book of rent-machine, and adds
calls that end orders early. None of these lowers a count by more than the cards of the order. -/

variable {s s' : State A} {u : Unit}

/-- The counts of a state cover the cards its orders hold. -/
def State.Covered (s : State A) : Prop := s.book.Covered s.rentedGpu

theorem State.Covered.of_eq (h : s.Covered) (hb : s'.book = s.book)
    (hr : s'.machineRentedGpu = s.machineRentedGpu) : s'.Covered := by
  unfold State.Covered State.rentedGpu at *
  rw [hb, hr]
  exact h

theorem State.Covered.aside {K : MachineId → Prop} (h : s.Covered) (ha : Aside K s s') :
    s'.Covered := h.of_eq ha.book ha.rented

variable {renter : A} {m : MachineId} {o : RentOrderDetail A} {id : Nat}

theorem State.Covered.placed {gpuNum : Nat} (h : s.Covered) (hp : Placed renter m gpuNum o s s')
    (hfit : gpuNum + s.rentedGpu m ≤ u32Max) :
    s'.Covered ∧ ∃ i, s.machine m = some i ∧ gpuNum + s.rentedGpu m ≤ i.gpuNum ∧
      (∀ id, s'.book.rentInfo.get id =
        if id = s.book.nextRentId then some o else s.book.rentInfo.get id) ∧
      Sold s'.book s.book.nextRentId o m gpuNum i.gpuNum := by
  obtain ⟨i, hi, hroom, hindex, hb⟩ := hp.book
  obtain ⟨rfl, -, -, rfl, -⟩ := hp.detail
  rw [wrappingAdd_of_le hfit] at hroom
  have hrented : ∀ m', s.rentedGpu m' + (if m' = o.machineId then o.gpuNum else 0) ≤
      s'.rentedGpu m' := by
    intro m'
    rw [hp.rented]
    split
    · next e =>
      subst e
      unfold saturatingAdd
      omega
    · exact le_rfl
  obtain ⟨hcovered, hsold⟩ := Book.Covered.insertOrder h hp.next hindex rfl hroom hrented
  unfold State.Covered
  rw [hb]
  exact ⟨hcovered, i, hi, hroom, Book.get_insertOrder, hsold⟩

theorem State.Covered.rewritten {o' : RentOrderDetail A} (h : s.Covered)
    (hr : Rewritten id o o' s s') : s'.Covered := by
  obtain ⟨hm, -, hnum, -, -⟩ := hr.detail
  have hbook : s'.book.Covered s.rentedGpu :=
    Book.Covered.rewrite h hr.order hr.info hr.orders hr.next hm hnum hr.index
  unfold State.Covered State.rentedGpu
  rw [hr.rented]
  exact hbook

theorem State.Covered.terminated (h : s.Covered)
    (hr : (terminateRent renter id).run s = (.ok u, s')) : s'.Covered := by
  obtain ⟨o, -, hdrop, horders⟩ := terminateRent_ok hr
  refine Book.Covered.strike h hdrop.order (fun j => ?_) (fun m => ?_) hdrop.next fun m => ?_
  · rw [hdrop.info]
    exact get_remove ..
  · unfold Book.machineOrders
    rw [horders]
    exact getD_insert ..
  · unfold State.rentedGpu
    rw [hdrop.rented]
    exact Nat.le_add_right ..

/-- The loops of `machine_offline` and `machine_exit` drop the orders they visit, and nothing
else. -/
theorem payAndDrop_loop {l : List Nat} (h : (forEach l (payAndDrop m)).run s = (.ok u, s')) :
    (∀ j, s'.book.rentInfo.get j = if j ∈ l then none else s.book.rentInfo.get j) ∧
      s'.book.machineRentOrder = s.book.machineRentOrder ∧
      s'.book.nextRentId = s.book.nextRentId ∧ s'.machineRentedGpu = s.machineRentedGpu := by
  induction l generalizing s with
  | nil =>
    rw [run_forEach_nil] at h
    cases h
    simp
  | cons id l ih =>
    rw [forEach_cons, run_bind_ok] at h
    obtain ⟨_, s1, hone, hrest⟩ := h
    obtain ⟨o, hdrop, horders, -⟩ := payAndDrop_ok hone
    obtain ⟨hget, hlist, hnext, hrented⟩ := ih hrest
    refine ⟨fun j => ?_, hlist.trans horders, hnext.trans hdrop.next, hrented.trans hdrop.rented⟩
    rw [hget, hdrop.info, get_remove]
    by_cases hj : j = id
    · simp [hj]
    · simp [hj]

theorem State.Covered.dropped (h : s.Covered)
    (hr : (forEach (s.book.machineOrders m).rentOrder.toList (payAndDrop m)).run s =
      (.ok u, s')) : (s'.mapBook fun b => b.dropMachine m).Covered := by
  obtain ⟨hget, horders, hnext, hrented⟩ := payAndDrop_loop hr
  have hlist : ∀ m', (s'.book.dropMachine m).machineOrders m' =
      if m' = m then .zero else s.book.machineOrders m' := by
    intro m'
    unfold Book.machineOrders Book.dropMachine
    rw [horders]
    exact getD_remove ..
  refine Book.Covered.shed h ?_ ?_ hnext
  · intro j x hx
    have hj : s'.book.rentInfo.get j = some x := hx
    rw [hget] at hj
    split at hj
    · cases hj
    · next hnot =>
      -- an order of the machine was on its list, and is gone
      have hne : x.machineId ≠ m := by
        rintro rfl
        exact hnot (h.listed hj)
      refine ⟨hj, ?_⟩
      show (∀ k ∈ x.gpuIndex, k ∈ ((s'.book.dropMachine m).machineOrders x.machineId).usedGpu) ∧
        j ∈ ((s'.book.dropMachine m).machineOrders x.machineId).rentOrder
      rw [hlist, if_neg hne]
      exact ⟨fun k hk => h.used hj hk, h.listed hj⟩
  · intro m'
    show ((s'.book.dropMachine m).machineOrders m').usedGpu.length ≤ s'.rentedGpu m'
    have hsame : s'.rentedGpu m' = s.rentedGpu m' := congrArg (fun x => x.getD m' 0) hrented
    rw [hlist, hsame]
    split
    · exact Nat.zero_le _
    · exact h.counted m'

theorem finishOne_covered (id : Nat) : Keeps (fun s : State A => s.Covered) (finishOne id) := by
  intro s hs
  unfold finishOne
  simp only [post_step, post_ignore]
  refine ⟨?_, fun _ => hs⟩
  intro o ho
  have hclean : ∀ s1 s2 : State A, s1.Covered → s1.book.rentInfo.get id = some o →
      Relieved o.machineId o.gpuNum s1 s2 →
      Post (cleanOrder id) s2 (fun _ s3 => s3.Covered) (fun _ s3 => s3.Covered) := by
    intro s1 s2 h1 ho1 h2
    have hget : s2.book.rentInfo.get id = some o := by
      rw [h2.book]
      exact ho1
    unfold cleanOrder
    simp only [post_step, hget, some.injEq]
    refine ⟨?_, fun hnone => by cases hnone⟩
    rintro _ rfl
    refine Book.Covered.strike h1 ho1 (fun j => ?_) (fun m => ?_) ?_ h2.rented
    · show ((s2.book.rmConfirming o.confirmEnd id).removeOrder id o).rentInfo.get j = _
      rw [h2.book]
      exact Book.get_removeOrder ..
    · show ((s2.book.rmConfirming o.confirmEnd id).removeOrder id o).machineOrders m = _
      rw [h2.book]
      exact Book.machineOrders_removeOrder m
    · show s2.book.nextRentId = _
      rw [h2.book]
  have hpaid : ∀ s1 : State A,
      s1.book = s.book ∧ s1.machineRentedGpu = s.machineRentedGpu →
      (∀ last, isLastRent s1.book o.machineId = some last → Post (changeMachineStatusOnRentEnd
        o.machineId o.gpuNum (o.rentEnd - o.rentStart) last o.renter) s1 (fun _ s2 => Post
        (cleanOrder id) s2 (fun _ s3 => s3.Covered) (fun _ s3 => s3.Covered)) (fun _ s2 => Post
        (cleanOrder id) s2 (fun _ s3 => s3.Covered) (fun _ s3 => s3.Covered))) ∧
      (isLastRent s1.book o.machineId = none → s1.Covered) := by
    rintro s1 ⟨hb, hr⟩
    have h1 : s1.Covered := hs.of_eq hb hr
    have ho1 : s1.book.rentInfo.get id = some o := by
      rw [hb]
      exact ho
    refine ⟨fun last _ => ?_, fun _ => h1⟩
    exact (changeMachineStatusOnRentEnd_post ..).mono (fun _ s2 h2 => hclean s1 s2 h1 ho1 h2)
      fun _ s2 h2 => hclean s1 s2 h1 ho1 h2
  exact (payRentFee_kept o o.stakeAmount o.machineId).mono (fun _ s1 h1 => hpaid s1 h1)
    fun _ s1 h1 => hpaid s1 h1

theorem State.Covered.onFinalize (hs : s.Covered) : s.onFinalize.Covered := by
  have hfirst : Keeps (fun s : State A => s.Covered) checkIfRentFinished :=
    Keeps.get fun s1 _ => .forEach fun id _ => finishOne_covered id
  exact (hfirst.run hs).aside (checkIfOfflineTimeout_aside _)

omit [LinearOrder A] in
theorem entered {b b' : Book A} {x : RentOrderDetail A}
    (hget : ∀ id, b'.rentInfo.get id = if id = b.nextRentId then some x else b.rentInfo.get id)
    (hnone : b.rentInfo.get id = none) (hnew : b'.rentInfo.get id = some o) :
    id = b.nextRentId ∧ o = x := by
  rw [hget] at hnew
  split at hnew
  · next e =>
    cases hnew
    exact ⟨e, rfl⟩
  · rw [hnone] at hnew
    cases hnew

/-! ## Runs -/

def Fits (t : Block A) : Op A → Prop
  | .rentMachine _ m gpuNum _ => gpuNum + t.state.rentedGpu m ≤ u32Max
  | _ => True

theorem State.Covered.dispatch {α : Type} {c : Call (State A) Error α} (h : s.Covered)
    (hc : ∀ a s', c.run s = (.ok a, s') → s'.Covered) : (c.dispatch s).2.Covered :=
  dispatch_keeps (I := State.Covered) h hc

/-- **In every run without such a request the counts cover the cards in use.** -/
theorem reach_covered {crypto : Crypto A} {t : Block A} (ht : (system crypto).Reach Fits t) :
    t.state.Covered := by
  refine ht.invariant (I := fun t => t.state.Covered) ?_ ?_
  · rintro t ⟨-, c, hc⟩
    refine Book.Covered.empty ?_ ?_
    · rw [hc]
      rfl
    · intro m
      rw [hc]
      exact getD_empty ..
  · rintro t op _ h hfit ⟨-, rfl⟩
    cases op with
    | setStakePerGpu amount => exact h
    | setOnlineDeposit deposit => exact h
    | setStandardGpuPointPrice price => exact h
    | setController stash controller =>
      exact h.dispatch fun _ s' hr => h.aside (K := anyMachine) (setController_ok hr)
    | genServerRoom controller room =>
      exact h.dispatch fun _ s' hr => h.aside (K := anyMachine) (genServerRoom_ok hr)
    | bondMachine controller m msg sig =>
      exact h.dispatch fun _ s' hr => h.aside (K := anyMachine) (bondMachine_ok hr)
    | addMachineInfo controller m info =>
      exact h.dispatch fun _ s' hr => h.aside (K := anyMachine) (addMachineInfo_ok hr)
    | bookMachine m =>
      exact h.aside (Post.storage (I := Aside anyMachine t.state) (bookMachine_post m))
    | revertBookedMachine m =>
      exact h.aside (Post.storage (I := Aside anyMachine t.state) (revertBookedMachine_post m))
    | confirmMachine committee info =>
      refine Post.storage (I := State.Covered) ?_
      exact (confirmMachine_post committee info).mono (fun _ _ ha => h.aside ha)
        fun _ _ he => he ▸ h
    | refuseMachine m =>
      refine Post.storage (I := State.Covered) ?_
      exact (refuseMachine_post m).mono (fun _ _ ha => h.aside ha) fun _ _ he => he ▸ h
    | execSlash stash amount =>
      exact h.aside (Post.storage (I := Aside anyMachine t.state) (execSlash_post stash amount))
    | faultConfirmed m fault reporter committee =>
      exact h.aside (Post.storage (I := Aside anyMachine t.state)
        (faultConfirmed_post m fault reporter committee))
    | rentMachine renter m gpuNum duration =>
      refine h.dispatch fun _ s' hr => ?_
      rcases rentMachine_ok hr with rfl | ⟨o, hplaced⟩
      · exact h
      · exact (h.placed hplaced hfit).1
    | confirmRent renter id =>
      refine h.dispatch fun _ s' hr => ?_
      obtain ⟨o, o', hrewritten⟩ := confirmRent_ok hr
      exact h.rewritten hrewritten
    | reletMachine renter id duration =>
      refine h.dispatch fun _ s' hr => ?_
      rcases reletMachine_ok hr with rfl | ⟨o, o', hrewritten⟩
      · exact h
      · exact h.rewritten hrewritten
    | terminateRent renter id => exact h.dispatch fun _ s' hr => h.terminated hr
    | machineOffline controller m =>
      refine h.dispatch fun _ s' hr => ?_
      obtain ⟨s1, s2, haside, -, hloop, hlast⟩ := machineOffline_ok hr
      rw [← haside.book] at hloop
      exact ((h.aside haside).dropped hloop).aside hlast
    | machineOnline controller m =>
      exact h.dispatch fun _ s' hr => h.aside (K := anyMachine) (machineOnline_ok hr)
    | machineExit controller m =>
      refine h.dispatch fun _ s' hr => ?_
      obtain ⟨s2, hloop, hlast⟩ := machineExit_ok hr
      exact (h.dropped hloop).aside hlast
    | outside c => exact h
    | endBlock => exact State.Covered.onFinalize h
    | nextBlock => exact h

/-- **Renting never oversells cards.** As long as no request makes the sum of the cards wrap, an
order that either pallet enters asks for no more cards than are left, and gets as many distinct
cards of the machine as it asks for, none of which belongs to another order. -/
theorem cards_never_oversold (crypto : Crypto A) :
    (∀ {t : RentMachine.Block A} {renter m gpuNum duration u s' id o}, (RentMachine.system
      crypto).Reach RentMachine.Fits t → gpuNum + t.state.machines.rentedGpu m ≤ u32Max →
      (RentMachine.rentMachineByBlock renter m gpuNum duration).run t.state = (.ok u, s') →
      t.state.book.rentInfo.get id = none → s'.book.rentInfo.get id = some o → ∃ i, t.state.machine
      m = some i ∧ gpuNum + t.state.machines.rentedGpu m ≤ i.gpuNum ∧ Sold s'.book id o m gpuNum
      i.gpuNum) ∧
    (∀ {t : Block A} {renter m gpuNum duration u s' id o},
      (system crypto).Reach Fits t → gpuNum + t.state.rentedGpu m ≤ u32Max →
      (rentMachine renter m gpuNum duration).run t.state = (.ok u, s') →
      t.state.book.rentInfo.get id = none → s'.book.rentInfo.get id = some o →
      ∃ i, t.state.machine m = some i ∧ gpuNum + t.state.rentedGpu m ≤ i.gpuNum ∧
        Sold s'.book id o m gpuNum i.gpuNum) := by
  constructor
  · intro t renter m gpuNum duration u s' id o ht hfit hrun hnone hnew
    rcases RentMachine.rentMachineByBlock_ok hrun with rfl | hplaced
    · rw [hnone] at hnew
      cases hnew
    · obtain ⟨-, i, x, hi, hroom, hget, hsold⟩ :=
        (RentMachine.reach_covered ht).placed hplaced hfit
      obtain ⟨rfl, rfl⟩ := entered hget hnone hnew
      exact ⟨i, hi, hroom, hsold⟩
  · intro t renter m gpuNum duration u s' id o ht hfit hrun hnone hnew
    rcases rentMachine_ok hrun with rfl | ⟨x, hplaced⟩
    · rw [hnone] at hnew
      cases hnew
    · obtain ⟨-, i, hi, hroom, hget, hsold⟩ := (reach_covered ht).placed hplaced hfit
      obtain ⟨rfl, rfl⟩ := entered hget hnone hnew
      exact ⟨i, hi, hroom, hsold⟩

end

/-! ## Two small chains

A machine has four cards; account 2 has rented two of them. -/

namespace CoverDemo

def wealth : Balances Nat := ⟨(∅ : StorageMap Nat AccountData).insert 2 ⟨1000000000000, 0, 0⟩⟩

def start : RentMachine.Block Nat where
  state := RentMachine.demoStart.state.setBalances wealth
  ended := false

def rented : RentMachine.Block Nat :=
  RentMachine.apply RentMachine.demoCrypto start (.rentMachine 2 [byte 7] 2 300)

theorem start_reach {C : RentMachine.Block Nat → RentMachine.Op Nat → Prop} :
    (RentMachine.system RentMachine.demoCrypto).Reach C start :=
  .init ⟨rfl, rfl, fun _ => rfl, by decide⟩

theorem rented_reach : (RentMachine.system RentMachine.demoCrypto).Reach RentMachine.Fits rented :=
  RentMachine.reach_apply start_reach _ rfl
    (show 2 + start.state.machines.rentedGpu [byte 7] ≤ u32Max by decide +kernel)

/-- Messages are accepted as the word of account 1. -/
def crypto : Crypto Nat := ⟨fun _ => some 1, fun _ _ _ => true⟩

def machineId : MachineId := List.replicate 64 (byte 7)

def chain : Chain Nat where
  now := 100
  balances := (wealth.setAccount 1 ⟨10, 0, 0⟩)
  fixedTxFee := some 1
  dbcPrice := some

def empty : Block Nat := ⟨.fresh (.fresh chain), false⟩

def arrival : List (Op Nat) :=
  [.setStandardGpuPointPrice ⟨100, 1000⟩, .setController 1 1, .genServerRoom 1 5,
    .bondMachine 1 machineId (machineId ++ List.replicate 48 (byte 0)) [],
    .addMachineInfo 1 machineId { StakerCustomizeInfo.zero with
      serverRoom := 5, telecomOperators := [[byte 1]] },
    .bookMachine machineId,
    .confirmMachine [] { CommitteeUploadInfo.zero with
      machineId := machineId, gpuNum := 4, calcPoint := 100 }]

def online : Block Nat := arrival.foldl (apply crypto) empty

def taken : Block Nat := apply crypto online (.rentMachine 2 machineId 2 300)

instance (t : Block Nat) (op : Op Nat) : Decidable (op.Possible t ∧ Fits t op) := by
  cases op <;> unfold Op.Possible Fits <;> infer_instance

theorem taken_reach : (system crypto).Reach Fits taken := by
  have hempty : (system crypto).Reach Fits empty := .init ⟨rfl, _, rfl⟩
  have hpath : System.Path (apply crypto) (fun t op => op.Possible t ∧ Fits t op)
      (arrival ++ [.rentMachine 2 machineId 2 300]) empty := by
    decide +kernel
  have hreach := hempty.path (fun t op h => ⟨h.2, h.1, rfl⟩) hpath
  rw [List.foldl_append] at hreach
  exact hreach

end CoverDemo

open CoverDemo

theorem cards_never_oversold_demo :
    (∃ s' o i, (RentMachine.rentMachineByBlock 2 [byte 7] 1 300).run rented.state = (.ok (), s') ∧
      s'.book.rentInfo.get 1 = some o ∧ Sold s'.book 1 o [byte 7] 1 i) ∧
    ∃ s' o i, (rentMachine 2 machineId 1 300).run taken.state = (.ok (), s') ∧
      s'.book.rentInfo.get 1 = some o ∧ Sold s'.book 1 o machineId 1 i := by
  constructor
  · obtain ⟨_, hrun⟩ := run_of_isOk (show
      ((RentMachine.rentMachineByBlock 2 [byte 7] 1 300).run rented.state).1.isOk = true by
        decide +kernel)
    have hnew : (((RentMachine.rentMachineByBlock 2 [byte 7] 1 300).dispatch
        rented.state).2.book.rentInfo.get 1).isSome = true := by decide +kernel
    have hfit : 1 + rented.state.machines.rentedGpu [byte 7] ≤ u32Max := by decide +kernel
    have hnone : rented.state.book.rentInfo.get 1 = none := by decide +kernel
    obtain ⟨o, ho⟩ := isSome_iff_exists.1 hnew
    obtain ⟨i, -, -, hsold⟩ := (cards_never_oversold RentMachine.demoCrypto).1 rented_reach hfit
      hrun hnone ho
    exact ⟨_, o, i.gpuNum, hrun, ho, hsold⟩
  · obtain ⟨_, hrun⟩ := run_of_isOk (show
      ((rentMachine 2 machineId 1 300).run taken.state).1.isOk = true by decide +kernel)
    have hnew : (((rentMachine 2 machineId 1 300).dispatch taken.state).2.book.rentInfo.get
        1).isSome = true := by decide +kernel
    have hfit : 1 + taken.state.rentedGpu machineId ≤ u32Max := by decide +kernel
    have hnone : taken.state.book.rentInfo.get 1 = none := by decide +kernel
    obtain ⟨o, ho⟩ := isSome_iff_exists.1 hnew
    obtain ⟨i, -, -, hsold⟩ := (cards_never_oversold crypto).2 taken_reach hfit hrun hnone ho
    exact ⟨_, o, i.gpuNum, hrun, ho, hsold⟩

/-- With two cards rented, a request for 2^32 - 2 cards makes the sum wrap to zero. Both pallets
enter an order for that many cards of a machine with four, and it gets the two that are left. -/
theorem oversold_by_wrapping :
    ((RentMachine.system RentMachine.demoCrypto).Reach (fun _ _ => True) rented ∧
      (rented.state.machine [byte 7]).map (·.gpuNum) = some 4 ∧ ((RentMachine.rentMachineByBlock 2
      [byte 7] (2 ^ 32 - 2) 300).run rented.state).1.isOk = true ∧ (((RentMachine.rentMachineByBlock
      2 [byte 7] (2 ^ 32 - 2) 300).run rented.state).2.book.rentInfo.get 1).map (fun o => (o.gpuNum,
      o.gpuIndex)) = some (2 ^ 32 - 2, [2, 3])) ∧
    (system crypto).Reach (fun _ _ => True) taken ∧
      (taken.state.machine machineId).map (·.gpuNum) = some 4 ∧
      ((rentMachine 2 machineId (2 ^ 32 - 2) 300).run taken.state).1.isOk = true ∧
      (((rentMachine 2 machineId (2 ^ 32 - 2) 300).run taken.state).2.book.rentInfo.get 1).map
        (fun o => (o.gpuNum, o.gpuIndex)) = some (2 ^ 32 - 2, [2, 3]) := by
  refine ⟨⟨rented_reach.mono fun _ _ _ => trivial, ?_⟩, taken_reach.mono fun _ _ _ => trivial, ?_⟩
  · decide +kernel
  · decide +kernel

/-! # Where the rent goes

`pay_rent_fee` gives the renter the stake back and then sends the rent out of the free balance: a
part to burn, an equal part to each committee, the rest to the stash. The parts are rounded one by
one, and the rest is what saturating subtractions leave. The payout is read here as one list of
transfers. -/

open Balances Perbill List

/-! ## Lists of transfers

The amounts are parameters here: what was rounded, and how, does not matter to the ledger. -/

section Transfers

variable {A : Type} [LinearOrder A]

/-- Make the transfers one after the other; all have to succeed. -/
def sendAll (source : A) (l : List (A × Nat)) (b : Balances A) : Option (Balances A) :=
  l.foldlM (fun b p => b.transfer source p.1 p.2) b

omit [LinearOrder A] in
/-- `burn` to the pot if there is one, `each` to each of `cs`, `rest` to the stash. -/
def transfers (pot : Option A) (burn : Nat) (cs : List A) (each : Nat) (stash : A) (rest : Nat) :
    List (A × Nat) :=
  pot.toList.map (·, burn) ++ (cs.map (·, each) ++ [(stash, rest)])

variable {b b' : Balances A} {source stash : A} {l : List (A × Nat)} {pot : Option A} {cs : List A}
  {burn each rest : Nat}

omit [LinearOrder A] in
theorem sum_transfers : ((transfers pot burn cs each stash rest).map Prod.snd).sum =
    (if pot.isSome then burn else 0) + (cs.length * each + rest) := by
  cases pot <;> simp [transfers, Function.comp_def]

theorem sendAll_reserved (h : sendAll source l b = some b') (x : A) :
    b'.reserved x = b.reserved x := by
  induction l generalizing b with
  | nil =>
    cases h
    rfl
  | cons p l ih =>
    obtain ⟨b1, hone, hrest⟩ := bind_eq_some_iff.1 h
    exact (ih hrest).trans (transfer_reserved hone x)

/-- An account that gets none of the transfers pays them all. -/
theorem sendAll_free (h : sendAll source l b = some b') (hl : source ∉ l.map Prod.fst) :
    b'.free source + (l.map Prod.snd).sum = b.free source := by
  induction l generalizing b with
  | nil =>
    cases h
    rfl
  | cons p l ih =>
    obtain ⟨b1, hone, hrest⟩ := bind_eq_some_iff.1 h
    rw [map_cons, mem_cons, not_or] at hl
    have hp := transfer_free hone source
    rw [if_pos rfl, if_neg hl.1] at hp
    have := ih hrest hl.2
    rw [map_cons, sum_cons]
    omega

theorem foldl_payOut (fee : Nat) (h : sendAll source (cs.map (·, each)) b = some b') :
    cs.foldl (fun r c => (payOut r.1 source c each, r.2 - each)) (b, fee) =
      (b', fee - cs.length * each) := by
  induction cs generalizing b fee with
  | nil =>
    cases h
    simp
  | cons c cs ih =>
    obtain ⟨b1, hone, hrest⟩ := bind_eq_some_iff.1 h
    have hpay : payOut b source c each = b1 := by simp [payOut, hone]
    rw [foldl_cons, hpay, ih (fee - each) hrest, length_cons, Nat.sub_sub,
      Nat.add_comm each, Nat.succ_mul]

theorem payOut_transfers {fee : Nat} : sendAll source (transfers pot burn cs each stash
      (fee - (if pot.isSome then burn else 0) - cs.length * each)) b = some b' →
    (let r := match pot with
        | none => (b, fee)
        | some p => (payOut b source p burn, fee - burn)
      let r := cs.foldl (fun r c => (payOut r.1 source c each, r.2 - each)) r
      (payOut r.1 source stash r.2, r.2)) =
      (b', fee - (if pot.isSome then burn else 0) - cs.length * each) := by
  intro h
  unfold transfers sendAll at h
  simp only [foldlM_append, bind_eq_bind, bind_eq_some_iff] at h
  obtain ⟨b1, hburn, b2, hcommittee, h⟩ := h
  have hpay : ∀ n, sendAll source [(stash, n)] b2 = some b' → payOut b2 source stash n = b' := by
    intro n hn
    obtain ⟨_, hone, hlast⟩ := bind_eq_some_iff.1 hn
    cases hlast
    simp [payOut, hone]
  have hloop := foldl_payOut (fee - if pot.isSome then burn else 0) hcommittee
  cases pot with
  | none =>
    cases hburn
    exact (congrArg (fun r => (payOut r.1 source stash r.2, r.2)) hloop).trans
      (congrArg (·, _) (hpay _ h))
  | some p =>
    obtain ⟨_, hone, hlast⟩ := bind_eq_some_iff.1 hburn
    cases hlast
    have hp : payOut b source p burn = b1 := by simp [payOut, hone]
    simp only [hp]
    exact (congrArg (fun r => (payOut r.1 source stash r.2, r.2)) hloop).trans
      (congrArg (·, _) (hpay _ h))

end Transfers

section

variable {A : Type} [LinearOrder A]

def State.burned (s : State A) (fee : Nat) : Nat :=
  if s.rentFeePot.isSome then (Perbill.fromRational 5 100).mul fee else 0

/-- What each of `n` committees gets of a rent. -/
def committeeEach (n fee : Nat) : Nat :=
  (Perbill.fromRational 1 n).mul (fee - (Perbill.fromRational 99 100).mul fee)

def State.stashShare (s : State A) (i : MachineInfo A) (fee : Nat) : Nat :=
  fee - s.burned fee - i.rewardCommittee.length * committeeEach i.rewardCommittee.length fee

def State.shares (s : State A) (i : MachineInfo A) (fee : Nat) : List (A × Nat) :=
  transfers s.rentFeePot ((Perbill.fromRational 5 100).mul fee) i.rewardCommittee
    (committeeEach i.rewardCommittee.length fee) i.machineStash (s.stashShare i fee)

/-! ## The rounding -/

/-- Half the committees' money covers the shares: a share that is rounded up to one or more is at
most twice what it was. -/
theorem mul_committeeEach_le {n : Nat} (hn : 0 < n) (fee : Nat) :
    n * committeeEach n fee ≤ 2 * (fee - (Perbill.fromRational 99 100).mul fee) := by
  unfold committeeEach
  generalize fee - (Perbill.fromRational 99 100).mul fee = c
  have hnear := (mul_near (Perbill.fromRational 1 n) c).2
  have hparts : n * (Perbill.fromRational 1 n).parts ≤ 1000000000 := by
    rw [parts_fromRational hn hn, Nat.one_mul]
    exact Nat.mul_div_le _ _
  generalize (Perbill.fromRational 1 n).mul c = each at hnear ⊢
  generalize (Perbill.fromRational 1 n).parts = p at hnear hparts
  rcases Nat.eq_zero_or_pos each with h0 | hpos
  · simp [h0]
  · have hle : 500000000 * each ≤ c * p := by omega
    have hmul := Nat.mul_le_mul_left n hle
    have hcn := Nat.mul_le_mul_left c hparts
    have hl : n * (500000000 * each) = 500000000 * (n * each) := by ring
    have hr : n * (c * p) = c * (n * p) := by ring
    omega

/-- **The parts fit into the rent**, for any rent and any number of committees. -/
theorem burned_add_le (s : State A) {n : Nat} (hn : 0 < n) (fee : Nat) :
    s.burned fee + n * committeeEach n fee ≤ fee := by
  have heach := mul_committeeEach_le hn fee
  have hstash := (mul_near (Perbill.fromRational 99 100) fee).1
  rw [parts_fromRational (by omega) (by omega)] at hstash
  have hburn : 20 * s.burned fee ≤ fee + 9 ∧ s.burned fee ≤ fee := by
    unfold State.burned
    split
    · have hnear := (mul_near (Perbill.fromRational 5 100) fee).2
      rw [parts_fromRational (by omega) (by omega)] at hnear
      exact ⟨by omega, mul_le _ _⟩
    · omega
  omega

/-- **The parts sum to the rent.** -/
theorem burned_add_stashShare (s : State A) {i : MachineInfo A} (hn : i.rewardCommittee ≠ [])
    (fee : Nat) : s.burned fee +
      (i.rewardCommittee.length * committeeEach i.rewardCommittee.length fee +
        s.stashShare i fee) = fee := by
  have hle := burned_add_le s (length_pos_iff.2 hn) fee
  rw [State.stashShare, Nat.sub_sub, ← Nat.add_assoc, Nat.add_sub_cancel' hle]

/-! ## The payout -/

variable {s : State A} {o : RentOrderDetail A} {i : MachineInfo A}
  {b : Balances A} {fee : Nat} {m : MachineId}

/-- From `s` to `s'` the renter of an order gets the stake back and pays the rent. -/
structure Charged (o : RentOrderDetail A) (fee : Nat) (s s' : State A) : Prop where
  free : s'.balances.free o.renter = s.balances.free o.renter + (o.stakeAmount - fee)
  reserved : s'.balances.reserved o.renter + o.stakeAmount = s.balances.reserved o.renter

theorem stake_topped {limit cards maxStake stake : Nat} (share : Nat)
    (hmax : limit * cards ≤ u128Max ∧ maxStake = limit * cards) (hlt : stake < maxStake) :
    saturatingAdd u128Max stake (min share (maxStake - stake)) =
        stake + min share (maxStake - stake) ∧
      stake + min share (maxStake - stake) ≤ maxStake := by
  have hle : stake + min share (maxStake - stake) ≤ maxStake := by omega
  exact ⟨saturatingAdd_of_le (by omega), hle⟩

/-- **The payout of a rent is conserved.** The parts sum to the rent, the renter pays just that,
and the stake of the machine grows by the stash's share up to the limit. The call fails only where
the limit itself overflows. -/
theorem rent_payout_conserved (hi : s.machine m = some i) (hfee : fee ≤ o.stakeAmount)
    (hn : i.rewardCommittee ≠ []) (hfit : s.balances.issuance ≤ u128Max)
    (hcover : o.stakeAmount ≤ s.balances.reserved o.renter)
    (hrenter : o.renter ∉ (s.shares i fee).map Prod.fst)
    (hsend : sendAll o.renter (s.shares i fee) (s.balances.unreserve o.renter o.stakeAmount).1 =
      some b)
    (hreserve : ∀ maxStake, checkedMul u128Max s.stakePerGpuLimit i.gpuNum = some maxStake →
      b.reserve i.machineStash (min (s.stashShare i fee) (maxStake - i.stakeAmount)) ≠ none) :
    (Perbill.fromRational 99 100).mul fee ≤ fee ∧
    s.payShares (s.balances.unreserve o.renter o.stakeAmount).1 o.renter i fee =
      (b, s.stashShare i fee) ∧
    s.burned fee + (i.rewardCommittee.length * committeeEach i.rewardCommittee.length fee +
      s.stashShare i fee) = fee ∧
    Post (payRentFee o fee m) s
      (fun _ s' => Charged o fee s s' ∧ ∃ maxStake i',
        checkedMul u128Max s.stakePerGpuLimit i.gpuNum = some maxStake ∧ s'.machine m = some i' ∧
        i'.stakeAmount = i.stakeAmount + min (s.stashShare i fee) (maxStake - i.stakeAmount) ∧
        (maxStake < i'.stakeAmount → maxStake < i.stakeAmount))
      (fun _ s' => Charged o fee s s' ∧
        checkedMul u128Max s.stakePerGpuLimit i.gpuNum = none) := by
  have hpaid : s.payShares (s.balances.unreserve o.renter o.stakeAmount).1 o.renter i fee =
      (b, s.stashShare i fee) :=
    payOut_transfers hsend
  have hparts := burned_add_stashShare s hn fee
  have hsum : ((s.shares i fee).map Prod.snd).sum = fee := sum_transfers.trans hparts
  have hfree := sendAll_free hsend hrenter
  have hheld := sendAll_reserved hsend o.renter
  rw [unreserve_free hfit hcover, if_pos rfl, hsum] at hfree
  rw [unreserve_reserved, if_pos rfl] at hheld
  have hstash : o.renter ≠ i.machineStash := by
    intro he
    exact hrenter (by simp [State.shares, transfers, he])
  have hcharged : ∀ {s' : State A}, s'.balances.free o.renter = b.free o.renter →
      s'.balances.reserved o.renter = b.reserved o.renter → Charged o fee s s' := by
    intro s' hf hr
    exact ⟨by omega, by omega⟩
  refine ⟨mul_le _ _, hpaid, hparts, ?_⟩
  have hshares : (s.unreserveRent o.renter o.stakeAmount).payShares
      (s.unreserveRent o.renter o.stakeAmount).balances o.renter i fee =
      (b, s.stashShare i fee) := hpaid
  generalize s.stashShare i fee = share at hreserve hshares ⊢
  unfold payRentFee
  simp only [post_step, post_when]
  rw [hi]
  refine ⟨fun i' he => ?_, fun hnone => by cases hnone⟩
  cases he
  rw [hshares]
  refine ⟨fun maxStake hmax => ⟨fun hlt => ⟨fun b' hb' => ?_, fun hnone => ?_⟩, fun hge => ?_⟩,
    fun hnone => ⟨hcharged rfl rfl, hnone⟩⟩
  · obtain ⟨hres, hfree', -⟩ := reserve_eq_some hb'
    obtain ⟨hadd, hle⟩ := stake_topped share (checkedMul_eq_some.1 hmax) hlt
    refine ⟨hcharged ?_ ?_, maxStake, _, hmax, (machine_putMachine ..).trans (if_pos rfl), hadd, ?_⟩
    · refine (hfree' o.renter).trans ?_
      rw [if_neg hstash, Nat.sub_zero]
    · refine (hres o.renter).trans ?_
      rw [if_neg hstash, Nat.add_zero]
    · intro hgt
      exact absurd (hgt.trans_le (hadd.trans_le hle)) (Nat.lt_irrefl _)
  · exact absurd hnone (hreserve maxStake hmax)
  · refine ⟨hcharged rfl rfl, maxStake, i, hmax, hi, ?_, fun h => h⟩
    rw [Nat.sub_eq_zero_of_le (Nat.le_of_not_lt hge), Nat.min_zero, Nat.add_zero]

end

namespace PayoutDemo

/-- A rented machine of stash 1 with one committee; account 2 has 1000 reserved as rent. -/
def info : MachineInfo Nat :=
  { MachineInfo.newBonding 1 1 0 50 with
    rewardCommittee := [3], committeeUploadInfo := { CommitteeUploadInfo.zero with gpuNum := 4 } }

def before : State Nat :=
  { (State.fresh (.fresh CoverDemo.chain)).putMachine [byte 7] info with
    balances := ⟨(∅ : StorageMap Nat AccountData).insert 2 ⟨10, 1000, 0⟩⟩
    rentFeePot := some 9
    stakePerGpu := 100 }

def order : RentOrderDetail Nat := ⟨[byte 7], 2, 0, 0, 300, 1000, .renting, 4, [0, 1, 2, 3]⟩

def sent : Option (Balances Nat) :=
  sendAll order.renter (before.shares info 900) (before.balances.unreserve order.renter 1000).1

theorem sent_isSome : sent.isSome := by decide +kernel

end PayoutDemo

open PayoutDemo in
theorem rent_payout_conserved_demo : Charged order 900 before
      ((payRentFee order 900 [byte 7]).run before).2 ∧
    before.burned 900 + (1 * committeeEach 1 900 + before.stashShare info 900) = 900 := by
  have hsend : sent = some (sent.get sent_isSome) := (some_get _).symm
  have hlimit : checkedMul u128Max before.stakePerGpuLimit info.gpuNum = some 400 := by
    decide +kernel
  have hreserve : (sent.bind (·.reserve 1 (min (before.stashShare info 900) 350))).isSome := by
    decide +kernel
  rw [hsend, bind_some] at hreserve
  have hpaid := rent_payout_conserved (m := [byte 7]) rfl (by decide) (by decide)
    (by decide +kernel) (by decide +kernel) (by decide +kernel) hsend (by
      intro maxStake hmax
      cases hlimit.symm.trans hmax
      exact isSome_iff_ne_none.1 hreserve)
  exact ⟨(hpaid.2.2.2.mono (fun _ _ h => h.1) fun _ _ h => h.1).storage, hpaid.2.2.1⟩

end DeepBrainChain.TerminatingRental
