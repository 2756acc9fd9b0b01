import DeepBrainChain.TerminatingRental.Calls

/-!
# What the calls of terminating-rental do

One lemma a call, about the orders, the counts of rented cards, the stakes of the renters and the
records of the machines. Most calls are asides: they leave all of that alone, except that some
drop the record of a machine or change its cards.
-/

namespace DeepBrainChain.TerminatingRental

open Lib GenericFunc Support Lib.Call StorageMap
open RentMachine (Book RentOrderDetail MachineGPUOrder)
open OnlineProfile (Crypto)

section

variable {A : Type} [LinearOrder A] {s s' s'' : State A} {u : Unit}

def State.HasCards (s : State A) (m : MachineId) : Prop := ∃ i, s.machine m = some i ∧ 0 < i.gpuNum

theorem State.HasCards.of_eq {m : MachineId} (h : s.HasCards m)
    (he : s'.machinesInfo = s.machinesInfo) : s'.HasCards m := by
  unfold State.HasCards State.machine at *
  rwa [he]

/-- The orders and the stakes stay, and the machines in `K` keep a record with cards. -/
structure Aside (K : MachineId → Prop) (s s' : State A) : Prop where
  book : s'.book = s.book
  rented : s'.machineRentedGpu = s.machineRentedGpu
  total : s'.renterTotalStake = s.renterTotalStake
  held : s'.rentReserve = s.rentReserve
  length : s'.maximumRentalDuration = s.maximumRentalDuration
  now : s'.now = s.now
  cards : ∀ m, K m → s.HasCards m → s'.HasCards m

def anyMachine : MachineId → Prop := fun _ => True

namespace Aside

variable {K : MachineId → Prop}

theorem refl (s : State A) : Aside K s s := ⟨rfl, rfl, rfl, rfl, rfl, rfl, fun _ _ h => h⟩

theorem trans (h : Aside K s s') (h' : Aside K s' s'') : Aside K s s'' :=
  ⟨h'.book.trans h.book, h'.rented.trans h.rented, h'.total.trans h.total, h'.held.trans h.held,
    h'.length.trans h.length, h'.now.trans h.now, fun m hm hc => h'.cards m hm (h.cards m hm hc)⟩

theorem of_machines (hb : s'.book = s.book) (hr : s'.machineRentedGpu = s.machineRentedGpu)
    (ht : s'.renterTotalStake = s.renterTotalStake) (hh : s'.rentReserve = s.rentReserve)
    (hl : s'.maximumRentalDuration = s.maximumRentalDuration) (hn : s'.now = s.now)
    (hm : s'.machinesInfo = s.machinesInfo) : Aside K s s' := by
  exact ⟨hb, hr, ht, hh, hl, hn, fun m _ hc => hc.of_eq hm⟩

theorem mapLive (s : State A) (f : LiveMachine → LiveMachine) : Aside K s (s.mapLive f) :=
  of_machines rfl rfl rfl rfl rfl rfl rfl

theorem setBalances (s : State A) (b : Balances A) : Aside K s (s.setBalances b) :=
  of_machines rfl rfl rfl rfl rfl rfl rfl

end Aside

theorem machine_putMachine (s : State A) (m m' : MachineId) (i : MachineInfo A) :
    (s.putMachine m i).machine m' = if m' = m then some i else s.machine m' :=
  get_insert ..

theorem machine_rmMachine (s : State A) (m m' : MachineId) :
    (s.rmMachine m).machine m' = if m' = m then none else s.machine m' :=
  get_remove ..

variable {i : MachineInfo A} {id gpuNum duration : Nat} {renter : A}

theorem State.HasCards.put {m m' : MachineId} (h : s.HasCards m')
    (hi : m' = m → 0 < i.gpuNum) : (s.putMachine m i).HasCards m' := by
  unfold State.HasCards
  rw [machine_putMachine]
  split
  · next he => exact ⟨i, rfl, hi he⟩
  · exact h

theorem Aside.putMachine {K : MachineId → Prop} {m : MachineId} {i' : MachineInfo A}
    (hi : s.machine m = some i) (hg : i'.gpuNum = i.gpuNum) : Aside K s (s.putMachine m i') := by
  refine ⟨rfl, rfl, rfl, rfl, rfl, rfl, fun m' _ hc => hc.put fun he => ?_⟩
  obtain ⟨j, hj, hpos⟩ := hc
  subst he
  rw [hi] at hj
  cases hj
  rw [hg]
  exact hpos

/-! ## Payments -/

theorem payFixedTxFee_aside {K : MachineId → Prop} {who : A}
    (h : (payFixedTxFee who).run s = (.ok u, s')) : Aside K s s' := by
  unfold payFixedTxFee GenericFunc.payFixedTxFee at h
  simp only [run_ok, run_zoom_ok] at h
  obtain ⟨_, ⟨fee, -, -, rfl⟩, rfl⟩ := h
  exact .of_machines rfl rfl rfl rfl rfl rfl rfl

theorem changeStashTotalStake_post {K : MachineId → Prop} (who : A) (amount : Nat) (isAdd : Bool) :
    Post (changeStashTotalStake who amount isAdd) s (fun _ s' => Aside K s s' ∧
      s'.machinesInfo = s.machinesInfo) (fun _ s' => s' = s) := by
  have hset : ∀ b n, Aside K s ((s.setBalances b).setStashStake who n) :=
    fun b n => .of_machines rfl rfl rfl rfl rfl rfl rfl
  unfold changeStashTotalStake
  simp only [post_step, post_ite]
  exact ⟨fun _ => ⟨fun n _ => ⟨fun b _ => ⟨hset b n, rfl⟩, fun _ => trivial⟩, fun _ => trivial⟩,
    fun _ => ⟨fun n _ => ⟨hset _ n, rfl⟩, fun _ => trivial⟩⟩

theorem rentFee_same {fee : Nat}
    (h : (rentFee i gpuNum duration).run s = (.ok fee, s')) : s' = s := by
  unfold rentFee at h
  simp only [run_ok] at h
  obtain ⟨_, _, _, _, _, rfl⟩ := h
  rfl

/-- `renter` staked `amount` more, and nothing else of the rental state moved. -/
structure Staked (renter : A) (amount : Nat) (s s' : State A) : Prop where
  book : s'.book = s.book
  rented : s'.machineRentedGpu = s.machineRentedGpu
  machines : s'.machinesInfo = s.machinesInfo
  length : s'.maximumRentalDuration = s.maximumRentalDuration
  now : s'.now = s.now
  total : ∀ r, s'.totalStake r = s.totalStake r + if r = renter then amount else 0
  held : ∀ r, s'.heldRent r = s.heldRent r + if r = renter then amount else 0

theorem changeRenterTotalStake_ok {amount : Nat}
    (h : (changeRenterTotalStake renter amount true).run s = (.ok u, s')) :
    Staked renter amount s s' := by
  unfold changeRenterTotalStake at h
  simp only [run_ok, if_true] at h
  obtain ⟨b, -, new, hnew, rfl⟩ := h
  obtain ⟨-, rfl⟩ := checkedAdd_eq_some.1 hnew
  refine ⟨rfl, rfl, rfl, rfl, rfl, fun r => ?_, fun r => ?_⟩
  · show (s.renterTotalStake.insert renter _).getD r 0 = _
    rw [getD_insert]
    split
    · next he => rw [he]
    · rfl
  · show (s.rentReserve.insert renter _).getD r 0 = _
    rw [getD_insert]
    split
    · next he => rw [he]
    · rfl

/-- What giving back a stake takes from the reserve. -/
def State.freed (s : State A) (o : RentOrderDetail A) : Nat :=
  o.stakeAmount - (s.balances.unreserve o.renter o.stakeAmount).2

/-- The rent of an order was paid, perhaps up to an error at the stake of the machine. -/
structure Paid (o : RentOrderDetail A) (s s' : State A) : Prop where
  book : s'.book = s.book
  rented : s'.machineRentedGpu = s.machineRentedGpu
  total : s'.renterTotalStake = s.renterTotalStake
  held : ∀ r, s'.heldRent r = s.heldRent r - if r = o.renter then s.freed o else 0
  length : s'.maximumRentalDuration = s.maximumRentalDuration
  now : s'.now = s.now
  cards : ∀ m, s.HasCards m → s'.HasCards m
  machines : ∀ m, s.machine m ≠ none → s'.machine m ≠ none

theorem heldRent_unreserveRent (s : State A) (o : RentOrderDetail A) (r : A) :
    (s.unreserveRent o.renter o.stakeAmount).heldRent r =
      s.heldRent r - if r = o.renter then s.freed o else 0 := by
  show (s.rentReserve.insert o.renter _).getD r 0 = _
  rw [getD_insert]
  split
  · next he =>
    rw [he]
    rfl
  · rfl

/-- **`pay_rent_fee`** gives the stake back if the machine has a record, whatever happens then. -/
theorem payRentFee_post (o : RentOrderDetail A) (fee : Nat) (m : MachineId) :
    Post (payRentFee o fee m) s (fun _ s' => s.machine m ≠ none ∧ Paid o s s')
      (fun _ s' => (s.machine m ≠ none ∧ Paid o s s') ∨ (s.machine m = none ∧ s' = s)) := by
  unfold payRentFee
  simp only [post_step, post_when]
  refine ⟨fun i hi => ?_, fun hnone => .inr ⟨hnone, trivial⟩⟩
  have hrec : s.machine m ≠ none := by simp [hi]
  have hpaid : ∀ b, Paid o s ((s.unreserveRent o.renter o.stakeAmount).setBalances b) := fun b =>
    ⟨rfl, rfl, rfl, heldRent_unreserveRent s o, rfl, rfl, fun _ h => h, fun _ h => h⟩
  refine ⟨fun maxStake _ => ⟨fun _ => ⟨fun b _ => ⟨hrec, ?_⟩, fun _ => .inl ⟨hrec, hpaid _⟩⟩,
    fun _ => ⟨hrec, hpaid _⟩⟩, fun _ => .inl ⟨hrec, hpaid _⟩⟩
  refine ⟨rfl, rfl, rfl, heldRent_unreserveRent s o, rfl, rfl, fun m' hm' => ?_, fun m' hm' => ?_⟩
  · have hgpu : ∀ n, (i.setStakeAmount n).gpuNum = i.gpuNum := fun _ => rfl
    exact (Aside.putMachine (K := anyMachine) hi (hgpu _)).cards m' trivial hm'
  · show ((s.putMachine m _).machine m') ≠ none
    rw [machine_putMachine]
    split
    · simp
    · exact hm'

/-! ## Machines -/

section Machines

variable {K : MachineId → Prop} {controller : A} {m : MachineId}

variable {stash : A} {crypto : Crypto A} {msg sig : Bytes}

theorem setController_ok (h : (setController stash controller).run s = (.ok u, s')) :
    Aside K s s' := by
  unfold setController at h
  simp only [run_ok] at h
  obtain ⟨-, -, rfl⟩ := h
  exact .of_machines rfl rfl rfl rfl rfl rfl rfl

theorem genServerRoom_ok {room : Nat} (h : (genServerRoom controller room).run s = (.ok u, s')) :
    Aside K s s' := by
  unfold genServerRoom at h
  simp only [run_ok] at h
  obtain ⟨stash, -, _, s1, hpay, rfl⟩ := h
  exact (payFixedTxFee_aside hpay).trans (.of_machines rfl rfl rfl rfl rfl rfl rfl)

theorem checkBondingMsg_same
    (h : (checkBondingMsg crypto stash m msg sig).run s = (.ok u, s')) : s' = s := by
  unfold checkBondingMsg at h
  simp only [run_ok] at h
  obtain ⟨-, -, _, -, -, -, rfl⟩ := h
  rfl

theorem bondMachine_ok
    (h : (bondMachine crypto controller m msg sig).run s = (.ok u, s')) : Aside K s s' := by
  unfold bondMachine at h
  simp only [run_ok] at h
  obtain ⟨stash, -, hnew, _, s1, hmsg, _, s2, hstake, rfl⟩ := h
  obtain rfl := checkBondingMsg_same hmsg
  obtain ⟨haside, hsame⟩ := (changeStashTotalStake_post (K := K) ..).ok hstake
  have hput : Aside K s2
    (s2.putMachine m (.bondMachine controller stash s1.now s1.onlineDeposit)) := by
    refine ⟨rfl, rfl, rfl, rfl, rfl, rfl, fun m' _ hc => hc.put fun he => ?_⟩
    -- the machine had no record
    obtain ⟨i, hi, -⟩ := hc
    subst he
    unfold State.machine at hi hnew
    rw [hsame, hnew] at hi
    cases hi
  refine haside.trans (hput.trans ?_)
  exact .of_machines rfl rfl rfl rfl rfl rfl rfl

theorem ensureController_ok {i : MachineInfo A}
    (h : (ensureController i controller).run s = (.ok u, s')) :
    s.stashController.get i.machineStash = some controller ∧ s = s' := by
  unfold ensureController at h
  simp only [run_ok] at h
  exact h

theorem addMachineInfo_ok {info : StakerCustomizeInfo}
    (h : (addMachineInfo controller m info).run s = (.ok u, s')) : Aside K s s' := by
  unfold addMachineInfo at h
  simp only [run_ok] at h
  obtain ⟨i, hi, _, _, _, -, -, -, rfl⟩ := h
  have hput := Aside.putMachine (K := K) (s := s.mapLive (·.addMachineInfo m)) hi
    (show (i.addMachineInfo info).gpuNum = i.gpuNum from rfl)
  exact (Aside.mapLive s _).trans hput

theorem relist_post (f : LiveMachine → LiveMachine) (status : MachineStatus A) :
    Post (do
      modify fun s => s.mapLive f
      let s ← get
      let i ← okOr (s.machine m) ()
      set (s.putMachine m (i.setStatus status))) s
      (fun _ s' => Aside K s s') (fun _ s' => Aside K s s') := by
  simp only [post_step]
  refine ⟨fun i hi => (Aside.mapLive s f).trans ?_, fun _ => Aside.mapLive s f⟩
  exact Aside.putMachine hi rfl

theorem bookMachine_post (m : MachineId) :
    Post (bookMachine m) s (fun _ s' => Aside K s s') (fun _ s' => Aside K s s') :=
  relist_post _ _

theorem revertBookedMachine_post (m : MachineId) :
    Post (revertBookedMachine m) s (fun _ s' => Aside K s s') (fun _ s' => Aside K s s') :=
  relist_post _ _

theorem confirmMachine_post (committee : List A) (info : CommitteeUploadInfo) :
    Post (confirmMachine committee info) s
      (fun _ s' => Aside (fun m => m = info.machineId → 0 < info.gpuNum) s s')
      (fun _ s' => s' = s) := by
  unfold confirmMachine
  simp only [post_step]
  refine ⟨fun i hi => ?_, fun _ => trivial⟩
  refine (changeStashTotalStake_post ..).mono (fun _ s1 h1 => h1.1.trans ?_) fun _ _ h => h
  have hput : ∀ j : MachineInfo A, j.gpuNum = info.gpuNum →
      Aside (fun m => m = info.machineId → 0 < info.gpuNum) s1 (s1.putMachine info.machineId j) :=
    fun j hj => ⟨rfl, rfl, rfl, rfl, rfl, rfl, fun m' hm hc => hc.put fun he => hj ▸ hm he⟩
  refine (hput { i.machineOnline s1.now info with rewardCommittee := committee } rfl).trans ?_
  exact .of_machines rfl rfl rfl rfl rfl rfl rfl

theorem refuseMachine_post (m : MachineId) :
    Post (refuseMachine m) s (fun _ s' => Aside (· ≠ m) s s') (fun _ s' => s' = s) := by
  unfold refuseMachine
  simp only [post_step]
  refine ⟨fun i hi => ⟨rfl, rfl, rfl, rfl, rfl, rfl, fun m' hm hc => ?_⟩, fun _ => trivial⟩
  obtain ⟨j, hj, hpos⟩ := hc
  refine ⟨j, ?_, hpos⟩
  show (s.rmMachine m).machine m' = some j
  rw [machine_rmMachine, if_neg hm, hj]

theorem execSlash_post (stash : A) (amount : Nat) :
    Post (execSlash stash amount) s (fun _ s' => Aside K s s') (fun _ s' => Aside K s s') := by
  unfold execSlash
  simp only [post_step]
  exact ⟨fun n _ => .of_machines rfl rfl rfl rfl rfl rfl rfl, fun _ => .refl s⟩

theorem faultConfirmed_post (m : MachineId) (fault : OPSlashReason) (reporter : A)
    (committee : List A) :
    Post (faultConfirmed m fault reporter committee) s (fun _ s' => Aside K s s')
      (fun _ s' => Aside K s s') := by
  unfold faultConfirmed
  simp only [post_step]
  refine ⟨fun i hi => (Aside.mapLive s (·.machineOffline m)).trans ?_, fun _ => .refl s⟩
  exact Aside.putMachine hi rfl

theorem machineOnline_ok (h : (machineOnline controller m).run s = (.ok u, s')) : Aside K s s' := by
  unfold machineOnline at h
  simp only [run_ok] at h
  obtain ⟨i, hi, _, s1, hctl, h⟩ := h
  split at h
  · simp only [run_ok] at h
    subst h
    exact ⟨rfl, rfl, rfl, rfl, rfl, rfl, (Aside.putMachine (K := K) hi
      (show (i.reonlined s.now .online).gpuNum = i.gpuNum from rfl)).cards⟩
  · simp only [run_ok, run_throw] at h

/-- **The second loop of the hook** only looks at the stakes of machines. -/
theorem checkIfOfflineTimeout_aside (s : State A) :
    Aside anyMachine s (checkIfOfflineTimeout.run s).2 := by
  have hround : ∀ m, Keeps (Aside anyMachine s) (offlineTimeout m) := by
    intro m
    refine .get fun s1 h1 => .okOr fun i hi => .set (h1.trans ?_)
    have hput : ∀ s2 : State A, s2.machine m = some i →
        Aside anyMachine s2 (s2.putMachine m (i.setStakeAmount 0)) :=
      fun s2 h2 => Aside.putMachine h2 rfl
    split
    · exact (Aside.setBalances s1 _).trans (hput _ hi)
    · exact hput _ hi
  have hall : Keeps (Aside anyMachine s) checkIfOfflineTimeout := by
    refine .get fun s1 _ => .bind (Keeps.forEach fun m _ => hround m) fun _ => ?_
    refine .modify fun s2 h2 => h2.trans ?_
    exact .of_machines rfl rfl rfl rfl rfl rfl rfl
  exact hall.run (.refl s)

end Machines

/-! ## Renting -/

/-- An order was entered, with its stake. -/
structure Placed (renter : A) (m : MachineId) (gpuNum : Nat) (o : RentOrderDetail A)
    (s s' : State A) : Prop where
  next : s.book.rentInfo.get (Book.succId s.book.nextRentId) = none
  cards : s.HasCards m
  detail : o.machineId = m ∧ o.renter = renter ∧ o.rentStatus = .waitingVerifying ∧
    o.gpuNum = gpuNum ∧ s.now ≤ o.rentEnd
  book : ∃ i, s.machine m = some i ∧ wrappingAdd u32Max gpuNum (s.rentedGpu m) ≤ i.gpuNum ∧
    o.gpuIndex = ((s.book.machineOrders m).genRentableGpu gpuNum i.gpuNum).1 ∧
    s'.book = s.book.insertOrder o ((s.book.machineOrders m).genRentableGpu gpuNum i.gpuNum).2
  rented : ∀ m', s'.rentedGpu m' =
    if m' = m then saturatingAdd u32Max (s.rentedGpu m) gpuNum else s.rentedGpu m'
  total : ∀ r, s'.totalStake r = s.totalStake r + if r = renter then o.stakeAmount else 0
  held : ∀ r, s'.heldRent r = s.heldRent r + if r = renter then o.stakeAmount else 0
  now : s'.now = s.now
  keeps : ∀ m', s.HasCards m' → s'.HasCards m'

theorem changeMachineStatusOnRentStart_ok {m : MachineId}
    (h : (changeMachineStatusOnRentStart m gpuNum).run s = (.ok u, s')) :
    ∃ i, s.machine m = some i ∧ s' = (s.putMachine m (i.setStatus .rented)).setRentedGpu m
      (saturatingAdd u32Max (s.rentedGpu m) gpuNum) := by
  unfold changeMachineStatusOnRentStart at h
  simp only [run_ok] at h
  obtain ⟨i, hi, rfl⟩ := h
  exact ⟨i, hi, rfl⟩

/-- **`rent_machine`** does nothing or enters an order. -/
theorem rentMachine_ok {m : MachineId}
    (h : (rentMachine renter m gpuNum duration).run s = (.ok u, s')) :
    s' = s ∨ ∃ o, Placed renter m gpuNum o s s' := by
  unfold rentMachine at h
  simp only [run_ok] at h
  obtain ⟨i, hi, h⟩ := h
  split at h
  · simp only [run_ok] at h
    exact .inl h.symm
  · next hz =>
    obtain ⟨hg, -⟩ := not_or.1 hz
    simp only [run_ok] at h
    obtain ⟨hroom, -, -, _, s1, hpay, fee, s2, hfee, rentEnd, hend, _, s3, hstake, h⟩ := h
    obtain rfl := rentFee_same hfee
    have hfree := payFixedTxFee_aside (K := anyMachine) hpay
    have hstaked := changeRenterTotalStake_ok hstake
    unfold placeOrder at h
    simp only [run_ok] at h
    obtain ⟨hnext, _, _, hstart, rfl⟩ := h
    obtain ⟨i0, hi0, rfl⟩ := changeMachineStatusOnRentStart_ok hstart
    obtain ⟨-, rfl⟩ := checkedAdd_eq_some.1 hend
    have hbook : s3.book = s.book := hstaked.book.trans hfree.book
    have hnow : s3.now = s.now := hstaked.now.trans hfree.now
    have hrented : ∀ m', s3.rentedGpu m' = s.rentedGpu m' := by
      intro m'
      unfold State.rentedGpu
      rw [hstaked.rented, hfree.rented]
    rw [hbook] at hnext
    refine .inr ⟨.new m renter s3.now
        (s.now + min duration (saturatingMul u32Max s.maximumRentalDuration oneDay)) fee gpuNum
        ((s.book.machineOrders m).genRentableGpu gpuNum i.gpuNum).1,
      hnext, ⟨i, hi, by omega⟩, ⟨rfl, rfl, rfl, rfl, Nat.le_add_right s.now _⟩,
      ⟨i, hi, hroom, rfl, ?_⟩, fun m' => ?_, fun r => ?_, fun r => ?_, hnow, fun m' hm' => ?_⟩
    · show s3.book.insertOrder _ _ = _
      rw [hbook]
    · show (s3.machineRentedGpu.insert m _).getD m' 0 = _
      rw [getD_insert, hrented m]
      split
      · rfl
      · exact hrented m'
    · refine (hstaked.total r).trans ?_
      unfold State.totalStake
      rw [hfree.total]
      rfl
    · refine (hstaked.held r).trans ?_
      unfold State.heldRent
      rw [hfree.held]
      rfl
    · have h2 := hfree.cards m' trivial hm'
      have h4 := (Aside.putMachine (K := anyMachine) hi0
        (show (i0.setStatus .rented).gpuNum = i0.gpuNum from rfl)).cards m' trivial
        (h2.of_eq hstaked.machines)
      exact h4.of_eq rfl

/-- An order was rewritten: its machine, its cards and its renter stay. -/
structure Rewritten (id : Nat) (o o' : RentOrderDetail A) (s s' : State A) : Prop where
  order : s.book.rentInfo.get id = some o
  info : s'.book.rentInfo = s.book.rentInfo.insert id o'
  next : s'.book.nextRentId = s.book.nextRentId
  orders : s'.book.machineRentOrder = s.book.machineRentOrder
  detail : o'.machineId = o.machineId ∧ o'.renter = o.renter ∧ o'.gpuNum = o.gpuNum ∧
    o.rentEnd ≤ o'.rentEnd ∧ o.stakeAmount ≤ o'.stakeAmount
  index : o'.gpuIndex = o.gpuIndex
  listed : s.book.Listed → s'.book.Listed
  rented : s'.machineRentedGpu = s.machineRentedGpu
  total : ∀ r, s'.totalStake r =
    s.totalStake r + if r = o.renter then o'.stakeAmount - o.stakeAmount else 0
  held : ∀ r, s'.heldRent r =
    s.heldRent r + if r = o.renter then o'.stakeAmount - o.stakeAmount else 0
  now : s'.now = s.now
  keeps : ∀ m, s.HasCards m → s'.HasCards m

theorem changeMachineStatusOnConfirmed_ok {K : MachineId → Prop} {m : MachineId}
    (h : (changeMachineStatusOnConfirmed m renter).run s = (.ok u, s')) : Aside K s s' := by
  unfold changeMachineStatusOnConfirmed at h
  simp only [run_ok] at h
  obtain ⟨i, hi, rfl⟩ := h
  exact ⟨rfl, rfl, rfl, rfl, rfl, rfl, (Aside.putMachine (K := K) hi (show
    (OnlineProfile.State.confirmedBy i renter).gpuNum = i.gpuNum from rfl)).cards⟩

/-- **`confirm_rent`** confirms a waiting order; its stake stays. -/
theorem confirmRent_ok (h : (confirmRent renter id).run s = (.ok u, s')) :
    ∃ o o', Rewritten id o o' s s' := by
  unfold confirmRent at h
  simp only [run_ok] at h
  obtain ⟨o, ho, -, hw, _, -, -, i, -, -, _, s1, hconf, rfl⟩ := h
  have haside := changeMachineStatusOnConfirmed_ok (K := anyMachine) hconf
  have hzero : ∀ (n : Nat) (r : A),
      (n + if r = o.renter then o.stakeAmount - o.stakeAmount else 0) = n := by
    intro n r
    rw [Nat.sub_self, ite_self, Nat.add_zero]
  refine ⟨o, confirmRentDetail o s1.now, ho, ?_, ?_, ?_, ⟨rfl, rfl, rfl, le_rfl, le_rfl⟩, rfl,
    fun hl => ?_, haside.rented, fun r => ?_, fun r => ?_, haside.now,
    fun m hm => haside.cards m trivial hm⟩
  · show s1.book.rentInfo.insert id _ = _
    rw [haside.book]
  · show s1.book.nextRentId = _
    rw [haside.book]
  · show s1.book.machineRentOrder = _
    rw [haside.book]
  · show (s1.book.confirmAs id o _).Listed
    rw [haside.book]
    exact hl.confirmAs ho hw (by simp [confirmRentDetail]) rfl rfl rfl
  · refine (congrArg (fun x => x.getD r 0) haside.total).trans ?_
    exact (hzero (s.totalStake r) r).symm
  · refine (congrArg (fun x => x.getD r 0) haside.held).trans ?_
    exact (hzero (s.heldRent r) r).symm

theorem totalStake_mapBook (s : State A) (f : Book A → Book A) (r : A) :
    (s.mapBook f).totalStake r = s.totalStake r := rfl

theorem heldRent_mapBook (s : State A) (f : Book A → Book A) (r : A) :
    (s.mapBook f).heldRent r = s.heldRent r := rfl

omit [LinearOrder A] in
theorem confirmKey_prolongedDetail (o : RentOrderDetail A) (rentEnd stake : Nat) :
    (prolongedDetail o rentEnd stake).confirmKey = o.confirmKey := rfl

/-- **`relet_machine`** does nothing or prolongs a running order, with more stake. -/
theorem reletMachine_ok (h : (reletMachine renter id duration).run s = (.ok u, s')) :
    s' = s ∨ ∃ o o', Rewritten id o o' s s' := by
  unfold reletMachine at h
  simp only [run_ok] at h
  obtain ⟨o, ho, -, hrenter, -, i, -, maxRentEnd, -, h⟩ := h
  generalize reletDuration maxRentEnd o.rentEnd duration = add at h
  split at h
  · simp only [run_ok] at h
    exact .inl h.symm
  · simp only [run_ok] at h
    obtain ⟨fee, s1, hfee, -, _, s2, hstake, rentEnd, hend, stake, hmore, rfl⟩ := h
    obtain rfl := rentFee_same hfee
    obtain ⟨-, rfl⟩ := checkedAdd_eq_some.1 hend
    obtain ⟨-, rfl⟩ := checkedAdd_eq_some.1 hmore
    have hstaked := changeRenterTotalStake_ok hstake
    have hadd : o.stakeAmount + fee - o.stakeAmount = fee := Nat.add_sub_cancel_left ..
    refine .inr ⟨o, prolongedDetail o (o.rentEnd + add) (o.stakeAmount + fee), ho, ?_, ?_, ?_, ⟨rfl,
      rfl, rfl, Nat.le_add_right _ _, Nat.le_add_right _ _⟩, rfl, fun hl => ?_, hstaked.rented, fun
      r => ?_, fun r => ?_, hstaked.now, fun m hm => ?_⟩
    · show s2.book.rentInfo.insert id _ = _
      rw [hstaked.book]
    · show s2.book.nextRentId = _
      rw [hstaked.book]
    · show s2.book.machineRentOrder = _
      rw [hstaked.book]
    · show (s2.book.prolongAs id o _).Listed
      rw [hstaked.book]
      exact hl.prolongAs ho rfl rfl (confirmKey_prolongedDetail ..)
    · rw [totalStake_mapBook, hstaked.total]
      show _ = _ + if r = o.renter then o.stakeAmount + fee - o.stakeAmount else 0
      rw [hadd, hrenter]
    · rw [heldRent_mapBook, hstaked.held]
      show _ = _ + if r = o.renter then o.stakeAmount + fee - o.stakeAmount else 0
      rw [hadd, hrenter]
    · exact hm.of_eq hstaked.machines

/-! ## Ending orders early -/

/-- An order was paid and dropped, and is still listed. -/
structure Dropped (id : Nat) (o : RentOrderDetail A) (s s' : State A) : Prop where
  order : s.book.rentInfo.get id = some o
  info : s'.book.rentInfo = s.book.rentInfo.remove id
  next : s'.book.nextRentId = s.book.nextRentId
  user : s'.book.userOrder = s.book.userOrder
  total : s'.renterTotalStake = s.renterTotalStake
  held : ∀ r, s'.heldRent r = s.heldRent r - if r = o.renter then s.freed o else 0
  rented : s'.machineRentedGpu = s.machineRentedGpu
  now : s'.now = s.now

theorem dropRenter_aside {K : MachineId → Prop} {l : List Nat}
    (h : (dropRenter renter l).run s = (.ok u, s')) : Aside K s s' ∧ s'.balances = s.balances := by
  induction l generalizing s with
  | nil =>
    simp only [run_ok, dropRenter] at h
    subst h
    exact ⟨.refl s, rfl⟩
  | cons id l ih =>
    simp only [run_ok, dropRenter] at h
    obtain ⟨o, -, h⟩ := h
    split at h
    · simp only [run_ok] at h
      subst h
      exact ⟨.refl s, rfl⟩
    · simp only [run_ok] at h
      obtain ⟨i, hi, h⟩ := h
      obtain ⟨hrest, hbal⟩ := ih h
      refine ⟨Aside.trans (Aside.putMachine hi ?_) hrest, hbal⟩
      rfl

/-- **`terminate_rent`** drops an order of the renter. -/
theorem terminateRent_ok (h : (terminateRent renter id).run s = (.ok u, s')) :
    ∃ o, o.renter = renter ∧ Dropped id o s s' ∧ s'.book.machineRentOrder =
      s.book.machineRentOrder.insert o.machineId
        ((s.book.machineOrders o.machineId).cleanExpiredOrder id o.gpuIndex) := by
  unfold terminateRent at h
  simp only [run_ok] at h
  obtain ⟨o, ho, rfl, _, s1, hdrop, _, s2, hpay, rfl⟩ := h
  obtain ⟨haside, hbal⟩ := dropRenter_aside (K := anyMachine) hdrop
  have hpaid := ((payRentFee_post ..).ok hpay).2
  refine ⟨o, rfl, ⟨ho, ?_, ?_, ?_, hpaid.total.trans haside.total, fun r => ?_,
    hpaid.rented.trans haside.rented, hpaid.now.trans haside.now⟩, ?_⟩
  · show s2.book.rentInfo.remove id = _
    rw [hpaid.book]
    show s1.book.rentInfo.remove id = _
    rw [haside.book]
  · show s2.book.nextRentId = _
    rw [hpaid.book]
    show s1.book.nextRentId = _
    rw [haside.book]
  · show s2.book.userOrder = _
    rw [hpaid.book]
    show s1.book.userOrder = _
    rw [haside.book]
  · refine (hpaid.held r).trans ?_
    unfold State.freed State.heldRent
    rw [← hbal, ← haside.held]
    rfl
  · show s2.book.machineRentOrder = _
    rw [hpaid.book]
    show s1.book.machineRentOrder.insert o.machineId _ = _
    rw [haside.book]

theorem payAndDrop_ok {m : MachineId} (h : (payAndDrop m id).run s = (.ok u, s')) :
    ∃ o, Dropped id o s s' ∧ s'.book.machineRentOrder = s.book.machineRentOrder ∧
      ∀ m, s.HasCards m → s'.HasCards m := by
  unfold payAndDrop at h
  simp only [run_ok] at h
  obtain ⟨o, ho, _, s1, hpay, rfl⟩ := h
  have hpaid := ((payRentFee_post ..).ok hpay).2
  refine ⟨o, ⟨ho, ?_, ?_, ?_, hpaid.total, hpaid.held, hpaid.rented, hpaid.now⟩, ?_, hpaid.cards⟩
  · show s1.book.rentInfo.remove id = _
    rw [hpaid.book]
  · show s1.book.nextRentId = _
    rw [hpaid.book]
  · show s1.book.userOrder = _
    rw [hpaid.book]
  · show s1.book.machineRentOrder = _
    rw [hpaid.book]

/-- **`machine_offline`** drops the orders of the machine. -/
theorem machineOffline_ok {controller : A} {m : MachineId}
    (h : (machineOffline controller m).run s = (.ok u, s')) :
    ∃ s1 s2, Aside anyMachine s s1 ∧ s1.balances = s.balances ∧
      (forEach (s.book.machineOrders m).rentOrder.toList (payAndDrop m)).run s1 =
        (.ok (), s2) ∧
      Aside anyMachine (s2.mapBook fun b => b.dropMachine m) s' := by
  unfold machineOffline at h
  simp only [run_ok] at h
  obtain ⟨i, hi, _, s1, hctl, -, _, s2, hloop, rfl⟩ := h
  refine ⟨_, s2, Aside.putMachine hi ?_, ?_, hloop, ?_⟩
  · rfl
  · rfl
  · exact .of_machines rfl rfl rfl rfl rfl rfl rfl

/-- **`machine_exit`** drops the orders of the machine, and then its record. -/
theorem machineExit_ok {controller : A} {m : MachineId}
    (h : (machineExit controller m).run s = (.ok u, s')) :
    ∃ s2, (forEach (s.book.machineOrders m).rentOrder.toList (payAndDrop m)).run s =
        (.ok (), s2) ∧
      Aside (· ≠ m) (s2.mapBook fun b => b.dropMachine m) s' := by
  unfold machineExit at h
  simp only [run_ok] at h
  obtain ⟨i, hi, _, s1, hctl, -, _, s2, hloop, rfl⟩ := h
  obtain ⟨-, rfl⟩ := ensureController_ok hctl
  refine ⟨s2, hloop, rfl, rfl, rfl, rfl, rfl, rfl, fun m' hm hc => ?_⟩
  obtain ⟨j, hj, hpos⟩ := hc
  refine ⟨j, ?_, hpos⟩
  show (s2.rmMachine m).machine m' = some j
  rw [machine_rmMachine, if_neg hm]
  exact hj

end

/-! # Prolonged orders

`relet_machine` lets an order end at most sixty days from now. A wish that goes further is answered
with sixty days more, counted from the old end and not from now. -/

open Option

section

variable {A : Type} [LinearOrder A] {s s' : State A}

def State.rentPrice (s : State A) (i : MachineInfo A) (gpuNum duration : Nat) : Option Nat :=
  (s.getMachinePrice i.calcPoint gpuNum i.gpuNum).bind fun price =>
    (checkedMul u64Max price duration).bind fun value => s.dbcPrice (value / oneDay)

theorem rentFee_ok {i : MachineInfo A} {gpuNum duration fee : Nat}
    (h : (rentFee i gpuNum duration).run s = (.ok fee, s')) :
    s' = s ∧ s.rentPrice i gpuNum duration = some fee := by
  unfold rentFee at h
  simp only [run_ok] at h
  obtain ⟨price, hprice, value, hvalue, hfee, rfl⟩ := h
  refine ⟨rfl, ?_⟩
  unfold State.rentPrice
  rw [hprice, bind_some, hvalue, bind_some, hfee]

/-- The longest prolongation at this block of an order that ends at `rentEnd`. -/
def State.roomLeft (s : State A) (rentEnd : Nat) : Nat := s.now + 60 * oneDay - rentEnd

/-- The order was prolonged by `add` blocks, and its renter staked the price of them. -/
structure Prolonged (renter : A) (id add : Nat) (o : RentOrderDetail A) (s s' : State A) :
    Prop where
  later : 0 < add
  capped : o.rentEnd + add ≤ s.now + 60 * oneDay
  order : ∃ i fee, s.machine o.machineId = some i ∧ s.rentPrice i o.gpuNum add = some fee ∧
    s'.book.rentInfo.get id = some (prolongedDetail o (o.rentEnd + add) (o.stakeAmount + fee)) ∧
    s'.totalStake renter = s.totalStake renter + fee ∧
    s'.balances.reserved renter = s.balances.reserved renter + fee

theorem changeRenterTotalStake_reserved {renter : A} {amount : Nat} {u : Unit}
    (h : (changeRenterTotalStake renter amount true).run s = (.ok u, s')) :
    s'.balances.reserved renter = s.balances.reserved renter + amount := by
  unfold changeRenterTotalStake at h
  simp only [run_ok, if_true] at h
  obtain ⟨b, hb, new, -, rfl⟩ := h
  have hreserved := (Balances.reserve_eq_some hb).1 renter
  rw [if_pos rfl] at hreserved
  exact hreserved

/-- When the answer to a wish is what the claim on the room asks for. -/
theorem reletDuration_eq_iff {now rentEnd duration : Nat}
    (hadd : rentEnd + reletDuration (now + 60 * oneDay) rentEnd duration ≤ u32Max) :
    reletDuration (now + 60 * oneDay) rentEnd duration =
        min duration (now + 60 * oneDay - rentEnd) ↔
      wrappingAdd u32Max rentEnd duration ≤ now + 60 * oneDay ∨ rentEnd = now := by
  unfold reletDuration at hadd ⊢
  split at hadd
  · next hle =>
    -- the end fits its type, so the wish was computed without a wrap
    have hwrap : wrappingAdd u32Max rentEnd duration = rentEnd + duration := wrappingAdd_of_le hadd
    rw [if_pos hle]
    omega
  · next hgt =>
    rw [if_neg hgt]
    have hday : 0 < 60 * oneDay := by decide
    have hlong : rentEnd ≤ now → 60 * oneDay < duration := by
      intro hended
      by_contra hshort
      apply hgt
      rw [wrappingAdd_of_le (by omega)]
      omega
    omega

/-- What a successful call does: the answer to the wish is never empty, and is paid for. -/
theorem reletMachine_pays {renter : A} {id duration : Nat} {o : RentOrderDetail A} {u : Unit}
    (ho : s.book.rentInfo.get id = some o)
    (h : (reletMachine renter id duration).run s = (.ok u, s')) :
    ∃ add i fee, add = reletDuration (s.now + 60 * oneDay) o.rentEnd duration ∧ 0 < add ∧
      o.rentEnd + add ≤ u32Max ∧ s.machine o.machineId = some i ∧
      s.rentPrice i o.gpuNum add = some fee ∧
      s'.book.rentInfo.get id = some (prolongedDetail o (o.rentEnd + add) (o.stakeAmount + fee)) ∧
      s'.totalStake renter = s.totalStake renter + fee ∧
      s'.balances.reserved renter = s.balances.reserved renter + fee := by
  unfold reletMachine at h
  simp only [run_ok, ho, some.injEq] at h
  obtain ⟨hlong, hrenter, -, i, hi, maxRentEnd, hmax, h⟩ := h
  obtain ⟨hfit, rfl⟩ := checkedAdd_eq_some.1 hmax
  rw [Nat.add_comm (60 * oneDay)] at h
  have hpos : reletDuration (s.now + 60 * oneDay) o.rentEnd duration ≠ 0 := by
    have hmin : 0 < 10 * oneMinute := by decide
    have hday : 0 < 60 * oneDay := by decide
    unfold reletDuration
    split <;> omega
  rw [if_neg hpos] at h
  simp only [run_ok] at h
  obtain ⟨fee, s1, hfee, -, _, s2, hstake, rentEnd, hend, stake, hmore, rfl⟩ := h
  obtain ⟨rfl, hprice⟩ := rentFee_ok hfee
  obtain ⟨hadd, rfl⟩ := checkedAdd_eq_some.1 hend
  obtain ⟨-, rfl⟩ := checkedAdd_eq_some.1 hmore
  have hreserved := changeRenterTotalStake_reserved hstake
  refine ⟨_, i, fee, rfl, Nat.pos_of_ne_zero hpos, hadd, hi, hprice,
    StorageMap.get_insert_self .., ?_, hreserved⟩
  rw [totalStake_mapBook, (changeRenterTotalStake_ok hstake).total, if_pos rfl]

/-- **An order that is prolonged ends within sixty days**, and its renter stakes the price of the
prolongation, exactly if the wish fits or the order ends now. -/
theorem relet_within_sixty_days {renter : A} {id duration : Nat} {o : RentOrderDetail A} {u : Unit}
    (ho : s.book.rentInfo.get id = some o)
    (h : (reletMachine renter id duration).run s = (.ok u, s')) :
    Prolonged renter id (min duration (s.roomLeft o.rentEnd)) o s s' ↔
      wrappingAdd u32Max o.rentEnd duration ≤ s.now + 60 * oneDay ∨ o.rentEnd = s.now := by
  obtain ⟨add, i, fee, rfl, hpos, hadd, hi, hprice, hget, htotal, hreserved⟩ :=
    reletMachine_pays ho h
  rw [← reletDuration_eq_iff hadd]
  constructor
  · rintro ⟨-, -, _, _, -, -, hget', -, -⟩
    have hend := congrArg (·.map RentOrderDetail.rentEnd) (hget.symm.trans hget')
    exact Nat.add_left_cancel (some.inj hend)
  · intro hsame
    unfold State.roomLeft
    rw [hsame] at hpos hprice hget
    exact ⟨hpos, by omega, i, fee, hi, hprice, hget, htotal, hreserved⟩

end

/-! ## A wish beyond sixty days

Account 2 rents a card of the machine 7 for thirty days, and then wants thirty-one days more. -/

namespace ReletDemo

def machineId : MachineId := [byte 7]

def machine : MachineInfo Nat :=
  { MachineInfo.newBonding 1 1 0 0 with
    machineStatus := .online
    committeeUploadInfo := { CommitteeUploadInfo.zero with gpuNum := 4, calcPoint := 100 } }

def start : State Nat :=
  let chain : Chain Nat :=
    { now := 100
      balances := ⟨(∅ : StorageMap Nat AccountData).insert 2 ⟨1000000, 0, 0⟩⟩
      fixedTxFee := some 1
      dbcPrice := some }
  ({ State.fresh (.fresh chain) with standardGpuPointPrice := some ⟨100, 1000⟩ }).putMachine
    machineId machine

/-- The order 0 runs, and ends in thirty days. -/
def rented : State Nat :=
  ((confirmRent 2 0).dispatch ((rentMachine 2 machineId 1 (30 * oneDay)).dispatch start).2).2

theorem rented_order : (rented.book.rentInfo.get 0).map (fun o => (o.rentEnd, o.stakeAmount)) =
    some (100 + 30 * oneDay, 7500) := by
  decide +kernel

end ReletDemo

open ReletDemo

theorem relet_ten_days : ∃ o, rented.book.rentInfo.get 0 = some o ∧
    Prolonged 2 0 (10 * oneDay) o rented ((reletMachine 2 0 (10 * oneDay)).dispatch rented).2 := by
  obtain ⟨o, ho, heq⟩ := map_eq_some_iff.1 rented_order
  obtain ⟨hend, -⟩ := Prod.mk.inj heq
  obtain ⟨_, hrun⟩ := run_of_isOk
    (show ((reletMachine 2 0 (10 * oneDay)).run rented).1.isOk = true by decide +kernel)
  have hnow : rented.now = 100 := by decide +kernel
  have hroom : min (10 * oneDay) (rented.roomLeft o.rentEnd) = 10 * oneDay := by
    rw [State.roomLeft, hend, hnow]
    decide
  have hfits : wrappingAdd u32Max o.rentEnd (10 * oneDay) ≤ rented.now + 60 * oneDay := by
    rw [hend, hnow]
    decide
  have hprolonged := (relet_within_sixty_days ho hrun).2 (.inl hfits)
  rw [hroom] at hprolonged
  exact ⟨o, ho, hprolonged⟩

/-- With thirty days left, a wish for thirty-one days is answered with sixty: the order then ends
in ninety days. -/
theorem relet_ninety_days :
    ((rented.book.rentInfo.get 0).map (·.rentEnd)) = some (rented.now + 30 * oneDay) ∧
      (((reletMachine 2 0 (31 * oneDay)).run rented).2.book.rentInfo.get 0).map (·.rentEnd) =
        some (rented.now + 90 * oneDay) ∧
      ((reletMachine 2 0 (31 * oneDay)).run rented).1.isOk = true := by
  decide +kernel

end DeepBrainChain.TerminatingRental
