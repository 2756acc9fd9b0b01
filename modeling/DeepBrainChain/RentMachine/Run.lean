import DeepBrainChain.RentMachine.Queues

/-!
# Runs of rent-machine

Blocks of rentals, confirmations, prolongations and anything online-profile does. The hook at the
end of a block visits the bucket of that block and no other, so an order that it leaves behind is
never looked at again.
-/

namespace DeepBrainChain.RentMachine

open Lib GenericFunc Support Lib.Call StorageMap SortedVec
open OnlineProfile (Crypto HasCards Label)

section

variable {A : Type} [LinearOrder A]

abbrev Block (A : Type) [LinearOrder A] := Lib.Block (State A)

inductive Op (A : Type) [LinearOrder A]
  | profile (op : OnlineProfile.Op A)
  | rentMachine (renter : A) (m : MachineId) (gpuNum duration : Nat)
  | confirmRent (renter : A) (id : Nat)
  | reletMachine (renter : A) (id duration : Nat)
  | setRentFeePot (pot : A)
  | endBlock
  | nextBlock

/-- Calls are made before the hook at the end of a block, and the next block starts after it. The
hooks of other pallets run after it too. -/
def Op.Possible (t : Block A) : Op A → Prop
  | .profile _ => True
  | .nextBlock => t.ended = true
  | _ => t.ended = false

def State.startBlock (s : State A) : State A :=
  s.setProfile (OnlineProfile.State.onInitialize { s.toProfile with now := s.now + 1 })

def apply (crypto : Crypto A) (t : Block A) : Op A → Block A
  | .profile op =>
    { t with state := t.state.setProfile (OnlineProfile.apply crypto t.state.toProfile op) }
  | .rentMachine renter m gpuNum duration =>
    { t with state := ((rentMachineByBlock renter m gpuNum duration).dispatch t.state).2 }
  | .confirmRent renter id => { t with state := ((confirmRent renter id).dispatch t.state).2 }
  | .reletMachine renter id duration =>
    { t with state := ((reletMachineByBlock renter id duration).dispatch t.state).2 }
  | .setRentFeePot pot => { t with state := ((setRentFeePot pot).dispatch t.state).2 }
  | .endBlock => ⟨t.state.onFinalize, true⟩
  | .nextBlock => ⟨t.state.startBlock, false⟩

def Book.empty : Book A := ⟨∅, 0, ∅, ∅, ∅, ∅⟩

/-- The pallet, from a state without orders on, with rentals of at least a day. -/
def system (crypto : Crypto A) : System (Block A) (Op A) where
  init t := t.ended = false ∧ t.state.book = .empty ∧
    (∀ m, t.state.machines.rentedGpu m = 0) ∧ 1 ≤ t.state.maximumRentalDuration
  step t op t' := op.Possible t ∧ t' = apply crypto t op

/-- The first block whose last hook has not run. -/
def Block.due (t : Block A) : Nat := if t.ended then t.state.now + 1 else t.state.now

/-! ## Blocks in which nothing is due -/

def State.atBlock (s : State A) (k : Nat) : State A :=
  s.setProfile { s.toProfile with now := k }

theorem atBlock_now (s : State A) (k : Nat) : (s.atBlock k).now = k := rfl

theorem atBlock_atBlock (s : State A) (k j : Nat) : (s.atBlock k).atBlock j = s.atBlock j := rfl

/-- Nothing is due at the end of block `k` and at the start of the next one. -/
structure State.Still (s : State A) (k : Nat) : Prop where
  day : (k + 1) % oneDay ≠ 1 ∧ (k + 1) % oneDay ≠ 2
  snap : s.rewards.allMachineIdSnap = []
  exec : s.slashes.pendingExecSlash.get (k + 1) = none
  checking : s.slashes.pendingSlashReviewChecking.get (k + 1) = none
  confirming : (s.book.confirmingOrder.bucket k).toList = []
  ending : (s.book.rentEnding.bucket k).toList = []

variable {s s' : State A} {P : MachineId → Nat → Prop} {due : Nat} {op : Op A} {crypto : Crypto A}

theorem onFinalize_still (h : s.Still s.now) : s.onFinalize = s := by
  have h1 : (checkMachineStartingStatus s.now).run s = (.ok (), s) := by
    unfold checkMachineStartingStatus
    rw [run_bind_of_ok (run_get s), h.confirming]
    rfl
  have h2 : (checkIfRentFinished s.now).run s = (.ok (), s) := by
    unfold checkIfRentFinished
    rw [run_bind_of_ok (run_get s), h.ending]
    rfl
  unfold State.onFinalize
  rw [h1]
  simp only
  rw [h2]

theorem startBlock_still (h : s.Still s.now) : s.startBlock = s.atBlock (s.now + 1) := by
  unfold State.startBlock
  rw [OnlineProfile.onInitialize_idle (s := { s.toProfile with now := s.now + 1 }) h.day h.snap
    h.exec h.checking]
  rfl

def wait (n : Nat) : List (Op A) := (List.replicate n [.endBlock, .nextBlock]).flatten

theorem wait_succ (n : Nat) : wait (n + 1) = (.endBlock :: .nextBlock :: wait n : List (Op A)) :=
  rfl

/-- **While nothing is due, a block only moves the clock.** -/
theorem foldl_wait (crypto : Crypto A) (n : Nat) (h : ∀ k, s.now ≤ k → k < s.now + n → s.Still k) :
    (wait n).foldl (apply crypto) ⟨s, false⟩ = ⟨s.atBlock (s.now + n), false⟩ := by
  induction n generalizing s with
  | zero => rfl
  | succ n ih =>
    have hs : s.Still s.now := h s.now le_rfl (Nat.lt_add_of_pos_right n.succ_pos)
    have hnext : apply crypto (apply crypto ⟨s, false⟩ .endBlock) .nextBlock =
        ⟨s.atBlock (s.now + 1), false⟩ := by
      show (⟨s.onFinalize.startBlock, false⟩ : Block A) = _
      rw [onFinalize_still hs, startBlock_still hs]
    rw [wait_succ, List.foldl_cons, List.foldl_cons, hnext, ih]
    · rw [atBlock_atBlock, atBlock_now, Nat.add_assoc, Nat.add_comm 1 n]
    · intro k hk hlt
      rw [atBlock_now] at hk hlt
      obtain ⟨hd, hsnap, he, hc, hconf, hend⟩ := h k (by omega) (by omega)
      exact ⟨hd, hsnap, he, hc, hconf, hend⟩

/-! ## What may not happen to a machine with orders -/

/-- The operation does not drop the record of a machine in `K`, and leaves it with a number of
cards that meets `P`. -/
def Spares (K : MachineId → Prop) (P : MachineId → Nat → Prop) : OnlineProfile.Op A → Prop
  | .machineExit _ m | .refuseMachine _ m => ¬ K m
  | .forceMachineExit _ l => ∀ m ∈ l, ¬ K m
  | .confirmMachine _ hw => K hw.machineId → P hw.machineId hw.gpuNum
  | _ => True

theorem Spares.labels {K : MachineId → Prop} {op : OnlineProfile.Op A} (h : Spares K P op)
    {l : Label} (hl : l = .quiet ∨ l ∈ op.chain) : l.spares K P := by
  rcases hl with rfl | hl
  · trivial
  · cases op
    case forceMachineExit =>
      obtain ⟨m, hm, rfl⟩ := List.mem_map.1 hl
      exact h m hm
    case machineExit | refuseMachine | confirmMachine =>
      obtain rfl := List.mem_singleton.1 hl
      exact h
    all_goals first
      | (obtain rfl := List.mem_singleton.1 hl; trivial)
      | cases hl

/-- No machine with orders loses its record or all its cards, and no request overflows the sum of
the cards. -/
def KeepsRented (t : Block A) : Op A → Prop
  | .profile op => Spares t.state.book.Rents (fun _ g => 0 < g) op
  | .rentMachine _ m gpuNum _ => gpuNum + t.state.machines.rentedGpu m ≤ u32Max
  | _ => True

/-- Leave the orders alone, and of the machines what they depend on. -/
structure SameMachines (s s' : State A) : Prop where
  book : s'.book = s.book
  length : s'.maximumRentalDuration = s.maximumRentalDuration
  machine : ∀ m, s'.machine m = s.machine m
  rented : ∀ m, s'.machines.rentedGpu m = s.machines.rentedGpu m

theorem Inv.same (h : Inv due s) (hs : SameMachines s s') :
    Inv due s' where
  listed := hs.book ▸ h.listed
  timely := hs.book ▸ h.timely
  rented m := by rw [hs.rented, hs.book, h.rented]
  live m hm := by
    rw [hs.book] at hm
    rw [hs.machine]
    exact h.live m hm
  length := hs.length ▸ h.length

theorem Divided.same (h : Divided s) (hs : SameMachines s s') : Divided s' where
  cards := hs.book ▸ h.cards
  bound ho hi hj := by
    rw [hs.book] at ho
    rw [hs.machine] at hi
    exact h.bound ho hi hj

theorem startBlock_same (s : State A) :
    s.startBlock.now = s.now + 1 ∧ SameMachines s s.startBlock := by
  have hstart := OnlineProfile.onInitialize_blockStart { s.toProfile with now := s.now + 1 }
  unfold State.startBlock
  generalize OnlineProfile.State.onInitialize (A := A) _ = p at hstart ⊢
  refine ⟨hstart.now, rfl, rfl, fun m => ?_, fun m => ?_⟩
  · exact congrArg (fun x => x.get m) hstart.machines
  · exact congrArg (fun x => x.getD m 0) hstart.rented

/-- A call before the end of the block, whose successful runs keep the invariant. -/
theorem dispatch_inv {α : Type} {t : Block A} {c : Call (State A) Error α} (he : t.ended = false)
    (h : Inv t.due t.state) (hc : ∀ a s', Inv t.state.now t.state → c.run t.state = (.ok a, s') →
      Inv t.state.now s' ∧ s'.now = t.state.now) :
    Inv (Block.due { t with state := (c.dispatch t.state).2 }) (c.dispatch t.state).2 := by
  have hopen : Inv t.state.now t.state := by
    simpa [Block.due, he] using h
  have hboth := dispatch_keeps (I := fun s' => Inv t.state.now s' ∧ s'.now = t.state.now)
    ⟨hopen, rfl⟩ (hc · · hopen)
  have hdue : (Block.due { t with state := (c.dispatch t.state).2 }) = t.state.now := by
    simp [Block.due, he, hboth.2]
  rw [hdue]
  exact hboth.1

/-- **Every step keeps the invariant of the order book.** -/
theorem apply_inv (crypto : Crypto A) {t : Block A} (h : Inv t.due t.state) (hp : op.Possible t)
    (hc : KeepsRented t op) : Inv (apply crypto t op).due (apply crypto t op).state := by
  cases op with
  | profile op =>
    have he := (OnlineProfile.apply_may crypto t.state.toProfile op).events
    have hdue : (apply crypto t (.profile op)).due = t.due := by
      have hnow : (apply crypto t (.profile op)).state.now = t.state.now := he.now
      unfold Block.due
      rw [hnow]
      rfl
    have hspares : Spares t.state.book.Rents (fun _ g => 0 < g) op := hc
    rw [hdue]
    exact h.events rfl rfl he fun l hl => hspares.labels hl
  | rentMachine renter m gpuNum duration =>
    refine dispatch_inv (c := rentMachineByBlock renter m gpuNum duration) hp h fun _ s' hs hr => ?_
    rcases rentMachineByBlock_ok hr with rfl | hplaced
    · exact ⟨hs, rfl⟩
    · exact ⟨hs.placed hplaced hc, hplaced.now⟩
  | confirmRent renter id =>
    refine dispatch_inv (c := RentMachine.confirmRent renter id) hp h fun _ s' hs hr => ?_
    have hconf := confirmRent_ok hr
    exact ⟨hs.confirmed hconf, hconf.now⟩
  | reletMachine renter id duration =>
    refine dispatch_inv (c := reletMachineByBlock renter id duration) hp h fun _ s' hs hr => ?_
    rcases reletMachineByBlock_ok hr with rfl | ⟨o, rentEnd, ho, hrent, hle, hb, hlen, he⟩
    · exact ⟨hs, rfl⟩
    · exact ⟨hs.relet ho hrent hle hb hlen he, he.now⟩
  | setRentFeePot pot =>
    refine dispatch_inv (c := RentMachine.setRentFeePot pot) hp h fun _ s' hs hr => ?_
    cases hr
    exact ⟨hs.side ⟨rfl, rfl, .refl _⟩, rfl⟩
  | endBlock =>
    have hopen : t.due = t.state.now := by
      rw [Block.due, if_neg]
      exact Bool.eq_false_iff.1 hp
    rw [hopen] at h
    obtain ⟨hinv, hstrikes⟩ := onFinalize_spec h
    have hdue : (apply crypto t .endBlock).due = t.state.now + 1 := by
      show t.state.onFinalize.now + 1 = _
      rw [hstrikes.now]
    rw [hdue]
    exact hinv
  | nextBlock =>
    have hclosed : t.due = t.state.now + 1 := by
      rw [Block.due, if_pos]
      exact hp
    rw [hclosed] at h
    obtain ⟨hnow, hsame⟩ := startBlock_same t.state
    simp only [apply, Block.due, Bool.false_eq_true, if_false, hnow]
    exact h.same hsame

theorem Book.Listed.empty : (Book.empty : Book A).Listed where
  user _ _ := by simp [Book.empty]
  machine _ _ := by simp [Book.empty, Book.machineOrders, MachineGPUOrder.zero]
  confirming _ _ := by simp [Book.empty]
  ending _ _ := by simp [Book.empty]
  fresh := by simp [Book.empty]

theorem init_inv {t : Block A} (h : (system crypto).init t) : Inv t.due t.state := by
  obtain ⟨-, hb, hr, hl⟩ := h
  have hnone : ∀ {id}, t.state.book.rentInfo.get id = none := by
    intro id
    rw [hb]
    exact get_empty id
  refine ⟨hb ▸ Book.Listed.empty, fun ho => ?_, fun m => ?_, ?_, hl⟩
  · rw [hnone] at ho
    cases ho
  · rw [hr, hb]
    rfl
  · rintro m ⟨id, o, ho, -⟩
    rw [hnone] at ho
    cases ho

theorem reach_inv {t : Block A} (ht : (system crypto).Reach KeepsRented t) : Inv t.due t.state := by
  refine ht.invariant (I := fun t => Inv t.due t.state) (fun _ h => init_inv h) ?_
  rintro t op _ h hc ⟨hp, rfl⟩
  exact apply_inv crypto h hp hc

/-! ## The queues -/

/-- What the queues promise at the end of a block: every order is in exactly the lists and buckets
it belongs to, the buckets to come hold nothing else, and what is over is gone. -/
structure Consistent (s : State A) : Prop where
  waiting : ∀ {id o}, s.book.rentInfo.get id = some o → o.rentStatus = .waitingVerifying →
    (∀ n, (s.book.confirmingOrder.bucket n).toList.count id =
      if n = o.rentStart + waitingConfirmingDelay then 1 else 0) ∧
    ∀ n, (s.book.rentEnding.bucket n).toList.count id = if n = o.rentEnd then 1 else 0
  renting : ∀ {id o}, s.book.rentInfo.get id = some o → o.rentStatus = .renting →
    (∀ n, (s.book.confirmingOrder.bucket n).toList.count id = 0) ∧
    ∀ n, (s.book.rentEnding.bucket n).toList.count id = if n = o.rentEnd then 1 else 0
  entries : ∀ {n id}, s.now < n →
    id ∈ s.book.confirmingOrder.bucket n ∨ id ∈ s.book.rentEnding.bucket n →
    ∃ o, s.book.rentInfo.get id = some o
  user : ∀ renter id, id ∈ s.book.userOrder.bucket renter ↔
    ∃ o, s.book.rentInfo.get id = some o ∧ o.renter = renter
  machine : ∀ m id, id ∈ (s.book.machineOrders m).rentOrder ↔
    ∃ o, s.book.rentInfo.get id = some o ∧ o.machineId = m
  rented : ∀ m, s.machines.rentedGpu m =
    s.book.rentInfo.sum fun _ o => if o.machineId = m then o.gpuNum else 0
  pending : ∀ {id o}, s.book.rentInfo.get id = some o → s.now < o.rentEnd

section Count

variable {K : Type} [DecidableEq K] {row : Nat → Option (RentOrderDetail A)} {x : Index K Nat}
  {key : RentOrderDetail A → Option K} {id : Nat} {o : RentOrderDetail A}

section

omit [LinearOrder A]

theorem count_bucket (h : Exact row (fun k id => id ∈ x.bucket k) key) (ho : row id = some o)
    {k : K} (hk : key o = some k) (n : K) :
    (x.bucket n).toList.count id = if n = k then 1 else 0 := by
  have hmem : id ∈ x.bucket n ↔ n = k := by
    constructor
    · intro hn
      have hkey := h.eq_key ho hn
      rw [hk] at hkey
      exact (Option.some.inj hkey).symm
    · rintro rfl
      exact h.listed_of ho hk
  rw [count_toList]
  exact if_congr hmem rfl rfl

theorem count_bucket_none (h : Exact row (fun k id => id ∈ x.bucket k) key) (ho : row id = some o)
    (hk : key o = none) (n : K) : (x.bucket n).toList.count id = 0 := by
  rw [count_toList, if_neg]
  intro hn
  have hkey := h.eq_key ho hn
  rw [hk] at hkey
  cases hkey

end

end Count

theorem Inv.consistent (h : Inv (s.now + 1) s) : Consistent s where
  waiting ho hw := ⟨count_bucket h.listed.confirming ho (if_pos hw),
    count_bucket h.listed.ending ho rfl⟩
  renting {id o} ho hr := by
    have hkey : o.confirmKey = none := by
      rw [RentOrderDetail.confirmKey, hr]
      rfl
    exact ⟨count_bucket_none h.listed.confirming ho hkey, count_bucket h.listed.ending ho rfl⟩
  entries {n id} _ hid := by
    rcases hid with hid | hid
    · obtain ⟨o, ho, -⟩ := (h.listed.confirming n id).1 hid
      exact ⟨o, ho⟩
    · obtain ⟨o, ho, -⟩ := (h.listed.ending n id).1 hid
      exact ⟨o, ho⟩
  user renter id := by
    have hx := h.listed.user renter id
    simpa using hx
  machine m id := by
    have hx := h.listed.machine m id
    simpa using hx
  rented := h.rented
  pending ho := (h.timely ho).1

/-- **The queues stay consistent** in every run in which no machine with orders loses its record:
at the end of every block each order is listed where it belongs, and none is overdue. -/
theorem queues_consistent (crypto : Crypto A) (t : Block A)
    (ht : (system crypto).Reach KeepsRented t) (hend : t.ended = true) : Consistent t.state := by
  have h := reach_inv ht
  rw [Block.due, if_pos hend] at h
  exact h.consistent

/-! ## A small chain

Machine 7 has four cards and belongs to account 1; account 2 rents them, and account 9 may force
machines out. -/

def demoMachine : MachineInfo Nat :=
  { MachineInfo.newBonding 1 1 0 0 with
    machineStatus := .online
    committeeUploadInfo := { CommitteeUploadInfo.zero with gpuNum := 4, calcPoint := 100 } }

def demoProfile : OnlineProfile.State Nat :=
  let chain : Chain Nat :=
    { now := 100
      balances := ⟨(∅ : StorageMap Nat AccountData).insert 2 ⟨1000, 0, 0⟩⟩
      fixedTxFee := some 1
      dbcPrice := some }
  let s := OnlineProfile.State.fresh (.fresh chain)
  { s with
    machines := s.machines.putInfo [byte 7] demoMachine
    owners := { s.owners with authorizedForceExitAccounts := [9] }
    stakes := { s.stakes with standardGpuPointPrice := some ⟨100, 1000⟩ } }

def demoStart : Block Nat where
  state := ⟨demoProfile, .empty, ∅, some 3, 60, ∅⟩
  ended := false

def demoCrypto : Crypto Nat := ⟨fun _ => none, fun _ _ _ => false⟩

def idle (t : Block Nat) : Nat → Block Nat
  | 0 => t
  | n + 1 => apply demoCrypto (apply demoCrypto (idle t n) .endBlock) .nextBlock

def demoRented : Block Nat := apply demoCrypto demoStart (.rentMachine 2 [byte 7] 2 300)

section Demo

variable {C : Block Nat → Op Nat → Prop} {t : Block Nat}

theorem reach_apply (ht : (system demoCrypto).Reach C t) (op : Op Nat) (hp : op.Possible t)
    (hc : C t op) : (system demoCrypto).Reach C (apply demoCrypto t op) :=
  ht.step hc ⟨hp, rfl⟩

theorem idle_ended (he : t.ended = false) (n : Nat) : (idle t n).ended = false := by
  cases n with
  | zero => exact he
  | succ n => rfl

theorem reach_idle (ht : (system demoCrypto).Reach (fun _ _ => True) t) (he : t.ended = false)
    (n : Nat) : (system demoCrypto).Reach (fun _ _ => True) (idle t n) := by
  induction n with
  | zero => exact ht
  | succ n ih =>
    exact reach_apply (reach_apply ih .endBlock (idle_ended he n) trivial) .nextBlock rfl trivial

theorem demoStart_reach : (system demoCrypto).Reach C demoStart :=
  .init ⟨rfl, rfl, fun _ => rfl, by decide⟩

end Demo

/-- The order of account 2 is listed at the end of the block in which it was made. -/
theorem queues_consistent_rented :
    (apply demoCrypto demoRented .endBlock).state.book.rentInfo.contains 0 = true ∧
      Consistent (apply demoCrypto demoRented .endBlock).state := by
  have hfit : 2 + demoStart.state.machines.rentedGpu [byte 7] ≤ u32Max := by decide +kernel
  have hrented : (system demoCrypto).Reach KeepsRented demoRented :=
    reach_apply demoStart_reach _ rfl hfit
  refine ⟨by decide +kernel, queues_consistent demoCrypto _ ?_ rfl⟩
  exact reach_apply hrented _ rfl trivial

/-- A machine that is forced out keeps the cards of its orders rented: when the order expires, the
hook stops at the missing record. -/
theorem forced_exit_leaves_cards_rented :
    ∃ t : Block Nat, (system demoCrypto).Reach (fun _ _ => True) t ∧ t.ended = true ∧
      ¬ Consistent t.state := by
  have hrented : (system demoCrypto).Reach (fun _ _ => True) demoRented :=
    reach_apply demoStart_reach _ rfl trivial
  have hforced := reach_apply hrented (.profile (.forceMachineExit 9 [[byte 7]])) trivial trivial
  refine ⟨_, reach_apply (reach_idle hforced rfl 150) .endBlock (idle_ended rfl 150) trivial, rfl,
    fun h => ?_⟩
  have hcards := h.rented [byte 7]
  revert hcards
  decide +kernel

/-! ## The cards -/

/-- The machines with orders keep their records and their numbers of cards, and no request
overflows the sum of the cards. -/
def FixedMachines (t : Block A) : Op A → Prop
  | .profile op => Spares t.state.book.Rents t.state.CardsOf op
  | .rentMachine _ m gpuNum _ => gpuNum + t.state.machines.rentedGpu m ≤ u32Max
  | _ => True

theorem Spares.mono {K : MachineId → Prop} {P' : MachineId → Nat → Prop} {op : OnlineProfile.Op A}
    (h : Spares K P op) (hP : ∀ m g, K m → P m g → P' m g) : Spares K P' op := by
  cases op
  case confirmMachine => exact fun hk => hP _ _ hk (h hk)
  all_goals exact h

theorem FixedMachines.keepsRented {t : Block A} (hinv : Inv t.due t.state)
    (h : FixedMachines t op) : KeepsRented t op := by
  cases op
  case profile op =>
    show Spares t.state.book.Rents (fun _ g => 0 < g) op
    refine Spares.mono h fun m g hm hg => ?_
    obtain ⟨i, hi, hpos⟩ := hinv.live m hm
    obtain ⟨i', hi', rfl⟩ := hg
    rw [hi] at hi'
    cases hi'
    exact hpos
  all_goals exact h

theorem apply_divided (crypto : Crypto A) {t : Block A} (h : Divided t.state)
    (hinv : Inv t.due t.state) (hp : op.Possible t) (hc : FixedMachines t op) :
    Divided (apply crypto t op).state := by
  cases op with
  | profile op =>
    have hspares : Spares t.state.book.Rents t.state.CardsOf op := hc
    exact h.events hinv rfl (OnlineProfile.apply_may crypto t.state.toProfile op).events
      fun l hl => hspares.labels hl
  | rentMachine renter m gpuNum duration =>
    refine dispatch_keeps (I := Divided) h fun _ s' hr => ?_
    rcases rentMachineByBlock_ok hr with rfl | hplaced
    · exact h
    · exact h.placed hinv hplaced hc
  | confirmRent renter id =>
    exact dispatch_keeps (I := Divided) h fun _ s' hr => h.confirmed hinv (confirmRent_ok hr)
  | reletMachine renter id duration =>
    refine dispatch_keeps (I := Divided) h fun _ s' hr => ?_
    rcases reletMachineByBlock_ok hr with rfl | ⟨o, rentEnd, ho, -, -, hb, -, he⟩
    · exact h
    · exact h.relet hinv ho hb he
  | setRentFeePot pot => exact ⟨h.cards, h.bound⟩
  | endBlock =>
    have hopen : t.due = t.state.now := by
      rw [Block.due, if_neg]
      exact Bool.eq_false_iff.1 hp
    rw [hopen] at hinv
    exact h.strikes hinv (onFinalize_spec hinv).2
  | nextBlock => exact h.same (startBlock_same t.state).2

theorem Divided.empty (h : s.book = .empty) : Divided s := by
  have hnone : ∀ {id o}, s.book.rentInfo.get id ≠ some o := by
    intro id o ho
    rw [h] at ho
    cases (get_empty id).symm.trans ho
  refine ⟨⟨fun m j => ?_, (absurd · hnone), (absurd · hnone), (absurd · hnone), fun m => ?_⟩,
    (absurd · hnone)⟩
  · constructor
    · intro hj
      rw [h] at hj
      exact absurd hj notMem_empty
    · rintro ⟨id, o, ho, -⟩
      exact absurd ho hnone
  · rw [h]
    rfl

theorem reach_divided {t : Block A}
    (ht : (system crypto).Reach FixedMachines t) : Inv t.due t.state ∧ Divided t.state := by
  refine ht.invariant (I := fun t => Inv t.due t.state ∧ Divided t.state)
    (fun _ h => ⟨init_inv h, .empty h.2.1⟩) ?_
  rintro t op _ ⟨hinv, h⟩ hc ⟨hp, rfl⟩
  exact ⟨apply_inv crypto hinv hp (hc.keepsRented hinv), apply_divided crypto h hinv hp hc⟩

/-- The GPUs of `m` in use are those of its orders, each given to one order only. -/
structure Allocated (s : State A) (m : MachineId) : Prop where
  sorted : (s.book.machineOrders m).usedGpu.toList.Pairwise (· < ·)
  bound : ∀ j ∈ (s.book.machineOrders m).usedGpu, ∃ i, s.machine m = some i ∧ j < i.gpuNum
  used : ∀ j, j ∈ (s.book.machineOrders m).usedGpu ↔
    ∃ id ∈ (s.book.machineOrders m).rentOrder, ∃ o, s.book.rentInfo.get id = some o ∧
      j ∈ o.gpuIndex
  orders : ∀ id ∈ (s.book.machineOrders m).rentOrder, ∃ o, s.book.rentInfo.get id = some o ∧
    o.machineId = m ∧ o.gpuIndex.Nodup ∧ o.gpuIndex.length = o.gpuNum
  disjoint : ∀ {id id' o o' j}, id ≠ id' → s.book.rentInfo.get id = some o →
    s.book.rentInfo.get id' = some o' → o.machineId = m → o'.machineId = m →
    j ∈ o.gpuIndex → j ∉ o'.gpuIndex
  rented : s.machines.rentedGpu m = ((s.book.machineOrders m).rentOrder.toList.map fun id =>
    ((s.book.rentInfo.get id).map RentOrderDetail.gpuNum).getD 0).sum
  enough : ∀ i, s.machine m = some i → s.machines.rentedGpu m ≤ i.gpuNum

/-- As many distinct numbers below `n` as there are in a sorted vector. -/
theorem length_le_of_bound {v : SortedVec Nat} {n : Nat} (h : ∀ j ∈ v, j < n) : v.length ≤ n := by
  have hsub : v.toList.Subperm (List.range n) :=
    List.subperm_of_subset v.nodup fun j hj => List.mem_range.2 (h j hj)
  exact hsub.length_le.trans_eq List.length_range

theorem Divided.allocated (h : Divided s) (hinv : Inv due s) (m : MachineId) : Allocated s m := by
  have hbound : ∀ j ∈ (s.book.machineOrders m).usedGpu,
      ∃ i, s.machine m = some i ∧ j < i.gpuNum := by
    intro j hj
    obtain ⟨id, o, ho, rfl, hcard⟩ := (h.cards.used m j).1 hj
    obtain ⟨i, hi, -⟩ := hinv.live o.machineId ⟨id, o, ho, rfl⟩
    exact ⟨i, hi, h.bound ho hi hcard⟩
  refine ⟨SortedVec.sorted _, hbound, fun j => ?_, fun id hid => ?_, ?_, ?_, fun i hi => ?_⟩
  · rw [h.cards.used]
    constructor
    · rintro ⟨id, o, ho, hm, hj⟩
      exact ⟨id, hinv.listed.machine.listed_of ho (congrArg some hm), o, ho, hj⟩
    · rintro ⟨id, hid, o, ho, hj⟩
      exact ⟨id, o, ho, Option.some.inj (hinv.listed.machine.eq_key ho hid), hj⟩
  · obtain ⟨o, ho, hm⟩ := (hinv.listed.machine m id).1 hid
    exact ⟨o, ho, Option.some.inj hm, h.cards.nodup ho, h.cards.count ho⟩
  · intro id id' o o' j hne ho ho' hm hm'
    exact h.cards.disjoint ho ho' hne (hm.trans hm'.symm)
  · rw [hinv.rented]
    refine sum_ite_eq_sum_keys (fun o => o.machineId = m) RentOrderDetail.gpuNum
      s.book.rentInfo (SortedVec.nodup _) fun id => ?_
    simpa using hinv.listed.machine m id
  · rw [hinv.rented, ← h.cards.usedCount]
    refine length_le_of_bound fun j hj => ?_
    obtain ⟨i', hi', hj⟩ := hbound j hj
    rw [hi] at hi'
    cases hi'
    exact hj

/-- **No card is given out twice.** In every run in which the machines with orders stay as they
are, the cards in use on a machine are divided among its orders, each of which has as many as it
asked for. -/
theorem cards_allocated (crypto : Crypto A) (t : Block A)
    (ht : (system crypto).Reach FixedMachines t) (m : MachineId) : Allocated t.state m :=
  (reach_divided ht).2.allocated (reach_divided ht).1 m

/-- Two orders of account 2 on the same machine. -/
def demoTwice : Block Nat := apply demoCrypto demoRented (.rentMachine 2 [byte 7] 1 600)

theorem cards_allocated_twice :
    (demoTwice.state.book.machineOrders [byte 7]).usedGpu.toList = [0, 1, 2] ∧
      Allocated demoTwice.state [byte 7] := by
  have hfit : 2 + demoStart.state.machines.rentedGpu [byte 7] ≤ u32Max := by decide +kernel
  have hfit' : 1 + demoRented.state.machines.rentedGpu [byte 7] ≤ u32Max := by decide +kernel
  have hrented : (system demoCrypto).Reach FixedMachines demoRented :=
    reach_apply demoStart_reach _ rfl hfit
  refine ⟨by decide +kernel, cards_allocated demoCrypto demoTwice ?_ [byte 7]⟩
  exact reach_apply hrented _ rfl hfit'

end

end DeepBrainChain.RentMachine
