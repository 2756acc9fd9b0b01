import DeepBrainChain.GenericFunc
import DeepBrainChain.Lib.SortedVec
import DeepBrainChain.Lib.System

/-!
# The committee pallet

Committees verify machines and fault reports. They stake once, and every order they take on uses
a part of that stake until the order is settled: `usedStake` goes up when an order is booked and
down when it is released or slashed. The lists say which committees may take orders; a committee
whose free stake gets too small waits in the fulfilling list.
-/

namespace DeepBrainChain.Committee

open Lib GenericFunc Lib.Call

structure CommitteeList (A : Type) [LinearOrder A] where
  normal : SortedVec A
  chillList : SortedVec A
  waitingBoxPubkey : SortedVec A
  fulfillingList : SortedVec A

structure CommitteeStakeParamsInfo where
  stakeBaseline : Nat
  stakePerOrder : Nat
  minFreeStakePercent : Perbill

def CommitteeStakeParamsInfo.zero : CommitteeStakeParamsInfo := ⟨0, 0, .zero⟩

/-- `CommitteeStakeInfo`; the encryption key is stored and never read. -/
structure CommitteeStakeInfo where
  stakedAmount : Nat
  usedStake : Nat
  canClaimReward : Nat
  claimedReward : Nat
deriving DecidableEq

namespace CommitteeStakeInfo

def zero : CommitteeStakeInfo := ⟨0, 0, 0, 0⟩

def setStaked (i : CommitteeStakeInfo) (amount : Nat) : CommitteeStakeInfo :=
  { i with stakedAmount := amount }

def setUsed (i : CommitteeStakeInfo) (amount : Nat) : CommitteeStakeInfo :=
  { i with usedStake := amount }

end CommitteeStakeInfo

structure State (A : Type) [LinearOrder A] extends Chain A where
  committee : CommitteeList A
  committeeStakeParams : Option CommitteeStakeParamsInfo
  committeeStake : StorageMap A CommitteeStakeInfo

def State.fresh {A : Type} [LinearOrder A] (chain : Chain A) : State A where
  toChain := chain
  committee := ⟨∅, ∅, ∅, ∅⟩
  committeeStakeParams := none
  committeeStake := ∅

inductive Error
  | pubkeyNotSet
  | notCommittee
  | accountAlreadyExist
  | notInChillList
  | jobNotDone
  | claimRewardFailed
  | getStakeParamsFailed
  | nothingToClaim
  | balanceNotEnough
  | statusNotAllowed
  | notInNormalList
  | statusNotFeat
  | changeReservedFailed

section

variable {A : Type} [LinearOrder A]

namespace CommitteeList

def IsCommittee (l : CommitteeList A) (who : A) : Prop :=
  who ∈ l.normal ∨ who ∈ l.chillList ∨ who ∈ l.waitingBoxPubkey ∨ who ∈ l.fulfillingList

instance (l : CommitteeList A) (who : A) : Decidable (l.IsCommittee who) :=
  inferInstanceAs (Decidable (_ ∨ _ ∨ _ ∨ _))

def keySet (l : CommitteeList A) (who : A) : CommitteeList A :=
  { l with waitingBoxPubkey := l.waitingBoxPubkey.rmItem who, normal := l.normal.addItem who }

/-- Move an account that has to fulfil its stake to the normal list. -/
def fulfilled (l : CommitteeList A) (who : A) : CommitteeList A :=
  { l with fulfillingList := l.fulfillingList.rmItem who, normal := l.normal.addItem who }

/-- Move an account from the normal list to those that have to fulfil their stake. -/
def unfulfilled (l : CommitteeList A) (who : A) : CommitteeList A :=
  { l with normal := l.normal.rmItem who, fulfillingList := l.fulfillingList.addItem who }

def chilled (l : CommitteeList A) (who : A) : CommitteeList A :=
  { l with
    normal := l.normal.rmItem who
    fulfillingList := l.fulfillingList.rmItem who
    chillList := l.chillList.addItem who }

def unchilled (l : CommitteeList A) (who : A) : CommitteeList A :=
  { l with chillList := l.chillList.rmItem who, normal := l.normal.addItem who }

end CommitteeList

namespace State

/-- Put a new member among those that wait for a key. -/
def addWaiting (s : State A) (member : A) : State A :=
  { s with committee := { s.committee with
      waitingBoxPubkey := s.committee.waitingBoxPubkey.addItem member } }

def rmChilled (s : State A) (member : A) : State A :=
  { s with committee := { s.committee with chillList := s.committee.chillList.rmItem member } }

def setBalances (s : State A) (b : Balances A) : State A := { s with balances := b }

def setCommittee (s : State A) (l : CommitteeList A) : State A := { s with committee := l }

def setStake (s : State A) (who : A) (i : CommitteeStakeInfo) : State A :=
  { s with committeeStake := s.committeeStake.insert who i }

def setParams (s : State A) (p : CommitteeStakeParamsInfo) : State A :=
  { s with committeeStakeParams := some p }

def stakeOf (s : State A) (who : A) : CommitteeStakeInfo := s.committeeStake.getD who .zero

def stakePerOrder (s : State A) : Option Nat := s.committeeStakeParams.map (·.stakePerOrder)

def availableCommittee (s : State A) : Option (List A) :=
  if s.committee.normal.isEmpty then none else some s.committee.normal.toList

end State

def freeStakeEnough (p : CommitteeStakeParamsInfo) (i : CommitteeStakeInfo) : Prop :=
  p.stakeBaseline ≤ i.stakedAmount ∧
    p.minFreeStakePercent.mul i.stakedAmount ≤ i.stakedAmount - i.usedStake

instance (p : CommitteeStakeParamsInfo) (i : CommitteeStakeInfo) :
    Decidable (freeStakeEnough p i) := inferInstanceAs (Decidable (_ ∧ _))

def checkStakeHealth (who : A) (amount : Nat) (isAdd : Bool) : Call (State A) Unit Unit := do
  let s ← get
  let params ← okOr s.committeeStakeParams ()
  let staked ← okOr (checkedChange u128Max (s.stakeOf who).stakedAmount amount isAdd) ()
  ensure (freeStakeEnough params ((s.stakeOf who).setStaked staked)) ()

/-- `do_change_reserved`. A reservation fails where `can_reserve` does. -/
def doChangeReserved (who : A) (amount : Nat) (isAdd changeReserve : Bool) :
    Call (State A) Unit Unit := do
  let s ← get
  let staked ← okOr (checkedChange u128Max (s.stakeOf who).stakedAmount amount isAdd) ()
  let balances ← okOr
    (if changeReserve then if isAdd then s.balances.reserve who amount else some
      (s.balances.unreserve who amount).1 else some s.balances) ()
  set ((s.setBalances balances).setStake who ((s.stakeOf who).setStaked staked))

/-- `do_change_status_when_stake_changed`, on the lists. -/
def doChangeStatusWhenStakeChanged (params : Option CommitteeStakeParamsInfo) (who : A)
    (i : CommitteeStakeInfo) (l : CommitteeList A) : CommitteeList A :=
  if freeStakeEnough (params.getD .zero) i then
    if who ∈ l.fulfillingList then l.fulfilled who else l
  else if who ∈ l.normal then l.unfulfilled who
  else l

/-- `do_change_used_stake`, `change_used_stake` for the other pallets. -/
def changeUsedStake (who : A) (amount : Nat) (isAdd : Bool) : Call (State A) Unit Unit := do
  let s ← get
  let used ← okOr (checkedChange u128Max (s.stakeOf who).usedStake amount isAdd) ()
  let i := (s.stakeOf who).setUsed used
  set ((s.setCommittee
    (doChangeStatusWhenStakeChanged s.committeeStakeParams who i s.committee)).setStake who i)

def addReward (s : State A) (who : A) (reward : Nat) : State A :=
  s.setStake who { s.stakeOf who with
    canClaimReward := saturatingAdd u128Max (s.stakeOf who).canClaimReward reward }

/-! ## Calls -/

/-- `set_committee_stake_params`, a root call. -/
def setCommitteeStakeParams (params : CommitteeStakeParamsInfo) : Call (State A) Error Unit :=
  modify fun s => s.setParams params

/-- `add_committee`, a root call. -/
def addCommittee (member : A) : Call (State A) Error Unit := do
  let s ← get
  ensure (¬ s.committee.IsCommittee member) .accountAlreadyExist
  set (s.addWaiting member)

def committeeSetBoxPubkey (committee : A) : Call (State A) Error Unit := do
  let s ← get
  let params ← okOr s.committeeStakeParams .getStakeParamsFailed
  if committee ∈ s.committee.waitingBoxPubkey then do
    (checkStakeHealth committee params.stakeBaseline true).mapError fun _ => .balanceNotEnough
    (doChangeReserved committee params.stakeBaseline true true).mapError fun _ => .balanceNotEnough
    modify fun s => s.setCommittee (s.committee.keySet committee)
  else ensure (committee ∈ s.committee.normal) .statusNotAllowed

def committeeAddStake (committee : A) (amount : Nat) : Call (State A) Error Unit := do
  let s ← get
  ensure (s.committee.IsCommittee committee) .notCommittee
  (checkStakeHealth committee amount true).mapError fun _ => .balanceNotEnough
  (doChangeReserved committee amount true true).mapError fun _ => .balanceNotEnough
  when (committee ∈ s.committee.fulfillingList) (modify fun s =>
    s.setCommittee (s.committee.fulfilled committee))

def committeeReduceStake (committee : A) (amount : Nat) : Call (State A) Error Unit := do
  let s ← get
  ensure (committee ∈ s.committee.normal) .notInNormalList
  (checkStakeHealth committee amount false).mapError fun _ => .balanceNotEnough
  (doChangeReserved committee amount false true).mapError fun _ => .changeReservedFailed

def claimReward (committee : A) : Call (State A) Error Unit := do
  let s ← get
  let i := s.stakeOf committee
  ensure (i.canClaimReward ≠ 0) .nothingToClaim
  let balances ← okOr (s.balances.depositIntoExisting committee i.canClaimReward)
    .claimRewardFailed
  set ((s.setBalances balances).setStake committee { i with
    claimedReward := wrappingAdd u128Max i.claimedReward i.canClaimReward, canClaimReward := 0 })

def chill (committee : A) : Call (State A) Error Unit := do
  let s ← get
  ensure (s.committee.IsCommittee committee) .notCommittee
  if committee ∈ s.committee.chillList then pure ()
  else do
    ensure (committee ∉ s.committee.waitingBoxPubkey) .pubkeyNotSet
    set (s.setCommittee (s.committee.chilled committee))

def undoChill (committee : A) : Call (State A) Error Unit := do
  let s ← get
  ensure (committee ∈ s.committee.chillList) .notInChillList
  set (s.setCommittee (doChangeStatusWhenStakeChanged s.committeeStakeParams committee
    (s.stakeOf committee) (s.committee.unchilled committee)))

def exitCommittee (committee : A) : Call (State A) Error Unit := do
  let s ← get
  let i := s.stakeOf committee
  ensure (i.usedStake = 0) .jobNotDone
  ensure (committee ∈ s.committee.chillList) .statusNotFeat
  set (((s.rmChilled committee).setBalances
    (s.balances.unreserve committee i.stakedAmount).1).setStake committee (i.setStaked 0))

end

/-! # The committee lists over runs

Every account has at most one seat, and the seat of an account among the normal or the fulfilling
members is the one its stake asks for. A step moves one account: it recomputes the seat from the
stake it leaves behind, or it checks the stake before it grants the seat. -/

open StorageMap SortedVec

variable {A : Type} [LinearOrder A]

/-- The lists a member can be on. -/
inductive Seat
  | normal
  | chill
  | waitingBoxPubkey
  | fulfilling
deriving DecidableEq

def CommitteeList.list (l : CommitteeList A) : Seat → SortedVec A
  | .normal => l.normal
  | .chill => l.chillList
  | .waitingBoxPubkey => l.waitingBoxPubkey
  | .fulfilling => l.fulfillingList

/-- What a seat says about the stake of the one who sits there. -/
def Seat.Fits (p : CommitteeStakeParamsInfo) (i : CommitteeStakeInfo) : Seat → Prop
  | .normal => freeStakeEnough p i
  | .fulfilling => ¬ freeStakeEnough p i
  | _ => True

/-- The account is on the list of the seat `o` and on no other. -/
def Seats (l : CommitteeList A) (who : A) (o : Option Seat) : Prop :=
  ∀ seat, who ∈ l.list seat ↔ o = some seat

/-! ## Operations -/

inductive Op (A : Type)
  | setCommitteeStakeParams (params : CommitteeStakeParamsInfo)
  | addCommittee (member : A)
  | committeeSetBoxPubkey (committee : A)
  | committeeAddStake (committee : A) (amount : Nat)
  | committeeReduceStake (committee : A) (amount : Nat)
  | claimReward (committee : A)
  | chill (committee : A)
  | undoChill (committee : A)
  | exitCommittee (committee : A)
  | changeUsedStake (committee : A) (amount : Nat) (isAdd : Bool)
  | changeBothStakes (committee : A) (total : Nat) (isAddTotal changeReserve : Bool) (used : Nat)
      (isAddUsed : Bool)
  | addReward (committee : A) (reward : Nat)
  | nextBlock
  | external (balances : Balances A)

/-- `change_total_stake`, whatever it returns, and `change_used_stake` right after it. -/
def changeBothStakes (committee : A) (total : Nat) (isAddTotal changeReserve : Bool) (used : Nat)
    (isAddUsed : Bool) : Call (State A) Unit Unit := do
  ignore (doChangeReserved committee total isAddTotal changeReserve)
  changeUsedStake committee used isAddUsed

/-- The parameters are fixed, and the used stake changes wherever the total stake was changed
from outside. -/
def Op.Possible (p : CommitteeStakeParamsInfo) (s : State A) : Op A → Prop
  | .setCommitteeStakeParams params => params = p
  | .changeBothStakes committee total isAddTotal changeReserve used isAddUsed =>
    ((Committee.changeBothStakes committee total isAddTotal changeReserve used isAddUsed).run
      s).1.isOk = true
  | _ => True

/-- Extrinsics roll back when they fail, the calls of other pallets do not. -/
def apply (s : State A) : Op A → State A
  | .setCommitteeStakeParams params => ((setCommitteeStakeParams params).dispatch s).2
  | .addCommittee member => ((addCommittee member).dispatch s).2
  | .committeeSetBoxPubkey committee => ((committeeSetBoxPubkey committee).dispatch s).2
  | .committeeAddStake committee amount => ((committeeAddStake committee amount).dispatch s).2
  | .committeeReduceStake committee amount => ((committeeReduceStake committee amount).dispatch s).2
  | .claimReward committee => ((claimReward committee).dispatch s).2
  | .chill committee => ((chill committee).dispatch s).2
  | .undoChill committee => ((undoChill committee).dispatch s).2
  | .exitCommittee committee => ((exitCommittee committee).dispatch s).2
  | .changeUsedStake committee amount isAdd => ((changeUsedStake committee amount isAdd).run s).2
  | .changeBothStakes committee total isAddTotal changeReserve used isAddUsed =>
    ((changeBothStakes committee total isAddTotal changeReserve used isAddUsed).run s).2
  | .addReward committee reward => addReward s committee reward
  | .nextBlock => { s with now := s.now + 1 }
  | .external b => s.setBalances b

def system (p : CommitteeStakeParamsInfo) : System (State A) (Op A) where
  init s := ∃ chain, s = (State.fresh chain).setParams p
  step s op s' := op.Possible p s ∧ s' = apply s op

/-! ## One move on the lists -/

section Lists

variable {l : CommitteeList A} {who x : A} {o : Option Seat} {seat : Seat}

theorem Seats.mem (h : Seats l who (some seat)) : who ∈ l.list seat := (h seat).2 rfl

theorem Seats.of_mem (h : Seats l who o) (seat : Seat) (hm : who ∈ l.list seat) :
    Seats l who (some seat) := by
  obtain rfl := (h seat).1 hm
  exact h

theorem Seats.notMem (h : Seats l who (some seat)) (other : Seat) (hne : other ≠ seat) :
    who ∉ l.list other := by
  intro hm
  exact hne (Option.some.inj ((h other).1 hm)).symm

/-- What a move does: `who` gets the seat, and the others keep theirs. -/
structure Moves (l l' : CommitteeList A) (who : A) (o : Option Seat) : Prop where
  seat : Seats l' who o
  others : ∀ x, x ≠ who → ∀ o', Seats l x o' → Seats l' x o'

theorem Moves.refl (h : Seats l who o) : Moves l l who o := ⟨h, fun _ _ _ hx => hx⟩

theorem Moves.trans {l1 l2 l3 : CommitteeList A} {o1 o2 : Option Seat} (h : Moves l1 l2 who o1)
    (h' : Moves l2 l3 who o2) : Moves l1 l3 who o2 where
  seat := h'.seat
  others x hx o' ho := h'.others x hx o' (h.others x hx o' ho)

theorem Moves.transfer {l' : CommitteeList A} {a b : Seat} (h : Seats l who (some a)) (hab : a ≠ b)
    (ha : ∀ x, x ∈ l'.list a ↔ x ≠ who ∧ x ∈ l.list a)
    (hb : ∀ x, x ∈ l'.list b ↔ x = who ∨ x ∈ l.list b)
    (hc : ∀ c, c ≠ a → c ≠ b → ∀ x, x ∈ l'.list c ↔ x ∈ l.list c) : Moves l l' who (some b) where
  seat c := by
    rcases eq_or_ne c a with rfl | hca
    · rw [ha]
      simp [hab.symm]
    · rcases eq_or_ne c b with rfl | hcb
      · rw [hb]
        simp
      · rw [hc c hca hcb]
        simp [h.notMem c hca, hcb.symm]
  others x hx o ho c := by
    rw [← ho c]
    rcases eq_or_ne c a with rfl | hca
    · rw [ha]
      simp [hx]
    · rcases eq_or_ne c b with rfl | hcb
      · rw [hb]
        simp [hx]
      · exact hc c hca hcb x

theorem moves_keySet (h : Seats l who (some .waitingBoxPubkey)) :
    Moves l (l.keySet who) who (some .normal) := by
  refine .transfer h (by decide) (fun x => mem_rmItem) (fun x => mem_addItem) ?_
  intro c hca hcb x
  cases c <;> first | contradiction | exact Iff.rfl

theorem moves_fulfilled (h : Seats l who (some .fulfilling)) :
    Moves l (l.fulfilled who) who (some .normal) := by
  refine .transfer h (by decide) (fun x => mem_rmItem) (fun x => mem_addItem) ?_
  intro c hca hcb x
  cases c <;> first | contradiction | exact Iff.rfl

theorem moves_unfulfilled (h : Seats l who (some .normal)) :
    Moves l (l.unfulfilled who) who (some .fulfilling) := by
  refine .transfer h (by decide) (fun x => mem_rmItem) (fun x => mem_addItem) ?_
  intro c hca hcb x
  cases c <;> first | contradiction | exact Iff.rfl

theorem moves_unchilled (h : Seats l who (some .chill)) :
    Moves l (l.unchilled who) who (some .normal) := by
  refine .transfer h (by decide) (fun x => mem_rmItem) (fun x => mem_addItem) ?_
  intro c hca hcb x
  cases c <;> first | contradiction | exact Iff.rfl

theorem moves_chilled (h : Seats l who (some seat)) (hs : seat = .normal ∨ seat = .fulfilling) :
    Moves l (l.chilled who) who (some .chill) := by
  rcases hs with rfl | rfl
  · have hful := h.notMem .fulfilling (by decide)
    refine .transfer h (by decide) (fun x => mem_rmItem)
      (fun x => mem_addItem) ?_
    intro c hca hcb x
    cases c
    case fulfilling => exact mem_rmItem_of_notMem hful
    all_goals first | contradiction | exact Iff.rfl
  · have hnormal := h.notMem .normal (by decide)
    refine .transfer h (by decide) (fun x => mem_rmItem)
      (fun x => mem_addItem) ?_
    intro c hca hcb x
    cases c
    case normal => exact mem_rmItem_of_notMem hnormal
    all_goals first | contradiction | exact Iff.rfl

end Lists

/-! ## Calls -/

section Calls

variable {s s' : State A} {p : CommitteeStakeParamsInfo} {who x : A} {amount : Nat}
  {isAdd changeReserve : Bool} {i : CommitteeStakeInfo} {o : Option Seat} {u : Unit}

theorem stakeOf_setStake_self : (s.setStake who i).stakeOf who = i :=
  getD_insert_self ..

theorem stakeOf_setStake_of_ne (h : x ≠ who) : (s.setStake who i).stakeOf x = s.stakeOf x := by
  unfold State.stakeOf State.setStake
  rw [getD_insert, if_neg h]

/-- Everyone sits in at most one list, and the stake allows the seat. -/
structure Inv (p : CommitteeStakeParamsInfo) (s : State A) : Prop where
  params : s.committeeStakeParams = some p
  seats : ∀ who, ∃ o, Seats s.committee who o ∧ ∀ seat, o = some seat → seat.Fits p (s.stakeOf who)

theorem Inv.seat (h : Inv p s) (seat : Seat) (hm : who ∈ s.committee.list seat) :
    Seats s.committee who (some seat) ∧ seat.Fits p (s.stakeOf who) := by
  obtain ⟨o, ho, hfit⟩ := h.seats who
  exact ⟨ho.of_mem seat hm, hfit seat ((ho seat).1 hm)⟩

/-- Everyone but `who` sits where the stake puts them. -/
structure SeatedBut (p : CommitteeStakeParamsInfo) (who : A) (s : State A) : Prop where
  params : s.committeeStakeParams = some p
  seat : ∃ o, Seats s.committee who o
  others : ∀ x, x ≠ who →
    ∃ o, Seats s.committee x o ∧ ∀ seat, o = some seat → seat.Fits p (s.stakeOf x)

theorem Inv.seatedBut (h : Inv p s) (who : A) : SeatedBut p who s where
  params := h.params
  seat := by
    obtain ⟨o, ho, -⟩ := h.seats who
    exact ⟨o, ho⟩
  others x _ := h.seats x

/-- **One account moves.** The seat it gets fits the stake it has then. -/
theorem SeatedBut.move (h : SeatedBut p who s)
    (hp : s'.committeeStakeParams = s.committeeStakeParams)
    (hm : Moves s.committee s'.committee who o)
    (hfit : ∀ seat, o = some seat → seat.Fits p (s'.stakeOf who))
    (hstake : ∀ x, x ≠ who → s'.stakeOf x = s.stakeOf x) : Inv p s' where
  params := hp.trans h.params
  seats x := by
    rcases eq_or_ne x who with rfl | hx
    · exact ⟨o, hm.seat, hfit⟩
    · obtain ⟨o', ho', hfit'⟩ := h.others x hx
      rw [hstake x hx]
      exact ⟨o', hm.others x hx o' ho', hfit'⟩

theorem Seat.Fits.congr {i j : CommitteeStakeInfo} (seat : Seat) (h : seat.Fits p i)
    (hstaked : j.stakedAmount = i.stakedAmount) (hused : j.usedStake = i.usedStake) :
    seat.Fits p j := by
  cases seat <;> simp_all [Seat.Fits, freeStakeEnough]

theorem Inv.rewrite (h : Inv p s) (hp : s'.committeeStakeParams = s.committeeStakeParams)
    (hl : s'.committee = s.committee)
    (hstaked : ∀ x, (s'.stakeOf x).stakedAmount = (s.stakeOf x).stakedAmount)
    (hused : ∀ x, (s'.stakeOf x).usedStake = (s.stakeOf x).usedStake) : Inv p s' where
  params := hp.trans h.params
  seats x := by
    obtain ⟨o, ho, hfit⟩ := h.seats x
    rw [hl]
    exact ⟨o, ho, fun seat hs => (hfit seat hs).congr seat (hstaked x) (hused x)⟩

theorem Inv.setStake_reward (h : Inv p s) (hstaked : i.stakedAmount = (s.stakeOf who).stakedAmount)
    (hused : i.usedStake = (s.stakeOf who).usedStake) : Inv p (s.setStake who i) := by
  refine h.rewrite rfl rfl ?_ ?_ <;> intro x <;> rcases eq_or_ne x who with rfl | hx
  · rw [stakeOf_setStake_self, hstaked]
  · rw [stakeOf_setStake_of_ne hx]
  · rw [stakeOf_setStake_self, hused]
  · rw [stakeOf_setStake_of_ne hx]

theorem checkStakeHealth_ok (h : (checkStakeHealth who amount isAdd).run s = (.ok u, s')) :
    s' = s ∧ ∃ params staked, s.committeeStakeParams = some params ∧
      checkedChange u128Max (s.stakeOf who).stakedAmount amount isAdd = some staked ∧
      freeStakeEnough params ((s.stakeOf who).setStaked staked) := by
  unfold checkStakeHealth at h
  simp only [run_ok] at h
  obtain ⟨params, hparams, staked, hstaked, henough, rfl⟩ := h
  exact ⟨rfl, params, staked, hparams, hstaked, henough⟩

theorem doChangeReserved_ok
    (h : (doChangeReserved who amount isAdd changeReserve).run s = (.ok u, s')) :
    ∃ b staked, checkedChange u128Max (s.stakeOf who).stakedAmount amount isAdd = some staked ∧
      s' = (s.setBalances b).setStake who ((s.stakeOf who).setStaked staked) := by
  unfold doChangeReserved at h
  simp only [run_ok] at h
  obtain ⟨staked, hstaked, b, -, -, rfl⟩ := h
  exact ⟨b, staked, hstaked, rfl⟩

/-- The check and the change see the same stake, so the new stake is the one that was checked. -/
theorem checked_change_ok {s1 : State A} {v : Unit} (hp : s.committeeStakeParams = some p)
    (hcheck : (checkStakeHealth who amount isAdd).run s = (.ok u, s1))
    (hchange : (doChangeReserved who amount isAdd changeReserve).run s1 = (.ok v, s')) :
    ∃ b i, freeStakeEnough p i ∧ s' = (s.setBalances b).setStake who i := by
  obtain ⟨rfl, params, staked, hparams, hstaked, henough⟩ := checkStakeHealth_ok hcheck
  obtain ⟨b, staked', hstaked', rfl⟩ := doChangeReserved_ok hchange
  obtain rfl := Option.some.inj (hp.symm.trans hparams)
  obtain rfl := Option.some.inj (hstaked.symm.trans hstaked')
  exact ⟨b, _, henough, rfl⟩

/-- **The seat is recomputed.** Whatever the stake was, a normal or fulfilling member sits
where the new stake puts it, and the others are not touched. -/
theorem doChangeStatus_moves {l : CommitteeList A} (h : Seats l who o) :
    ∃ o', Moves l (doChangeStatusWhenStakeChanged (some p) who i l) who o' ∧
      ∀ seat, o' = some seat → seat.Fits p i := by
  unfold doChangeStatusWhenStakeChanged
  rw [Option.getD_some]
  split
  · next henough =>
    split
    · next hful =>
      refine ⟨_, moves_fulfilled (h.of_mem .fulfilling hful), ?_⟩
      rintro _ ⟨⟩
      exact henough
    · next hful =>
      refine ⟨o, .refl h, ?_⟩
      rintro seat rfl
      cases seat with
      | normal => exact henough
      | fulfilling => exact absurd h.mem hful
      | chill => trivial
      | waitingBoxPubkey => trivial
  · next hshort =>
    split
    · next hnormal =>
      refine ⟨_, moves_unfulfilled (h.of_mem .normal hnormal), ?_⟩
      rintro _ ⟨⟩
      exact hshort
    · next hnormal =>
      refine ⟨o, .refl h, ?_⟩
      rintro seat rfl
      cases seat with
      | normal => exact absurd h.mem hnormal
      | fulfilling => exact hshort
      | chill => trivial
      | waitingBoxPubkey => trivial

end Calls

/-! ## Steps -/

section Steps

variable {s s' : State A} {p : CommitteeStakeParamsInfo} {who : A} {amount : Nat}
  {isAdd : Bool} {i : CommitteeStakeInfo} {u : Unit}

section

variable (h : Inv p s)

include h

theorem Inv.enough {b : Balances A} {l : CommitteeList A} (hi : freeStakeEnough p i)
    (hm : Moves s.committee l who (some .normal)) :
    Inv p (((s.setBalances b).setStake who i).setCommittee l) := by
  refine (h.seatedBut who).move rfl hm ?_ fun x hx => stakeOf_setStake_of_ne hx
  rintro _ ⟨⟩
  have hstake : (((s.setBalances b).setStake who i).setCommittee l).stakeOf who = i :=
    stakeOf_setStake_self
  rw [hstake]
  exact hi

/-- A checked stake of a member that stays where it is, not among the fulfilling ones. -/
theorem Inv.enough_stay {b : Balances A} (hi : freeStakeEnough p i)
    (hful : who ∉ s.committee.fulfillingList) : Inv p ((s.setBalances b).setStake who i) := by
  obtain ⟨o, ho, -⟩ := h.seats who
  refine (h.seatedBut who).move rfl (.refl ho) ?_ fun x hx => stakeOf_setStake_of_ne hx
  rintro seat rfl
  rw [stakeOf_setStake_self]
  cases seat with
  | normal => exact hi
  | fulfilling => exact absurd ho.mem hful
  | chill => trivial
  | waitingBoxPubkey => trivial

theorem addCommittee_inv (hr : (addCommittee who).run s = (.ok u, s')) : Inv p s' := by
  unfold addCommittee at hr
  simp only [run_ok] at hr
  obtain ⟨hnew, -, rfl⟩ := hr
  simp only [CommitteeList.IsCommittee, not_or] at hnew
  obtain ⟨hnormal, hchill, -, hful⟩ := hnew
  have hm : Moves s.committee (s.addWaiting who).committee who (some .waitingBoxPubkey) := by
    refine ⟨fun seat => ?_, fun x hx o ho seat => ?_⟩
    · cases seat <;> simp [CommitteeList.list, State.addWaiting, hnormal, hchill, hful]
    · rw [← ho seat]
      cases seat <;> simp [CommitteeList.list, State.addWaiting, hx]
  refine (h.seatedBut who).move rfl hm ?_ fun x _ => rfl
  rintro _ ⟨⟩
  trivial

theorem committeeSetBoxPubkey_inv
    (hr : (committeeSetBoxPubkey who).run s = (.ok u, s')) : Inv p s' := by
  unfold committeeSetBoxPubkey at hr
  simp only [run_ok, run_ite] at hr
  obtain ⟨params, hparams, hr⟩ := hr
  split at hr
  · next hwait =>
    simp only [run_ok] at hr
    obtain ⟨_, s1, hcheck, _, s2, hchange, rfl⟩ := hr
    obtain ⟨b, i, hi, rfl⟩ := checked_change_ok h.params hcheck hchange
    exact h.enough hi (moves_keySet (h.seat .waitingBoxPubkey hwait).1)
  · simp only [run_ensure_ok] at hr
    obtain ⟨-, rfl⟩ := hr
    exact h

theorem committeeAddStake_inv
    (hr : (committeeAddStake who amount).run s = (.ok u, s')) : Inv p s' := by
  unfold committeeAddStake at hr
  simp only [run_ok, run_when_ok] at hr
  obtain ⟨-, _, s1, hcheck, _, s2, hchange, hlist⟩ := hr
  obtain ⟨b, i, hi, rfl⟩ := checked_change_ok h.params hcheck hchange
  rcases hlist with ⟨hful, rfl⟩ | ⟨hful, rfl⟩
  · exact h.enough hi (moves_fulfilled (h.seat .fulfilling hful).1)
  · exact h.enough_stay hi hful

theorem committeeReduceStake_inv
    (hr : (committeeReduceStake who amount).run s = (.ok u, s')) : Inv p s' := by
  unfold committeeReduceStake at hr
  simp only [run_ok] at hr
  obtain ⟨hnormal, _, s1, hcheck, hchange⟩ := hr
  obtain ⟨b, i, hi, rfl⟩ := checked_change_ok h.params hcheck hchange
  exact h.enough_stay hi ((h.seat .normal hnormal).1.notMem .fulfilling (by decide))

theorem claimReward_inv (hr : (claimReward who).run s = (.ok u, s')) : Inv p s' := by
  unfold claimReward at hr
  simp only [run_ok] at hr
  obtain ⟨-, b, -, -, rfl⟩ := hr
  have hb : Inv p (s.setBalances b) := h.rewrite rfl rfl (fun _ => rfl) fun _ => rfl
  exact hb.setStake_reward rfl rfl

theorem chill_inv (hr : (chill who).run s = (.ok u, s')) : Inv p s' := by
  unfold chill at hr
  simp only [run_ok, run_ite] at hr
  obtain ⟨hmember, hr⟩ := hr
  split at hr
  · simp only [run_ok] at hr
    obtain ⟨-, rfl⟩ := hr
    exact h
  · next hchill =>
    simp only [run_ok] at hr
    obtain ⟨hwait, -, rfl⟩ := hr
    have hm : Moves s.committee (s.committee.chilled who) who (some .chill) := by
      rcases hmember with hnormal | hm | hm | hful
      · exact moves_chilled (h.seat .normal hnormal).1 (.inl rfl)
      · exact absurd hm hchill
      · exact absurd hm hwait
      · exact moves_chilled (h.seat .fulfilling hful).1 (.inr rfl)
    refine (h.seatedBut who).move rfl hm ?_ fun x _ => rfl
    rintro _ ⟨⟩
    trivial

theorem undoChill_inv (hr : (undoChill who).run s = (.ok u, s')) : Inv p s' := by
  unfold undoChill at hr
  simp only [run_ok] at hr
  obtain ⟨hchill, -, rfl⟩ := hr
  have hback := moves_unchilled (h.seat .chill hchill).1
  obtain ⟨o, hm, hfit⟩ := doChangeStatus_moves (p := p) (i := s.stakeOf who) hback.seat
  rw [h.params]
  exact (h.seatedBut who).move rfl (hback.trans hm) hfit fun x _ => rfl

theorem exitCommittee_inv (hr : (exitCommittee who).run s = (.ok u, s')) : Inv p s' := by
  unfold exitCommittee at hr
  simp only [run_ok] at hr
  obtain ⟨-, hchill, -, rfl⟩ := hr
  have hseat := (h.seat .chill hchill).1
  have hnone : ∀ seat, seat ≠ Seat.chill → who ∉ s.committee.list seat :=
    fun seat => hseat.notMem seat
  have hm : Moves s.committee (s.rmChilled who).committee who none := by
    refine ⟨fun seat => ?_, fun x hx o ho seat => ?_⟩
    · cases seat with
      | chill => simp [CommitteeList.list, State.rmChilled]
      | normal => exact iff_of_false (hnone .normal (by decide)) (by decide)
      | waitingBoxPubkey => exact iff_of_false (hnone .waitingBoxPubkey (by decide)) (by decide)
      | fulfilling => exact iff_of_false (hnone .fulfilling (by decide)) (by decide)
    · rw [← ho seat]
      cases seat <;> simp [CommitteeList.list, State.rmChilled, hx]
  refine (h.seatedBut who).move rfl hm ?_ fun x hx => stakeOf_setStake_of_ne hx
  rintro _ ⟨⟩

end

/-- **The used stake changes.** The member may have had any stake before. -/
theorem changeUsedStake_post (h : SeatedBut p who s) :
    Post (changeUsedStake who amount isAdd) s (fun _ s' => Inv p s') (fun _ s' => s' = s) := by
  unfold changeUsedStake
  simp only [post_step]
  refine ⟨fun used _ => ?_, fun _ => trivial⟩
  obtain ⟨o, ho⟩ := h.seat
  obtain ⟨o', hm, hfit⟩ := doChangeStatus_moves (p := p) (i := (s.stakeOf who).setUsed used) ho
  rw [h.params]
  refine h.move rfl hm ?_ fun x hx => stakeOf_setStake_of_ne hx
  intro seat hs
  rw [stakeOf_setStake_self]
  exact hfit seat hs

theorem doChangeReserved_seatedBut {changeReserve : Bool} (h : Inv p s) :
    SeatedBut p who ((doChangeReserved who amount isAdd changeReserve).run s).2 := by
  refine Post.storage (I := SeatedBut p who) ?_
  unfold doChangeReserved
  simp only [post_step]
  refine ⟨fun staked _ => ⟨fun b _ => ?_, fun _ => h.seatedBut who⟩, fun _ => h.seatedBut who⟩
  refine ⟨h.params, (h.seatedBut who).seat, fun x hx => ?_⟩
  rw [stakeOf_setStake_of_ne hx]
  exact h.seats x

theorem changeBothStakes_inv {total used : Nat} {isAddTotal changeReserve isAddUsed : Bool}
    (h : Inv p s)
    (hr : (changeBothStakes who total isAddTotal changeReserve used isAddUsed).run s =
      (.ok u, s')) : Inv p s' := by
  unfold changeBothStakes at hr
  rw [run_bind_ok] at hr
  obtain ⟨_, s1, htotal, hused⟩ := hr
  rw [run_ignore, Prod.mk.injEq] at htotal
  obtain ⟨-, rfl⟩ := htotal
  exact (changeUsedStake_post (doChangeReserved_seatedBut h)).ok hused

theorem apply_inv (h : Inv p s) {op : Op A} (hpos : op.Possible p s) : Inv p (apply s op) := by
  cases op with
  | setCommitteeStakeParams params =>
    obtain rfl : params = p := hpos
    exact ⟨rfl, h.seats⟩
  | addCommittee member => exact dispatch_keeps h fun _ _ hr => addCommittee_inv h hr
  | committeeSetBoxPubkey committee =>
    exact dispatch_keeps h fun _ _ hr => committeeSetBoxPubkey_inv h hr
  | committeeAddStake committee amount =>
    exact dispatch_keeps h fun _ _ hr => committeeAddStake_inv h hr
  | committeeReduceStake committee amount =>
    exact dispatch_keeps h fun _ _ hr => committeeReduceStake_inv h hr
  | claimReward committee => exact dispatch_keeps h fun _ _ hr => claimReward_inv h hr
  | chill committee => exact dispatch_keeps h fun _ _ hr => chill_inv h hr
  | undoChill committee => exact dispatch_keeps h fun _ _ hr => undoChill_inv h hr
  | exitCommittee committee => exact dispatch_keeps h fun _ _ hr => exitCommittee_inv h hr
  | changeUsedStake committee amount isAdd =>
    refine Post.storage (I := Inv p) ((changeUsedStake_post (h.seatedBut committee)).mono ?_ ?_)
    · exact fun _ _ hs => hs
    · rintro _ _ rfl
      exact h
  | changeBothStakes committee total isAddTotal changeReserve used isAddUsed =>
    obtain ⟨_, hr⟩ := run_of_isOk hpos
    simp only [apply, hr]
    exact changeBothStakes_inv h hr
  | addReward committee reward => exact h.setStake_reward rfl rfl
  | nextBlock => exact h.rewrite rfl rfl (fun _ => rfl) fun _ => rfl
  | external b => exact h.rewrite rfl rfl (fun _ => rfl) fun _ => rfl

theorem reach_inv (h : (system p).Reach (fun _ _ => True) s) : Inv p s := by
  refine h.invariant ?_ ?_
  · rintro _ ⟨chain, rfl⟩
    refine ⟨rfl, fun who => ⟨none, fun seat => ?_, fun _ hs => by cases hs⟩⟩
    cases seat <;> exact iff_of_false notMem_empty (by simp)
  · rintro s op _ hs - ⟨hpos, rfl⟩
    exact apply_inv hs hpos

/-- **The lists match the stakes.** -/
theorem lists_match_stakes (p : CommitteeStakeParamsInfo) (s : State A)
    (h : (system p).Reach (fun _ _ => True) s) :
    (∀ seat, (s.committee.list seat).toList.Pairwise (· < ·) ∧
      (s.committee.list seat).toList.Nodup) ∧
    (∀ a b, a ≠ b → ∀ who ∈ s.committee.list a, who ∉ s.committee.list b) ∧
    ∀ who, who ∈ s.committee.normal ∨ who ∈ s.committee.fulfillingList →
      (who ∈ s.committee.normal ↔
        p.stakeBaseline ≤ (s.stakeOf who).stakedAmount ∧
        p.minFreeStakePercent.mul (s.stakeOf who).stakedAmount ≤
          (s.stakeOf who).stakedAmount - (s.stakeOf who).usedStake) := by
  have hinv := reach_inv h
  refine ⟨fun seat => ⟨(s.committee.list seat).sorted, (s.committee.list seat).nodup⟩, ?_, ?_⟩
  · intro a b hne who ha
    exact (hinv.seat a ha).1.notMem b hne.symm
  · rintro who (hnormal | hful)
    · exact iff_of_true hnormal (hinv.seat .normal hnormal).2
    · obtain ⟨hseat, hshort⟩ := hinv.seat .fulfilling hful
      exact iff_of_false (hseat.notMem .normal (by decide)) hshort

end Steps

namespace Demo

def params : CommitteeStakeParamsInfo := ⟨10, 2, .fromPercent 40⟩

def start : State Nat := (State.fresh
  ⟨0, ⟨(∅ : StorageMap Nat AccountData).insert 1 ⟨100, 0, 0⟩⟩, none, fun _ => none⟩).setParams
  params

def ops : List (Op Nat) :=
  [.addCommittee 1, .committeeSetBoxPubkey 1, .changeUsedStake 1 7 true, .chill 1, .undoChill 1,
    .committeeAddStake 1 5, .exitCommittee 1]

def run (n : Nat) : State Nat := (ops.take n).foldl apply start

theorem run_reach (n : Nat) : (system params).Reach (fun _ _ => True) (run n) := by
  refine System.Reach.path (P := Op.Possible params) (.init ⟨_, rfl⟩)
    (fun s op hpos => ⟨trivial, hpos, rfl⟩) (System.Path.of_forall (fun op hop s => ?_) _)
  have hall : ∀ op ∈ ops, op.Possible params s := by simp [ops, Op.Possible]
  exact hall op (List.mem_of_mem_take hop)

end Demo

/-- Seven of ten used is too much: the member waits among the fulfilling ones, comes back there
from the chill list, and five more make it normal again. -/
theorem lists_match_stakes_demo :
    1 ∈ (Demo.run 5).committee.fulfillingList ∧ 1 ∉ (Demo.run 5).committee.normal ∧
      ¬ Demo.params.minFreeStakePercent.mul 10 ≤ 10 - 7 ∧
      1 ∈ (Demo.run 6).committee.normal ∧ 1 ∉ (Demo.run 6).committee.fulfillingList := by
  have hful : 1 ∈ (Demo.run 5).committee.fulfillingList := by decide +kernel
  have hback : 1 ∈ (Demo.run 6).committee.normal := by decide +kernel
  have h5 := lists_match_stakes Demo.params _ (Demo.run_reach 5)
  have h6 := lists_match_stakes Demo.params _ (Demo.run_reach 6)
  refine ⟨hful, ?_, by decide +kernel, hback, ?_⟩
  · exact h5.2.1 .fulfilling .normal (by decide) 1 hful
  · exact h6.2.1 .normal .fulfilling (by decide) 1 hback

end DeepBrainChain.Committee
