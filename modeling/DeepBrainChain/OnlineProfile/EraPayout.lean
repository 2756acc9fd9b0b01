import DeepBrainChain.Lib.Tally
import DeepBrainChain.OnlineProfile.Events

/-!
# What a snapshot should say

The snapshot of an era is a pair: the grades of its machines, and the statistics of their stashes.
`Snapshot.Sound owner` says that the second is what the first adds up to, where `owner` gives the
record of a machine. It is shown for each way in which the code edits a snapshot.
-/

namespace DeepBrainChain.OnlineProfile

open Lib Support StorageMap

section

variable {A : Type} [LinearOrder A]

structure Snapshot (A : Type) where
  stashes : EraStashPoints A
  machines : StorageMap MachineId MachineGradeStatus

def stashOf (owner : MachineId → Option (MachineInfo A)) (m : MachineId) : Option A :=
  (owner m).map MachineInfo.machineStash

def cardsOf (owner : MachineId → Option (MachineInfo A)) (m : MachineId) : Nat :=
  ((owner m).map MachineInfo.gpuNum).getD 0

/-- What a machine in a snapshot earns for being rented. -/
def MachineGradeStatus.extraGrade (x : MachineGradeStatus) : Nat :=
  if x.isRented then gradeOnRent x.basicGrade else 0

namespace Snapshot

/-- The part of a snapshot that is always kept exactly: each machine has cards and its grade, and the
grades and the cards of a stash are those of its machines. -/
structure Counted (owner : MachineId → Option (MachineInfo A)) (x : Snapshot A) : Prop where
  entry : ∀ {m g}, x.machines.get m = some g →
    ∃ i, owner m = some i ∧ g.basicGrade = i.calcPoint ∧ 0 < i.gpuNum
  grade : ∀ stash, (x.stashes.statistic stash).machineTotalCalcPoint =
    tally x.machines (stashOf owner) (fun _ g => g.basicGrade) stash
  cards : ∀ stash, (x.stashes.statistic stash).onlineGpuNum =
    tally x.machines (stashOf owner) (fun m _ => cardsOf owner m) stash

/-- **The statistics of a stash are those of its machines.** -/
structure Sound (owner : MachineId → Option (MachineInfo A)) (x : Snapshot A) : Prop
    extends Counted owner x where
  extra : ∀ stash, (x.stashes.statistic stash).rentExtraGrade =
    tally x.machines (stashOf owner) (fun _ g => g.extraGrade) stash

def addMachine (x : Snapshot A) (m : MachineId) (i : MachineInfo A) : Snapshot A where
  stashes := x.stashes.onOnlineChanged i.machineStash i.gpuNum i.calcPoint true
  machines := x.machines.insert m ⟨i.calcPoint, false⟩

def removeMachine (x : Snapshot A) (m : MachineId) (i : MachineInfo A) : Snapshot A where
  stashes := x.stashes.onOnlineChanged i.machineStash i.gpuNum i.calcPoint false
  machines := x.machines.remove m

/-- A machine is marked as rented or not, with the statistics of its stash. -/
def setRented (x : Snapshot A) (m : MachineId) (i : MachineInfo A) (isRented : Bool) :
    Snapshot A where
  stashes := x.stashes.onRentChanged i.machineStash i.calcPoint isRented
  machines := x.machines.insert m ⟨i.calcPoint, isRented⟩

/-- The sums of a stash leave room for a machine with cards. -/
structure Room (x : Snapshot A) (stash : A) (gpuNum grade : Nat) : Prop where
  some : 0 < gpuNum
  cards : (x.stashes.statistic stash).onlineGpuNum + gpuNum ≤ u64Max
  grade : (x.stashes.statistic stash).machineTotalCalcPoint + grade ≤ u64Max

/-- The extra grade of a stash leaves room for a rented machine. -/
def RentRoom (x : Snapshot A) (stash : A) (grade : Nat) : Prop :=
  (x.stashes.statistic stash).rentExtraGrade + gradeOnRent grade ≤ u64Max

end Snapshot

/-! ## Statistics after a change -/

theorem EraStashPoints.statistic_onOnlineChanged (e : EraStashPoints A) (stash stash' : A)
    (gpuNum grade : Nat) (isOnline : Bool) :
    (e.onOnlineChanged stash gpuNum grade isOnline).statistic stash' =
      if stash' = stash then
        if ((e.statistic stash).onOnlineChanged gpuNum grade isOnline).onlineGpuNum = 0 then .zero
        else (e.statistic stash).onOnlineChanged gpuNum grade isOnline
      else e.statistic stash' := by
  unfold EraStashPoints.onOnlineChanged EraStashPoints.statistic
  simp only
  by_cases hs : stash' = stash
  · subst hs
    rw [if_pos rfl]
    split
    · simp [getD_remove]
    · simp
  · rw [if_neg hs]
    split
    · simp [getD_remove, hs]
    · simp [getD_insert, hs]

theorem EraStashPoints.statistic_onRentChanged (e : EraStashPoints A) (stash stash' : A)
    (grade : Nat) (isRented : Bool) :
    (e.onRentChanged stash grade isRented).statistic stash' =
      if stash' = stash then (e.statistic stash).onRentChanged grade isRented
      else e.statistic stash' :=
  getD_insert ..

theorem onRentChanged_true {x : StashMachineStatistics} {grade : Nat}
    (h : x.rentExtraGrade + gradeOnRent grade ≤ u64Max) :
    (x.onRentChanged grade true).rentExtraGrade = x.rentExtraGrade + gradeOnRent grade := by
  simp only [StashMachineStatistics.onRentChanged, saturatingChange, if_true]
  exact saturatingAdd_of_le h

theorem onRentChanged_false (x : StashMachineStatistics) (grade : Nat) :
    (x.onRentChanged grade false).rentExtraGrade = x.rentExtraGrade - gradeOnRent grade := by
  simp only [StashMachineStatistics.onRentChanged, saturatingChange, Bool.false_eq_true, if_false]

theorem extraGrade_true (grade : Nat) :
    (⟨grade, true⟩ : MachineGradeStatus).extraGrade = gradeOnRent grade := by
  simp only [MachineGradeStatus.extraGrade, if_true]

theorem extraGrade_false (grade : Nat) : (⟨grade, false⟩ : MachineGradeStatus).extraGrade = 0 := by
  simp only [MachineGradeStatus.extraGrade, Bool.false_eq_true, if_false]

/-! ## Edits of a snapshot -/

variable {owner owner' : MachineId → Option (MachineInfo A)} {x : Snapshot A} {m : MachineId}
  {i : MachineInfo A} {g : MachineGradeStatus}

theorem stashOf_eq (hi : owner m = some i) : stashOf owner m = some i.machineStash := by
  simp [stashOf, hi]

theorem cardsOf_eq (hi : owner m = some i) : cardsOf owner m = i.gpuNum := by
  simp [cardsOf, hi]

namespace Snapshot

/-- The stash of a new machine keeps its entry, since the machine has cards. -/
theorem statistic_addMachine (hr : x.Room i.machineStash i.gpuNum i.calcPoint) (stash : A) :
    (x.addMachine m i).stashes.statistic stash =
      if stash = i.machineStash then
        (x.stashes.statistic i.machineStash).onOnlineChanged i.gpuNum i.calcPoint true
      else x.stashes.statistic stash := by
  have hcards := hr.some
  have hpos : saturatingAdd u64Max (x.stashes.statistic i.machineStash).onlineGpuNum
      i.gpuNum ≠ 0 := by
    rw [saturatingAdd_of_le hr.cards]
    omega
  unfold Snapshot.addMachine
  rw [EraStashPoints.statistic_onOnlineChanged]
  exact if_congr Iff.rfl (if_neg hpos) rfl

theorem extra_addMachine (hr : x.Room i.machineStash i.gpuNum i.calcPoint) (stash : A) :
    ((x.addMachine m i).stashes.statistic stash).rentExtraGrade =
      (x.stashes.statistic stash).rentExtraGrade := by
  rw [statistic_addMachine hr]
  split
  · next e =>
    rw [e]
    rfl
  · rfl

theorem tally_addMachine (hm : x.machines.get m = none) (stash : A) :
    tally (x.addMachine m i).machines (stashOf owner) (fun _ g => g.extraGrade) stash =
      tally x.machines (stashOf owner) (fun _ g => g.extraGrade) stash := by
  unfold Snapshot.addMachine
  rw [tally_insert (stashOf owner) _ hm, extraGrade_false]
  simp

namespace Counted

theorem empty : Counted owner (⟨.zero, ∅⟩ : Snapshot A) := by
  refine ⟨fun h => ?_, fun _ => rfl, fun _ => rfl⟩
  rw [get_empty] at h
  cases h

section

variable (h : Counted owner x)

include h

section

variable (ho : ∀ {m g i}, x.machines.get m = some g → owner m = some i →
    ∃ i', owner' m = some i' ∧ Kept i i')

include ho

theorem owner_congr (hg : x.machines.get m = some g) :
    stashOf owner m = stashOf owner' m ∧ cardsOf owner m = cardsOf owner' m := by
  obtain ⟨i, hi, -⟩ := h.entry hg
  obtain ⟨i', hi', hk⟩ := ho hg hi
  simp [stashOf, cardsOf, hi, hi', hk.stash, hk.gpuNum]

theorem congr : Counted owner' x := by
  refine ⟨fun {m g} hg => ?_, fun stash => ?_, fun stash => ?_⟩
  · obtain ⟨i, hi, hgrade, hcards⟩ := h.entry hg
    obtain ⟨i', hi', hk⟩ := ho hg hi
    exact ⟨i', hi', hgrade.trans hk.calcPoint.symm, hk.gpuNum ▸ hcards⟩
  · rw [h.grade]
    exact tally_congr (fun m g hg => ⟨(h.owner_congr ho hg).1, rfl⟩) stash
  · rw [h.cards]
    exact tally_congr (fun m g hg => h.owner_congr ho hg) stash

end

theorem addMachine (hi : owner m = some i) (hm : x.machines.get m = none)
    (hr : x.Room i.machineStash i.gpuNum i.calcPoint) : Counted owner (x.addMachine m i) := by
  refine ⟨fun {m' g} hg' => ?_, tally_grow h.grade hm (stashOf_eq hi) fun stash => ?_,
    tally_grow h.cards hm (stashOf_eq hi) fun stash => ?_⟩
  · rw [Snapshot.addMachine, get_insert] at hg'
    split at hg'
    · next e =>
      cases hg'
      exact ⟨i, e ▸ hi, rfl, hr.some⟩
    · exact h.entry hg'
  · rw [statistic_addMachine hr, apply_ite StashMachineStatistics.machineTotalCalcPoint]
    exact if_congr Iff.rfl (saturatingAdd_of_le hr.grade) rfl
  · rw [statistic_addMachine hr, apply_ite StashMachineStatistics.onlineGpuNum, cardsOf_eq hi]
    exact if_congr Iff.rfl (saturatingAdd_of_le hr.cards) rfl

theorem basicGrade_eq (hi : owner m = some i)
    (hm : x.machines.get m = some g) : g.basicGrade = i.calcPoint := by
  obtain ⟨j, hj, hgrade, -⟩ := h.entry hm
  rw [hi] at hj
  cases hj
  exact hgrade

/-- A stash without cards has no machine, so everything adds up to zero. -/
theorem tally_zero {stash : A}
    (hz : tally x.machines (stashOf owner) (fun m _ => cardsOf owner m) stash = 0)
    (w : MachineId → MachineGradeStatus → Nat) : tally x.machines (stashOf owner) w stash = 0 := by
  refine tally_eq_zero (fun m g hg => ?_) hz
  obtain ⟨i, hi, -, hpos⟩ := h.entry hg
  rw [cardsOf_eq hi]
  exact hpos

end

/-- The statistics of a stash without a machine that goes, before they are dropped. -/
def without (x : Snapshot A) (i : MachineInfo A) (stash : A) : StashMachineStatistics :=
  if stash = i.machineStash then
    (x.stashes.statistic i.machineStash).onOnlineChanged i.gpuNum i.calcPoint false
  else x.stashes.statistic stash

theorem extra_without (x : Snapshot A) (i : MachineInfo A) (stash : A) :
    (without x i stash).rentExtraGrade = (x.stashes.statistic stash).rentExtraGrade := by
  unfold without
  split
  · next e =>
    rw [e]
    rfl
  · rfl

theorem statistic_removeMachine (x : Snapshot A) (m : MachineId) (i : MachineInfo A) (stash : A) :
    (x.removeMachine m i).stashes.statistic stash = without x i stash ∨
      (x.removeMachine m i).stashes.statistic stash = .zero ∧
        (without x i stash).onlineGpuNum = 0 := by
  have hchange := EraStashPoints.statistic_onOnlineChanged x.stashes i.machineStash stash i.gpuNum
    i.calcPoint false
  unfold Snapshot.removeMachine without
  rw [hchange]
  by_cases he : stash = i.machineStash
  · rw [if_pos he, if_pos he]
    split
    · next hz => exact .inr ⟨rfl, hz⟩
    · exact .inl rfl
  · rw [if_neg he, if_neg he]
    exact .inl rfl

section

variable (h : Counted owner x)

include h

section

variable (hi : owner m = some i)

include hi

theorem cards_without
    (hm : x.machines.get m = some g) (stash : A) : (without x i stash).onlineGpuNum =
      tally (x.removeMachine m i).machines (stashOf owner) (fun m _ => cardsOf owner m) stash := by
  refine tally_shrink (r := fun st => (without x i st).onlineGpuNum) h.cards hm (stashOf_eq hi)
    (fun st => ?_) stash
  simp only [without, apply_ite StashMachineStatistics.onlineGpuNum, cardsOf_eq hi]
  rfl

theorem removeMachine (hm : x.machines.get m = some g) : Counted owner (x.removeMachine m i) := by
  have hentry : ∀ {m' g'}, (x.removeMachine m i).machines.get m' = some g' →
      x.machines.get m' = some g' := by
    intro m' g' hg'
    rw [Snapshot.removeMachine, get_remove] at hg'
    split at hg'
    · cases hg'
    · exact hg'
  have hgrade : ∀ stash, (without x i stash).machineTotalCalcPoint =
      tally (x.removeMachine m i).machines (stashOf owner) (fun _ g => g.basicGrade) stash := by
    refine tally_shrink (r := fun st => (without x i st).machineTotalCalcPoint) h.grade hm
      (stashOf_eq hi) fun st => ?_
    simp only [without, apply_ite StashMachineStatistics.machineTotalCalcPoint,
      h.basicGrade_eq hi hm]
    rfl
  have hcards := h.cards_without hi hm
  refine ⟨fun hg' => h.entry (hentry hg'), fun stash => ?_, fun stash => ?_⟩
  · rcases statistic_removeMachine x m i stash with hs | ⟨hs, hz⟩
    · rw [hs, hgrade]
    · rw [hs]
      refine (tally_eq_zero (fun m' g' hg' => ?_) ((hcards stash).symm.trans hz)).symm
      obtain ⟨j, hj, -, hpos⟩ := h.entry (hentry hg')
      rw [cardsOf_eq hj]
      exact hpos
  · rcases statistic_removeMachine x m i stash with hs | ⟨hs, hz⟩
    · rw [hs, hcards]
    · rw [hs, ← hcards, hz]
      rfl

/-- The extra grade of a stash stays when a machine goes, unless it was the last one. -/
theorem extra_removeMachine
    (hm : x.machines.get m = some g) (stash : A) :
    ((x.removeMachine m i).stashes.statistic stash).rentExtraGrade =
        (x.stashes.statistic stash).rentExtraGrade ∨
      ((x.removeMachine m i).stashes.statistic stash).rentExtraGrade = 0 ∧
        tally (x.removeMachine m i).machines (stashOf owner) (fun _ g => g.extraGrade)
        stash = 0 := by
  rcases statistic_removeMachine x m i stash with hs | ⟨hs, hz⟩
  · rw [hs]
    exact .inl (extra_without x i stash)
  · refine .inr ⟨by rw [hs]; rfl, (h.removeMachine hi hm).tally_zero ?_ _⟩
    rw [← h.cards_without hi hm, hz]

theorem entry_insert (hm : x.machines.get m = some g)
    (isRented : Bool) {m' : MachineId} {g' : MachineGradeStatus}
    (hg' : (x.machines.insert m ⟨i.calcPoint, isRented⟩).get m' = some g') :
    ∃ j, owner m' = some j ∧ g'.basicGrade = j.calcPoint ∧ 0 < j.gpuNum := by
  rw [get_insert] at hg'
  split at hg'
  · next e =>
    subst e
    cases hg'
    obtain ⟨j, hj, -, hpos⟩ := h.entry hm
    rw [hi] at hj
    cases hj
    exact ⟨i, hi, rfl, hpos⟩
  · exact h.entry hg'

theorem setRented (hm : x.machines.get m = some g)
    (isRented : Bool) : Counted owner (x.setRented m i isRented) := by
  have hstat : ∀ stash, (x.setRented m i isRented).stashes.statistic stash =
      if stash = i.machineStash then
        (x.stashes.statistic i.machineStash).onRentChanged i.calcPoint isRented
      else x.stashes.statistic stash :=
    fun stash => EraStashPoints.statistic_onRentChanged ..
  refine ⟨fun hg' => h.entry_insert hi hm isRented hg', fun stash => ?_, fun stash => ?_⟩
  · rw [hstat, apply_ite StashMachineStatistics.machineTotalCalcPoint]
    refine Eq.trans ?_ (tally_same h.grade hm (h.basicGrade_eq hi hm).symm stash)
    split
    · next e => rw [e]; rfl
    · rfl
  · rw [hstat, apply_ite StashMachineStatistics.onlineGpuNum]
    refine Eq.trans ?_ (tally_same h.cards hm rfl stash)
    split
    · next e => rw [e]; rfl
    · rfl

end

end

end Counted

end Snapshot

/-! ## Edits of a sound snapshot -/

namespace Snapshot.Sound

theorem empty : Sound owner (⟨.zero, ∅⟩ : Snapshot A) := ⟨.empty, fun _ => rfl⟩

section

variable (h : Sound owner x)

include h

theorem congr (ho : ∀ {m g i}, x.machines.get m = some g →
    owner m = some i → ∃ i', owner' m = some i' ∧ Kept i i') : Sound owner' x := by
  refine ⟨h.toCounted.congr ho, fun stash => ?_⟩
  rw [h.extra]
  exact tally_congr (fun m g hg => ⟨(h.toCounted.owner_congr ho hg).1, rfl⟩) stash

section

variable (hi : owner m = some i)

include hi

theorem addMachine (hm : x.machines.get m = none)
    (hr : x.Room i.machineStash i.gpuNum i.calcPoint) : Sound owner (x.addMachine m i) := by
  refine ⟨h.toCounted.addMachine hi hm hr, fun stash => ?_⟩
  rw [extra_addMachine hr, tally_addMachine hm, h.extra]

theorem removeMachine (hm : x.machines.get m = some g)
    (hg : g.isRented = false) : Sound owner (x.removeMachine m i) := by
  refine ⟨h.toCounted.removeMachine hi hm, fun stash => ?_⟩
  rcases h.toCounted.extra_removeMachine hi hm stash with hs | ⟨hs, hz⟩
  · have hextra : g.extraGrade = 0 := by simp [MachineGradeStatus.extraGrade, hg]
    rw [hs, h.extra, Snapshot.removeMachine, tally_remove (stashOf owner) _ hm, hextra]
    simp
  · rw [hs, hz]

theorem setRented (hm : x.machines.get m = some g) {isRented : Bool}
    (hg : g.isRented = !isRented) (hr : isRented = true → x.RentRoom i.machineStash i.calcPoint) :
    Sound owner (x.setRented m i isRented) := by
  refine ⟨h.toCounted.setRented hi hm isRented,
    tally_change h.extra hm (stashOf_eq hi) fun stash => ?_⟩
  unfold Snapshot.setRented
  rw [EraStashPoints.statistic_onRentChanged, apply_ite StashMachineStatistics.rentExtraGrade]
  refine if_congr Iff.rfl ?_ rfl
  cases isRented with
  | true =>
    have hold : g.extraGrade = 0 := by simp [MachineGradeStatus.extraGrade, hg]
    rw [hold, extraGrade_true, onRentChanged_true (hr rfl), Nat.sub_zero]
  | false =>
    have hold : g.extraGrade = gradeOnRent i.calcPoint := by
      simp [MachineGradeStatus.extraGrade, hg, h.toCounted.basicGrade_eq hi hm]
    rw [hold, extraGrade_false, onRentChanged_false, Nat.add_zero]

theorem putAgain (hm : x.machines.get m = some g) (isRented : Bool) (hg : g.isRented = isRented) :
    Sound owner ⟨x.stashes, x.machines.insert m ⟨i.calcPoint, isRented⟩⟩ := by
  have hgrade := h.toCounted.basicGrade_eq hi hm
  have hextra : (⟨i.calcPoint, isRented⟩ : MachineGradeStatus).extraGrade = g.extraGrade := by
    simp [MachineGradeStatus.extraGrade, hg, hgrade]
  exact ⟨⟨fun hg' => h.toCounted.entry_insert hi hm isRented hg',
    tally_same h.grade hm hgrade.symm, tally_same h.cards hm rfl⟩, tally_same h.extra hm hextra⟩

end

end

end Snapshot.Sound

end

/-! # The shares of an era

An era pays out `Σ share(m)` over its machines, where the share of a machine is its grade over the
total of the era, in billionths, of the reward. The bonus for many cards is rounded once for each
machine in the grades, and once for each stash in the total; each share is rounded once more. -/

open Perbill Option

section

variable {A : Type} [LinearOrder A]

/-- The snapshot of an era, and the records of the machines in it. -/
structure Register (A : Type) [LinearOrder A] where
  snap : Snapshot A
  owner : MachineId → Option (MachineInfo A)

namespace Register

def share (x : Register A) (eraReward : Nat) (m : MachineId) : Nat :=
  match x.owner m with
  | some i => calcMachineTotalReward m i.machineStash eraReward x.snap.machines x.snap.stashes
  | none => 0

/-- The grade of a machine, with the bonus of its stash. -/
def grade (x : Register A) (m : MachineId) : Nat :=
  ((x.snap.machines.get m).bind fun g => (x.owner m).bind fun i =>
    (x.snap.stashes.stakerStatistic.get i.machineStash).map fun y =>
      g.machineActualGrade y.inflation).getD 0

/-- The grade over the total, in billionths. -/
def parts (x : Register A) (m : MachineId) : Nat :=
  min 1000000000 (x.grade m * 1000000000 / x.snap.stashes.total)

def total (x : Register A) (f : MachineId → Nat) : Nat := x.snap.machines.sum fun m _ => f m

variable (x : Register A) (eraReward : Nat)

end Register

/-! ## Runs -/

/-- Changes of the machines of an era. -/
inductive GradeOp (A : Type) [LinearOrder A]
  | online (m : MachineId) (i : MachineInfo A)
  | offline (m : MachineId)
  | rent (m : MachineId)
  | giveBack (m : MachineId)

namespace GradeOp

/-- Each machine is in the era once, and is rented once. -/
def Possible (x : Register A) : GradeOp A → Prop
  | .online m _ => x.snap.machines.get m = none
  | .offline m => ∃ g, x.snap.machines.get m = some g
  | .rent m => ∃ g, x.snap.machines.get m = some g ∧ g.isRented = false
  | .giveBack m => ∃ g, x.snap.machines.get m = some g ∧ g.isRented = true

end GradeOp

/-- The era after a change: one call of `on_online_changed` or `on_rent_changed`, and the matching
write to the machines. -/
def Register.apply (x : Register A) : GradeOp A → Register A
  | .online m i => ⟨x.snap.addMachine m i, fun m' => if m' = m then some i else x.owner m'⟩
  | .offline m => { x with snap := (x.owner m).elim x.snap fun i => x.snap.removeMachine m i }
  | .rent m => { x with snap := (x.owner m).elim x.snap fun i => x.snap.setRented m i true }
  | .giveBack m => { x with snap := (x.owner m).elim x.snap fun i => x.snap.setRented m i false }

end

/-! ## Two machines of one stash -/

namespace PayoutDemo

def machine (grade : Nat) : MachineInfo Nat :=
  { MachineInfo.newBonding 1 1 0 0 with
    committeeUploadInfo := { CommitteeUploadInfo.zero with gpuNum := 1, calcPoint := grade } }

end PayoutDemo

end DeepBrainChain.OnlineProfile
