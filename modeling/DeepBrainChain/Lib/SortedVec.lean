import Mathlib.Order.Lattice
import Mathlib.Data.List.Nodup
import Mathlib.Data.List.Pairwise
import Mathlib.Data.List.Perm.Subperm

/-!
# Vectors kept sorted

A vector that is only ever changed by inserting at the position a binary search returns, or by
removing the element it finds, is strictly increasing. `SortedVec` carries that fact, so the
binary search is membership: an insertion of a present element and a removal of an absent one
change nothing.
-/

namespace DeepBrainChain.Lib

/-- Insert `a` where a binary search places it, unless it is there. -/
def insertItem {α : Type} [LinearOrder α] (a : α) : List α → List α
  | [] => [a]
  | b :: l => if a < b then a :: b :: l else if a = b then b :: l else b :: insertItem a l

section List

variable {α : Type} [LinearOrder α] {a b : α} {l : List α}

theorem mem_insertItem : b ∈ insertItem a l ↔ b = a ∨ b ∈ l := by
  induction l with
  | nil => simp [insertItem]
  | cons c l ih =>
    unfold insertItem
    split
    · simp
    · split
      · next h => simp [h]
      · rw [List.mem_cons, ih, List.mem_cons]
        exact or_left_comm

theorem insertItem_sorted (h : l.Pairwise (· < ·)) : (insertItem a l).Pairwise (· < ·) := by
  induction l with
  | nil => simp [insertItem]
  | cons c l ih =>
    obtain ⟨hc, hl⟩ := List.pairwise_cons.1 h
    unfold insertItem
    split
    · next hac =>
      refine List.pairwise_cons.2 ⟨fun b hb => ?_, h⟩
      rcases List.mem_cons.1 hb with rfl | hb
      · exact hac
      · exact lt_trans hac (hc b hb)
    · split
      · exact h
      · next hca hne =>
        refine List.pairwise_cons.2 ⟨fun b hb => ?_, ih hl⟩
        rcases mem_insertItem.1 hb with rfl | hb
        · exact lt_of_le_of_ne (not_lt.1 hca) (Ne.symm hne)
        · exact hc b hb

theorem length_insertItem (h : a ∉ l) : (insertItem a l).length = l.length + 1 := by
  induction l with
  | nil => rfl
  | cons c l ih =>
    obtain ⟨hne, hl⟩ := not_or.1 (mt List.mem_cons.2 h)
    unfold insertItem
    rw [if_neg hne]
    split
    · rfl
    · rw [List.length_cons, ih hl, List.length_cons]

end List

/-- Membership in a list of ordered values. -/
instance decidableMem {α : Type} [LinearOrder α] (a : α) (l : List α) : Decidable (a ∈ l) :=
  inferInstance

/-- A strictly increasing vector. -/
structure SortedVec (α : Type) [LinearOrder α] where
  toList : List α
  sorted : toList.Pairwise (· < ·)
deriving DecidableEq

namespace SortedVec

variable {α : Type} [LinearOrder α]

instance : Membership α (SortedVec α) := ⟨fun v a => a ∈ v.toList⟩

instance (a : α) (v : SortedVec α) : Decidable (a ∈ v) := inferInstanceAs (Decidable (a ∈ v.toList))

instance : EmptyCollection (SortedVec α) := ⟨⟨[], List.Pairwise.nil⟩⟩

instance : Inhabited (SortedVec α) := ⟨∅⟩

def length (v : SortedVec α) : Nat := v.toList.length

def isEmpty (v : SortedVec α) : Bool := v.toList.isEmpty

def addItem (v : SortedVec α) (a : α) : SortedVec α :=
  ⟨insertItem a v.toList, insertItem_sorted v.sorted⟩

def rmItem (v : SortedVec α) (a : α) : SortedVec α := ⟨v.toList.erase a, v.sorted.erase a⟩

def expandToOrder (v : SortedVec α) (l : List α) : SortedVec α := l.foldl addItem v

variable {v w : SortedVec α} {a b : α} {l : List α}

@[simp] theorem mem_toList : a ∈ v.toList ↔ a ∈ v := Iff.rfl

@[simp] theorem notMem_empty : a ∉ (∅ : SortedVec α) := List.not_mem_nil

theorem eq_empty_of_toList (h : v.toList = []) : v = ∅ := by
  obtain ⟨l, hl⟩ := v
  cases h
  rfl

theorem nodup (v : SortedVec α) : v.toList.Nodup := v.sorted.imp ne_of_lt

@[simp] theorem mem_addItem : b ∈ v.addItem a ↔ b = a ∨ b ∈ v := mem_insertItem

@[simp] theorem mem_rmItem : b ∈ v.rmItem a ↔ b ≠ a ∧ b ∈ v := v.nodup.mem_erase_iff

theorem mem_rmItem_of_notMem (h : a ∉ v) : b ∈ v.rmItem a ↔ b ∈ v := by
  rw [mem_rmItem, and_iff_right_iff_imp]
  rintro hb rfl
  exact h hb

theorem perm_addItem (h : a ∉ v) : (v.addItem a).toList.Perm (a :: v.toList) := by
  refine (List.perm_ext_iff_of_nodup (v.addItem a).nodup (List.nodup_cons.2 ⟨h, v.nodup⟩)).2 ?_
  intro b
  rw [mem_toList, mem_addItem, List.mem_cons, mem_toList]

theorem perm_rmItem (h : a ∈ v) : v.toList.Perm (a :: (v.rmItem a).toList) :=
  List.perm_cons_erase h

theorem length_addItem (h : a ∉ v) : (v.addItem a).length = v.length + 1 := length_insertItem h

theorem length_rmItem (h : a ∈ v) : (v.rmItem a).length = v.length - 1 :=
  List.length_erase_of_mem h

@[simp] theorem mem_expandToOrder : b ∈ v.expandToOrder l ↔ b ∈ v ∨ b ∈ l := by
  unfold expandToOrder
  induction l generalizing v with
  | nil => simp
  | cons c l ih =>
    rw [List.foldl_cons, ih, mem_addItem, List.mem_cons]
    tauto

theorem mem_foldl_rmItem : b ∈ l.foldl rmItem v ↔ b ∈ v ∧ b ∉ l := by
  induction l generalizing v with
  | nil => simp
  | cons c l ih =>
    rw [List.foldl_cons, ih, mem_rmItem, List.mem_cons]
    tauto

/-- Removing distinct present elements one by one. -/
theorem length_foldl_rmItem (hl : l.Nodup) (hv : ∀ c ∈ l, c ∈ v) :
    (l.foldl rmItem v).length = v.length - l.length := by
  induction l generalizing v with
  | nil => rfl
  | cons c l ih =>
    obtain ⟨hc, hl⟩ := List.nodup_cons.1 hl
    have hrest : ∀ d ∈ l, d ∈ v.rmItem c := by
      intro d hd
      exact mem_rmItem.2 ⟨fun e => hc (e ▸ hd), hv d (List.mem_cons_of_mem c hd)⟩
    rw [List.foldl_cons, ih hl hrest, length_rmItem (hv c List.mem_cons_self), List.length_cons]
    omega

theorem length_le_of_subset (hs : ∀ a ∈ v, a ∈ w) : v.length ≤ w.length :=
  (List.subperm_of_subset v.nodup hs).length_le

theorem length_addItem_le (v : SortedVec α) (a : α) : (v.addItem a).length ≤ v.length + 1 := by
  by_cases h : a ∈ v
  · have hle : (v.addItem a).length ≤ v.length := length_le_of_subset fun b hb => by
      rcases mem_addItem.1 hb with rfl | hb
      · exact h
      · exact hb
    exact hle.trans (Nat.le_succ _)
  · exact (length_addItem h).le

theorem length_lt_of_notMem (hs : ∀ a ∈ v, a ∈ w) (ha : a ∈ w) (hv : a ∉ v) :
    v.length < w.length := by
  have hle : (v.addItem a).length ≤ w.length := length_le_of_subset fun b hb => by
    rcases mem_addItem.1 hb with rfl | hb
    · exact ha
    · exact hs b hb
  rw [length_addItem hv] at hle
  omega

theorem subset_of_length_eq (hs : ∀ a ∈ v, a ∈ w) (hl : v.length = w.length) : ∀ a ∈ w, a ∈ v := by
  have hperm := (List.subperm_of_subset v.nodup hs).perm_of_length_le hl.ge
  exact fun a ha => hperm.mem_iff.2 ha

theorem count_toList (a : α) (v : SortedVec α) : v.toList.count a = if a ∈ v then 1 else 0 := by
  split
  · next h => exact List.count_eq_one_of_mem v.nodup h
  · next h => exact List.count_eq_zero_of_not_mem h

theorem isEmpty_iff : v.isEmpty = true ↔ ∀ a, a ∉ v := by
  rw [isEmpty, List.isEmpty_iff]
  exact List.eq_nil_iff_forall_not_mem

theorem length_le_of_lt {v : SortedVec Nat} {n : Nat} (h : ∀ i ∈ v, i < n) : v.length ≤ n := by
  have hsub : v.toList.Subperm (List.range n) :=
    v.nodup.subperm fun i hi => List.mem_range.2 (h i hi)
  exact hsub.length_le.trans_eq List.length_range

end SortedVec

end DeepBrainChain.Lib
