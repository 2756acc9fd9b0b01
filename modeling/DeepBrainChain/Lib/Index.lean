import DeepBrainChain.Lib.StorageMap
import DeepBrainChain.Lib.SortedVec

/-!
# Secondary indexes

A table is often accompanied by indexes: maps from a key of its rows to the sorted vector of the
identifiers of those rows. `Exact table index key` says that the index lists an identifier under
a key if and only if the table has such a row; a row without a key is listed nowhere. Since the
vectors are strictly sorted, every row is then listed exactly once.
-/

namespace DeepBrainChain.Lib

/-- An index: sorted vectors of identifiers by key. -/
abbrev Index (K I : Type) [LinearOrder I] := StorageMap K (SortedVec I)

namespace Index

variable {K I V : Type} [DecidableEq K] [LinearOrder I]

def bucket (x : Index K I) (k : K) : SortedVec I := x.getD k ∅

def addTo (x : Index K I) (k : K) (i : I) : Index K I := x.insert k ((x.bucket k).addItem i)

/-- Take an identifier from a key, and drop a key that is left without any. -/
def rmFrom (x : Index K I) (k : K) (i : I) : Index K I :=
  if ((x.bucket k).rmItem i).isEmpty then x.remove k else x.insert k ((x.bucket k).rmItem i)

variable {x : Index K I} {k k' : K} {i j : I}

@[simp] theorem notMem_bucket_empty : i ∉ bucket (∅ : Index K I) k := by
  simp [bucket]

theorem mem_addTo : j ∈ (x.addTo k i).bucket k' ↔ j ∈ x.bucket k' ∨ (k' = k ∧ j = i) := by
  unfold addTo bucket
  rw [StorageMap.getD_insert]
  split
  · next h =>
    subst h
    simp [or_comm]
  · next h => simp [h]

theorem mem_rmFrom : j ∈ (x.rmFrom k i).bucket k' ↔ j ∈ x.bucket k' ∧ ¬ (k' = k ∧ j = i) := by
  unfold rmFrom
  split
  · next he =>
    rw [SortedVec.isEmpty_iff] at he
    unfold bucket
    rw [StorageMap.getD_remove]
    split
    · next h =>
      subst h
      have hj := he j
      rw [SortedVec.mem_rmItem] at hj
      simp only [SortedVec.notMem_empty, true_and, false_iff]
      tauto
    · next h => simp [h]
  · unfold bucket
    rw [StorageMap.getD_insert]
    split
    · next h =>
      subst h
      simp only [SortedVec.mem_rmItem, true_and]
      tauto
    · next h => simp [h]

end Index

section Exact

variable {K I V : Type}

/-- The identifiers listed under a key are those of the rows that have the key. -/
def Exact (row : I → Option V) (listed : K → I → Prop) (key : V → Option K) : Prop :=
  ∀ k i, listed k i ↔ ∃ v, row i = some v ∧ key v = some k

namespace Exact

variable {row row' : I → Option V} {listed listed' : K → I → Prop} {key : V → Option K}

section

variable (h : Exact row listed key)

include h

/-- **Writing one row.** An index stays exact when it is left alone for every other row and
right for the row that is written. -/
theorem update (i : I) (hrow : ∀ j, j ≠ i → row' j = row j)
    (hlisted : ∀ k j, j ≠ i → (listed' k j ↔ listed k j))
    (hi : ∀ k, listed' k i ↔ ∃ v, row' i = some v ∧ key v = some k) : Exact row' listed' key := by
  intro k j
  by_cases hj : j = i
  · subst hj
    exact hi k
  · rw [hlisted k j hj, hrow j hj]
    exact h k j

theorem notListed {i : I} (hi : row i = none) (k : K) : ¬ listed k i := by
  rw [h k i, hi]
  rintro ⟨v, hv, -⟩
  cases hv

theorem eq_key {i : I} {v : V} {k : K} (hv : row i = some v)
    (hk : listed k i) : key v = some k := by
  obtain ⟨w, hw, hkey⟩ := (h k i).1 hk
  rw [hv] at hw
  cases hw
  exact hkey

theorem listed_of {i : I} {v : V} {k : K} (hv : row i = some v)
    (hk : key v = some k) : listed k i := (h k i).2 ⟨v, hv, hk⟩

end

section Write

variable [DecidableEq I] {i : I} {v w : V}

section

variable (h : Exact row listed key)

include h

/-- A new row, listed under its key. -/
theorem insert (hi : row i = none) (hrow : ∀ j, row' j = if j = i then some v else row j)
    (hl : ∀ k j, listed' k j ↔ listed k j ∨ (key v = some k ∧ j = i)) : Exact row' listed' key := by
  refine h.update i (fun j hj => ?_) (fun k j hj => ?_) fun k => ?_
  · rw [hrow, if_neg hj]
  · rw [hl]
    exact or_iff_left fun e => hj e.2
  · have hno := h.notListed hi k
    rw [hl, hrow, if_pos rfl]
    simp [hno]

theorem erase (hi : row i = some v) (hrow : ∀ j, row' j = if j = i then none else row j)
    (hl : ∀ k j, listed' k j ↔ listed k j ∧ ¬ (key v = some k ∧ j = i)) :
    Exact row' listed' key := by
  refine h.update i (fun j hj => ?_) (fun k j hj => ?_) fun k => ?_
  · rw [hrow, if_neg hj]
  · rw [hl]
    exact and_iff_left fun e => hj e.2
  · rw [hl, hrow, if_pos rfl]
    constructor
    · rintro ⟨hk, hne⟩
      exact absurd ⟨h.eq_key hi hk, rfl⟩ hne
    · rintro ⟨_, hv, -⟩
      cases hv

theorem replace (hi : row i = some v)
    (hrow : ∀ j, row' j = if j = i then some w else row j)
    (hl : ∀ k j, listed' k j ↔
      (listed k j ∧ ¬ (key v = some k ∧ j = i)) ∨ (key w = some k ∧ j = i)) :
    Exact row' listed' key := by
  refine h.update i (fun j hj => ?_) (fun k j hj => ?_) fun k => ?_
  · rw [hrow, if_neg hj]
  · rw [hl]
    simp [hj]
  · rw [hl, hrow, if_pos rfl]
    constructor
    · rintro (⟨hk, hne⟩ | ⟨hk, -⟩)
      · exact absurd ⟨h.eq_key hi hk, rfl⟩ hne
      · exact ⟨w, rfl, hk⟩
    · rintro ⟨_, hw, hk⟩
      cases hw
      exact .inr ⟨hk, rfl⟩

theorem rewrite (hi : row i = some v) (hrow : ∀ j, row' j = if j = i then some w else row j)
    (hk : key w = key v) : Exact row' listed key := by
  refine h.update i (fun j hj => ?_) (fun _ _ _ => Iff.rfl) fun k => ?_
  · rw [hrow, if_neg hj]
  · rw [h k i, hi, hrow, if_pos rfl]
    simp [hk]

end

end Write

end Exact

end Exact

end DeepBrainChain.Lib
