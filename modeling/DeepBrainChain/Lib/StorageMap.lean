import Mathlib.Data.List.AList
import Mathlib.Data.Nat.ModEq
import Mathlib.Algebra.BigOperators.Group.List.Basic
import Mathlib.Algebra.Order.BigOperators.Group.List
import Mathlib.Algebra.Order.Ring.Nat
import Mathlib.Tactic.Ring

/-!
# Keyed storage with sums

A storage map is a finite map from keys to values. It is read by key, written by key, and walked by
iteration. Most lemmas say how the `sum` of a weight over all entries moves when one key is written
(`sum_insert_of_none`, `sum_insert_of_some`) or dropped (`sum_remove`).
-/

namespace DeepBrainChain.Lib

/-- A finite map from `K` to `V` with at most one value a key. -/
structure StorageMap (K V : Type) where
  /-- The entries; the association list carries that no key occurs twice. -/
  toAList : AList fun _ : K => V

namespace StorageMap

variable {K V M : Type}

def empty : StorageMap K V := ⟨∅⟩

instance : EmptyCollection (StorageMap K V) := ⟨empty⟩

instance : Inhabited (StorageMap K V) := ⟨∅⟩

def iter (m : StorageMap K V) : List (K × V) := m.toAList.entries.map fun e => (e.1, e.2)

def sum [AddCommMonoid M] (f : K → V → M) (m : StorageMap K V) : M :=
  (m.toAList.entries.map fun e => f e.1 e.2).sum

section Access

variable [DecidableEq K]

def get (m : StorageMap K V) (k : K) : Option V := m.toAList.lookup k

def getD (m : StorageMap K V) (k : K) (d : V) : V := (m.get k).getD d

def contains (m : StorageMap K V) (k : K) : Bool := (m.get k).isSome

def insert (m : StorageMap K V) (k : K) (v : V) : StorageMap K V := ⟨m.toAList.insert k v⟩

def remove (m : StorageMap K V) (k : K) : StorageMap K V := ⟨m.toAList.erase k⟩

@[simp] theorem get_empty (k : K) : (∅ : StorageMap K V).get k = none := AList.lookup_empty k

@[simp] theorem getD_empty (k : K) (d : V) : (∅ : StorageMap K V).getD k d = d := by
  simp [getD]

theorem get_insert (m : StorageMap K V) (k k' : K) (v : V) :
    (m.insert k v).get k' = if k' = k then some v else m.get k' := by
  by_cases h : k' = k
  · subst h
    simp [get, insert]
  · simp [get, insert, h]

@[simp] theorem get_insert_self (m : StorageMap K V) (k : K) (v : V) :
    (m.insert k v).get k = some v := by
  simp [get_insert]

variable {k k' : K} {m : StorageMap K V}

theorem get_insert_ne (m : StorageMap K V) (v : V) (h : k' ≠ k) :
    (m.insert k v).get k' = m.get k' := by
  simp [get_insert, h]

theorem get_insert_cases {v w : V} (h : (m.insert k v).get k' = some w) :
    k' = k ∧ v = w ∨ m.get k' = some w := by
  rw [get_insert] at h
  split at h
  · next hk => exact .inl ⟨hk, Option.some.inj h⟩
  · exact .inr h

theorem insert_insert (m : StorageMap K V) (k : K) (v w : V) :
    (m.insert k v).insert k w = m.insert k w :=
  congrArg StorageMap.mk (AList.insert_insert m.toAList)

theorem get_remove (m : StorageMap K V) (k k' : K) :
    (m.remove k).get k' = if k' = k then none else m.get k' := by
  by_cases h : k' = k
  · subst h
    simp [get, remove]
  · simp [get, remove, h]

@[simp] theorem get_remove_self (m : StorageMap K V) (k : K) : (m.remove k).get k = none := by
  simp [get_remove]

theorem get_remove_ne (m : StorageMap K V) (h : k' ≠ k) : (m.remove k).get k' = m.get k' := by
  simp [get_remove, h]

theorem getD_insert (m : StorageMap K V) (k k' : K) (v d : V) :
    (m.insert k v).getD k' d = if k' = k then v else m.getD k' d := by
  unfold getD
  rw [get_insert]
  split <;> rfl

@[simp] theorem getD_insert_self (m : StorageMap K V) (k : K) (v d : V) :
    (m.insert k v).getD k d = v := by
  simp [getD_insert]

theorem getD_remove (m : StorageMap K V) (k k' : K) (d : V) :
    (m.remove k).getD k' d = if k' = k then d else m.getD k' d := by
  unfold getD
  rw [get_remove]
  split <;> rfl

theorem mem_iter {v : V} : (k, v) ∈ m.iter ↔ m.get k = some v := by
  rw [get, ← Option.mem_def, AList.mem_lookup_iff, iter, List.mem_map]
  constructor
  · rintro ⟨⟨k', v'⟩, h, e⟩
    simp only [Prod.mk.injEq] at e
    obtain ⟨rfl, rfl⟩ := e
    exact h
  · intro h
    exact ⟨_, h, rfl⟩

theorem get_of_iter_nil (h : m.iter = []) (k : K) : m.get k = none := by
  cases hg : m.get k with
  | none => rfl
  | some v =>
    have hmem := mem_iter.2 hg
    rw [h] at hmem
    cases hmem

omit [DecidableEq K] in
theorem iter_keys_nodup (m : StorageMap K V) : (m.iter.map Prod.fst).Nodup := by
  have h : m.iter.map Prod.fst = m.toAList.keys := by
    unfold iter AList.keys List.keys
    rw [List.map_map]
    rfl
  rw [h]
  exact m.toAList.keys_nodup

end Access

/-- Induction on the writes that build a map. -/
theorem induction [DecidableEq K] {P : StorageMap K V → Prop} (h0 : P ∅)
    (hi : ∀ (m : StorageMap K V) (k : K) (v : V), m.get k = none → P m → P (m.insert k v))
    (m : StorageMap K V) : P m := by
  obtain ⟨l⟩ := m
  refine AList.insertRec (C := fun l => P ⟨l⟩) h0 (fun k v l hk ih => ?_) l
  exact hi ⟨l⟩ k v (AList.lookup_eq_none.2 hk) ih

/-! ## Sums -/

section Sum

variable [DecidableEq K] [AddCommMonoid M]

omit [DecidableEq K] in
@[simp] theorem sum_empty (f : K → V → M) : sum f (∅ : StorageMap K V) = 0 := rfl

theorem sum_insert (f : K → V → M) (m : StorageMap K V) (k : K) (v : V) :
    sum f (m.insert k v) = f k v + sum f (m.remove k) := by
  unfold sum insert remove
  rw [AList.entries_insert, List.map_cons, List.sum_cons]
  rfl

variable {m : StorageMap K V} {k : K} {v w : V} {f : K → V → M}

theorem sum_eq_add_remove (f : K → V → M)
    (h : m.get k = some v) : sum f m = f k v + sum f (m.remove k) := by
  have hmem : (⟨k, v⟩ : Sigma fun _ : K => V) ∈ m.toAList.entries :=
    AList.mem_lookup_iff.1 h
  have hk : k ∈ List.keys m.toAList.entries := List.mem_keys_of_mem hmem
  obtain ⟨b, l1, l2, hl1, hl, he⟩ := List.exists_of_kerase hk
  have hb : b = v := by
    have hlook : List.dlookup k m.toAList.entries = some v := h
    rw [hl, List.dlookup_append] at hlook
    rw [List.dlookup_eq_none.2 hl1] at hlook
    simpa using hlook
  subst hb
  unfold sum remove AList.erase
  simp only [he]
  conv_lhs => rw [hl]
  simp only [List.map_append, List.map_cons, List.sum_append, List.sum_cons]
  rw [add_left_comm]

theorem sum_remove_of_none (f : K → V → M) (h : m.get k = none) : sum f (m.remove k) = sum f m := by
  have hk : k ∉ List.keys m.toAList.entries := by
    intro hk
    exact AList.lookup_eq_none.1 h hk
  unfold sum remove AList.erase
  simp only [List.kerase_of_notMem_keys hk]

theorem sum_insert_of_none (f : K → V → M) (v : V)
    (h : m.get k = none) : sum f (m.insert k v) = f k v + sum f m := by
  rw [sum_insert, sum_remove_of_none f h]

theorem sum_insert_of_some (f : K → V → M) (v : V)
    (h : m.get k = some w) : sum f (m.insert k v) + f k w = sum f m + f k v := by
  rw [sum_insert, sum_eq_add_remove f h]
  simp only [add_comm, add_left_comm]

theorem sum_congr {g : K → V → M}
    (h : ∀ k v, m.get k = some v → f k v = g k v) : sum f m = sum g m := by
  unfold sum
  congr 1
  refine List.map_congr_left fun e he => ?_
  exact h e.1 e.2 (AList.mem_lookup_iff.2 he)

theorem sum_eq_zero (h : ∀ k v, m.get k = some v → f k v = 0) : sum f m = 0 := by
  rw [sum_congr h]
  unfold sum
  simp

/-- The sum over the entries that meet `p`, taken along a list of their keys. -/
theorem sum_ite_eq_sum_keys (p : V → Prop) [DecidablePred p] (f : V → M) (m : StorageMap K V)
    {l : List K} (hl : l.Nodup) (hmem : ∀ k, k ∈ l ↔ ∃ v, m.get k = some v ∧ p v) :
    sum (fun _ v => if p v then f v else 0) m =
      (l.map fun k => ((m.get k).map f).getD 0).sum := by
  have hperm : l.Perm ((m.iter.filter fun e => p e.2).map Prod.fst) := by
    refine (List.perm_ext_iff_of_nodup hl ?_).2 fun k => ?_
    · exact m.iter_keys_nodup.sublist (List.filter_sublist.map _)
    · simp only [hmem, List.mem_map, List.mem_filter, Prod.exists, mem_iter, decide_eq_true_eq]
      constructor
      · rintro ⟨v, hv, hp⟩
        exact ⟨k, v, ⟨hv, hp⟩, rfl⟩
      · rintro ⟨_, v, hv, rfl⟩
        exact ⟨v, hv⟩
  have hsum : sum (fun _ v => if p v then f v else 0) m =
      (m.iter.map fun e => if p e.2 then f e.2 else 0).sum := by
    unfold sum iter
    rw [List.map_map]
    rfl
  rw [(hperm.map _).sum_eq, List.map_map, hsum, List.sum_map_ite]
  simp only [List.map_const', List.sum_replicate, nsmul_zero, add_zero]
  congr 1
  refine List.map_congr_left fun e he => ?_
  have hget : m.get e.1 = some e.2 := mem_iter.1 (List.mem_filter.1 he).1
  simp [hget]

theorem sum_insert_same (f : K → V → M) (h : m.get k = some w)
    (he : f k v = f k w) : sum f (m.insert k v) = sum f m := by
  rw [sum_insert, he, ← sum_eq_add_remove f h]

end Sum

section NatSum

variable [DecidableEq K]

variable {m : StorageMap K V} {k : K} {d v : V} {f : K → V → Nat} {W : Type}

theorem le_sum (f : K → V → Nat) (h : m.get k = some v) : f k v ≤ sum f m := by
  rw [sum_eq_add_remove f h]
  exact Nat.le_add_right _ _

theorem sum_le_sum {g : K → V → Nat}
    (h : ∀ k v, m.get k = some v → f k v ≤ g k v) : sum f m ≤ sum g m := by
  refine List.sum_le_sum fun e he => ?_
  exact h e.1 e.2 (AList.mem_lookup_iff.2 he)

theorem sum_mul_div_le (f : K → V → Nat) (a n : Nat) (m : StorageMap K V) :
    sum (fun k v => f k v * a / n) m ≤ sum f m * a / n := by
  induction m using StorageMap.induction with
  | h0 => exact Nat.zero_le _
  | hi m k v hk ih =>
    rw [sum_insert_of_none _ v hk, sum_insert_of_none f v hk, Nat.add_mul]
    exact le_trans (Nat.add_le_add_left ih _) Nat.div_add_div_le_add_div

/-- Writing a key trades the weight of the old value, or of the default, for the new one. -/
theorem sum_insert_getD (f : K → V → Nat) (m : StorageMap K V) (k : K) (v : V) (hd : f k d = 0) :
    sum f (m.insert k v) + f k (m.getD k d) = sum f m + f k v := by
  unfold getD
  cases hk : m.get k with
  | none =>
    rw [Option.getD_none, hd, sum_insert_of_none _ v hk]
    omega
  | some u =>
    rw [Option.getD_some]
    exact sum_insert_of_some f v hk

theorem sum_eq_of_getD {f : V → Nat} {g : W → Nat} {e : W} (hd : f d = 0) (he : g e = 0)
    {n : StorageMap K W} (h : ∀ k, f (m.getD k d) = g (n.getD k e)) :
    sum (fun _ v => f v) m = sum (fun _ v => g v) n := by
  induction m using StorageMap.induction generalizing n with
  | h0 =>
    rw [sum_empty]
    refine (sum_eq_zero fun k v hk => ?_).symm
    have hzero := h k
    rw [getD_empty, hd] at hzero
    unfold getD at hzero
    rw [hk] at hzero
    exact hzero.symm
  | hi m k v hk ih =>
    have hrest : sum (fun _ v => f v) m = sum (fun _ v => g v) (n.remove k) := by
      refine ih fun k' => ?_
      rw [getD_remove]
      split
      · next hk' =>
        rw [hk', he]
        unfold getD
        rw [hk]
        exact hd
      · next hne =>
        have hk' := h k'
        rw [getD_insert, if_neg hne] at hk'
        exact hk'
    have hat := h k
    rw [getD_insert_self] at hat
    rw [sum_insert_of_none _ v hk, hrest, hat]
    unfold getD
    cases hn : n.get k with
    | none =>
      rw [Option.getD_none, he, sum_remove_of_none _ hn]
      omega
    | some u => exact (sum_eq_add_remove (fun _ v => g v) hn).symm

theorem sum_remove (f : K → V → Nat)
    (h : m.get k = some v) : sum f (m.remove k) = sum f m - f k v := by
  rw [sum_eq_add_remove f h]
  omega

/-- A weight over one map is bounded by a weight over another map if every entry that weighs
something is bounded by an entry of its own. -/
theorem sum_le_sum_of_inj {J : Type} [DecidableEq J] (g : K → J)
    {h : J → W → Nat} {n : StorageMap J W}
    (hle : ∀ k v, m.get k = some v → 0 < f k v → ∃ w, n.get (g k) = some w ∧ f k v ≤ h (g k) w)
    (hinj : ∀ k v k' v', m.get k = some v → m.get k' = some v' → 0 < f k v → 0 < f k' v' →
      g k = g k' → k = k') :
    sum f m ≤ sum h n := by
  induction m using StorageMap.induction generalizing n with
  | h0 => simp
  | hi m k v hk ih =>
    have hsub : ∀ k' v', m.get k' = some v' → k' ≠ k ∧ (m.insert k v).get k' = some v' := by
      intro k' v' hk'
      have hne : k' ≠ k := by
        rintro rfl
        rw [hk] at hk'
        cases hk'
      exact ⟨hne, by rw [get_insert_ne m v hne, hk']⟩
    rw [sum_insert_of_none f v hk]
    rcases Nat.eq_zero_or_pos (f k v) with hz | hpos
    · rw [hz, Nat.zero_add]
      refine ih (fun k' v' hk' => hle k' v' (hsub k' v' hk').2) ?_
      intro k1 v1 k2 v2 h1 h2
      exact hinj k1 v1 k2 v2 (hsub k1 v1 h1).2 (hsub k2 v2 h2).2
    · -- the entry of `n` that bounds `k` is taken out before the rest is compared
      have hself : (m.insert k v).get k = some v := get_insert_self m k v
      obtain ⟨w, hw, hfw⟩ := hle k v hself hpos
      rw [sum_eq_add_remove h hw]
      refine Nat.add_le_add hfw (ih (fun k' v' hk' hp => ?_) ?_)
      · obtain ⟨hne, hk''⟩ := hsub k' v' hk'
        obtain ⟨w', hw', hfw'⟩ := hle k' v' hk'' hp
        refine ⟨w', ?_, hfw'⟩
        rw [get_remove_ne n, hw']
        intro heq
        exact hne (hinj k' v' k v hk'' hself hp hpos heq)
      · intro k1 v1 k2 v2 h1 h2
        exact hinj k1 v1 k2 v2 (hsub k1 v1 h1).2 (hsub k2 v2 h2).2

end NatSum

end StorageMap

end DeepBrainChain.Lib
