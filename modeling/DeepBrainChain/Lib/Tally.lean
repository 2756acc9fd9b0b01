import DeepBrainChain.Lib.StorageMap

/-!
# Sums by group

The entries of a map fall into groups, and a weight is added up for each group. A record that is
kept by group is right when it agrees with `tally`; the lemmas say how a tally moves when an entry
is added, dropped or overwritten.
-/

namespace DeepBrainChain.Lib

section

variable {K V G : Type} [DecidableEq K] [DecidableEq G]

/-- The weight of the entries in the group `g`. -/
def tally (p : StorageMap K V) (group : K → Option G) (w : K → V → Nat) (g : G) : Nat :=
  p.sum fun k v => if group k = some g then w k v else 0

variable {p : StorageMap K V} {group group' : K → Option G} {w w' : K → V → Nat} {k : K} {v v' : V}

theorem tally_insert (group : K → Option G) (w : K → V → Nat) (h : p.get k = none) (v : V) (g : G) :
    tally (p.insert k v) group w g =
      (if group k = some g then w k v else 0) + tally p group w g :=
  StorageMap.sum_insert_of_none _ v h

theorem tally_remove (group : K → Option G) (w : K → V → Nat) (h : p.get k = some v) (g : G) :
    tally (p.remove k) group w g =
      tally p group w g - if group k = some g then w k v else 0 :=
  StorageMap.sum_remove _ h

/-- A present entry weighs at most its group. -/
theorem le_tally (group : K → Option G) (w : K → V → Nat) (h : p.get k = some v) (g : G) :
    (if group k = some g then w k v else 0) ≤ tally p group w g :=
  StorageMap.le_sum (fun k v => if group k = some g then w k v else 0) h

theorem tally_overwrite (group : K → Option G) (w : K → V → Nat) (h : p.get k = some v) (v' : V)
    (g : G) :
    tally (p.insert k v') group w g + (if group k = some g then w k v else 0) =
      tally p group w g + if group k = some g then w k v' else 0 :=
  StorageMap.sum_insert_of_some _ v' h

theorem tally_congr (h : ∀ k v, p.get k = some v → group k = group' k ∧ w k v = w' k v) (g : G) :
    tally p group w g = tally p group' w' g := by
  refine StorageMap.sum_congr fun k v hk => ?_
  rw [(h k v hk).1, (h k v hk).2]

/-- A group of positive weights that weighs nothing is empty, so it weighs nothing in any other
way. -/
theorem tally_eq_zero (hw : ∀ k v, p.get k = some v → 0 < w k v) {g : G}
    (h : tally p group w g = 0) : tally p group w' g = 0 := by
  refine StorageMap.sum_eq_zero fun k v hk => if_neg fun hg => ?_
  have hle := le_tally group w hk g
  rw [h, if_pos hg] at hle
  exact absurd (hw k v hk) (by omega)

/-! ## Records that follow a tally -/

variable {f r : G → Nat} {g0 : G}

section

variable (hf : ∀ g, f g = tally p group w g)

include hf

theorem tally_grow (hk : p.get k = none)
    (hg : group k = some g0) (hr : ∀ g, r g = if g = g0 then f g0 + w k v else f g) (g : G) :
    r g = tally (p.insert k v) group w g := by
  rw [hr, tally_insert group w hk, hg, hf, hf]
  by_cases h : g = g0
  · subst h
    simp [Nat.add_comm]
  · simp [h, Ne.symm h]

theorem tally_shrink (hk : p.get k = some v)
    (hg : group k = some g0) (hr : ∀ g, r g = if g = g0 then f g0 - w k v else f g) (g : G) :
    r g = tally (p.remove k) group w g := by
  rw [hr, tally_remove group w hk, hg, hf, hf]
  by_cases h : g = g0
  · subst h
    simp
  · simp [h, Ne.symm h]

theorem tally_change (hk : p.get k = some v) (hg : group k = some g0)
    (hr : ∀ g, r g = if g = g0 then f g0 + w k v' - w k v else f g) (g : G) :
    r g = tally (p.insert k v') group w g := by
  have hnew := tally_overwrite group w hk v' g
  have hle := le_tally group w hk g
  rw [hg] at hnew hle
  rw [hr, hf, hf]
  by_cases h : g = g0
  · subst h
    simp only [if_true] at hnew hle ⊢
    omega
  · rw [if_neg h]
    simp only [Option.some.injEq, Ne.symm h, if_false, Nat.add_zero] at hnew
    exact hnew.symm

theorem tally_same (hk : p.get k = some v)
    (hw : w k v' = w k v) (g : G) : f g = tally (p.insert k v') group w g := by
  rw [hf]
  refine (StorageMap.sum_insert_same _ hk ?_).symm
  rw [hw]

end

end

end DeepBrainChain.Lib
