import Mathlib.Data.List.Count
import Mathlib.Data.List.Nodup

/-!
# Strict plurality

A ballot wins a vote if it was cast more often than every other one.
-/

namespace DeepBrainChain.Lib

variable {β : Type} [DecidableEq β] {l : List β} {a b c : β}

/-- The ballot `b` was cast more often than any other. -/
def Wins (l : List β) (b : β) : Prop := ∀ b', b' ≠ b → l.count b' < l.count b

theorem Wins.unique (h : Wins l a) (h' : Wins l b) : a = b := by
  by_contra hne
  exact Nat.lt_asymm (h b (Ne.symm hne)) (h' a hne)

theorem Wins.mem [Nontrivial β] (h : Wins l b) : b ∈ l := by
  obtain ⟨b', hb'⟩ := exists_ne b
  exact List.count_pos_iff.1 (Nat.zero_lt_of_lt (h b' hb'))

theorem not_wins_nil [Nontrivial β] : ¬ Wins ([] : List β) b := fun h => List.not_mem_nil h.mem

/-- An unanimous vote. -/
theorem wins_of_forall_eq (hl : l ≠ []) (h : ∀ x ∈ l, x = b) : Wins l b := by
  intro b' hne
  obtain ⟨x, hx⟩ := List.exists_mem_of_ne_nil l hl
  have hzero : l.count b' = 0 := List.count_eq_zero.2 fun hb' => hne (h b' hb')
  have hpos : 0 < l.count b := List.count_pos_iff.2 (h x hx ▸ hx)
  omega

theorem not_wins_of_nodup [Nontrivial β] (hl : l.Nodup) (ha : a ∈ l) (hb : b ∈ l) (hne : a ≠ b) :
    ¬ Wins l c := by
  intro h
  have hone : ∀ x ∈ l, l.count x = 1 := fun x hx => List.count_eq_one_of_mem hl hx
  have hc := hone c h.mem
  by_cases hac : a = c
  · have := h b (hac ▸ hne.symm)
    rw [hone b hb, hc] at this
    exact Nat.lt_irrefl _ this
  · have := h a hac
    rw [hone a ha, hc] at this
    exact Nat.lt_irrefl _ this

theorem Wins.forall_eq (h : Wins l b) (hl : l.length ≤ 2) : ∀ x ∈ l, x = b := by
  intro x hx
  by_contra hne
  have hlt := h x hne
  have hpos : 0 < l.count x := List.count_pos_iff.2 hx
  -- without the votes for `x` there are still all votes for `b`
  have hcount : (l.erase x).count b = l.count b := List.count_erase_of_ne (Ne.symm hne)
  have hle : (l.erase x).count b ≤ (l.erase x).length := List.count_le_length
  rw [hcount, List.length_erase_of_mem hx] at hle
  omega

theorem wins_two_of_three (hl : l.Perm [a, a, c]) (hne : c ≠ a) : Wins l a := by
  intro b' hb'
  rw [hl.count_eq, hl.count_eq]
  have hb : (a == b') = false := beq_false_of_ne (Ne.symm hb')
  have hc : (c == a) = false := beq_false_of_ne hne
  simp only [List.count_cons, List.count_nil, hb, hc, beq_self_eq_true]
  split <;> simp

end DeepBrainChain.Lib
