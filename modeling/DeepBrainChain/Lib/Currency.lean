import DeepBrainChain.Lib.Arith

/-!
# Reservable currencies

A currency moves balances of a ledger. The operations are those that a slash calls, and the laws
are what their trait documents: a repatriation moves as much as it is asked for if that much is
reserved and the beneficiary exists, and what it did not move is returned.
-/

namespace DeepBrainChain.Lib

variable {A L : Type} [DecidableEq A]

/-- `n` for one account, nothing for the others. -/
def only (x : A) (n : Nat) (u : A) : Nat := if u = x then n else 0

theorem only_self (x : A) (n : Nat) : only x n x = n := if_pos rfl

theorem only_ne {x u : A} (h : u ≠ x) (n : Nat) : only x n u = 0 := if_neg h

theorem only_add (x : A) (n m : Nat) : (fun u => only x n u + only x m u) = only x (n + m) := by
  funext u
  unfold only
  split <;> rfl

/-- The operations of a currency whose ledgers are of the type `L`. -/
structure Currency (A L : Type) where
  free : L → A → Nat
  reserved : L → A → Nat
  issuance : L → Nat
  Live : L → A → Prop
  slashReserved : L → A → Nat → L
  repatriateReserved : L → A → A → Nat → Option (L × Nat)

namespace Currency

variable {c : Currency A L} {b b' b'' : L} {taken taken' gain gain' : A → Nat}
    {burned burned' : Nat}

/-- From `b` to `b'` each reserve goes down by `taken`, each free balance up by `gain`, and
`burned` leaves the ledger. Accounts that lose nothing stay alive. -/
structure Paid (c : Currency A L) (b b' : L) (taken gain : A → Nat) (burned : Nat) : Prop where
  issuance : c.issuance b' + burned = c.issuance b
  reserved : ∀ u, c.reserved b' u + taken u = c.reserved b u
  free : ∀ u, c.free b' u = c.free b u + gain u
  live : ∀ u, taken u = 0 → c.Live b u → c.Live b' u

omit [DecidableEq A] in
theorem Paid.refl (c : Currency A L) (b : L) : c.Paid b b (fun _ => 0) (fun _ => 0) 0 :=
  ⟨rfl, fun _ => rfl, fun _ => rfl, fun _ _ h => h⟩

omit [DecidableEq A] in
theorem Paid.trans (h : c.Paid b b' taken gain burned) (h' : c.Paid b' b'' taken' gain' burned') :
    c.Paid b b'' (fun u => taken u + taken' u) (fun u => gain u + gain' u) (burned + burned') := by
  refine ⟨?_, fun u => ?_, fun u => ?_, fun u hu hb => ?_⟩
  · have := h.issuance
    have := h'.issuance
    omega
  · have := h.reserved u
    have := h'.reserved u
    omega
  · rw [h'.free, h.free, Nat.add_assoc]
  · exact h'.live u (by omega) (h.live u (by omega) hb)

omit [DecidableEq A] in
theorem Paid.issuance_le (h : c.Paid b b' taken gain burned) : c.issuance b' ≤ c.issuance b :=
  Nat.le_of_add_right_le h.issuance.le

/-- The laws of the operations. -/
structure Lawful (c : Currency A L) : Prop where
  slashReserved : ∀ {b x value}, value ≤ c.reserved b x →
    c.Paid b (c.slashReserved b x value) (only x value) (fun _ => 0) value
  slashReserved_ne : ∀ {b x u}, u ≠ x → ∀ value,
    c.reserved (c.slashReserved b x value) u = c.reserved b u
  repatriateReserved : ∀ {b x y value}, c.issuance b ≤ u128Max → y = x ∨ c.Live b y →
    value ≤ c.reserved b x →
      ∃ b', c.repatriateReserved b x y value = some (b', 0) ∧
        c.Paid b b' (only x value) (only y value) 0
  repatriateReserved_ne : ∀ {b x y u value b' rest}, u ≠ x →
    c.repatriateReserved b x y value = some (b', rest) → c.reserved b' u = c.reserved b u

end Currency

end DeepBrainChain.Lib
