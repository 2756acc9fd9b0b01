import DeepBrainChain.Lib.Balances

/-!
# Escrow

Entries are filed under fresh identifiers. Each has an owner, and as long as it is open an amount
is held for it in the reserve of the owner. A table is `Backed` by a ledger when every reserve is
what the entries of the account add up to; opening an entry reserves, and closing one draws what
was held.
-/

namespace DeepBrainChain.Lib

variable {A V : Type} [DecidableEq A]

/-! ## Drawing on a reserve -/

namespace Balances

variable {b b' b'' : Balances A} {who slashed beneficiary : A} {value n m rest : Nat}
  {gain gain' : A → Nat}

/-- From `b` to `b'` the reserve of `who` goes down by `n`, and every free balance up by `gain`. -/
structure Drawn (b b' : Balances A) (who : A) (n : Nat) (gain : A → Nat) : Prop where
  issuance : b'.issuance ≤ b.issuance
  reserved : ∀ u, b'.reserved u + (if u = who then n else 0) = b.reserved u
  free : ∀ u, b'.free u = b.free u + gain u

theorem Drawn.refl (b : Balances A) (who : A) : Drawn b b who 0 fun _ => 0 :=
  ⟨le_rfl, fun u => by simp, fun _ => rfl⟩

theorem Drawn.trans (h : Drawn b b' who n gain) (h' : Drawn b' b'' who m gain') :
    Drawn b b'' who (n + m) fun u => gain u + gain' u := by
  refine ⟨h'.issuance.trans h.issuance, fun u => ?_, fun u => ?_⟩
  · rw [← h.reserved u, ← h'.reserved u]
    split <;> omega
  · rw [h'.free u, h.free u, Nat.add_assoc]

theorem unreserve_drawn (hb : b.issuance ≤ u128Max) (hv : value ≤ b.reserved who) :
    Drawn b (b.unreserve who value).1 who value fun u => if u = who then value else 0 := by
  refine ⟨(b.unreserve_issuance who value hb).le, fun u => ?_, unreserve_free hb hv⟩
  exact sub_add_only (b.unreserve_reserved who value u) fun hu => hu ▸ hv

theorem repatriateReserved_drawn (hb : b.issuance ≤ u128Max) (hv : value ≤ b.reserved slashed)
    (h : b.repatriateReserved slashed beneficiary value = some (b', rest)) :
    Drawn b b' slashed value fun u => if u = beneficiary then value else 0 :=
  ⟨(repatriateReserved_issuance hb h).le,
    fun u => sub_add_only ((repatriateReserved_eq_some h).2 u) fun hu => hu ▸ hv,
    repatriateReserved_free hb hv h⟩

theorem slashReserved_drawn (hv : value ≤ b.reserved who) :
    Drawn b (b.slashReserved who value).1 who value fun _ => 0 :=
  ⟨b.slashReserved_issuance_le who value, (slashReserved_paid hv).reserved,
    b.slashReserved_free who value⟩

end Balances

/-! ## Tables -/

/-- Whom an entry belongs to, and what is held for it as it stands. -/
structure Terms (A V : Type) where
  owner : V → A
  due : V → Nat

namespace Terms

variable {T : Terms A V} {p : StorageMap Nat V} {b b' : Balances A} {id next n : Nat} {v v' : V}
  {gain : A → Nat}

def held (T : Terms A V) (p : StorageMap Nat V) (u : A) : Nat :=
  p.sum fun _ v => if T.owner v = u then T.due v else 0

theorem held_insert_new (h : p.get id = none) (v : V) (u : A) :
    T.held (p.insert id v) u = T.held p u + if u = T.owner v then T.due v else 0 := by
  refine (StorageMap.sum_insert_of_none _ v h).trans ?_
  rw [Nat.add_comm]
  exact congrArg (T.held p u + ·) (if_congr eq_comm rfl rfl)

/-- An entry is rewritten with `n` less to hold. -/
theorem held_insert (h : p.get id = some v) (ho : T.owner v' = T.owner v)
    (hd : T.due v' + n = T.due v) (u : A) :
    T.held (p.insert id v') u + (if u = T.owner v then n else 0) = T.held p u := by
  have hsum := StorageMap.sum_insert_of_some (fun _ v => if T.owner v = u then T.due v else 0) v' h
  simp only [ho] at hsum
  unfold held
  by_cases hu : T.owner v = u
  · rw [if_pos hu, if_pos hu] at hsum
    rw [if_pos hu.symm]
    omega
  · rw [if_neg hu, if_neg hu] at hsum
    rw [if_neg (Ne.symm hu)]
    omega

theorem due_le_held (h : p.get id = some v) : T.due v ≤ T.held p (T.owner v) := by
  have hle := StorageMap.le_sum (fun _ w => if T.owner w = T.owner v then T.due w else 0) h
  rw [if_pos rfl] at hle
  exact hle

/-- The reserves of the ledger are what the entries add up to, and the identifiers from `next` on
are free. -/
structure Backed (T : Terms A V) (next : Nat) (p : StorageMap Nat V) (b : Balances A) : Prop where
  issuance : b.issuance ≤ u128Max
  fresh : ∀ id v, p.get id = some v → id < next
  backed : ∀ u, b.reserved u = T.held p u

namespace Backed

theorem start (T : Terms A V) (hres : ∀ u, b.reserved u = 0) (hb : b.issuance ≤ u128Max) :
    Backed T 0 ∅ b := by
  refine ⟨hb, fun id v hv => ?_, fun u => ?_⟩
  · rw [StorageMap.get_empty] at hv
    cases hv
  · rw [hres]
    rfl

variable (h : Backed T next p b)

include h in
theorem next_none : p.get next = none := by
  cases hg : p.get next with
  | none => rfl
  | some v => exact absurd (h.fresh next v hg) (Nat.lt_irrefl _)

include h in
theorem covered (hv : p.get id = some v) : T.due v ≤ b.reserved (T.owner v) := by
  rw [h.backed]
  exact due_le_held hv

include h in
theorem skip : Backed T (next + 1) p b :=
  ⟨h.issuance, fun id v hv => (h.fresh id v hv).trans (Nat.lt_succ_self _), h.backed⟩

include h in
/-- The ledger moves without touching a reserve. -/
theorem setBalances (hres : ∀ u, b'.reserved u = b.reserved u) (hb : b'.issuance ≤ u128Max) :
    Backed T next p b' :=
  ⟨hb, h.fresh, fun u => (hres u).trans (h.backed u)⟩

include h in
theorem transfer {source dest : A} (ht : b.transfer source dest n = some b') :
    Backed T next p b' := by
  refine h.setBalances (Balances.transfer_reserved ht) ?_
  rw [Balances.transfer_issuance ht]
  exact h.issuance

include h in
/-- **Opening** an entry. -/
theorem openEntry (v : V) (hb : b.reserve (T.owner v) (T.due v) = some b') :
    Backed T (next + 1) (p.insert next v) b' := by
  obtain ⟨hres, -, -⟩ := Balances.reserve_eq_some hb
  refine ⟨?_, fun id w hw => ?_, fun u => ?_⟩
  · rw [Balances.reserve_issuance hb]
    exact h.issuance
  · rw [StorageMap.get_insert] at hw
    split at hw
    · next hid =>
      rw [hid]
      exact Nat.lt_succ_self _
    · exact (h.fresh id w hw).trans (Nat.lt_succ_self _)
  · rw [hres, held_insert_new h.next_none, h.backed]

include h in
/-- **Closing** an entry, wholly or in part. -/
theorem draw (hv : p.get id = some v) (ho : T.owner v' = T.owner v) (hd : T.due v' + n = T.due v)
    (hb : b.Drawn b' (T.owner v) n gain) : Backed T next (p.insert id v') b' := by
  refine ⟨hb.issuance.trans h.issuance, fun id' w hw => ?_, fun u => ?_⟩
  · rw [StorageMap.get_insert] at hw
    split at hw
    · next hid =>
      rw [hid]
      exact h.fresh id v hv
    · exact h.fresh id' w hw
  · have hres := hb.reserved u
    have hheld := held_insert hv ho hd u
    have hback := h.backed u
    omega

include h in
theorem rewrite (hv : p.get id = some v) (ho : T.owner v' = T.owner v)
    (hd : T.due v' = T.due v) : Backed T next (p.insert id v') b :=
  h.draw hv ho hd (.refl b _)

end Backed

end Terms

end DeepBrainChain.Lib
