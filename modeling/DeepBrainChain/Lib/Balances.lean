import DeepBrainChain.Lib.StorageMap
import DeepBrainChain.Lib.Currency

/-!
# A ledger with reserves

Accounts hold a free and a reserved balance, and part of the free balance may be frozen. The
operations do what the trait of a reservable currency documents: `reserve` moves free balance to the
reserve or fails, `unreserve` and `slashReserved` act on as much of the reserve as there is and
return what was missing, `repatriateReserved` moves reserve of one account to the free balance of
another. `lawful` says that a slash can rely on them.
-/

namespace DeepBrainChain.Lib

structure AccountData where
  free : Nat
  reserved : Nat
  frozen : Nat
deriving DecidableEq, Repr

namespace AccountData

def zero : AccountData := ⟨0, 0, 0⟩

def total (d : AccountData) : Nat := d.free + d.reserved

end AccountData

/-- The accounts of a ledger. -/
structure Balances (A : Type) where
  accounts : StorageMap A AccountData

namespace Balances

variable {A : Type} [DecidableEq A]

def empty : Balances A := ⟨∅⟩

def account (b : Balances A) (who : A) : AccountData := b.accounts.getD who .zero

def free (b : Balances A) (who : A) : Nat := (b.account who).free

def reserved (b : Balances A) (who : A) : Nat := (b.account who).reserved

/-- An account in which nothing is left is dead. -/
def Live (b : Balances A) (who : A) : Prop := b.account who ≠ .zero

instance (b : Balances A) (who : A) : Decidable (b.Live who) :=
  inferInstanceAs (Decidable (_ ≠ _))

omit [DecidableEq A] in
def issuance (b : Balances A) : Nat := b.accounts.sum fun _ d => d.total

def setAccount (b : Balances A) (who : A) (d : AccountData) : Balances A :=
  ⟨b.accounts.insert who d⟩

/-- Move `value` from the free balance to the reserve. The frozen part cannot be moved. -/
def reserve (b : Balances A) (who : A) (value : Nat) : Option (Balances A) :=
  if value = 0 then some b
  else
    let d := b.account who
    if value ≤ d.free ∧ d.reserved + value ≤ u128Max ∧ d.frozen ≤ d.free - value then
      some (b.setAccount who { d with free := d.free - value, reserved := d.reserved + value })
    else none

/-- Move up to `value` back from the reserve; returns what the reserve did not cover. -/
def unreserve (b : Balances A) (who : A) (value : Nat) : Balances A × Nat :=
  if value = 0 then (b, 0)
  else
    let d := b.account who
    if d.total = 0 then (b, value)
    else
      let actual := min d.reserved value
      (b.setAccount who
        { d with free := saturatingAdd u128Max d.free actual, reserved := d.reserved - actual },
        value - actual)

/-- Burn up to `value` of the reserve; returns what the reserve did not cover. -/
def slashReserved (b : Balances A) (who : A) (value : Nat) : Balances A × Nat :=
  if value = 0 then (b, 0)
  else
    let d := b.account who
    if d.total = 0 then (b, value)
    else
      let actual := min d.reserved value
      (b.setAccount who { d with reserved := d.reserved - actual }, value - actual)

/-- Move up to `value` from the reserve of `slashed` to the free balance of `beneficiary`;
returns what was not moved. Fails if the beneficiary is dead or would overflow. -/
def repatriateReserved (b : Balances A) (slashed beneficiary : A) (value : Nat) :
    Option (Balances A × Nat) :=
  if value = 0 then some (b, 0)
  else
    let actual := min value (b.reserved slashed)
    if slashed = beneficiary then
      let r := b.unreserve slashed actual
      some (r.1, value - (actual - r.2))
    else if b.Live beneficiary then
      let d := b.account slashed
      let e := b.account beneficiary
      if e.free + actual ≤ u128Max then
        some ((b.setAccount beneficiary { e with free := e.free + actual }).setAccount slashed
          { d with reserved := d.reserved - actual }, value - actual)
      else none
    else none

def slash (b : Balances A) (who : A) (value : Nat) : Balances A :=
  if value = 0 ∨ (b.account who).total = 0 then b
  else b.setAccount who { b.account who with free := (b.account who).free - value }

/-- Move `value` from the free balance of `source` to that of `dest`. The frozen part cannot be
moved. -/
def transfer (b : Balances A) (source dest : A) (value : Nat) : Option (Balances A) :=
  if value = 0 ∨ source = dest then some b
  else
    let d := b.account source
    let e := b.account dest
    if value ≤ d.free ∧ d.frozen ≤ d.free - value ∧ e.free + value ≤ u128Max then
      some ((b.setAccount dest { e with free := e.free + value }).setAccount source
        { d with free := d.free - value })
    else none

/-- Mint `value` into the free balance of a live account. -/
def depositIntoExisting (b : Balances A) (who : A) (value : Nat) : Option (Balances A) :=
  if value = 0 then some b
  else if b.Live who ∧ (b.account who).free + value ≤ u128Max then
    some (b.setAccount who { b.account who with free := (b.account who).free + value })
  else none

/-! ## Reading after a write -/

theorem account_setAccount (b : Balances A) (who x : A) (d : AccountData) :
    (b.setAccount who d).account x = if x = who then d else b.account x :=
  StorageMap.getD_insert ..

theorem reserved_setAccount (b : Balances A) (who x : A) (d : AccountData) :
    (b.setAccount who d).reserved x = if x = who then d.reserved else b.reserved x := by
  unfold reserved
  rw [account_setAccount]
  split <;> rfl

theorem free_setAccount (b : Balances A) (who x : A) (d : AccountData) :
    (b.setAccount who d).free x = if x = who then d.free else b.free x := by
  unfold free
  rw [account_setAccount]
  split <;> rfl

/-- Overwriting an account trades its old total for the new one. -/
theorem issuance_setAccount (b : Balances A) (who : A) (d : AccountData) :
    (b.setAccount who d).issuance + (b.account who).total = b.issuance + d.total := by
  unfold issuance setAccount account StorageMap.getD
  cases h : b.accounts.get who with
  | none =>
    rw [StorageMap.sum_insert_of_none _ d h]
    simp only [Option.getD_none, AccountData.total, AccountData.zero]
    omega
  | some w =>
    have hs := StorageMap.sum_insert_of_some (fun _ d => AccountData.total d) d h
    simpa using hs

theorem total_le_issuance (b : Balances A) (who : A) : (b.account who).total ≤ b.issuance := by
  unfold issuance account StorageMap.getD
  cases h : b.accounts.get who with
  | none => simp [AccountData.total, AccountData.zero]
  | some w => exact StorageMap.le_sum (fun _ d => AccountData.total d) h

theorem total_add_total_le_issuance (b : Balances A) {x y : A} (h : x ≠ y) :
    (b.account x).total + (b.account y).total ≤ b.issuance := by
  have hset := issuance_setAccount b x .zero
  have hle := total_le_issuance (b.setAccount x .zero) y
  rw [account_setAccount, if_neg h.symm] at hle
  simp only [AccountData.zero, AccountData.total] at hset hle ⊢
  omega

/-! ## Reserve -/

section Reserve

variable {b b' : Balances A} {who : A} {value : Nat}

theorem reserve_eq_some (h : b.reserve who value = some b') :
    (∀ x, b'.reserved x = b.reserved x + if x = who then value else 0) ∧
      (∀ x, b'.free x = b.free x - if x = who then value else 0) ∧ value ≤ b.free who := by
  unfold reserve at h
  split at h
  · next hv =>
    cases h
    simp [hv]
  · simp only at h
    split at h
    · next hc =>
      cases h
      refine ⟨fun x => ?_, fun x => ?_, hc.1⟩
      · rw [reserved_setAccount]
        split
        · next hx => rw [hx]; rfl
        · rfl
      · rw [free_setAccount]
        split
        · next hx => rw [hx]; rfl
        · rfl
    · cases h

theorem reserve_issuance (h : b.reserve who value = some b') : b'.issuance = b.issuance := by
  unfold reserve at h
  split at h
  · cases h
    rfl
  · simp only at h
    split at h
    · next hc =>
      cases h
      have hs := issuance_setAccount b who
        { b.account who with
          free := (b.account who).free - value, reserved := (b.account who).reserved + value }
      simp only [AccountData.total] at hs
      omega
    · cases h

end Reserve

/-! ## Unreserve -/

section Unreserve

variable (b : Balances A) (who : A) (value : Nat)

theorem unreserve_reserved (x : A) :
    (b.unreserve who value).1.reserved x = b.reserved x - if x = who then value else 0 := by
  unfold unreserve
  split
  · next hv => simp [hv]
  · simp only
    split
    · next hz =>
      split
      · next hx =>
        subst hx
        have : b.reserved x = 0 := by
          unfold reserved
          simp only [AccountData.total] at hz
          omega
        simp only
        omega
      · rfl
    · rw [reserved_setAccount]
      split
      · next hx =>
        subst hx
        simp only [reserved]
        omega
      · rfl

theorem unreserve_issuance (hb : b.issuance ≤ u128Max) :
    (b.unreserve who value).1.issuance = b.issuance := by
  unfold unreserve
  split
  · rfl
  · simp only
    split
    · rfl
    · have hle := b.total_le_issuance who
      have hs := issuance_setAccount b who
        { b.account who with
          free := saturatingAdd u128Max (b.account who).free (min (b.account who).reserved value),
          reserved := (b.account who).reserved - min (b.account who).reserved value }
      simp only [AccountData.total] at hs hle
      rw [saturatingAdd_of_le (by omega)] at hs ⊢
      simp only
      omega

theorem unreserve_remaining (h : value ≤ b.reserved who) : (b.unreserve who value).2 = 0 := by
  unfold unreserve
  split
  · rfl
  · next hv =>
    simp only
    unfold reserved at h
    split
    · next hz =>
      simp only [AccountData.total] at hz
      omega
    · simp only
      omega

theorem unreserve_free_ne {x : A} (hx : x ≠ who) : (b.unreserve who value).1.free x = b.free x := by
  unfold unreserve
  split
  · rfl
  · simp only
    split
    · rfl
    · rw [free_setAccount, if_neg hx]

end Unreserve

/-! ## Slash -/

section Slash

variable (b : Balances A) (who : A) (value : Nat)

theorem slashReserved_reserved (x : A) :
    (b.slashReserved who value).1.reserved x = b.reserved x - if x = who then value else 0 := by
  rw [← unreserve_reserved]
  unfold slashReserved unreserve
  split
  · rfl
  · simp only
    split
    · rfl
    · rw [reserved_setAccount, reserved_setAccount]

theorem slashReserved_remaining : (b.slashReserved who value).2 = value - b.reserved who := by
  unfold slashReserved reserved
  split
  · next hv => simp [hv]
  · simp only
    split
    · next hz =>
      simp only [AccountData.total] at hz
      omega
    · simp only
      omega

theorem slashReserved_issuance_min :
    (b.slashReserved who value).1.issuance + min (b.reserved who) value = b.issuance := by
  unfold slashReserved reserved
  split
  · next h0 => simp [h0]
  · simp only
    split
    · next hz =>
      simp only [AccountData.total] at hz ⊢
      omega
    · have hs := issuance_setAccount b who
        { b.account who with
          reserved := (b.account who).reserved - min (b.account who).reserved value }
      simp only [AccountData.total] at hs ⊢
      omega

theorem slashReserved_issuance_le : (b.slashReserved who value).1.issuance ≤ b.issuance :=
  Nat.le_of_add_right_le (slashReserved_issuance_min b who value).le

end Slash

/-! ## Repatriation -/

section Repatriate

variable {b b' : Balances A} {slashed beneficiary : A} {value rest : Nat}

theorem repatriateReserved_eq_some
    (h : b.repatriateReserved slashed beneficiary value = some (b', rest)) :
    rest = value - b.reserved slashed ∧
      ∀ x, b'.reserved x = b.reserved x - if x = slashed then value else 0 := by
  unfold repatriateReserved at h
  split at h
  · next hv =>
    simp only [Option.some.injEq, Prod.mk.injEq] at h
    obtain ⟨rfl, rfl⟩ := h
    simp [hv]
  · simp only at h
    set actual := min value (b.reserved slashed) with hactual
    split at h
    · simp only [Option.some.injEq, Prod.mk.injEq] at h
      obtain ⟨rfl, rfl⟩ := h
      have hrem := b.unreserve_remaining slashed actual (by omega)
      refine ⟨by omega, fun x => ?_⟩
      rw [unreserve_reserved]
      split
      · next hx =>
        rw [hx]
        omega
      · rfl
    · next hne =>
      split at h
      · split at h
        · simp only [Option.some.injEq, Prod.mk.injEq] at h
          obtain ⟨rfl, rfl⟩ := h
          refine ⟨by omega, fun x => ?_⟩
          rw [reserved_setAccount, reserved_setAccount]
          split
          · next hx =>
            subst hx
            simp only [reserved] at hactual ⊢
            omega
          · split
            · next hx => rw [hx]; rfl
            · rfl
        · cases h
      · cases h

theorem repatriateReserved_issuance (hb : b.issuance ≤ u128Max)
    (h : b.repatriateReserved slashed beneficiary value = some (b', rest)) :
    b'.issuance = b.issuance := by
  unfold repatriateReserved at h
  split at h
  · simp only [Option.some.injEq, Prod.mk.injEq] at h
    rw [← h.1]
  · simp only at h
    have hr : b.reserved slashed = (b.account slashed).reserved := rfl
    split at h
    · simp only [Option.some.injEq, Prod.mk.injEq] at h
      rw [← h.1]
      exact unreserve_issuance _ _ _ hb
    · next hne =>
      split at h
      · split at h
        · simp only [Option.some.injEq, Prod.mk.injEq] at h
          obtain ⟨rfl, -⟩ := h
          set actual := min value (b.reserved slashed) with hactual
          have h1 := issuance_setAccount b beneficiary
            { b.account beneficiary with free := (b.account beneficiary).free + actual }
          have h2 := issuance_setAccount (b.setAccount beneficiary
            { b.account beneficiary with free := (b.account beneficiary).free + actual }) slashed
            { b.account slashed with reserved := (b.account slashed).reserved - actual }
          rw [account_setAccount, if_neg hne] at h2
          simp only [AccountData.total] at h1 h2
          omega
        · cases h
      · cases h

theorem repatriateReserved_isSome (value : Nat) (hb : b.issuance ≤ u128Max)
    (hc : beneficiary = slashed ∨ b.Live beneficiary) :
    ∃ r, b.repatriateReserved slashed beneficiary value = some r := by
  unfold repatriateReserved
  by_cases hv : value = 0
  · exact ⟨_, if_pos hv⟩
  · rw [if_neg hv]
    by_cases he : slashed = beneficiary
    · exact ⟨_, if_pos he⟩
    · have hfit : (b.account beneficiary).free + min value (b.reserved slashed) ≤ u128Max := by
        have hle := b.total_add_total_le_issuance he
        simp only [AccountData.total] at hle
        unfold reserved
        omega
      simp only [if_neg he, if_pos (hc.resolve_left (Ne.symm he)), if_pos hfit]
      exact ⟨_, rfl⟩

end Repatriate

/-! ## Free balances

None of the operations on free balances moves a reserve. -/

section Free

variable {b b' : Balances A} {who source dest : A} {value : Nat}

theorem reserved_setFree (b : Balances A) (who : A) (n : Nat) (x : A) :
    (b.setAccount who { b.account who with free := n }).reserved x = b.reserved x := by
  rw [reserved_setAccount]
  split
  · next hx => rw [hx]; rfl
  · rfl

@[simp] theorem slash_reserved (b : Balances A) (who : A) (value : Nat) (x : A) :
    (b.slash who value).reserved x = b.reserved x := by
  unfold slash
  split
  · rfl
  · exact reserved_setFree ..

theorem transfer_isSome (dest : A) (hb : b.issuance ≤ u128Max)
    (h : (b.account source).frozen + value ≤ b.free source) :
    ∃ b', b.transfer source dest value = some b' := by
  unfold transfer
  split
  · exact ⟨b, rfl⟩
  · next hne =>
    have hle := b.total_add_total_le_issuance (x := source) (y := dest) fun he => hne (.inr he)
    simp only [AccountData.total] at hle
    unfold free at h
    exact ⟨_, if_pos ⟨by omega, by omega, by omega⟩⟩

theorem transfer_reserved (h : b.transfer source dest value = some b') (x : A) :
    b'.reserved x = b.reserved x := by
  unfold transfer at h
  split at h
  · cases h
    rfl
  · next hne =>
    simp only at h
    split at h
    · cases h
      have hs : b.account source = (b.setAccount dest { b.account dest with
          free := (b.account dest).free + value }).account source := by
        rw [account_setAccount, if_neg fun e => hne (.inr e)]
      rw [hs, reserved_setFree, reserved_setFree]
    · cases h

theorem transfer_free (h : b.transfer source dest value = some b') (x : A) :
    b'.free x + (if x = source then value else 0) =
      b.free x + if x = dest then value else 0 := by
  unfold transfer at h
  split at h
  · next hc =>
    cases h
    rcases hc with hv | he
    · simp [hv]
    · rw [he]
  · next hne =>
    simp only at h
    split at h
    · next hc =>
      cases h
      rw [free_setAccount, free_setAccount]
      have hsd : source ≠ dest := fun e => hne (.inr e)
      by_cases hs : x = source
      · subst hs
        rw [if_pos rfl, if_pos rfl, if_neg hsd]
        exact Nat.sub_add_cancel hc.1
      · rw [if_neg hs, if_neg hs]
        by_cases hd : x = dest
        · subst hd
          rw [if_pos rfl, if_pos rfl]
          rfl
        · rw [if_neg hd, if_neg hd]
    · cases h

end Free

/-! ## What arrives -/

section Arrival

variable {b b' : Balances A} {who source dest slashed beneficiary : A} {value rest : Nat}

theorem unreserve_free (hb : b.issuance ≤ u128Max) (hv : value ≤ b.reserved who) (x : A) :
    (b.unreserve who value).1.free x = b.free x + if x = who then value else 0 := by
  have hle := b.total_le_issuance who
  unfold reserved at hv
  unfold unreserve
  split
  · next h0 => simp [h0]
  · simp only
    split
    · next hz =>
      simp only [AccountData.total] at hz
      omega
    · rw [free_setAccount]
      split
      · next hx =>
        subst hx
        simp only [AccountData.total] at hle
        simp only [saturatingAdd, free]
        omega
      · rfl

/-- **A repatriation is complete** if the reserve covers it. -/
theorem repatriateReserved_free (hb : b.issuance ≤ u128Max) (hv : value ≤ b.reserved slashed)
    (hr : b.repatriateReserved slashed beneficiary value = some (b', rest)) (x : A) :
    b'.free x = b.free x + if x = beneficiary then value else 0 := by
  unfold repatriateReserved at hr
  split at hr
  · next h0 =>
    simp only [Option.some.injEq, Prod.mk.injEq] at hr
    obtain ⟨rfl, rfl⟩ := hr
    simp [h0]
  · simp only [Nat.min_eq_left hv] at hr
    split at hr
    · next he =>
      subst he
      simp only [Option.some.injEq, Prod.mk.injEq] at hr
      obtain ⟨rfl, rfl⟩ := hr
      exact unreserve_free hb hv x
    · next hne =>
      split at hr
      · split at hr
        · simp only [Option.some.injEq, Prod.mk.injEq] at hr
          obtain ⟨rfl, rfl⟩ := hr
          rw [free_setAccount, free_setAccount]
          split
          · next hx =>
            subst hx
            rw [if_neg hne]
            rfl
          · split
            · next hx =>
              subst hx
              rfl
            · rfl
        · cases hr
      · cases hr

theorem slashReserved_free (b : Balances A) (who : A) (value : Nat) (u : A) :
    (b.slashReserved who value).1.free u = b.free u := by
  unfold slashReserved
  split
  · rfl
  · simp only
    split
    · rfl
    · rw [free_setAccount]
      split
      · next hu =>
        subst hu
        rfl
      · rfl

/-- What is slashed leaves the ledger. -/
theorem slashReserved_issuance (hv : value ≤ b.reserved who) :
    (b.slashReserved who value).1.issuance + value = b.issuance := by
  have h := slashReserved_issuance_min b who value
  rwa [Nat.min_eq_right hv] at h

theorem transfer_issuance (ht : b.transfer source dest value = some b') :
    b'.issuance = b.issuance := by
  unfold transfer at ht
  split at ht
  · cases ht
    rfl
  · next hne =>
    simp only at ht
    split at ht
    · next hc =>
      cases ht
      have h1 := issuance_setAccount b dest
        { b.account dest with free := (b.account dest).free + value }
      have h2 := issuance_setAccount (b.setAccount dest
        { b.account dest with free := (b.account dest).free + value }) source
        { b.account source with free := (b.account source).free - value }
      rw [account_setAccount, if_neg fun e => hne (.inr e)] at h2
      simp only [AccountData.total] at h1 h2
      omega
    · cases ht

end Arrival

/-- A ledger whose entries have nothing reserved. -/
theorem reserved_of_iter {b : Balances A} (h : ∀ e ∈ b.accounts.iter, e.2.reserved = 0) (u : A) :
    b.reserved u = 0 := by
  unfold reserved account StorageMap.getD
  cases hu : b.accounts.get u with
  | none => rfl
  | some d => exact h (u, d) (StorageMap.mem_iter.2 hu)

/-! ## Life -/

section Life

variable {b b' : Balances A} {who slashed beneficiary : A} {value rest : Nat}

/-- An account with a reserve is alive. -/
theorem live_of_reserved (h : 0 < b.reserved who) : b.Live who := by
  intro hz
  unfold reserved at h
  rw [hz] at h
  exact Nat.lt_irrefl 0 h

theorem live_setAccount {d : AccountData} {u : A} (hd : u = who → d ≠ .zero) (h : b.Live u) :
    (b.setAccount who d).Live u := by
  unfold Live
  rw [account_setAccount]
  split
  · next hu => exact hd hu
  · exact h

theorem slashReserved_live {u : A} (hu : u ≠ who) (h : b.Live u) :
    (b.slashReserved who value).1.Live u := by
  unfold slashReserved
  split
  · exact h
  · simp only
    split
    · exact h
    · exact live_setAccount (absurd · hu) h

/-- What is unreserved stays in the account. -/
theorem unreserve_live {u : A} (h : b.Live u) : (b.unreserve who value).1.Live u := by
  unfold unreserve
  split
  · exact h
  · simp only
    split
    · exact h
    · refine live_setAccount (fun hu hz => h ?_) h
      subst hu
      obtain ⟨hfree, hreserved, hfrozen⟩ := AccountData.mk.inj hz
      have hmax : 0 < u128Max := by decide
      unfold saturatingAdd at hfree
      cases hd : b.account u
      rw [hd] at hfree hreserved hfrozen
      simp only at hfree hreserved hfrozen
      unfold AccountData.zero
      congr <;> omega

theorem repatriateReserved_live {u : A} (hu : u ≠ slashed) (h : b.Live u)
    (hr : b.repatriateReserved slashed beneficiary value = some (b', rest)) : b'.Live u := by
  unfold repatriateReserved at hr
  split at hr
  · cases hr
    exact h
  · simp only at hr
    split at hr
    · cases hr
      exact unreserve_live h
    · split at hr
      · split at hr
        · cases hr
          refine live_setAccount (absurd · hu) (live_setAccount (fun he hz => h ?_) h)
          subst he
          -- the free balance only grows
          obtain ⟨hfree, hreserved, hfrozen⟩ := AccountData.mk.inj hz
          cases hd : b.account u
          rw [hd] at hfree hreserved hfrozen
          simp only [Nat.add_eq_zero_iff] at hfree hreserved hfrozen
          rw [hfree.1, hreserved, hfrozen]
          rfl
        · cases hr
      · cases hr

end Life

/-- The ledger as a currency. -/
def currency : Currency A (Balances A) where
  free := free
  reserved := reserved
  issuance := issuance
  Live := Live
  slashReserved b who value := (b.slashReserved who value).1
  repatriateReserved := repatriateReserved

section Lawful

variable {b : Balances A} {x y : A} {value : Nat}

theorem sub_add_only {n m : Nat} {u : A} (h : m = n - if u = x then value else 0)
    (hv : u = x → value ≤ n) : m + only x value u = n := by
  unfold only
  rw [h]
  split
  · next hu => exact Nat.sub_add_cancel (hv hu)
  · rfl

theorem slashReserved_paid (hv : value ≤ b.reserved x) :
    currency.Paid b (b.slashReserved x value).1 (only x value) (fun _ => 0) value := by
  refine ⟨slashReserved_issuance hv, fun u => ?_, b.slashReserved_free x value, fun u hu h => ?_⟩
  · exact sub_add_only (b.slashReserved_reserved x value u) fun hu => hu ▸ hv
  · by_cases hx : u = x
    · rw [hx, only_self] at hu
      rw [hu]
      exact h
    · exact slashReserved_live hx h

theorem repatriateReserved_paid (hb : b.issuance ≤ u128Max) (hy : y = x ∨ b.Live y)
    (hv : value ≤ b.reserved x) :
    ∃ b', b.repatriateReserved x y value = some (b', 0) ∧
      currency.Paid b b' (only x value) (only y value) 0 := by
  obtain ⟨⟨b', rest⟩, hrun⟩ := repatriateReserved_isSome value hb hy
  obtain ⟨hrest, hreserved⟩ := repatriateReserved_eq_some hrun
  rw [Nat.sub_eq_zero_of_le hv] at hrest
  subst hrest
  refine ⟨b', hrun, repatriateReserved_issuance hb hrun, fun u => ?_,
    repatriateReserved_free hb hv hrun, fun u hu h => ?_⟩
  · exact sub_add_only (hreserved u) fun hu => hu ▸ hv
  · by_cases hx : u = x
    · rw [hx, only_self] at hu
      subst hu
      cases hrun
      exact h
    · exact repatriateReserved_live hx h hrun

theorem lawful : (currency : Currency A (Balances A)).Lawful where
  slashReserved := slashReserved_paid
  slashReserved_ne {b x u} hu value := by
    refine (b.slashReserved_reserved x value u).trans ?_
    rw [if_neg hu]
    rfl
  repatriateReserved := repatriateReserved_paid
  repatriateReserved_ne {b x y u value b' rest} hu hrun := by
    refine ((repatriateReserved_eq_some hrun).2 u).trans ?_
    rw [if_neg hu]
    rfl

end Lawful

end Balances

end DeepBrainChain.Lib
