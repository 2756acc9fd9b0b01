import DeepBrainChain.Lib.Call
import DeepBrainChain.Lib.Escrow

/-!
# The chain below the machine pallets

What every machine pallet reads: the block number, the ledger, the fixed transaction fee and the
price feed. On top of it the two functions of `generic-func` that move money: the transaction
fee, and the slash that is shared out among rewarded accounts.

`slash_and_reward` pays each rewarded account a share out of the reserve of a slashed account and
burns what is left. It is followed over any currency that keeps its laws. Amounts that go to the
treasury are burned here: the account of the treasury takes no part in the pallets.
-/

namespace DeepBrainChain.GenericFunc

open Lib Lib.Call Balances Option List

/-- The block number, the ledger, `FixedTxFee`, and `DbcPrice::get_dbc_amount_by_value`. -/
structure Chain (A : Type) where
  now : Nat
  balances : Balances A
  fixedTxFee : Option Nat
  dbcPrice : Nat → Option Nat

section Fee

variable {A : Type} [DecidableEq A]

def Chain.setBalances (s : Chain A) (b : Balances A) : Chain A := { s with balances := b }

def payFixedTxFee (who : A) : Call (Chain A) Unit Unit := do
  let s ← get
  let fee ← okOr s.fixedTxFee ()
  ensure (fee ≤ s.balances.free who) ()
  set (s.setBalances (s.balances.slash who fee))

end Fee

/-! ## The loops -/

section Loops

variable {A L : Type} (c : Currency A L)

/-- Move a share, as the loop does: it ignores what the ledger answers. -/
def payShare (b : L) (slashed rewarded : A) (amount : Nat) : L :=
  match c.repatriateReserved b slashed rewarded amount with
  | some (b, _) => b
  | none => b

/-- One round of the inner loop: the ledger and what is left to pay. A rewarded account is skipped
when the reserve does not cover what is left. -/
def rewardOne (slashed : A) (each : Nat) (r : L × Nat) (rewarded : A) : Option (L × Nat) :=
  if r.2 ≤ c.reserved r.1 slashed then
    if each ≤ r.2 then
      (checkedSub r.2 each).map fun left => (payShare c r.1 slashed rewarded each, left)
    else some (payShare c r.1 slashed rewarded r.2, 0)
  else some r

/-- The slash of one account: a share for each rewarded account, and what is left is burned. -/
def slashOne (eachSlash : Nat) (rewardWho : List A) (b : L) (slashed : A) : Option L :=
  match rewardWho with
  | [] => some (if eachSlash ≤ c.reserved b slashed then c.slashReserved b slashed eachSlash else b)
  | _ =>
    (rewardWho.foldlM (rewardOne c slashed
      ((Perbill.fromRational 1 rewardWho.length).mul eachSlash)) (b, eachSlash)).map fun r =>
        if 0 < r.2 then c.slashReserved r.1 slashed r.2 else r.1

/-- `slash_and_reward` with its result: `none` is `Err(())`. -/
def trySlashAndReward (b : L) (slashWho : List A) (eachSlash : Nat) (rewardWho : List A) :
    Option L :=
  if eachSlash = 0 then some b else slashWho.foldlM (slashOne c eachSlash rewardWho) b

/-- `slash_and_reward` on the ledger of the chain, for callers that ignore its result. -/
def slashAndReward [DecidableEq A] (b : Balances A) (slashWho : List A) (eachSlash : Nat)
    (rewardWho : List A) : Balances A :=
  (trySlashAndReward currency b slashWho eachSlash rewardWho).getD b

end Loops

/-! ## What a slash leaves alone -/

section Frame

variable {A L : Type} [DecidableEq A] {c : Currency A L} (law : c.Lawful) {b b' : L} {x u : A}

theorem foldlM_keeps {α β : Type} {f : β → α → Option β} {P : β → Prop} {l : List α} {b b' : β}
    (h : ∀ a ∈ l, ∀ b b', P b → f b a = some b' → P b') (hb : P b) (hrun : l.foldlM f b = some b') :
    P b' := by
  induction l generalizing b with
  | nil =>
    cases hrun
    exact hb
  | cons a l ih =>
    rw [foldlM_cons] at hrun
    obtain ⟨m, hm, hrun⟩ := bind_eq_some_iff.1 hrun
    exact ih (fun a' ha' => h a' (mem_cons_of_mem a ha')) (h a mem_cons_self b m hb hm) hrun

include law

theorem payShare_ne (hu : u ≠ x) (y : A) (n : Nat) :
    c.reserved (payShare c b x y n) u = c.reserved b u := by
  unfold payShare
  split
  · next hrun => exact law.repatriateReserved_ne hu hrun
  · rfl

theorem slashOne_ne {n : Nat} {rewarded : List A} (hu : u ≠ x)
    (hrun : slashOne c n rewarded b x = some b') : c.reserved b' u = c.reserved b u := by
  cases rewarded with
  | nil =>
    rw [slashOne, some.injEq] at hrun
    subst hrun
    split
    · exact law.slashReserved_ne hu n
    · rfl
  | cons y l =>
    rw [slashOne] at hrun
    · obtain ⟨r, hloop, rfl⟩ := map_eq_some_iff.1 hrun
      have hr : c.reserved r.1 u = c.reserved b u := by
        refine foldlM_keeps (P := fun r => c.reserved r.1 u = c.reserved b u) ?_ rfl hloop
        intro y _ r r' hr hone
        unfold rewardOne at hone
        split at hone
        · split at hone
          · obtain ⟨left, -, rfl⟩ := map_eq_some_iff.1 hone
            exact (payShare_ne law hu y _).trans hr
          · cases hone
            exact (payShare_ne law hu y _).trans hr
        · cases hone
          exact hr
      split
      · exact (law.slashReserved_ne hu _).trans hr
      · exact hr
    · exact cons_ne_nil y l

/-- The reserve of an account that is not slashed stays. -/
theorem trySlashAndReward_ne {who rewarded : List A} {n : Nat} (hu : u ∉ who)
    (hrun : trySlashAndReward c b who n rewarded = some b') : c.reserved b' u = c.reserved b u := by
  unfold trySlashAndReward at hrun
  split at hrun
  · cases hrun
    rfl
  · refine foldlM_keeps (P := fun b' => c.reserved b' u = c.reserved b u) ?_ rfl hrun
    intro x hx b1 b2 h1 hone
    exact (slashOne_ne law (fun he : u = x => hu (he ▸ hx)) hone).trans h1

end Frame

/-! ## Who gets what -/

section Shares

variable {A : Type} [DecidableEq A]

/-- What the list hands to an account that stands at some of its positions. -/
def received : List A → List Nat → A → Nat
  | a :: l, p :: ps, u => only a p u + received l ps u
  | _, _, _ => 0

/-- What the positions of a list of `n` rewarded accounts are to get of a slash: the share each,
as long as something is left. -/
def receipts (eachSlash n : Nat) : List Nat :=
  dole eachSlash (List.replicate n ((Perbill.fromRational 1 n).mul eachSlash))

theorem sum_receipts (amount n : Nat) :
    (receipts amount n).sum = min amount (n * (Perbill.fromRational 1 n).mul amount) := by
  unfold receipts
  rw [sum_dole, sum_replicate_nat]

end Shares

/-! ## The ledger -/

section Ledger

variable {A L : Type} [DecidableEq A] {c : Currency A L} (law : c.Lawful) {b : L} {x y : A}
  {amount each : Nat} {r : L × Nat} {who rewarded l : List A}

include law

variable (each) in
/-- A round whose reserve covers what is left pays its share in full. -/
theorem rewardOne_paid (hb : c.issuance r.1 ≤ u128Max) (hy : y = x ∨ c.Live r.1 y)
    (hv : r.2 ≤ c.reserved r.1 x) :
    ∃ b', rewardOne c x each r y = some (b', r.2 - min each r.2) ∧
      c.Paid r.1 b' (only x (min each r.2)) (only y (min each r.2)) 0 := by
  have hle : min each r.2 ≤ c.reserved r.1 x := (Nat.min_le_right _ _).trans hv
  obtain ⟨b', hrun, hpaid⟩ := law.repatriateReserved hb hy hle
  refine ⟨b', ?_, hpaid⟩
  have hpay : payShare c r.1 x y (min each r.2) = b' := by
    unfold payShare
    rw [hrun]
  unfold rewardOne
  rw [if_pos hv]
  split
  · next h =>
    rw [Nat.min_eq_left h] at hpay ⊢
    rw [checkedSub_eq_some.2 ⟨h, rfl⟩, map_some, hpay]
  · next h =>
    rw [Nat.min_eq_right (by omega)] at hpay ⊢
    rw [hpay, Nat.sub_self]

variable (each) in
/-- The inner loop hands out the shares in turn. -/
theorem rewardAll_paid (hb : c.issuance r.1 ≤ u128Max) (hl : ∀ y ∈ l, y = x ∨ c.Live r.1 y)
    (hv : r.2 ≤ c.reserved r.1 x) :
    ∃ b', l.foldlM (rewardOne c x each) r =
        some (b', r.2 - (dole r.2 (replicate l.length each)).sum) ∧
      c.Paid r.1 b' (only x (dole r.2 (replicate l.length each)).sum)
        (received l (dole r.2 (replicate l.length each))) 0 := by
  induction l generalizing r with
  | nil =>
    refine ⟨r.1, rfl, rfl, fun u => ?_, fun u => rfl, fun _ _ h => h⟩
    simp [dole, only]
  | cons y l ih =>
    obtain ⟨b₁, hone, hpaid⟩ := rewardOne_paid law each hb (hl y mem_cons_self) hv
    have hreserved := hpaid.reserved x
    rw [only_self] at hreserved
    -- an account that is paid stays alive, and so do the others but `x`
    have hlive : ∀ z ∈ l, z = x ∨ c.Live b₁ z := by
      intro z hz
      rcases eq_or_ne z x with he | he
      · exact .inl he
      · exact .inr (hpaid.live z (only_ne he _) ((hl z (mem_cons_of_mem y hz)).resolve_left he))
    obtain ⟨b₂, hrest, hpaid'⟩ := ih (r := (b₁, r.2 - min each r.2))
      (hpaid.issuance_le.trans hb) hlive (by simp only; omega)
    refine ⟨b₂, ?_, ?_⟩
    · rw [foldlM_cons, hone, length_cons, replicate_succ, dole, sum_cons, ← Nat.sub_sub]
      exact hrest
    · have hall := hpaid.trans hpaid'
      rw [only_add] at hall
      simpa only [length_cons, replicate_succ, dole, sum_cons, received] using hall

/-- **A covered slash takes exactly its amount**, shares it out and burns the rest. -/
theorem slashOne_paid (hb : c.issuance b ≤ u128Max) (hl : ∀ y ∈ rewarded, y = x ∨ c.Live b y)
    (hv : amount ≤ c.reserved b x) :
    ∃ b', slashOne c amount rewarded b x = some b' ∧
      c.Paid b b' (only x amount) (received rewarded (receipts amount rewarded.length))
        (amount - (receipts amount rewarded.length).sum) := by
  cases rewarded with
  | nil =>
    refine ⟨c.slashReserved b x amount, ?_, law.slashReserved hv⟩
    rw [slashOne, if_pos hv]
  | cons y l =>
    obtain ⟨b₁, hloop, hpaid⟩ := rewardAll_paid (r := (b, amount)) law
      ((Perbill.fromRational 1 (y :: l).length).mul amount) hb hl hv
    have hsum := sum_receipts amount (y :: l).length
    change (_ : Option _) = some (b₁, amount - (receipts amount (y :: l).length).sum) at hloop
    change c.Paid b b₁ (only x (receipts amount (y :: l).length).sum) _ 0 at hpaid
    have hreserved := hpaid.reserved x
    rw [only_self] at hreserved
    have hrest : amount - (receipts amount (y :: l).length).sum ≤ c.reserved b₁ x := by omega
    have hall := hpaid.trans (law.slashReserved hrest)
    rw [only_add, Nat.zero_add, Nat.add_sub_cancel' (by omega)] at hall
    rw [slashOne, hloop, map_some]
    · split
      · exact ⟨_, rfl, hall⟩
      · next hz =>
        have hzero : amount - (receipts amount (y :: l).length).sum = 0 := Nat.eq_zero_of_not_pos hz
        have hfull : (receipts amount (y :: l).length).sum = amount := by omega
        rw [hfull] at hpaid
        rw [hzero]
        exact ⟨_, rfl, hpaid⟩
    · exact cons_ne_nil y l

/-- The outer loop. -/
theorem slashAll_paid (hn : who.Nodup) (hb : c.issuance b ≤ u128Max)
    (hdis : ∀ x ∈ who, x ∉ rewarded) (hlive : ∀ y ∈ rewarded, c.Live b y)
    (hv : ∀ x ∈ who, amount ≤ c.reserved b x) :
    ∃ b', who.foldlM (slashOne c amount rewarded) b = some b' ∧
      c.Paid b b' (fun u => if u ∈ who then amount else 0)
        (fun u => who.length * received rewarded (receipts amount rewarded.length) u)
        (who.length * (amount - (receipts amount rewarded.length).sum)) := by
  induction who generalizing b with
  | nil => exact ⟨b, rfl, by simpa using Currency.Paid.refl c b⟩
  | cons x who ih =>
    obtain ⟨hx, hn⟩ := nodup_cons.1 hn
    obtain ⟨b₁, hone, hpaid⟩ :=
      slashOne_paid law hb (fun y hy => .inr (hlive y hy)) (hv x mem_cons_self)
    have hkept : ∀ y ∈ who, amount ≤ c.reserved b₁ y := by
      intro y hy
      have hres := hpaid.reserved y
      rw [only_ne fun he : y = x => hx (he ▸ hy)] at hres
      exact (hv y (mem_cons_of_mem x hy)).trans hres.ge
    obtain ⟨b₂, hrest, hpaid'⟩ := ih hn (hpaid.issuance_le.trans hb)
      (fun y hy => hdis y (mem_cons_of_mem x hy))
      (fun y hy => hpaid.live y
        (only_ne (fun he : y = x => hdis x mem_cons_self (he ▸ hy)) _) (hlive y hy)) hkept
    refine ⟨b₂, ?_, ?_⟩
    · rw [foldlM_cons, hone]
      exact hrest
    · have hall := hpaid.trans hpaid'
      refine ⟨?_, fun u => ?_, fun u => ?_, fun u hu => hall.live u ?_⟩
      · rw [length_cons, Nat.add_mul, Nat.one_mul, Nat.add_comm (who.length * _)]
        exact hall.issuance
      · rw [← hall.reserved u]
        congr 1
        by_cases hux : u = x
        · subst hux
          simp [only, hx]
        · simp [only, hux]
      · rw [hall.free, length_cons, Nat.add_mul, Nat.one_mul, Nat.add_comm (who.length * _)]
      · by_cases hux : u = x
        · subst hux
          simpa [only, hx] using hu
        · simpa [only, hux] using hu

end Ledger

section Main

variable {A L : Type} [DecidableEq A] {c : Currency A L} {who rewarded : List A} {amount : Nat}

theorem trySlashAndReward_paid (law : c.Lawful) {b : L} (hn : who.Nodup)
    (hb : c.issuance b ≤ u128Max) (hdis : ∀ x ∈ who, x ∉ rewarded)
    (hlive : ∀ y ∈ rewarded, c.Live b y) (hv : ∀ x ∈ who, amount ≤ c.reserved b x) :
    ∃ b', trySlashAndReward c b who amount rewarded = some b' ∧
      c.Paid b b' (fun u => if u ∈ who then amount else 0)
        (fun u => who.length * received rewarded (receipts amount rewarded.length) u)
        (who.length * (amount - (receipts amount rewarded.length).sum)) := by
  have hall := slashAll_paid law hn hb hdis hlive hv
  unfold trySlashAndReward
  split
  · next hz =>
    subst hz
    -- nothing is to be paid, and the loop that is skipped would not have paid anything either
    obtain ⟨b', -, hpaid⟩ := hall
    have hnone : ∀ u, received rewarded (receipts 0 rewarded.length) u = 0 := by
      intro u
      have hle : ∀ (l : List A) (ps : List Nat), (∀ p ∈ ps, p = 0) → received l ps u = 0 := by
        intro l
        induction l with
        | nil => exact fun _ _ => rfl
        | cons a l ih =>
          intro ps hps
          cases ps with
          | nil => rfl
          | cons p ps =>
            rw [received, hps p mem_cons_self, ih ps fun q hq => hps q (mem_cons_of_mem p hq)]
            exact ite_self _
      exact hle _ _ fun p hp => Nat.le_zero.1 (le_of_mem_dole (fun d hd => by
        rw [eq_of_mem_replicate hd]
        exact Perbill.mul_le _ 0) hp)
    refine ⟨b, rfl, ?_⟩
    simpa [hnone] using Currency.Paid.refl c b
  · exact hall

variable {b : Balances A} {x u : A}

theorem slashAndReward_reserved_ne (hu : u ∉ who) (n : Nat) (rewarded : List A) :
    (slashAndReward b who n rewarded).reserved u = b.reserved u := by
  unfold slashAndReward
  cases hrun : trySlashAndReward currency b who n rewarded with
  | none => rfl
  | some b' => exact trySlashAndReward_ne lawful hu hrun

theorem slashAndReward_covered (hn : who.Nodup) (hb : b.issuance ≤ u128Max)
    (hdis : ∀ x ∈ who, x ∉ rewarded) (hlive : ∀ y ∈ rewarded, b.Live y)
    (hv : ∀ x ∈ who, amount ≤ b.reserved x) (u : A) :
    (slashAndReward b who amount rewarded).reserved u =
      b.reserved u - if u ∈ who then amount else 0 := by
  obtain ⟨b', hrun, hpaid⟩ := trySlashAndReward_paid lawful hn hb hdis hlive hv
  unfold slashAndReward
  rw [hrun]
  exact Nat.eq_sub_of_add_eq (hpaid.reserved u)

/-- One account may be slashed in its own favour. -/
theorem slashAndReward_single (hb : b.issuance ≤ u128Max) (hlive : ∀ y ∈ rewarded, y = x ∨ b.Live y)
    (hv : amount ≤ b.reserved x) (u : A) :
    (slashAndReward b [x] amount rewarded).reserved u =
      b.reserved u - if u = x then amount else 0 := by
  obtain ⟨b', hrun, hpaid⟩ := slashOne_paid lawful hb hlive hv
  unfold slashAndReward trySlashAndReward
  split
  · next hz => simp [hz]
  · rw [foldlM_cons, hrun]
    exact Nat.eq_sub_of_add_eq (hpaid.reserved u)

end Main

end DeepBrainChain.GenericFunc
