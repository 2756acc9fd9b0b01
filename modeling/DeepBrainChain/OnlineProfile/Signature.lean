import DeepBrainChain.OnlineProfile.Calls

/-!
# What a bonding message may contain

`verify_sig` reads a machine identifier as text, cuts it into slices of two bytes and parses each
as a hexadecimal number, lazily and in order. A slice that is too short or that cuts a character
panics, and the parser takes a plus sign for the first digit. `get_accountid32` never looks at
the checksum of an address. Apart from these three, bonding input does no harm.
-/

namespace DeepBrainChain.OnlineProfile

open Lib Support List

inductive Panic
  | slice
deriving DecidableEq

/-! ## Reading the key -/

def continues (b : Fin 256) : Bool := 128 ≤ b.val && b.val < 192

/-- The bytes a character may begin with, from a first to a last one, with the number of bytes that
follow and the bounds of the next one. -/
def leads : List (Nat × Nat × Nat × Nat × Nat) :=
  [(0, 127, 0, 128, 191), (0xC2, 0xDF, 1, 128, 191), (0xE0, 0xE0, 2, 0xA0, 191),
    (0xE1, 0xEC, 2, 128, 191), (0xED, 0xED, 2, 128, 0x9F), (0xEE, 0xEF, 2, 128, 191),
    (0xF0, 0xF0, 3, 0x90, 191), (0xF1, 0xF3, 3, 128, 191), (0xF4, 0xF4, 3, 128, 0x8F)]

/-- One byte of `str::from_utf8`. -/
def utf8Step : Option (Nat × Nat × Nat) → Fin 256 → Option (Nat × Nat × Nat)
  | none, _ => none
  | some (n + 1, lo, hi), b => if lo ≤ b.val ∧ b.val ≤ hi then some (n, 128, 191) else none
  | some (0, _, _), b => (leads.find? fun r => r.1 ≤ b.val ∧ b.val ≤ r.2.1).map (·.2.2)

def isUtf8 (l : Bytes) : Bool := l.foldl utf8Step (some (0, 128, 191)) = some (0, 128, 191)

def digit (c : Fin 256) : Option Nat :=
  if 48 ≤ c.val ∧ c.val ≤ 57 then some (c.val - 48)
  else if 97 ≤ c.val ∧ c.val ≤ 102 then some (c.val - 87)
  else if 65 ≤ c.val ∧ c.val ≤ 70 then some (c.val - 55)
  else none

def twoDigits (a b : Fin 256) : Option (Fin 256) :=
  (digit a).bind fun x => (digit b).map fun y => byte (16 * x + y)

/-- `u8::from_str_radix(_, 16)` of two bytes: a plus sign in front of a digit is dropped. -/
def fromStrRadix (a b : Fin 256) : Option (Fin 256) :=
  if a = byte 43 then (digit b).map byte else twoDigits a b

/-- The slice of the first two bytes of a text is out of range, or cuts a character. -/
def cut : Bytes → Bool
  | [] => false
  | [_] => true
  | a :: _ :: l => continues a || l.head?.any continues

/-- The iterator over the slices `pubkey_str[i..i + 2]`, from a rest of the text on. It stops at
the first slice that is not a number. -/
def pubkeyHex : Bytes → Except Panic (Option Bytes)
  | [] => .ok (some [])
  | [_] => .error .slice
  | a :: b :: l =>
    if cut (a :: b :: l) then .error .slice
    else match fromStrRadix a b with
      | none => .ok none
      | some x => (pubkeyHex l).map (Option.map (x :: ·))

/-- What the runtime takes from libraries: base58, the decoding of an account, the checksum of an
address and the signatures. -/
structure Library (A : Type) where
  base58 : Bytes → Option Bytes
  decode : Bytes → Option A
  checksum : Bytes → Bytes
  verify : Bytes → Bytes → Bytes → Bool

section

variable {A : Type} (L : Library A)

/-- `verify_sig`, of the pallet and of the support crate. -/
def Library.verifySig (msg sig account : Bytes) : Except Panic Bool :=
  if sig.length = 64 ∧ isUtf8 account then
    (pubkeyHex account).map fun key => key.any fun k => k.length = 32 && L.verify sig msg k
  else .ok false

def Library.getAccountid32 (addr : Bytes) : Option Bytes :=
  (L.base58 addr).bind fun data =>
    if data.length = 35 ∧ data.head?.all (·.val ≤ 63) then some ((data.drop 1).take 32) else none

def Library.accountFromStr (addr : Bytes) : Option A := (L.getAccountid32 addr).bind L.decode

def Library.crypto : Crypto A where
  accountFromStr := L.accountFromStr
  verifySig msg sig m := L.verifySig msg sig m = .ok true

/-- The checks of `check_bonding_msg` in front of the signature pass. -/
def Library.Reaches (stash : A) (m : MachineId) (msg : Bytes) : Prop :=
  msg.length = 112 ∧ m = msg.take 64 ∧ L.accountFromStr (msg.drop 64) = some stash

instance [DecidableEq A] (stash : A) (m : MachineId) (msg : Bytes) :
    Decidable (L.Reaches stash m msg) := inferInstanceAs (Decidable (_ ∧ _))

/-- `check_bonding_msg` with its panics: it is the check of the pallet's model, unless it comes to
a signature that panics. -/
def Library.checkBondingMsg [LinearOrder A] (s : State A) (stash : A) (m : MachineId)
    (msg sig : Bytes) : Except Panic (Except Error Unit) :=
  if L.Reaches stash m msg ∧ L.verifySig msg sig m = .error .slice then .error .slice
  else .ok ((OnlineProfile.checkBondingMsg L.crypto stash m msg sig).run s).1

/-! ## What is meant -/

/-- A text spells a key, two bytes for one, as `read` reads them. -/
def Spells (read : Fin 256 → Fin 256 → Option (Fin 256)) : Bytes → Bytes → Prop
  | [], [] => True
  | a :: b :: l, x :: k => read a b = some x ∧ Spells read l k
  | _, _ => False

/-- An address: the byte of a network, the key of the account and the checksum of both. -/
def Library.Ss58 (text : Bytes) (stash : A) : Prop :=
  ∃ network key, network.val ≤ 63 ∧ key.length = 32 ∧ L.decode key = some stash ∧
    L.base58 text = some (network :: key ++ L.checksum (network :: key))

def Library.Signed (msg sig account : Bytes) : Prop :=
  sig.length = 64 ∧ ∃ key, key.length = 32 ∧ Spells twoDigits account key ∧ L.verify sig msg key

/-! ## When it holds -/

/-- The slices in front of a bad one are numbers. -/
def Stuck (account : Bytes) : Prop :=
  ∃ front rest key, account = front ++ rest ∧ Spells fromStrRadix front key ∧ cut rest = true

/-- The signature is valid under the key that the bytes of a text spell, signs included. -/
def Library.ValidUnder (msg sig account : Bytes) : Prop :=
  sig.length = 64 ∧ isUtf8 account = true ∧
    ∃ key, key.length = 32 ∧ Spells fromStrRadix account key ∧ L.verify sig msg key

/-- The bytes of an address behind the key are its checksum. -/
def Library.Checked (text : Bytes) : Prop :=
  ∀ data, L.base58 text = some data → data.drop 33 = L.checksum (data.take 33)

variable {L} {account msg sig key : Bytes}

theorem stuck_cons {a b : Fin 256} {l : Bytes} (h : ¬ cut (a :: b :: l) = true) :
    Stuck (a :: b :: l) ↔ (fromStrRadix a b).isSome ∧ Stuck l := by
  constructor
  · rintro ⟨_ | ⟨c, _ | ⟨d, front⟩⟩, rest, _ | ⟨x, key⟩, he, hr, hc⟩
    · rw [nil_append] at he
      exact absurd (he ▸ hc) h
    · exact hr.elim
    · exact hr.elim
    · exact hr.elim
    · exact hr.elim
    · obtain ⟨rfl, rfl, rfl⟩ : a = c ∧ b = d ∧ l = front ++ rest := by simpa using he
      exact ⟨by rw [hr.1]; rfl, front, rest, key, rfl, hr.2, hc⟩
  · rintro ⟨hx, front, rest, key, rfl, hr, hc⟩
    obtain ⟨x, hx⟩ := Option.isSome_iff_exists.1 hx
    exact ⟨a :: b :: front, rest, x :: key, rfl, ⟨hx, hr⟩, hc⟩

/-- **Where the slicing panics.** -/
theorem pubkeyHex_panics (account : Bytes) : pubkeyHex account = .error .slice ↔ Stuck account := by
  fun_induction pubkeyHex account with
  | case1 =>
    refine iff_of_false (by simp) ?_
    rintro ⟨front, rest, key, he, -, hc⟩
    obtain ⟨-, rfl⟩ := append_eq_nil_iff.1 he.symm
    cases hc
  | case2 a => exact iff_of_true rfl ⟨[], [a], [], rfl, trivial, rfl⟩
  | case3 a b l hcut => exact iff_of_true rfl ⟨[], a :: b :: l, [], rfl, trivial, hcut⟩
  | case4 a b l hcut hx => simp [stuck_cons hcut, hx]
  | case5 a b l hcut x hx ih =>
    rw [stuck_cons hcut, hx, ← ih]
    cases pubkeyHex l <;> simp [Except.map]

theorem spells_of_pubkeyHex (h : pubkeyHex account = .ok (some key)) :
    Spells fromStrRadix account key := by
  fun_induction pubkeyHex account generalizing key with
  | case1 =>
    cases h
    trivial
  | case5 a b l hcut x hx ih =>
    cases hl : pubkeyHex l with
    | error e => simp [hl, Except.map] at h
    | ok k =>
      cases k with
      | none => simp [hl, Except.map] at h
      | some k =>
        obtain rfl : x :: k = key := by simpa [hl, Except.map] using h
        exact ⟨hx, ih hl⟩
  | _ => cases h

theorem digit_lt {c : Fin 256} {x : Nat} (h : digit c = some x) : c.val < 128 := by
  unfold digit at h
  split at h
  · omega
  · split at h
    · omega
    · split at h
      · omega
      · cases h

theorem fromStrRadix_lt {a b x : Fin 256} (h : fromStrRadix a b = some x) : a.val < 128 := by
  unfold fromStrRadix at h
  split at h
  · next ha =>
    rw [ha]
    decide
  · obtain ⟨y, hy, -⟩ := Option.bind_eq_some_iff.1 h
    exact digit_lt hy

/-- No slice of a text that spells a key is cut. -/
theorem pubkeyHex_of_spells (h : Spells fromStrRadix account key) :
    pubkeyHex account = .ok (some key) := by
  have hhead : ∀ {l k}, Spells fromStrRadix l k → l.head?.any continues = false := by
    intro l k hl
    fun_induction Spells fromStrRadix l k with
    | case1 => rfl
    | case2 a b l x k _ =>
      have hlt := fromStrRadix_lt hl.1
      simp only [head?_cons, Option.any_some, continues, Bool.and_eq_false_iff,
        decide_eq_false_iff_not]
      omega
    | case3 => exact hl.elim
  fun_induction Spells fromStrRadix account key with
  | case1 => rfl
  | case2 a b l x k ih =>
    have hcut : cut (a :: b :: l) = false := by
      have ha : [a, b].head?.any continues = false := hhead (k := [x]) ⟨h.1, trivial⟩
      rw [cut, hhead h.2, Bool.or_false]
      exact ha
    rw [pubkeyHex, hcut, if_neg Bool.false_ne_true, h.1, ih h.2]
    rfl
  | case3 => exact h.elim

theorem hex_of_spells (h : Spells fromStrRadix account key) (hsign : byte 43 ∉ account) :
    Spells twoDigits account key := by
  fun_induction Spells fromStrRadix account key with
  | case1 => trivial
  | case2 a b l x k ih =>
    simp only [mem_cons, not_or] at hsign
    rw [fromStrRadix, if_neg (Ne.symm hsign.1)] at h
    exact ⟨h.1, ih h.2 hsign.2.2⟩
  | case3 => exact h.elim

theorem noSign_of_hex (h : Spells twoDigits account key) : byte 43 ∉ account := by
  have hplus : digit (byte 43) = none := by decide
  fun_induction Spells twoDigits account key with
  | case1 => simp
  | case2 a b l x k ih =>
    simp only [mem_cons, not_or]
    refine ⟨?_, ?_, ih h.2⟩
    · rintro rfl
      simp [twoDigits, hplus] at h
    · rintro rfl
      simp [twoDigits, hplus] at h
  | case3 => exact h.elim

theorem verifySig_panics : L.verifySig msg sig account = .error .slice ↔
    sig.length = 64 ∧ isUtf8 account = true ∧ Stuck account := by
  rw [← pubkeyHex_panics, ← and_assoc]
  unfold Library.verifySig
  split
  · next h => cases pubkeyHex account <;> simp [Except.map, h]
  · next h => simp [h]

theorem verifySig_accepts :
    L.verifySig msg sig account = .ok true ↔ L.ValidUnder msg sig account := by
  unfold Library.verifySig Library.ValidUnder
  rw [← and_assoc]
  split
  · next hg =>
    simp only [hg, and_self, true_and]
    constructor
    · intro h
      cases hk : pubkeyHex account with
      | error e => simp [hk, Except.map] at h
      | ok k =>
        cases k with
        | none => simp [hk, Except.map] at h
        | some k =>
          obtain ⟨hlen, hv⟩ : k.length = 32 ∧ L.verify sig msg k = true := by
            simpa [hk, Except.map] using h
          exact ⟨k, hlen, spells_of_pubkeyHex hk, hv⟩
    · rintro ⟨k, hlen, hk, hv⟩
      simp [pubkeyHex_of_spells hk, Except.map, hlen, hv]
  · next hg => exact iff_of_false (by simp) fun h => hg h.1

theorem signed_iff (h : L.ValidUnder msg sig account) :
    L.Signed msg sig account ↔ byte 43 ∉ account := by
  constructor
  · rintro ⟨-, key, -, hhex, -⟩
    exact noSign_of_hex hhex
  · intro hsign
    obtain ⟨hlen, -, key, hkey, hspells, hv⟩ := h
    exact ⟨hlen, key, hkey, hex_of_spells hspells hsign, hv⟩

theorem ss58_iff {text : Bytes} {stash : A} (h : L.accountFromStr text = some stash) :
    L.Ss58 text stash ↔ L.Checked text := by
  unfold Library.accountFromStr Library.getAccountid32 at h
  simp only [Option.bind_eq_some_iff, Option.ite_none_right_eq_some, Option.some.injEq] at h
  obtain ⟨_, ⟨data, hdata, ⟨hlen, hnetwork⟩, rfl⟩, hdecode⟩ := h
  unfold Library.Ss58 Library.Checked
  simp only [hdata, Option.some.injEq, forall_eq']
  constructor
  · rintro ⟨network, key, -, hkey, -, rfl⟩
    have hfront : (network :: key).length = 33 := by rw [length_cons, hkey]
    rw [← hfront, drop_left, take_left]
  · intro hsum
    cases data with
    | nil => cases hlen
    | cons network rest =>
      refine ⟨network, rest.take 32, by simpa using hnetwork, ?_, hdecode, ?_⟩
      · rw [length_take]
        simp only [length_cons] at hlen
        omega
      · rw [take_succ_cons, drop_succ_cons] at hsum
        rw [← hsum, cons_append, take_append_drop]

section

variable [LinearOrder A] {s : State A} {stash : A} {m : MachineId}

theorem checkBondingMsg_panics : L.checkBondingMsg s stash m msg sig = .error .slice ↔
    L.Reaches stash m msg ∧ L.verifySig msg sig m = .error .slice := by
  unfold Library.checkBondingMsg
  split <;> simp_all

theorem checkBondingMsg_accepts : L.checkBondingMsg s stash m msg sig = .ok (.ok ()) ↔
    L.Reaches stash m msg ∧ L.verifySig msg sig m = .ok true := by
  unfold Library.checkBondingMsg
  split
  · next h => simp [h.2]
  · rw [Except.ok.injEq]
    constructor
    · intro hr
      have hrun : (OnlineProfile.checkBondingMsg L.crypto stash m msg sig).run s = (.ok (), _) :=
        Prod.ext hr rfl
      unfold OnlineProfile.checkBondingMsg at hrun
      simp only [Call.run_ok] at hrun
      obtain ⟨hlen, hm, account, ha, rfl, hv, -⟩ := hrun
      exact ⟨⟨hlen, hm, ha⟩, of_decide_eq_true hv⟩
    · rintro ⟨⟨hlen, hm, ha⟩, hv⟩
      have ha : L.crypto.accountFromStr (msg.drop 64) = some stash := ha
      have hv : L.crypto.verifySig msg sig m = true := decide_eq_true hv
      simp [OnlineProfile.checkBondingMsg, Call.run_bind, Call.run_ensure, hlen, ← hm, ha, hv]

/-- **When bonding input does no harm.** `verify_sig` does not panic and accepts only signatures
under the key that is written, just if no slice behind numbers is cut and a text with a sign does
not spell a key the signature is valid under; and the same for `check_bonding_msg`, if also the
checksum of such an address is right. -/
theorem bonding_input_safe_iff (L : Library A) (s : State A) (stash : A) (m : MachineId)
    (msg sig account : Bytes) :
    (L.verifySig msg sig account ≠ .error .slice ∧
        (L.verifySig msg sig account = .ok true → L.Signed msg sig account) ↔
      (sig.length = 64 → isUtf8 account = true → ¬ Stuck account) ∧
        (L.ValidUnder msg sig account → byte 43 ∉ account)) ∧
    (L.checkBondingMsg s stash m msg sig ≠ .error .slice ∧
        (L.checkBondingMsg s stash m msg sig = .ok (.ok ()) →
          ∃ text, msg = m ++ text ∧ L.Ss58 text stash ∧ L.Signed msg sig m) ↔
      (L.Reaches stash m msg → (sig.length = 64 → isUtf8 m = true → ¬ Stuck m) ∧
        (L.ValidUnder msg sig m → byte 43 ∉ m ∧ L.Checked (msg.drop 64)))) := by
  constructor
  · rw [Ne, verifySig_panics, verifySig_accepts, not_and, not_and]
    exact and_congr_right fun _ => imp_congr_right signed_iff
  · rw [Ne, checkBondingMsg_panics, checkBondingMsg_accepts, verifySig_panics, verifySig_accepts,
      not_and, and_imp, ← imp_and]
    refine imp_congr_right fun hr => and_congr (by rw [not_and, not_and]) ?_
    refine imp_congr_right fun hv => ?_
    rw [← signed_iff hv, ← ss58_iff hr.2.2]
    constructor
    · rintro ⟨text, hmsg, hss, hsig⟩
      have htext : text = msg.drop 64 := by
        apply (append_right_inj m).1
        rw [← hmsg, hr.2.1, take_append_drop]
      exact ⟨hsig, htext ▸ hss⟩
    · rintro ⟨hsig, hss⟩
      exact ⟨msg.drop 64, by rw [hr.2.1, take_append_drop], hss, hsig⟩

end

end

namespace SignatureDemo

def library : Library Nat :=
  ⟨fun _ => some (List.replicate 35 (byte 0)), fun _ => some 1, fun _ => [byte 0, byte 0],
    fun _ _ _ => true⟩

def storage : State Nat := .fresh (.fresh ⟨0, .empty, none, some⟩)

/-- Sixty-four bytes of text with a character of two bytes at an odd place. -/
def cutId : MachineId := [byte 97, byte 195, byte 169] ++ List.replicate 61 (byte 97)

/-- Thirty-two times a plus sign and a digit. -/
def signedId : MachineId := (List.replicate 32 [byte 43, byte 97]).flatten

end SignatureDemo

open SignatureDemo in
/-- The first identifier panics the runtime, and so does a lone byte; the second identifier is
accepted and is not hexadecimal. -/
theorem bonding_input_panics :
    library.checkBondingMsg storage 1 cutId (cutId ++ List.replicate 48 0) (List.replicate 64 0) =
      .error .slice ∧
    library.verifySig [] (List.replicate 64 0) [byte 97] = .error .slice ∧
    library.checkBondingMsg storage 1 signedId (signedId ++ List.replicate 48 0)
      (List.replicate 64 0) = .ok (.ok ()) ∧ ∀ key, ¬ Spells twoDigits signedId key := by
  refine ⟨checkBondingMsg_panics.2 ?_, ?_, checkBondingMsg_accepts.2 ?_, fun key h => ?_⟩
  · decide +kernel
  · decide +kernel
  · decide +kernel
  · exact absurd (show byte 43 ∈ signedId by decide +kernel) (noSign_of_hex h)

end DeepBrainChain.OnlineProfile
