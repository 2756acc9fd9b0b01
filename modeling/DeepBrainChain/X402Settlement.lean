import DeepBrainChain.Lib.Balances
import DeepBrainChain.Lib.Call
import DeepBrainChain.Support.Machine
import DeepBrainChain.Lib.System

/-!
# The x402-settlement pallet

A merchant reserves an amount for a miner as a payment intent. The facilitator verifies the
intent; after a delay the amount is paid out of the reserve, unless the facilitator fails the
intent first. An intent that nobody verified expires. `settle_for_attestation` pays without an
intent.
-/

namespace DeepBrainChain.X402Settlement

open Lib Support Lib.Call

abbrev H256 := BitVec 256

inductive PaymentIntentStatus
  | pending
  | verified
  | settled
  | failed
deriving DecidableEq

structure PaymentIntent (A : Type) where
  intentId : Nat
  merchant : A
  miner : A
  amount : Nat
  nonce : Nat
  replayFingerprint : H256
  facilitatorSignature : Bytes
  status : PaymentIntentStatus
  createdAt : Nat
  verifiedAt : Option Nat
  settledAt : Option Nat
  expiresAt : Nat

structure SettlementReceipt (A : Type) where
  intentId : Nat
  merchant : A
  miner : A
  amount : Nat
  settledAt : Nat
  txHash : H256

/-- The constants of the pallet, with the encoding of a message and the signature check. -/
structure Config (A : Type) where
  facilitatorAccount : A
  maxSignatureLen : Nat
  facilitatorPublicKey : Bytes
  settlementDelay : Nat
  paymentIntentTTL : Nat
  encodeMessage : A → A → Nat → Nat → H256 → Bytes
  sr25519Verify : Bytes → Bytes → Bytes → Bool

structure State (A : Type) where
  now : Nat
  balances : Balances A
  nextIntentId : Nat
  paymentIntents : StorageMap Nat (PaymentIntent A)
  nonceUsed : StorageMap (A × Nat) Bool
  replayFingerprintUsed : StorageMap H256 Bool
  settlementReceipts : StorageMap Nat (SettlementReceipt A)
  pendingIntentIds : List Nat

inductive Error
  | invalidNonce
  | replayFingerprintUsed
  | invalidFacilitatorSignature
  | paymentIntentNotFound
  | invalidPaymentIntentStatus
  | insufficientBalance
  | settlementDelayNotMet
  | notAuthorized
  | arithmeticOverflow
  | paymentIntentExpired
  | tooManyPendingIntents

/-- The bound of `PendingIntentIds`. -/
def maxPending : Nat := 10000

variable {A : Type} [DecidableEq A]

omit [DecidableEq A] in
def State.fresh (now : Nat) (balances : Balances A) : State A :=
  ⟨now, balances, 0, ∅, ∅, ∅, ∅, []⟩

namespace State

section

omit [DecidableEq A]

def putIntent (s : State A) (id : Nat) (i : PaymentIntent A) : State A :=
  { s with paymentIntents := s.paymentIntents.insert id i }

def putReceipt (s : State A) (id : Nat) (merchant miner : A) (amount : Nat) : State A :=
  { s with
    settlementReceipts := s.settlementReceipts.insert id
      ⟨id, merchant, miner, amount, s.now, BitVec.ofNat 256 id⟩ }

/-- `ids.retain(|id| *id != intent_id)`. -/
def dropPending (s : State A) (id : Nat) : State A :=
  { s with pendingIntentIds := s.pendingIntentIds.filter (· ≠ id) }

def setBalances (s : State A) (b : Balances A) : State A := { s with balances := b }

end

end State

namespace PaymentIntent

section

omit [DecidableEq A]

def verify (i : PaymentIntent A) (now : Nat) : PaymentIntent A :=
  { i with status := .verified, verifiedAt := some now }

def settle (i : PaymentIntent A) (now : Nat) : PaymentIntent A :=
  { i with status := .settled, settledAt := some now }

def fail (i : PaymentIntent A) : PaymentIntent A := { i with status := .failed }

end

end PaymentIntent

/-! ## Calls -/

section

omit [DecidableEq A]

def Config.verifyFacilitatorSignature (cfg : Config A) (merchant miner : A) (amount nonce : Nat)
    (fingerprint : H256) (signature : Bytes) : Bool :=
  signature.length = 64 &&
    cfg.sr25519Verify signature (cfg.encodeMessage merchant miner amount nonce fingerprint)
      cfg.facilitatorPublicKey

def PaymentIntent.new (cfg : Config A) (id now : Nat) (merchant miner : A) (amount nonce : Nat)
    (fingerprint : H256) (signature : Bytes) : PaymentIntent A where
  intentId := id
  merchant := merchant
  miner := miner
  amount := amount
  nonce := nonce
  replayFingerprint := fingerprint
  facilitatorSignature := signature
  status := .pending
  createdAt := now
  verifiedAt := none
  settledAt := none
  expiresAt := saturatingAdd u32Max now cfg.paymentIntentTTL

end

def State.openIntent (s : State A) (b : Balances A) (i : PaymentIntent A) : State A :=
  { s with
    balances := b
    nextIntentId := s.nextIntentId + 1
    nonceUsed := s.nonceUsed.insert (i.merchant, i.nonce) true
    replayFingerprintUsed := s.replayFingerprintUsed.insert i.replayFingerprint true
    pendingIntentIds := s.pendingIntentIds ++ [s.nextIntentId]
    paymentIntents := s.paymentIntents.insert s.nextIntentId i }

def submitPaymentIntent (cfg : Config A) (merchant miner : A) (amount nonce : Nat)
    (fingerprint : H256) (signature : Bytes) : Call (State A) Error Unit := do
  let s ← get
  ensure (¬ s.nonceUsed.contains (merchant, nonce)) .invalidNonce
  ensure (¬ s.replayFingerprintUsed.contains fingerprint) .replayFingerprintUsed
  ensure (signature.length ≤ cfg.maxSignatureLen) .arithmeticOverflow
  ensure (cfg.verifyFacilitatorSignature merchant miner amount nonce fingerprint signature)
    .invalidFacilitatorSignature
  let b ← okOr (s.balances.reserve merchant amount) .insufficientBalance
  ensure (s.nextIntentId < u64Max) .arithmeticOverflow
  ensure (s.pendingIntentIds.length < maxPending) .tooManyPendingIntents
  set (s.openIntent b (.new cfg s.nextIntentId s.now merchant miner amount nonce fingerprint
    signature))

def verifySettlement (cfg : Config A) (caller : A) (id : Nat) : Call (State A) Error Unit := do
  ensure (caller = cfg.facilitatorAccount) .notAuthorized
  let s ← get
  let i ← okOr (s.paymentIntents.get id) .paymentIntentNotFound
  ensure (i.status = .pending) .invalidPaymentIntentStatus
  ensure (s.now < i.expiresAt) .paymentIntentExpired
  set ((s.dropPending id).putIntent id (i.verify s.now))

/-- `finalize_settlement`. What the repatriation leaves in the reserve is not looked at. -/
def finalizeSettlement (cfg : Config A) (caller : A) (id : Nat) : Call (State A) Error Unit := do
  let s ← get
  let i ← okOr (s.paymentIntents.get id) .paymentIntentNotFound
  ensure (i.status = .verified) .invalidPaymentIntentStatus
  ensure (s.now < i.expiresAt) .paymentIntentExpired
  ensure (caller = i.merchant ∨ caller = i.miner ∨ caller = cfg.facilitatorAccount)
    .notAuthorized
  let verifiedAt ← okOr i.verifiedAt .invalidPaymentIntentStatus
  ensure (saturatingAdd u32Max verifiedAt cfg.settlementDelay ≤ s.now) .settlementDelayNotMet
  let r ← okOr (s.balances.repatriateReserved i.merchant i.miner i.amount)
    .insufficientBalance
  set (((s.setBalances r.1).putIntent id (i.settle s.now)).putReceipt id i.merchant i.miner
    i.amount)

def failPaymentIntent (cfg : Config A) (caller : A) (id : Nat) : Call (State A) Error Unit := do
  ensure (caller = cfg.facilitatorAccount) .notAuthorized
  let s ← get
  let i ← okOr (s.paymentIntents.get id) .paymentIntentNotFound
  ensure (i.status = .pending ∨ i.status = .verified) .invalidPaymentIntentStatus
  set (((s.setBalances (s.balances.unreserve i.merchant i.amount).1).dropPending id).putIntent
    id i.fail)

/-- `settle_for_attestation`: the identifier is used up even if the transfer fails. -/
def settleForAttestation (merchant miner : A) (amount : Nat) : Call (State A) Unit Nat := do
  let s ← get
  let id := s.nextIntentId
  ensure (id < u64Max) ()
  set { s with nextIntentId := id + 1 }
  let b ← okOr (s.balances.transfer merchant miner amount) ()
  modify fun s => (s.setBalances b).putReceipt id merchant miner amount
  pure id

/-! ## The hook -/

/-- One round of the loop of `on_initialize`: the storage, and the identifiers that expired. -/
def expireOne (r : State A × List Nat) (id : Nat) : State A × List Nat :=
  match r.1.paymentIntents.get id with
  | none => r
  | some i =>
    if i.expiresAt ≤ r.1.now ∧ i.status = .pending then
      ((r.1.setBalances (r.1.balances.unreserve i.merchant i.amount).1).putIntent id
        i.fail, r.2 ++ [id])
    else r

def State.onInitialize (s : State A) : State A :=
  let r := s.pendingIntentIds.foldl expireOne (s, [])
  { r.1 with pendingIntentIds := r.1.pendingIntentIds.filter (· ∉ r.2) }

/-! # What the calls do to the intents

`Inv` ties the reserves and the list of pending identifiers to the intents. `Moved s s'` is what a
step of the pallet does: an intent keeps its terms, its status follows `Next`, and the free
balances change by exactly what was opened, given back and paid out. -/

open StorageMap Balances Option List

variable {A : Type} [DecidableEq A]

namespace PaymentIntentStatus

def isOpen : PaymentIntentStatus → Bool
  | pending | verified => true
  | settled | failed => false

def Next : PaymentIntentStatus → PaymentIntentStatus → Prop
  | pending, x => x ≠ settled
  | verified, x => x ≠ pending
  | settled, x => x = settled
  | failed, x => x = failed

theorem Next.refl (x : PaymentIntentStatus) : Next x x := by
  cases x <;> simp [Next]

end PaymentIntentStatus

def held (p : StorageMap Nat (PaymentIntent A)) (u : A) : Nat :=
  p.sum fun _ i => if i.merchant = u ∧ i.status.isOpen = true then i.amount else 0

/-- What the intents that got the status `st` between `p₀` and `p` add up to, for the account
`who` picks. -/
def entered (st : PaymentIntentStatus) (who : PaymentIntent A → A)
    (p₀ p : StorageMap Nat (PaymentIntent A)) (u : A) : Nat :=
  p.sum fun id i => if who i = u ∧ i.status = st ∧
    ((p₀.get id).map PaymentIntent.status).any (· ≠ st) = true then i.amount else 0

/-- What the intents opened between `p₀` and `p` add up to. -/
def opened (p₀ p : StorageMap Nat (PaymentIntent A)) (u : A) : Nat :=
  p.sum fun id i => if i.merchant = u ∧ (p₀.get id).isNone = true then i.amount else 0

/-- The reserves are the amounts of the open intents, and the pending list holds exactly the pending
ones. -/
structure Inv (s : State A) : Prop where
  issuance : s.balances.issuance ≤ u128Max
  fresh : ∀ {id i}, s.paymentIntents.get id = some i → id < s.nextIntentId
  backed : ∀ u, s.balances.reserved u = held s.paymentIntents u
  nodup : s.pendingIntentIds.Nodup
  listed : ∀ id, id ∈ s.pendingIntentIds ↔
    ∃ i, s.paymentIntents.get id = some i ∧ i.status = .pending

/-- An intent after a step: the same terms, and a later status. -/
structure Follows (i i' : PaymentIntent A) : Prop where
  merchant : i'.merchant = i.merchant
  miner : i'.miner = i.miner
  amount : i'.amount = i.amount
  expiresAt : i'.expiresAt = i.expiresAt
  status : i.status.Next i'.status

/-- **What a step of the pallet moves.** -/
structure Moved (s s' : State A) : Prop where
  intents : ∀ id i, s.paymentIntents.get id = some i →
    ∃ i', s'.paymentIntents.get id = some i' ∧ Follows i i'
  fresh : ∀ id i', s'.paymentIntents.get id = some i' → s.paymentIntents.get id = none →
    i'.status = .pending
  free : ∀ u, s'.balances.free u + opened s.paymentIntents s'.paymentIntents u =
    s.balances.free u +
      entered .failed PaymentIntent.merchant s.paymentIntents s'.paymentIntents u +
      entered .settled PaymentIntent.miner s.paymentIntents s'.paymentIntents u

section Sums

variable {p₀ p : StorageMap Nat (PaymentIntent A)} {id : Nat}
  {i0 i k : PaymentIntent A}

omit [DecidableEq A] in
theorem Follows.refl (i : PaymentIntent A) : Follows i i :=
  ⟨rfl, rfl, rfl, rfl, .refl _⟩

theorem entered_self (st : PaymentIntentStatus) (who : PaymentIntent A → A)
    (p : StorageMap Nat (PaymentIntent A)) (u : A) : entered st who p p u = 0 := by
  refine sum_eq_zero fun id i hi => ?_
  rw [if_neg]
  rintro ⟨-, hst, hany⟩
  rw [hi] at hany
  simp [hst] at hany

theorem opened_self (p : StorageMap Nat (PaymentIntent A)) (u : A) : opened p p u = 0 := by
  refine sum_eq_zero fun id i hi => ?_
  rw [if_neg]
  rintro ⟨-, hnone⟩
  rw [hi] at hnone
  cases hnone

variable {st : PaymentIntentStatus}

/-- Writing an intent that keeps its status away from `st` enters nothing. -/
theorem entered_insert_other (who : PaymentIntent A → A) (hi : p.get id = some i)
    (hst : i.status ≠ st) (hst' : k.status ≠ st) (u : A) :
    entered st who p₀ (p.insert id k) u = entered st who p₀ p u := by
  refine sum_insert_same _ hi ?_
  simp only [hst, hst', false_and, and_false, if_false]

/-- An intent that was there before enters `st`. -/
theorem entered_insert (who : PaymentIntent A → A) (hi : p.get id = some i)
    (hi0 : p₀.get id = some i0) (hst0 : i0.status ≠ st) (hst : i.status ≠ st) (hst' : k.status = st)
    (u : A) :
    entered st who p₀ (p.insert id k) u =
      entered st who p₀ p u + if who k = u then k.amount else 0 := by
  have hsum := sum_insert_of_some (fun id i => if who i = u ∧ i.status = st ∧
    ((p₀.get id).map PaymentIntent.status).any (· ≠ st) = true then i.amount else 0) k hi
  simp only [hst0, hst, hst', hi0, map_some, any_some, ne_eq, not_false_eq_true,
    decide_true, and_true, and_false, if_false, Nat.add_zero] at hsum
  exact hsum

theorem opened_insert (hi : p.get id = some i) (hi0 : p₀.get id = some i0) (u : A) :
    opened p₀ (p.insert id k) u = opened p₀ p u := by
  refine sum_insert_same _ hi ?_
  simp only [hi0, isNone_some, Bool.false_eq_true, and_false, if_false]

theorem entered_insert_new (st : PaymentIntentStatus) (who : PaymentIntent A → A)
    (hnone : p.get id = none) (u : A) : entered st who p (p.insert id i) u = 0 := by
  refine (sum_insert_of_none _ i hnone).trans ?_
  simp only [hnone, map_none, any_none, Bool.false_eq_true, and_false, if_false,
    Nat.zero_add]
  exact entered_self st who p u

theorem opened_insert_new (hnone : p.get id = none) (u : A) :
    opened p (p.insert id i) u = if i.merchant = u then i.amount else 0 := by
  refine (sum_insert_of_none _ i hnone).trans ?_
  simp only [hnone, isNone_none, and_true]
  exact congrArg (_ + ·) (opened_self p u)

theorem held_insert_new (hnone : p.get id = none) (ho : i.status.isOpen = true) (u : A) :
    held (p.insert id i) u = held p u + if i.merchant = u then i.amount else 0 := by
  refine (sum_insert_of_none _ i hnone).trans ?_
  simp only [ho, and_true]
  exact Nat.add_comm ..

theorem held_insert_open (hi : p.get id = some i) (hm : k.merchant = i.merchant)
    (ha : k.amount = i.amount) (ho : k.status.isOpen = i.status.isOpen) (u : A) :
    held (p.insert id k) u = held p u := by
  refine sum_insert_same _ hi ?_
  rw [hm, ha, ho]

theorem held_insert_closed (hi : p.get id = some i) (ho : i.status.isOpen = true)
    (hc : k.status.isOpen = false) (u : A) :
    held (p.insert id k) u = held p u - if i.merchant = u then i.amount else 0 := by
  have hsum := sum_insert_of_some (fun (_ : Nat) i => if i.merchant = u ∧
    i.status.isOpen = true then i.amount else 0) k hi
  simp only [ho, hc, and_true, Bool.false_eq_true, and_false, if_false, Nat.add_zero] at hsum
  unfold held
  omega

theorem le_held (hi : p.get id = some i) (ho : i.status.isOpen = true) :
    i.amount ≤ held p i.merchant := by
  have hle := le_sum (fun (_ : Nat) (j : PaymentIntent A) =>
    if j.merchant = i.merchant ∧ j.status.isOpen = true then j.amount else 0) hi
  rw [if_pos ⟨rfl, ho⟩] at hle
  exact hle

end Sums

/-! ## Closing an intent -/

section Close

variable {s s' : State A} {id : Nat} {i k : PaymentIntent A}

section

omit [DecidableEq A]

theorem Follows.get (hi : s.paymentIntents.get id = some i) (hf : Follows i k)
    (hp : s'.paymentIntents = s.paymentIntents.insert id k) (j : Nat) (x : PaymentIntent A)
    (hx : s.paymentIntents.get j = some x) :
    ∃ x', s'.paymentIntents.get j = some x' ∧ Follows x x' := by
  rw [hp, get_insert]
  split
  · next hj =>
    subst hj
    rw [hi] at hx
    cases hx
    exact ⟨k, rfl, hf⟩
  · exact ⟨x, hx, .refl x⟩

theorem get_none_of_insert (hi : s.paymentIntents.get id = some i)
    (hp : s'.paymentIntents = s.paymentIntents.insert id k) (j : Nat) (x : PaymentIntent A)
    (hx : s'.paymentIntents.get j = some x) (hnone : s.paymentIntents.get j = none) :
    x.status = .pending := by
  rw [hp, get_insert] at hx
  split at hx
  · next hj =>
    rw [hj, hi] at hnone
    cases hnone
  · rw [hnone] at hx
    cases hx

end

theorem Inv.covered (h : Inv s) (hi : s.paymentIntents.get id = some i)
    (ho : i.status.isOpen = true) : i.amount ≤ s.balances.reserved i.merchant := by
  rw [h.backed]
  exact le_held hi ho

theorem Inv.listed_drop (h : Inv s) (hi' : k.status ≠ .pending) (j : Nat) :
    j ∈ s.pendingIntentIds.filter (· ≠ id) ↔
      ∃ x, (s.paymentIntents.insert id k).get j = some x ∧ x.status = .pending := by
  rw [mem_filter, h.listed, get_insert]
  by_cases hj : j = id
  · subst hj
    simp [hi']
  · simp [hj]

theorem Inv.close (h : Inv s) (hi : s.paymentIntents.get id = some i)
    (ho : i.status.isOpen = true) (hc : k.status.isOpen = false)
    (hiss : s'.balances.issuance ≤ u128Max)
    (hb : ∀ u, s'.balances.reserved u =
      s.balances.reserved u - if u = i.merchant then i.amount else 0)
    (hp : s'.paymentIntents = s.paymentIntents.insert id k)
    (hn : s'.nextIntentId = s.nextIntentId)
    (hd : s'.pendingIntentIds = s.pendingIntentIds.filter (· ≠ id)) : Inv s' := by
  have hnot : k.status ≠ .pending := by
    intro he
    rw [he] at hc
    cases hc
  refine ⟨hiss, ?_, fun u => ?_, ?_, fun j => ?_⟩
  · intro j x hx
    rw [hn]
    rw [hp, get_insert] at hx
    split at hx
    · next hj => exact hj ▸ h.fresh hi
    · exact h.fresh hx
  · rw [hb, hp, held_insert_closed hi ho hc, h.backed]
    simp only [eq_comm]
  · rw [hd]
    exact h.nodup.filter _
  · rw [hd, hp]
    exact h.listed_drop hnot j

end Close

/-! ## Calls -/

section Calls

variable {cfg : Config A} {s s' : State A} {caller merchant miner : A} {id amount nonce : Nat}
  {fingerprint : H256} {signature : Bytes} {u : Unit}

theorem submitPaymentIntent_ok
    (h : (submitPaymentIntent cfg merchant miner amount nonce fingerprint signature).run s =
      (.ok u, s')) :
    ∃ b, s.balances.reserve merchant amount = some b ∧ s' = s.openIntent b
      (.new cfg s.nextIntentId s.now merchant miner amount nonce fingerprint signature) := by
  unfold submitPaymentIntent at h
  simp only [run_ok] at h
  obtain ⟨-, -, -, -, b, hb, -, -, rfl⟩ := h
  exact ⟨b, hb, rfl⟩

theorem verifySettlement_ok (h : (verifySettlement cfg caller id).run s = (.ok u, s')) :
    ∃ i, s.paymentIntents.get id = some i ∧ i.status = .pending ∧
      s' = (s.dropPending id).putIntent id (i.verify s.now) := by
  unfold verifySettlement at h
  simp only [run_ok] at h
  obtain ⟨-, i, hi, hst, -, rfl⟩ := h
  exact ⟨i, hi, hst, rfl⟩

theorem finalizeSettlement_ok (h : (finalizeSettlement cfg caller id).run s = (.ok u, s')) :
    ∃ i b rest, s.paymentIntents.get id = some i ∧ i.status = .verified ∧
      s.balances.repatriateReserved i.merchant i.miner i.amount = some (b, rest) ∧
      s' = ((s.setBalances b).putIntent id (i.settle s.now)).putReceipt id i.merchant i.miner
        i.amount := by
  unfold finalizeSettlement at h
  simp only [run_ok] at h
  obtain ⟨i, hi, hst, -, -, t, -, -, r, hr, rfl⟩ := h
  exact ⟨i, r.1, r.2, hi, hst, hr, rfl⟩

theorem failPaymentIntent_ok (h : (failPaymentIntent cfg caller id).run s = (.ok u, s')) :
    ∃ i, s.paymentIntents.get id = some i ∧ (i.status = .pending ∨ i.status = .verified) ∧
      s' = ((s.setBalances (s.balances.unreserve i.merchant i.amount).1).dropPending id).putIntent
        id i.fail := by
  unfold failPaymentIntent at h
  simp only [run_ok] at h
  obtain ⟨-, i, hi, hst, rfl⟩ := h
  exact ⟨i, hi, hst, rfl⟩

theorem Inv.next_none (h : Inv s) : s.paymentIntents.get s.nextIntentId = none := by
  cases hg : s.paymentIntents.get s.nextIntentId with
  | none => rfl
  | some i => exact absurd (h.fresh hg) (Nat.lt_irrefl _)

variable {b : Balances A} {i : PaymentIntent A}

theorem openIntent_step (h : Inv s) (hb : s.balances.reserve i.merchant i.amount = some b)
    (hst : i.status = .pending) : Inv (s.openIntent b i) ∧ Moved s (s.openIntent b i) := by
  obtain ⟨hres, hfree, hle⟩ := reserve_eq_some hb
  have hnone := h.next_none
  have hopen : i.status.isOpen = true := by
    rw [hst]
    rfl
  refine ⟨⟨?_, ?_, fun u => ?_, ?_, fun j => ?_⟩, ?_, ?_, fun u => ?_⟩
  · show b.issuance ≤ u128Max
    rw [reserve_issuance hb]
    exact h.issuance
  · intro j x hx
    rw [State.openIntent, get_insert] at hx
    split at hx
    · next hj =>
      rw [hj]
      exact Nat.lt_succ_self _
    · exact (h.fresh hx).trans (Nat.lt_succ_self _)
  · show b.reserved u = held (s.paymentIntents.insert s.nextIntentId i) u
    rw [hres, held_insert_new hnone hopen, h.backed]
    simp only [eq_comm]
  · have hnew : s.nextIntentId ∉ s.pendingIntentIds := by
      rw [h.listed]
      rintro ⟨x, hx, -⟩
      rw [hnone] at hx
      cases hx
    refine nodup_append.2 ⟨h.nodup, nodup_singleton _, ?_⟩
    rintro x hx y hy rfl
    exact hnew (mem_singleton.1 hy ▸ hx)
  · rw [State.openIntent, mem_append, mem_singleton, h.listed, get_insert]
    by_cases hj : j = s.nextIntentId
    · subst hj
      simp [hnone, hst]
    · simp [hj]
  · intro j x hx
    refine ⟨x, ?_, .refl x⟩
    rw [State.openIntent, get_insert, if_neg, hx]
    rintro rfl
    rw [hnone] at hx
    cases hx
  · intro j x hx hj
    rw [State.openIntent, get_insert] at hx
    split at hx
    · cases hx
      exact hst
    · rw [hj] at hx
      cases hx
  · show b.free u + opened s.paymentIntents (s.paymentIntents.insert s.nextIntentId i) u =
      s.balances.free u +
          entered _ _ s.paymentIntents (s.paymentIntents.insert s.nextIntentId i) u +
        entered _ _ s.paymentIntents (s.paymentIntents.insert s.nextIntentId i) u
    rw [opened_insert_new hnone, entered_insert_new _ _ hnone, entered_insert_new _ _ hnone, hfree]
    by_cases hu : u = i.merchant
    · subst hu
      simp only [if_true]
      omega
    · rw [if_neg hu, if_neg (Ne.symm hu)]
      omega

theorem verifySettlement_step (h : Inv s) (hi : s.paymentIntents.get id = some i)
    (hst : i.status = .pending) (now : Nat) :
    Inv ((s.dropPending id).putIntent id (i.verify now)) ∧
      Moved s ((s.dropPending id).putIntent id (i.verify now)) := by
  have hopen : (i.verify now).status.isOpen = i.status.isOpen := by
    rw [hst]
    rfl
  refine ⟨⟨h.issuance, ?_, fun u => ?_, h.nodup.filter _, fun j => ?_⟩, ?_,
    get_none_of_insert hi rfl, fun u => ?_⟩
  · intro j x hx
    rw [State.putIntent, get_insert] at hx
    split at hx
    · next hj =>
      subst hj
      exact h.fresh hi
    · exact h.fresh hx
  · exact (h.backed u).trans (held_insert_open (k := i.verify now) hi rfl rfl hopen u).symm
  · exact h.listed_drop (by simp [PaymentIntent.verify]) j
  · refine Follows.get (k := i.verify now) hi ⟨rfl, rfl, rfl, rfl, ?_⟩ rfl
    rw [hst]
    simp [PaymentIntentStatus.Next, PaymentIntent.verify]
  · simp only [State.putIntent, State.dropPending]
    rw [opened_insert hi hi, entered_insert_other _ hi (by simp [hst])
      (by simp [PaymentIntent.verify]),
      entered_insert_other _ hi (by simp [hst]) (by simp [PaymentIntent.verify]), opened_self,
      entered_self, entered_self]

theorem finalizeSettlement_step (h : Inv s) {rest : Nat} (hi : s.paymentIntents.get id = some i)
    (hst : i.status = .verified) (now : Nat)
    (hb : s.balances.repatriateReserved i.merchant i.miner i.amount = some (b, rest)) :
    Inv (((s.setBalances b).putIntent id (i.settle now)).putReceipt id i.merchant i.miner
        i.amount) ∧
      Moved s (((s.setBalances b).putIntent id (i.settle now)).putReceipt id i.merchant i.miner
        i.amount) := by
  have hopen : i.status.isOpen = true := by
    rw [hst]
    rfl
  have hne : i.status ≠ .settled := by simp [hst]
  have hcov := h.covered hi hopen
  have hfree := repatriateReserved_free h.issuance hcov hb
  obtain ⟨-, hres⟩ := repatriateReserved_eq_some hb
  have hkeep : s.pendingIntentIds = s.pendingIntentIds.filter (· ≠ id) := by
    refine (filter_eq_self.2 fun j hj => ?_).symm
    obtain ⟨x, hx, hpend⟩ := (h.listed j).1 hj
    refine decide_eq_true fun he => ?_
    rw [he, hi] at hx
    cases hx
    rw [hst] at hpend
    cases hpend
  refine ⟨h.close (k := i.settle now) hi hopen rfl ?_ (fun u => hres u) rfl rfl hkeep, ?_,
    get_none_of_insert hi rfl, fun u => ?_⟩
  · show b.issuance ≤ u128Max
    rw [repatriateReserved_issuance h.issuance hb]
    exact h.issuance
  · refine Follows.get (k := i.settle now) hi ⟨rfl, rfl, rfl, rfl, ?_⟩ rfl
    rw [hst]
    simp [PaymentIntentStatus.Next, PaymentIntent.settle]
  · simp only [State.putReceipt, State.putIntent, State.setBalances]
    rw [opened_insert hi hi,
      entered_insert_other _ hi (by simp [hst]) (by simp [PaymentIntent.settle]),
      entered_insert _ hi hi hne hne rfl, opened_self, entered_self,
      entered_self, hfree]
    simp only [Nat.add_zero, Nat.zero_add, PaymentIntent.settle, eq_comm]

theorem Moved.refl (s : State A) : Moved s s := by
  refine ⟨fun id i hi => ⟨i, hi, .refl i⟩, fun id i hi hnone => ?_, fun u => ?_⟩
  · rw [hnone] at hi
    cases hi
  · rw [opened_self, entered_self, entered_self]

omit [DecidableEq A] in
theorem isOpen_iff {x : PaymentIntentStatus} : x.isOpen = true ↔ x = .pending ∨ x = .verified := by
  cases x <;> simp [PaymentIntentStatus.isOpen]

/-- The storage after an open intent was given back. -/
def State.failed (s : State A) (id : Nat) (i : PaymentIntent A) : State A :=
  ((s.setBalances (s.balances.unreserve i.merchant i.amount).1).dropPending id).putIntent id i.fail

/-- An open intent is given back. It was open since `s0`, so that a whole loop of these is one
move from `s0`. -/
theorem failed_step {s0 : State A} {i0 : PaymentIntent A} (h : Inv s) (hm : Moved s0 s)
    (hi0 : s0.paymentIntents.get id = some i0) (ho0 : i0.status.isOpen = true)
    (hi : s.paymentIntents.get id = some i) (ho : i.status.isOpen = true) :
    Inv (s.failed id i) ∧ Moved s0 (s.failed id i) := by
  have hne : ∀ {x : PaymentIntentStatus}, x.isOpen = true → x ≠ .failed ∧ x ≠ .settled := by
    intro x hx
    rcases isOpen_iff.1 hx with rfl | rfl <;> simp
  have hnext : ∀ {x : PaymentIntentStatus}, x.isOpen = true → x.Next .failed := by
    intro x hx
    rcases isOpen_iff.1 hx with rfl | rfl <;> simp [PaymentIntentStatus.Next]
  have hcov := h.covered hi ho
  refine ⟨h.close (k := i.fail) hi ho rfl ?_ (fun u => ?_) rfl rfl rfl, ?_, ?_, fun u => ?_⟩
  · show (s.balances.unreserve i.merchant i.amount).1.issuance ≤ u128Max
    rw [unreserve_issuance _ _ _ h.issuance]
    exact h.issuance
  · exact unreserve_reserved ..
  · intro j x hx
    obtain ⟨y, hy, hxy⟩ := hm.intents j x hx
    show ∃ z, (s.paymentIntents.insert id i.fail).get j = some z ∧ Follows x z
    rw [get_insert]
    split
    · next hj =>
      subst hj
      rw [hi0] at hx
      rw [hi] at hy
      cases hx
      cases hy
      exact ⟨_, rfl, hxy.merchant, hxy.miner, hxy.amount, hxy.expiresAt, hnext ho0⟩
    · exact ⟨y, hy, hxy⟩
  · intro j x hx hj
    change (s.paymentIntents.insert id i.fail).get j = some x at hx
    rw [get_insert, if_neg] at hx
    · exact hm.fresh j x hx hj
    · rintro rfl
      rw [hi0] at hj
      cases hj
  · have hfree := hm.free u
    simp only [State.failed, State.putIntent, State.dropPending, State.setBalances]
    rw [opened_insert hi hi0, entered_insert _ hi hi0 (hne ho0).1 (hne ho).1 rfl,
      entered_insert_other _ hi (hne ho).2 (by simp [PaymentIntent.fail]),
      unreserve_free h.issuance hcov]
    show _ = _ + (_ + if i.merchant = u then i.amount else 0) + _
    by_cases hu : u = i.merchant
    · rw [if_pos hu, if_pos hu.symm]
      omega
    · rw [if_neg hu, if_neg (Ne.symm hu)]
      omega

end Calls

/-! ## The hook -/

section Hook

variable {s : State A} {r : State A × List Nat}

/-- The storage once the expired identifiers are taken off the list. -/
def swept (r : State A × List Nat) : State A :=
  { r.1 with pendingIntentIds := r.1.pendingIntentIds.filter (· ∉ r.2) }

/-- The loop of the hook, begun in `s`, after the identifiers of `done`. -/
structure Expiring (s : State A) (done : List Nat) (r : State A × List Nat) : Prop where
  inv : Inv (swept r)
  moved : Moved s (swept r)
  now : r.1.now = s.now
  ids : r.1.pendingIntentIds = s.pendingIntentIds
  due : ∀ id ∈ done, ∀ i, r.1.paymentIntents.get id = some i → i.status = .pending →
    s.now < i.expiresAt
  verified : ∀ id i, r.1.paymentIntents.get id = some i → i.status = .verified →
    s.paymentIntents.get id = some i

theorem Expiring.start (h : Inv s) : Expiring s [] (s, []) := by
  have hs : swept (s, []) = s := by simp [swept]
  refine ⟨?_, ?_, rfl, rfl, by simp, fun _ _ hi _ => hi⟩ <;> rw [hs]
  · exact h
  · exact .refl s

theorem Expiring.round {done : List Nat} (h : Inv s) (hr : Expiring s done r) {id : Nat}
    (hid : id ∈ s.pendingIntentIds) : Expiring s (done ++ [id]) (expireOne r id) := by
  obtain ⟨i0, hi0, hst0⟩ := (h.listed id).1 hid
  obtain ⟨i, hi, -⟩ := hr.moved.intents id i0 hi0
  change r.1.paymentIntents.get id = some i at hi
  simp only [expireOne, hi]
  split
  · next hexp =>
    -- one more intent is given back
    have hstep := failed_step hr.inv hr.moved hi0 (by rw [hst0]; rfl) hi (by rw [hexp.2]; rfl)
    have hswept : swept ((r.1.setBalances (r.1.balances.unreserve i.merchant i.amount).1).putIntent
        id i.fail, r.2 ++ [id]) = (swept r).failed id i := by
      simp only [swept, State.failed, State.putIntent, State.setBalances, State.dropPending,
        List.filter_filter, State.mk.injEq, true_and]
      refine filter_congr fun j _ => ?_
      simp [not_or, and_comm]
    refine ⟨hswept ▸ hstep.1, hswept ▸ hstep.2, hr.now, hr.ids, ?_, ?_⟩
    · intro j hj x hx hst
      change (r.1.paymentIntents.insert id i.fail).get j = some x at hx
      rw [get_insert] at hx
      split at hx
      · cases hx
        cases hst
      · next hne =>
        rcases mem_append.1 hj with hj | hj
        · exact hr.due j hj x hx hst
        · exact absurd (mem_singleton.1 hj) hne
    · intro j x hx hst
      change (r.1.paymentIntents.insert id i.fail).get j = some x at hx
      rw [get_insert] at hx
      split at hx
      · cases hx
        cases hst
      · exact hr.verified j x hx hst
  · next hexp =>
    refine ⟨hr.inv, hr.moved, hr.now, hr.ids, ?_, hr.verified⟩
    intro j hj x hx hst
    rcases mem_append.1 hj with hj | hj
    · exact hr.due j hj x hx hst
    · rw [mem_singleton.1 hj, hi] at hx
      cases hx
      rw [← hr.now]
      exact Nat.lt_of_not_le fun hle => hexp ⟨hle, hst⟩

theorem Expiring.rounds (h : Inv s) : ∀ {todo done : List Nat} {r : State A × List Nat},
    Expiring s done r → (∀ id ∈ todo, id ∈ s.pendingIntentIds) →
      Expiring s (done ++ todo) (todo.foldl expireOne r)
  | [], done, r, hr, _ => by simpa using hr
  | id :: todo, done, r, hr, hin => by
    have hround := hr.round h (hin id (mem_cons_self ..))
    have hrest := Expiring.rounds h hround fun j hj => hin j (mem_cons_of_mem _ hj)
    simpa using hrest

/-- **What the hook does**: it gives back every pending intent at its deadline, and touches no
other. -/
theorem onInitialize_expiring (h : Inv s) :
    ∃ r, s.onInitialize = swept r ∧ Expiring s s.pendingIntentIds r := by
  refine ⟨_, rfl, ?_⟩
  simpa using (Expiring.start h).rounds h fun id hid => hid

end Hook

/-! # Runs of x402-settlement

Any sequence of extrinsics, blocks, attestations and foreign transfers that leave the reserves
alone. An intent that was verified is not expired by the hook: it stays open past its deadline until
the facilitator fails it. -/

variable {A : Type} [DecidableEq A]

inductive Op (A : Type)
  | submitPaymentIntent (merchant miner : A) (amount nonce : Nat) (fingerprint : H256)
      (signature : Bytes)
  | verifySettlement (caller : A) (id : Nat)
  | finalizeSettlement (caller : A) (id : Nat)
  | failPaymentIntent (caller : A) (id : Nat)
  | settleForAttestation (merchant miner : A) (amount : Nat)
  | nextBlock
  | external (balances : Balances A)

/-- Nobody else touches the reserves. -/
def Op.Possible (s : State A) : Op A → Prop
  | .external b => (∀ u, b.reserved u = s.balances.reserved u) ∧ b.issuance ≤ u128Max
  | _ => True

omit [DecidableEq A] in
def State.tick (s : State A) : State A := { s with now := s.now + 1 }

/-- The state after an operation. The attestation pallet drops the error of the trait call, so
that a failed payment still uses up its identifier. -/
def apply (cfg : Config A) (s : State A) : Op A → State A
  | .submitPaymentIntent merchant miner amount nonce fingerprint signature =>
    ((submitPaymentIntent cfg merchant miner amount nonce fingerprint signature).dispatch s).2
  | .verifySettlement caller id => ((verifySettlement cfg caller id).dispatch s).2
  | .finalizeSettlement caller id => ((finalizeSettlement cfg caller id).dispatch s).2
  | .failPaymentIntent caller id => ((failPaymentIntent cfg caller id).dispatch s).2
  | .settleForAttestation merchant miner amount =>
    ((settleForAttestation merchant miner amount).run s).2
  | .nextBlock => s.tick.onInitialize
  | .external b => s.setBalances b

def system (cfg : Config A) : System (State A) (Op A) where
  init s := ∃ now b, s = State.fresh now b ∧ (∀ u, b.reserved u = 0) ∧ b.issuance ≤ u128Max
  step s op s' := op.Possible s ∧ s' = apply cfg s op

/-- What a step does to the intents and to the free balances. A payment without an intent and a
foreign transfer leave the intents as they are. -/
def Accounted (s : State A) (op : Op A) (s' : State A) : Prop :=
  match op with
  | .settleForAttestation .. | .external _ => s'.paymentIntents = s.paymentIntents
  | _ => Moved s s'

section Steps

variable {cfg : Config A} {s s' : State A}

theorem fresh_inv (now : Nat) {b : Balances A} (hres : ∀ u, b.reserved u = 0)
    (hb : b.issuance ≤ u128Max) : Inv (State.fresh now b) where
  issuance := hb
  fresh := fun hi => by simp [State.fresh] at hi
  backed := fun u => by simp [State.fresh, held, hres u]
  nodup := List.nodup_nil
  listed := fun id => by simp [State.fresh]

theorem Inv.setBalances (h : Inv s) {b : Balances A}
    (hres : ∀ u, b.reserved u = s.balances.reserved u) (hb : b.issuance ≤ u128Max) :
    Inv (s.setBalances b) :=
  ⟨hb, h.fresh, fun u => (hres u).trans (h.backed u), h.nodup, h.listed⟩

theorem Inv.bump (h : Inv s) : Inv { s with nextIntentId := s.nextIntentId + 1 } :=
  ⟨h.issuance, fun hi => (h.fresh hi).trans (Nat.lt_succ_self _), h.backed, h.nodup,
    h.listed⟩

theorem settleForAttestation_step (h : Inv s) (merchant miner : A) (amount : Nat) :
    Inv (apply cfg s (.settleForAttestation merchant miner amount)) ∧
      (apply cfg s (.settleForAttestation merchant miner amount)).paymentIntents =
        s.paymentIntents := by
  refine Post.storage (c := settleForAttestation merchant miner amount)
    (I := fun t => Inv t ∧ t.paymentIntents = s.paymentIntents) ?_
  unfold settleForAttestation
  simp only [post_step]
  refine ⟨fun _ => ⟨fun b hb => ⟨?_, rfl⟩, fun _ => ⟨h.bump, trivial⟩⟩, fun _ => ⟨h, trivial⟩⟩
  have hiss : b.issuance ≤ u128Max := by
    rw [transfer_issuance hb]
    exact h.issuance
  have hpaid := h.bump.setBalances (transfer_reserved hb) hiss
  exact ⟨hpaid.issuance, hpaid.fresh, hpaid.backed, hpaid.nodup, hpaid.listed⟩

/-- What a call does holds of the state after it, since a failed call changes nothing. -/
theorem dispatch_moved {ε α : Type} {c : Call (State A) ε α} (h : Inv s)
    (hc : ∀ a t, c.run s = (.ok a, t) → Inv t ∧ Moved s t) :
    Inv (c.dispatch s).2 ∧ Moved s (c.dispatch s).2 :=
  dispatch_keeps (I := fun t => Inv t ∧ Moved s t) ⟨h, .refl s⟩ hc

theorem tick_inv (h : Inv s) : Inv s.tick :=
  ⟨h.issuance, h.fresh, h.backed, h.nodup, h.listed⟩

theorem apply_step {op : Op A} (h : Inv s) (hpos : op.Possible s) :
    Inv (apply cfg s op) ∧ Accounted s op (apply cfg s op) := by
  cases op with
  | submitPaymentIntent merchant miner amount nonce fingerprint signature =>
    refine dispatch_moved h fun _ t hr => ?_
    obtain ⟨b, hb, rfl⟩ := submitPaymentIntent_ok hr
    exact openIntent_step h hb rfl
  | verifySettlement caller id =>
    refine dispatch_moved h fun _ t hr => ?_
    obtain ⟨i, hi, hst, rfl⟩ := verifySettlement_ok hr
    exact verifySettlement_step h hi hst s.now
  | finalizeSettlement caller id =>
    refine dispatch_moved h fun _ t hr => ?_
    obtain ⟨i, b, rest, hi, hst, hb, rfl⟩ := finalizeSettlement_ok hr
    exact finalizeSettlement_step h hi hst s.now hb
  | failPaymentIntent caller id =>
    refine dispatch_moved h fun _ t hr => ?_
    obtain ⟨i, hi, hst, rfl⟩ := failPaymentIntent_ok hr
    exact failed_step h (.refl s) hi (isOpen_iff.2 hst) hi (isOpen_iff.2 hst)
  | settleForAttestation merchant miner amount =>
    exact settleForAttestation_step h merchant miner amount
  | nextBlock =>
    obtain ⟨r, hr, he⟩ := onInitialize_expiring (tick_inv h)
    show Inv s.tick.onInitialize ∧ Moved s s.tick.onInitialize
    rw [hr]
    exact ⟨he.inv, he.moved.intents, he.moved.fresh, he.moved.free⟩
  | external b => exact ⟨h.setBalances hpos.1 hpos.2, rfl⟩

theorem reach_inv {C : State A → Op A → Prop} (hs : (system cfg).Reach C s) : Inv s := by
  refine hs.invariant (I := Inv) ?_ ?_
  · rintro _ ⟨now, b, rfl, hres, hb⟩
    exact fresh_inv now hres hb
  · rintro s op _ h - ⟨hpos, rfl⟩
    exact (apply_step h hpos).1

theorem reach_apply {C : State A → Op A → Prop} (hs : (system cfg).Reach C s) (op : Op A)
    (hpos : op.Possible s) (hc : C s op) : (system cfg).Reach C (apply cfg s op) :=
  hs.step hc ⟨hpos, rfl⟩

end Steps

/-- **Payment intents are backed and closed once.** In every run the reserve of a merchant is
what its open intents add up to and the list holds the pending intents, each once. Every step
takes an intent along its life cycle only, and moves to the miner what was settled and back to
the merchant what failed. -/
theorem intents_backed (cfg : Config A) (s : State A)
    (hs : (system cfg).Reach (fun _ _ => True) s) :
    (∀ u, s.balances.reserved u = held s.paymentIntents u) ∧
      s.pendingIntentIds.Nodup ∧
      (∀ id, id ∈ s.pendingIntentIds ↔
        ∃ i, s.paymentIntents.get id = some i ∧ i.status = .pending) ∧
      ∀ op : Op A, op.Possible s → Accounted s op (apply cfg s op) := by
  have h := reach_inv hs
  exact ⟨h.backed, h.nodup, h.listed, fun op hpos => (apply_step h hpos).2⟩

/-! ## Deadlines -/

/-- No verified intent is at its deadline when the next block begins. -/
def NoVerifiedDue (s : State A) : Op A → Prop
  | .nextBlock => ∀ id i, s.paymentIntents.get id = some i → i.status = .verified →
      s.now + 1 < i.expiresAt
  | _ => True

/-- What is reserved for the intents of a merchant whose deadline is ahead. -/
def heldAhead (s : State A) (u : A) : Nat :=
  s.paymentIntents.sum fun _ i =>
    if i.merchant = u ∧ i.status.isOpen = true ∧ s.now < i.expiresAt then i.amount else 0

theorem onInitialize_closed {s : State A} (h : Inv s)
    (hv : ∀ id i, s.paymentIntents.get id = some i → i.status = .verified → s.now < i.expiresAt)
    {id : Nat} {i : PaymentIntent A} (hi : s.onInitialize.paymentIntents.get id = some i)
    (ho : i.status.isOpen = true) : s.now < i.expiresAt := by
  obtain ⟨r, hr, he⟩ := onInitialize_expiring h
  rw [hr] at hi
  rcases isOpen_iff.1 ho with hst | hst
  · -- a pending intent is on the list, and the loop has looked at it
    have hlist : id ∈ (swept r).pendingIntentIds := (he.inv.listed id).2 ⟨i, hi, hst⟩
    have hmem : id ∈ s.pendingIntentIds := by
      rw [← he.ids]
      exact (List.mem_filter.1 hlist).1
    exact he.due id hmem i hi hst
  · exact hv id i (he.verified id i hi hst) hst

/-- **Nothing is locked past its deadline**, in every run in which a verified intent is finalised
or failed before its deadline block: after the hook of a block each intent whose deadline has come
is closed, and the reserves are those of the intents whose deadline is ahead. -/
theorem expired_intents_closed (cfg : Config A) (s : State A)
    (hs : (system cfg).Reach NoVerifiedDue s) (hc : NoVerifiedDue s .nextBlock) :
    let s' := apply cfg s .nextBlock
    (∀ id i, s'.paymentIntents.get id = some i → i.expiresAt ≤ s'.now →
      i.status = .settled ∨ i.status = .failed) ∧
    ∀ u, s'.balances.reserved u = heldAhead s' u := by
  have h := reach_inv hs
  have hnow : (apply cfg s .nextBlock).now = s.tick.now := by
    obtain ⟨r, hr, he⟩ := onInitialize_expiring (tick_inv h)
    show s.tick.onInitialize.now = s.tick.now
    rw [hr]
    exact he.now
  have hopen : ∀ id i, (apply cfg s .nextBlock).paymentIntents.get id = some i →
      i.status.isOpen = true → (apply cfg s .nextBlock).now < i.expiresAt := by
    intro id i hi ho
    rw [hnow]
    exact onInitialize_closed (tick_inv h) hc hi ho
  refine ⟨fun id i hi hexp => ?_, fun u => ?_⟩
  · cases hst : i.status with
    | settled => exact .inl rfl
    | failed => exact .inr rfl
    | pending => exact absurd (hopen id i hi (by rw [hst]; rfl)) (Nat.not_lt.2 hexp)
    | verified => exact absurd (hopen id i hi (by rw [hst]; rfl)) (Nat.not_lt.2 hexp)
  · have hpos : Op.Possible s (.nextBlock : Op A) := trivial
    have hinv : Inv (apply cfg s .nextBlock) := (apply_step h hpos).1
    rw [hinv.backed u]
    refine sum_congr fun id i hi => ?_
    by_cases ho : i.status.isOpen = true
    · simp only [ho, hopen id i hi ho, and_true]
    · simp only [ho, Bool.false_eq_true, false_and, and_false]

/-! ## One intent

The merchant 1 owes the miner 2 fifty; the account 0 is the facilitator. -/

namespace Demo

def config : Config Nat where
  facilitatorAccount := 0
  maxSignatureLen := 64
  facilitatorPublicKey := []
  settlementDelay := 1
  paymentIntentTTL := 2
  encodeMessage := fun _ _ _ _ _ => []
  sr25519Verify := fun _ _ _ => true

def start : State Nat :=
  .fresh 1 ⟨((∅ : StorageMap Nat AccountData).insert 1 ⟨1000, 0, 0⟩).insert 2 ⟨7, 0, 0⟩⟩

def verified : State Nat :=
  apply config (apply config start (.submitPaymentIntent 1 2 50 0 0 (List.replicate 64 (byte 0))))
    (.verifySettlement 0 0)

def settled : State Nat :=
  apply config (apply config verified .nextBlock) (.finalizeSettlement 2 0)

theorem start_reach {C : State Nat → Op Nat → Prop} : (system config).Reach C start := by
  refine .init ⟨1, _, rfl, fun u => ?_, by decide +kernel⟩
  simp only [Balances.reserved, Balances.account, getD_insert, getD_empty]
  split <;> try split
  all_goals decide

theorem verified_reach : (system config).Reach NoVerifiedDue verified := by
  unfold verified
  refine reach_apply (reach_apply start_reach _ ?_ ?_) _ ?_ ?_ <;> exact trivial

theorem next_block_in_time : NoVerifiedDue verified .nextBlock := by
  intro id i hi _
  have hget : verified.paymentIntents.iter.all fun e => verified.now + 1 < e.2.expiresAt := by
    decide +kernel
  have hmem := mem_iter.2 hi
  exact of_decide_eq_true (List.all_eq_true.1 hget _ hmem)

theorem settled_reach : (system config).Reach NoVerifiedDue settled := by
  unfold settled
  refine reach_apply (reach_apply verified_reach _ ?_ next_block_in_time) _ ?_ ?_ <;>
    exact trivial

end Demo

theorem intents_backed_demo :
    Demo.verified.balances.reserved 1 = 50 ∧ held Demo.verified.paymentIntents 1 = 50 ∧
      Demo.settled.balances.reserved 1 = 0 ∧ held Demo.settled.paymentIntents 1 = 0 ∧
      Demo.settled.balances.free 2 = 57 := by
  have hv := (intents_backed Demo.config Demo.verified
    (Demo.verified_reach.mono fun _ _ _ => trivial)).1 1
  have hs := (intents_backed Demo.config Demo.settled
    (Demo.settled_reach.mono fun _ _ _ => trivial)).1 1
  have hres : Demo.verified.balances.reserved 1 = 50 := by decide +kernel
  have hnone : Demo.settled.balances.reserved 1 = 0 := by decide +kernel
  exact ⟨hres, hv.symm.trans hres, hnone, hs.symm.trans hnone, by decide +kernel⟩

theorem expired_intents_closed_demo :
    (Demo.settled.paymentIntents.get 0).map PaymentIntent.expiresAt = some 3 ∧
      ∀ u, (apply Demo.config Demo.settled .nextBlock).balances.reserved u =
        heldAhead (apply Demo.config Demo.settled .nextBlock) u := by
  refine ⟨by decide +kernel, ?_⟩
  refine (expired_intents_closed Demo.config Demo.settled Demo.settled_reach ?_).2
  intro id i hi hst
  have hget : Demo.settled.paymentIntents.iter.all fun e => e.2.status ≠ .verified := by
    decide +kernel
  exact absurd hst (of_decide_eq_true (List.all_eq_true.1 hget _ (mem_iter.2 hi)))

/-- A verified intent that nobody finalises keeps the amount in the reserve after its deadline. -/
theorem verified_intent_outlives_deadline :
    ∃ s : State Nat, (system Demo.config).Reach (fun _ _ => True) s ∧
      let s' := apply Demo.config s .nextBlock
      s'.now = 3 ∧ (s'.paymentIntents.get 0).map PaymentIntent.expiresAt = some 3 ∧
        (s'.paymentIntents.get 0).map PaymentIntent.status = some .verified ∧
        s'.balances.reserved 1 = 50 := by
  refine ⟨apply Demo.config Demo.verified .nextBlock, ?_, by decide +kernel, by decide +kernel,
    by decide +kernel, by decide +kernel⟩
  exact reach_apply (Demo.verified_reach.mono fun _ _ _ => trivial) _ trivial trivial

end DeepBrainChain.X402Settlement
