import DeepBrainChain.OnlineProfile.Episode

/-!
# The machines rewarded for an era

The reward of an era is released from a queue that is filled once, with the machines all stashes
list as theirs. Machines that left stay in these lists, so a machine that is bonded by another stash
is listed twice and rewarded twice.
-/

namespace DeepBrainChain.OnlineProfile

open Lib GenericFunc Support Lib.Call StorageMap SortedVec List

section

variable {A : Type} [LinearOrder A]

/-- What a step has to keep to: a stash only bonds machines that no other stash lists, and the
blocks that release rewards come after the start of an era. -/
def EraOp.ListsOnce (s : State A) : EraOp A → Prop
  | .profile (.bondMachine controller m _ _) => ∀ stash,
      s.owners.controllerStash.get controller = some stash → s.machine m = none →
      ∀ a, a ≠ stash → m ∉ (s.stashMachine a).totalMachine
  | .nextBlock => 3 ≤ (s.now + 1) % oneDay → (s.now + 1) % oneDay ≤ 62 →
      0 < s.grades.eras.currentEra
  | _ => True

/-- The calls of `distribute_reward_to_machine` in a step. -/
def rewardLog (s : State A) : EraOp A → List (MachineId × Nat)
  | .nextBlock => s.tick.rewardCalls
  | _ => []

/-! ## The queue -/

/-- No machine is listed by two stashes, or queued twice. -/
structure Fleet.Listed (r : Fleet A) : Prop where
  owner : ∀ {a b m}, m ∈ (r.holding a).total → m ∈ (r.holding b).total → a = b
  queue : r.queue.Nodup

/-- The reward of a machine for an era is released: the era before the last is over, and in the
last one the machine has left the queue. -/
def Fleet.Released (r : Fleet A) (k : MachineId × Nat) : Prop :=
  k.2 + 1 < r.era ∨ k.2 + 1 = r.era ∧ r.now % oneDay ≠ 1 ∧ k.1 ∉ r.queue

section Steps

variable {r r' : Fleet A} {s s' : State A} {crypto : Crypto A} {m : MachineId} {stash : A}

/-- Clock, era and the queue of reward snapshots stand still. -/
structure Fleet.SameQueue (r r' : Fleet A) : Prop where
  now : r'.now = r.now
  era : r'.era = r.era
  queue : r'.queue = r.queue

variable {k : Label} {ks : List Label} {a : A} {op : Op A}

theorem Fleet.Moves.sameQueue (h : r.Moves r' k) : r.SameQueue r' := by
  cases k with
  | quiet =>
    cases h
    exact ⟨rfl, rfl, rfl⟩
  | bond m =>
    obtain ⟨stash, -, -, rfl⟩ := h
    exact ⟨rfl, rfl, rfl⟩
  | verify hw =>
    obtain ⟨stash, n, -, rfl | rfl⟩ := h
    · exact ⟨rfl, rfl, rfl⟩
    · exact ⟨rfl, rfl, rfl⟩
  | online m | offline m | exit m | refuse m =>
    obtain ⟨stash, n, -, rfl⟩ := h
    exact ⟨rfl, rfl, rfl⟩

theorem Fleet.Chain.sameQueue (h : Fleet.Chain ks r r') : r.SameQueue r' := by
  induction ks generalizing r with
  | nil =>
    cases h
    exact ⟨rfl, rfl, rfl⟩
  | cons k ks ih =>
    obtain ⟨r1, hk, hks⟩ := h
    have h₁ := hk.sameQueue
    have h₂ := ih hks
    exact ⟨h₂.now.trans h₁.now, h₂.era.trans h₁.era, h₂.queue.trans h₁.queue⟩

theorem mem_snapOnline_total {n : Nat} {b : Bool} {m' : MachineId} :
    m' ∈ ((r.snapOnline m stash n b).holding a).total ↔ m' ∈ (r.holding a).total := by
  show m' ∈ (if a = stash then _ else r.holding a).total ↔ _
  split
  · next h => rw [h]
  · exact Iff.rfl

theorem Fleet.Moves.total (h : r.Moves r' k) (hk : ∀ m, k ≠ .bond m)
    (hm : m ∈ (r'.holding a).total) : m ∈ (r.holding a).total := by
  cases k with
  | quiet =>
    cases h
    exact hm
  | bond m' => exact absurd rfl (hk m')
  | verify hw =>
    obtain ⟨stash, n, -, rfl | rfl⟩ := h
    · exact mem_snapOnline_total.1 hm
    · exact hm
  | online m' | offline m' | exit m' =>
    obtain ⟨stash, n, -, rfl⟩ := h
    exact mem_snapOnline_total.1 hm
  | refuse m' =>
    obtain ⟨stash, n, -, rfl⟩ := h
    have hm' : m ∈ (if a = stash then _ else r.holding a).total := hm
    split at hm'
    · next ha =>
      rw [ha]
      exact (mem_rmItem.1 hm').2
    · exact hm'

theorem Fleet.Chain.total (h : Fleet.Chain ks r r') (hks : ∀ k ∈ ks, ∀ m, k ≠ .bond m)
    (hm : m ∈ (r'.holding a).total) : m ∈ (r.holding a).total := by
  induction ks generalizing r with
  | nil =>
    cases h
    exact hm
  | cons k ks ih =>
    obtain ⟨r1, hk, hrest⟩ := h
    refine hk.total (hks k mem_cons_self) ?_
    exact ih hrest fun k' hk' => hks k' (mem_cons_of_mem k hk')

omit [LinearOrder A] in
theorem Fleet.Listed.shrink (h : r.Listed) (hq : r'.queue.Nodup)
    (hs : ∀ {a m}, m ∈ (r'.holding a).total → m ∈ (r.holding a).total) : r'.Listed :=
  ⟨fun ha hb => h.owner (hs ha) (hs hb), hq⟩

theorem Fleet.Listed.bond (h : r.Listed) (hm : ∀ a, a ≠ stash → m ∉ (r.holding a).total) :
    ((r.mapTotal stash (·.addItem m)).setCard m (some (stash, 0))).Listed := by
  have hold : ∀ {a m'}, m' ∈ (((r.mapTotal stash (·.addItem m)).setCard m
      (some (stash, 0))).holding a).total → m' ∈ (r.holding a).total ∨ m' = m ∧ a = stash := by
    intro a m' hm'
    have hif : m' ∈ (if a = stash then _ else r.holding a).total := hm'
    split at hif
    · next ha =>
      rcases mem_addItem.1 hif with rfl | hmem
      · exact .inr ⟨rfl, ha⟩
      · exact .inl (ha ▸ hmem)
    · exact .inl hif
  refine ⟨fun {a b m'} ha hb => ?_, h.queue⟩
  rcases hold ha with hla | ⟨hma, hsa⟩
  · rcases hold hb with hlb | ⟨hmb, hsb⟩
    · exact h.owner hla hlb
    · by_contra hne
      exact hm a (hsb ▸ hne) (hmb ▸ hla)
  · rcases hold hb with hlb | ⟨hmb, hsb⟩
    · by_contra hne
      exact hm b (hsa ▸ Ne.symm hne) (hma ▸ hlb)
    · rw [hsa, hsb]

theorem bonded_nodup (h : s.fleet.Listed) : s.bonded.Nodup := by
  refine nodup_flatMap.2 ⟨fun e _ => e.2.totalMachine.nodup, ?_⟩
  have hread : ∀ e ∈ s.grades.stashMachines.iter,
      (s.fleet.holding e.1).total = e.2.totalMachine := by
    intro e he
    show (s.grades.stashMachines.getD e.1 .zero).totalMachine = _
    unfold StorageMap.getD
    rw [mem_iter.1 he]
    rfl
  have hkeys : s.grades.stashMachines.iter.Pairwise fun e e' => e.1 ≠ e'.1 :=
    pairwise_map.1 s.grades.stashMachines.iter_keys_nodup
  refine hkeys.imp_of_mem fun {e e'} he he' hne m hm hm' => hne ?_
  have hl : m ∈ (s.fleet.holding e.1).total := by
    rw [hread e he]
    exact hm
  have hl' : m ∈ (s.fleet.holding e'.1).total := by
    rw [hread e' he']
    exact hm'
  exact h.owner hl hl'

theorem Op.chain_bond (hk : k ∈ op.chain) {m : MachineId}
    (he : k = .bond m) : ∃ controller msg sig, op = .bondMachine controller m msg sig := by
  subst he
  cases op with
  | bondMachine controller m' msg sig =>
    cases mem_singleton.1 hk
    exact ⟨controller, msg, sig, rfl⟩
  | forceMachineExit signer l =>
    obtain ⟨m', -, he⟩ := List.mem_map.1 hk
    cases he
  | fulfillMachine | controllerReportOnline | controllerReportOffline
  | offlineMachineChangeHardwareInfo | mtMachineOffline | machineExit | confirmMachine
  | refuseMachine => cases mem_singleton.1 hk
  | _ => cases hk

theorem apply_listed (h : s.fleet.Listed)
    (hc : EraOp.ListsOnce s (.profile op)) : (apply crypto s op).fleet.Listed := by
  by_cases hb : ∃ controller m msg sig, op = .bondMachine controller m msg sig
  · obtain ⟨controller, m, msg, sig, rfl⟩ := hb
    refine dispatch_keeps (I := fun s' : State A => s'.fleet.Listed) h fun _ s' hr => ?_
    obtain ⟨stash, hstash, hm, -, he⟩ := bondMachine_fleet hr
    rw [he]
    exact h.bond (hc stash hstash hm)
  · rcases apply_fleet crypto s op with he | hchain
    · rw [he]
      exact h
    · refine h.shrink (hchain.sameQueue.queue ▸ h.queue) fun hm => hchain.total ?_ hm
      intro k hk m he
      obtain ⟨controller, msg, sig, rfl⟩ := Op.chain_bond hk he
      exact hb ⟨controller, m, msg, sig, rfl⟩

theorem apply_sameQueue (crypto : Crypto A) (s : State A) (op : Op A) :
    s.fleet.SameQueue (apply crypto s op).fleet := by
  rcases apply_fleet crypto s op with he | hchain
  · rw [he]
    exact ⟨rfl, rfl, rfl⟩
  · exact hchain.sameQueue

theorem applyBlock_listed {op : EraOp A} (h : s.fleet.Listed) (hc : op.ListsOnce s) :
    (applyBlock crypto s op).fleet.Listed := by
  cases op with
  | profile op => exact apply_listed h hc
  | rental op =>
    have he : (applyBlock crypto s (.rental op)).fleet = s.fleet := applyRent_fleet s op
    rw [he]
    exact h
  | nextBlock =>
    have he : (applyBlock crypto s .nextBlock).fleet = s.tick.nextFleet :=
      onInitialize_fleet s.tick
    have ht : s.tick.fleet.Listed := ⟨h.owner, h.queue⟩
    rw [he]
    refine ⟨h.owner, ?_⟩
    show (if s.tick.now % oneDay = 2 then s.tick.bonded
      else s.tick.fleet.queue.drop s.tick.rewardCalls.length).Nodup
    split
    · exact bonded_nodup ht
    · exact h.queue.sublist (drop_sublist _ _)

theorem reach_listed (h : (blockSystem crypto).Reach EraOp.ListsOnce s) : s.fleet.Listed := by
  refine h.invariant (I := fun s => s.fleet.Listed) ?_ ?_
  · rintro s ⟨c, rfl⟩
    refine ⟨fun {a b m} ha => ?_, nodup_nil⟩
    have hempty : m ∈ ((∅ : StorageMap A StashMachine).getD a .zero).totalMachine := ha
    rw [getD_empty] at hempty
    exact absurd hempty notMem_empty
  · rintro s op _ hs hc rfl
    exact applyBlock_listed hs hc

/-! ## Released rewards -/

omit [LinearOrder A] in
theorem Fleet.Released.same {k : MachineId × Nat} (h : r.Released k) (hq : r.SameQueue r') :
    r'.Released k := by
  unfold Fleet.Released
  rw [hq.now, hq.era, hq.queue]
  exact h

/-- A released reward stays released when a block starts: the queue is only filled after an era has
started. -/
theorem Fleet.Released.nextBlock {k : MachineId × Nat} (h : s.fleet.Released k) :
    s.tick.nextFleet.Released k := by
  have hera : s.tick.nextFleet.era =
    if (s.now + 1) % oneDay = 1 then s.fleet.era + 1 else s.fleet.era := rfl
  have hqueue : s.tick.nextFleet.queue = if (s.now + 1) % oneDay = 2 then s.tick.bonded
    else s.fleet.queue.drop s.tick.rewardCalls.length := rfl
  have hfill : (s.now + 1) % oneDay = 2 → s.fleet.now % oneDay = 1 := by
    show (s.now + 1) % 14400 = 2 → s.now % 14400 = 1
    omega
  unfold Fleet.Released at h ⊢
  rw [hera, hqueue]
  rcases h with h | ⟨he, hn, hm⟩
  · left
    split
    · omega
    · exact h
  · by_cases h1 : (s.now + 1) % oneDay = 1
    · left
      rw [if_pos h1]
      omega
    · right
      rw [if_neg h1, if_neg fun h2 => hn (hfill h2)]
      exact ⟨he, h1, fun hk => hm (mem_of_mem_drop hk)⟩

theorem rewardCalls_released (h : s.fleet.Listed) (hc : EraOp.ListsOnce s .nextBlock) :
    s.tick.rewardCalls.Nodup ∧ ∀ k ∈ s.tick.rewardCalls,
      ¬ s.fleet.Released k ∧ s.tick.nextFleet.Released k := by
  by_cases hpay : 3 ≤ (s.now + 1) % oneDay ∧ (s.now + 1) % oneDay ≤ 62
  · have hera : 0 < s.grades.eras.currentEra := hc hpay.1 hpay.2
    have hcalls : s.tick.rewardCalls = (s.fleet.queue.take (s.rewards.snapLen / 60 + 1)).map
        (·, s.fleet.era - 1) := if_pos hpay
    have hpos : 0 < s.fleet.era := hera
    set count := s.rewards.snapLen / 60 + 1
    have hlen : s.tick.rewardCalls.length = (s.fleet.queue.take count).length := by
      rw [hcalls, length_map]
    refine ⟨?_, fun k hk => ?_⟩
    · rw [hcalls]
      refine (h.queue.sublist (take_sublist _ _)).map fun x y hxy => ?_
      exact congrArg Prod.fst hxy
    · rw [hcalls] at hk
      obtain ⟨m, hm, rfl⟩ := List.mem_map.1 hk
      refine ⟨?_, .inr ⟨?_, ?_, ?_⟩⟩
      · rintro (hlt | ⟨-, -, hout⟩)
        · have : s.fleet.era - 1 + 1 < s.fleet.era := hlt
          omega
        · exact hout (mem_of_mem_take hm)
      · show s.fleet.era - 1 + 1 = if (s.now + 1) % oneDay = 1 then _ else s.fleet.era
        rw [if_neg (by omega)]
        omega
      · show (s.now + 1) % oneDay ≠ 1
        omega
      · show m ∉ if (s.now + 1) % oneDay = 2 then _
          else s.fleet.queue.drop s.tick.rewardCalls.length
        rw [if_neg (by omega), hlen]
        intro hdrop
        have hsplit : (s.fleet.queue.take count ++
            s.fleet.queue.drop (s.fleet.queue.take count).length).Nodup := by
          rw [length_take, ← drop_eq_drop_min, take_append_drop]
          exact h.queue
        exact (nodup_append.1 hsplit).2.2 m hm m hdrop rfl
  · have hcalls : s.tick.rewardCalls = [] := if_neg hpay
    rw [hcalls]
    exact ⟨nodup_nil, fun k hk => absurd hk not_mem_nil⟩

/-! ## Who owns a machine -/

/-- The key of the machine has signed a message that names the stash. -/
def Vouched (crypto : Crypto A) (stash : A) (m : MachineId) : Prop :=
  ∃ msg sig, msg.length = 112 ∧ m = msg.take 64 ∧
    crypto.accountFromStr (msg.drop 64) = some stash ∧ crypto.verifySig msg sig m = true

theorem bondMachine_vouched {controller : A} {msg sig : Bytes} {u : Unit}
    (hstash : s.owners.controllerStash.get controller = some stash)
    (h : (bondMachine crypto controller m msg sig).run s = (.ok u, s')) :
    Vouched crypto stash m := by
  unfold bondMachine checkBondingMsg at h
  simp only [run_ok, hstash, Option.some.injEq] at h
  obtain ⟨-, -, hlen, hm, _, ⟨_, ha, rfl, hv, -⟩, -⟩ := h
  exact ⟨msg, sig, hlen, hm, ha, hv⟩

variable {n : Nat}

/-- Only a bonding gives a machine to a stash. -/
theorem Fleet.Moves.card (h : r.Moves r' k) (hk : k ≠ .bond m)
    (hc : r'.card m = some (a, n)) : ∃ n', r.card m = some (a, n') := by
  cases k with
  | quiet => exact ⟨n, h ▸ hc⟩
  | online | offline =>
    obtain ⟨_, _, -, rfl⟩ := h
    exact ⟨n, hc⟩
  | verify hw =>
    obtain ⟨stash, n', hold, rfl | rfl⟩ := h <;>
    · change (if m = hw.machineId then some (stash, hw.gpuNum) else r.card m) = some (a, n) at hc
      grind
  | bond m' | exit m' | refuse m' =>
    obtain ⟨_, _, _, rfl⟩ := h
    change (if m = m' then _ else r.card m) = some (a, n) at hc
    grind

theorem Fleet.Chain.card (h : Fleet.Chain ks r r') (hks : .bond m ∉ ks)
    (hc : r'.card m = some (a, n)) : ∃ n', r.card m = some (a, n') := by
  induction ks generalizing r with
  | nil => exact ⟨n, h ▸ hc⟩
  | cons k ks ih =>
    obtain ⟨r1, hk, hrest⟩ := h
    obtain ⟨_, hc'⟩ := ih hrest (mt (mem_cons_of_mem k) hks)
    exact hk.card (fun he => hks (he ▸ mem_cons_self)) hc'

theorem apply_vouched (h : ∀ m a n, s.fleet.card m = some (a, n) → Vouched crypto a m)
    (hc : (apply crypto s op).fleet.card m = some (a, n)) : Vouched crypto a m := by
  by_cases hb : .bond m ∈ op.chain
  · obtain ⟨controller, msg, sig, rfl⟩ := Op.chain_bond hb rfl
    refine dispatch_keeps (I := fun s' : State A => s'.fleet.card m = some (a, n) → _) (h m a n)
      (fun _ s' hr hc => ?_) hc
    obtain ⟨stash, hstash, -, -, he⟩ := bondMachine_fleet hr
    rw [he, Fleet.card_setCard_self] at hc
    cases hc
    exact bondMachine_vouched hstash hr
  · rcases apply_fleet crypto s op with he | hchain
    · exact h m a n (he ▸ hc)
    · obtain ⟨n', hc'⟩ := hchain.card hb hc
      exact h m a n' hc'

end Steps

/-- **Each machine is rewarded at most once for an era**, in every run in which the lists of the
stashes stay apart and rewards are released after the start of an era. -/
theorem rewarded_once (crypto : Crypto A) (p : State A × List (MachineId × Nat))
    (hp : ((blockSystem crypto).logged rewardLog).Reach (fun p => EraOp.ListsOnce p.1) p)
    (m : MachineId) (era : Nat) : p.2.count (m, era) ≤ 1 := by
  refine nodup_iff_count_le_one.1 ?_ (m, era)
  refine (System.Reach.log_nodup (K := fun s k => s.fleet.Released k) hp ?_ ?_).1
  · rintro s op _ - - rfl k hk
    cases op with
    | profile op => exact hk.same (apply_sameQueue crypto s op)
    | rental op =>
      have he : (applyBlock crypto s (.rental op)).fleet = s.fleet := applyRent_fleet s op
      rw [he]
      exact hk
    | nextBlock =>
      have he : (applyBlock crypto s .nextBlock).fleet = s.tick.nextFleet :=
        onInitialize_fleet s.tick
      rw [he]
      exact hk.nextBlock
  · rintro s op _ hs hc rfl
    cases op with
    | profile op => exact ⟨nodup_nil, fun k hk => absurd hk not_mem_nil⟩
    | rental op => exact ⟨nodup_nil, fun k hk => absurd hk not_mem_nil⟩
    | nextBlock =>
      have he : (applyBlock crypto s .nextBlock).fleet = s.tick.nextFleet :=
        onInitialize_fleet s.tick
      rw [he]
      exact rewardCalls_released (reach_listed hs) hc

end

/-! ## A machine of two stashes -/

namespace RewardDemo

/-- The last byte of a message names the stash. -/
def crypto : Crypto Nat := ⟨fun l => l.getLast?.map fun b => b.val, fun _ _ _ => true⟩

def account : AccountData := ⟨1000, 0, 0⟩

def start : State Nat := .fresh (.fresh
  { now := 14400
    balances := ⟨((((∅ : StorageMap Nat AccountData).insert 1 account).insert 2 account).insert 3
      account).insert 4 account⟩
    fixedTxFee := some 1
    dbcPrice := some })

def message (stash : Nat) : Bytes := EraDemo.machineId ++ List.replicate 48 (byte stash)

def bonding : List (EraOp Nat) :=
  [.nextBlock, .profile (.setOnlineStakeParams ⟨100, 100, 10, 10⟩), .profile
    (.updateAuthorizedForceExitAccounts [9]), .profile (.setController 1 2), .profile
    (.setController 3 4), .profile (.bondMachine 2 EraDemo.machineId (message 1) [])]

/-- The machine is taken out by force, and the stash 3 bonds it. -/
def moving : List (EraOp Nat) :=
  [.profile (.forceMachineExit 9 [EraDemo.machineId]),
    .profile (.bondMachine 4 EraDemo.machineId (message 3) [])]

def paying : List (EraOp Nat) := List.replicate 3 .nextBlock

def step (p : State Nat × List (MachineId × Nat)) (op : EraOp Nat) :
    State Nat × List (MachineId × Nat) :=
  (applyBlock crypto p.1 op, p.2 ++ rewardLog p.1 op)

theorem stashMachine_of_iter_nil {s : State Nat} (h : s.grades.stashMachines.iter = []) (a : Nat) :
    s.stashMachine a = .zero := by
  unfold State.stashMachine StorageMap.getD
  rw [get_of_iter_nil h]
  rfl

theorem path_reach {C : State Nat → EraOp Nat → Prop} {l : List (EraOp Nat)}
    (hl : System.Path step (fun p => C p.1) l (start, [])) :
    ((blockSystem crypto).logged rewardLog).Reach (fun p => C p.1) (l.foldl step (start, [])) :=
  System.Reach.path (f := step) (P := fun p => C p.1) (.init ⟨⟨_, rfl⟩, rfl⟩)
    (fun _ _ h => ⟨h, rfl, rfl⟩) hl

end RewardDemo

open RewardDemo in
theorem rewarded_once_demo :
    ((bonding ++ paying).foldl step (start, [])).2 = [(EraDemo.machineId, 0)] ∧
      ((bonding ++ paying).foldl step (start, [])).2.count (EraDemo.machineId, 0) ≤ 1 := by
  have hpath : System.Path step (fun p => EraOp.ListsOnce p.1) (bonding ++ paying) (start, []) := by
    refine ⟨fun h => ?_, trivial, trivial, trivial, trivial, fun _ _ _ a _ => ?_, fun _ _ => ?_,
      fun _ _ => ?_, fun _ _ => ?_, trivial⟩
    · exact absurd h (by decide +kernel)
    · have hzero := stashMachine_of_iter_nil (s := ((bonding.take 5).foldl step (start, [])).1)
        (by decide +kernel) a
      show _ ∉ (((bonding.take 5).foldl step (start, [])).1.stashMachine a).totalMachine
      rw [hzero]
      exact notMem_empty
    · decide +kernel
    · decide +kernel
    · decide +kernel
  exact ⟨by decide +kernel, rewarded_once crypto _ (path_reach hpath) EraDemo.machineId 0⟩

open RewardDemo in
/-- A machine that was taken out by force and bonded by another stash is listed by both, and both
entries are paid for the same era. -/
theorem moved_machine_rewarded_twice :
    ∃ p, ((blockSystem crypto).logged rewardLog).Reach (fun _ _ => True) p ∧
      p.2.count (EraDemo.machineId, 0) = 2 := by
  refine ⟨_, path_reach (C := fun _ _ => True) (l := bonding ++ moving ++ paying) ?_,
    by decide +kernel⟩
  exact System.Path.of_forall (fun _ _ _ => trivial) _

/-! # The daily pass over the machines

In the third block of a day the machines of all stashes are listed, and each of the sixty blocks
after it takes `len / 60 + 1` of them off the list and pays them. Nothing but the hook itself writes
the list, the rewards of the eras and the snapshots of the eras that are over. -/

section

variable {A : Type} [LinearOrder A]

/-- A call of `distribute_reward_to_machine`. -/
structure RewardCall (A : Type) where
  machine : MachineId
  releaseEra : Nat
  eraReward : Nat
  machinePoints : StorageMap MachineId MachineGradeStatus
  stashPoints : EraStashPoints A

def RewardCall.pay (s : State A) (c : RewardCall A) : State A :=
  s.distributeRewardToMachine c.releaseEra c.eraReward c.machinePoints c.stashPoints c.machine

/-- The call for a machine in a block of `s`. -/
def State.rewardCall (s : State A) (m : MachineId) : RewardCall A where
  machine := m
  releaseEra := s.grades.eras.currentEra - 1
  eraReward := s.rewards.eraReward.getD (s.grades.eras.currentEra - 1) 0
  machinePoints := s.grades.eras.machinePoints (s.grades.eras.currentEra - 1)
  stashPoints := s.grades.eras.stashPoints (s.grades.eras.currentEra - 1)

def passCalls (s : State A) : EraOp A → List (RewardCall A)
  | .nextBlock => s.tick.rewardCalls.map fun k => s.tick.rewardCall k.1
  | _ => []

def callsOf (crypto : Crypto A) : State A → List (EraOp A) → List (RewardCall A)
  | _, [] => []
  | s, op :: l => passCalls s op ++ callsOf crypto (applyBlock crypto s op) l

def EraOp.isBlock : EraOp A → Bool
  | .nextBlock => true
  | _ => false

variable {s : State A} {crypto : Crypto A}

/-- Outside the third block of a day, `backup_and_reward` makes the calls of the block one after
another and takes their machines off the list. -/
theorem backupAndReward_pays (h : s.tick.now % oneDay ≠ 2) :
    s.tick.backupAndReward = ((passCalls s .nextBlock).foldl RewardCall.pay s.tick).mapRewards
      fun r => r.setSnap (s.rewards.allMachineIdSnap.drop (passCalls s .nextBlock).length)
        r.snapLen := by
  have hera : ∀ k ∈ s.tick.rewardCalls, k.2 = s.tick.grades.eras.currentEra - 1 := by
    intro k hk
    unfold State.rewardCalls at hk
    split at hk
    · obtain ⟨m, -, rfl⟩ := List.mem_map.1 hk
      rfl
    · exact absurd hk not_mem_nil
  have hfold : ∀ (l : List (MachineId × Nat)) (t : State A), (∀ k ∈ l, k ∈ s.tick.rewardCalls) →
      l.foldl (fun s1 k => State.distributeRewardToMachine k.2 (s.tick.rewards.eraReward.getD k.2 0)
        (s.tick.grades.eras.machinePoints k.2) (s.tick.grades.eras.stashPoints k.2) s1 k.1) t =
      (l.map fun k => s.tick.rewardCall k.1).foldl RewardCall.pay t := by
    intro l
    induction l with
    | nil => intro t _; rfl
    | cons k l ih =>
      intro t hl
      rw [foldl_cons, map_cons, foldl_cons, hera k (hl k mem_cons_self)]
      exact ih _ fun k' hk' => hl k' (mem_cons_of_mem k hk')
  rw [backupAndReward_calls h, hfold _ _ fun _ hk => hk, passCalls, length_map]
  rfl

/-! ## The terms of a pass -/

/-- What the calls of a pass read: the era, the length of the list, the rewards of the eras and the
snapshots of the era before. -/
def State.terms (s : State A) : Nat × Nat × StorageMap Nat Nat ×
    Option (StorageMap MachineId MachineGradeStatus) × Option (EraStashPoints A) :=
  (s.grades.eras.currentEra, s.rewards.snapLen, s.rewards.eraReward,
    s.grades.eras.erasMachinePoints.get (s.grades.eras.currentEra - 1),
    s.grades.eras.erasStashPoints.get (s.grades.eras.currentEra - 1))

theorem archival_terms {x : State A} (hx : 0 < x.grades.eras.currentEra) :
    Archival fun s : State A => s.terms = x.terms where
  committee _ _ h := h
  machines _ h := h
  owners _ h := h
  stakes _ h := h
  grades := by
    intro s f hf h
    have hera : s.grades.eras.currentEra = x.grades.eras.currentEra := congrArg Prod.fst h
    have hkept := hf s.grades
    have hlt : s.grades.eras.currentEra - 1 < s.grades.eras.currentEra := by omega
    refine Eq.trans ?_ h
    show ((f s.grades).eras.currentEra, s.rewards.snapLen, s.rewards.eraReward,
      (f s.grades).eras.erasMachinePoints.get ((f s.grades).eras.currentEra - 1),
      (f s.grades).eras.erasStashPoints.get ((f s.grades).eras.currentEra - 1)) = s.terms
    rw [hkept.era, hkept.machines _ hlt, hkept.stashes _ hlt]
    rfl
  recent _ _ h := h

theorem rewardCall_of_terms {x : State A} (h : s.terms = x.terms) (m : MachineId) :
    s.rewardCall m = x.rewardCall m := by
  have hera : s.grades.eras.currentEra = x.grades.eras.currentEra := congrArg Prod.fst h
  have hreward : s.rewards.eraReward = x.rewards.eraReward := congrArg (fun t => t.2.2.1) h
  have hmachines := congrArg (fun t => t.2.2.2.1) h
  have hstashes := congrArg (fun t => t.2.2.2.2) h
  simp only [State.terms] at hmachines hstashes
  unfold State.rewardCall Eras.machinePoints Eras.stashPoints StorageMap.getD
  rw [hreward, hmachines, hstashes, hera]

theorem rewardCommittees_terms (s : State A) (l : List A) (each : Nat) :
    (s.rewardCommittees l each).terms = s.terms :=
  foldl_keeps (I := fun t : State A => t.terms = s.terms)
    (f := fun s c => s.setCommitteeState (Committee.addReward s.toCommittee c each))
    (fun _ _ h => h) l rfl

theorem pay_terms (s : State A) (c : RewardCall A) : (c.pay s).terms = s.terms := by
  unfold RewardCall.pay State.distributeRewardToMachine
  split
  · rfl
  · simp only
    split
    · rfl
    · exact rewardCommittees_terms s _ _

/-! ## One pass -/

/-- After `j` paying blocks of a pass that began in the storage `x` with the list `l`. -/
structure Passing (x : State A) (l : List MachineId) (j : Nat) (s : State A) : Prop where
  terms : s.terms = x.terms
  now : s.now % oneDay = 2 + j
  queue : s.rewards.allMachineIdSnap = l.drop (j * (l.length / 60 + 1))

variable {x : State A} {l : List MachineId} {j : Nat}

/-- What happens within a block does not touch the pass. -/
theorem Passing.within (crypto : Crypto A) (hx : 0 < x.grades.eras.currentEra)
    (h : Passing x l j s) {op : EraOp A}
    (hop : op.isBlock = false) : Passing x l j (applyBlock crypto s op) := by
  have hI := archival_terms hx
  cases op with
  | profile op =>
    have hq := apply_sameQueue crypto s op
    refine ⟨hI.applyAny (fun _ h => h) crypto op h.terms, ?_, hq.queue.trans h.queue⟩
    exact (congrArg (· % oneDay) hq.now).trans h.now
  | rental op =>
    have he := applyRent_fleet s op
    refine ⟨hI.applyRent op h.terms, ?_, (congrArg Fleet.queue he).trans h.queue⟩
    exact (congrArg (fun r => r.now % oneDay) he).trans h.now
  | nextBlock => cases hop

/-- A paying block takes its share off the list. -/
theorem Passing.block (crypto : Crypto A) (hx : 0 < x.grades.eras.currentEra)
    (hlen : x.rewards.snapLen = l.length)
    (h : Passing x l j s) (hj : j < 60) :
    passCalls s .nextBlock = ((s.rewards.allMachineIdSnap.take (l.length / 60 + 1)).map
      x.rewardCall) ∧ Passing x l (j + 1) (applyBlock crypto s .nextBlock) := by
  have hnow := h.now
  have htick : s.tick.now % oneDay = 3 + j := by
    show (s.now + 1) % 14400 = 3 + j
    change s.now % 14400 = 2 + j at hnow
    omega
  have hsnap : s.rewards.snapLen = l.length := (congrArg (fun t => t.2.1) h.terms).trans hlen
  have hcalls : s.tick.rewardCalls = (s.rewards.allMachineIdSnap.take (l.length / 60 + 1)).map
      (·, s.tick.grades.eras.currentEra - 1) := by
    unfold State.rewardCalls
    rw [if_pos ⟨by omega, by omega⟩]
    show (s.rewards.allMachineIdSnap.take (s.rewards.snapLen / 60 + 1)).map _ = _
    rw [hsnap]
  have hfleet : (applyBlock crypto s .nextBlock).fleet = s.tick.nextFleet :=
    onInitialize_fleet s.tick
  refine ⟨?_, ?_, ?_, ?_⟩
  · rw [passCalls, hcalls, List.map_map]
    exact map_congr_left fun m _ => rewardCall_of_terms (s := s.tick) h.terms m
  · have hI := archival_terms hx
    refine hI.pendingSlashes (fun _ h => h) ?_
    have hpay : s.tick.backupAndReward.terms = x.terms := by
      rw [backupAndReward_pays (by omega)]
      refine Eq.trans ?_ h.terms
      exact foldl_keeps (I := fun t : State A => t.terms = s.terms)
        (fun t c ht => (pay_terms t c).trans ht) _ rfl
    have hclock : s.tick.backupAndReward.now = s.tick.now := (backupAndReward_quiet s.tick).now
    rw [hclock, if_neg (by omega)]
    exact hpay
  · have hclock : (applyBlock crypto s .nextBlock).now = s.tick.now := congrArg Fleet.now hfleet
    rw [hclock, htick]
    omega
  · have hqueue := congrArg Fleet.queue hfleet
    have hrest : s.tick.nextFleet.queue =
        s.rewards.allMachineIdSnap.drop s.tick.rewardCalls.length := if_neg (by omega)
    refine (hqueue.trans hrest).trans ?_
    rw [hcalls, length_map, length_take, ← drop_eq_drop_min, h.queue, drop_drop,
      Nat.succ_mul]

/-- From any point of a pass on, the blocks that are left pay what is left of the list. -/
theorem Passing.finish (hx : 0 < x.grades.eras.currentEra) (hlen : x.rewards.snapLen = l.length)
    (h : Passing x l j s) (hj : j ≤ 60) {ops : List (EraOp A)}
    (hops : ops.countP EraOp.isBlock = 60 - j) :
    callsOf crypto s ops = s.rewards.allMachineIdSnap.map x.rewardCall ∧
      (ops.foldl (applyBlock crypto) s).rewards.allMachineIdSnap = [] := by
  induction ops generalizing s j with
  | nil =>
    have hempty : s.rewards.allMachineIdSnap = [] := by
      rw [countP_nil] at hops
      have hdone : j = 60 := by omega
      rw [h.queue, hdone]
      exact drop_eq_nil_of_le (by omega)
    rw [hempty]
    exact ⟨rfl, hempty⟩
  | cons op ops ih =>
    rw [foldl_cons, callsOf]
    cases hop : op.isBlock with
    | false =>
      rw [countP_cons_of_neg (by rw [hop]; decide)] at hops
      have hstep := h.within crypto hx hop
      obtain ⟨hcalls, hend⟩ := ih hstep hj hops
      have hnone : passCalls s op = [] := by
        cases op with
        | nextBlock => cases hop
        | _ => rfl
      rw [hnone, hcalls, hstep.queue, h.queue]
      exact ⟨rfl, hend⟩
    | true =>
      cases op with
      | nextBlock =>
        rw [countP_cons_of_pos rfl] at hops
        obtain ⟨hpaid, hstep⟩ := h.block crypto hx hlen (by omega)
        obtain ⟨hcalls, hend⟩ := ih hstep (by omega) (by omega)
        refine ⟨?_, hend⟩
        rw [hpaid, hcalls, hstep.queue, h.queue, ← map_append, Nat.succ_mul, ← drop_drop,
          take_append_drop]
      | profile | rental => cases hop

/-! ## Every day -/

/-- online-profile from the first block of the chain on. -/
def genesisSystem (crypto : Crypto A) : System (State A) (EraOp A) where
  init s := ∃ c : Committee.State A, c.now = 0 ∧ s = .fresh c
  step s op s' := s' = applyBlock crypto s op

/-- The first era starts in the first block. -/
theorem era_started (hs : (genesisSystem crypto).Reach (fun _ _ => True) s) (hnow : s.now ≠ 0) :
    0 < s.grades.eras.currentEra := by
  have hinv : s.fleet.now = 0 ∨ 0 < s.fleet.era := by
    refine hs.invariant (I := fun s => s.fleet.now = 0 ∨ 0 < s.fleet.era) ?_ ?_
    · rintro s ⟨c, hc, rfl⟩
      exact .inl hc
    · rintro s op _ ih - rfl
      cases op with
      | profile op =>
        have hq := apply_sameQueue crypto s op
        rw [← hq.now, ← hq.era] at ih
        exact ih
      | rental op =>
        rw [← applyRent_fleet s op] at ih
        exact ih
      | nextBlock =>
        right
        have hf : (applyBlock crypto s .nextBlock).fleet = s.tick.nextFleet :=
          onInitialize_fleet s.tick
        rw [hf]
        show 0 < if (s.now + 1) % oneDay = 1 then s.fleet.era + 1 else s.fleet.era
        rcases ih with ih | ih
        · have hzero : s.now = 0 := ih
          rw [hzero, if_pos (by decide)]
          omega
        · split <;> omega
  exact hinv.resolve_left hnow

theorem passing_start (crypto : Crypto A) (hday : s.now % oneDay = 1) :
    (applyBlock crypto s .nextBlock).rewards.snapLen = s.tick.bonded.length ∧
      Passing (applyBlock crypto s .nextBlock) s.tick.bonded 0
      (applyBlock crypto s .nextBlock) := by
  have htick : s.tick.now % oneDay = 2 := by
    show (s.now + 1) % 14400 = 2
    change s.now % 14400 = 1 at hday
    omega
  have hf : (applyBlock crypto s .nextBlock).fleet = s.tick.nextFleet := onInitialize_fleet s.tick
  refine ⟨?_, rfl, ?_, ?_⟩
  · have hI : Archival fun t : State A => t.rewards.snapLen = s.tick.bonded.length :=
      ⟨fun _ _ h => h, fun _ h => h, fun _ h => h, fun _ h => h, fun _ _ h => h, fun _ _ h => h⟩
    refine hI.pendingSlashes (fun _ h => h) ?_
    rw [(backupAndReward_quiet s.tick).now, if_neg (by omega)]
    unfold State.backupAndReward
    simp only [if_pos htick]
    rfl
  · exact (congrArg (fun r => r.now % oneDay) hf).trans htick
  · refine (congrArg Fleet.queue hf).trans ?_
    rw [Nat.zero_mul, drop_zero]
    exact if_pos htick

/-- **The daily pass reaches every machine**: the sixty blocks after the one that lists the machines
make one call for every position of the list, in its order and all on the same terms, and leave
the list empty. A block makes its calls one after another, and one for a machine without a reward
record does nothing. -/
theorem daily_pass_complete (crypto : Crypto A) (s : State A)
    (hs : (genesisSystem crypto).Reach (fun _ _ => True) s) (hday : s.now % oneDay = 1)
    (ops : List (EraOp A)) (hops : ops.countP EraOp.isBlock = 60) :
    (applyBlock crypto s .nextBlock).rewards.allMachineIdSnap = s.tick.bonded ∧
      callsOf crypto (applyBlock crypto s .nextBlock) ops =
        s.tick.bonded.map (applyBlock crypto s .nextBlock).rewardCall ∧
      (ops.foldl (applyBlock crypto) (applyBlock crypto s .nextBlock)).rewards.allMachineIdSnap =
      [] ∧
      (∀ t : State A, t.tick.now % oneDay ≠ 2 → t.tick.backupAndReward =
        ((passCalls t .nextBlock).foldl RewardCall.pay t.tick).mapRewards fun r =>
          r.setSnap (t.rewards.allMachineIdSnap.drop (passCalls t .nextBlock).length) r.snapLen) ∧
      ∀ (t : State A) (c : RewardCall A), t.rewards.machineRecentReward.get c.machine = none →
        c.pay t = t := by
  obtain ⟨hlen, hpass⟩ := passing_start crypto hday
  have hera : 0 < (applyBlock crypto s .nextBlock).grades.eras.currentEra := by
    have hf : (applyBlock crypto s .nextBlock).fleet = s.tick.nextFleet := onInitialize_fleet s.tick
    have hbefore : 0 < s.fleet.era := era_started hs fun h0 => by simp [h0] at hday
    show 0 < (applyBlock crypto s .nextBlock).fleet.era
    rw [hf]
    show 0 < if (s.now + 1) % oneDay = 1 then s.fleet.era + 1 else s.fleet.era
    split <;> omega
  have hqueue : (applyBlock crypto s .nextBlock).rewards.allMachineIdSnap = s.tick.bonded := by
    rw [hpass.queue, Nat.zero_mul, drop_zero]
  obtain ⟨hcalls, hend⟩ := hpass.finish hera hlen (Nat.zero_le _) hops
  rw [hqueue] at hcalls
  refine ⟨hqueue, hcalls, hend, fun t ht => backupAndReward_pays ht, fun t c hc => ?_⟩
  unfold RewardCall.pay State.distributeRewardToMachine
  rw [hc]

/-! ## From the first block on -/

theorem genesis_fleet {I : Fleet A → Prop} (hs : (genesisSystem crypto).Reach (fun _ _ => True) s)
    (hinit : ∀ c : Committee.State A, c.now = 0 → I (State.fresh c).fleet)
    (happly : ∀ s op, I s.fleet → I (apply crypto s op).fleet)
    (hblock : ∀ s : State A, I s.fleet → I s.tick.nextFleet) : I s.fleet := by
  refine hs.invariant (I := fun s => I s.fleet) ?_ ?_
  · rintro s ⟨c, hc, rfl⟩
    exact hinit c hc
  · rintro s op _ h - rfl
    cases op with
    | profile op => exact happly s op h
    | rental op => exact (applyRent_fleet s op).symm ▸ h
    | nextBlock => exact (onInitialize_fleet s.tick).symm ▸ hblock s h

/-- **The era is the day**, whatever is called: a new one starts with the first block of each. -/
theorem era_is_day (crypto : Crypto A) (s : State A)
    (hs : (genesisSystem crypto).Reach (fun _ _ => True) s) :
    s.grades.eras.currentEra = (s.now + (oneDay - 1)) / oneDay := by
  refine genesis_fleet (I := fun r => r.era = (r.now + (oneDay - 1)) / oneDay) hs ?_ ?_ ?_
  · intro c hc
    show 0 = (c.now + _) / _
    rw [hc]
    rfl
  · intro s op h
    have hq := apply_sameQueue crypto s op
    rw [hq.now, hq.era]
    exact h
  · intro s h
    change s.fleet.era = (s.now + 14399) / 14400 at h
    show (if (s.now + 1) % 14400 = 1 then s.fleet.era + 1 else s.fleet.era) =
      (s.now + 1 + 14399) / 14400
    split <;> omega

/-- **A machine belongs to the stash its key has named**: no call hands it to another one. -/
theorem machines_vouched (crypto : Crypto A) (s : State A)
    (hs : (genesisSystem crypto).Reach (fun _ _ => True) s) (m : MachineId) (i : MachineInfo A)
    (hi : s.machine m = some i) : Vouched crypto i.machineStash m := by
  refine genesis_fleet (I := fun r => ∀ m a n, r.card m = some (a, n) → Vouched crypto a m) hs
    (fun _ _ _ _ _ hc => nomatch hc) (fun _ _ h _ _ _ => apply_vouched h) (fun _ h => h) m _ _
    (fleet_card hi)

end

namespace PassDemo

open RewardDemo (crypto bonding)

def start : State Nat := .fresh { RewardDemo.start.toCommittee with now := 0 }

/-- The first block of the first day, in which a machine is bonded. -/
def bonded : State Nat := bonding.foldl (applyBlock crypto) start

theorem bonded_reach : (genesisSystem crypto).Reach (fun _ _ => True) bonded :=
  System.Reach.path (f := applyBlock crypto) (P := fun _ _ => True) (.init ⟨_, rfl, rfl⟩)
    (fun _ _ _ => ⟨trivial, rfl⟩) (System.Path.of_forall (fun _ _ _ => trivial) _)

end PassDemo

open PassDemo RewardDemo in
theorem daily_pass_first :
    (callsOf crypto (applyBlock crypto bonded .nextBlock) (List.replicate 60 .nextBlock)).map
      RewardCall.machine = [EraDemo.machineId] := by
  have hpass := daily_pass_complete crypto bonded bonded_reach (by decide +kernel)
    (List.replicate 60 .nextBlock) (by decide)
  have hlist : bonded.tick.bonded = [EraDemo.machineId] := by decide +kernel
  rw [hpass.2.1, hlist]
  rfl

open PassDemo RewardDemo in
theorem era_is_day_bonded : bonded.grades.eras.currentEra = 1 :=
  era_is_day crypto bonded bonded_reach

open PassDemo RewardDemo in
theorem machines_vouched_bonded :
    ∃ i, bonded.machine EraDemo.machineId = some i ∧
      Vouched crypto i.machineStash EraDemo.machineId := by
  obtain ⟨i, hi⟩ := Option.isSome_iff_exists.1
    (by decide +kernel : (bonded.machine EraDemo.machineId).isSome = true)
  exact ⟨i, hi, machines_vouched crypto bonded bonded_reach _ i hi⟩

end DeepBrainChain.OnlineProfile
