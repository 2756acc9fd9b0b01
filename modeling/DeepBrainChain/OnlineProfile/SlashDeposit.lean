import DeepBrainChain.OnlineProfile.Fleet

/-!
# The execution of an offline slash

`do_slash_deposit` takes a slash from the reserve of a stash in three parts and then looks whether
the stake that is left covers the cards of the machine. The status it decides on is written into a
copy of the record that is dropped, so the machine keeps the status it has.
-/

namespace DeepBrainChain.OnlineProfile

open Lib GenericFunc Support Lib.Call

section

variable {A : Type} [LinearOrder A]

section

omit [LinearOrder A]

/-- The part of a slash for the renters. -/
def rewardToReporter (i : OPPendingSlashInfo A) : Nat :=
  if i.renters.isEmpty then 0 else (Perbill.fromRational 10 100).mul i.slashAmount

def rewardToCommittee (i : OPPendingSlashInfo A) : Nat :=
  if i.rewardToCommittee.isSome then (Perbill.fromRational 20 100).mul i.slashAmount else 0

def slashToTreasury (i : OPPendingSlashInfo A) : Nat :=
  i.slashAmount - rewardToReporter i - rewardToCommittee i

end

/-- The three payments of `do_slash_deposit`. -/
def State.takeSlash (s : State A) (i : OPPendingSlashInfo A) : State A :=
  let s := if 0 < rewardToReporter i then
    s.slashAndReward i.slashWho (rewardToReporter i) i.renters else s
  let s :=
    if 0 < rewardToCommittee i then
      s.slashAndReward i.slashWho (rewardToCommittee i) (i.rewardToCommittee.getD [])
    else s
  s.slashAndReward i.slashWho (slashToTreasury i) []

/-- `try_to_change_machine_status_to_fulfill`: the copy of the record after it. -/
def State.tryToChangeMachineStatusToFulfill (s : State A) (slashAccount : A)
    (i : MachineInfo A) : Option (MachineInfo A) :=
  s.stakePerGpu.bind fun perGpu =>
    (checkedMul u128Max perGpu i.gpuNum).map fun need =>
      if s.stashStake slashAccount < need then i.setStatus .waitingFulfill else i

/-- `do_slash_deposit` with its result. -/
def slashDeposit (i : OPPendingSlashInfo A) : Call (State A) Unit Unit := do
  let s ← get
  let info ← okOr (s.machine i.machineId) ()
  if s.balances.reserved info.machineStash < i.slashAmount then pure ()
  else do
    set (s.takeSlash i)
    let _ ← okOr ((s.takeSlash i).tryToChangeMachineStatusToFulfill i.slashWho info) ()
    pure ()

variable {s s' : State A} {i : OPPendingSlashInfo A} {info : MachineInfo A} {who : A}

/-- The storage does not depend on the result. -/
theorem slashDeposit_storage (s : State A) (i : OPPendingSlashInfo A) :
    ((slashDeposit i).run s).2 = s.doSlashDeposit i := by
  unfold slashDeposit State.doSlashDeposit
  cases hm : s.machine i.machineId with
  | none =>
    simp only [run_bind, run_get, hm]
    rfl
  | some info =>
    by_cases hshort : s.balances.reserved info.machineStash < i.slashAmount
    · simp only [run_bind, run_get, hm, run_okOr_some, if_pos hshort, run_pure]
    · simp only [run_bind, run_get, hm, run_okOr_some, if_neg hshort, run_set]
      cases (s.takeSlash i).tryToChangeMachineStatusToFulfill i.slashWho info with
      | none => rfl
      | some w => rfl

/-! ## The parts -/

omit [LinearOrder A] in
theorem parts_le (i : OPPendingSlashInfo A) :
    rewardToReporter i + rewardToCommittee i ≤ i.slashAmount := by
  have hboth := Perbill.mul_add_mul_le (r := .fromRational 10 100) (q := .fromRational 20 100)
    (by decide) i.slashAmount
  unfold rewardToReporter rewardToCommittee
  split <;> split <;> omega

theorem stashStake_slashAndReward (s : State A) (who x : A) (amount : Nat) (l : List A) :
    (s.slashAndReward who amount l).stashStake x =
      s.stashStake x - if x = who then amount else 0 := by
  show (s.stakes.stashStake.insert who (s.stashStake who - amount)).getD x 0 = _
  rw [StorageMap.getD_insert]
  split
  · next h => rw [h]
  · rfl

theorem stashStake_slashIf (s : State A) (who x : A) (amount : Nat) (l : List A) :
    (if 0 < amount then s.slashAndReward who amount l else s).stashStake x =
      s.stashStake x - if x = who then amount else 0 := by
  split
  · exact stashStake_slashAndReward s who x amount l
  · next h =>
    have hzero : amount = 0 := by omega
    simp [hzero]

/-- **The three parts together take the amount of the slash from the stake of the stash.** -/
theorem takeSlash_stashStake (s : State A) (i : OPPendingSlashInfo A) (x : A) :
    (s.takeSlash i).stashStake x =
      s.stashStake x - if x = i.slashWho then i.slashAmount else 0 := by
  have hparts := parts_le i
  unfold State.takeSlash
  simp only
  rw [stashStake_slashAndReward, stashStake_slashIf, stashStake_slashIf]
  unfold slashToTreasury
  split <;> omega

theorem takeSlash_machines (s : State A) (i : OPPendingSlashInfo A) :
    (s.takeSlash i).machines = s.machines ∧ (s.takeSlash i).stakePerGpu = s.stakePerGpu := by
  unfold State.takeSlash
  simp only
  split <;> split <;> exact ⟨rfl, rfl⟩

/-! ## The status of a machine whose stake ran short -/

/-- After the slash the machine has to be topped up if the stake of the stash does not cover its
cards, and is as it was otherwise. -/
structure ToppedUp (s s' : State A) (i : OPPendingSlashInfo A) (need : Nat) : Prop where
  short : s'.stashStake i.slashWho < need →
    (s'.machine i.machineId).map MachineInfo.machineStatus = some .waitingFulfill ∧
      i.machineId ∈ s'.machines.liveMachines.fulfillingMachine
  enough : need ≤ s'.stashStake i.slashWho →
    (s'.machine i.machineId).map MachineInfo.machineStatus =
      (s.machine i.machineId).map MachineInfo.machineStatus

/-- **An executed slash leaves the status of its machine alone**, so the machine is in the right
status exactly if the stake covers its cards after the slash or it was already being topped up. -/
theorem toppedUp_iff (s : State A) (i : OPPendingSlashInfo A) (info : MachineInfo A)
    (hm : s.machine i.machineId = some info)
    (hcover : i.slashAmount ≤ s.balances.reserved info.machineStash)
    (hok : ((slashDeposit i).run s).1.isOk = true) :
    ∃ perGpu, s.stakePerGpu = some perGpu ∧
      ((slashDeposit i).run s).2.stakePerGpu = some perGpu ∧
      (ToppedUp s ((slashDeposit i).run s).2 i (perGpu * info.gpuNum) ↔
        perGpu * info.gpuNum ≤ s.stashStake i.slashWho - i.slashAmount ∨
          info.machineStatus = .waitingFulfill ∧
            i.machineId ∈ s.machines.liveMachines.fulfillingMachine) := by
  obtain ⟨u, hrun⟩ := run_of_isOk hok
  generalize ((slashDeposit i).dispatch s).2 = s' at hrun
  rw [hrun]
  dsimp only
  unfold slashDeposit at hrun
  simp only [run_ok, hm, Option.some.injEq, if_neg (Nat.not_lt.2 hcover)] at hrun
  obtain ⟨w, hw, rfl⟩ := hrun
  obtain ⟨perGpu, hper, -⟩ := Option.bind_eq_some_iff.1 hw
  obtain ⟨hmachines, hsame⟩ := takeSlash_machines s i
  refine ⟨perGpu, hsame ▸ hper, hper, ?_⟩
  have hrecord : (s.takeSlash i).machine i.machineId = some info := by
    unfold State.machine
    rw [hmachines]
    exact hm
  have hstake := takeSlash_stashStake s i i.slashWho
  rw [if_pos rfl] at hstake
  constructor
  · intro h
    by_cases hshort : (s.takeSlash i).stashStake i.slashWho < perGpu * info.gpuNum
    · obtain ⟨hstatus, hlist⟩ := h.short hshort
      rw [hrecord, Option.map_some, Option.some.injEq] at hstatus
      rw [hmachines] at hlist
      exact .inr ⟨hstatus, hlist⟩
    · exact .inl (by omega)
  · intro h
    constructor
    · intro hshort
      rw [hrecord, hmachines, Option.map_some, Option.some.injEq]
      exact h.resolve_left (by omega)
    · intro _
      rw [hrecord, hm]

end

namespace SlashDemo

open CounterDemo

/-- The stash 1 has a machine with four cards online, and the stake of a card is `perGpu` now. -/
def staked (perGpu : Nat) : State Nat :=
  after (.profile (.setOnlineStakeParams ⟨1000, 1000, 10, 10⟩) :: setup.tail ++ bring first ++
    [verify first, .profile (.setOnlineStakeParams ⟨perGpu, 1000, 10, 10⟩)])

def slash : OPPendingSlashInfo Nat where
  slashWho := 1
  machineId := first
  slashTime := 0
  slashAmount := 10
  slashExecTime := 0
  reporter := none
  renters := [2]
  rewardToCommittee := some [3]
  slashReason := .onlineReportOffline 0

end SlashDemo

open SlashDemo CounterDemo in
theorem toppedUp_enough :
    ((slashDeposit slash).run (staked 5)).2.stashStake 1 = 30 ∧
      ToppedUp (staked 5) ((slashDeposit slash).run (staked 5)).2 slash 20 := by
  obtain ⟨info, hinfo⟩ := Option.isSome_iff_exists.1
    (show ((staked 5).machine first).isSome = true by decide +kernel)
  have hgpus : ((staked 5).machine first).map (·.gpuNum) = some 4 := by decide +kernel
  have hstash : ((staked 5).machine first).map (·.machineStash) = some 1 := by decide +kernel
  rw [hinfo, Option.map_some, Option.some.injEq] at hgpus hstash
  have hreserve : slash.slashAmount ≤ (staked 5).balances.reserved info.machineStash := by
    rw [hstash]
    decide +kernel
  obtain ⟨perGpu, hper, -, hiff⟩ := toppedUp_iff (staked 5) slash info hinfo hreserve
    (by decide +kernel)
  have hfive : (staked 5).stakePerGpu = some 5 := by decide +kernel
  rw [hper, Option.some.injEq] at hfive
  have hcovered : 20 ≤ (staked 5).stashStake slash.slashWho - slash.slashAmount := by decide +kernel
  rw [hgpus, hfive, show 5 * 4 = 20 from rfl] at hiff
  exact ⟨by decide +kernel, hiff.2 (.inl hcovered)⟩

open SlashDemo CounterDemo in
/-- After the slash a stake of 30 has to cover four cards of 100, and the machine is still online. -/
theorem short_stake_stays_online :
    ((slashDeposit slash).run (staked 100)).1.isOk = true ∧
      ((slashDeposit slash).run (staked 100)).2.stashStake 1 = 30 ∧
      ((slashDeposit slash).run (staked 100)).2.stakePerGpu = some 100 ∧
      ¬ ToppedUp (staked 100) ((slashDeposit slash).run (staked 100)).2 slash 400 := by
  refine ⟨by decide +kernel, by decide +kernel, by decide +kernel, fun h => ?_⟩
  exact absurd (h.short (by decide +kernel)).1 (by decide +kernel)

end DeepBrainChain.OnlineProfile
