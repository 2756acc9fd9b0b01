import DeepBrainChain.OnlineProfile.EraPayout
import DeepBrainChain.OnlineProfile.Ops

/-!
# The snapshots of the current and of the next era

How the snapshots of two eras follow the events of a machine. `Graded` is the invariant: both
snapshots are sound, a machine that is offline is not in the next one, and no machine of the set
`off` is in the current one. An event keeps it when the machine is where the code expects it to
be (`Label.Fits`).
-/

namespace DeepBrainChain.OnlineProfile

open Lib GenericFunc Support Lib.Call StorageMap List

section

variable {A : Type} [LinearOrder A]

namespace Eras

def snapshot (g : Eras A) (era : Nat) : Snapshot A := ⟨g.stashPoints era, g.machinePoints era⟩

def current (g : Eras A) : Snapshot A := g.snapshot g.currentEra

def next (g : Eras A) : Snapshot A := g.snapshot (g.currentEra + 1)

variable {g : Eras A} {m : MachineId} {i : MachineInfo A}

section

omit [LinearOrder A]

theorem snapshot_putEra (era era' : Nat) (a : EraStashPoints A)
    (b : StorageMap MachineId MachineGradeStatus) :
    (g.putEra era a b).snapshot era' = if era' = era then ⟨a, b⟩ else g.snapshot era' := by
  simp only [snapshot, stashPoints, machinePoints, putEra, getD_insert]
  split <;> rfl

theorem currentEra_putEra (era : Nat) (a : EraStashPoints A)
    (b : StorageMap MachineId MachineGradeStatus) :
    (g.putEra era a b).currentEra = g.currentEra := rfl

end

theorem onOnlineChanged_true :
    (g.onOnlineChanged m i true).current = g.current ∧
      (g.onOnlineChanged m i true).next = g.next.addMachine m i := by
  simp only [onOnlineChanged, if_true, current, next, currentEra_putEra, snapshot_putEra]
  refine ⟨?_, rfl⟩
  rw [if_neg (by omega)]

theorem onOnlineChanged_false (h : g.current.machines.contains m = true) :
    (g.onOnlineChanged m i false).current = g.current.removeMachine m i ∧
      (g.onOnlineChanged m i false).next = g.next.removeMachine m i := by
  have hc : (g.machinePoints g.currentEra).contains m = true := h
  simp only [onOnlineChanged, Bool.false_eq_true, if_false, hc, if_true, current, next,
    currentEra_putEra, snapshot_putEra]
  refine ⟨rfl, ?_⟩
  rw [if_neg (by omega)]
  rfl

theorem onRentChanged_true :
    (g.onRentChanged m i true).current = g.current ∧
      (g.onRentChanged m i true).next = g.next.setRented m i true := by
  simp only [onRentChanged, if_true, current, next, currentEra_putEra, snapshot_putEra]
  refine ⟨?_, rfl⟩
  rw [if_neg (by omega)]

theorem onRentChanged_false {c : MachineGradeStatus} (h : g.current.machines.get m = some c) :
    (g.onRentChanged m i false).next = g.next.setRented m i false ∧
      (g.onRentChanged m i false).current = if c.isRented then g.current.setRented m i false
        else ⟨g.current.stashes, g.current.machines.insert m ⟨i.calcPoint, false⟩⟩ := by
  have hc : (g.machinePoints g.currentEra).get m = some c := h
  simp only [onRentChanged, Bool.false_eq_true, if_false, hc, current, next, currentEra_putEra,
    snapshot_putEra, if_true]
  refine ⟨?_, ?_⟩
  · rw [if_neg (by omega)]
    rfl
  · split <;> rfl

end Eras

/-! ## Where a machine has to be -/

/-- A machine that is in both snapshots, and rented in neither. -/
def Eras.Idle (g : Eras A) (m : MachineId) : Prop :=
  ∃ c n, g.current.machines.get m = some c ∧ g.next.machines.get m = some n ∧
    c.isRented = false ∧ n.isRented = false

/-- A machine that is in both snapshots, and rented in the next one. -/
def Eras.Busy (g : Eras A) (m : MachineId) : Prop :=
  ∃ c n, g.current.machines.get m = some c ∧ g.next.machines.get m = some n ∧ n.isRented = true

/-- A machine that is in neither snapshot. -/
def Eras.Absent (g : Eras A) (m : MachineId) : Prop :=
  g.current.machines.get m = none ∧ g.next.machines.get m = none

def Eras.Sound (owner : MachineId → Option (MachineInfo A)) (g : Eras A) : Prop :=
  g.current.Sound owner ∧ g.next.Sound owner

def Eras.Shrinks (g g' : Eras A) : Prop :=
  (∀ m, g.current.machines.get m = none → g'.current.machines.get m = none) ∧
    ∀ m, g.next.machines.get m = none → g'.next.machines.get m = none

section Edits

variable {owner : MachineId → Option (MachineInfo A)} {g : Eras A} {m : MachineId}
  {i : MachineInfo A}

omit [LinearOrder A] in
theorem Eras.Shrinks.trans {g' g'' : Eras A} (h : g.Shrinks g') (h' : g'.Shrinks g'') :
    g.Shrinks g'' := ⟨fun m hm => h'.1 m (h.1 m hm), fun m hm => h'.2 m (h.2 m hm)⟩

variable {x : StorageMap MachineId MachineGradeStatus} {m' : MachineId}

theorem get_remove_none (h : x.get m' = none) : (x.remove m).get m' = none := by
  rw [get_remove, h, ite_self]

theorem get_insert_none {c y : MachineGradeStatus} (hc : x.get m = some c) (h : x.get m' = none) :
    (x.insert m y).get m' = none := by
  rw [get_insert, if_neg, h]
  rintro rfl
  rw [hc] at h
  cases h

/-- A machine that is not rented leaves. -/
theorem Eras.Sound.leave (h : g.Sound owner) (hi : owner m = some i) (hm : g.Idle m) :
    (g.onOnlineChanged m i false).Sound owner ∧ g.Shrinks (g.onOnlineChanged m i false) ∧
      (g.onOnlineChanged m i false).Absent m := by
  obtain ⟨c, n, hc, hn, hcr, hnr⟩ := hm
  have hcontains : g.current.machines.contains m = true := by
    unfold StorageMap.contains
    rw [hc]
    rfl
  obtain ⟨hcur, hnext⟩ := Eras.onOnlineChanged_false (i := i) hcontains
  unfold Eras.Sound Eras.Shrinks Eras.Absent
  rw [hcur, hnext]
  exact ⟨⟨h.1.removeMachine hi hc hcr, h.2.removeMachine hi hn hnr⟩, ⟨fun _ => get_remove_none, fun
    _ => get_remove_none⟩, get_remove_self .., get_remove_self ..⟩

theorem Eras.Sound.giveBack (h : g.Sound owner) (hi : owner m = some i) (hm : g.Busy m) :
    (g.onRentChanged m i false).Sound owner ∧ g.Shrinks (g.onRentChanged m i false) ∧
      (g.onRentChanged m i false).Idle m := by
  obtain ⟨c, n, hc, hn, hnr⟩ := hm
  obtain ⟨hnext, hcur⟩ := Eras.onRentChanged_false (i := i) hc
  have hnew : (g.onRentChanged m i false).current.machines =
      g.current.machines.insert m ⟨i.calcPoint, false⟩ := by
    rw [hcur]
    split <;> rfl
  unfold Eras.Sound Eras.Shrinks Eras.Idle
  refine ⟨⟨?_, ?_⟩, ⟨fun m' hm' => ?_, fun m' hm' => ?_⟩,
    ⟨⟨i.calcPoint, false⟩, ⟨i.calcPoint, false⟩, ?_, ?_, rfl, rfl⟩⟩
  · rw [hcur]
    split
    · next hcr => exact h.1.setRented hi hc hcr fun hf => by cases hf
    · next hcr => exact h.1.putAgain hi hc false (Bool.eq_false_iff.2 hcr)
  · rw [hnext]
    exact h.2.setRented hi hn hnr fun hf => by cases hf
  · rw [hnew]
    exact get_insert_none hc hm'
  · rw [hnext]
    exact get_insert_none hn hm'
  · rw [hnew]
    exact get_insert_self ..
  · rw [hnext]
    exact get_insert_self ..

end Edits

/-! ## The invariant -/

/-- **The snapshots agree with each other and with the machines**; no machine in `off` is in the
current one. -/
structure Graded (off : MachineId → Prop) (s : State A) : Prop where
  sound : s.grades.eras.Sound s.machine
  offline : ∀ {m i}, s.machine m = some i → i.machineStatus.isOffline = true →
    s.grades.eras.next.machines.get m = none
  before : ∀ {m i}, s.machine m = some i → i.machineStatus.isOffline = true →
    (statusBefore i.machineStatus).isOffline = false
  started : ∀ m, off m → s.grades.eras.current.machines.get m = none

def Label.Fits (s : State A) : Label → Prop
  | .quiet | .bond _ => True
  | .online m => ∀ i, s.machine m = some i → s.grades.eras.next.machines.get m = none ∧
      s.grades.eras.next.Room i.machineStash i.gpuNum i.calcPoint ∧
      s.grades.eras.next.RentRoom i.machineStash i.calcPoint
  | .verify hw => ∀ i, s.machine hw.machineId = some i → s.grades.eras.Absent hw.machineId ∧
      s.grades.eras.next.Room i.machineStash hw.gpuNum hw.calcPoint
  | .offline m => ∀ i, s.machine m = some i →
      if i.machineStatus = .rented then s.grades.eras.Busy m else s.grades.eras.Idle m
  | .exit m => ∀ i, s.machine m = some i → s.grades.eras.Idle m
  | .refuse m => ∀ i, s.machine m = some i → s.grades.eras.Absent m

section Events

variable {s s' : State A} {off : MachineId → Prop} {m : MachineId} {i i' : MachineInfo A}

variable {m' : MachineId} {owner : MachineId → Option (MachineInfo A)} {g : Eras A}
  {o : Option (MachineInfo A)}

/-- A write of the record of one machine that keeps its owner and hardware. -/
theorem kept_write (hm : ∀ m', s'.machine m' = if m' = m then some i' else s.machine m')
    (h : s.machine m = some i) (k : Kept i i') {j : MachineInfo A}
    (hj : s.machine m' = some j) : ∃ j', s'.machine m' = some j' ∧ Kept j j' := by
  rw [hm]
  split
  · next e =>
    subst e
    rw [h] at hj
    cases hj
    exact ⟨i', rfl, k⟩
  · exact ⟨j, hj, rfl, rfl, rfl⟩

theorem Eras.Sound.congr {owner' : MachineId → Option (MachineInfo A)} (h : g.Sound owner)
    (ho : ∀ {m i}, owner m = some i → ∃ i', owner' m = some i' ∧ Kept i i') :
    g.Sound owner' := ⟨h.1.congr fun _ hi => ho hi, h.2.congr fun _ hi => ho hi⟩

/-- A machine that is in neither snapshot may change or vanish. -/
theorem Eras.Sound.touch (h : g.Sound s.machine) (t : Touch m o s s')
    (hm : g.Absent m) : g.Sound s'.machine := by
  have hother : ∀ {m' c}, g.current.machines.get m' = some c ∨ g.next.machines.get m' = some c →
      s'.machine m' = s.machine m' := by
    intro m' c hc
    rw [t.machine, if_neg]
    rintro rfl
    rcases hc with hc | hc
    · rw [hm.1] at hc
      cases hc
    · rw [hm.2] at hc
      cases hc
  refine ⟨h.1.congr fun {m' c j} hc hj => ?_, h.2.congr fun {m' c j} hc hj => ?_⟩
  · exact ⟨j, (hother (.inl hc)).trans hj, rfl, rfl, rfl⟩
  · exact ⟨j, (hother (.inr hc)).trans hj, rfl, rfl, rfl⟩

/-- Neither the machines nor the snapshots change. -/
theorem Graded.same (h : Graded off s) (hm : ∀ m, s'.machine m = s.machine m)
    (he : s'.grades.eras = s.grades.eras) : Graded off s' := by
  refine ⟨he ▸ h.sound.congr fun {m i} hi => ⟨i, (hm m).trans hi, rfl, rfl, rfl⟩,
    fun hi hoff => ?_, fun hi hoff => ?_, fun m hm => he ▸ h.started m hm⟩
  · rw [hm] at hi
    rw [he]
    exact h.offline hi hoff
  · rw [hm] at hi
    exact h.before hi hoff

/-- The snapshots are left alone, and a machine keeps its owner and hardware. -/
theorem Graded.stays (h : Graded off s) (hi : s.machine m = some i)
    (hm : ∀ m', s'.machine m' = if m' = m then some i' else s.machine m') (k : Stays i i')
    (he : s'.grades.eras = s.grades.eras) : Graded off s' := by
  -- an offline machine was offline before, with the same status
  have hback : ∀ {m' j'}, s'.machine m' = some j' → j'.machineStatus.isOffline = true →
      ∃ j, s.machine m' = some j ∧ j.machineStatus = j'.machineStatus := by
    intro m' j' hj' hoff
    rw [hm] at hj'
    split at hj'
    · next e =>
      subst e
      cases hj'
      exact ⟨i, hi, (k.offline hoff).symm⟩
    · exact ⟨j', hj', rfl⟩
  refine ⟨?_, fun hj hoff => ?_, fun hj hoff => ?_, fun m' hm' => ?_⟩
  · rw [he]
    exact h.sound.congr fun hj => kept_write hm hi k.toKept hj
  · obtain ⟨j, hj', hst⟩ := hback hj hoff
    rw [he]
    exact h.offline hj' (hst ▸ hoff)
  · obtain ⟨j, hj', hst⟩ := hback hj hoff
    rw [← hst]
    exact h.before hj' (hst ▸ hoff)
  · rw [he]
    exact h.started m' hm'

/-- The record of one machine is written, and the snapshots follow. -/
theorem Graded.move (h : Graded off s)
    (hm : ∀ m', s'.machine m' = if m' = m then o else s.machine m')
    (hsound : s'.grades.eras.Sound s'.machine)
    (hcur : ∀ m', s.grades.eras.current.machines.get m' = none →
      s'.grades.eras.current.machines.get m' = none)
    (hnext : ∀ m', m' ≠ m → s.grades.eras.next.machines.get m' = none →
      s'.grades.eras.next.machines.get m' = none)
    (ho : ∀ i', o = some i' → i'.machineStatus.isOffline = true →
      s'.grades.eras.next.machines.get m = none ∧
        (statusBefore i'.machineStatus).isOffline = false) : Graded off s' := by
  refine ⟨hsound, fun {m' j} hj hoff => ?_, fun {m' j} hj hoff => ?_,
    fun m' hm' => hcur m' (h.started m' hm')⟩
  · rw [hm] at hj
    split at hj
    · next e => exact e ▸ (ho j hj hoff).1
    · next e => exact hnext m' e (h.offline hj hoff)
  · rw [hm] at hj
    split at hj
    · exact (ho j hj hoff).2
    · exact h.before hj hoff

theorem Eras.Sound.absent (h : g.Sound owner) (hm : owner m = none) : g.Absent m := by
  have hnone : ∀ {x : Snapshot A}, x.Sound owner → x.machines.get m = none := by
    intro x hx
    cases hg : x.machines.get m with
    | none => rfl
    | some c =>
      obtain ⟨j, hj, -⟩ := hx.entry hg
      rw [hm] at hj
      cases hj
  exact ⟨hnone h.1, hnone h.2⟩

theorem get_insert_none_ne {x : StorageMap MachineId MachineGradeStatus} {y : MachineGradeStatus}
    (hne : m' ≠ m) (h : x.get m' = none) : (x.insert m y).get m' = none := by
  rw [get_insert_ne x y hne, h]

/-- A machine that comes online was not taken offline twice. -/
theorem Graded.back (h : Graded off s) (hi : s.machine m = some i) (hb : FromBefore i i') :
    i'.machineStatus.isOffline = false := by
  by_contra hoff
  obtain ⟨hi', hbefore⟩ := hb (Bool.eq_true_of_not_eq_false hoff)
  rw [h.before hi hi'] at hbefore
  cases hbefore

theorem rentRoom_addMachine {x : Snapshot A} (h : x.Sound owner) (hi : owner m = some i)
    (hm : x.machines.get m = none) (hr : x.Room i.machineStash i.gpuNum i.calcPoint)
    (hx : x.RentRoom i.machineStash i.calcPoint) :
    (x.addMachine m i).RentRoom i.machineStash i.calcPoint := by
  have hadd := h.addMachine hi hm hr
  unfold Snapshot.RentRoom at hx ⊢
  rw [hadd.extra]
  rw [h.extra] at hx
  have hins := tally_insert (stashOf owner) (fun _ g => g.extraGrade) hm
    ⟨i.calcPoint, false⟩ i.machineStash
  rw [extraGrade_false, ite_self, Nat.zero_add] at hins
  exact hins.symm ▸ hx

theorem Graded.online (h : Graded off s) (hi : s.machine m = some i) (t : Touch m (some i') s s')
    (k : Kept i i') (hb : FromBefore i i') (hf : (Label.online m).Fits s)
    (he : s'.grades.eras = s.grades.eras.onOnlineChanged m i true) : Graded off s' := by
  obtain ⟨hnone, hroom, -⟩ := hf i hi
  obtain ⟨hcur, hnext⟩ := Eras.onOnlineChanged_true (g := s.grades.eras) (m := m) (i := i)
  rw [← he] at hcur hnext
  refine h.move t.machine ?_ (fun m' hm' => hcur ▸ hm') (fun m' hne hm' => ?_) fun j hj hoff => ?_
  · have hs : s'.grades.eras.Sound s.machine :=
      ⟨hcur ▸ h.sound.1, hnext ▸ h.sound.2.addMachine hi hnone hroom⟩
    exact hs.congr fun hj => kept_write t.machine hi k hj
  · rw [hnext]
    exact get_insert_none_ne hne hm'
  · cases hj
    rw [h.back hi hb] at hoff
    cases hoff

theorem Graded.onlineRented (h : Graded off s) (hi : s.machine m = some i)
    (t : Touch m (some i') s s') (k : Kept i i') (hb : FromBefore i i')
    (hf : (Label.online m).Fits s)
    (he : s'.grades.eras = (s.grades.eras.onOnlineChanged m i true).onRentChanged m i true) :
    Graded off s' := by
  obtain ⟨hnone, hroom, hrent⟩ := hf i hi
  obtain ⟨hcur, hnext⟩ := Eras.onOnlineChanged_true (g := s.grades.eras) (m := m) (i := i)
  obtain ⟨hcur', hnext'⟩ :=
    Eras.onRentChanged_true (g := s.grades.eras.onOnlineChanged m i true) (m := m) (i := i)
  rw [← he, hcur] at hcur'
  rw [← he, hnext] at hnext'
  refine h.move t.machine ?_ (fun m' hm' => hcur' ▸ hm') (fun m' hne hm' => ?_) fun j hj hoff => ?_
  · have hadd := h.sound.2.addMachine hi hnone hroom
    have hnew : (s.grades.eras.next.addMachine m i).machines.get m = some ⟨i.calcPoint, false⟩ :=
      get_insert_self ..
    have hs : s'.grades.eras.Sound s.machine :=
      ⟨hcur' ▸ h.sound.1, hnext' ▸ hadd.setRented hi hnew rfl fun _ =>
        rentRoom_addMachine h.sound.2 hi hnone hroom hrent⟩
    exact hs.congr fun hj => kept_write t.machine hi k hj
  · rw [hnext']
    exact get_insert_none_ne hne (get_insert_none_ne hne hm')
  · cases hj
    rw [h.back hi hb] at hoff
    cases hoff

theorem Graded.verify {hw : CommitteeUploadInfo} (h : Graded off s)
    (hi : s.machine hw.machineId = some i) (t : Touch hw.machineId (some i') s s')
    (hs : i'.machineStash = i.machineStash) (hh : i'.committeeUploadInfo = hw)
    (hoff : i'.machineStatus.isOffline = false) (hf : (Label.verify hw).Fits s)
    (he : s'.grades.eras = s.grades.eras.onOnlineChanged hw.machineId i' true ∨
      s'.grades.eras = s.grades.eras) : Graded off s' := by
  obtain ⟨habsent, hroom⟩ := hf i hi
  have hsound := h.sound.touch t habsent
  have hstatus : ∀ j, some i' = some j → j.machineStatus.isOffline = true →
      s'.grades.eras.next.machines.get hw.machineId = none ∧
        (statusBefore j.machineStatus).isOffline = false := by
    intro j hj hj'
    cases hj
    rw [hoff] at hj'
    cases hj'
  rcases he with he | he
  · obtain ⟨hcur, hnext⟩ :=
      Eras.onOnlineChanged_true (g := s.grades.eras) (m := hw.machineId) (i := i')
    rw [← he] at hcur hnext
    have hnew : s'.machine hw.machineId = some i' := by rw [t.machine, if_pos rfl]
    have hroom' : s.grades.eras.next.Room i'.machineStash i'.gpuNum i'.calcPoint := by
      rw [hs, MachineInfo.gpuNum, MachineInfo.calcPoint, hh]
      exact hroom
    refine h.move t.machine ⟨hcur ▸ hsound.1, hnext ▸ hsound.2.addMachine hnew habsent.2 hroom'⟩
      (fun m' hm' => hcur ▸ hm') (fun m' hne hm' => ?_) hstatus
    rw [hnext]
    exact get_insert_none_ne hne hm'
  · exact h.move t.machine (he ▸ hsound) (fun m' hm' => he ▸ hm') (fun m' _ hm' => he ▸ hm') hstatus

theorem Graded.goOffline (h : Graded off s) (hi : s.machine m = some i)
    (t : Touch m (some i') s s') (k : Kept i i')
    (hb : statusBefore i'.machineStatus = i.machineStatus) (hf : (Label.offline m).Fits s)
    (he : s'.grades.eras = (if i.machineStatus = .rented then
      s.grades.eras.onRentChanged m i false else s.grades.eras).onOnlineChanged m i false) :
    Graded off s' := by
  have hfit := hf i hi
  -- the machine is in the next snapshot, so it was not offline
  have hon : i.machineStatus.isOffline = false := by
    by_contra hoff
    have hnone := h.offline hi (Bool.eq_true_of_not_eq_false hoff)
    split at hfit
    · obtain ⟨_, _, -, hn, -⟩ := hfit
      rw [hnone] at hn
      cases hn
    · obtain ⟨_, _, -, hn, -⟩ := hfit
      rw [hnone] at hn
      cases hn
  have hleft : s'.grades.eras.Sound s.machine ∧ s.grades.eras.Shrinks s'.grades.eras ∧
      s'.grades.eras.Absent m := by
    rw [he]
    split
    · next hr =>
      rw [if_pos hr] at hfit
      obtain ⟨hsound, hshrinks, hidle⟩ := h.sound.giveBack hi hfit
      obtain ⟨hsound', hshrinks', habsent⟩ := hsound.leave hi hidle
      exact ⟨hsound', hshrinks.trans hshrinks', habsent⟩
    · next hr =>
      rw [if_neg hr] at hfit
      exact h.sound.leave hi hfit
  obtain ⟨hsound, hshrinks, habsent⟩ := hleft
  refine h.move t.machine (hsound.congr fun hj => kept_write t.machine hi k hj) hshrinks.1
    (fun m' _ => hshrinks.2 m')
    fun j hj _ => ?_
  cases hj
  exact ⟨habsent.2, hb ▸ hon⟩

/-- **Every event that fits keeps the snapshots in order.** -/
theorem Graded.event {l : Label} (h : Graded off s) (he : Event s s' l) (hf : l.Fits s) :
    Graded off s' := by
  cases he with
  | same hq => exact h.same hq.machine hq.eras
  | keep hi t k e => exact h.stays hi t.machine k e
  | @bond m i hm t hoff e =>
    refine h.move t.machine (e ▸ h.sound.touch t (h.sound.absent hm)) (fun m' hm' => e ▸ hm')
      (fun m' _ hm' => e ▸ hm') fun j hj hj' => ?_
    cases hj
    rw [hoff] at hj'
    cases hj'
  | online hi t k b e => exact h.online hi t k b hf e
  | onlineRented hi t k b e => exact h.onlineRented hi t k b hf e
  | verify hi t hs hh hoff e => exact h.verify hi t hs hh hoff hf e
  | offline hi t k b e => exact h.goOffline hi t k b hf e
  | exit hi t e =>
    obtain ⟨hsound, hshrinks, habsent⟩ := h.sound.leave hi (hf _ hi)
    rw [← e] at hsound hshrinks habsent
    refine h.move t.machine (hsound.touch t habsent) hshrinks.1 (fun m' _ => hshrinks.2 m')
      fun j hj => ?_
    cases hj
  | refuse hi t e =>
    refine h.move t.machine (e ▸ h.sound.touch t (hf _ hi)) (fun m' hm' => e ▸ hm')
      (fun m' _ hm' => e ▸ hm') fun j hj => ?_
    cases hj

end Events

/-! # Runs of online-profile and its snapshots

Blocks of operations of online-profile and of the reports rent-machine makes about its orders. -/

/-! ## Reports of rent-machine -/

inductive RentOp (A : Type)
  | rentStart (m : MachineId) (gpuNum : Nat)
  | confirmed (m : MachineId) (renter : A)
  | rentEnd (m : MachineId) (gpuNum duration : Nat) (lastOfMachine lastOfRenter : Bool) (renter : A)
  | confirmExpired (m : MachineId) (gpuNum : Nat)
  | rentFee (stash : A) (m : MachineId) (toDestroy toStash : Nat)

def applyRent (s : State A) : RentOp A → State A
  | .rentStart m gpuNum => ((changeMachineStatusOnRentStart m gpuNum).run s).2
  | .confirmed m renter => ((changeMachineStatusOnConfirmed m renter).run s).2
  | .rentEnd m gpuNum duration lastOfMachine lastOfRenter renter =>
    ((changeMachineStatusOnRentEnd m gpuNum duration lastOfMachine lastOfRenter renter).run s).2
  | .confirmExpired m gpuNum => ((changeMachineStatusOnConfirmExpired m gpuNum).run s).2
  | .rentFee stash m toDestroy toStash =>
    ((changeMachineRentFee stash m toDestroy toStash).run s).2

/-- What a report needs of the snapshots: the first confirmed rental finds the machine in the next
one and not rented, the last one that ends finds it in both and rented in the next. -/
def RentOp.Fits (s : State A) : RentOp A → Prop
  | .confirmed m _ => ∀ i, s.machine m = some i → m ∉ s.machines.liveMachines.rentedMachine →
      (∃ n, s.grades.eras.next.machines.get m = some n ∧ n.isRented = false) ∧
      s.grades.eras.next.RentRoom i.machineStash i.calcPoint
  | .rentEnd m _ _ lastOfMachine _ _ => ∀ i, s.machine m = some i → 0 < i.gpuNum →
      i.machineStatus = .rented → lastOfMachine = true → s.grades.eras.Busy m
  | _ => True

section Rent

variable {s s' : State A} {off : MachineId → Prop} {m : MachineId} {i i' : MachineInfo A}

theorem Graded.events (h : Graded off s) (he : Events onlyQuiet s s') : Graded off s' := by
  induction he with
  | refl => exact h
  | tail _ hstep ih =>
    obtain ⟨l, rfl, he⟩ := hstep
    exact ih.event he trivial

theorem Graded.rental {n : Nat} (h : Graded off s) (hr : Rental m n i i' s s')
    (he : s'.grades.eras = s.grades.eras) : Graded off s' := h.stays hr.had hr.machine hr.kept he

theorem Graded.rent {renter : A} (h : Graded off s) (hi : s.machine m = some i)
    (t : Touch m (some (State.confirmedBy i renter)) s s') {n : MachineGradeStatus}
    (hn : s.grades.eras.next.machines.get m = some n) (hnr : n.isRented = false)
    (hroom : s.grades.eras.next.RentRoom i.machineStash i.calcPoint)
    (he : s'.grades.eras = s.grades.eras.onRentChanged m i true) : Graded off s' := by
  obtain ⟨hcur, hnext⟩ := Eras.onRentChanged_true (g := s.grades.eras) (m := m) (i := i)
  rw [← he] at hcur hnext
  have hs : s'.grades.eras.Sound s.machine :=
    ⟨hcur ▸ h.sound.1, hnext ▸ h.sound.2.setRented hi hn hnr fun _ => hroom⟩
  refine h.move t.machine (hs.congr fun hj => kept_write t.machine hi ⟨rfl, rfl, rfl⟩ hj)
    (fun m' hm' => hcur ▸ hm') (fun m' _ hm' => ?_) fun j hj hoff => ?_
  · rw [hnext]
    exact get_insert_none hn hm'
  · cases hj
    have hnone := h.offline hi hoff
    rw [hn] at hnone
    cases hnone

theorem Graded.giveBack {n : Nat} (h : Graded off s) (hr : Rental m n i i' s s')
    (hst : i.machineStatus = .rented) (hb : s.grades.eras.Busy m)
    (he : s'.grades.eras = s.grades.eras.onRentChanged m i false) : Graded off s' := by
  obtain ⟨hsound, hshrinks, -⟩ := h.sound.giveBack hr.had hb
  rw [← he] at hsound hshrinks
  refine h.move hr.machine (hsound.congr fun hj => kept_write hr.machine hr.had hr.kept.toKept hj)
    hshrinks.1 (fun m' _ => hshrinks.2 m') fun j hj hoff => ?_
  cases hj
  have hsame := hr.kept.offline hoff
  rw [hsame, hst] at hoff
  cases hoff

/-- **Every report that fits keeps the snapshots in order.** -/
theorem applyRent_graded {op : RentOp A} (h : Graded off s) (hf : op.Fits s) :
    Graded off (applyRent s op) := by
  cases op with
  | rentStart m gpuNum =>
    refine Post.storage (I := Graded off)
      ((changeMachineStatusOnRentStart_post m gpuNum s).mono ?_ ?_)
    · rintro _ s' ⟨i, hr, he⟩
      exact h.rental hr he
    · rintro _ s' rfl
      exact h
  | confirmed m renter =>
    refine Post.storage (I := Graded off)
      ((changeMachineStatusOnConfirmed_post m renter s).mono ?_ ?_)
    · rintro _ s' ⟨i, hi, t, he⟩
      by_cases hm : m ∈ s.machines.liveMachines.rentedMachine
      · rw [if_pos hm] at he
        exact h.stays hi t.machine ⟨⟨rfl, rfl, rfl⟩, fun _ => rfl⟩ he
      · rw [if_neg hm] at he
        obtain ⟨⟨n, hn, hnr⟩, hroom⟩ := hf i hi hm
        exact h.rent hi t hn hnr hroom he
    · rintro _ s' rfl
      exact h
  | rentEnd m gpuNum duration lastOfMachine lastOfRenter renter =>
    show Graded off ((changeMachineStatusOnRentEnd m gpuNum duration lastOfMachine lastOfRenter
      renter).run s).2
    cases hi : s.machine m with
    | none =>
      have hrun : (changeMachineStatusOnRentEnd m gpuNum duration lastOfMachine lastOfRenter
          renter).run s = (.error (), s) := by
        simp only [changeMachineStatusOnRentEnd, run_bind, run_get, hi]
        rfl
      rw [hrun]
      exact h
    | some i =>
      rcases Nat.eq_zero_or_pos i.gpuNum with hz | hg
      · have hrun : (changeMachineStatusOnRentEnd m gpuNum duration lastOfMachine lastOfRenter
            renter).run s = (.ok (), s) := by
          simp only [changeMachineStatusOnRentEnd, run_bind, run_get, hi, run_okOr_some, hz,
            if_true,
            run_pure]
        rw [hrun]
        exact h
      · obtain ⟨i', s', hrun, hr, he⟩ := changeMachineStatusOnRentEnd_run gpuNum duration
          lastOfMachine lastOfRenter renter hi hg
        rw [hrun]
        split at he
        · next hlast => exact h.giveBack hr hlast.1 (hf i hi hg hlast.1 hlast.2) he
        · exact h.rental hr he
  | confirmExpired m gpuNum =>
    show Graded off ((changeMachineStatusOnConfirmExpired m gpuNum).run s).2
    cases hi : s.machine m with
    | none =>
      unfold changeMachineStatusOnConfirmExpired
      simp only [run_bind, run_get, hi]
      split
      · exact h
      · exact h.same (fun _ => rfl) rfl
    | some i =>
      obtain ⟨i', s', hrun, hr, he⟩ := changeMachineStatusOnConfirmExpired_run gpuNum hi
      rw [hrun]
      exact h.rental hr he
  | rentFee stash m toDestroy toStash =>
    refine Post.storage (I := Graded off)
      ((changeMachineRentFee_events stash m toDestroy toStash s).mono ?_ ?_)
    · exact fun _ _ he => h.events he
    · exact fun _ _ he => h.events he

end Rent

/-! ## Operations of online-profile -/

/-- The checks that an operation makes on its caller and on the machine. -/
def Op.Allowed (s : State A) : Op A → Prop
  | .fulfillMachine controller m => ∃ i, s.machine m = some i ∧ i.controller = controller ∧
      m ∈ s.machines.liveMachines.fulfillingMachine
  | .controllerReportOffline controller m => ∃ i, s.machine m = some i ∧
      i.controller = controller ∧ (i.machineStatus = .online ∨ i.machineStatus = .rented)
  | .offlineMachineChangeHardwareInfo controller m | .machineExit controller m =>
      ∃ i, s.machine m = some i ∧ i.controller = controller ∧ i.machineStatus = .online
  | .controllerReportOnline controller m => ∃ i, s.machine m = some i ∧
      i.controller = controller ∧ i.machineStatus.isOffline = true
  | .forceMachineExit signer _ => signer ∈ s.owners.authorizedForceExitAccounts
  | _ => True

/-- An operation that passes its checks finds the machines where it expects them. -/
def Op.Fits (s : State A) (op : Op A) : Prop := op.Allowed s → ∀ l ∈ op.chain, l.Fits s

section Profile

variable {s s' : State A} {off : MachineId → Prop} {m : MachineId} {crypto : Crypto A}

theorem dispatch_allowed {ε : Type} {P : Prop} {c : Call (State A) ε Unit}
    (h : ∀ u s', c.run s = (.ok u, s') → P) : P ∨ (c.dispatch s).2 = s := by
  rcases dispatch_cases c s with ⟨u, hu⟩ | he
  · exact .inl (h u _ hu)
  · exact .inr he

/-- **An operation that fails its checks does nothing.** -/
theorem apply_allowed (crypto : Crypto A) (op : Op A) : op.Allowed s ∨ apply crypto s op = s := by
  cases op
  case fulfillMachine controller m =>
    refine dispatch_allowed fun u s' h => ?_
    unfold fulfillMachine at h
    simp only [run_ok] at h
    obtain ⟨i, hi, hc, hm, -⟩ := h
    exact ⟨i, hi, hc, hm⟩
  case controllerReportOffline controller m =>
    refine dispatch_allowed fun u s' h => ?_
    unfold controllerReportOffline at h
    simp only [run_ok] at h
    obtain ⟨i, hi, hc, hst, -⟩ := h
    exact ⟨i, hi, hc, hst⟩
  case offlineMachineChangeHardwareInfo controller m =>
    refine dispatch_allowed fun u s' h => ?_
    unfold offlineMachineChangeHardwareInfo at h
    simp only [run_ok] at h
    obtain ⟨i, hi, hc, hst, -⟩ := h
    exact ⟨i, hi, hc, hst⟩
  case controllerReportOnline controller m =>
    refine dispatch_allowed fun u s' h => ?_
    unfold controllerReportOnline at h
    simp only [run_ok] at h
    obtain ⟨i, hi, hc, t, ht, -⟩ := h
    exact ⟨i, hi, hc, offlineTime_isOffline ht⟩
  case machineExit controller m =>
    refine dispatch_allowed fun u s' h => ?_
    unfold machineExit at h
    simp only [run_ok] at h
    obtain ⟨i, hi, hc, hst, -⟩ := h
    exact ⟨i, hi, hc, hst⟩
  case forceMachineExit signer l =>
    refine dispatch_allowed fun u s' h => ?_
    unfold forceMachineExit at h
    simp only [run_ok] at h
    exact h.1
  all_goals exact .inl trivial

theorem exit_fits {m' : MachineId} (he : Event s s' (.exit m)) (hm : (Label.exit m).Fits s)
    (hf : (Label.exit m').Fits s) : (Label.exit m').Fits s' := by
  intro i' hi'
  cases he with
  | @exit _ i hi t e =>
    rw [t.machine] at hi'
    split at hi'
    · cases hi'
    · next hne =>
      obtain ⟨c, n, hc, hn, hidle⟩ := hf i' hi'
      obtain ⟨c0, n0, hc0, -⟩ := hm i hi
      have hcontains : s.grades.eras.current.machines.contains m = true := by
        unfold StorageMap.contains
        rw [hc0]
        rfl
      obtain ⟨hcur, hnext⟩ := Eras.onOnlineChanged_false (i := i) hcontains
      refine ⟨c, n, ?_, ?_, hidle⟩
      · rw [e, hcur]
        exact (get_remove_ne _ hne).trans hc
      · rw [e, hnext]
        exact (get_remove_ne _ hne).trans hn

theorem Graded.exits {l : List MachineId} (h : Graded off s) (hc : Chain (l.map Label.exit) s s')
    (hf : ∀ m ∈ l, (Label.exit m).Fits s) : Graded off s' := by
  induction l generalizing s with
  | nil => exact h.events hc
  | cons m l ih =>
    obtain ⟨s1, he, hrest⟩ := hc
    have hm := hf m mem_cons_self
    exact ih (h.event he hm) hrest fun m' hm' => exit_fits he hm (hf m' (mem_cons_of_mem m hm'))

theorem Graded.may {l : Label} (h : Graded off s) (hm : May [l] s s') (hf : l.Fits s) :
    Graded off s' := by
  rcases hm with hq | ⟨s1, he, hq⟩
  · exact h.events hq
  · exact (h.event he hf).events hq

/-- **Every operation that fits keeps the snapshots in order.** -/
theorem apply_graded {op : Op A} (h : Graded off s) (hf : op.Fits s) :
    Graded off (apply crypto s op) := by
  have hmay := apply_may crypto s op
  rcases apply_allowed crypto (s := s) op with hallowed | hsame
  · have hfits := hf hallowed
    cases op
    case forceMachineExit signer l =>
      rcases hmay with hq | hc
      · exact h.events hq
      · exact h.exits hc fun m hm => hfits _ (List.mem_map_of_mem hm)
    all_goals
      first
        | exact h.may hmay (hfits _ mem_cons_self)
        | exact h.events (hmay.elim id id)
  · rw [hsame]
    exact h

end Profile

/-! ## Runs -/

/-- The storage, and the machines that were offline when the current era started. -/
structure Watch (A : Type) [LinearOrder A] where
  state : State A
  offlineAtStart : MachineId → Bool

inductive EraOp (A : Type) [LinearOrder A]
  | profile (op : Op A)
  | rental (op : RentOp A)
  | nextBlock

/-- The storage at the start of the next block, before any hook. -/
def State.tick (s : State A) : State A := { s with now := s.now + 1 }

def State.offline (s : State A) (m : MachineId) : Bool :=
  (s.machine m).any (·.machineStatus.isOffline)

/-- The storage after a step; a block that starts an era notes the machines that are offline. -/
def applyEra (crypto : Crypto A) (t : Watch A) : EraOp A → Watch A
  | .profile op => { t with state := apply crypto t.state op }
  | .rental op => { t with state := applyRent t.state op }
  | .nextBlock =>
    { state := t.state.tick.onInitialize
      offlineAtStart := if (t.state.now + 1) % oneDay = 1 then t.state.offline
        else t.offlineAtStart }

def eraSystem (crypto : Crypto A) : System (Watch A) (EraOp A) where
  init t := (∃ c, t.state = .fresh c) ∧ ∀ m, t.offlineAtStart m = false
  step t op t' := t' = applyEra crypto t op

/-- Each step finds the machines in the snapshots where it expects them. -/
def EraOp.Fits (t : Watch A) : EraOp A → Prop
  | .profile op => op.Fits t.state
  | .rental op => op.Fits t.state
  | .nextBlock => True

/-- **The snapshots of the current and of the next era are those of the machines.** -/
structure GradesAgree (t : Watch A) : Prop where
  grade : ∀ era, era = t.state.grades.eras.currentEra ∨ era = t.state.grades.eras.currentEra + 1 →
    ∀ stash, ((t.state.grades.eras.stashPoints era).statistic stash).machineTotalCalcPoint =
      tally (t.state.grades.eras.machinePoints era) (stashOf t.state.machine)
        (fun _ g => g.basicGrade) stash
  extra : ∀ era, era = t.state.grades.eras.currentEra ∨ era = t.state.grades.eras.currentEra + 1 →
    ∀ stash, ((t.state.grades.eras.stashPoints era).statistic stash).rentExtraGrade =
      tally (t.state.grades.eras.machinePoints era) (stashOf t.state.machine)
        (fun _ g => if g.isRented then gradeOnRent g.basicGrade else 0) stash
  started : ∀ m, t.offlineAtStart m = true →
    (t.state.grades.eras.machinePoints t.state.grades.eras.currentEra).get m = none
  offline : ∀ m, t.state.offline m = true →
    (t.state.grades.eras.machinePoints (t.state.grades.eras.currentEra + 1)).get m = none

section Run

variable {s s' : State A} {off : MachineId → Prop} {crypto : Crypto A} {t : Watch A}

omit [LinearOrder A] in
theorem startEra_snapshots (g : Eras A) :
    g.startEra.current = g.startEra.next ∧
      (g.startEra.next = g.next ∨ g.startEra.next = ⟨.zero, ∅⟩) := by
  unfold Eras.startEra
  simp only
  by_cases hera : g.currentEra + 1 = 1
  · rw [if_pos hera]
    simp only [Eras.current, Eras.next, Eras.currentEra_putEra, Eras.snapshot_putEra, hera]
    exact ⟨rfl, .inr rfl⟩
  · rw [if_neg hera]
    simp only [Eras.current, Eras.next, Eras.currentEra_putEra, Eras.snapshot_putEra, if_true]
    rw [if_neg (by omega)]
    exact ⟨rfl, .inl rfl⟩

theorem offline_iff {m : MachineId} : s.offline m = true ↔
    ∃ i, s.machine m = some i ∧ i.machineStatus.isOffline = true :=
  Option.any_eq_true ..

theorem Graded.startEra (h : Graded off s) (hm : ∀ m, s'.machine m = s.machine m)
    (he : s'.grades.eras = s.grades.eras.startEra) : Graded (fun m => s.offline m = true) s' := by
  obtain ⟨hcur, hnext⟩ := startEra_snapshots s.grades.eras
  rw [← he] at hcur hnext
  have hsound : s'.grades.eras.next.Sound s.machine := by
    rcases hnext with hnext | hnext
    · exact hnext ▸ h.sound.2
    · exact hnext ▸ Snapshot.Sound.empty
  have hoffline : ∀ {m i}, s.machine m = some i → i.machineStatus.isOffline = true →
      s'.grades.eras.next.machines.get m = none := by
    intro m i hi hoff
    rcases hnext with hnext | hnext
    · exact hnext ▸ h.offline hi hoff
    · rw [hnext]
      exact get_empty m
  refine ⟨?_, fun {m i} hi => hoffline ((hm m).symm.trans hi),
    fun {m i} hi => h.before ((hm m).symm.trans hi), fun m hoff => ?_⟩
  · have hboth : s'.grades.eras.Sound s.machine := ⟨hcur.symm ▸ hsound, hsound⟩
    exact hboth.congr fun {m i} hi => ⟨i, (hm m).trans hi, rfl, rfl, rfl⟩
  · obtain ⟨i, hi, hoff⟩ := offline_iff.1 hoff
    exact hcur.symm ▸ hoffline hi hoff

theorem Graded.nextBlock (h : Graded (fun m => t.offlineAtStart m = true) t.state) :
    Graded (fun m => (applyEra crypto t .nextBlock).offlineAtStart m = true)
      (applyEra crypto t .nextBlock).state := by
  have hstart := onInitialize_blockStart t.state.tick
  have hm : ∀ m, t.state.tick.onInitialize.machine m = t.state.machine m := by
    intro m
    unfold State.machine
    rw [hstart.machines]
    rfl
  have heras := hstart.eras
  unfold applyEra
  simp only
  by_cases hday : (t.state.now + 1) % oneDay = 1
  · rw [if_pos hday]
    exact h.startEra hm (heras.trans (if_pos hday))
  · rw [if_neg hday]
    exact h.same hm (heras.trans (if_neg hday))

theorem reach_graded (ht : (eraSystem crypto).Reach EraOp.Fits t) :
    Graded (fun m => t.offlineAtStart m = true) t.state := by
  refine ht.invariant (I := fun t => Graded (fun m => t.offlineAtStart m = true) t.state) ?_ ?_
  · rintro ⟨s, off⟩ ⟨⟨c, rfl⟩, hoff⟩
    refine ⟨⟨Snapshot.Sound.empty, Snapshot.Sound.empty⟩, fun hi => ?_, fun hi => ?_,
      fun m hm => get_empty m⟩
    all_goals cases (get_empty _).symm.trans hi
  · rintro t op _ h hfits rfl
    cases op with
    | profile op => exact apply_graded h hfits
    | rental op => exact applyRent_graded h hfits
    | nextBlock => exact h.nextBlock

/-- **The snapshots agree in every run whose steps fit them.** -/
theorem grades_agree (crypto : Crypto A) (t : Watch A)
    (ht : (eraSystem crypto).Reach EraOp.Fits t) : GradesAgree t := by
  have h := reach_graded ht
  refine ⟨?_, ?_, h.started, fun m hm => ?_⟩
  · rintro era (rfl | rfl) stash
    · exact h.sound.1.grade stash
    · exact h.sound.2.grade stash
  · rintro era (rfl | rfl) stash
    · exact h.sound.1.extra stash
    · exact h.sound.2.extra stash
  · obtain ⟨i, hi, hoff⟩ := offline_iff.1 hm
    exact h.offline hi hoff

end Run

end

/-! ## A machine that leaves in the era in which it came -/

namespace EraDemo

def machineId : MachineId := List.replicate 64 (byte 7)

def crypto : Crypto Nat := ⟨fun _ => some 1, fun _ _ _ => true⟩

/-- The last block before an era, with funds for the stash 1 and the controller 2. -/
def start : Watch Nat where
  state := .fresh (.fresh
    { now := 14400
      balances := ⟨((∅ : StorageMap Nat AccountData).insert 1 ⟨1000, 0, 0⟩).insert 2 ⟨1000, 0, 0⟩⟩
      fixedTxFee := some 1
      dbcPrice := some })
  offlineAtStart _ := false

def hardware : CommitteeUploadInfo :=
  { CommitteeUploadInfo.zero with machineId := machineId, gpuNum := 4, calcPoint := 100 }

def bring : List (EraOp Nat) :=
  [.nextBlock, .profile (.setOnlineStakeParams ⟨1000, 1000, 10, 10⟩), .profile (.setController 1 2),
    .profile (.genServerRoom 2 5), .profile (.bondMachine 2 machineId (machineId ++ List.replicate
    48 (byte 1)) []), .profile (.addMachineInfo 2 machineId ⟨5, .east 0, .north 0, [[byte 1]]⟩),
    .profile (.bookedMachine machineId)]

def booked : Watch Nat := bring.foldl (applyEra crypto) start

def online : Watch Nat := applyEra crypto booked (.profile (.confirmMachine [3] hardware))

theorem booked_reach {C : Watch Nat → EraOp Nat → Prop} (hl : ∀ op ∈ bring, ∀ t, C t op) :
    (eraSystem crypto).Reach C booked :=
  .path (.init ⟨⟨_, rfl⟩, fun _ => rfl⟩) (fun _ _ h => ⟨h, rfl⟩) (.of_forall hl _)

end EraDemo

open EraDemo in
theorem grades_agree_online :
    (online.state.grades.eras.machinePoints 2).contains machineId = true ∧ GradesAgree online := by
  refine ⟨by decide +kernel, grades_agree crypto online (.step (booked_reach ?_) ?_ rfl)⟩
  · intro op hop t
    simp only [bring, mem_cons, not_mem_nil, or_false] at hop
    rcases hop with rfl | rfl | rfl | rfl | rfl | rfl | rfl
    case inr.inr.inr.inr.inl =>
      intro _ l hl
      cases mem_singleton.1 hl
      trivial
    all_goals first | trivial | exact fun _ l hl => absurd hl not_mem_nil
  · intro _ l hl
    cases mem_singleton.1 hl
    intro i hi
    have hstash : (booked.state.machine machineId).map MachineInfo.machineStash = some 1 := by
      decide +kernel
    rw [show booked.state.machine machineId = some i from hi] at hstash
    rw [show i.machineStash = 1 from Option.some.inj hstash]
    refine ⟨⟨?_, ?_⟩, ⟨?_, ?_, ?_⟩⟩
    all_goals decide +kernel

open EraDemo in
/-- A machine that goes offline in the era in which it came online stays in the next snapshot, and
its stash loses the points. -/
theorem offline_leaves_points :
    ∃ t : Watch Nat, (eraSystem crypto).Reach (fun _ _ => True) t ∧ ¬ GradesAgree t := by
  have honline : (eraSystem crypto).Reach (fun _ _ => True) online :=
    .step (booked_reach fun _ _ _ => trivial) trivial rfl
  refine ⟨_, .step (i := .profile (.controllerReportOffline 2 machineId)) honline trivial rfl,
    fun h => ?_⟩
  have hgrade := h.grade 2 (.inr (by decide +kernel)) 1
  revert hgrade
  decide +kernel

end DeepBrainChain.OnlineProfile
