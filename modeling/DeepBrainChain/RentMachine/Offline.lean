import DeepBrainChain.RentMachine.Lists

/-!
# Offline machines

A machine that was taken offline comes back by a report of its controller or by a new verification.
The hook of rent-machine sets a machine online when the last of its orders expires, without a look
at its status, and a reporter's committees can take a machine offline that is offline already.
-/

namespace DeepBrainChain.RentMachine

open Lib GenericFunc Support Lib.Call StorageMap List Option
open OnlineProfile (Crypto Roster)

section

variable {A : Type} [LinearOrder A] {s s' : State A} {crypto : Crypto A} {t : Block A}

def OfflineAs (s : State A) (m : MachineId) (st : MachineStatus A) : Prop :=
  s.roster.status m = some st ∧ st.isOffline = true

/-! ## The hook -/

def State.cardsOf (s : State A) (m : MachineId) (l : List Nat) : Nat :=
  (l.map fun id => ((s.book.rentInfo.get id).map fun o =>
    if o.machineId = m then o.gpuNum else 0).getD 0).sum

/-- An offline machine with orders among `l` has more cards rented than those. -/
def OthersLeft (s : State A) (l : List Nat) : Prop :=
  ∀ m st, OfflineAs s m st → (∃ id ∈ l, ∃ o, s.book.rentInfo.get id = some o ∧ o.machineId = m) →
    s.cardsOf m l < s.machines.rentedGpu m

variable {id now : Nat} {o : RentOrderDetail A} {l : List Nat} {m : MachineId}
  {st : MachineStatus A} {r r' : Roster A} {op : OnlineProfile.Op A} {s0 : State A}

theorem Expired.offline (h : Expired id o s s') (hl : OthersLeft s (id :: l)) :
    OfflineAs s' m st ↔ OfflineAs s m st := by
  have hr := h.roster
  split at hr
  · next hleft =>
    have hne : ∀ st, ¬ OfflineAs s o.machineId st := by
      intro st hoff
      have hlt := hl _ st hoff ⟨id, mem_cons_self, o, h.order, rfl⟩
      unfold State.cardsOf at hlt
      rw [map_cons, sum_cons, h.order] at hlt
      simp only [map_some, getD_some, if_true] at hlt
      omega
    unfold OfflineAs
    rw [hr]
    by_cases hm : m = o.machineId
    · subst hm
      constructor
      · rintro ⟨hst, hoff⟩
        have e : (some .online : Option (MachineStatus A)) = some st := by
          simpa [Roster.setStatus, Roster.put] using hst
        cases e
        cases hoff
      · intro hoff
        exact absurd hoff (hne st)
    · have hsame : (s.roster.setStatus o.machineId .online).status m = s.roster.status m := by
        simp [Roster.setStatus, Roster.put, hm]
      rw [hsame]
  · unfold OfflineAs
    rw [hr]

theorem Expired.othersLeft (h : Expired id o s s') (hid : id ∉ l)
    (hl : OthersLeft s (id :: l)) : OthersLeft s' l := by
  have hget : ∀ j ∈ l, s'.book.rentInfo.get j = s.book.rentInfo.get j := by
    intro j hj
    rw [h.info, get_remove, if_neg]
    rintro rfl
    exact hid hj
  rintro m st hoff ⟨j, hj, x, hx, hm⟩
  rw [hget j hj] at hx
  have hlt := hl m st ((h.offline hl).1 hoff) ⟨j, mem_cons_of_mem id hj, x, hx, hm⟩
  have hcards : s'.cardsOf m l = s.cardsOf m l := by
    unfold State.cardsOf
    congr 1
    refine map_congr_left fun j hj => ?_
    rw [hget j hj]
  unfold State.cardsOf at hlt hcards ⊢
  rw [map_cons, sum_cons, h.order] at hlt
  simp only [map_some, getD_some] at hlt
  rw [hcards, h.rented]
  split at hlt
  · next e =>
    rw [if_pos e.symm]
    omega
  · next e =>
    rw [if_neg (Ne.symm e)]
    omega

/-- **The first loop** leaves offline machines alone. -/
theorem expireLoop_offline {block : Nat} (hl : OthersLeft s l) (hnodup : l.Nodup)
    (h : OfflineAs s m st) :
    Post (forEach l (expireOne block)) s (fun _ s' => OfflineAs s' m st)
      (fun _ s' => OfflineAs s' m st) := by
  induction l generalizing s with
  | nil => exact h
  | cons id l ih =>
    obtain ⟨hid, hnodup⟩ := nodup_cons.1 hnodup
    rw [forEach_cons, post_bind]
    refine (expireOne_roster block id s).mono (fun _ s1 h1 => ?_) fun _ s1 h1 => ?_
    · obtain ⟨-, o, hexp⟩ := h1
      exact ih (hexp.othersLeft hid hl) hnodup ((hexp.offline hl).2 h)
    · unfold OfflineAs
      rw [h1.2]
      exact h

/-- **The second loop** leaves offline machines alone. -/
theorem finishOne_offline (id : Nat) :
    Keeps (fun s : State A => OfflineAs s m st) (finishOne id) := by
  intro s h
  refine (finishOne_roster id s).mono (fun _ s' hs => ?_) fun _ s' hs => hs ▸ h
  obtain ⟨-, o, hfin⟩ := hs
  unfold OfflineAs
  rcases hfin.roster with ⟨hr, -⟩ | ⟨st', -, -, hr⟩ | ⟨hst, -, hr⟩
  · rw [hr]
    exact h
  · rw [hr]
    exact h
  · have hne : m ≠ o.machineId := by
      rintro rfl
      obtain ⟨hm, hoff⟩ := h
      rw [hst] at hm
      cases hm
      cases hoff
    rw [hr]
    simpa [Roster.put, hne, OfflineAs] using h

/-- The orders that expire now leave the offline machines with other rented cards. -/
def ExpiresInPlace (s : State A) : Prop :=
  OthersLeft s (s.book.confirmingOrder.bucket s.now).toList

theorem onFinalize_offline (hc : ExpiresInPlace s)
    (h : OfflineAs s m st) : OfflineAs s.onFinalize m st := by
  have h1 : OfflineAs ((checkMachineStartingStatus s.now).run s).2 m st := by
    refine Post.storage (I := fun s : State A => OfflineAs s m st) ?_
    unfold checkMachineStartingStatus
    rw [post_bind, post_get]
    exact expireLoop_offline hc (SortedVec.nodup _) h
  have hloop : Keeps (fun s : State A => OfflineAs s m st)
      (checkIfRentFinished ((checkMachineStartingStatus s.now).run s).2.now) :=
    Keeps.get fun _ _ => .forEach fun id _ => finishOne_offline id
  exact hloop.run h1

/-! ## Runs -/

/-- The committees of a reporter take no machine offline that is offline, and the last order of an
offline machine does not expire. -/
def OfflineSpared (t : Block A) : Op A → Prop
  | .profile (.mtMachineOffline _ _ m _) => ∀ st, ¬ OfflineAs t.state m st
  | .endBlock => ExpiresInPlace t.state
  | _ => True

/-- The operation brings the machine back: its controller reports it online, and stakes the slash,
or it was verified anew. -/
def BringsBack (m : MachineId) (s s' : State A) : Op A → Prop
  | .profile (.controllerReportOnline _ m') => m' = m ∧
    OnlineProfile.SlashStaked m s.toProfile s'.toProfile
  | .profile (.fulfillMachine _ m') => m' = m
  | .profile (.confirmMachine _ hw) => hw.machineId = m
  | _ => False

def Op.isRental : Op A → Bool
  | .profile _ => false
  | _ => true

theorem rental_offline {op : Op A} (hop : op.isRental = true) (hc : OfflineSpared t op)
    (h : OfflineAs t.state m st) : OfflineAs (apply crypto t op).state m st := by
  have hsame : ∀ s' : State A, s'.roster.status = t.state.roster.status → OfflineAs s' m st := by
    intro s' hs
    unfold OfflineAs
    rw [hs]
    exact h
  cases op with
  | profile op => cases hop
  | rentMachine renter m' gpuNum duration =>
    refine dispatch_keeps (I := fun s : State A => OfflineAs s m st) h fun _ s' hr => ?_
    rcases rentMachineByBlock_roster hr with rfl | ⟨st', hst, hor, hr⟩
    · exact h
    · have hne : m ≠ m' := by
        rintro rfl
        obtain ⟨hm, hoff⟩ := h
        rw [hst] at hm
        cases hm
        rcases hor with rfl | rfl <;> cases hoff
      refine ⟨?_, h.2⟩
      rw [hr, ← h.1]
      simp [Roster.setStatus, Roster.put, hne]
  | confirmRent renter id =>
    refine dispatch_keeps (I := fun s : State A => OfflineAs s m st) h fun _ s' hr => ?_
    obtain ⟨o, -, -, -, hr⟩ := confirmRent_roster hr
    exact hsame s' (by rw [hr])
  | reletMachine renter id duration =>
    refine dispatch_keeps (I := fun s : State A => OfflineAs s m st) h fun _ s' hr => ?_
    exact hsame s' (by rw [reletMachineByBlock_roster hr])
  | setRentFeePot pot => exact h
  | endBlock => exact onFinalize_offline hc h
  | nextBlock => exact hsame _ (congrArg Roster.status (startBlock_roster t.state))

omit [LinearOrder A] in
/-- A machine that is forced out has no status afterwards, and the others keep theirs. -/
theorem exits_status {l : List MachineId} (h : OnlineProfile.Exits l r r')
    (m : MachineId) : r'.status m = r.status m ∨ r'.status m = none := by
  induction l generalizing r with
  | nil =>
    cases h
    exact .inl rfl
  | cons x l ih =>
    rcases ih h.2 with hm | hm
    · rw [hm]
      by_cases e : m = x
      · exact .inr (by simp [Roster.put, e])
      · exact .inl (by simp [Roster.put, e])
    · exact .inr hm

/-- The operations that can bring a machine back. -/
def Returns (m : MachineId) : OnlineProfile.Op A → Prop
  | .controllerReportOnline _ m' | .fulfillMachine _ m' => m' = m
  | .confirmMachine _ hw => hw.machineId = m
  | _ => False

theorem moves_offline (hm : op.Moves now r r') (h : r.status m = some st)
    (hoff : st.isOffline = true)
    (hback : r'.status m = some .online ∨ r'.status m = some .rented) : Returns m op := by
  have hst : ¬ (some st = some .online ∨ some st = some .rented) := by
    rintro (e | e) <;> cases e <;> cases hoff
  -- the operation wrote the status of `m`, and a working one
  have hput : ∀ m' o f, r' = r.put m' o f → m' = m ∧ (o = some .online ∨ o = some .rented) := by
    rintro m' o f rfl
    by_cases e : m = m'
    · exact ⟨e.symm, by simpa [Roster.put, e] using hback⟩
    · have hsame : (r.put m' o f).status m = some st := by simp [Roster.put, e, h]
      rw [hsame] at hback
      exact absurd hback hst
  have hwrite : ∀ {m' st1 st2 f}, r.status m' = some st1 →
      (st2 = st1 ∨ st1 = .addingCustomizeInfo ∧ st2 = .distributingOrder) →
      r' = r.put m' (some st2) f → False := by
    intro m' st1 st2 f h1 h2 hr
    obtain ⟨rfl, ho⟩ := hput _ _ _ hr
    obtain rfl := Option.some.inj (h.symm.trans h1)
    rcases h2 with rfl | ⟨rfl, -⟩
    · exact hst ho
    · cases hoff
  cases op with
  | bondMachine c m' msg sig => simpa using (hput _ _ _ hm.2).2
  | addMachineInfo c m' info =>
    obtain ⟨st1, st2, h1, h2, hr⟩ := hm
    exact (hwrite h1 h2 hr).elim
  | updateMachineInfo c m' info =>
    obtain ⟨st1, st2, h1, h2, hr⟩ := hm
    exact (hwrite h1 h2 hr).elim
  | fulfillMachine c m' => exact (hput _ _ _ hm.2.2).1
  | controllerReportOffline c m' =>
    obtain ⟨st1, -, -, hr⟩ := hm
    simpa using (hput _ _ _ hr).2
  | offlineMachineChangeHardwareInfo c m' => simpa using (hput _ _ _ hm.2).2
  | controllerReportOnline c m' =>
    obtain ⟨st1, -, -, rfl⟩ := hm
    by_contra hne
    have hsame : (r.reonline m' (if r.finished m' then .online
        else OnlineProfile.statusBefore st1)).status m = some st := by
      simp [Roster.reonline, Roster.setFinished, Roster.put, Ne.symm hne, h]
    rw [hsame] at hback
    exact hst hback
  | machineExit c m' => simpa using (hput _ _ _ hm.2).2
  | forceMachineExit signer l =>
    rcases exits_status hm m with hsame | hnone
    · rw [hsame, h] at hback
      exact hst hback
    · rw [hnone] at hback
      simp at hback
  | bookedMachine m' => simpa using (hput _ _ _ hm.2).2
  | revertBookedMachine m' => simpa using (hput _ _ _ hm.2).2
  | confirmMachine committee hw =>
    obtain ⟨-, hr | hr⟩ := hm
    · exact (hput _ _ _ hr).1
    · exact (hput _ _ _ hr).1
  | refuseMachine committee m' =>
    obtain ⟨st1, h1, hr | hr⟩ := hm
    · exact (hwrite h1 (.inl rfl) hr).elim
    · simpa using (hput _ _ _ hr).2
  | mtMachineOffline reporter committee m' fault =>
    obtain ⟨st1, -, hr⟩ := hm
    simpa using (hput _ _ _ hr).2
  | _ => exact hm.elim

theorem profile_offline
    (h : OfflineAs t.state m st)
    (hback : (apply crypto t (.profile op)).state.roster.status m = some .online ∨
      (apply crypto t (.profile op)).state.roster.status m = some .rented) :
    BringsBack m t.state (apply crypto t (.profile op)).state (.profile op) := by
  have hne : ¬ (OnlineProfile.apply crypto t.state.toProfile op).roster = t.state.roster := by
    intro hr
    have hback' : t.state.roster.status m = some .online ∨
      t.state.roster.status m = some .rented := hr ▸ hback
    rw [h.1] at hback'
    obtain ⟨-, hoff⟩ := h
    rcases hback' with e | e <;> cases e <;> cases hoff
  have hm := (OnlineProfile.apply_moves crypto t.state.toProfile op).resolve_left hne
  have hreturn := moves_offline hm h.1 h.2 hback
  cases op with
  | controllerReportOnline c m' =>
    refine ⟨hreturn, ?_⟩
    rcases dispatch_cases (OnlineProfile.controllerReportOnline c m') t.state.toProfile with
      ⟨u, hrun⟩ | hsame
    · have hor := OnlineProfile.controllerReportOnline_staked hrun
      rcases hor with hsame | hstaked
      · exact absurd (congrArg OnlineProfile.State.roster hsame) hne
      · exact hreturn ▸ hstaked
    · exact absurd (congrArg OnlineProfile.State.roster hsame) hne
  | fulfillMachine c m' => exact hreturn
  | confirmMachine committee hw => exact hreturn
  | _ => exact hreturn.elim

/-- What is offline afterwards was offline before, with the same status. -/
def NoneTaken (s s' : State A) : Prop := ∀ m st, OfflineAs s' m st → OfflineAs s m st

theorem NoneTaken.of_put {f : LiveMachine → LiveMachine} {w : MachineStatus A} (h : NoneTaken s0 s)
    (hw : w.isOffline = false)
    (hr : s'.roster.status = (s.roster.put m (some w) f).status) : NoneTaken s0 s' := by
  rintro x st ⟨hst, hoff⟩
  rw [hr] at hst
  by_cases e : x = m
  · have hst' : some w = some st := by simpa [Roster.put, e] using hst
    cases hst'
    rw [hw] at hoff
    cases hoff
  · exact h x st ⟨by simpa [Roster.put, e] using hst, hoff⟩

theorem NoneTaken.of_same (h : NoneTaken s0 s)
    (hr : s'.roster.status = s.roster.status) : NoneTaken s0 s' := by
  rintro x st ⟨hst, hoff⟩
  rw [hr] at hst
  exact h x st ⟨hst, hoff⟩

theorem expireOne_noneTaken (block id : Nat) : Keeps (NoneTaken s0) (expireOne block id) := by
  intro s hs
  refine (expireOne_roster block id s).mono (fun _ s' h => ?_) fun _ s' h => ?_
  · obtain ⟨-, o, hexp⟩ := h
    have hr := hexp.roster
    split at hr
    · exact hs.of_put rfl (congrArg Roster.status hr)
    · exact hs.of_same (congrArg Roster.status hr)
  · exact hs.of_same (congrArg Roster.status h.2)

theorem finishOne_noneTaken (id : Nat) : Keeps (NoneTaken s0) (finishOne id) := by
  intro s hs
  refine (finishOne_roster id s).mono (fun _ s' h => ?_) fun _ s' h => h ▸ hs
  obtain ⟨-, o, hfin⟩ := h
  rcases hfin.roster with ⟨hr, -⟩ | ⟨st, -, -, hr⟩ | ⟨-, -, hr⟩
  · exact hs.of_same (congrArg Roster.status hr)
  · exact hs.of_same (by rw [hr]; rfl)
  · exact hs.of_put rfl (congrArg Roster.status hr)

theorem rental_noneTaken {op : Op A} (hop : op.isRental = true) :
    NoneTaken t.state (apply crypto t op).state := by
  have hrefl : NoneTaken t.state t.state := fun _ _ h => h
  cases op with
  | profile op => cases hop
  | rentMachine renter m gpuNum duration =>
    refine dispatch_keeps (I := NoneTaken t.state) hrefl fun _ s' hr => ?_
    rcases rentMachineByBlock_roster hr with rfl | ⟨_, _, _, hr⟩
    · exact hrefl
    · exact hrefl.of_put rfl (congrArg Roster.status hr)
  | confirmRent renter id =>
    refine dispatch_keeps (I := NoneTaken t.state) hrefl fun _ s' hr => ?_
    obtain ⟨o, -, -, -, hr⟩ := confirmRent_roster hr
    exact hrefl.of_same (by rw [hr])
  | reletMachine renter id duration =>
    refine dispatch_keeps (I := NoneTaken t.state) hrefl fun _ s' hr => ?_
    exact hrefl.of_same (by rw [reletMachineByBlock_roster hr])
  | setRentFeePot pot => exact hrefl
  | endBlock =>
    have hexpire : Keeps (NoneTaken t.state) (checkMachineStartingStatus t.state.now) :=
      Keeps.get fun _ _ => .forEach fun id _ => expireOne_noneTaken _ id
    have hfinish : ∀ block, Keeps (NoneTaken t.state) (checkIfRentFinished block) :=
      fun block => .get fun _ _ => .forEach fun id _ => finishOne_noneTaken id
    exact (hfinish _).run (hexpire.run hrefl)
  | nextBlock => exact hrefl.of_same (congrArg Roster.status (startBlock_roster t.state))

/-- A status that does not name an offline status as the one before. -/
def Flat (st : MachineStatus A) : Prop :=
  st.isOffline = true → (OnlineProfile.statusBefore st).isOffline = false

/-- **Operations of online-profile write flat statuses**, if the committees of a reporter do. -/
theorem moves_flat
    (hm : op.Moves now r r') (hflat : ∀ m st, r.status m = some st → Flat st)
    (hmt : ∀ reporter committee m fault, op = .mtMachineOffline reporter committee m fault →
      ∀ st, r.status m = some st → st.isOffline = false)
    (m : MachineId) (st : MachineStatus A) (h : r'.status m = some st) : Flat st := by
  have hput : ∀ {m' o f}, r'.status = (r.put m' o f).status → (∀ w, o = some w → Flat w) →
      Flat st := by
    intro m' o f hr ho
    rw [hr] at h
    by_cases e : m = m'
    · exact ho st (by simpa [Roster.put, e] using h)
    · exact hflat m st (by simpa [Roster.put, e] using h)
  have hwork : ∀ {w : MachineStatus A}, w.isOffline = false → ∀ w', some w = some w' → Flat w' := by
    rintro w hw w' e hoff
    cases e
    rw [hw] at hoff
    cases hoff
  have hdescribe : ∀ {m' st1 st2}, r.status m' = some st1 →
      (st2 = st1 ∨ st1 = .addingCustomizeInfo ∧ st2 = .distributingOrder) →
      ∀ w, some st2 = some w → Flat w := by
    rintro m' st1 st2 h1 (rfl | ⟨-, rfl⟩) w e
    · cases e
      exact hflat _ _ h1
    · exact hwork rfl w e
  cases op with
  | bondMachine c m' msg sig => exact hput (congrArg Roster.status hm.2) (hwork rfl)
  | addMachineInfo c m' info =>
    obtain ⟨st1, st2, h1, h2, hr⟩ := hm
    exact hput (congrArg Roster.status hr) (hdescribe h1 h2)
  | updateMachineInfo c m' info =>
    obtain ⟨st1, st2, h1, h2, hr⟩ := hm
    exact hput (congrArg Roster.status hr) (hdescribe h1 h2)
  | fulfillMachine c m' => exact hput (congrArg Roster.status hm.2.2) (hwork rfl)
  | controllerReportOffline c m' =>
    obtain ⟨st1, -, hor, hr⟩ := hm
    refine hput (congrArg Roster.status hr) ?_
    rintro w e -
    cases e
    rcases hor with rfl | rfl <;> rfl
  | offlineMachineChangeHardwareInfo c m' =>
    refine hput (congrArg Roster.status hm.2) ?_
    rintro w e -
    cases e
    rfl
  | controllerReportOnline c m' =>
    obtain ⟨st1, h1, hoff1, hr⟩ := hm
    refine hput (f := id) (by rw [hr]; rfl) (hwork ?_)
    split
    · rfl
    · exact hflat m' st1 h1 hoff1
  | machineExit c m' =>
    refine hput (congrArg Roster.status hm.2) ?_
    rintro w e
    cases e
  | forceMachineExit signer l =>
    rcases exits_status hm m with hsame | hnone
    · exact hflat m st (hsame ▸ h)
    · rw [hnone] at h
      cases h
  | bookedMachine m' => exact hput (congrArg Roster.status hm.2) (hwork rfl)
  | revertBookedMachine m' => exact hput (congrArg Roster.status hm.2) (hwork rfl)
  | confirmMachine committee hw =>
    obtain ⟨-, hr | hr⟩ := hm
    · exact hput (congrArg Roster.status hr) (hwork rfl)
    · exact hput (congrArg Roster.status hr) (hwork rfl)
  | refuseMachine committee m' =>
    obtain ⟨st1, h1, hr | hr⟩ := hm
    · exact hput (congrArg Roster.status hr) (hdescribe h1 (.inl rfl))
    · refine hput (congrArg Roster.status hr) ?_
      rintro w e
      cases e
  | mtMachineOffline reporter committee m' fault =>
    obtain ⟨st1, h1, hr⟩ := hm
    refine hput (congrArg Roster.status hr) ?_
    rintro w e -
    cases e
    exact hmt _ _ _ _ rfl st1 h1
  | _ => exact hm.elim

theorem reach_flat (ht : (listSystem crypto).Reach OfflineSpared t) :
    ∀ m st, t.state.roster.status m = some st → Flat st := by
  refine ht.invariant (I := fun t => ∀ m st, t.state.roster.status m = some st → Flat st) ?_ ?_
  · rintro t ⟨-, -, hnone, -⟩ m st hst
    obtain ⟨i, hi, -⟩ := OnlineProfile.status_eq_some hst
    cases (hnone m).symm.trans hi
  · rintro t op _ h hc ⟨-, rfl⟩ m st hst
    cases op with
    | profile op =>
      rcases OnlineProfile.apply_moves crypto t.state.toProfile op with hr | hm
      · exact h m st (hr ▸ hst)
      · refine moves_flat hm h ?_ m st hst
        rintro reporter committee m' fault rfl st' hst'
        have hnot := hc st'
        unfold OfflineAs at hnot
        cases hoff : st'.isOffline with
        | false => rfl
        | true => exact absurd ⟨hst', hoff⟩ hnot
    | _ =>
      intro hoff
      have hbefore := rental_noneTaken rfl m st ⟨hst, hoff⟩
      exact h m st hbefore.1 hoff

/-- What is promised to an offline machine: only its controller or a new verification brings it
back to work, the steps of rent-machine leave it alone, and it was not offline when it was taken
offline. -/
structure OfflineStays (crypto : Crypto A) (C : Block A → Op A → Prop) (t : Block A) : Prop where
  back : ∀ op, op.Possible t → C t op → ∀ m st, OfflineAs t.state m st →
    (apply crypto t op).state.roster.status m = some .online ∨
      (apply crypto t op).state.roster.status m = some .rented →
    BringsBack m t.state (apply crypto t op).state op
  rental : ∀ op, op.isRental = true → op.Possible t → C t op → ∀ m st, OfflineAs t.state m st →
    OfflineAs (apply crypto t op).state m st
  flat : ∀ m st, OfflineAs t.state m st → (OnlineProfile.statusBefore st).isOffline = false

/-- **A machine that was taken offline stays offline** until it is brought back, in every run in
which the last order of an offline machine does not expire and no reporter's committees take it
offline again. -/
theorem offline_stays (crypto : Crypto A) (t : Block A)
    (ht : (listSystem crypto).Reach OfflineSpared t) : OfflineStays crypto OfflineSpared t := by
  refine ⟨fun op _ hc m st h hback => ?_, fun op hop _ hc m st h => rental_offline hop hc h,
    fun m st h => reach_flat ht m st h.1 h.2⟩
  cases op with
  | profile op => exact profile_offline h hback
  | _ =>
    obtain ⟨hst, hoff⟩ := @rental_offline A _ crypto t m st _ rfl hc h
    rw [hst] at hback
    rcases hback with e | e <;> cases e <;> cases hoff

end

namespace RosterDemo

/-- The machine was rented, and its controller takes it offline before the order is confirmed. -/
def takenOffline : Block Nat :=
  apply crypto (after (bring ++ rent)) (.profile (.controllerReportOffline 2 machineId))

def waited : Block Nat := (wait 150).foldl (apply crypto) takenOffline

theorem waited_offline : OfflineAs waited.state machineId (.stakerReportOffline 100 .rented) :=
  ⟨by decide +kernel, rfl⟩

end RosterDemo

open RosterDemo in
theorem offline_stays_taken :
    OfflineAs takenOffline.state machineId (.stakerReportOffline 100 .rented) ∧
      OfflineStays crypto OfflineSpared takenOffline := by
  have hrented : (listSystem crypto).Reach OfflineSpared (after (bring ++ rent)) :=
    reach_after ⟨⟨trivial, trivial⟩, ⟨trivial, trivial⟩, ⟨trivial, trivial⟩, ⟨trivial, trivial⟩,
      ⟨trivial, trivial⟩, ⟨trivial, trivial⟩, ⟨trivial, trivial⟩, ⟨trivial, trivial⟩,
      ⟨trivial, trivial⟩, ⟨rfl, trivial⟩, trivial⟩
  refine ⟨⟨by decide +kernel, rfl⟩, offline_stays crypto _ ?_⟩
  exact hrented.step (i := .profile (.controllerReportOffline 2 machineId)) trivial ⟨trivial, rfl⟩

open RosterDemo in
theorem expired_order_brings_back :
    ∃ t : Block Nat, (listSystem crypto).Reach (fun _ _ => True) t ∧
      ¬ OfflineStays crypto (fun _ _ => True) t := by
  have hrented : (listSystem crypto).Reach (fun _ _ => True) (after (bring ++ rent)) :=
    reach_after ⟨⟨trivial, trivial⟩, ⟨trivial, trivial⟩, ⟨trivial, trivial⟩, ⟨trivial, trivial⟩,
      ⟨trivial, trivial⟩, ⟨trivial, trivial⟩, ⟨trivial, trivial⟩, ⟨trivial, trivial⟩,
      ⟨trivial, trivial⟩, ⟨rfl, trivial⟩, trivial⟩
  have htaken : (listSystem crypto).Reach (fun _ _ => True) takenOffline :=
    hrented.step (i := .profile (.controllerReportOffline 2 machineId)) trivial ⟨trivial, rfl⟩
  refine ⟨waited, htaken.path (fun t op h => ⟨h.2, h.1, rfl⟩)
    (path_wait (fun _ => ⟨trivial, trivial⟩) rfl 150), fun h => ?_⟩
  have hopen : waited.ended = false := by decide +kernel
  exact h.back .endBlock hopen trivial machineId _ waited_offline (.inl (by decide +kernel))

end DeepBrainChain.RentMachine
