import DeepBrainChain.OnlineProfile.Roster
import DeepBrainChain.RentMachine.Run

/-!
# The lists of machines are a partition

A machine with a record is in exactly one of the lists of `LiveMachine`, and a machine in one of
them has a record. Every operation takes a machine out of the lists it expects it in, without
looking.
-/

namespace DeepBrainChain.OnlineProfile

open Lib GenericFunc Support Lib.Call

section

variable {A : Type} {r r' : Roster A} {m : MachineId} {f : LiveMachine → LiveMachine}

/-- The machine is in the list of `o` and in no other. -/
def At (l : LiveMachine) (m : MachineId) (o : Option Place) : Prop :=
  ∀ k, m ∈ l.list k ↔ o = some k

/-- The machine is in one of the lists `ks`. -/
def Found (l : LiveMachine) (m : MachineId) (ks : List Place) : Prop := ∃ k ∈ ks, m ∈ l.list k

/-- **The lists are a partition of the machines with a record.** -/
structure Partition (r : Roster A) : Prop where
  disjoint : ∀ {k k' m}, m ∈ r.live.list k → m ∈ r.live.list k' → k = k'
  recorded : ∀ {k m}, m ∈ r.live.list k → (r.status m).isSome = true
  listed : ∀ m, (r.status m).isSome = true → ∃ k, m ∈ r.live.list k

variable {k : Place} {l : List MachineId}

theorem Partition.at (h : Partition r) (hk : m ∈ r.live.list k) : At r.live m (some k) := by
  intro k'
  rw [Option.some.injEq]
  constructor
  · intro hk'
    exact h.disjoint hk hk'
  · rintro rfl
    exact hk

theorem Partition.nowhere (h : Partition r) (hm : r.status m = none) : At r.live m none := by
  intro k
  refine ⟨fun hk => ?_, fun hk => by cases hk⟩
  have hsome := h.recorded hk
  rw [hm] at hsome
  cases hsome

/-- Only `m` is moved, to a list if it has a record afterwards. -/
theorem Partition.put {o : Option Place} {st : Option (MachineStatus A)} (h : Partition r)
    (hrest : ∀ x, x ≠ m → ∀ k, x ∈ (f r.live).list k ↔ x ∈ r.live.list k)
    (hm : At (f r.live) m o) (ho : o.isSome = st.isSome) : Partition (r.put m st f) := by
  have hstatus : ∀ x, (r.put m st f).status x = if x = m then st else r.status x := fun _ => rfl
  refine ⟨fun {k k' x} hk hk' => ?_, fun {k x} hk => ?_, fun x hx => ?_⟩
  · by_cases hx : x = m
    · subst hx
      have e := ((hm k).1 hk).symm.trans ((hm k').1 hk')
      exact Option.some.inj e
    · exact h.disjoint ((hrest x hx k).1 hk) ((hrest x hx k').1 hk')
  · rw [hstatus]
    by_cases hx : x = m
    · subst hx
      rw [if_pos rfl, ← ho, (hm k).1 hk]
      rfl
    · rw [if_neg hx]
      exact h.recorded ((hrest x hx k).1 hk)
  · rw [hstatus] at hx
    by_cases e : x = m
    · subst e
      rw [if_pos rfl, ← ho, Option.isSome_iff_exists] at hx
      obtain ⟨k, hk⟩ := hx
      exact ⟨k, (hm k).2 hk⟩
    · rw [if_neg e] at hx
      obtain ⟨k, hk⟩ := h.listed x hx
      exact ⟨k, (hrest x e k).2 hk⟩

section

variable (h : Partition r)

include h

theorem Partition.enter (hm : r.status m = none) (k : Place)
    (st : MachineStatus A) : Partition (r.put m (some st) (·.enter k m)) := by
  have hnone := h.nowhere hm
  refine h.put (o := some k) (fun x hx j => ?_) (fun j => ?_) rfl
  · simp [hx]
  · rw [LiveMachine.mem_enter, hnone j]
    simp [eq_comm]

theorem Partition.leave (hm : m ∈ r.live.list k) : Partition (r.put m none (·.leave k m)) := by
  have hat := h.at hm
  refine h.put (o := none) (fun x hx j => ?_) (fun j => ?_) rfl
  · simp [hx]
  · rw [LiveMachine.mem_leave, hat j]
    simp [eq_comm]

theorem Partition.move {k' : Place} (hm : Found r.live m [k, k'])
    (st : MachineStatus A) : Partition (r.put m (some st) (·.move k k' m)) := by
  obtain ⟨k0, hk0, hmem⟩ := hm
  have hat := h.at hmem
  refine h.put (o := some k') (fun x hx j => ?_) (fun j => ?_) rfl
  · simp [LiveMachine.move, hx]
  · rw [LiveMachine.move, LiveMachine.mem_enter, LiveMachine.mem_leave, hat j]
    simp only [List.mem_cons, List.not_mem_nil, or_false] at hk0
    rcases hk0 with rfl | rfl <;> grind

theorem Partition.takeOffline (hm : Found r.live m [.online, .rented, .offline])
    (st : MachineStatus A) :
    Partition (r.put m (some st) fun l => (l.leave .online m).move .rented .offline m) := by
  obtain ⟨k0, hk0, hmem⟩ := hm
  have hat := h.at hmem
  refine h.put (o := some .offline) (fun x hx j => ?_) (fun j => ?_) rfl
  · simp [LiveMachine.move, hx]
  · rw [LiveMachine.move, LiveMachine.mem_enter, LiveMachine.mem_leave, LiveMachine.mem_leave,
      hat j]
    simp only [List.mem_cons, List.not_mem_nil, or_false] at hk0
    rcases hk0 with rfl | rfl | rfl <;> grind

theorem Partition.setStatus (hm : (r.status m).isSome = true)
    (st : MachineStatus A) : Partition (r.setStatus m st) := by
  obtain ⟨k, hk⟩ := h.listed m hm
  exact h.put (o := some k) (fun _ _ _ => Iff.rfl) (h.at hk) rfl

theorem Partition.congr (hl : ∀ k, r'.live.list k = r.live.list k)
    (hs : r'.status = r.status) : Partition r' := by
  refine ⟨fun hk hk' => ?_, fun hk => ?_, fun m hm => ?_⟩
  · rw [hl] at hk hk'
    exact h.disjoint hk hk'
  · rw [hs]
    rw [hl] at hk
    exact h.recorded hk
  · rw [hs] at hm
    obtain ⟨k, hk⟩ := h.listed m hm
    exact ⟨k, (hl k).symm ▸ hk⟩

theorem Partition.exits (he : Exits l r r')
    (hl : ∀ m ∈ l, (r.status m).isSome = true → m ∈ r.live.list .online) : Partition r' := by
  induction l generalizing r with
  | nil =>
    cases he
    exact h
  | cons m l ih =>
    obtain ⟨hm, he⟩ := he
    refine ih (h.leave (hl m List.mem_cons_self hm)) he fun x hx hsome => ?_
    have hne : x ≠ m := by
      rintro rfl
      simp [Roster.put] at hsome
    refine LiveMachine.mem_leave.2 ⟨fun e => hne e.1, hl x (List.mem_cons_of_mem m hx) ?_⟩
    simpa [Roster.put, hne] using hsome

end

theorem Exits.known (he : Exits l r r') : ∀ m ∈ l, (r.status m).isSome = true := by
  induction l generalizing r with
  | nil =>
    intro m hm
    cases hm
  | cons m l ih =>
    obtain ⟨hm, he⟩ := he
    intro x hx
    rcases List.mem_cons.1 hx with rfl | hx
    · exact hm
    · have hsome := ih he x hx
      by_cases e : x = m
      · exact e ▸ hm
      · simpa [Roster.put, e] using hsome

/-- The list a machine that reports online is put into. -/
def Roster.backTo [DecidableEq A] (r : Roster A) (m : MachineId) (st : MachineStatus A) : Place :=
  if (if r.finished m then .online else statusBefore st) = .rented then .rented else .online

theorem Partition.reonline [DecidableEq A] (h : Partition r) {st : MachineStatus A}
    (hm : Found r.live m [.offline, r.backTo m st]) :
    Partition (r.reonline m (if r.finished m then .online else statusBefore st)) := by
  unfold Roster.backTo at hm
  unfold Roster.reonline
  generalize (if r.finished m then .online else statusBefore st) = back at hm ⊢
  by_cases hb : back = .rented
  · rw [if_pos hb] at hm
    simp only [hb, if_true]
    exact (h.move hm .rented).congr (fun _ => rfl) rfl
  · rw [if_neg hb] at hm
    simp only [hb, if_false]
    exact (h.move hm back).congr (fun _ => rfl) rfl

end

/-! ## Operations of online-profile -/

section

variable {A : Type} [LinearOrder A]

def Controls (s : State A) (controller : A) (m : MachineId) : Prop :=
  ∃ i, s.machine m = some i ∧ i.controller = controller

/-- An operation that passes its own checks finds the machine in one of the lists it writes. -/
def Op.InPlace (s : State A) : Op A → Prop
  | .controllerReportOffline controller m => Controls s controller m →
    s.roster.status m = some .online ∨ s.roster.status m = some .rented →
    Found s.roster.live m [.online, .rented, .offline]
  | .offlineMachineChangeHardwareInfo controller m => Controls s controller m →
    s.roster.status m = some .online → Found s.roster.live m [.online, .bonding]
  | .controllerReportOnline controller m => Controls s controller m →
    ∀ st, s.roster.status m = some st → st.isOffline = true →
      Found s.roster.live m [.offline, s.roster.backTo m st]
  | .machineExit controller m => Controls s controller m →
    s.roster.status m = some .online → Found s.roster.live m [.online]
  | .forceMachineExit signer l => signer ∈ s.owners.authorizedForceExitAccounts →
    (∀ m ∈ l, (s.roster.status m).isSome = true) → ∀ m ∈ l, Found s.roster.live m [.online]
  | .bookedMachine m | .revertBookedMachine m => (s.roster.status m).isSome = true →
    Found s.roster.live m [.confirmed, .booked]
  | .confirmMachine _ hw => (s.roster.status hw.machineId).isSome = true →
    Found s.roster.live hw.machineId [.booked]
  | .refuseMachine _ m => (s.roster.status m).isSome = true → Found s.roster.live m [.booked]
  | .mtMachineOffline _ _ m _ => (s.roster.status m).isSome = true →
    Found s.roster.live m [.online, .rented, .offline]
  | _ => True

section

variable {s : State A} {m : MachineId} {controller : A}

theorem dispatch_uncontrolled {e e' : Error}
    {c : State A → MachineInfo A → Call (State A) Error Unit}
    (h : ¬ Controls s controller m) :
    (Call.dispatch (do
      let s ← get
      let i ← okOr (s.machine m) e
      ensure (i.controller = controller) e'
      c s i) s).2 = s := by
  rcases dispatch_cases (do
      let s ← get
      let i ← okOr (s.machine m) e
      ensure (i.controller = controller) e'
      c s i) s with ⟨a, ha⟩ | hs
  · simp only [run_ok] at ha
    obtain ⟨i, hi, hcontroller, -⟩ := ha
    exact absurd ⟨i, hi, hcontroller⟩ h
  · exact hs

variable {op : Op A}

theorem apply_uncontrolled (crypto : Crypto A) (h : ¬ Controls s controller m)
    (hop : op = .controllerReportOffline controller m ∨ op = .offlineMachineChangeHardwareInfo
      controller m ∨ op = .controllerReportOnline controller m ∨ op = .machineExit controller m) :
    apply crypto s op = s := by
  rcases hop with rfl | rfl | rfl | rfl
  · unfold apply controllerReportOffline
    exact dispatch_uncontrolled h
  · unfold apply offlineMachineChangeHardwareInfo
    exact dispatch_uncontrolled h
  · unfold apply controllerReportOnline
    exact dispatch_uncontrolled h
  · unfold apply machineExit
    exact dispatch_uncontrolled h

/-- **Every operation that finds its machine in place keeps the partition.** -/
theorem apply_partition (crypto : Crypto A) (h : Partition s.roster)
    (hc : op.InPlace s) : Partition (apply crypto s op).roster := by
  rcases apply_moves crypto s op with hr | hm
  · rw [hr]
    exact h
  cases op with
  | bondMachine c m msg sig =>
    obtain ⟨hm, hr⟩ := hm
    rw [hr]
    exact h.enter hm .bonding _
  | addMachineInfo c m info =>
    obtain ⟨st, st', hst, -, hr⟩ := hm
    rw [hr]
    by_cases hb : m ∈ s.roster.live.bondingMachine
    · have hf : s.roster.put m (some st') (fun l =>
          if m ∈ l.bondingMachine then l.move .bonding .confirmed m else l) =
          s.roster.put m (some st') (·.move .bonding .confirmed m) := by
        simp only [Roster.put, hb, if_true]
      rw [hf]
      exact h.move ⟨.bonding, List.mem_cons_self, hb⟩ st'
    · have hf : s.roster.put m (some st') (fun l =>
          if m ∈ l.bondingMachine then l.move .bonding .confirmed m else l) =
          s.roster.setStatus m st' := by
        simp only [Roster.put, Roster.setStatus, hb, if_false, id]
      rw [hf]
      exact h.setStatus (by rw [hst]; rfl) st'
  | updateMachineInfo c m info =>
    obtain ⟨st, st', hst, -, hr⟩ := hm
    rw [hr]
    exact h.setStatus (by rw [hst]; rfl) st'
  | fulfillMachine c m =>
    obtain ⟨-, hlist, hr⟩ := hm
    rw [hr]
    exact h.move ⟨.fulfilling, List.mem_cons_self, hlist⟩ .online
  | controllerReportOffline c m =>
    by_cases hctl : Controls s c m
    · obtain ⟨st, hst, hor, hr⟩ := hm
      rw [hr]
      refine h.takeOffline (hc hctl ?_) _
      rw [hst]
      exact hor.imp (congrArg some) (congrArg some)
    · rw [apply_uncontrolled crypto hctl (by simp)]
      exact h
  | offlineMachineChangeHardwareInfo c m =>
    by_cases hctl : Controls s c m
    · obtain ⟨hst, hr⟩ := hm
      rw [hr]
      exact h.move (hc hctl hst) _
    · rw [apply_uncontrolled crypto hctl (by simp)]
      exact h
  | controllerReportOnline c m =>
    by_cases hctl : Controls s c m
    · obtain ⟨st, hst, hoff, hr⟩ := hm
      rw [hr]
      exact h.reonline (hc hctl st hst hoff)
    · rw [apply_uncontrolled crypto hctl (by simp)]
      exact h
  | machineExit c m =>
    by_cases hctl : Controls s c m
    · obtain ⟨hst, hr⟩ := hm
      obtain ⟨k, hk, hmem⟩ := hc hctl hst
      rw [hr]
      exact h.leave (List.mem_singleton.1 hk ▸ hmem)
    · rw [apply_uncontrolled crypto hctl (by simp)]
      exact h
  | forceMachineExit signer l =>
    have he : Exits l s.roster (apply crypto s (.forceMachineExit signer l)).roster := hm
    by_cases hsigner : signer ∈ s.owners.authorizedForceExitAccounts
    · refine h.exits he fun m hm _ => ?_
      obtain ⟨k, hk, hmem⟩ := hc hsigner he.known m hm
      exact List.mem_singleton.1 hk ▸ hmem
    · have hsame : apply crypto s (.forceMachineExit signer l) = s := by
        rcases dispatch_cases (forceMachineExit signer l) s with ⟨a, ha⟩ | hs
        · unfold forceMachineExit at ha
          simp only [run_ok] at ha
          exact absurd ha.1 hsigner
        · exact hs
      rw [hsame]
      exact h
  | bookedMachine m =>
    obtain ⟨hsome, hr⟩ := hm
    rw [hr]
    exact h.move (hc hsome) _
  | revertBookedMachine m =>
    obtain ⟨hsome, hr⟩ := hm
    obtain ⟨k, hk, hmem⟩ := hc hsome
    rw [hr]
    exact h.move ⟨k, by simpa [or_comm] using hk, hmem⟩ _
  | confirmMachine committee hw =>
    obtain ⟨hsome, hr⟩ := hm
    obtain ⟨k, hk, hmem⟩ := hc hsome
    have hbooked := List.mem_singleton.1 hk ▸ hmem
    rcases hr with hr | hr
    · rw [hr]
      exact h.move ⟨.booked, List.mem_cons_self, hbooked⟩ .online
    · rw [hr]
      exact h.move ⟨.booked, List.mem_cons_self, hbooked⟩ .waitingFulfill
  | refuseMachine committee m =>
    obtain ⟨st, hst, hr⟩ := hm
    obtain ⟨k, hk, hmem⟩ := hc (by rw [hst]; rfl)
    have hbooked : m ∈ s.roster.live.list .booked := List.mem_singleton.1 hk ▸ hmem
    rcases hr with hr | hr
    · rw [hr]
      exact h.move ⟨.booked, List.mem_cons_self, hbooked⟩ st
    · rw [hr]
      refine (h.leave hbooked).congr (fun k => ?_) rfl
      cases k <;> rfl
  | mtMachineOffline reporter committee m fault =>
    obtain ⟨st, hst, hr⟩ := hm
    rw [hr]
    exact h.takeOffline (hc (by rw [hst]; rfl)) _
  | _ => exact hm.elim

end

end

end DeepBrainChain.OnlineProfile

namespace DeepBrainChain.RentMachine

open Lib GenericFunc Support Lib.Call
open OnlineProfile (Crypto Roster Shows Partition Found)

/-! ## What rentals do to the roster

One lemma a call of rent-machine, and one a round of each loop of its hook: the statuses and lists
of the machines afterwards. Payments never touch them. -/

section

variable {A : Type} [LinearOrder A] {s s' : State A} {r : Roster A} {u : Unit}

/-- The roster of online-profile is `r`. -/
def Unmoved (r : Roster A) (s : State A) : Prop := Shows OnlineProfile.State.roster r s.toProfile

theorem profile_unmoved {ε α : Type} {c : Call (OnlineProfile.State A) ε α}
    (hc : Keeps (Shows OnlineProfile.State.roster r) c) : Keeps (Unmoved r) (profile c) := by
  intro s hs
  unfold profile
  rw [post_zoom]
  exact hc s.toProfile hs

theorem changeRenterTotalStake_unmoved (who : A) (amount : Nat) (isAdd : Bool) :
    Keeps (Unmoved r) (changeRenterTotalStake who amount isAdd) := by
  refine .get fun s hs => .ite ?_ ?_
  · refine .okOr fun b _ => .bind (Keeps.set hs) fun _ => .okOr fun new _ => ?_
    exact .modify fun _ hs => hs
  · exact .guard <| .set hs

theorem payRentFee_unmoved (renter : A) (m : MachineId) (stash : A) (fee : Nat) :
    Keeps (Unmoved r) (payRentFee renter m stash fee) := by
  refine .get fun s hs => .okOr fun pot _ => .okOr fun toStash _ => ?_
  refine .okOr fun b1 _ => .okOr fun b2 _ => .bind (Keeps.set hs) fun _ => ?_
  exact (profile_unmoved (OnlineProfile.blind_roster.record.changeMachineRentFee _ _ _ _)).ignore

theorem rentFee_unmoved (i : MachineInfo A) (gpuNum duration : Nat) :
    Keeps (Unmoved r) (rentFee i gpuNum duration) := by
  intro s hs
  unfold rentFee
  simp only [post_step]
  exact ⟨fun _ _ => ⟨fun _ _ => ⟨fun _ _ => hs, fun _ => hs⟩, fun _ => hs⟩, fun _ => hs⟩

/-! ## Calls -/

theorem rentMachineByBlock_roster {renter : A} {m : MachineId} {gpuNum duration : Nat}
    (h : (rentMachineByBlock renter m gpuNum duration).run s = (.ok u, s')) :
    s' = s ∨ ∃ st, s.roster.status m = some st ∧ (st = .online ∨ st = .rented) ∧
      s'.roster = s.roster.setStatus m .rented := by
  unfold rentMachineByBlock at h
  simp only [run_ok] at h
  obtain ⟨i, hi, h⟩ := h
  split at h
  · simp only [run_ok] at h
    exact .inl h.symm
  simp only [run_ok] at h
  obtain ⟨-, -, hst, _, s1, hpay, fee, s2, hfee, rentEnd, -, _, s3, hstake, h⟩ := h
  have h1 : Unmoved s.roster s1 :=
    (profile_unmoved (OnlineProfile.blind_roster.record.payFixedTxFee renter) s rfl).ok hpay
  have h2 : Unmoved s.roster s2 := (rentFee_unmoved i gpuNum _ s1 h1).ok hfee
  have h3 : Unmoved s.roster s3 :=
    (changeRenterTotalStake_unmoved renter fee true s2 h2).ok hstake
  unfold placeOrder at h
  simp only [run_ok, profile, run_zoom_ok] at h
  obtain ⟨-, _, _, ⟨p, hstart, rfl⟩, rfl⟩ := h
  obtain ⟨-, hp⟩ := (OnlineProfile.changeMachineStatusOnRentStart_roster m gpuNum _).ok hstart
  have h₃' : s3.roster = s.roster := h3
  refine .inr ⟨_, OnlineProfile.roster_status hi, hst, ?_⟩
  rw [← h₃']
  exact hp

/-- An order is confirmed on a rented machine; the first one moves it to the rented ones. -/
theorem confirmRent_roster {renter : A} {id : Nat}
    (h : (confirmRent renter id).run s = (.ok u, s')) :
    ∃ o, s.book.rentInfo.get id = some o ∧ o.renter = renter ∧
      s.roster.status o.machineId = some .rented ∧
      s'.roster = { s.roster with
        live := (if o.machineId ∈ s.roster.live.rentedMachine then s.roster.live
          else s.roster.live.move .online .rented o.machineId) } := by
  unfold confirmRent at h
  simp only [run_ok, profile, run_zoom_ok] at h
  obtain ⟨o, ho, rfl, -, _, -, -, i, hi, hst, _, s1, hstake, _, s2, hpay, _, s3, hconf, rfl⟩ := h
  obtain ⟨p, hconf, rfl⟩ := hconf
  have h1 : Unmoved s.roster s1 :=
    (changeRenterTotalStake_unmoved o.renter _ false s rfl).ok hstake
  have h2 : s2.roster = s.roster := (payRentFee_unmoved o.renter _ _ _ s1 h1).ok hpay
  have hp := (OnlineProfile.changeMachineStatusOnConfirmed_roster o.machineId o.renter _).ok hconf
  refine ⟨o, ho, rfl, hst ▸ OnlineProfile.roster_status hi, ?_⟩
  rw [← h2]
  exact hp

theorem reletMachineByBlock_roster {renter : A} {id duration : Nat}
    (h : (reletMachineByBlock renter id duration).run s = (.ok u, s')) : s'.roster = s.roster := by
  unfold reletMachineByBlock at h
  simp only [run_ok] at h
  obtain ⟨o, ho, -, -, hr, i, -, maxRentEnd, -, h⟩ := h
  split at h
  · simp only [run_ok] at h
    rw [h]
  simp only [run_ok] at h
  obtain ⟨fee, s1, hfee, -, _, s2, hpay, rentEnd, hend, rfl⟩ := h
  have h1 : Unmoved s.roster s1 := (rentFee_unmoved i _ _ s rfl).ok hfee
  have h2 : s2.roster = s.roster := (payRentFee_unmoved renter _ _ _ s1 h1).ok hpay
  exact h2

/-! ## The hook -/

/-- Leave the book, the machines and the clock alone. -/
structure Idle (s s' : State A) : Prop where
  book : s'.book = s.book
  machines : s'.machines = s.machines
  now : s'.now = s.now

theorem changeRenterTotalStake_idle {s0 : State A} (who : A) (amount : Nat) (isAdd : Bool) :
    Keeps (Idle s0) (changeRenterTotalStake who amount isAdd) := by
  refine .get fun s hs => .ite ?_ ?_
  · have hset : ∀ b, Idle s0 (s.setBalances b) := fun b => ⟨hs.book, hs.machines, hs.now⟩
    refine .okOr fun b _ => .bind (Keeps.set (hset b)) fun _ => .okOr fun new _ => ?_
    exact .modify fun _ h => ⟨h.book, h.machines, h.now⟩
  · exact .guard <| .set ⟨hs.book, hs.machines, hs.now⟩

/-- Giving a stake back cannot fail, and leaves the book and the machines alone. -/
theorem returnStake_idle (o : RentOrderDetail A) (s : State A) :
    Post (returnStake o) s (fun _ s' => Idle s s') (fun _ _ => False) := by
  unfold returnStake
  rw [post_when, post_ignore]
  exact ⟨fun _ => changeRenterTotalStake_idle _ _ _ s ⟨rfl, rfl, rfl⟩, fun _ => ⟨rfl, rfl, rfl⟩⟩

theorem roster_of_machines {p p' : OnlineProfile.State A} (h : p'.machines = p.machines) :
    p'.roster = p.roster := by
  unfold OnlineProfile.State.roster OnlineProfile.State.machine
  rw [h]

/-- Orders may be gone, and nothing else has changed in the book. -/
structure Fewer (s s' : State A) : Prop where
  now : s'.now = s.now
  orders : ∀ {id o}, s'.book.rentInfo.get id = some o → s.book.rentInfo.get id = some o
  ending : ∀ {n id}, id ∈ s'.book.rentEnding.bucket n → id ∈ s.book.rentEnding.bucket n

theorem Fewer.refl (s : State A) : Fewer s s := ⟨rfl, id, id⟩

theorem Fewer.trans {s'' : State A} (h : Fewer s s') (h' : Fewer s' s'') : Fewer s s'' :=
  ⟨h'.now.trans h.now, fun ho => h.orders (h'.orders ho), fun hn => h.ending (h'.ending hn)⟩

theorem Fewer.removeOrder {id : Nat} {o : RentOrderDetail A} (hnow : s'.now = s.now)
    (h : s'.book.rentInfo = s.book.rentInfo.remove id)
    (h' : s'.book.rentEnding = s.book.rentEnding.rmFrom o.rentEnd id) : Fewer s s' := by
  refine ⟨hnow, fun {j x} hj => ?_, fun {n j} hn => ?_⟩
  · rw [h, StorageMap.get_remove] at hj
    split at hj
    · cases hj
    · exact hj
  · rw [h', Index.mem_rmFrom] at hn
    exact hn.1

/-- An order whose wait is over leaves its machine online if it was the last one. -/
structure Expired (id : Nat) (o : RentOrderDetail A) (s s' : State A) : Prop where
  order : s.book.rentInfo.get id = some o
  info : s'.book.rentInfo = s.book.rentInfo.remove id
  rented : ∀ m, s'.machines.rentedGpu m =
    s.machines.rentedGpu m - if m = o.machineId then o.gpuNum else 0
  known : s.machines.rentedGpu o.machineId - o.gpuNum = 0 →
    (s.roster.status o.machineId).isSome = true
  roster : s'.roster = if s.machines.rentedGpu o.machineId - o.gpuNum = 0
    then s.roster.setStatus o.machineId .online else s.roster

/-- **One round of the first loop.** One that fails finds no order or no record. -/
theorem expireOne_roster (block id : Nat) (s : State A) :
    Post (expireOne block id) s (fun _ s' => Fewer s s' ∧ ∃ o, Expired id o s s')
      (fun _ s' => Fewer s s' ∧ s'.roster = s.roster) := by
  unfold expireOne
  simp only [post_step]
  refine ⟨fun o ho => ?_, fun _ => ⟨.refl s, trivial⟩⟩
  refine (returnStake_idle o s).mono (fun _ s1 h1 => ?_) fun _ _ hf => hf.elim
  obtain ⟨hb, hx, hnow⟩ := h1
  set s2 := s1.mapBook fun b => (b.rmConfirming block id).removeOrder id o with hs2
  have hinfo : s2.book.rentInfo = s.book.rentInfo.remove id := by
    rw [← hb]
    rfl
  have hending : s2.book.rentEnding = s.book.rentEnding.rmFrom o.rentEnd id := by
    rw [← hb]
    rfl
  have hroster : s1.roster = s.roster := roster_of_machines hx
  unfold profile
  rw [post_zoom]
  refine (OnlineProfile.changeMachineStatusOnConfirmExpired_roster o.machineId o.gpuNum
    s2.toProfile).mono (fun _ p hp => ?_) fun _ p hp => ?_
  · obtain ⟨hnow', hrented, hknown, hroster'⟩ := hp
    refine ⟨.removeOrder (hnow'.trans hnow) hinfo hending, o, ho, hinfo, fun m => ?_, ?_, ?_⟩
    · rw [← hx]
      exact hrented m
    · rw [← hx, ← hroster]
      exact hknown
    · rw [← hx, ← hroster]
      exact hroster'
  · subst hp
    exact ⟨.removeOrder hnow hinfo hending, hroster⟩

/-- An order that is over leaves its machine online if it was the last running one. -/
structure Finished (id : Nat) (o : RentOrderDetail A) (s s' : State A) : Prop where
  order : s.book.rentInfo.get id = some o
  info : s'.book.rentInfo = s.book.rentInfo.remove id
  roster : (s'.roster = s.roster ∧ ∃ last, s.book.isLastRent o.machineId o.renter = some last ∧
      OnlineProfile.Unaffected o.machineId last.1 s.toProfile) ∨
    (∃ st, s.roster.status o.machineId = some st ∧ st.isOffline = true ∧
      s'.roster = s.roster.setFinished o.machineId true) ∨
    (s.roster.status o.machineId = some .rented ∧
      (∃ b, s.book.isLastRent o.machineId o.renter = some (true, b)) ∧
      s'.roster = s.roster.put o.machineId (some .online) (·.move .rented .online o.machineId))

/-- **One round of the second loop.** -/
theorem finishOne_roster (id : Nat) (s : State A) :
    Post (finishOne id) s (fun _ s' => Fewer s s' ∧ ∃ o, Finished id o s s')
      (fun _ s' => s' = s) := by
  unfold finishOne
  simp only [post_step, post_ignore]
  refine ⟨fun o ho => ⟨fun last hlast => ?_, fun _ => trivial⟩, fun _ => trivial⟩
  unfold profile
  rw [post_zoom]
  -- whatever becomes of the report, the order is struck out
  have hstrike : ∀ p : OnlineProfile.State A, p.now = s.now →
      (∀ s' : State A, s'.machines = p.machines → s'.book.rentInfo = s.book.rentInfo.remove id →
        Finished id o s s') →
      Post (returnStake o) (s.setProfile p)
        (fun _ s1 => Fewer s (s1.mapBook fun b => b.removeOrder id o) ∧
          ∃ x, Finished id x s (s1.mapBook fun b => b.removeOrder id o)) (fun _ s1 => s1 = s) := by
    intro p hnow hp
    refine (returnStake_idle o _).mono (fun _ s1 h1 => ?_) fun _ _ hf => hf.elim
    have hb : s1.book = s.book := h1.book
    have hinfo : (s1.book.removeOrder id o).rentInfo = s.book.rentInfo.remove id := by
      rw [hb]
      rfl
    have hending : (s1.book.removeOrder id o).rentEnding =
        s.book.rentEnding.rmFrom o.rentEnd id := by
      rw [hb]
      rfl
    exact ⟨.removeOrder (h1.now.trans hnow) hinfo hending, o, hp _ h1.machines hinfo⟩
  refine (OnlineProfile.changeMachineStatusOnRentEnd_roster o.machineId o.gpuNum
    (o.rentEnd - o.rentStart) last.1 last.2 o.renter s.toProfile).mono
    (fun _ p hp => hstrike p hp.1 fun s' hx hinfo => ⟨ho, hinfo, ?_⟩)
    fun _ p hp => hstrike p (hp.1 ▸ rfl) fun s' hx hinfo => ⟨ho, hinfo, .inl ⟨?_, last, hlast, ?_⟩⟩
  · have hroster : s'.roster = p.roster := roster_of_machines hx
    rw [hroster]
    rcases hp.2 with ⟨hsame, hstays⟩ | hfin | ⟨hst, hl, hput⟩
    · exact .inl ⟨hsame, last, hlast, hstays⟩
    · exact .inr (.inl hfin)
    · exact .inr (.inr ⟨hst, ⟨last.2, by rw [hlast, ← hl]⟩, hput⟩)
  · obtain ⟨rfl, -⟩ := hp
    exact roster_of_machines hx
  · intro i hi
    rw [hp.2] at hi
    cases hi

theorem startBlock_roster (s : State A) : s.startBlock.roster = s.roster :=
  OnlineProfile.onInitialize_roster _

end

section

variable {A : Type} [LinearOrder A] {s s' : State A} {crypto : Crypto A} {t : Block A}

/-! ## The hook -/

/-- In the hook begun in `s₀`: a machine that is still rented is where it was. -/
structure Closing (s₀ s : State A) : Prop where
  partition : Partition s.roster
  fewer : Fewer s₀ s
  rented : ∀ {m}, s.roster.status m = some .rented → s₀.roster.status m = some .rented ∧
    ∀ k, m ∈ s.roster.live.list k ↔ m ∈ s₀.roster.live.list k

variable {s₀ : State A} {id : Nat}

/-- A round that gives `m` the status `Online`, and moves no other machine. -/
theorem Closing.putOnline {m : MachineId} {f : LiveMachine → LiveMachine} (h : Closing s₀ s)
    (hf : Fewer s s')
    (hrest : ∀ x, x ≠ m → ∀ k, x ∈ (f s.roster.live).list k ↔ x ∈ s.roster.live.list k)
    (hr : s'.roster = s.roster.put m (some .online) f) (hp : Partition s'.roster) :
    Closing s₀ s' := by
  refine ⟨hp, h.fewer.trans hf, fun {x} hx => ?_⟩
  rw [hr] at hx ⊢
  have hne : x ≠ m := by
    rintro rfl
    simp [Roster.put] at hx
  have hx' : s.roster.status x = some .rented := by simpa [Roster.put, hne] using hx
  obtain ⟨hst, hlist⟩ := h.rented hx'
  exact ⟨hst, fun k => (hrest x hne k).trans (hlist k)⟩

theorem Closing.same (h : Closing s₀ s) (hf : Fewer s s') (hl : s'.roster.live = s.roster.live)
    (hs : s'.roster.status = s.roster.status) : Closing s₀ s' := by
  refine ⟨h.partition.congr (fun k => by rw [hl]) hs, h.fewer.trans hf, fun {m} hm => ?_⟩
  rw [hs] at hm
  rw [hl]
  exact h.rented hm

theorem expireOne_closing (block id : Nat) : Keeps (Closing s₀) (expireOne block id) := by
  intro s hs
  refine (expireOne_roster block id s).mono (fun _ s' h => ?_) fun _ s' h => ?_
  · obtain ⟨hf, o, hexp⟩ := h
    have hr := hexp.roster
    split at hr
    · next hleft =>
      refine hs.putOnline hf (fun _ _ _ => Iff.rfl) hr ?_
      rw [hr]
      exact hs.partition.setStatus (hexp.known hleft) .online
    · exact hs.same hf (by rw [hr]) (by rw [hr])
  · exact hs.same h.1 (by rw [h.2]) (by rw [h.2])

/-- A machine of an order that ends is listed as online or rented, if it is rented. -/
def EndsInPlace (s : State A) : Prop :=
  ∀ id ∈ s.book.rentEnding.bucket s.now, ∀ o, s.book.rentInfo.get id = some o →
    s.roster.status o.machineId = some .rented → Found s.roster.live o.machineId [.rented, .online]

theorem finishOne_closing (h0 : EndsInPlace s₀)
    (hid : id ∈ s₀.book.rentEnding.bucket s₀.now) : Keeps (Closing s₀) (finishOne id) := by
  intro s hs
  refine (finishOne_roster id s).mono (fun _ s' h => ?_) fun _ s' h => h ▸ hs
  obtain ⟨hf, o, hfin⟩ := h
  rcases hfin.roster with ⟨hr, -⟩ | ⟨st, -, -, hr⟩ | ⟨hst, -, hr⟩
  · exact hs.same hf (by rw [hr]) (by rw [hr])
  · exact hs.same hf (by rw [hr]; rfl) (by rw [hr]; rfl)
  · refine hs.putOnline hf (fun x hx k => ?_) hr ?_
    · simp [LiveMachine.move, hx]
    · obtain ⟨hst0, hlist⟩ := hs.rented hst
      obtain ⟨k, hk, hmem⟩ := h0 id hid o (hs.fewer.orders hfin.order) hst0
      rw [hr]
      exact hs.partition.move ⟨k, hk, (hlist k).2 hmem⟩ .online

theorem onFinalize_partition (h : Partition s.roster) (hc : EndsInPlace s) :
    Partition s.onFinalize.roster := by
  have h1 : Closing s ((checkMachineStartingStatus s.now).run s).2 := by
    have hloop : Keeps (Closing s) (checkMachineStartingStatus s.now) :=
      Keeps.get fun _ _ => .forEach fun id _ => expireOne_closing s.now id
    exact hloop.run ⟨h, .refl s, fun hm => ⟨hm, fun _ => Iff.rfl⟩⟩
  have h2 : Closing s s.onFinalize := by
    have hloop : Keeps (Closing s)
        (checkIfRentFinished ((checkMachineStartingStatus s.now).run s).2.now) := by
      refine .get fun s1 hs1 => .forEach fun id hid => finishOne_closing hc ?_
      rw [h1.fewer.now] at hid
      exact hs1.fewer.ending hid
    exact hloop.run h1
  exact h2.partition

/-! ## Runs -/

def listSystem (crypto : Crypto A) : System (Block A) (Op A) where
  init t := t.ended = false ∧ t.state.book = .empty ∧ (∀ m, t.state.machine m = none) ∧
    t.state.machines.liveMachines = .zero
  step t op t' := op.Possible t ∧ t' = apply crypto t op

/-- Every step that moves a machine finds it in one of the lists it writes. -/
def MovesFit (t : Block A) : Op A → Prop
  | .profile op => op.InPlace t.state.toProfile
  | .confirmRent renter id => ∀ o, t.state.book.rentInfo.get id = some o → o.renter = renter →
    t.state.roster.status o.machineId = some .rented →
    Found t.state.roster.live o.machineId [.online, .rented]
  | .endBlock => EndsInPlace t.state
  | _ => True

theorem confirmRent_partition {renter : A} {u : Unit} (h : Partition s.roster)
    (hc : ∀ o, s.book.rentInfo.get id = some o → o.renter = renter → s.roster.status o.machineId =
      some .rented → Found s.roster.live o.machineId [.online, .rented])
    (hr : (confirmRent renter id).run s = (.ok u, s')) : Partition s'.roster := by
  obtain ⟨o, ho, hren, hst, hroster⟩ := confirmRent_roster hr
  rw [hroster]
  split
  · exact h
  · have hmove := h.move (hc o ho hren hst) .rented
    rw [OnlineProfile.put_same hst] at hmove
    exact hmove

theorem apply_lists {op : Op A} (h : Partition t.state.roster) (hc : MovesFit t op) :
    Partition (apply crypto t op).state.roster := by
  cases op with
  | profile op => exact OnlineProfile.apply_partition crypto h hc
  | rentMachine renter m gpuNum duration =>
    refine dispatch_keeps (I := fun s : State A => Partition s.roster) h fun _ s' hr => ?_
    rcases rentMachineByBlock_roster hr with rfl | ⟨st, hst, -, hr⟩
    · exact h
    · rw [hr]
      exact h.setStatus (by rw [hst]; rfl) .rented
  | confirmRent renter id =>
    exact dispatch_keeps (I := fun s : State A => Partition s.roster) h fun _ s' hr =>
      confirmRent_partition h hc hr
  | reletMachine renter id duration =>
    refine dispatch_keeps (I := fun s : State A => Partition s.roster) h fun _ s' hr => ?_
    rw [reletMachineByBlock_roster hr]
    exact h
  | setRentFeePot pot => exact h
  | endBlock => exact onFinalize_partition h hc
  | nextBlock =>
    show Partition t.state.startBlock.roster
    rw [startBlock_roster]
    exact h

theorem reach_lists (ht : (listSystem crypto).Reach MovesFit t) : Partition t.state.roster := by
  refine ht.invariant (I := fun t => Partition t.state.roster) ?_ ?_
  · rintro t ⟨-, -, hnone, hzero⟩
    have hlist : ∀ k m, m ∉ t.state.roster.live.list k := by
      intro k m hm
      rw [show t.state.roster.live = .zero from hzero] at hm
      cases k <;> exact SortedVec.notMem_empty hm
    have hstatus : ∀ m, t.state.roster.status m = none := by
      intro m
      show (t.state.machine m).map _ = none
      rw [hnone]
      rfl
    refine ⟨fun hk => absurd hk (hlist _ _), fun hk => absurd hk (hlist _ _), fun m hm => ?_⟩
    rw [hstatus] at hm
    cases hm
  · rintro t op _ h hc ⟨-, rfl⟩
    exact apply_lists h hc

/-- **Every list is sorted, no machine is in two of them, and the machines in them are those with
a record.** -/
structure ListsPartition (s : State A) : Prop where
  sorted : ∀ k, (s.machines.liveMachines.list k).toList.Pairwise (· < ·)
  disjoint : ∀ k k' m, m ∈ s.machines.liveMachines.list k → m ∈ s.machines.liveMachines.list k' →
    k = k'
  recorded : ∀ k m, m ∈ s.machines.liveMachines.list k → ∃ i, s.machine m = some i
  listed : ∀ m i, s.machine m = some i → ∃! k, m ∈ s.machines.liveMachines.list k

/-- **The lists are a partition of the machines** in every run in which each step that moves a
machine finds it in one of the lists it writes. -/
theorem lists_partition (crypto : Crypto A) (t : Block A)
    (ht : (listSystem crypto).Reach MovesFit t) : ListsPartition t.state := by
  have h := reach_lists ht
  refine ⟨fun k => SortedVec.sorted _, fun k k' m => h.disjoint, fun k m hk => ?_, fun m i hi => ?_⟩
  · have hsome := h.recorded hk
    rw [Option.isSome_iff_exists] at hsome
    obtain ⟨st, hst⟩ := hsome
    obtain ⟨i, hi, -⟩ := OnlineProfile.status_eq_some hst
    exact ⟨i, hi⟩
  · obtain ⟨k, hk⟩ := h.listed m (by rw [OnlineProfile.roster_status hi]; rfl)
    exact ⟨k, hk, fun k' hk' => h.disjoint hk' hk⟩

end

/-! ## A machine that is rented

Stash 1 and controller 2 bring a machine with four cards online, account 3 rents, and account 9
may force machines out. -/

namespace RosterDemo

def machineId : MachineId := List.replicate 64 (byte 7)

def crypto : Crypto Nat := ⟨fun _ => some 1, fun _ _ _ => true⟩

def account (b : StorageMap Nat AccountData) (who : Nat) : StorageMap Nat AccountData :=
  b.insert who ⟨1000, 0, 0⟩

def start : Block Nat where
  state :=
    { toProfile := .fresh (.fresh
        { now := 100, balances := ⟨[1, 2, 3].foldl account ∅⟩, fixedTxFee := some 1, dbcPrice :=
        some })
      book := .empty
      userTotalStake := ∅
      rentFeePot := some 3
      maximumRentalDuration := 60
      machineRenterRentedOrders := ∅ }
  ended := false

def hardware : CommitteeUploadInfo :=
  { CommitteeUploadInfo.zero with machineId := machineId, gpuNum := 4, calcPoint := 100 }

def bring : List (Op Nat) :=
  [.profile (.setOnlineStakeParams ⟨1000, 1000, 10, 10⟩), .profile (.setStandardGpuPointPrice ⟨100,
    1000⟩), .profile (.updateAuthorizedForceExitAccounts [9]), .profile (.setController 1 2),
    .profile (.genServerRoom 2 5), .profile (.bondMachine 2 machineId (machineId ++ List.replicate
    48 (byte 1)) []), .profile (.addMachineInfo 2 machineId ⟨5, .east 0, .north 0, [[byte 1]]⟩)]

def rent : List (Op Nat) :=
  [.profile (.bookedMachine machineId), .profile (.confirmMachine [5] hardware),
    .rentMachine 3 machineId 2 300]

def after (l : List (Op Nat)) : Block Nat := l.foldl (apply crypto) start

def confirmed : Block Nat := apply crypto (after (bring ++ rent)) (.confirmRent 3 0)

/-- The steps are possible and meet a condition. -/
def Follows (C : Block Nat → Op Nat → Prop) (l : List (Op Nat)) (t : Block Nat) : Prop :=
  System.Path (apply crypto) (fun t op => op.Possible t ∧ C t op) l t

variable {C : Block Nat → Op Nat → Prop}

theorem path_wait (hC : ∀ t, C t .endBlock ∧ C t .nextBlock) {t : Block Nat} (ht : t.ended = false)
    (n : Nat) : Follows C (wait n) t := by
  induction n generalizing t with
  | zero => trivial
  | succ n ih => exact ⟨⟨ht, (hC _).1⟩, ⟨rfl, (hC _).2⟩, ih rfl⟩

theorem reach_after {l : List (Op Nat)} (hl : Follows C l start) :
    (listSystem crypto).Reach C (after l) := by
  refine (System.Reach.init ?_).path (fun t op h => ⟨h.2, h.1, rfl⟩) hl
  exact ⟨rfl, rfl, fun m => StorageMap.get_empty m, rfl⟩

end RosterDemo

open RosterDemo in
/-- Once its order is confirmed, the machine is among the rented ones and nowhere else. -/
theorem lists_partition_rented :
    machineId ∈ confirmed.state.machines.liveMachines.rentedMachine ∧
      ListsPartition confirmed.state := by
  have hrented : (listSystem crypto).Reach MovesFit (after (bring ++ rent)) := by
    refine reach_after ⟨⟨trivial, trivial⟩, ⟨trivial, trivial⟩, ⟨trivial, trivial⟩,
      ⟨trivial, trivial⟩, ⟨trivial, trivial⟩, ⟨trivial, trivial⟩, ⟨trivial, trivial⟩,
      ⟨trivial, fun _ => ?_⟩, ⟨trivial, fun _ => ?_⟩, ⟨rfl, trivial⟩, trivial⟩
    · exact ⟨.confirmed, List.mem_cons_self, by decide +kernel⟩
    · exact ⟨.booked, List.mem_cons_self, by decide +kernel⟩
  have hfit : MovesFit (after (bring ++ rent)) (.confirmRent 3 0) := by
    intro o ho _ _
    have hm : ((after (bring ++ rent)).state.book.rentInfo.get 0).map (·.machineId) =
        some machineId := by decide +kernel
    rw [ho] at hm
    rw [show o.machineId = machineId from Option.some.inj hm]
    exact ⟨.online, List.mem_cons_self, by decide +kernel⟩
  exact ⟨by decide +kernel, lists_partition crypto _ (hrented.step hfit ⟨rfl, rfl⟩)⟩

open RosterDemo in
theorem forced_exit_leaves_listed :
    ∃ t : Block Nat, (listSystem crypto).Reach (fun _ _ => True) t ∧ ¬ ListsPartition t.state := by
  set t := after (bring ++ rent ++ [.confirmRent 3 0, .profile (.forceMachineExit 9 [machineId])])
  refine ⟨t, reach_after ?_, fun h => ?_⟩
  · simp only [bring, rent, Follows, System.Path, List.cons_append, List.nil_append, Op.Possible,
      and_self, true_and, and_true]
    exact ⟨rfl, rfl⟩
  · obtain ⟨i, hi⟩ := h.recorded .rented machineId (by decide +kernel)
    have hgone : (t.state.machine machineId).isSome = false := by decide +kernel
    rw [hi] at hgone
    cases hgone

end DeepBrainChain.RentMachine
