import DeepBrainChain.RentMachine.Lists

/-!
# Rented machines and their orders

A working machine should be `Rented` as long as it has an order, and `Online` otherwise. The code
decides this from three approximations of the set of orders: the last *running* order that ends
sets the machine online, so does an order that expires when no card is left rented, and a machine
that comes back is online if any of its orders ended meanwhile. `Standing` is the invariant of the
runs in which these approximations are right.
-/

namespace DeepBrainChain.RentMachine

open Lib GenericFunc Support Lib.Call StorageMap Option List
open OnlineProfile (Crypto Roster statusBefore)

/-! ## Statuses and orders -/

section Status

variable {A : Type}

/-- The status a machine had before it was taken offline, however often. -/
def core : MachineStatus A → MachineStatus A
  | .stakerReportOffline _ before => core before
  | .reporterReportOffline _ before _ _ => core before
  | status => status

theorem core_statusBefore (st : MachineStatus A) : core (statusBefore st) = core st := by
  cases st <;> rfl

theorem core_online : core (.online : MachineStatus A) ≠ .rented := by simp [core]

theorem core_of_not_offline {st : MachineStatus A} (h : st.isOffline = false) : core st = st := by
  cases st <;> first | rfl | cases h

/-- A machine with orders is rented, or was before it was taken offline. A machine that is or was
rented has orders, unless the end of one was noted while it was offline. -/
structure Stands (rents : Prop) (status : Option (MachineStatus A)) (finished : Bool) : Prop where
  rented : rents → ∃ st, status = some st ∧ core st = .rented
  rents : ∀ {st}, status = some st → core st = .rented →
    rents ∨ st.isOffline = true ∧ finished = true

variable {R : Prop} {status : Option (MachineStatus A)} {st : MachineStatus A} {b : Bool}

theorem Stands.idle (hR : ¬ R) (h : ∀ st, status = some st → core st ≠ .rented) :
    Stands R status b :=
  ⟨fun hr => absurd hr hR, fun hst hcore => absurd hcore (h _ hst)⟩

theorem Stands.core_ne (h : Stands R (some st) b) (hcore : core st ≠ .rented) : ¬ R := by
  intro hR
  obtain ⟨st', hst, hrented⟩ := h.rented hR
  cases hst
  exact hcore hrented

theorem Stands.wrap {st' : MachineStatus A} (h : Stands R (some st) b) (hcore : core st' = core st)
    (hoff : st'.isOffline = true) : Stands R (some st') b := by
  refine ⟨fun hR => ?_, fun {x} hx hrented => ?_⟩
  · obtain ⟨x, hx, hrented⟩ := h.rented hR
    cases hx
    exact ⟨st', rfl, hcore.trans hrented⟩
  · cases hx
    rcases h.rents rfl (hcore ▸ hrented) with hR | ⟨-, hb⟩
    · exact .inl hR
    · exact .inr ⟨hoff, hb⟩

theorem Stands.unwrap (h : Stands R (some st) false) : Stands R (some (statusBefore st)) false := by
  refine ⟨fun hR => ?_, fun {x} hx hrented => ?_⟩
  · obtain ⟨x, hx, hrented⟩ := h.rented hR
    cases hx
    exact ⟨_, rfl, (core_statusBefore st).trans hrented⟩
  · cases hx
    rw [core_statusBefore] at hrented
    rcases h.rents rfl hrented with hR | ⟨-, hb⟩
    · exact .inl hR
    · cases hb

def AllStand (R : MachineId → Prop) (r : Roster A) : Prop :=
  ∀ m, Stands (R m) (r.status m) (r.finished m)

variable {K : MachineId → Prop} {r r' : Roster A} {m : MachineId} {f : LiveMachine → LiveMachine}

theorem AllStand.put (h : AllStand K r) (hm : Stands (K m) status (r.finished m)) :
    AllStand K (r.put m status f) := by
  intro x
  by_cases hx : x = m
  · subst hx
    simpa [Roster.put] using hm
  · simpa [Roster.put, hx] using h x

theorem AllStand.at (h : AllStand K r) (hst : r.status m = some st) :
    Stands (K m) (some st) (r.finished m) := hst ▸ h m

theorem AllStand.exits {l : List MachineId} (h : AllStand K r) (hl : ∀ m ∈ l, ¬ K m)
    (hr : OnlineProfile.Exits l r r') : AllStand K r' := by
  induction l generalizing r with
  | nil => exact hr ▸ h
  | cons m l ih =>
    refine ih (h.put (.idle (hl m mem_cons_self) ?_)) (fun m' hm' => ?_) hr.2
    · intro st hst
      cases hst
    · exact hl m' (mem_cons_of_mem m hm')

/-- What online-profile may not do to the machines in `K`. -/
def Leaves (K : MachineId → Prop) (r : Roster A) [LinearOrder A] : OnlineProfile.Op A → Prop
  | .controllerReportOnline _ m => ∀ st, r.status m = some st → st.isOffline = true →
    r.finished m = true → ¬ K m
  | .confirmMachine _ hw => ¬ K hw.machineId
  | .fulfillMachine _ m | .bookedMachine m | .revertBookedMachine m | .refuseMachine _ m => ¬ K m
  | .forceMachineExit _ l => ∀ m ∈ l, ¬ K m
  | _ => True

/-- **What an operation of online-profile does to the roster** leaves it in step with the orders. -/
theorem AllStand.moves [LinearOrder A] {now : Nat} {op : OnlineProfile.Op A} (h : AllStand K r)
    (hm : op.Moves now r r') (hc : Leaves K r op) : AllStand K r' := by
  have hplain : ∀ {m st f}, ¬ K m → core st ≠ .rented → AllStand K (r.put m (some st) f) := by
    intro m st f hK hne
    refine h.put (.idle hK fun x hx => ?_)
    cases hx
    exact hne
  -- customised machines are not rented yet
  have hinfo : ∀ {m st st' f}, r.status m = some st →
      (st' = st ∨ st = .addingCustomizeInfo ∧ st' = .distributingOrder) →
      AllStand K (r.put m (some st') f) := by
    intro m st st' f hst hor
    rcases hor with rfl | ⟨rfl, rfl⟩
    · exact h.put (h.at hst)
    · exact hplain ((h.at hst).core_ne (by simp [core])) (by simp [core])
  cases op with
  | bondMachine c m msg sig =>
    obtain ⟨hnone, rfl⟩ := hm
    refine hplain (fun hK => ?_) (by simp [core])
    obtain ⟨st, hst, -⟩ := (h m).rented hK
    rw [hnone] at hst
    cases hst
  | addMachineInfo c m info =>
    obtain ⟨st, st', hst, hor, rfl⟩ := hm
    exact hinfo hst hor
  | updateMachineInfo c m info =>
    obtain ⟨st, st', hst, hor, rfl⟩ := hm
    exact hinfo hst hor
  | fulfillMachine c m =>
    obtain ⟨-, -, rfl⟩ := hm
    exact hplain hc core_online
  | controllerReportOffline c m =>
    obtain ⟨st, hst, -, rfl⟩ := hm
    exact h.put ((h.at hst).wrap rfl rfl)
  | offlineMachineChangeHardwareInfo c m =>
    obtain ⟨hst, rfl⟩ := hm
    exact h.put ((h.at hst).wrap rfl rfl)
  | controllerReportOnline c m =>
    obtain ⟨st, hst, hoff, rfl⟩ := hm
    have hback : Stands (K m) (some (if r.finished m then .online else statusBefore st)) false := by
      split
      · next hfin =>
        refine .idle (hc st hst hoff hfin) fun x hx => ?_
        cases hx
        exact core_online
      · next hfin =>
        have hat := h.at hst
        rw [Bool.eq_false_iff.2 hfin] at hat
        exact hat.unwrap
    intro x
    by_cases hx : x = m
    · subst hx
      simpa [Roster.reonline, Roster.setFinished, Roster.put] using hback
    · simpa [Roster.reonline, Roster.setFinished, Roster.put, hx] using h x
  | machineExit c m =>
    obtain ⟨hst, rfl⟩ := hm
    refine h.put (.idle ((h.at hst).core_ne core_online) fun st hst => ?_)
    cases hst
  | forceMachineExit who l => exact h.exits hc hm
  | bookedMachine m =>
    obtain ⟨-, rfl⟩ := hm
    exact hplain hc (by simp [core])
  | revertBookedMachine m =>
    obtain ⟨-, rfl⟩ := hm
    exact hplain hc (by simp [core])
  | confirmMachine committee hw =>
    obtain ⟨-, rfl | rfl⟩ := hm
    · exact hplain hc (by simp [core])
    · exact hplain hc (by simp [core])
  | refuseMachine committee m =>
    obtain ⟨st, hst, rfl | rfl⟩ := hm
    · exact h.put (h.at hst)
    · refine h.put (.idle hc fun st hst => ?_)
      cases hst
  | mtMachineOffline reporter committee m fault =>
    obtain ⟨st, hst, rfl⟩ := hm
    exact h.put ((h.at hst).wrap rfl rfl)
  | _ => exact hm.elim

end Status

section

variable {A : Type} [LinearOrder A] {s s' s₀ : State A} {crypto : Crypto A} {t : Block A}

/-- **The statuses stand with the orders.** -/
structure Standing (s : State A) : Prop where
  cards : ∀ {id o}, s.book.rentInfo.get id = some o → 0 < o.gpuNum
  placed : ∀ {id o}, s.book.rentInfo.get id = some o →
    o.rentStatus = .waitingVerifying ∨ o.rentStatus = .renting
  stands : AllStand s.book.Rents s.roster

/-! ## Calls -/

theorem Standing.same (h : Standing s) (hb : s'.book = s.book)
    (hst : s'.roster.status = s.roster.status) (hfin : s'.roster.finished = s.roster.finished) :
    Standing s' := by
  refine ⟨fun ho => h.cards (hb ▸ ho), fun ho => h.placed (hb ▸ ho), fun m => ?_⟩
  rw [hb, hst, hfin]
  exact h.stands m

variable {renter : A} {id due : Nat} {o : RentOrderDetail A} {x : Bool} {op : OnlineProfile.Op A}

theorem Standing.placed_order {m : MachineId} {gpuNum duration : Nat} (h : Standing s)
    (hp : Placed renter m gpuNum duration s s') (hpos : 0 < gpuNum)
    (hfresh : s.book.rentInfo.get s.book.nextRentId = none)
    (hr : s'.roster = s.roster.setStatus m .rented) : Standing s' := by
  obtain ⟨i, fee, -, -, -, hb⟩ := hp.order
  refine ⟨fun {id o} ho => ?_, fun {id o} ho => ?_, fun x => ?_⟩
  · rw [hb, Book.get_insertOrder] at ho
    split at ho
    · cases ho
      exact hpos
    · exact h.cards ho
  · rw [hb, Book.get_insertOrder] at ho
    split at ho
    · cases ho
      exact .inl rfl
    · exact h.placed ho
  · have hiff : s'.book.Rents x ↔ x = m ∨ s.book.Rents x := by
      constructor
      · rintro ⟨id, o, ho, rfl⟩
        rw [hb, Book.get_insertOrder] at ho
        split at ho
        · cases ho
          exact .inl rfl
        · exact .inr ⟨id, o, ho, rfl⟩
      · rintro (rfl | ⟨id, o, ho, rfl⟩)
        · exact ⟨s.book.nextRentId, _, by rw [hb, Book.get_insertOrder, if_pos rfl], rfl⟩
        · refine ⟨id, o, ?_, rfl⟩
          rw [hb, Book.get_insertOrder, if_neg]
          · exact ho
          · rintro rfl
            rw [hfresh] at ho
            cases ho
    rw [hr]
    by_cases hx : x = m
    · subst hx
      refine ⟨fun _ => ⟨.rented, by simp [Roster.setStatus, Roster.put], rfl⟩, fun _ _ => ?_⟩
      exact .inl (hiff.2 (.inl rfl))
    · have hrents : s'.book.Rents x ↔ s.book.Rents x := by simp [hiff, hx]
      have hat := h.stands x
      simp only [Roster.setStatus, Roster.put, hx, if_false]
      exact ⟨fun hR => hat.rented (hrents.1 hR), fun hs hc => (hat.rents hs hc).imp_left hrents.2⟩

theorem Standing.rewrite (h : Standing s) (o' : RentOrderDetail A)
    (ho : s.book.rentInfo.get id = some o) (hb : s'.book.rentInfo = s.book.rentInfo.insert id o')
    (hm : o'.machineId = o.machineId) (hg : o'.gpuNum = o.gpuNum) (hr : o'.rentStatus = .renting)
    (hst : s'.roster.status = s.roster.status) (hfin : s'.roster.finished = s.roster.finished) :
    Standing s' := by
  refine ⟨fun {j x} hx => ?_, fun {j x} hx => ?_, fun m => ?_⟩
  · rw [hb, get_insert] at hx
    split at hx
    · cases hx
      exact hg ▸ h.cards ho
    · exact h.cards hx
  · rw [hb, get_insert] at hx
    split at hx
    · cases hx
      exact .inr hr
    · exact h.placed hx
  · have hiff : s'.book.Rents m ↔ s.book.Rents m := by
      constructor
      · rintro ⟨j, x, hx, rfl⟩
        rw [hb, get_insert] at hx
        split at hx
        · cases hx
          exact ⟨id, o, ho, hm.symm⟩
        · exact ⟨j, x, hx, rfl⟩
      · rintro ⟨j, x, hx, rfl⟩
        by_cases hj : j = id
        · subst hj
          rw [ho] at hx
          cases hx
          exact ⟨j, o', by rw [hb, get_insert_self], hm⟩
        · exact ⟨j, x, by rw [hb, get_insert_ne _ _ hj, hx], rfl⟩
    have hat := h.stands m
    rw [hst, hfin]
    exact ⟨fun hR => hat.rented (hiff.1 hR), fun hs hc => (hat.rents hs hc).imp_left hiff.2⟩

/-! ## The end of a block -/

omit [LinearOrder A] in
theorem demand_eq_zero {b : Book A} (hpos : ∀ {id o}, b.rentInfo.get id = some o → 0 < o.gpuNum)
    (m : MachineId) : b.demand m = 0 ↔ ¬ b.Rents m := by
  constructor
  · rintro hzero ⟨id, o, ho, rfl⟩
    have hle := le_sum (fun _ x => if x.machineId = o.machineId then x.gpuNum else 0) ho
    have hcards := hpos ho
    unfold Book.demand at hzero
    rw [if_pos rfl, hzero] at hle
    omega
  · intro hno
    refine sum_eq_zero fun id o ho => if_neg ?_
    rintro rfl
    exact hno ⟨id, o, ho, rfl⟩

theorem Struck.rents (h : Struck id o s s') {m : MachineId}
    (hm : m ≠ o.machineId) : s'.book.Rents m ↔ s.book.Rents m := by
  constructor
  · rintro ⟨j, x, hx, rfl⟩
    rw [h.get] at hx
    split at hx
    · cases hx
    · exact ⟨j, x, hx, rfl⟩
  · rintro ⟨j, x, hx, rfl⟩
    refine ⟨j, x, ?_, rfl⟩
    rw [h.get, if_neg]
    · exact hx
    · rintro rfl
      rw [h.order] at hx
      cases hx
      exact hm rfl

/-- An order is struck out, and the status of its machine fits the orders that are left. -/
theorem Standing.struck (h : Standing s)
    (hs : Struck id o s s')
    (hst : ∀ m, m ≠ o.machineId → s'.roster.status m = s.roster.status m ∧
      s'.roster.finished m = s.roster.finished m)
    (hm : Stands (s'.book.Rents o.machineId) (s'.roster.status o.machineId)
      (s'.roster.finished o.machineId)) : Standing s' := by
  have hget : ∀ {j x}, s'.book.rentInfo.get j = some x → s.book.rentInfo.get j = some x := by
    intro j x hx
    rw [hs.get] at hx
    split at hx
    · cases hx
    · exact hx
  refine ⟨fun hx => h.cards (hget hx), fun hx => h.placed (hget hx), fun m => ?_⟩
  by_cases e : m = o.machineId
  · exact e ▸ hm
  · have hat := h.stands m
    rw [(hst m e).1, (hst m e).2]
    exact ⟨fun hR => hat.rented ((hs.rents e).1 hR),
      fun hs' hc => (hat.rents hs' hc).imp_left (hs.rents e).2⟩

/-- **An order that expires** was the last one of its machine if no card is rented any more. -/
theorem Standing.expired (h : Standing s) (hinv : Inv due s) (hs : Struck id o s s')
    (he : Expired id o s s') : Standing s' := by
  have hpos : ∀ {j x}, s'.book.rentInfo.get j = some x → 0 < x.gpuNum := by
    intro j x hx
    rw [hs.get] at hx
    split at hx
    · cases hx
    · exact h.cards hx
  have hleft : s.machines.rentedGpu o.machineId - o.gpuNum = 0 ↔ ¬ s'.book.Rents o.machineId := by
    rw [← demand_eq_zero hpos, ← (hinv.struck hs).rented, he.rented, if_pos rfl]
  have hr := he.roster
  split at hr
  · next hzero =>
    refine h.struck hs (fun m hm => ?_) (.idle (hleft.1 hzero) fun st hst => ?_)
    · rw [hr]
      simp [Roster.setStatus, Roster.put, hm]
    · rw [hr] at hst
      simp only [Roster.setStatus, Roster.put, if_true, some.injEq] at hst
      subst hst
      exact core_online
  · next hne =>
    have hR : s'.book.Rents o.machineId := not_not.1 (mt hleft.2 hne)
    refine h.struck hs (fun m _ => by rw [hr]; exact ⟨rfl, rfl⟩) ⟨fun _ => ?_, fun _ _ => .inl hR⟩
    rw [hr]
    exact (h.stands o.machineId).rented ⟨id, o, he.order, rfl⟩

theorem countP_mapM {α β : Type} {f : α → Option β} {l : List α} {r : List β} (p : β → Bool)
    (h : l.mapM f = some r) : r.countP p = l.countP fun a => (f a).any p := by
  induction l generalizing r with
  | nil =>
    cases h
    rfl
  | cons a l ih =>
    rw [mapM_cons] at h
    cases ha : f a with
    | none =>
      rw [ha] at h
      cases h
    | some b =>
      cases hl : l.mapM f with
      | none =>
        rw [ha, hl] at h
        cases h
      | some bs =>
        rw [ha, hl] at h
        cases h
        rw [countP_cons, countP_cons, ih hl, ha]
        rfl

section Count

variable {b : Book A} {m : MachineId} {orders : List (RentOrderDetail A)}
  {p : RentOrderDetail A → Bool}

/-- If fewer than two orders of a machine meet `p`, two that do are the same. -/
theorem eq_of_countP_lt (hb : b.Listed)
    (horders : ((b.machineOrders m).rentOrder.toList.mapM fun id => b.rentInfo.get id) =
      some orders)
    (hcount : orders.countP p < 2) {id id' : Nat} {o o' : RentOrderDetail A}
    (ho : b.rentInfo.get id = some o) (ho' : b.rentInfo.get id' = some o')
    (hm : o.machineId = m) (hm' : o'.machineId = m) (hp : p o = true) (hp' : p o' = true) :
    id = id' := by
  by_contra hne
  rw [countP_mapM _ horders] at hcount
  set l := (b.machineOrders m).rentOrder.toList with hl
  set q : Nat → Bool := fun a => (b.rentInfo.get a).any p with hq
  have hsub : [id, id'] ⊆ l.filter q := by
    intro j hj
    rw [mem_filter]
    rcases mem_pair.1 hj with rfl | rfl
    · exact ⟨hb.machine.listed_of ho (congrArg some hm), by simp [hq, ho, hp]⟩
    · exact ⟨hb.machine.listed_of ho' (congrArg some hm'), by simp [hq, ho', hp']⟩
  have hlen : 2 ≤ l.countP q := by
    rw [countP_eq_length_filter]
    exact (subperm_of_subset (by simpa using hne) hsub).length_le
  omega

theorem exists_of_le_countP (hb : b.Listed)
    (horders : ((b.machineOrders m).rentOrder.toList.mapM fun id => b.rentInfo.get id) =
      some orders)
    (hcount : ¬ orders.countP p < 2) (id : Nat) :
    ∃ id' o, id' ≠ id ∧ b.rentInfo.get id' = some o ∧ o.machineId = m ∧ p o = true := by
  rw [countP_mapM _ horders] at hcount
  set l := (b.machineOrders m).rentOrder.toList with hl
  set q : Nat → Bool := fun a => (b.rentInfo.get a).any p
  have hnodup : (l.filter q).Nodup := (SortedVec.nodup _).filter q
  have hlen : 1 < (l.filter q).length := by
    rw [← countP_eq_length_filter]
    omega
  obtain ⟨id', hid', hne⟩ : ∃ id' ∈ l.filter q, id' ≠ id := by
    by_contra hall
    push Not at hall
    have hsub : l.filter q ⊆ [id] := fun j hj => mem_singleton.2 (hall j hj)
    have hle := (subperm_of_subset hnodup hsub).length_le
    rw [length_singleton] at hle
    omega
  obtain ⟨hmem, hq⟩ := mem_filter.1 hid'
  obtain ⟨o, ho, hm⟩ := (hb.machine m id').1 hmem
  refine ⟨id', o, hne, ho, Option.some.inj hm, ?_⟩
  simpa [q, ho] using hq

end Count

theorem isLastRent_unique {b : Book A} (hb : b.Listed) {m : MachineId}
    (h : b.isLastRent m renter = some (true, x)) {id' : Nat} {o' : RentOrderDetail A}
    (ho : b.rentInfo.get id = some o) (ho' : b.rentInfo.get id' = some o') (hm : o.machineId = m)
    (hm' : o'.machineId = m) (hr : o.rentStatus = .renting)
    (hr' : o'.rentStatus = .renting) : id = id' := by
  unfold Book.isLastRent at h
  obtain ⟨orders, horders, hlast⟩ := map_eq_some_iff.1 h
  rw [Prod.mk.injEq, decide_eq_true_eq] at hlast
  exact eq_of_countP_lt hb horders hlast.1 ho ho' hm hm' (decide_eq_true hr) (decide_eq_true hr')

theorem exists_of_not_last {b : Book A} (hb : b.Listed) {m : MachineId}
    (h : b.isLastRent m renter = some (false, x)) (id : Nat) :
    ∃ id' o, id' ≠ id ∧ b.rentInfo.get id' = some o ∧ o.machineId = m := by
  unfold Book.isLastRent at h
  obtain ⟨orders, horders, hlast⟩ := map_eq_some_iff.1 h
  rw [Prod.mk.injEq, decide_eq_false_iff_not] at hlast
  obtain ⟨id', o, hne, ho, hm, -⟩ := exists_of_le_countP hb horders hlast.1 id
  exact ⟨id', o, hne, ho, hm⟩

/-- **An order that is over** was the last one of its machine, if it was the last running one. -/
theorem Standing.finished (h : Standing s)
    (hinv : Inv due s) (hs : Struck id o s s') (hf : Finished id o s s')
    (halone : s.roster.status o.machineId = some .rented →
      ∀ x, s.book.isLastRent o.machineId o.renter = some (true, x) →
        ¬ s'.book.Rents o.machineId) : Standing s' := by
  have hR : s.book.Rents o.machineId := ⟨id, o, hf.order, rfl⟩
  rcases hf.roster with ⟨hr, last, hlast, hstay⟩ | ⟨st, hst, hoff, hr⟩ | ⟨hst, ⟨x, hlast⟩, hr⟩
  · refine h.struck hs (fun m _ => by rw [hr]; exact ⟨rfl, rfl⟩) ?_
    obtain ⟨i, hi, hg⟩ := hinv.live _ hR
    obtain ⟨hoff, hnot⟩ := hstay i hi hg
    have hstatus : s.roster.status o.machineId = some i.machineStatus :=
      OnlineProfile.roster_status hi
    obtain ⟨st, hst, hcore⟩ := (h.stands o.machineId).rented hR
    have hrented : i.machineStatus = .rented := by
      rw [hstatus, some.injEq] at hst
      rw [← core_of_not_offline hoff, hst, hcore]
    have hfalse : last.1 = false := by
      by_contra hl
      exact hnot ⟨hrented, Bool.eq_true_of_not_eq_false hl⟩
    obtain ⟨id', o', hne, ho', hm⟩ := exists_of_not_last hinv.listed
      (x := last.2) (by rw [hlast, ← hfalse]) id
    refine ⟨fun _ => ?_, fun _ _ => .inl ⟨id', o', by rw [hs.get, if_neg hne, ho'], hm⟩⟩
    rw [hr]
    exact ⟨st, hst, hcore⟩
  · refine h.struck hs (fun m hm => ?_) ⟨fun _ => ?_, fun {st'} hst' _ => .inr ?_⟩
    · rw [hr]
      simp [Roster.setFinished, hm]
    · rw [hr]
      exact (h.stands o.machineId).rented hR
    · rw [hr] at hst'
      rw [hr]
      have hsame : s.roster.status o.machineId = some st' := hst'
      rw [hst] at hsame
      cases hsame
      exact ⟨hoff, by simp [Roster.setFinished]⟩
  · refine h.struck hs (fun m hm => ?_) (.idle (halone hst x hlast) fun st' hst' => ?_)
    · rw [hr]
      simp [Roster.put, hm]
    · rw [hr] at hst'
      simp only [Roster.put, if_true, some.injEq] at hst'
      subst hst'
      exact core_online

/-- If all running orders of a rented machine end now, no order of it waits for longer. -/
def EndsAlone (s : State A) : Prop :=
  ∀ id o, s.book.rentInfo.get id = some o → o.rentStatus = .renting → o.rentEnd = s.now →
    s.roster.status o.machineId = some .rented →
    (∃ id' o', s.book.rentInfo.get id' = some o' ∧ o'.machineId = o.machineId ∧
      o'.rentStatus = .renting ∧ o'.rentEnd ≠ s.now) ∨
    ∀ id' o', s.book.rentInfo.get id' = some o' → o'.machineId = o.machineId →
      o'.rentStatus = .waitingVerifying → o'.confirmEnd = s.now

/-- In the middle of the hook that started in `s₀`: what runs on is still there, and no machine is
rented that was not. -/
structure Midway (s₀ s : State A) : Prop where
  standing : Standing s
  running : ∀ {id o}, s₀.book.rentInfo.get id = some o → o.rentStatus = .renting →
    o.rentEnd ≠ s₀.now → s.book.rentInfo.get id = some o
  rented : ∀ {m}, s.roster.status m = some .rented → s₀.roster.status m = some .rented

omit [LinearOrder A] in
theorem rented_of_put {r : Roster A} {m m' : MachineId} {f : LiveMachine → LiveMachine}
    (h : (r.put m' (some .online) f).status m = some .rented) : r.status m = some .rented := by
  by_cases hm : m = m'
  · simp [Roster.put, hm] at h
  · simpa [Roster.put, hm] using h

theorem Midway.expired (h : Midway s₀ s) (hinv : Inv due s) (hs : Struck id o s s')
    (he : Expired id o s s') (hw : o.rentStatus = .waitingVerifying) : Midway s₀ s' := by
  refine ⟨h.standing.expired hinv hs he, hs.running h.running ?_, fun {m} hm => ?_⟩
  · intro hr
    rw [hw] at hr
    cases hr
  · rw [he.roster] at hm
    split at hm
    · exact h.rented (rented_of_put hm)
    · exact h.rented hm

theorem Midway.finished (h : Midway s₀ s) (hinv : Inv due s)
    (hs : Struck id o s s') (hf : Finished id o s s') (hend : o.rentEnd = s₀.now)
    (halone : s.roster.status o.machineId = some .rented →
      ∀ x, s.book.isLastRent o.machineId o.renter = some (true, x) →
        ¬ s'.book.Rents o.machineId) : Midway s₀ s' := by
  refine ⟨h.standing.finished hinv hs hf halone, hs.running h.running fun _ => hend,
    fun {m} hm => ?_⟩
  rcases hf.roster with ⟨hr, -⟩ | ⟨st, -, -, hr⟩ | ⟨-, -, hr⟩
  · exact h.rented (hr ▸ hm)
  · rw [hr] at hm
    exact h.rented hm
  · rw [hr] at hm
    exact h.rented (rented_of_put hm)

/-- **The hook**: a machine whose last running order ends has no other order, since what waited
for a confirmation until now is gone, and nothing waits for longer. -/
theorem onFinalize_standing (hc : EndsAlone s) (hinv : Inv s.now s) (h : Standing s) :
    Standing s.onFinalize := by
  have hmidway : Midway s s := ⟨h, fun ho _ _ => ho, fun hm => hm⟩
  refine (onFinalize_rule hinv hmidway ?_ ?_).1.standing
  · intro s1 s2 id o hmid hinv hrun hs hw
    obtain ⟨-, o', hex⟩ := (expireOne_roster s.now id s1).ok hrun
    obtain rfl : o = o' := Option.some.inj (hs.order.symm.trans hex.order)
    exact hmid.expired hinv hs hex hw
  · intro s2 s3 id o hstrikes hgone hmid hinv hrun hs hend hw
    have hrent := (hmid.standing.placed hs.order).resolve_left hw
    obtain ⟨-, o', hfin⟩ := (finishOne_roster id s2).ok hrun
    obtain rfl : o = o' := Option.some.inj (hs.order.symm.trans hfin.order)
    refine hmid.finished hinv hs hfin hend fun hst x hlast => ?_
    rintro ⟨j, y, hy, hm⟩
    rw [hs.get] at hy
    split at hy
    · cases hy
    next hne =>
    have hrun' := hc id o (hstrikes.get hs.order) hrent hend (hmid.rented hst)
    rcases hrun' with ⟨k, z, hz, hzm, hzr, hzend⟩ | hwait
    · have hk := hmid.running hz hzr hzend
      obtain rfl := isLastRent_unique hinv.listed hlast hs.order hk rfl hzm hrent hzr
      rw [hs.order] at hk
      cases hk
      exact hzend hend
    · rcases hmid.standing.placed hy with hyw | hyr
      · exact hgone j y hy hyw (hwait j y (hstrikes.get hy) hm hyw)
      · exact hne (isLastRent_unique hinv.listed hlast hy hs.order hm rfl hyr hrent)

/-! ## Runs -/

/-- The pallets, before the first machine is bonded. -/
def orderSystem (crypto : Crypto A) : System (Block A) (Op A) where
  init t := (system crypto).init t ∧ ∀ m, t.state.machine m = none
  step t op t' := op.Possible t ∧ t' = apply crypto t op

/-- Machines with orders are not verified anew, forced out or back online after an end was noted;
orders have cards; and the last running order of a machine leaves none that waits. -/
def OrdersCounted (t : Block A) : Op A → Prop
  | .profile op => Leaves t.state.book.Rents t.state.roster op
  | .rentMachine _ m gpuNum _ => 0 < gpuNum ∧ gpuNum + t.state.machines.rentedGpu m ≤ u32Max
  | .endBlock => EndsAlone t.state
  | _ => True

/-- An operation that is not left to the machines without orders does nothing. -/
theorem Leaves.spares (h : Standing s) (hc : Leaves s.book.Rents s.roster op) :
    Spares s.book.Rents (fun _ g => 0 < g) op ∨
      OnlineProfile.apply crypto s.toProfile op = s.toProfile := by
  cases op with
  | machineExit c m =>
    rcases dispatch_cases (OnlineProfile.machineExit c m) s.toProfile with ⟨u, hrun⟩ | hsame
    · obtain ⟨hst, -⟩ := OnlineProfile.machineExit_moves hrun
      exact .inl ((h.stands.at hst).core_ne core_online)
    · exact .inr hsame
  | forceMachineExit who l => exact .inl hc
  | refuseMachine committee m => exact .inl hc
  | confirmMachine committee hw => exact .inl fun hR => absurd hR hc
  | _ => exact .inl trivial

theorem profile_live (hinv : Inv t.due t.state) (h : Standing t.state)
    (hc : Leaves t.state.book.Rents t.state.roster op) :
    Inv (apply crypto t (.profile op)).due (apply crypto t (.profile op)).state ∧
      Standing (apply crypto t (.profile op)).state := by
  have hor : Spares t.state.book.Rents (fun _ g => 0 < g) op ∨
      OnlineProfile.apply crypto t.state.toProfile op = t.state.toProfile := hc.spares h
  rcases hor with hspares | hsame
  · refine ⟨apply_inv crypto hinv trivial hspares, ?_⟩
    rcases OnlineProfile.apply_moves crypto t.state.toProfile op with hr | hm
    · exact h.same rfl (congrArg Roster.status hr) (congrArg Roster.finished hr)
    · exact ⟨h.cards, h.placed, h.stands.moves hm hc⟩
  · have he : apply crypto t (.profile op) = t := by
      show ({ t with state := t.state.setProfile _ } : Block A) = t
      rw [hsame]
      rfl
    rw [he]
    exact ⟨hinv, h⟩

theorem apply_live {op : Op A} (hinv : Inv t.due t.state) (h : Standing t.state)
    (hp : op.Possible t) (hc : OrdersCounted t op) :
    Inv (apply crypto t op).due (apply crypto t op).state ∧ Standing (apply crypto t op).state := by
  cases op with
  | profile op => exact profile_live hinv h hc
  | rentMachine renter m gpuNum duration =>
    refine ⟨apply_inv crypto hinv hp hc.2, dispatch_keeps (I := Standing) h fun _ s' hr => ?_⟩
    rcases rentMachineByBlock_ok hr with rfl | hplaced
    · exact h
    rcases rentMachineByBlock_roster hr with rfl | ⟨st, -, -, hroster⟩
    · exact h
    · exact h.placed_order hplaced hc.1 hinv.listed.fresh hroster
  | confirmRent renter id =>
    refine ⟨apply_inv crypto hinv hp trivial, dispatch_keeps (I := Standing) h fun _ s' hr => ?_⟩
    obtain ⟨o, ho, -, hb, -⟩ := (confirmRent_ok hr).order
    obtain ⟨_, -, -, -, hroster⟩ := confirmRent_roster hr
    exact h.rewrite (o.confirmed t.state.now) ho (by rw [hb]; rfl) rfl rfl rfl
      (by rw [hroster]) (by rw [hroster])
  | reletMachine renter id duration =>
    refine ⟨apply_inv crypto hinv hp trivial, dispatch_keeps (I := Standing) h fun _ s' hr => ?_⟩
    have hroster := reletMachineByBlock_roster hr
    rcases reletMachineByBlock_ok hr with rfl | ⟨o, rentEnd, ho, hrent, -, hb, -⟩
    · exact h
    · exact h.rewrite (o.setRentEnd rentEnd) ho (by rw [hb]; rfl) rfl rfl hrent
        (by rw [hroster]) (by rw [hroster])
  | setRentFeePot pot => exact ⟨apply_inv crypto hinv hp trivial, h.same rfl rfl rfl⟩
  | endBlock =>
    refine ⟨apply_inv crypto hinv hp trivial, onFinalize_standing hc ?_ h⟩
    rw [Block.due, if_neg (Bool.eq_false_iff.1 hp)] at hinv
    exact hinv
  | nextBlock =>
    have hroster := startBlock_roster t.state
    exact ⟨apply_inv crypto hinv hp trivial, h.same rfl (congrArg Roster.status hroster)
      (congrArg Roster.finished hroster)⟩

theorem reach_live (ht : (orderSystem crypto).Reach OrdersCounted t) :
    Inv t.due t.state ∧ Standing t.state := by
  refine ht.invariant (I := fun t => Inv t.due t.state ∧ Standing t.state) ?_ ?_
  · rintro t ⟨hinit, hnone⟩
    have hget : ∀ {id}, t.state.book.rentInfo.get id = none := by
      intro id
      rw [hinit.2.1]
      exact get_empty id
    refine ⟨init_inv hinit, fun ho => ?_, fun ho => ?_, fun m => .idle ?_ fun st hst => ?_⟩
    · rw [hget] at ho
      cases ho
    · rw [hget] at ho
      cases ho
    · rintro ⟨id, o, ho, -⟩
      rw [hget] at ho
      cases ho
    · obtain ⟨i, hi, -⟩ := OnlineProfile.status_eq_some hst
      rw [hnone] at hi
      cases hi
  · rintro t op _ ⟨hinv, h⟩ hc ⟨hp, rfl⟩
    exact apply_live hinv h hp hc

/-- A working machine is rented as long as it has an order, and the status of a machine that is
not offline never stands in the way of a confirmation. -/
structure StatusTells (s : State A) : Prop where
  status : ∀ m i, s.machine m = some i → i.machineStatus = .online ∨ i.machineStatus = .rented →
    (i.machineStatus = .rented ↔ ∃ id o, s.book.rentInfo.get id = some o ∧ o.machineId = m)
  confirm : ∀ renter id o, s.book.rentInfo.get id = some o →
    (∀ i, s.machine o.machineId = some i → i.machineStatus.isOffline = false) →
    ((confirmRent renter id).run s).1 ≠ .error .statusNotAllowed

/-- `confirm_rent` refuses a status only if the machine is not rented. -/
theorem confirmRent_statusNotAllowed
    (h : ((confirmRent renter id).run s).1 = .error .statusNotAllowed) :
    ∃ o i, s.book.rentInfo.get id = some o ∧ s.machine o.machineId = some i ∧
      i.machineStatus ≠ .rented := by
  set Q := ∃ o i, s.book.rentInfo.get id = some o ∧ s.machine o.machineId = some i ∧
    i.machineStatus ≠ .rented
  have hpay : ∀ (renter stash : A) (m : MachineId) (fee : Nat) (s1 : State A),
      Post (payRentFee renter m stash fee) s1 (fun _ _ => True)
        (fun e _ => e = .statusNotAllowed → Q) := by
    intro renter stash m fee s1
    unfold payRentFee
    simp only [post_step, post_ignore, reduceCtorEq, false_implies, implies_true, and_true]
    exact fun _ _ _ _ _ _ _ _ => post_true _ _
  have hpost : Post (confirmRent renter id) s (fun _ _ => True)
      (fun e _ => e = .statusNotAllowed → Q) := by
    unfold confirmRent
    simp only [post_step, post_mapError, reduceCtorEq, false_implies, implies_true, and_true,
      true_implies]
    refine fun o ho _ _ _ _ _ i hi => ⟨fun _ => ?_, fun hst => ⟨o, i, ho, hi, hst⟩⟩
    refine (post_true _ s).mono (fun _ s1 _ => ?_) fun _ _ h => h
    refine (hpay _ _ _ _ s1).mono (fun _ s2 _ => ?_) fun _ _ h => h
    exact post_true _ s2
  exact hpost.error h rfl

theorem Standing.tells (h : Standing s) : StatusTells s where
  status m i hi hor := by
    have hat := h.stands.at (OnlineProfile.roster_status hi)
    constructor
    · intro hr
      rcases hat.rents rfl (by rw [hr]; rfl) with hR | ⟨hoff, -⟩
      · exact hR
      · rw [hr] at hoff
        cases hoff
    · intro hR
      rcases hor with ho | hr
      · obtain ⟨st, hst, hcore⟩ := hat.rented hR
        cases hst
        rw [ho] at hcore
        cases hcore
      · exact hr
  confirm renter id o ho hoff herr := by
    obtain ⟨o', i, ho', hi, hne⟩ := confirmRent_statusNotAllowed herr
    rw [ho] at ho'
    cases ho'
    obtain ⟨st, hst, hcore⟩ := (h.stands.at (OnlineProfile.roster_status hi)).rented
      ⟨id, o, ho, rfl⟩
    cases hst
    rw [core_of_not_offline (hoff i hi)] at hcore
    exact hne hcore

/-- **The status of a machine tells whether it has orders** in every run in which the pallets
count its orders right. -/
theorem status_tells_orders (crypto : Crypto A) (t : Block A)
    (ht : (orderSystem crypto).Reach OrdersCounted t) : StatusTells t.state :=
  (reach_live ht).2.tells

/-- The operation forces no machine out and takes none offline. -/
def Op.undisturbing : Op A → Bool
  | .profile (.forceMachineExit _ _) | .profile (.controllerReportOffline _ _)
  | .profile (.offlineMachineChangeHardwareInfo _ _) | .profile (.mtMachineOffline _ _ _ _) => false
  | _ => true

end

namespace RosterDemo

def second : Block Nat :=
  apply crypto ⟨confirmed.state.atBlock 300, false⟩ (.rentMachine 3 machineId 1 300)

def ending : Block Nat := ⟨second.state.atBlock 400, false⟩

theorem wait_still (t : Block Nat) (start n : Nat) (ht : t.ended = false)
    (hnow : t.state.now = start) (hlate : 2 < start ∧ start + n < oneDay)
    (hs : t.state.rewards.allMachineIdSnap = [] ∧ t.state.slashes.pendingExecSlash.iter.map Prod.fst
      = [] ∧ t.state.slashes.pendingSlashReviewChecking.iter.map Prod.fst = [])
    (hb : ∀ k < n, (t.state.book.confirmingOrder.bucket (start + k)).toList = [] ∧
      (t.state.book.rentEnding.bucket (start + k)).toList = []) :
    (wait n).foldl (apply crypto) t = ⟨t.state.atBlock (start + n), false⟩ := by
  obtain ⟨s, ended⟩ := t
  subst ht hnow
  obtain ⟨hsnap, he, hc⟩ := hs
  have hday : 2 < s.now ∧ s.now + n < oneDay := hlate
  refine foldl_wait crypto n fun k hk hlt => ?_
  obtain ⟨j, rfl⟩ := Nat.exists_eq_add_of_le hk
  obtain ⟨hconf, hend⟩ := hb j (by omega)
  refine ⟨?_, hsnap, get_of_iter_nil (map_eq_nil_iff.1 he) _,
    get_of_iter_nil (map_eq_nil_iff.1 hc) _, hconf, hend⟩
  rw [Nat.mod_eq_of_lt (by omega)]
  omega

theorem reach_orders {C : Block Nat → Op Nat → Prop} {l : List (Op Nat)} (hl : Follows C l start) :
    (orderSystem crypto).Reach C (after l) := by
  refine (System.Reach.init ?_).path (fun t op h => ⟨h.2, h.1, rfl⟩) hl
  exact ⟨⟨rfl, rfl, fun m => rfl, by decide⟩, fun m => get_empty m⟩

theorem ending_reach : (orderSystem crypto).Reach (fun _ op => op.undisturbing = true) ending := by
  have hrented : (orderSystem crypto).Reach (fun _ op => op.undisturbing = true)
      (after (bring ++ rent)) :=
    reach_orders ⟨⟨trivial, rfl⟩, ⟨trivial, rfl⟩, ⟨trivial, rfl⟩, ⟨trivial, rfl⟩, ⟨trivial, rfl⟩,
      ⟨trivial, rfl⟩, ⟨trivial, rfl⟩, ⟨trivial, rfl⟩, ⟨trivial, rfl⟩, ⟨rfl, rfl⟩, trivial⟩
  have hconfirmed : (orderSystem crypto).Reach (fun _ op => op.undisturbing = true) confirmed :=
    hrented.step (i := .confirmRent 3 0) rfl ⟨rfl, rfl⟩
  have hwait : ∀ n t, t.ended = false →
      Follows (fun _ op => op.undisturbing = true) (wait n) t := by
    intro n t ht
    refine path_wait (fun _ => ?_) ht n
    exact ⟨rfl, rfl⟩
  have hwaited := hconfirmed.path (fun t op h => ⟨h.2, h.1, rfl⟩) (hwait 200 _ rfl)
  have hstill : (wait 200).foldl (apply crypto) confirmed = ⟨confirmed.state.atBlock 300, false⟩ :=
    wait_still confirmed 100 200 rfl (by decide +kernel) (by decide) (by decide +kernel)
      (by decide +kernel)
  rw [hstill] at hwaited
  have hsecond : (orderSystem crypto).Reach (fun _ op => op.undisturbing = true) second :=
    hwaited.step (i := .rentMachine 3 machineId 1 300) rfl ⟨rfl, rfl⟩
  have hending := hsecond.path (fun t op h => ⟨h.2, h.1, rfl⟩) (hwait 100 _ rfl)
  have hstill' : (wait 100).foldl (apply crypto) second = ending :=
    wait_still second 300 100 rfl (by decide +kernel) (by decide) (by decide +kernel)
      (by decide +kernel)
  rw [hstill'] at hending
  exact hending

end RosterDemo

open RosterDemo in
theorem status_tells_orders_confirmed :
    (confirmed.state.machine machineId).map (·.machineStatus) = some .rented ∧
      StatusTells confirmed.state := by
  have hfree : ∀ t : Block Nat, t.state.book = .empty → ¬ t.state.book.Rents machineId := by
    rintro t he ⟨id, o, ho, -⟩
    rw [he] at ho
    cases ho
  have hrented : (orderSystem crypto).Reach OrdersCounted (after (bring ++ rent)) := by
    refine reach_orders ⟨⟨trivial, trivial⟩, ⟨trivial, trivial⟩, ⟨trivial, trivial⟩,
      ⟨trivial, trivial⟩, ⟨trivial, trivial⟩, ⟨trivial, trivial⟩, ⟨trivial, trivial⟩,
      ⟨trivial, ?_⟩, ⟨trivial, ?_⟩, ⟨rfl, ?_⟩, trivial⟩
    · exact hfree _ rfl
    · exact hfree _ rfl
    · exact ⟨by decide, by decide +kernel⟩
  exact ⟨by decide +kernel, status_tells_orders crypto _
    (hrented.step (i := .confirmRent 3 0) trivial ⟨rfl, rfl⟩)⟩

open RosterDemo in
/-- When the first order ends, the machine is online although the second one waits, and the second
one cannot be confirmed any more. -/
theorem ending_order_hides_waiting :
    ∃ t : Block Nat, (orderSystem crypto).Reach (fun _ op => op.undisturbing = true) t ∧
      t.ended = true ∧ ¬ StatusTells t.state ∧
      ((confirmRent 3 1).run (apply crypto t .nextBlock).state).1 = .error .statusNotAllowed := by
  refine ⟨apply crypto ending .endBlock, ending_reach.step (i := .endBlock) rfl ⟨rfl, rfl⟩,
    rfl, ?_, ?_⟩
  · intro h
    have hst : (apply crypto ending .endBlock).state.roster.status machineId = some .online := by
      decide +kernel
    have hid : ((apply crypto ending .endBlock).state.book.rentInfo.get 1).map (·.machineId) =
        some machineId := by decide +kernel
    obtain ⟨i, hi, honline⟩ := OnlineProfile.status_eq_some hst
    obtain ⟨o, ho, hm⟩ := map_eq_some_iff.1 hid
    have hrented := (h.status machineId i hi (.inl honline)).2 ⟨1, o, ho, hm⟩
    rw [honline] at hrented
    cases hrented
  · decide +kernel

end DeepBrainChain.RentMachine
