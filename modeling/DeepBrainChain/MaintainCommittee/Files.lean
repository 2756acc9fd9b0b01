import DeepBrainChain.MaintainCommittee.Calls

/-!
# The file of a report

What the desk says about one report: its record, the lists it is in, the committees that hold it as
booked and the hash of each. A call or a round of a hook writes the file of one report, and may open
a new one; `Turn` lists what it can do to a file.
-/

namespace DeepBrainChain.MaintainCommittee

open Lib GenericFunc Support StorageMap

@[ext] structure Shelf where
  bookable : Prop
  verifying : Prop
  waitingRaw : Prop
  finished : Prop

def shelf (l : MTLiveReportList) (id : Nat) : Shelf where
  bookable := id ∈ l.bookableReport
  verifying := id ∈ l.verifyingReport
  waitingRaw := id ∈ l.waitingRawReport
  finished := id ∈ l.finishedReport

section

variable {A : Type} [LinearOrder A]

@[ext] structure File (A : Type) [LinearOrder A] where
  info : Option (MTReportInfoDetail A)
  shelf : Shelf
  booked : A → Prop
  hash : A → Bytes

def Desk.file (d : Desk A) (id : Nat) : File A where
  info := d.info id
  shelf := MaintainCommittee.shelf d.liveReport id
  booked c := id ∈ (d.order c).bookedReport
  hash c := (d.ops c id).confirmHash

/-- The file of an identifier that was never given out. -/
structure File.Blank (f : File A) : Prop where
  info : f.info = none
  shelf : f.shelf = ⟨False, False, False, False⟩
  booked : ∀ c, ¬ f.booked c

/-! ## Single writes -/

namespace Desk

variable {d : Desk A} {c : A} {id i : Nat}

theorem file_putInfo_self (x : MTReportInfoDetail A) :
    (d.putInfo id x).file id = { d.file id with info := some x } :=
  File.ext (d.reportInfo.get_insert_self id x) rfl rfl rfl

theorem file_putInfo_ne (h : i ≠ id) (x : MTReportInfoDetail A) :
    (d.putInfo id x).file i = d.file i :=
  File.ext (d.reportInfo.get_insert_ne x h) rfl rfl rfl

theorem file_rmInfo_self : (d.rmInfo id).file id = { d.file id with info := none } :=
  File.ext (d.reportInfo.get_remove_self id) rfl rfl rfl

theorem file_rmInfo_ne (h : i ≠ id) : (d.rmInfo id).file i = d.file i :=
  File.ext (d.reportInfo.get_remove_ne h) rfl rfl rfl

theorem file_mapLive (f : MTLiveReportList → MTLiveReportList) :
    (d.mapLive f).file i = { d.file i with shelf := MaintainCommittee.shelf (f d.liveReport) i } :=
  rfl

theorem file_mapLive_ne {f : MTLiveReportList → MTLiveReportList}
    (h : MaintainCommittee.shelf (f d.liveReport) i = MaintainCommittee.shelf d.liveReport i) :
    (d.mapLive f).file i = d.file i :=
  File.ext rfl h rfl rfl

theorem order_putOrder (c' : A) (x : MTCommitteeOrderList) :
    (d.putOrder c x).order c' = if c' = c then x else d.order c' :=
  d.committeeOrder.getD_insert c c' x .zero

theorem booked_putOrder (x : MTCommitteeOrderList) (c' : A) :
    ((d.putOrder c x).file i).booked c' =
      if c' = c then i ∈ x.bookedReport else (d.file i).booked c' := by
  show (i ∈ ((d.putOrder c x).order c').bookedReport) = _
  rw [order_putOrder]
  by_cases hc : c' = c
  · rw [if_pos hc, if_pos hc]
  · rw [if_neg hc, if_neg hc]
    rfl

theorem file_putOrder_same {x : MTCommitteeOrderList}
    (h : i ∈ x.bookedReport ↔ i ∈ (d.order c).bookedReport) :
    (d.putOrder c x).file i = d.file i := by
  refine File.ext rfl rfl (funext fun c' => ?_) rfl
  rw [booked_putOrder]
  split
  · next hc => rw [hc, h]; rfl
  · rfl

theorem ops_putOps (c' : A) (x : MTCommitteeOpsDetail) :
    (d.putOps c id x).ops c' i = if c' = c ∧ i = id then x else d.ops c' i := by
  unfold ops putOps
  rw [getD_insert]
  simp only [Prod.mk.injEq]

theorem ops_rmOps (c' : A) :
    (d.rmOps c id).ops c' i = if c' = c ∧ i = id then .zero else d.ops c' i := by
  unfold ops rmOps
  rw [getD_remove]
  simp only [Prod.mk.injEq]

theorem file_putOps_ne (h : i ≠ id) (x : MTCommitteeOpsDetail) :
    (d.putOps c id x).file i = d.file i := by
  refine File.ext rfl rfl rfl (funext fun c' => ?_)
  show ((d.putOps c id x).ops c' i).confirmHash = _
  rw [ops_putOps, if_neg fun hc => h hc.2]
  rfl

theorem file_rmOps_ne (h : i ≠ id) : (d.rmOps c id).file i = d.file i := by
  refine File.ext rfl rfl rfl (funext fun c' => ?_)
  show ((d.rmOps c id).ops c' i).confirmHash = _
  rw [ops_rmOps, if_neg fun hc => h hc.2]
  rfl

theorem hash_putOps (x : MTCommitteeOpsDetail) (c' : A) :
    ((d.putOps c id x).file id).hash c' =
      if c' = c then x.confirmHash else (d.file id).hash c' := by
  show ((d.putOps c id x).ops c' id).confirmHash = _
  rw [ops_putOps]
  by_cases hc : c' = c
  · rw [if_pos ⟨hc, rfl⟩, if_pos hc]
  · rw [if_neg fun h => hc h.1, if_neg hc]
    rfl

theorem file_putOps_same {x : MTCommitteeOpsDetail} (h : x.confirmHash = (d.ops c id).confirmHash) :
    (d.putOps c id x).file id = d.file id := by
  refine File.ext rfl rfl rfl (funext fun c' => ?_)
  rw [hash_putOps]
  split
  · next hc => rw [hc, h]; rfl
  · rfl

theorem hash_rmOps_ne {c' : A} (h : c' ≠ c) :
    ((d.rmOps c id).file id).hash c' = (d.file id).hash c' := by
  show ((d.rmOps c id).ops c' id).confirmHash = _
  rw [ops_rmOps, if_neg fun hc => h hc.1]
  rfl

theorem file_newReport_ne (h : i ≠ d.nextReportId) (x : MTReportInfoDetail A) :
    (d.newReport x).file i = d.file i := by
  refine File.ext (d.reportInfo.get_insert_ne x h) ?_ rfl rfl
  simp [file, newReport, mapLive, putInfo, MTLiveReportList.newReport, shelf, h]

end Desk

/-! ## What can happen to a file -/

/-- The parts of a block: the calls, and the loops of the hooks at its end over the reports that
are being verified, over those whose findings are counted, and over those of machines that cannot
be reached. -/
inductive Stage
  | calls
  | verifying
  | counting
  | inaccessible

/-- What a step depends on: the part of the block, the hash function, the block, the machines that
have a record, and the hashes and findings that may be submitted. -/
structure Scene (A : Type) where
  stage : Stage
  env : Env
  now : Nat
  known : MachineId → Prop
  hashes : A → Nat → Bytes → Prop
  allowed : Nat → RawInfo → Prop

/-- A finding with the vote `b` opens the hash of a committee. -/
inductive Opens (v : Scene A) (id : Nat) (x : MTReportInfoDetail A) (hash : Bytes) : Bool → Prop
  | raw (r : RawInfo) (hx : x.machineFaultType.isInaccessible = false) (hr : v.allowed id r)
    (h : getHash v.env r.committeeParts = hash) : Opens v id x hash r.supportReport
  | inaccessible (rand : Bytes) (b : Bool) (hx : x.machineFaultType.isInaccessible = true)
    (h : getHash v.env (inaccessibleParts id rand b) = hash) : Opens v id x hash b

/-- What a call or a round of a hook does to the file of `id`. -/
inductive Turn (v : Scene A) (id : Nat) (f g : File A) : Prop
  | stay (h : g = f)
  | filed (hf : f.Blank) (r : A) (t : Nat) (fault : MachineFaultType) (stake : Nat)
    (hi : g.info = some (.new r t fault stake)) (hs : g.shelf = ⟨True, False, False, False⟩)
    (hb : g.booked = f.booked)
  | canceled (hv : v.stage = .calls) (x : MTReportInfoDetail A) (hx : f.info = some x)
    (hst : x.reportStatus = .reported)
    (hi : g.info = none) (hs : g.shelf = { f.shelf with bookable := False })
    (hb : g.booked = f.booked)
  | booked (hv : v.stage = .calls) (x : MTReportInfoDetail A) (hx : f.info = some x) (c : A)
    (t : Nat)
    (hc : x.canBook c = .ok ()) (hi : g.info = some (x.bookReport c t))
    (hs : g.shelf =
      if (x.bookReport c t).bookedCommittee.length = 3 ∨
          x.machineFaultType.isInaccessible = false then
        { f.shelf with bookable := False, verifying := True }
      else f.shelf)
    (hb : ∀ c', g.booked c' → c' = c ∨ f.booked c') (hh : g.hash = f.hash)
  | encrypted (hv : v.stage = .calls) (x : MTReportInfoDetail A) (hx : f.info = some x) (c : A)
    (hi : g.info = some (x.addEncrypted c)) (hs : g.shelf = f.shelf) (hb : g.booked = f.booked)
    (hh : g.hash = f.hash)
  | hashed (hv : v.stage = .calls) (x : MTReportInfoDetail A) (hx : f.info = some x) (c : A)
    (hash : Bytes)
    (hnew : v.hashes c id hash) (hc : f.booked c) (hcan : x.canSubmitHash = .ok ())
    (hi : g.info = some (x.addHash c))
    (hs : g.shelf =
      if (x.addHash c).hashedCommittee.length = 3 then
        { f.shelf with verifying := False, waitingRaw := True }
      else if x.machineFaultType.isInaccessible = false then
        { f.shelf with verifying := False, bookable := True }
      else f.shelf)
    (hb : ∀ c', g.booked c' → c' ≠ c ∧ f.booked c')
    (hh : ∀ c', g.hash c' = if c' = c then hash else f.hash c')
  | revealed (hv : v.stage = .calls) (x : MTReportInfoDetail A) (hx : f.info = some x) (c : A)
    (b : Bool)
    (m : Option MachineId) (err : Bytes) (hcan : x.canSubmitRaw c = .ok ())
    (ho : Opens v id x (f.hash c) b) (hi : g.info = some (x.addRaw c b m err))
    (hs : g.shelf = f.shelf) (hb : g.booked = f.booked) (hh : g.hash = f.hash)
  | started (hv : v.stage = .inaccessible) (x : MTReportInfoDetail A) (hx : f.info = some x)
    (hin : x.machineFaultType.isInaccessible = true)
    (hst : x.reportStatus = .waitingBook ∨ x.reportStatus = .verifying)
    (hi : g.info = some (x.setStatus .submittingRaw))
    (hs : g.shelf = ⟨False, False, True, f.shelf.finished⟩) (hb : g.booked = f.booked)
    (hh : g.hash = f.hash)
  | closed (hv : v.stage = .inaccessible) (x : MTReportInfoDetail A) (hx : f.info = some x)
    (hst : x.reportStatus = .submittingRaw) (hi : g.info = some x)
    (hs : g.shelf = { f.shelf with waitingRaw := False }) (hb : ∀ c, g.booked c → f.booked c)
    (hh : ∀ c ∈ x.confirmedCommittee, g.hash c = f.hash c)
  | concluded (hv : v.stage = .inaccessible) (x : MTReportInfoDetail A) (hx : f.info = some x)
    (hst : x.reportStatus = .submittingRaw) (hi : g.info = some (x.setStatus .committeeConfirmed))
    (hs : g.shelf = ⟨False, False, False, True⟩) (hb : ∀ c, g.booked c → f.booked c)
  | late (hv : v.stage = .verifying) (x : MTReportInfoDetail A) (hx : f.info = some x)
    (hin : x.machineFaultType.isInaccessible = false) (hst : x.reportStatus = .verifying)
    (hi : g.info = some x) (hs : g.shelf = { f.shelf with verifying := False })
    (hb : ∀ c, g.booked c → f.booked c ∧ c ∉ x.bookedCommittee)
  | dropped (hv : v.stage = .verifying) (x : MTReportInfoDetail A) (hx : f.info = some x)
    (hin : x.machineFaultType.isInaccessible = false) (hst : x.reportStatus = .verifying) (c : A)
    (hc : x.verifyingCommittee = some c) (hi : g.info = some (x.cleanNotSubmitHashCommittee c))
    (hs : g.shelf = { f.shelf with verifying := False, bookable := True })
    (hb : ∀ c', g.booked c' → c' ≠ c ∧ f.booked c') (hh : ∀ c', c' ≠ c → g.hash c' = f.hash c')
  | switched (hv : v.stage = .verifying) (x : MTReportInfoDetail A) (hx : f.info = some x)
    (hst : x.reportStatus = .waitingBook) (hi : g.info = some (x.setStatus .submittingRaw))
    (hs : g.shelf = ⟨False, False, True, f.shelf.finished⟩) (hb : g.booked = f.booked)
    (hh : g.hash = f.hash)
  | stranded (hv : v.stage = .verifying) (x : MTReportInfoDetail A) (hx : f.info = some x)
    (hsum : x.canSummaryFault)
    (hlate : threeHours ≤ v.now - x.firstBookTime) (hst : x.reportStatus ≠ .waitingBook)
    (hi : g.info = some x) (hs : g.shelf = ⟨False, False, True, f.shelf.finished⟩)
    (hb : g.booked = f.booked) (hh : g.hash = f.hash)
  | bereft (hv : v.stage = .verifying) (x : MTReportInfoDetail A) (hx : f.info = some x)
    (hsum : x.canSummaryFault)
    (hlate : threeHours ≤ v.now - x.firstBookTime) (hst : x.reportStatus ≠ .waitingBook) (c : A)
    (hc : x.verifyingCommittee = some c) (hi : g.info = some (x.cleanNotSubmitRawCommittee c))
    (hs : g.shelf = ⟨False, False, True, f.shelf.finished⟩)
    (hb : ∀ c', g.booked c' → c' ≠ c ∧ f.booked c') (hh : ∀ c', c' ≠ c → g.hash c' = f.hash c')
  | decided (hv : v.stage = .counting) (x : MTReportInfoDetail A) (hx : f.info = some x)
    (hsum : x.canSummary v.now)
    (hi : g.info = some (if x.reportStatus = .reported then x else x.setStatus .committeeConfirmed))
    (hs : g.shelf = { f.shelf with waitingRaw := False, finished := True })
    (hb : g.booked = f.booked) (hh : g.hash = f.hash)
  | stuck (hv : v.stage = .counting) (x : MTReportInfoDetail A) (hx : f.info = some x)
    (hsum : x.canSummary v.now)
    (hc : x.confirmedCommittee.isEmpty = false)
    (hle : x.againstCommittee.length ≤ x.supportCommittee.length)
    (hk : ¬ v.known x.machineId) (hi : g.info = some x)
    (hs : g.shelf = { f.shelf with waitingRaw := False, finished := True })
    (hb : g.booked = f.booked) (hh : g.hash = f.hash)
  | undecided (hv : v.stage = .counting) (x : MTReportInfoDetail A) (hx : f.info = some x)
    (hsum : x.canSummary v.now) (he : x.confirmedCommittee.isEmpty = true)
    (hi : g.info = some (if x.reportStatus = .reported then x else x.setStatus .committeeConfirmed))
    (hs : g.shelf = { f.shelf with waitingRaw := False }) (hb : ∀ c, g.booked c → f.booked c)

/-- What a call or a round about `id` does to the desk: at most one file is opened, and no other
one is touched. -/
structure Moves (v : Scene A) (id : Nat) (d d' : Desk A) : Prop where
  turn : ∀ i, Turn v i (d.file i) (d'.file i)
  same : ∀ i, i ≠ id → i < d.nextReportId → d'.file i = d.file i
  fresh : ∀ i, d'.nextReportId ≤ i → d'.file i = d.file i
  low : d.nextReportId ≤ d'.nextReportId
  high : d'.nextReportId ≤ d.nextReportId + 1

def Desk.Fresh (d : Desk A) : Prop := ∀ i, d.nextReportId ≤ i → (d.file i).Blank

section

variable {v : Scene A} {d d' d1 : Desk A} {id i : Nat} {x : MTReportInfoDetail A} {c : A}

theorem Desk.Fresh.lt (h : d.Fresh) (hx : d.info id = some x) : id < d.nextReportId := by
  by_contra hlt
  have hnone : d.info id = none := (h id (Nat.le_of_not_lt hlt)).info
  rw [hx] at hnone
  cases hnone

theorem Moves.fresh_desk (h : Moves v id d d') (hf : d.Fresh) : d'.Fresh := by
  intro i hi
  rw [h.fresh i hi]
  exact hf i (h.low.trans hi)

theorem Moves.refl (v : Scene A) (id : Nat) (d : Desk A) : Moves v id d d where
  turn _ := .stay rfl
  same _ _ _ := rfl
  fresh _ _ := rfl
  low := le_rfl
  high := Nat.le_succ _

theorem Moves.of_turn (hlt : id < d.nextReportId) (hn : d'.nextReportId = d.nextReportId)
    (ho : ∀ i, i ≠ id → d'.file i = d.file i) (ht : Turn v id (d.file id) (d'.file id)) :
    Moves v id d d' where
  turn i := by
    by_cases hi : i = id
    · rw [hi]
      exact ht
    · exact .stay (ho i hi)
  same i hi _ := ho i hi
  fresh i hi := ho i (by omega)
  low := hn.ge
  high := by omega

theorem nextId_of_ne (h : id ≠ u64Max) : Desk.nextId id = id + 1 := if_neg h

theorem turn_newReport (hf : d.Fresh) (r : A) (t : Nat) (fault : MachineFaultType) (stake : Nat) :
    Turn v d.nextReportId (d.file d.nextReportId)
      ((d.newReport (.new r t fault stake)).file d.nextReportId) := by
  have hblank := hf d.nextReportId le_rfl
  refine .filed hblank r t fault stake (d.reportInfo.get_insert_self _ _) ?_ rfl
  have hshelf :
      MaintainCommittee.shelf d.liveReport d.nextReportId = ⟨False, False, False, False⟩ :=
    hblank.shelf
  obtain ⟨-, hv, hw, hfin⟩ := Shelf.mk.inj hshelf
  exact Shelf.ext (eq_true (SortedVec.mem_addItem.2 (.inl rfl))) hv hw hfin

theorem Moves.newReport (hf : d.Fresh) (hmax : d.nextReportId ≠ u64Max) (id : Nat) (r : A) (t : Nat)
    (fault : MachineFaultType) (stake : Nat) :
    Moves v id d (d.newReport (.new r t fault stake)) := by
  have hnext : (d.newReport (.new r t fault stake)).nextReportId = d.nextReportId + 1 :=
    nextId_of_ne hmax
  refine ⟨fun i => ?_, fun i _ hi => d.file_newReport_ne (by omega) _,
    fun i hi => d.file_newReport_ne (by omega) _, by omega, by omega⟩
  by_cases hi : i = d.nextReportId
  · rw [hi]
    exact turn_newReport hf r t fault stake
  · exact .stay (d.file_newReport_ne hi _)

theorem Moves.of_files (hlt : id < d.nextReportId) (hn : d'.nextReportId = d.nextReportId + 1)
    (ho : ∀ i, i ≠ id → i ≠ d.nextReportId → d'.file i = d.file i)
    (ht : Turn v id (d.file id) (d'.file id))
    (hnew : Turn v d.nextReportId (d.file d.nextReportId) (d'.file d.nextReportId)) :
    Moves v id d d' where
  turn i := by
    by_cases hi : i = id
    · rw [hi]
      exact ht
    by_cases hnext : i = d.nextReportId
    · rw [hnext]
      exact hnew
    · exact .stay (ho i hi hnext)
  same i hi hlt := ho i hi hlt.ne
  fresh i hi := ho i (by omega) (by omega)
  low := by omega
  high := hn.le

end

/-! # What each call and each round does to the files

One lemma for each extrinsic that writes the desk and for each round of the hooks at the end of a
block, also of a round that stops half way. -/

open Lib.Call List

variable {v : Scene A} {d d' : Desk A} {id i : Nat}
  {x : MTReportInfoDetail A} {c : A}

/-! ## What committees and reporters write -/

section

variable (hv : v.stage = .calls)

include hv

theorem moves_cancel (hf : d.Fresh) (hx : d.info id = some x) (hst : x.reportStatus = .reported) :
    Moves v id d ((d.mapLive (·.cancelReport id)).rmInfo id) := by
  refine .of_turn (hf.lt hx) rfl ?_ ?_
  · intro i hi
    rw [Desk.file_rmInfo_ne hi, Desk.file_mapLive_ne]
    simp [shelf, MTLiveReportList.cancelReport, hi]
  · rw [Desk.file_rmInfo_self, Desk.file_mapLive]
    refine .canceled hv x hx hst rfl ?_ rfl
    simp [shelf, MTLiveReportList.cancelReport, Desk.file]

theorem moves_book (hf : d.Fresh) (hx : d.info id = some x) (hc : x.canBook c = .ok ())
    (now stake : Nat) : Moves v id d (d.book c id x now stake) := by
  refine .of_turn (hf.lt hx) rfl ?_ ?_
  · intro i hi
    unfold Desk.book
    simp only
    rw [Desk.file_putInfo_ne hi, Desk.file_mapLive_ne, Desk.file_putOps_ne hi,
      Desk.file_putOrder_same]
    · simp [MTCommitteeOrderList.addBooked, hi]
    · unfold MTLiveReportList.bookReport
      split
      · simp [shelf, hi]
      · rfl
  · unfold Desk.book
    simp only
    have hhash : ((d.putOrder c ((d.order c).addBooked id)).putOps c id
        ((d.ops c id).bookReport x.machineFaultType now stake)).file id =
          (d.putOrder c ((d.order c).addBooked id)).file id := Desk.file_putOps_same rfl
    rw [Desk.file_putInfo_self, Desk.file_mapLive, hhash]
    refine .booked hv x hx c now hc rfl ?_ ?_ rfl
    · show shelf (MTLiveReportList.bookReport _ _ _ _) id = _
      unfold MTLiveReportList.bookReport
      split
      · simp [shelf, Desk.file, Desk.putOps, Desk.putOrder]
      · rfl
    · intro c' hc'
      change ((d.putOrder c ((d.order c).addBooked id)).file id).booked c' at hc'
      rw [Desk.booked_putOrder] at hc'
      split at hc'
      · next h => exact .inl h
      · exact .inr hc'

theorem moves_addEncrypted (hf : d.Fresh) (hx : d.info id = some x) (encrypted : Bytes)
    (now : Nat) : Moves v id d
      ((d.putInfo id (x.addEncrypted c)).putOps c id
        ((d.ops c id).addEncryInfo encrypted now)) := by
  refine .of_turn (hf.lt hx) rfl ?_ ?_
  · intro i hi
    rw [Desk.file_putOps_ne hi, Desk.file_putInfo_ne hi]
  · rw [Desk.file_putOps_same, Desk.file_putInfo_self]
    · exact .encrypted hv x hx c rfl rfl rfl rfl
    · rfl

theorem moves_addHash (hf : d.Fresh) (hx : d.info id = some x)
    (hc : id ∈ (d.order c).bookedReport) (hcan : x.canSubmitHash = .ok ()) {hash : Bytes}
    (hnew : v.hashes c id hash) (now : Nat) : Moves v id d (d.addHash c id x hash now) := by
  refine .of_turn (hf.lt hx) rfl ?_ ?_
  · intro i hi
    unfold Desk.addHash
    simp only
    rw [Desk.file_putOrder_same, Desk.file_putOps_ne hi, Desk.file_putInfo_ne hi,
      Desk.file_mapLive_ne]
    · unfold MTLiveReportList.submitHash
      split
      · simp [shelf, hi]
      · split
        · simp [shelf, hi]
        · rfl
    · show i ∈ ((d.order c).addHash id).bookedReport ↔ i ∈ (d.order c).bookedReport
      simp [MTCommitteeOrderList.addHash, hi]
  · unfold Desk.addHash
    simp only
    refine .hashed hv x hx c hash hnew hc hcan (d.reportInfo.get_insert_self _ _) ?_ ?_ ?_
    · show shelf (MTLiveReportList.submitHash _ _ _ _) id = _
      unfold MTLiveReportList.submitHash
      split
      · simp [shelf, Desk.file]
      · split
        · simp [shelf, Desk.file]
        · rfl
    · intro c' hc'
      rw [Desk.booked_putOrder] at hc'
      split at hc'
      · simp [MTCommitteeOrderList.addHash] at hc'
      · next h => exact ⟨h, hc'⟩
    · exact Desk.hash_putOps _

theorem moves_addRaw (hf : d.Fresh) (hx : d.info id = some x) (hcan : x.canSubmitRaw c = .ok ())
    {b : Bool} (ho : Opens v id x (d.ops c id).confirmHash b) (now : Nat) (m : Option MachineId)
    (err extra : Bytes) : Moves v id d (d.addRaw c id x now b m err extra) := by
  refine .of_turn (hf.lt hx) rfl ?_ ?_
  · intro i hi
    unfold Desk.addRaw
    rw [Desk.file_putInfo_ne hi, Desk.file_putOps_ne hi, Desk.file_putOrder_same]
    rfl
  · unfold Desk.addRaw
    rw [Desk.file_putInfo_self, Desk.file_putOps_same, Desk.file_putOrder_same]
    · exact .revealed hv x hx c b m err hcan ho rfl rfl rfl rfl
    · rfl
    · rfl

end

/-! ## What the hooks write -/

/-- Committees lose a report, and what those in `K` hashed stays. -/
structure Sheds (K : A → Prop) (id : Nat) (d d' : Desk A) : Prop where
  others : ∀ i, i ≠ id → d'.file i = d.file i
  info : (d'.file id).info = (d.file id).info
  shelf : (d'.file id).shelf = (d.file id).shelf
  booked : ∀ c, (d'.file id).booked c → (d.file id).booked c
  hash : ∀ c, K c → (d'.file id).hash c = (d.file id).hash c
  next : d'.nextReportId = d.nextReportId

section

variable {K : A → Prop} {d1 : Desk A} {l : List A}

theorem Sheds.refl (K : A → Prop) (id : Nat) (d : Desk A) : Sheds K id d d :=
  ⟨fun _ _ => rfl, rfl, rfl, fun _ h => h, fun _ _ => rfl, rfl⟩

theorem Sheds.trans (h1 : Sheds K id d d1) (h2 : Sheds K id d1 d') : Sheds K id d d' where
  others i hi := (h2.others i hi).trans (h1.others i hi)
  info := h2.info.trans h1.info
  shelf := h2.shelf.trans h1.shelf
  booked c hc := h1.booked c (h2.booked c hc)
  hash c hc := (h2.hash c hc).trans (h1.hash c hc)
  next := h2.next.trans h1.next

theorem Sheds.foldl {f : Desk A → A → Desk A} (hf : ∀ d c, c ∈ l → Sheds K id d (f d c)) :
    Sheds K id d (l.foldl f d) := by
  induction l generalizing d with
  | nil => exact .refl K id d
  | cons c l ih =>
    rw [foldl_cons]
    exact (hf d c mem_cons_self).trans (ih fun d c hc => hf d c (mem_cons_of_mem _ hc))

theorem Sheds.putOrder {o : MTCommitteeOrderList}
    (hne : ∀ i, i ≠ id → (i ∈ o.bookedReport ↔ i ∈ (d.order c).bookedReport))
    (hself : id ∈ o.bookedReport → id ∈ (d.order c).bookedReport) :
    Sheds K id d (d.putOrder c o) where
  others i hi := Desk.file_putOrder_same (hne i hi)
  info := rfl
  shelf := rfl
  booked c' hc' := by
    rw [Desk.booked_putOrder] at hc'
    split at hc'
    · next h => rw [h]; exact hself hc'
    · exact hc'
  hash _ _ := rfl
  next := rfl

theorem Sheds.rmOps (hc : ¬ K c) : Sheds K id d (d.rmOps c id) where
  others _ hi := Desk.file_rmOps_ne hi
  info := rfl
  shelf := rfl
  booked _ h := h
  hash _ hc' := Desk.hash_rmOps_ne fun h => hc (h ▸ hc')
  next := rfl

theorem sheds_closeOne (d : Desk A) (c : A) :
    Sheds (· ∈ x.confirmedCommittee) id d (Desk.closeOne id x d c) := by
  unfold Desk.closeOne
  split
  · exact .putOrder (fun i _ => Iff.rfl) fun h => h
  · next h =>
    refine (Sheds.rmOps h).trans (.putOrder (fun i hi => ?_) fun h => ?_)
    · show i ∈ (d.order c).bookedReport.rmItem id ↔ i ∈ (d.order c).bookedReport
      simp [hi]
    · simp [MTCommitteeOrderList.cleanWhenSummary] at h

theorem sheds_release (d : Desk A) (c : A) : Sheds (fun _ => False) id d (d.release id c) := by
  refine (Sheds.rmOps fun h => h).trans (.putOrder (fun i hi => ?_) fun h => ?_)
  · show i ∈ (d.order c).bookedReport.rmItem id ↔ i ∈ (d.order c).bookedReport
    simp [hi]
  · simp [MTCommitteeOrderList.cleanUnfinishedOrder] at h

theorem sheds_failOne (d : Desk A) (c : A) : Sheds (fun _ => False) id d (d.failOne id c) := by
  refine (Sheds.rmOps fun h => h).trans (.putOrder (fun i hi => ?_) fun h => ?_)
  · show i ∈ (d.order c).bookedReport.rmItem id ↔ i ∈ (d.order c).bookedReport
    simp [hi]
  · simp [MTCommitteeOrderList.rmBookedHashed] at h

end

theorem moves_startRaw (hv : v.stage = .inaccessible) (hf : d.Fresh) (hx : d.info id = some x)
    (hin : x.machineFaultType.isInaccessible = true)
    (hst : x.reportStatus = .waitingBook ∨ x.reportStatus = .verifying) :
    Moves v id d (d.startRaw id x) := by
  refine .of_turn (hf.lt hx) rfl ?_ ?_
  · intro i hi
    unfold Desk.startRaw
    rw [Desk.file_putInfo_ne hi, Desk.file_mapLive_ne]
    simp [shelf, MTLiveReportList.timeToSubmitRaw, hi]
  · unfold Desk.startRaw
    rw [Desk.file_putInfo_self, Desk.file_mapLive]
    refine .started hv x hx hin hst rfl ?_ rfl rfl
    simp [shelf, MTLiveReportList.timeToSubmitRaw, Desk.file]

theorem sheds_closeInaccessible (d : Desk A) (id : Nat) (x : MTReportInfoDetail A) :
    Sheds (· ∈ x.confirmedCommittee) id (d.mapLive (·.rmWaitingRaw id))
      (d.closeInaccessible id x) :=
  .foldl fun d c _ => sheds_closeOne d c

theorem file_rmWaitingRaw_ne (h : i ≠ id) : (d.mapLive (·.rmWaitingRaw id)).file i = d.file i := by
  rw [Desk.file_mapLive_ne]
  simp [shelf, MTLiveReportList.rmWaitingRaw, h]

theorem others_closeInaccessible (h : i ≠ id) : (d.closeInaccessible id x).file i = d.file i :=
  ((sheds_closeInaccessible d id x).others i h).trans (file_rmWaitingRaw_ne h)

theorem turn_closeInaccessible (hv : v.stage = .inaccessible) (hx : d.info id = some x)
    (hst : x.reportStatus = .submittingRaw) :
    Turn v id (d.file id) ((d.closeInaccessible id x).file id) := by
  have hsheds := sheds_closeInaccessible d id x
  refine .closed hv x hx hst (hsheds.info.trans hx) (hsheds.shelf.trans ?_)
    hsheds.booked hsheds.hash
  simp [shelf, MTLiveReportList.rmWaitingRaw, Desk.file, Desk.mapLive]

theorem moves_closeInaccessible (hv : v.stage = .inaccessible) (hf : d.Fresh)
    (hx : d.info id = some x)
    (hst : x.reportStatus = .submittingRaw) : Moves v id d (d.closeInaccessible id x) :=
  .of_turn (hf.lt hx) (sheds_closeInaccessible d id x).next (fun _ => others_closeInaccessible)
    (turn_closeInaccessible hv hx hst)

theorem moves_finishInaccessible (hv : v.stage = .inaccessible) (hf : d.Fresh)
    (hx : d.info id = some x)
    (hst : x.reportStatus = .submittingRaw) :
    Moves v id d ((d.closeInaccessible id x).finishInaccessible id x) := by
  refine .of_turn (hf.lt hx) (sheds_closeInaccessible d id x).next ?_ ?_
  · intro i hi
    unfold Desk.finishInaccessible
    rw [Desk.file_mapLive_ne, Desk.file_putInfo_ne hi, others_closeInaccessible hi]
    simp [shelf, MTLiveReportList.cleanUnfinishedReport, MTLiveReportList.addFinished, hi]
  · unfold Desk.finishInaccessible
    rw [Desk.file_mapLive, Desk.file_putInfo_self]
    refine .concluded hv x hx hst rfl ?_ (sheds_closeInaccessible d id x).booked
    simp [shelf, MTLiveReportList.cleanUnfinishedReport, MTLiveReportList.addFinished]

theorem moves_dropVerifying (hv : v.stage = .verifying) (hf : d.Fresh) (hx : d.info id = some x)
    (hin : x.machineFaultType.isInaccessible = false) (hst : x.reportStatus = .verifying)
    (hc : x.verifyingCommittee = some c) : Moves v id d (d.dropVerifying id x c) := by
  refine .of_turn (hf.lt hx) rfl ?_ ?_
  · intro i hi
    unfold Desk.dropVerifying
    rw [Desk.file_rmOps_ne hi, Desk.file_putInfo_ne hi, Desk.file_putOrder_same,
      Desk.file_mapLive_ne]
    · simp [shelf, MTLiveReportList.cleanNotSubmitHashReport, hi]
    · show i ∈ (d.order c).bookedReport.rmItem id ↔ i ∈ (d.order c).bookedReport
      simp [hi]
  · refine .dropped hv x hx hin hst c hc (d.reportInfo.get_insert_self _ _) ?_ ?_ ?_
    · simp [Desk.dropVerifying, Desk.rmOps, Desk.putInfo, Desk.putOrder, Desk.mapLive, Desk.file,
        shelf, MTLiveReportList.cleanNotSubmitHashReport]
    · intro c' hc'
      change ((d.putOrder c ((d.order c).rmBooked id)).file id).booked c' at hc'
      rw [Desk.booked_putOrder] at hc'
      split at hc'
      · simp [MTCommitteeOrderList.rmBooked] at hc'
      · next h => exact ⟨h, hc'⟩
    · intro c' hc'
      exact Desk.hash_rmOps_ne hc'

theorem file_switch_ne (h : i ≠ id) :
    (d.mapLive fun l => (l.cleanUnfinishedReport id).addWaitingRaw id).file i = d.file i := by
  rw [Desk.file_mapLive_ne]
  simp [shelf, MTLiveReportList.cleanUnfinishedReport, MTLiveReportList.addWaitingRaw, h]

theorem shelf_switch :
    ((d.mapLive fun l => (l.cleanUnfinishedReport id).addWaitingRaw id).file id).shelf =
      ⟨False, False, True, (d.file id).shelf.finished⟩ := by
  simp [shelf, MTLiveReportList.cleanUnfinishedReport, MTLiveReportList.addWaitingRaw, Desk.file,
    Desk.mapLive]

theorem moves_switch (hv : v.stage = .verifying) (hf : d.Fresh) (hx : d.info id = some x)
    (hst : x.reportStatus = .waitingBook) :
    Moves v id d ((d.mapLive fun l => (l.cleanUnfinishedReport id).addWaitingRaw id).putInfo id
      (x.setStatus .submittingRaw)) := by
  refine .of_turn (hf.lt hx) rfl (fun i hi => ?_) ?_
  · rw [Desk.file_putInfo_ne hi, file_switch_ne hi]
  · rw [Desk.file_putInfo_self]
    exact .switched hv x hx hst rfl shelf_switch rfl rfl

theorem moves_stranded (hv : v.stage = .verifying) (hf : d.Fresh) (hx : d.info id = some x)
    (hsum : x.canSummaryFault)
    (hlate : threeHours ≤ v.now - x.firstBookTime) (hst : x.reportStatus ≠ .waitingBook) :
    Moves v id d (d.mapLive fun l => (l.cleanUnfinishedReport id).addWaitingRaw id) :=
  .of_turn (hf.lt hx) rfl (fun _ => file_switch_ne)
    (.stranded hv x hx hsum hlate hst hx shelf_switch rfl rfl)

theorem moves_bereft (hv : v.stage = .verifying) (hf : d.Fresh) (hx : d.info id = some x)
    (hsum : x.canSummaryFault)
    (hlate : threeHours ≤ v.now - x.firstBookTime) (hst : x.reportStatus ≠ .waitingBook)
    (hc : x.verifyingCommittee = some c) :
    Moves v id d ((d.mapLive fun l => (l.cleanUnfinishedReport id).addWaitingRaw id).dropLast id x
      c) := by
  refine .of_turn (hf.lt hx) rfl (fun i hi => ?_) ?_
  · unfold Desk.dropLast
    rw [Desk.file_putInfo_ne hi, Desk.file_rmOps_ne hi, Desk.file_putOrder_same, file_switch_ne hi]
    show i ∈ (d.order c).bookedReport.rmItem id ↔ i ∈ (d.order c).bookedReport
    simp [hi]
  · refine .bereft hv x hx hsum hlate hst c hc (d.reportInfo.get_insert_self _ _) shelf_switch ?_ ?_
    · intro c' hc'
      change ((d.putOrder c ((d.order c).cleanUnfinishedOrder id)).file id).booked c' at hc'
      rw [Desk.booked_putOrder] at hc'
      split at hc'
      · simp [MTCommitteeOrderList.cleanUnfinishedOrder] at hc'
      · next h => exact ⟨h, hc'⟩
    · intro c' hc'
      exact Desk.hash_rmOps_ne hc'

end

end DeepBrainChain.MaintainCommittee
