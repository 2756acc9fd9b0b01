import DeepBrainChain.MaintainCommittee.Files

/-!
# Calls and rounds

Every extrinsic and every round of the hooks at the end of a block moves the files as `Moves` says,
whether it ends well or not. The clock stands still, and no machine loses its record.
-/

namespace DeepBrainChain.MaintainCommittee

open Lib GenericFunc Support Lib.Call

section

variable {A : Type} [LinearOrder A] {env : Env} {P : Nat → RawInfo → Prop} {s s' : State A}
  {v : Scene A}
  {d : Desk A} {id : Nat} {x : MTReportInfoDetail A} {c : A}

/-- What a step from `s` depends on. -/
def State.scene (s : State A) (stage : Stage) (env : Env) (P : Nat → RawInfo → Prop) :
    Scene A where
  stage := stage
  env := env
  now := s.now
  known m := (s.machine m).isSome = true
  hashes _ _ _ := False
  allowed := P

/-- The clock stands still, and no machine loses its record. -/
structure Onward (s s' : State A) : Prop where
  now : s'.now = s.now
  known : ∀ m, (s.machine m).isSome = true → (s'.machine m).isSome = true

theorem Onward.refl (s : State A) : Onward s s := ⟨rfl, fun _ h => h⟩

theorem Onward.trans {s1 : State A} (h1 : Onward s s1) (h2 : Onward s1 s') : Onward s s' :=
  ⟨h2.now.trans h1.now, fun m h => h2.known m (h1.known m h)⟩

/-- The desk is `d`, and the rest is as `Onward` says. -/
def Rests (s : State A) (d : Desk A) (s' : State A) : Prop := s'.desk = d ∧ Onward s s'

theorem keeps_changeUsedStake (who : A) (amount : Nat) (isAdd : Bool) :
    Keeps (Rests s d) (changeUsedStake who amount isAdd) := by
  rintro s1 ⟨hd, ho⟩
  unfold changeUsedStake committee Committee.changeUsedStake
  simp only [post_step, post_zoom]
  have hrest : ∀ t : Committee.State A, t.now = s1.now → Rests s d (s1.setCommitteeState t) :=
    fun t ht => ⟨hd, ht.trans ho.now, ho.known⟩
  exact ⟨fun _ _ => hrest _ rfl, fun _ => hrest _ rfl⟩

theorem isSome_insert {K V : Type} [DecidableEq K] {m : StorageMap K V} {k k' : K} (v : V)
    (h : (m.get k').isSome = true) : ((m.insert k v).get k').isSome = true := by
  rw [StorageMap.get_insert]
  split
  · rfl
  · exact h

theorem post_mtMachineOffline (reporter : A) (l : List A) (m : MachineId) (fault : OPSlashReason)
    (s : State A) :
    Post (profile (OnlineProfile.mtMachineOffline reporter l m fault)) s
      (fun _ s' => Rests s s.desk s') (fun _ s' => s' = s ∧ ¬ (s.machine m).isSome = true) := by
  unfold profile OnlineProfile.mtMachineOffline OnlineProfile.machineOffline
  simp only [post_step, post_zoom]
  refine ⟨fun i hi => ⟨fun j hj => ⟨rfl, ?_, fun m' hm' => ?_⟩, fun h => ?_⟩, fun h => ⟨rfl, ?_⟩⟩
  · split <;> rfl
  · split <;> exact isSome_insert _ hm'
  · rw [hi] at h
    cases h
  · rw [show s.machine m = none from h]
    exact Bool.false_ne_true

/-- What a round about `id` leaves behind. -/
def Rounded (v : Scene A) (id : Nat) (s s' : State A) : Prop :=
  Moves v id s.desk s'.desk ∧ Onward s s'

theorem Rounded.refl (v : Scene A) (id : Nat) (s : State A) : Rounded v id s s :=
  ⟨.refl v id _, .refl s⟩

/-! ## Machines that cannot be reached -/

section

variable (hv : v.stage = .inaccessible) (hf : s.desk.Fresh)
  (hmax : s.desk.nextReportId ≠ u64Max) (hx : s.desk.info id = some x)

include hv hf hmax hx

theorem reportAgain_rounded (hst : x.reportStatus = .submittingRaw) (r : MTReportResultInfo A)
    (reports : ReporterReportList) :
    Post (reportAgain id x r reports) (s.mapDesk (·.closeInaccessible id x))
      (fun _ => Rounded v id s) (fun _ => Rounded v id s) := by
  have hclosed : Moves v id s.desk (s.desk.closeInaccessible id x) :=
    moves_closeInaccessible hv hf hx hst
  have hnext : (s.desk.closeInaccessible id x).nextReportId = s.desk.nextReportId :=
    (sheds_closeInaccessible s.desk id x).next
  have hnew : ∀ (t : A) (time : Nat) (fault : MachineFaultType) (stake : Nat),
      Moves v id s.desk
        ((s.desk.closeInaccessible id x).newReport (.new t time fault stake)) := by
    intro t time fault stake
    have hturn := turn_newReport (v := v) (hclosed.fresh_desk hf) t time fault stake
    rw [hnext, hclosed.fresh _ hnext.le] at hturn
    refine .of_files (hf.lt hx) ((nextId_of_ne (hnext ▸ hmax)).trans (by rw [hnext])) ?_ ?_ hturn
    · intro i hi hne
      rw [Desk.file_newReport_ne (hnext ▸ hne), others_closeInaccessible hi]
    · rw [Desk.file_newReport_ne (hnext ▸ (hf.lt hx).ne)]
      exact turn_closeInaccessible hv hx hst
  unfold reportAgain doReportMachineFault
  simp only [post_step, post_mapError, post_when]
  exact ⟨fun p _ => ⟨fun _ => ⟨hnew .., rfl, fun _ h => h⟩, fun _ => ⟨hnew .., rfl, fun _ h => h⟩⟩,
    fun _ => ⟨hclosed, rfl, fun _ h => h⟩⟩

theorem decideInaccessible_rounded (hst : x.reportStatus = .submittingRaw) (stash : A) :
    Post (decideInaccessible id x stash) s (fun _ => Rounded v id s)
      (fun _ => Rounded v id s) := by
  unfold decideInaccessible
  simp only [post_step]
  have hfinish : ∀ s1 : State A, Rests (s.mapDesk (·.closeInaccessible id x))
      (s.desk.closeInaccessible id x) s1 → ∀ r reports,
      Post (finishInaccessible id x r reports) s1 (fun _ => Rounded v id s)
        (fun _ => Rounded v id s) := by
    intro s1 h1 r reports
    refine ⟨?_, h1.2.now, h1.2.known⟩
    show Moves _ id s.desk (s1.desk.finishInaccessible id x)
    rw [h1.1]
    exact moves_finishInaccessible hv hf hx hst
  have hclosed : Rests (s.mapDesk (·.closeInaccessible id x)) (s.desk.closeInaccessible id x)
      (s.mapDesk (·.closeInaccessible id x)) := ⟨rfl, .refl _⟩
  split
  · exact reportAgain_rounded hv hf hmax hx hst _ _
  · split
    · simp only [post_bind]
      refine (post_mtMachineOffline ..).mono (fun _ s1 h1 => hfinish s1 h1 _ _) ?_
      rintro _ _ ⟨rfl, -⟩
      exact ⟨moves_closeInaccessible hv hf hx hst, rfl, fun _ h => h⟩
    · exact hfinish _ hclosed _ _

end

theorem summaryInaccessibleReport_rounded (hv : v.stage = .inaccessible) (hf : s.desk.Fresh)
    (hmax : s.desk.nextReportId ≠ u64Max) (id : Nat) :
    Post (summaryInaccessibleReport id) s (fun _ => Rounded v id s)
      (fun _ => Rounded v id s) := by
  unfold summaryInaccessibleReport
  simp only [post_step]
  refine ⟨fun x hx => ⟨fun hsum => ?_, fun _ => .refl ..⟩, fun _ => .refl ..⟩
  split
  · next hst =>
    simp only [post_when, post_modify]
    exact ⟨fun _ => ⟨moves_startRaw hv hf hx hsum.2.1 hst, rfl, fun _ h => h⟩, fun _ => .refl ..⟩
  · next hst =>
    have hraw : x.reportStatus = .submittingRaw := by
      obtain ⟨-, -, hr, hc, -⟩ := hsum
      cases h : x.reportStatus with
      | submittingRaw => rfl
      | reported => exact absurd h hr
      | committeeConfirmed => exact absurd h hc
      | waitingBook => exact absurd (.inl h) hst
      | verifying => exact absurd (.inr h) hst
    simp only [post_bind, post_okOr]
    exact ⟨fun m _ => decideInaccessible_rounded hv hf hmax hx hraw _, fun _ => .refl ..⟩

/-! ## Other faults -/

theorem file_rmVerifying_ne {i : Nat} (h : i ≠ id) :
    (d.mapLive (·.rmVerifying id)).file i = d.file i := by
  rw [Desk.file_mapLive_ne]
  simp [shelf, MTLiveReportList.rmVerifying, h]

/-- The committees in `D` are released from `id`, and nothing else happened since `s`. -/
structure Released (s : State A) (id : Nat) (D : A → Prop) (s' : State A) : Prop where
  sheds : Sheds (fun _ => False) id s.desk s'.desk
  onward : Onward s s'
  free : ∀ c, D c → ¬ (s'.desk.file id).booked c

theorem Released.release {D : A → Prop} {s1 s2 : State A} (h : Released s id D s1)
    (h2 : Rests s1 s1.desk s2) (c : A) :
    Released s id (fun c' => c' = c ∨ D c') (s2.mapDesk (·.release id c)) := by
  have honward := h.onward.trans h2.2
  have hdesk : (s2.mapDesk (·.release id c)).desk = s1.desk.release id c :=
    congrArg (Desk.release · id c) h2.1
  refine ⟨?_, ⟨honward.now, honward.known⟩, fun c' hc' => ?_⟩
  · rw [hdesk]
    exact h.sheds.trans (sheds_release _ c)
  · rw [hdesk]
    unfold Desk.release
    rw [Desk.booked_putOrder]
    split
    · simp [MTCommitteeOrderList.cleanUnfinishedOrder]
    · next hne => exact h.free c' (hc'.resolve_left hne)

theorem releaseAll {D : A → Prop} {s1 : State A} (l : List A) (h : Released s id D s1) :
    Post (forEach l fun c => do
      let s ← get
      ignore (changeUsedStake c (s.desk.ops c id).stakedBalance false)
      modify fun s => s.mapDesk (·.release id c)) s1
        (fun _ => Released s id fun c => c ∈ l ∨ D c) (fun (_ : Unit) _ => False) := by
  induction l generalizing D s1 with
  | nil => exact ⟨h.sheds, h.onward, fun c hc => h.free c (hc.resolve_left List.not_mem_nil)⟩
  | cons c l ih =>
    rw [forEach_cons]
    simp only [post_step, post_ignore]
    have hrest : ∀ s2 : State A, Rests s1 s1.desk s2 → Post (forEach l fun c => do
        let s ← get
        ignore (changeUsedStake c (s.desk.ops c id).stakedBalance false)
        modify fun s => s.mapDesk (·.release id c)) (s2.mapDesk (·.release id c))
          (fun _ => Released s id fun c' => c' ∈ c :: l ∨ D c') (fun (_ : Unit) _ => False) := by
      intro s2 h2
      refine (ih (h.release h2 c)).mono (fun _ s3 h3 => ?_) fun _ _ h => h
      refine ⟨h3.sheds, h3.onward, fun c' hc' => h3.free c' ?_⟩
      rcases hc' with hc' | hc'
      · exact (List.mem_cons.1 hc').elim (fun h => .inr (.inl h)) .inl
      · exact .inr (.inr hc')
    exact (keeps_changeUsedStake c _ false s1 ⟨rfl, .refl s1⟩).mono (fun _ s2 h2 => hrest s2 h2)
      fun _ s2 h2 => hrest s2 h2

theorem reporterLate_rounded (hf : s.desk.Fresh) (hx : s.desk.info id = some x)
    (hin : x.machineFaultType.isInaccessible = false) (hst : x.reportStatus = .verifying)
    (r : MTReportResultInfo A) :
    Post (reporterLate id x r) s (fun _ => Rounded (s.scene .verifying env P) id s)
      (fun _ => Rounded (s.scene .verifying env P) id s) := by
  unfold reporterLate
  simp only [post_bind, post_modify]
  have hstart : Released s id (fun _ => False) (s.mapDues fun y => y.putReports x.reporter
      ((y.reportsOf x.reporter).cleanNotSubmitEncryptedReport id)) :=
    ⟨.refl _ id _, ⟨rfl, fun _ h => h⟩, fun _ h => h.elim⟩
  refine (releaseAll _ hstart).mono (fun _ s1 h1 => ?_) fun _ _ h => h.elim
  have hsheds := h1.sheds
  refine ⟨.of_turn (hf.lt hx) hsheds.next (fun i hi => ?_) ?_, h1.onward.now, h1.onward.known⟩
  · exact (file_rmVerifying_ne hi).trans (hsheds.others i hi)
  · refine .late rfl x hx hin hst (hsheds.info.trans hx) ?_ fun c hc => ?_
    · have hshelf : shelf s1.desk.liveReport id = shelf s.desk.liveReport id := hsheds.shelf
      obtain ⟨hb, -, hw, hfin⟩ := Shelf.mk.inj hshelf
      refine Shelf.ext hb ?_ hw hfin
      simp [Desk.file, shelf, MTLiveReportList.rmVerifying, State.mapDesk, State.mapDues,
        Desk.mapLive]
    · exact ⟨hsheds.booked c hc, fun hmem => h1.free c (.inl hmem) hc⟩

theorem summaryBeforeSubmitRaw_rounded (hf : s.desk.Fresh) (hx : s.desk.info id = some x)
    (hin : x.machineFaultType.isInaccessible = false) :
    Post (summaryBeforeSubmitRaw id x) s (fun _ => Rounded (s.scene .verifying env P) id s)
      (fun _ => Rounded (s.scene .verifying env P) id s) := by
  unfold summaryBeforeSubmitRaw
  simp only [post_bind, post_get]
  split
  · exact .refl ..
  · next hst =>
    have hver : x.reportStatus = .verifying := not_not.1 hst
    simp only [post_bind, post_okOr]
    refine ⟨fun c hc => ?_, fun _ => .refl ..⟩
    split
    · exact reporterLate_rounded hf hx hin hver _
    · simp only [post_when, post_modify]
      exact ⟨fun _ => ⟨moves_dropVerifying rfl hf hx hin hver hc, rfl, fun _ h => h⟩,
        fun _ => .refl ..⟩

theorem summaryAfterSubmitRaw_rounded (hf : s.desk.Fresh) (hx : s.desk.info id = some x)
    (hsum : x.canSummaryFault) (hlate : threeHours ≤ s.now - x.firstBookTime) :
    Post (summaryAfterSubmitRaw id) s (fun _ => Rounded (s.scene .verifying env P) id s)
      (fun _ => Rounded (s.scene .verifying env P) id s) := by
  unfold summaryAfterSubmitRaw
  simp only [post_step]
  refine ⟨fun y hy => ?_, fun hnone => ?_⟩
  · have hyx : y = x := Option.some.inj (hy.symm.trans hx)
    subst hyx
    split
    · next hst => exact ⟨moves_switch rfl hf hx hst, rfl, fun _ h => h⟩
    · next hst =>
      have hstranded : Rounded (s.scene .verifying env P) id s (s.mapDesk fun d =>
          d.mapLive fun l => (l.cleanUnfinishedReport id).addWaitingRaw id) :=
        ⟨moves_stranded rfl hf hx hsum hlate hst, rfl, fun _ h => h⟩
      simp only [post_step, post_when, post_ignore]
      refine ⟨fun c hc => ⟨fun _ => ?_, fun _ => hstranded⟩, fun _ => hstranded⟩
      have hlast : ∀ s2 : State A, Rests s (s.desk.mapLive fun l =>
          (l.cleanUnfinishedReport id).addWaitingRaw id) s2 →
          Rounded (s.scene .verifying env P) id s (s2.mapDesk (·.dropLast id y c)) := by
        intro s2 h2
        refine ⟨?_, h2.2.now, h2.2.known⟩
        show Moves _ id s.desk (s2.desk.dropLast id y c)
        rw [h2.1]
        exact moves_bereft rfl hf hx hsum hlate hst hc
      have hrest : Rests s (s.desk.mapLive fun l =>
          (l.cleanUnfinishedReport id).addWaitingRaw id) (s.mapDesk fun d =>
            d.mapLive fun l => (l.cleanUnfinishedReport id).addWaitingRaw id) :=
        ⟨rfl, rfl, fun _ h => h⟩
      exact (keeps_changeUsedStake c _ false _ hrest).mono (fun _ s2 h2 => hlast s2 h2)
        fun _ s2 h2 => hlast s2 h2
  · have hcontra : s.desk.info id = none := hnone
    rw [hx] at hcontra
    cases hcontra

theorem summaryVerifyingReport_rounded (hf : s.desk.Fresh) (id : Nat) :
    Post (summaryVerifyingReport id) s (fun _ => Rounded (s.scene .verifying env P) id s)
      (fun _ => Rounded (s.scene .verifying env P) id s) := by
  unfold summaryVerifyingReport
  simp only [post_step]
  refine ⟨fun x hx => ⟨fun hsum => ?_, fun _ => .refl ..⟩, fun _ => .refl ..⟩
  split
  · exact summaryBeforeSubmitRaw_rounded hf hx hsum.2
  · next h => exact summaryAfterSubmitRaw_rounded hf hx hsum (Nat.le_of_not_lt h)

theorem file_getVerifyResult_ne (r : ReportConfirmStatus A) {i : Nat} (h : i ≠ id) :
    (d.mapLive (·.getVerifyResult id r)).file i = d.file i := by
  rw [Desk.file_mapLive_ne]
  cases r <;> simp [shelf, MTLiveReportList.getVerifyResult, h]

def counted (x : MTReportInfoDetail A) : MTReportInfoDetail A :=
  if x.reportStatus = .reported then x else x.setStatus .committeeConfirmed

theorem shelf_getVerifyResult {r : ReportConfirmStatus A} (hr : r ≠ .noConsensus) :
    ((d.mapLive (·.getVerifyResult id r)).file id).shelf =
      { (d.file id).shelf with waitingRaw := False, finished := True } := by
  cases r with
  | noConsensus => exact absurd rfl hr
  | confirmed _ _ _ | refuse _ _ =>
    simp [shelf, MTLiveReportList.getVerifyResult, Desk.file, Desk.mapLive]

theorem shelf_noConsensus :
    ((d.mapLive (·.getVerifyResult id (.noConsensus : ReportConfirmStatus A))).file id).shelf =
      { (d.file id).shelf with waitingRaw := False } := by
  simp [shelf, MTLiveReportList.getVerifyResult, Desk.file, Desk.mapLive]

section

variable {d1 : Desk A} {r : ReportConfirmStatus A}

theorem file_finish (l : List A) (i : Nat) : (l.foldl (Desk.finishOne id) d).file i = d.file i := by
  induction l generalizing d with
  | nil => rfl
  | cons c l ih =>
    rw [List.foldl_cons, ih]
    exact Desk.file_putOrder_same Iff.rfl

theorem nextReportId_finish (l : List A) :
    (l.foldl (Desk.finishOne id) d).nextReportId = d.nextReportId := by
  induction l generalizing d with
  | nil => rfl
  | cons c l ih =>
    rw [List.foldl_cons, ih]
    rfl

theorem moves_decided (hv : v.stage = .counting) (hf : d.Fresh) (hx : d.info id = some x)
    (hsum : x.canSummary v.now)
    (hr : r ≠ .noConsensus) (l : List A) :
    Moves v id d ((l.foldl (Desk.finishOne id) (d.mapLive (·.getVerifyResult id r))).putInfo id
      (counted x)) := by
  refine .of_turn (hf.lt hx) (nextReportId_finish l) (fun i hi => ?_) ?_
  · rw [Desk.file_putInfo_ne hi, file_finish, file_getVerifyResult_ne r hi]
  · rw [Desk.file_putInfo_self, file_finish]
    exact .decided hv x hx hsum rfl (shelf_getVerifyResult hr) rfl rfl

theorem moves_stuck (hv : v.stage = .counting) (hf : d.Fresh) (hx : d.info id = some x)
    (hsum : x.canSummary v.now)
    (hr : r ≠ .noConsensus) (hc : x.confirmedCommittee.isEmpty = false)
    (hle : x.againstCommittee.length ≤ x.supportCommittee.length) (hk : ¬ v.known x.machineId)
    (l : List A) :
    Moves v id d (l.foldl (Desk.finishOne id) (d.mapLive (·.getVerifyResult id r))) := by
  refine .of_turn (hf.lt hx) (nextReportId_finish l) (fun i hi => ?_) ?_
  · rw [file_finish, file_getVerifyResult_ne r hi]
  · rw [file_finish]
    exact .stuck hv x hx hsum hc hle hk hx (shelf_getVerifyResult hr) rfl rfl

theorem sheds_fail (d : Desk A) (id : Nat) (l : List A) :
    Sheds (fun _ => False) id
      (d.mapLive (·.getVerifyResult id (.noConsensus : ReportConfirmStatus A)))
      (l.foldl (Desk.failOne id)
        (d.mapLive (·.getVerifyResult id (.noConsensus : ReportConfirmStatus A)))) :=
  .foldl fun d c _ => sheds_failOne d c

theorem turn_undecided (hv : v.stage = .counting) (hx : d.info id = some x)
    (hsum : x.canSummary v.now)
    (he : x.confirmedCommittee.isEmpty = true)
    (h : Sheds (fun _ => False) id
      (d.mapLive (·.getVerifyResult id (.noConsensus : ReportConfirmStatus A))) d1) :
    Turn v id (d.file id) ((d1.putInfo id (counted x)).file id) := by
  rw [Desk.file_putInfo_self]
  exact .undecided hv x hx hsum he rfl (h.shelf.trans shelf_noConsensus) h.booked

theorem moves_undecided (hv : v.stage = .counting) (hf : d.Fresh) (hx : d.info id = some x)
    (hsum : x.canSummary v.now)
    (he : x.confirmedCommittee.isEmpty = true)
    (h : Sheds (fun _ => False) id
      (d.mapLive (·.getVerifyResult id (.noConsensus : ReportConfirmStatus A))) d1) :
    Moves v id d (d1.putInfo id (counted x)) := by
  refine .of_turn (hf.lt hx) h.next (fun i hi => ?_) (turn_undecided hv hx hsum he h)
  rw [Desk.file_putInfo_ne hi, h.others i hi, file_getVerifyResult_ne _ hi]

theorem moves_undecided_again (hv : v.stage = .counting) (hf : d.Fresh)
    (hmax : d.nextReportId ≠ u64Max)
    (hx : d.info id = some x) (hsum : x.canSummary v.now)
    (he : x.confirmedCommittee.isEmpty = true)
    (h : Sheds (fun _ => False) id
      (d.mapLive (·.getVerifyResult id (.noConsensus : ReportConfirmStatus A))) d1)
    (t : A) (time : Nat) (fault : MachineFaultType) (stake : Nat) :
    Moves v id d ((d1.newReport (.new t time fault stake)).putInfo id (counted x)) := by
  have hlt := hf.lt hx
  have hnext : d1.nextReportId = d.nextReportId := h.next
  have hsame : ∀ i, i ≠ id → d1.file i = d.file i := fun i hi =>
    (h.others i hi).trans (file_getVerifyResult_ne _ hi)
  have hfresh : d1.Fresh := by
    intro i hi
    rw [hsame i (by omega)]
    exact hf i (by omega)
  refine .of_files hlt ((nextId_of_ne (hnext ▸ hmax)).trans (by rw [hnext])) (fun i hi hne => ?_)
    ?_ ?_
  · rw [Desk.file_putInfo_ne hi, Desk.file_newReport_ne (hnext ▸ hne), hsame i hi]
  · have hfile : ((d1.newReport (.new t time fault stake)).putInfo id (counted x)).file id =
        (d1.putInfo id (counted x)).file id := by
      rw [Desk.file_putInfo_self, Desk.file_newReport_ne (hnext ▸ hlt.ne), Desk.file_putInfo_self]
    rw [hfile]
    exact turn_undecided hv hx hsum he h
  · have hturn := turn_newReport (v := v) hfresh t time fault stake
    rw [hnext, hsame _ hlt.ne'] at hturn
    rw [Desk.file_putInfo_ne hlt.ne']
    exact hturn

end

theorem summarySubmittingRaw_rounded (hf : s.desk.Fresh) (hmax : s.desk.nextReportId ≠ u64Max)
    (id : Nat) :
    Post (summarySubmittingRaw id) s (fun _ => Rounded (s.scene .counting env P) id s)
      (fun _ => Rounded (s.scene .counting env P) id s) := by
  unfold summarySubmittingRaw
  simp only [post_step]
  refine ⟨fun x hx => ?_, fun _ => .refl ..⟩
  split
  · exact .refl ..
  next hnot =>
  have hsum : x.canSummary s.now := not_not.1 hnot
  simp only [post_bind, post_set]
  unfold applySummary MTReportInfoDetail.summary
  by_cases he : x.confirmedCommittee.isEmpty = true
  · simp only [post_step, if_pos he, post_attempt]
    unfold doReportMachineFault
    simp only [post_step]
    have hsheds := sheds_fail s.desk id x.bookedCommittee.toList
    exact ⟨fun p _ => ⟨moves_undecided_again rfl hf hmax hx hsum he hsheds .., rfl, fun _ h => h⟩,
      fun _ => ⟨moves_undecided rfl hf hx hsum he hsheds, rfl, fun _ h => h⟩⟩
  · by_cases hle : x.againstCommittee.length ≤ x.supportCommittee.length
    · simp only [if_neg he, if_pos hle, post_bind, post_modify]
      refine (post_mtMachineOffline ..).mono (fun _ s1 h1 => ?_) ?_
      · refine ⟨?_, h1.2.now, h1.2.known⟩
        show Moves _ id s.desk (s1.desk.putInfo id (counted x))
        rw [h1.1]
        exact moves_decided rfl hf hx hsum (by simp) _
      · rintro _ _ ⟨rfl, hk⟩
        exact ⟨moves_stuck rfl hf hx hsum (by simp) (Bool.eq_false_iff.2 he) hle hk _, rfl,
          fun _ h => h⟩
    · simp only [if_neg he, if_neg hle, post_modify]
      exact ⟨moves_decided rfl hf hx hsum (by simp) _, rfl, fun _ h => h⟩

end

end DeepBrainChain.MaintainCommittee
