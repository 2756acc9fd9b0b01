import DeepBrainChain.MaintainCommittee.Votes

/-!
# The lists of reports

The list a report is in follows its status, as long as no report is still being verified when its
three hours are over and no fault is confirmed of a machine without a record. A committee whose hash
was accepted can then reveal its finding for as long as the report waits for findings.
-/

namespace DeepBrainChain.MaintainCommittee

open Lib GenericFunc Support Lib.Call SortedVec

section

variable {A : Type} [LinearOrder A] {id : Nat} {x : MTReportInfoDetail A} {c : A} {v : Scene A}
  {f g : File A}

/-! ## The place of a report -/

/-- The lists a report is in, by its status. -/
structure Placed (f : File A) (x : MTReportInfoDetail A) : Prop where
  bookable : f.shelf.bookable →
    (x.reportStatus = .reported ∨ x.reportStatus = .waitingBook) ∧
      (x.machineFaultType.isInaccessible = true → x.bookedCommittee.length < 3)
  verifying : f.shelf.verifying → x.reportStatus = .verifying
  waitingRaw : f.shelf.waitingRaw → x.reportStatus = .submittingRaw
  finished : f.shelf.finished → x.reportStatus = .committeeConfirmed
  shelved : x.reportStatus = .reported ∨ x.reportStatus = .waitingBook → f.shelf.bookable
  working : x.reportStatus = .verifying → f.shelf.verifying ∨
    (x.machineFaultType.isInaccessible = false ∧ ∀ c, ¬ f.booked c)

/-- The live lists show a report exactly where its status puts it. -/
structure Filed (f : File A) : Prop where
  blank : f.info = none → f.shelf = ⟨False, False, False, False⟩
  placed : ∀ x, f.info = some x → Placed f x

theorem Filed.of_some (hx : f.info = some x) (h : Placed f x) : Filed f where
  blank hnone := by
    rw [hx] at hnone
    cases hnone
  placed y hy := by
    cases hx.symm.trans hy
    exact h

theorem Filed.of_none (hx : f.info = none) (h : f.shelf = ⟨False, False, False, False⟩) :
    Filed f where
  blank _ := h
  placed y hy := by
    rw [hx] at hy
    cases hy

namespace Placed

theorem not_bookable (h : Placed f x) (hr : x.reportStatus ≠ .reported)
    (hw : x.reportStatus ≠ .waitingBook) : ¬ f.shelf.bookable := fun hb =>
  (h.bookable hb).1.elim hr hw

theorem not_verifying (h : Placed f x) (hst : x.reportStatus ≠ .verifying) :
    ¬ f.shelf.verifying := fun hb => hst (h.verifying hb)

theorem not_waitingRaw (h : Placed f x) (hst : x.reportStatus ≠ .submittingRaw) :
    ¬ f.shelf.waitingRaw := fun hb => hst (h.waitingRaw hb)

theorem not_finished (h : Placed f x) (hst : x.reportStatus ≠ .committeeConfirmed) :
    ¬ f.shelf.finished := fun hb => hst (h.finished hb)

theorem to_bookable (hst : x.reportStatus = .reported ∨ x.reportStatus = .waitingBook)
    (hlen : x.machineFaultType.isInaccessible = true → x.bookedCommittee.length < 3)
    (hb : g.shelf.bookable) (hv : ¬ g.shelf.verifying) (hw : ¬ g.shelf.waitingRaw)
    (hf : ¬ g.shelf.finished) : Placed g x where
  bookable _ := ⟨hst, hlen⟩
  verifying h := absurd h hv
  waitingRaw h := absurd h hw
  finished h := absurd h hf
  shelved _ := hb
  working h := by
    rcases hst with hst | hst <;> rw [hst] at h <;> cases h

theorem to_verifying (hst : x.reportStatus = .verifying) (hb : ¬ g.shelf.bookable)
    (hw : ¬ g.shelf.waitingRaw) (hf : ¬ g.shelf.finished)
    (hwork : g.shelf.verifying ∨
      (x.machineFaultType.isInaccessible = false ∧ ∀ c, ¬ g.booked c)) : Placed g x where
  bookable h := absurd h hb
  verifying _ := hst
  waitingRaw h := absurd h hw
  finished h := absurd h hf
  shelved h := by
    rcases h with h | h <;> rw [hst] at h <;> cases h
  working _ := hwork

theorem to_raw (hst : x.reportStatus = .submittingRaw) (hb : ¬ g.shelf.bookable)
    (hv : ¬ g.shelf.verifying) (hf : ¬ g.shelf.finished) : Placed g x where
  bookable h := absurd h hb
  verifying h := absurd h hv
  waitingRaw _ := hst
  finished h := absurd h hf
  shelved h := by
    rcases h with h | h <;> rw [hst] at h <;> cases h
  working h := by
    rw [hst] at h
    cases h

theorem to_confirmed (hst : x.reportStatus = .committeeConfirmed) (hb : ¬ g.shelf.bookable)
    (hv : ¬ g.shelf.verifying) (hw : ¬ g.shelf.waitingRaw) : Placed g x where
  bookable h := absurd h hb
  verifying h := absurd h hv
  waitingRaw h := absurd h hw
  finished _ := hst
  shelved h := by
    rcases h with h | h <;> rw [hst] at h <;> cases h
  working h := by
    rw [hst] at h
    cases h

end Placed

/-- What a step needs of the report it is about: each loop takes its reports from the right list, no
report is being verified when its three hours are over, and the machine of a fault that is confirmed
has a record. -/
structure Apt (v : Scene A) (x : MTReportInfoDetail A) (f : File A) : Prop where
  verifying : v.stage = .verifying → f.shelf.verifying ∨ f.shelf.bookable
  counting : v.stage = .counting → f.shelf.waitingRaw
  timely : v.stage = .verifying → x.canSummaryFault → threeHours ≤ v.now - x.firstBookTime →
    x.reportStatus = .waitingBook
  known : v.stage = .counting → x.canSummary v.now → x.confirmedCommittee.isEmpty = false →
    x.againstCommittee.length ≤ x.supportCommittee.length → v.known x.machineId

theorem length_bookReport (hcan : x.canBook c = .ok ()) (t : Nat) :
    (x.bookReport c t).bookedCommittee.length ≤ 3 := by
  obtain ⟨-, -, hlen, hnot⟩ := canBook_ok.1 hcan
  have hadd : (x.bookReport c t).bookedCommittee.length = x.bookedCommittee.length + 1 :=
    length_addItem hnot
  omega

theorem Placed.booked (h : Placed f x) (hcan : x.canBook c = .ok ()) {t : Nat}
    (hs : g.shelf =
      if (x.bookReport c t).bookedCommittee.length = 3 ∨
          x.machineFaultType.isInaccessible = false then
        { f.shelf with bookable := False, verifying := True }
      else f.shelf) : Placed g (x.bookReport c t) := by
  obtain ⟨-, hst, -, -⟩ := canBook_ok.1 hcan
  have hle := length_bookReport hcan t
  have hw : ¬ f.shelf.waitingRaw := h.not_waitingRaw (by rcases hst with h | h <;> simp [h])
  have hf : ¬ f.shelf.finished := h.not_finished (by rcases hst with h | h <;> simp [h])
  have hv : ¬ f.shelf.verifying := h.not_verifying (by rcases hst with h | h <;> simp [h])
  by_cases hfull : (x.bookReport c t).bookedCommittee.length = 3 ∨
      x.machineFaultType.isInaccessible = false
  · rw [if_pos hfull] at hs
    have hstatus : (x.bookReport c t).reportStatus = .verifying := by
      unfold MTReportInfoDetail.bookReport at hfull ⊢
      simp only at hfull ⊢
      split
      · next hin =>
        rw [if_pos (hfull.resolve_right (by simp [hin]))]
      · rfl
    refine .to_verifying hstatus ?_ ?_ ?_ ?_
    all_goals rw [hs]
    · exact id
    · exact hw
    · exact hf
    · exact .inl trivial
  · rw [if_neg hfull] at hs
    obtain ⟨hne, hin⟩ := not_or.1 hfull
    have hin : x.machineFaultType.isInaccessible = true := by simpa using hin
    have hstatus : (x.bookReport c t).reportStatus = .waitingBook := by
      unfold MTReportInfoDetail.bookReport at hne ⊢
      simp only at hne ⊢
      rw [if_pos hin, if_neg hne]
    refine .to_bookable (.inr hstatus) (fun _ => by omega) ?_ ?_ ?_ ?_
    all_goals rw [hs]
    · exact h.shelved hst
    · exact hv
    · exact hw
    · exact hf

theorem status_addHash (x : MTReportInfoDetail A) (c : A) :
    (x.addHash c).reportStatus =
      if (x.addHash c).hashedCommittee.length = 3 then .submittingRaw
      else if x.machineFaultType.isInaccessible = false then .waitingBook else x.reportStatus := by
  unfold MTReportInfoDetail.addHash
  cases x.machineFaultType.isInaccessible <;> rfl

theorem Placed.hashed (h : Placed f x) (hm : Manned f) (hx : f.info = some x)
    (hcan : x.canSubmitHash = .ok ()) (hc : f.booked c)
    (hs : g.shelf =
      if (x.addHash c).hashedCommittee.length = 3 then
        { f.shelf with verifying := False, waitingRaw := True }
      else if x.machineFaultType.isInaccessible = false then
        { f.shelf with verifying := False, bookable := True }
      else f.shelf) : Placed g (x.addHash c) := by
  have hst := canSubmitHash_status hcan
  have hstatus := status_addHash x c
  have hw : ¬ f.shelf.waitingRaw := h.not_waitingRaw (by rcases hst with h | h <;> simp [h])
  have hf : ¬ f.shelf.finished := h.not_finished (by rcases hst with h | h <;> simp [h])
  by_cases hfull : (x.addHash c).hashedCommittee.length = 3
  · rw [if_pos hfull] at hs hstatus
    refine .to_raw hstatus ?_ ?_ ?_
    all_goals rw [hs]
    · -- all three committees submitted their hashes, so the report is fully booked
      intro hbook
      obtain ⟨hst', hlen⟩ := h.bookable hbook
      have hsub : ∀ c' ∈ (x.addHash c).hashedCommittee, c' ∈ x.bookedCommittee :=
        ((hm.joined x hx).addHash hcan (hm.held x hx c hc).1).hashed
      have hle := length_le_of_subset hsub
      cases hin : x.machineFaultType.isInaccessible with
      | true =>
        have := hlen hin
        omega
      | false =>
        unfold MTReportInfoDetail.canSubmitHash at hcan
        rw [if_neg (by simp [hin])] at hcan
        rw [require_ok.1 hcan] at hst'
        simp at hst'
    · exact id
    · exact hf
  · rw [if_neg hfull] at hs hstatus
    by_cases hin : x.machineFaultType.isInaccessible = false
    · rw [if_pos hin] at hs hstatus
      refine .to_bookable (.inr hstatus) (fun h => ?_) ?_ ?_ ?_ ?_
      · have hcontra : x.machineFaultType.isInaccessible = true := h
        rw [hin] at hcontra
        cases hcontra
      all_goals rw [hs]
      · exact trivial
      · exact id
      · exact hw
      · exact hf
    · rw [if_neg hin] at hs hstatus
      rcases hst with hst | hst
      · refine .to_bookable (.inr (hstatus.trans hst)) (h.bookable (h.shelved (.inr hst))).2
          ?_ ?_ ?_ ?_
        all_goals rw [hs]
        · exact h.shelved (.inr hst)
        · exact h.not_verifying (by simp [hst])
        · exact hw
        · exact hf
      · refine .to_verifying (hstatus.trans hst) ?_ ?_ ?_ ?_
        all_goals rw [hs]
        · exact h.not_bookable (by simp [hst]) (by simp [hst])
        · exact hw
        · exact hf
        · exact .inl ((h.working hst).resolve_right fun hno => hno.2 c hc)

theorem counted_of_ne (h : x.reportStatus ≠ .reported) :
    counted x = x.setStatus .committeeConfirmed := if_neg h

/-- **Every turn leaves the lists in step with the status.** -/
theorem Turn.shelved (ht : Turn v id f g) (hm : Manned f) (h : Filed f)
    (hapt : ∀ x, f.info = some x → Apt v x f) : Filed g := by
  cases ht with
  | stay heq => rwa [heq]
  | filed hf r t fault stake hi hs hb =>
    refine .of_some hi (.to_bookable (.inl rfl) (fun _ => Nat.zero_lt_succ 2) ?_ ?_ ?_ ?_)
    all_goals rw [hs]
    · exact trivial
    all_goals exact not_false
  | canceled hv x hx hst hi hs hb =>
    have hp := h.placed x hx
    refine .of_none hi (hs.trans (Shelf.ext rfl ?_ ?_ ?_))
    · exact eq_false (hp.not_verifying (by simp [hst]))
    · exact eq_false (hp.not_waitingRaw (by simp [hst]))
    · exact eq_false (hp.not_finished (by simp [hst]))
  | booked hv x hx c t hcan hi hs hb hh => exact .of_some hi ((h.placed x hx).booked hcan hs)
  | encrypted hv x hx c hi hs hb hh =>
    obtain ⟨h1, h2, h3, h4, h5, h6⟩ := h.placed x hx
    rw [← hs] at h1 h2 h3 h4 h5 h6
    rw [← hb] at h6
    exact .of_some hi ⟨h1, h2, h3, h4, h5, h6⟩
  | hashed hv x hx c hash hnew hc hcan hi hs hb hh =>
    exact .of_some hi ((h.placed x hx).hashed hm hx hcan hc hs)
  | revealed hv x hx c b m err hcan ho hi hs hb hh =>
    obtain ⟨h1, h2, h3, h4, h5, h6⟩ := h.placed x hx
    rw [← hs] at h1 h2 h3 h4 h5 h6
    rw [← hb] at h6
    exact .of_some hi ⟨h1, h2, h3, h4, h5, h6⟩
  | started hv x hx hin hst hi hs hb hh =>
    refine .of_some hi (.to_raw rfl ?_ ?_ ?_)
    all_goals rw [hs]
    · exact not_false
    · exact not_false
    · exact (h.placed x hx).not_finished (by rcases hst with h | h <;> simp [h])
  | closed hv x hx hst hi hs hb hh =>
    have hp := h.placed x hx
    refine .of_some hi (.to_raw hst ?_ ?_ ?_)
    all_goals rw [hs]
    · exact hp.not_bookable (by simp [hst]) (by simp [hst])
    · exact hp.not_verifying (by simp [hst])
    · exact hp.not_finished (by simp [hst])
  | concluded hv x hx hst hi hs hb =>
    refine .of_some hi (.to_confirmed rfl ?_ ?_ ?_)
    all_goals
      rw [hs]
      exact not_false
  | late hv x hx hin hst hi hs hb =>
    have hp := h.placed x hx
    refine .of_some hi (.to_verifying hst ?_ ?_ ?_ (.inr ⟨hin, fun c hc => ?_⟩))
    · rw [hs]
      exact hp.not_bookable (by simp [hst]) (by simp [hst])
    · rw [hs]
      exact hp.not_waitingRaw (by simp [hst])
    · rw [hs]
      exact hp.not_finished (by simp [hst])
    · -- all booked committees were released
      obtain ⟨hbooked, hnot⟩ := hb c hc
      exact hnot (hm.held x hx c hbooked).1
  | dropped hv x hx hin hst c hc hi hs hb hh =>
    have hp := h.placed x hx
    have hstatus : (x.cleanNotSubmitHashCommittee c).reportStatus = .reported ∨
        (x.cleanNotSubmitHashCommittee c).reportStatus = .waitingBook := by
      unfold MTReportInfoDetail.cleanNotSubmitHashCommittee
      simp only
      split
      · exact .inl rfl
      · exact .inr rfl
    refine .of_some hi (.to_bookable hstatus (fun h => ?_) ?_ ?_ ?_ ?_)
    · have hcontra : x.machineFaultType.isInaccessible = true := h
      rw [hin] at hcontra
      cases hcontra
    all_goals rw [hs]
    · exact trivial
    · exact not_false
    · exact hp.not_waitingRaw (by simp [hst])
    · exact hp.not_finished (by simp [hst])
  | switched hv x hx hst hi hs hb hh =>
    refine .of_some hi (.to_raw rfl ?_ ?_ ?_)
    all_goals rw [hs]
    · exact not_false
    · exact not_false
    · exact (h.placed x hx).not_finished (by simp [hst])
  | stranded hv x hx hsum hlate hst hi hs hb hh =>
    exact absurd ((hapt x hx).timely hv hsum hlate) hst
  | bereft hv x hx hsum hlate hst c hc hi hs hb hh =>
    exact absurd ((hapt x hx).timely hv hsum hlate) hst
  | decided hv x hx hsum hi hs hb hh =>
    have hp := h.placed x hx
    have hst := hp.waitingRaw ((hapt x hx).counting hv)
    have hstatus : (counted x).reportStatus = .committeeConfirmed := by
      rw [counted_of_ne (by simp [hst])]
      rfl
    refine .of_some hi (.to_confirmed hstatus ?_ ?_ ?_)
    all_goals rw [hs]
    · exact hp.not_bookable (by simp [hst]) (by simp [hst])
    · exact hp.not_verifying (by simp [hst])
    · exact not_false
  | stuck hv x hx hsum hc hle hk hi hs hb hh =>
    exact absurd ((hapt x hx).known hv hsum hc hle) hk
  | undecided hv x hx hsum he hi hs hb =>
    have hp := h.placed x hx
    have hst := hp.waitingRaw ((hapt x hx).counting hv)
    have hstatus : (counted x).reportStatus = .committeeConfirmed := by
      rw [counted_of_ne (by simp [hst])]
      rfl
    refine .of_some hi (.to_confirmed hstatus ?_ ?_ ?_)
    all_goals rw [hs]
    · exact hp.not_bookable (by simp [hst]) (by simp [hst])
    · exact hp.not_verifying (by simp [hst])
    · exact not_false

/-! ## Hashes -/

/-- The report can be booked, is being verified or waits for findings. -/
def File.Listed (f : File A) : Prop :=
  f.shelf.bookable ∨ f.shelf.verifying ∨ f.shelf.waitingRaw

/-- The hash a committee submitted is kept while the report is listed. -/
def Kept (c : A) (hash : Bytes) (f : File A) : Prop :=
  ∃ x, f.info = some x ∧ c ∈ x.hashedCommittee ∧ (f.Listed → f.hash c = hash)

theorem Kept.of_eq {hash : Bytes} {y : MTReportInfoDetail A} (h : Kept c hash f)
    (hx : f.info = some x) (hi : g.info = some y) (hy : y.hashedCommittee = x.hashedCommittee)
    (hhash : c ∈ x.hashedCommittee → g.Listed → f.Listed ∧ g.hash c = f.hash c) :
    Kept c hash g := by
  obtain ⟨z, hz, hmem, hkeep⟩ := h
  cases hx.symm.trans hz
  refine ⟨y, hi, hy ▸ hmem, fun hl => ?_⟩
  obtain ⟨hl, hg⟩ := hhash hmem hl
  exact hg.trans (hkeep hl)

/-- A report that waits for findings, or for nothing more, is in no other list. -/
theorem Placed.raw_unlisted (h : Placed f x) (hst : x.reportStatus = .submittingRaw)
    {waiting finished : Prop}
    (hs : g.shelf = ⟨f.shelf.bookable, f.shelf.verifying, waiting, finished⟩)
    (hw : ¬ waiting) : ¬ g.Listed := by
  unfold File.Listed
  rw [hs]
  rintro (hb | hv | hwait)
  · exact h.not_bookable (by simp [hst]) (by simp [hst]) hb
  · exact h.not_verifying (by simp [hst]) hv
  · exact hw hwait

theorem Placed.listed (h : Placed f x)
    (hst : x.reportStatus = .reported ∨ x.reportStatus = .waitingBook ∨
      (x.reportStatus = .verifying ∧
        (x.machineFaultType.isInaccessible = true ∨ ∃ c, f.booked c))) : f.Listed := by
  rcases hst with hst | hst | ⟨hst, hwork⟩
  · exact .inl (h.shelved (.inl hst))
  · exact .inl (h.shelved (.inr hst))
  · refine .inr (.inl ((h.working hst).resolve_right fun hno => ?_))
    rcases hwork with hin | ⟨c, hc⟩
    · rw [hno.1] at hin
      cases hin
    · exact hno.2 c hc

/-- **A hash stays while the report is listed.** -/
theorem Turn.kept {hash : Bytes} (ht : Turn v id f g) (hm : Manned f) (h : Filed f)
    (hapt : ∀ x, f.info = some x → Apt v x f) (hkept : Kept c hash f) : Kept c hash g := by
  cases ht with
  | stay heq => rwa [heq]
  | filed hf r t fault stake hi hs hb =>
    obtain ⟨x, hx, -⟩ := hkept
    rw [hf.info] at hx
    cases hx
  | canceled hv x hx hst hi hs hb =>
    obtain ⟨y, hy, hmem, -⟩ := hkept
    cases hx.symm.trans hy
    have hjoined := hm.joined x hx
    exact absurd (hjoined.hashed c hmem) (hjoined.idle hst c)
  | booked hv x hx c' t hcan hi hs hb hh =>
    obtain ⟨-, hst, -, -⟩ := canBook_ok.1 hcan
    refine hkept.of_eq hx hi rfl fun _ _ => ⟨(h.placed x hx).listed ?_, by rw [hh]⟩
    exact hst.imp_right .inl
  | encrypted hv x hx c' hi hs hb hh =>
    refine hkept.of_eq hx hi rfl fun _ hl => ⟨?_, by rw [hh]⟩
    unfold File.Listed at hl ⊢
    rwa [hs] at hl
  | hashed hv x hx c' hash' hnew hc hcan hi hs hb hh =>
    obtain ⟨y, hy, hmem, hkeep⟩ := hkept
    cases hx.symm.trans hy
    have hne : c ≠ c' := by
      rintro rfl
      exact (hm.held x hx c hc).2 hmem
    have hlisted : f.Listed := by
      refine (h.placed x hx).listed ?_
      rcases canSubmitHash_status hcan with hst | hst
      · exact .inr (.inl hst)
      · exact .inr (.inr ⟨hst, .inr ⟨c', hc⟩⟩)
    refine ⟨_, hi, mem_addItem.2 (.inr hmem), fun _ => ?_⟩
    rw [hh, if_neg hne]
    exact hkeep hlisted
  | revealed hv x hx c' b m err hcan ho hi hs hb hh =>
    refine hkept.of_eq hx hi rfl fun _ hl => ⟨?_, by rw [hh]⟩
    unfold File.Listed at hl ⊢
    rwa [hs] at hl
  | started hv x hx hin hst hi hs hb hh =>
    refine hkept.of_eq hx hi rfl fun _ _ => ⟨(h.placed x hx).listed ?_, by rw [hh]⟩
    rcases hst with hst | hst
    · exact .inr (.inl hst)
    · exact .inr (.inr ⟨hst, .inl hin⟩)
  | closed hv x hx hst hi hs hb hh =>
    refine hkept.of_eq hx hi rfl fun _ hl => absurd hl ?_
    exact (h.placed x hx).raw_unlisted hst hs not_false
  | concluded hv x hx hst hi hs hb =>
    refine hkept.of_eq hx hi rfl fun _ hl => ?_
    unfold File.Listed at hl
    rw [hs] at hl
    rcases hl with hl | hl | hl
    all_goals exact hl.elim
  | late hv x hx hin hst hi hs hb =>
    have hp := h.placed x hx
    refine hkept.of_eq hx hi rfl fun _ hl => ?_
    unfold File.Listed at hl
    rw [hs] at hl
    rcases hl with hl | hl | hl
    · exact absurd hl (hp.not_bookable (by simp [hst]) (by simp [hst]))
    · exact hl.elim
    · exact absurd hl (hp.not_waitingRaw (by simp [hst]))
  | dropped hv x hx hin hst c' hc hi hs hb hh =>
    refine hkept.of_eq hx hi rfl fun hmem _ => ⟨?_, hh c ?_⟩
    · exact ((hapt x hx).verifying hv).elim (fun h => .inr (.inl h)) .inl
    · rintro rfl
      exact (hm.joined x hx).verifying c hc hmem
  | switched hv x hx hst hi hs hb hh =>
    exact hkept.of_eq hx hi rfl fun _ _ =>
      ⟨(h.placed x hx).listed (.inr (.inl hst)), by rw [hh]⟩
  | stranded hv x hx hsum hlate hst hi hs hb hh =>
    exact absurd ((hapt x hx).timely hv hsum hlate) hst
  | bereft hv x hx hsum hlate hst c' hc hi hs hb hh =>
    exact absurd ((hapt x hx).timely hv hsum hlate) hst
  | decided hv x hx hsum hi hs hb hh =>
    have hst := (h.placed x hx).waitingRaw ((hapt x hx).counting hv)
    refine hkept.of_eq hx hi (counted_committees x).2 fun _ hl => absurd hl ?_
    exact (h.placed x hx).raw_unlisted hst hs not_false
  | stuck hv x hx hsum hc hle hk hi hs hb hh =>
    exact absurd ((hapt x hx).known hv hsum hc hle) hk
  | undecided hv x hx hsum he hi hs hb =>
    have hst := (h.placed x hx).waitingRaw ((hapt x hx).counting hv)
    refine hkept.of_eq hx hi (counted_committees x).2 fun _ hl => absurd hl ?_
    exact (h.placed x hx).raw_unlisted hst hs not_false

/-- Everybody counted as having submitted a hash did so. -/
def Submitted (D : A → Prop) (f : File A) : Prop :=
  ∀ x, f.info = some x → ∀ c ∈ x.hashedCommittee, D c

theorem Submitted.of_eq {D : A → Prop} {y : MTReportInfoDetail A} (h : Submitted D f)
    (hx : f.info = some x) (hi : g.info = some y) (hy : y.hashedCommittee = x.hashedCommittee) :
    Submitted D g := by
  intro z hz c hc
  cases hi.symm.trans hz
  exact h x hx c (hy ▸ hc)

theorem Turn.submitted {D : A → Prop} (ht : Turn v id f g) (h : Submitted D f)
    (hnew : ∀ c hash, v.hashes c id hash → D c) : Submitted D g := by
  cases ht with
  | stay heq => rwa [heq]
  | filed hf r t fault stake hi hs hb =>
    intro y hy c hc
    cases hi.symm.trans hy
    exact absurd hc notMem_empty
  | canceled hv x hx hst hi hs hb =>
    intro y hy
    rw [hi] at hy
    cases hy
  | hashed hv x hx c hash hn hc hcan hi hs hb hh =>
    intro y hy c' hc'
    cases hi.symm.trans hy
    rcases mem_addItem.1 hc' with rfl | hc'
    · exact hnew c' hash hn
    · exact h x hx c' hc'
  | booked hv x hx _ _ _ hi | encrypted hv x hx _ hi | revealed hv x hx _ _ _ _ _ _ hi
  | started hv x hx _ _ hi | closed hv x hx _ hi | concluded hv x hx _ hi | late hv x hx _ _ hi
  | dropped hv x hx _ _ _ _ hi | switched hv x hx _ hi | stranded hv x hx _ _ _ hi
  | bereft hv x hx _ _ _ _ _ hi | stuck hv x hx _ _ _ _ hi => exact h.of_eq hx hi rfl
  | decided hv x hx _ hi | undecided hv x hx _ _ hi =>
    exact h.of_eq hx hi (counted_committees x).2

end

/-! # Reports that wait for findings

What holds of one file holds of all files along a run. -/

open List

section

variable {A : Type} [LinearOrder A] {env : Env} {id : Nat} {x : MTReportInfoDetail A} {c : A}
  {v : Scene A} {f : File A} {s s' s₀ : State A} {log log' : List (Deed A)}

/-! ## Every report has one place -/

theorem Filed.some_of_shelved (h : Filed f)
    (hs : f.shelf.bookable ∨ f.shelf.verifying ∨ f.shelf.waitingRaw ∨ f.shelf.finished) :
    ∃ x, f.info = some x ∧ Placed f x := by
  cases hx : f.info with
  | none =>
    rw [h.blank hx] at hs
    rcases hs with hs | hs | hs | hs
    all_goals exact hs.elim
  | some x => exact ⟨x, rfl, h.placed x hx⟩

theorem Filed.bookable_alone (h : Filed f) (hb : f.shelf.bookable) :
    ¬ f.shelf.verifying ∧ ¬ f.shelf.waitingRaw ∧ ¬ f.shelf.finished := by
  obtain ⟨x, -, hp⟩ := h.some_of_shelved (.inl hb)
  have hst := (hp.bookable hb).1
  refine ⟨hp.not_verifying ?_, hp.not_waitingRaw ?_, hp.not_finished ?_⟩
  all_goals rcases hst with hst | hst <;> simp [hst]

theorem Filed.verifying_alone (h : Filed f) (hv : f.shelf.verifying) :
    ¬ f.shelf.waitingRaw ∧ ¬ f.shelf.finished := by
  obtain ⟨x, -, hp⟩ := h.some_of_shelved (.inr (.inl hv))
  have hst := hp.verifying hv
  exact ⟨hp.not_waitingRaw (by simp [hst]), hp.not_finished (by simp [hst])⟩

theorem Filed.waitingRaw_alone (h : Filed f) (hw : f.shelf.waitingRaw) : ¬ f.shelf.finished := by
  obtain ⟨x, -, hp⟩ := h.some_of_shelved (.inr (.inr (.inl hw)))
  exact hp.not_finished (by simp [hp.waitingRaw hw])

/-! ## All files -/

/-- Every file is manned and filed. -/
structure Orderly (s : State A) : Prop where
  manned : ∀ i, Manned (s.desk.file i)
  filed : ∀ i, Filed (s.desk.file i)

/-- The files are in order, and the log holds the hashes that were submitted. -/
structure Tidy (log : List (Deed A)) (s : State A) : Prop extends Orderly s where
  kept : ∀ c i hash, .hash c i hash ∈ log → Kept c hash (s.desk.file i)
  submitted : ∀ i, Submitted (fun c => ∃ hash, .hash c i hash ∈ log) (s.desk.file i)

/-- A file that is not the one of `id` stays as it is, or is blank before. -/
theorem Moves.apt_or_same (hm : Moves v id s.desk s'.desk) (hf : s.desk.Fresh)
    (hapt : ∀ x, s.desk.info id = some x → Apt v x (s.desk.file id)) (i : Nat) :
    (∀ x, (s.desk.file i).info = some x → Apt v x (s.desk.file i)) ∨
      s'.desk.file i = s.desk.file i := by
  by_cases hi : i = id
  · rw [hi]
    exact .inl hapt
  by_cases hlt : i < s.desk.nextReportId
  · exact .inr (hm.same i hi hlt)
  · refine .inl fun x hx => ?_
    rw [(hf i (Nat.le_of_not_lt hlt)).info] at hx
    cases hx

theorem Orderly.moves (h : Orderly s) (hf : s.desk.Fresh) (hm : Moves v id s.desk s'.desk)
    (hapt : ∀ x, s.desk.info id = some x → Apt v x (s.desk.file id)) : Orderly s' := by
  refine ⟨fun i => (hm.turn i).manned (h.manned i), fun i => ?_⟩
  rcases hm.apt_or_same hf hapt i with hapt | heq
  · exact (hm.turn i).shelved (h.manned i) (h.filed i) hapt
  · rw [heq]
    exact h.filed i

theorem Tidy.moves (h : Tidy log s) (hf : s.desk.Fresh) (hm : Moves v id s.desk s'.desk)
    (hapt : ∀ x, s.desk.info id = some x → Apt v x (s.desk.file id)) (hsub : log ⊆ log')
    (hnew : ∀ c i hash, v.hashes c i hash → .hash c i hash ∈ log')
    (hkept : ∀ c i hash, .hash c i hash ∈ log' →
      .hash c i hash ∈ log ∨ Kept c hash (s'.desk.file i)) : Tidy log' s' := by
  refine ⟨h.toOrderly.moves hf hm hapt, fun c i hash hlog => ?_, fun i => ?_⟩
  · rcases hkept c i hash hlog with hlog | hkept
    · rcases hm.apt_or_same hf hapt i with hapt | heq
      · exact (hm.turn i).kept (h.manned i) (h.filed i) hapt (h.kept c i hash hlog)
      · rw [heq]
        exact h.kept c i hash hlog
    · exact hkept
  · refine (hm.turn i).submitted (fun x hx c hc => ?_) fun c hash hh => ⟨hash, hnew c i hash hh⟩
    obtain ⟨hash, hlog⟩ := h.submitted i x hx c hc
    exact ⟨hash, hsub hlog⟩

/-! ## The end of a block -/

/-- No report is being verified when its three hours are over. -/
def State.OnTime (s : State A) : Prop :=
  ∀ id x, s.desk.info id = some x →
    id ∈ s.desk.liveReport.verifyingReport ∨ id ∈ s.desk.liveReport.bookableReport →
    x.canSummaryFault → threeHours ≤ s.now - x.firstBookTime → x.reportStatus = .waitingBook

/-- The machines whose faults are about to be confirmed have a record. -/
def State.OnRecord (s : State A) : Prop :=
  ∀ id x, s.desk.info id = some x → id ∈ s.desk.liveReport.waitingRawReport →
    x.canSummary s.now → x.confirmedCommittee.isEmpty = false →
    x.againstCommittee.length ≤ x.supportCommittee.length → (s.machine x.machineId).isSome = true

/-- What holds between the rounds about faults: the reports in `rest` are as they were at `s₀`. -/
structure Awaits (log : List (Deed A)) (s₀ : State A) (rest : List Nat) (s : State A) : Prop where
  tidy : Tidy log s
  nodup : rest.Nodup
  same : ∀ i ∈ rest, i < s.desk.nextReportId ∧ s.desk.file i = s₀.desk.file i
  onward : Onward s₀ s

theorem Awaits.round {rest : List Nat} {stage : Stage} {P : Nat → RawInfo → Prop}
    (h : Awaits log s₀ (id :: rest) s) (hf : s.desk.Fresh)
    (hr : Rounded (s.scene stage env P) id s s')
    (hapt : ∀ x, s₀.desk.info id = some x → Apt (s.scene stage env P) x (s₀.desk.file id)) :
    Awaits log s₀ rest s' := by
  obtain ⟨hm, ho⟩ := hr
  obtain ⟨hnot, hnodup⟩ := nodup_cons.1 h.nodup
  obtain ⟨-, hid⟩ := h.same id mem_cons_self
  refine ⟨?_, hnodup, fun i hi => ?_, h.onward.trans ho⟩
  · refine h.tidy.moves hf hm (fun x hx => ?_) (fun _ h => h) (fun _ _ _ h => h.elim)
      fun _ _ _ h => .inl h
    rw [hid]
    exact hapt x ((congrArg File.info hid).symm.trans hx)
  · obtain ⟨hlt, hsame⟩ := h.same i (mem_cons_of_mem _ hi)
    have hne : i ≠ id := by
      rintro rfl
      exact hnot hi
    exact ⟨lt_of_lt_of_le hlt hm.low, (hm.same i hne hlt).trans hsame⟩

theorem Desk.listed_of_due {d : Desk A} (hid : id ∈ d.due) : (d.file id).Listed := by
  unfold Desk.due at hid
  rcases mem_append.1 hid with hid | hid
  · exact (mem_append.1 hid).elim (fun h => .inr (.inl h)) .inl
  · exact .inr (.inr hid)

theorem Orderly.due_nodup (h : Orderly s) : s.desk.due.Nodup := by
  unfold Desk.due
  rw [nodup_append, nodup_append]
  refine ⟨⟨SortedVec.nodup _, SortedVec.nodup _, ?_⟩, SortedVec.nodup _, ?_⟩
  · rintro i hv _ hb rfl
    exact ((h.filed i).bookable_alone hb).1 hv
  · rintro i hi _ hw rfl
    rcases mem_append.1 hi with hv | hb
    · exact ((h.filed i).verifying_alone hv).1 hw
    · exact ((h.filed i).bookable_alone hb).2.1 hw

theorem Tidy.onFinalize (h : Tidy log s) (hf : s.desk.Fresh)
    (hroom : 16 * s.desk.nextReportId ≤ u64Max) (htime : s.OnTime) (hrec : s.OnRecord) :
    Tidy log s.onFinalize ∧ s.onFinalize.desk.Fresh := by
  refine @onFinalize_settled A _ ⟨id⟩ (fun _ _ => True) _ (Awaits log s) _
    (fun id l s1 s2 hid hf1 hs1 hr => hs1.round hf1 hr fun x hx => ?_)
    (fun id l s1 s2 hid hf1 hs1 hr => hs1.round hf1 hr fun x hx => ?_) (fun s1 hs1 => hs1.tidy)
    (fun id s1 s2 hf1 hs1 hr => ?_) ?_ hf hroom
  · refine ⟨fun _ => hid, fun hst => (by cases hst), fun _ hsum hlate => ?_,
      fun hst => (by cases hst)⟩
    refine htime id x hx hid hsum ?_
    rw [← hs1.onward.now]
    exact hlate
  · refine ⟨fun hst => (by cases hst), fun _ => hid, fun hst => (by cases hst),
      fun _ hsum hc hle => ?_⟩
    refine hs1.onward.known _ (hrec id x hx hid ?_ hc hle)
    rw [← hs1.onward.now]
    exact hsum
  · refine hs1.moves hf1 hr.1 (fun x _ => ?_) (fun _ h => h) (fun _ _ _ h => h.elim)
      fun _ _ _ h => .inl h
    exact ⟨fun hst => (by cases hst), fun hst => (by cases hst), fun hst => (by cases hst),
      fun hst => (by cases hst)⟩
  · have hord : Orderly s := ⟨h.manned, h.filed⟩
    exact ⟨h, hord.due_nodup, fun i hi => ⟨hf.lt_of_listed (Desk.listed_of_due hi), rfl⟩, .refl s⟩

/-! ## Runs -/

/-- At the end of a block no report is late and no machine is missing, and fewer than `2 ^ 60`
reports were made. -/
def Timely (t : Block A) : Op A → Prop
  | .endBlock => 16 * t.state.desk.nextReportId ≤ u64Max ∧ t.state.OnTime ∧ t.state.OnRecord
  | _ => 16 * t.state.desk.nextReportId ≤ u64Max

theorem Timely.room {t : Block A} {op : Op A} (h : Timely t op) :
    16 * t.state.desk.nextReportId ≤ u64Max := by
  cases op with
  | endBlock => exact h.1
  | _ => exact h

theorem kept_of_deeds {t : Block A} {op : Op A} {i : Nat} {hash : Bytes}
    (h : .hash c i hash ∈ deeds env t op) : Kept c hash ((apply env t op).state.desk.file i) := by
  cases op with
  | committeeSubmitVerifyHash c' i' hash' =>
    simp only [deeds, mem_ite_nil_right, mem_singleton, Deed.hash.injEq] at h
    obtain ⟨hacc, rfl, rfl, rfl⟩ := h
    obtain ⟨_, hr⟩ := run_of_isOk hacc
    obtain ⟨y, -, -, -, -, -, hs⟩ := committeeSubmitVerifyHash_ok.1 hr
    have hstate : (apply env t (.committeeSubmitVerifyHash c i hash)).state =
        t.state.mapDesk fun d => d.addHash c i y hash t.state.now := hs.symm
    rw [hstate]
    refine ⟨y.addHash c, t.state.desk.reportInfo.get_insert_self _ _,
      SortedVec.mem_addItem.2 (.inl rfl), fun _ => ?_⟩
    exact (Desk.hash_putOps _ c).trans (if_pos rfl)
  | _ => simp [deeds] at h

theorem Tidy.apply {t : Block A} {op : Op A} (h : Tidy log t.state) (hf : t.state.desk.Fresh)
    (hc : Timely t op) :
    Tidy (log ++ deeds env t op) (apply env t op).state ∧ (apply env t op).state.desk.Fresh := by
  have hroom := hc.room
  by_cases hop : op = .endBlock
  · subst hop
    rw [show deeds env t .endBlock = [] from rfl, append_nil]
    exact h.onFinalize hf hroom hc.2.1 hc.2.2
  · have hmax : t.state.desk.nextReportId ≠ u64Max := by
      intro heq
      rw [heq] at hroom
      revert hroom
      decide
    have hreveals : op.Reveals fun _ _ => True := by cases op <;> trivial
    obtain ⟨id, hm⟩ : ∃ id, Moves (t.scene env (fun _ _ => True) op) id t.state.desk
        (MaintainCommittee.apply env t op).state.desk := apply_moves hf hmax hop hreveals
    refine ⟨h.moves hf hm (fun x _ => ?_) (subset_append_left ..)
      (fun c i hash hh => mem_append.2 (.inr hh)) fun c i hash hh => ?_, hm.fresh_desk hf⟩
    · exact ⟨fun hst => (by cases hst), fun hst => (by cases hst), fun hst => (by cases hst),
        fun hst => (by cases hst)⟩
    · exact (mem_append.1 hh).imp_right kept_of_deeds

theorem reach_tidy {p : Block A × List (Deed A)}
    (h : System.Reach (recorded env) (fun p => Timely p.1) p) :
    Tidy p.2 p.1.state ∧ p.1.state.desk.Fresh := by
  refine h.invariant (I := fun p => Tidy p.2 p.1.state ∧ p.1.state.desk.Fresh) ?_ ?_
  · rintro ⟨t, log⟩ ⟨⟨-, hempty⟩, hlog⟩
    have hfresh : t.state.desk.Fresh := hempty ▸ fresh_empty
    have hblank : ∀ i, (t.state.desk.file i).Blank := fun i => hfresh i (hempty ▸ Nat.zero_le i)
    cases hlog
    refine ⟨⟨⟨fun i => .of_none (hblank i).info (hblank i).booked,
      fun i => .of_none (hblank i).info (hblank i).shelf⟩, fun c i hash hh => ?_,
      fun i x hx => ?_⟩, hfresh⟩
    · cases hh
    · rw [(hblank i).info] at hx
      cases hx
  · rintro ⟨t, log⟩ op ⟨t', log'⟩ ⟨htidy, hf⟩ hc ⟨⟨-, rfl⟩, rfl⟩
    exact htidy.apply hf hc

/-! ## Lists, statuses and findings -/

/-- The lists of reports match the status of the reports, and no report is in two of them. -/
structure Desk.ListsMatch (d : Desk A) : Prop where
  bookable : ∀ id ∈ d.liveReport.bookableReport, ∃ x, d.info id = some x ∧
    (x.reportStatus = .reported ∨ x.reportStatus = .waitingBook)
  verifying : ∀ id ∈ d.liveReport.verifyingReport, ∃ x, d.info id = some x ∧
    (x.reportStatus = .verifying ∨
      (x.machineFaultType.isInaccessible = true ∧ x.reportStatus = .waitingBook))
  waitingRaw : ∀ id ∈ d.liveReport.waitingRawReport, ∃ x, d.info id = some x ∧
    x.reportStatus = .submittingRaw
  finished : ∀ id ∈ d.liveReport.finishedReport, ∃ x, d.info id = some x ∧
    x.reportStatus = .committeeConfirmed
  bookable_alone : ∀ id ∈ d.liveReport.bookableReport, id ∉ d.liveReport.verifyingReport ∧
    id ∉ d.liveReport.waitingRawReport ∧ id ∉ d.liveReport.finishedReport
  verifying_alone : ∀ id ∈ d.liveReport.verifyingReport,
    id ∉ d.liveReport.waitingRawReport ∧ id ∉ d.liveReport.finishedReport
  waitingRaw_alone : ∀ id ∈ d.liveReport.waitingRawReport, id ∉ d.liveReport.finishedReport

/-- A committee that submitted `hash` can reveal a finding that matches it and, for a fault the
reporter hashed, what the reporter hashed. -/
structure CanReveal (env : Env) (s : State A) (c : A) (id : Nat) (x : MTReportInfoDetail A)
    (hash : Bytes) : Prop where
  raw : ∀ r : RawInfo, x.getReporterHash = .ok (getHash env r.reporterParts) →
    getHash env r.committeeParts = hash → Accepted (committeeSubmitVerifyRaw env c id r) s
  inaccessible : x.machineFaultType.isInaccessible = true → ∀ rand isSupport,
    getHash env (inaccessibleParts id rand isSupport) = hash →
    Accepted (committeeSubmitInaccessibleRaw env c id rand isSupport) s

theorem Tidy.listsMatch (h : Tidy log s) : s.desk.ListsMatch where
  bookable id hid := by
    obtain ⟨x, hx, hp⟩ := (h.filed id).some_of_shelved (.inl hid)
    exact ⟨x, hx, (hp.bookable hid).1⟩
  verifying id hid := by
    obtain ⟨x, hx, hp⟩ := (h.filed id).some_of_shelved (.inr (.inl hid))
    exact ⟨x, hx, .inl (hp.verifying hid)⟩
  waitingRaw id hid := by
    obtain ⟨x, hx, hp⟩ := (h.filed id).some_of_shelved (.inr (.inr (.inl hid)))
    exact ⟨x, hx, hp.waitingRaw hid⟩
  finished id hid := by
    obtain ⟨x, hx, hp⟩ := (h.filed id).some_of_shelved (.inr (.inr (.inr hid)))
    exact ⟨x, hx, hp.finished hid⟩
  bookable_alone id hid := (h.filed id).bookable_alone hid
  verifying_alone id hid := (h.filed id).verifying_alone hid
  waitingRaw_alone id hid := (h.filed id).waitingRaw_alone hid

theorem Tidy.canReveal (h : Tidy log s) (hid : id ∈ s.desk.liveReport.waitingRawReport)
    (hx : s.desk.info id = some x) {hash : Bytes} (hlog : .hash c id hash ∈ log) :
    CanReveal env s c id x hash := by
  obtain ⟨y, hy, hc, hkeep⟩ := h.kept c id hash hlog
  cases hx.symm.trans hy
  have hst := ((h.filed id).placed x hx).waitingRaw hid
  have hhash : (s.desk.ops c id).confirmHash = hash := hkeep (.inr (.inr hid))
  refine ⟨fun r hrep hcom => ?_, fun hin rand b hcom => ?_⟩
  · have hrun := committeeSubmitVerifyRaw_ok.2 ⟨x, hx, hst, hc, hrep, hcom.trans hhash.symm, rfl⟩
    unfold Accepted
    rw [hrun]
    rfl
  · have hrun := committeeSubmitInaccessibleRaw_ok.2
      ⟨x, hx, hst, hin, hc, hcom.trans hhash.symm, rfl⟩
    unfold Accepted
    rw [hrun]
    rfl

/-- **The lists of reports match their status, and every committee that submitted its hash can
reveal its finding while the report waits for findings.** -/
theorem lists_match_and_findings_open {p : Block A × List (Deed A)}
    (h : System.Reach (recorded env) (fun p => Timely p.1) p) :
    p.1.state.desk.ListsMatch ∧
      ∀ id ∈ p.1.state.desk.liveReport.waitingRawReport, ∀ x, p.1.state.desk.info id = some x →
        ∀ c ∈ x.hashedCommittee, (∃ hash, .hash c id hash ∈ p.2) ∧
          ∀ hash, .hash c id hash ∈ p.2 → CanReveal env p.1.state c id x hash := by
  obtain ⟨htidy, -⟩ := reach_tidy h
  refine ⟨htidy.listsMatch, fun id hid x hx c hc => ⟨htidy.submitted id x hx c hc, ?_⟩⟩
  intro hash hlog
  exact htidy.canReveal hid hx hlog

end

/-! ## Runs with and without -/

namespace WaitingDemo

open VoteDemo

/-- The committees find the same fault. -/
def findingOf (c : Nat) : RawInfo := { finding true with committeeRandStr := [byte c] }

def pledge (c : Nat) : List (Op Nat) :=
  [.committeeBookReport c 0, .reporterAddEncryptedErrorInfo 5 0 c [], .committeeSubmitVerifyHash c 0
    (getHash env (findingOf c).committeeParts)]

def pledges : List (Op Nat) :=
  [.setReporterStakeParams ⟨100, 10, .zero⟩,
    .reportMachineFault 5
    (.rentedHardwareMalfunction (getHash env (finding true).reporterParts))] ++
    [11, 12, 13].flatMap pledge

def waiting : Block Nat × List (Deed Nat) := pledges.foldl next (start, [])

/-- All three committees reveal their findings about a machine without a record, and the block
ends. -/
def reveals : List (Op Nat) :=
  [11, 12, 13].map (fun c => Op.committeeSubmitVerifyRaw c 0 (findingOf c)) ++ [.endBlock]

def unrecorded : Block Nat × List (Deed Nat) := (pledges ++ reveals).foldl next (start, [])

def isCall : Op Nat → Bool
  | .endBlock => false
  | _ => true

theorem timely_of_call {t : Block Nat} {op : Op Nat}
    (h : isCall op = true ∧ 16 * t.state.desk.nextReportId ≤ u64Max) : Timely t op := by
  cases op with
  | endBlock => cases h.1
  | _ => exact h.2

theorem waiting_reach : System.Reach (recorded env) (fun p => Timely p.1) waiting := by
  have hcalls : System.Reach (recorded env) (fun p op => isCall op = true ∧
      16 * p.1.state.desk.nextReportId ≤ u64Max) waiting := reach_next (by decide +kernel)
  exact hcalls.mono fun _ _ h => timely_of_call h

end WaitingDemo

open VoteDemo WaitingDemo

theorem lists_match_and_findings_open_demo :
    waiting.1.state.desk.ListsMatch ∧
      Accepted (committeeSubmitVerifyRaw env 12 0 (findingOf 12)) waiting.1.state := by
  have h := lists_match_and_findings_open waiting_reach
  have hid : 0 ∈ waiting.1.state.desk.liveReport.waitingRawReport := by decide +kernel
  have hinfo : (waiting.1.state.desk.info 0).map (fun x => decide (12 ∈ x.hashedCommittee ∧
      x.machineFaultType.getHash = some (getHash env (findingOf 12).reporterParts))) =
        some true := by
    decide +kernel
  obtain ⟨x, hx, hmem⟩ := Option.map_eq_some_iff.1 hinfo
  obtain ⟨hc, hrep⟩ := of_decide_eq_true hmem
  have hlog : .hash 12 0 (getHash env (findingOf 12).committeeParts) ∈ waiting.2 := by
    decide +kernel
  refine ⟨h.1, ((h.2 0 hid x hx 12 hc).2 _ hlog).raw (findingOf 12) ?_ rfl⟩
  unfold MTReportInfoDetail.getReporterHash
  rw [hrep]

/-- A report about a machine without a record is listed as finished, but still takes findings. -/
theorem finished_while_submitting :
    ∃ p : Block Nat × List (Deed Nat), System.Reach (recorded env) (fun _ _ => True) p ∧
      p.1.ended = true ∧ 0 ∈ p.1.state.desk.liveReport.finishedReport ∧
      ∃ x, p.1.state.desk.info 0 = some x ∧ x.reportStatus = .submittingRaw := by
  have hinfo : (unrecorded.1.state.desk.info 0).map (fun x =>
      decide (x.reportStatus = .submittingRaw)) = some true := by decide +kernel
  obtain ⟨x, hx, hst⟩ := Option.map_eq_some_iff.1 hinfo
  exact ⟨unrecorded, reach_next (by decide +kernel), rfl, by decide +kernel, x, hx,
    of_decide_eq_true hst⟩

end DeepBrainChain.MaintainCommittee
