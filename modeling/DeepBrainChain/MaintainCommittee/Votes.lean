import DeepBrainChain.MaintainCommittee.Run

/-!
# Votes of committees on faults

The vote of a committee is one byte of what it hashed, and the parts are hashed without separators.
As long as the error reasons revealed for a report have one length, that byte has one place, so that
a hash holds one vote and no committee is counted on both sides. With error reasons of two lengths
one hash opens to two votes, and since a committee may reveal its finding again it is then counted
twice.
-/

namespace DeepBrainChain.MaintainCommittee

open Lib GenericFunc Support Lib.Call SortedVec List

section

variable {A : Type} [LinearOrder A] {env : Env} {id : Nat} {x : MTReportInfoDetail A} {c : A}

/-! ## The place of a vote -/

def voteByte (b : Bool) : Fin 256 := byte (if b then 49 else 48)

variable {a b : Bool} {hash : Bytes}

theorem voteByte_inj (h : voteByte a = voteByte b) : a = b := by
  revert h
  cases a <;> cases b <;> decide

/-- Something that hashes to `hash` has the vote `b` before its last `n` bytes. -/
def Sealed (env : Env) (n : Nat) (hash : Bytes) (b : Bool) : Prop :=
  ∃ l r : Bytes, r.length = n ∧ env.blake2 (l ++ voteByte b :: r) = hash

/-- **A hash holds one vote.** -/
theorem Sealed.unique (hinj : Function.Injective env.blake2) {n : Nat} (ha : Sealed env n hash a)
    (hb : Sealed env n hash b) : a = b := by
  obtain ⟨l, r, hr, hl⟩ := ha
  obtain ⟨l', r', hr', hl'⟩ := hb
  have hpre : l ++ voteByte a :: r = l' ++ voteByte b :: r' := hinj (hl.trans hl'.symm)
  have htail : (voteByte a :: r).length = (voteByte b :: r').length := by
    rw [length_cons, length_cons, hr, hr']
  obtain ⟨-, hcons⟩ := append_inj' hpre htail
  exact voteByte_inj (List.cons.inj hcons).1

/-- The number of bytes hashed after the vote, if the error reasons of the report have length `n`. -/
def behind (x : MTReportInfoDetail A) (n : Nat) : Nat :=
  if x.machineFaultType.isInaccessible then 0 else n

theorem Opens.sealed {v : Scene A} {n : Nat} (hn : ∀ r, v.allowed id r → r.errReason.length = n)
    (h : Opens v id x hash b) : Sealed v.env (behind x n) hash b := by
  unfold behind
  cases h with
  | raw r hx hr h =>
    rw [if_neg (by simp [hx])]
    refine ⟨r.machineId ++ (toText r.rentOrderId ++ (r.reporterRandStr ++ r.committeeRandStr)),
      r.errReason, hn r hr, ?_⟩
    rw [← h]
    simp [getHash, RawInfo.committeeParts, voteText, voteByte, List.flatten]
  | inaccessible rand b hx h =>
    rw [if_pos hx]
    refine ⟨toText id ++ rand, [], rfl, ?_⟩
    rw [← h]
    simp [getHash, inaccessibleParts, voteText, voteByte, List.flatten]

/-! ## Reports -/

/-- The votes of a report: each confirmed committee hashed before, voted exactly one way, and did so
once the raw reports were asked for. -/
structure Sound (x : MTReportInfoDetail A) : Prop where
  confirmed : ∀ c ∈ x.confirmedCommittee, c ∈ x.hashedCommittee
  votes : ∀ c, c ∈ x.confirmedCommittee ↔ c ∈ x.supportCommittee ∨ c ∈ x.againstCommittee
  disjoint : ∀ c ∈ x.supportCommittee, c ∉ x.againstCommittee
  opened : ∀ c ∈ x.confirmedCommittee,
    x.reportStatus = .submittingRaw ∨ x.reportStatus = .committeeConfirmed

namespace Sound

theorem new (r : A) (t : Nat) (fault : MachineFaultType) (stake : Nat) :
    Sound (MTReportInfoDetail.new r t fault stake) where
  confirmed _ h := absurd h notMem_empty
  votes _ := ⟨.inl, fun h => h.elim id id⟩
  disjoint _ h := absurd h notMem_empty
  opened _ h := absurd h notMem_empty

theorem unopened (h : Sound x) (hs : x.reportStatus ≠ .submittingRaw)
    (hc : x.reportStatus ≠ .committeeConfirmed) (c : A) : c ∉ x.confirmedCommittee := fun hmem =>
  (h.opened c hmem).elim hs hc

theorem early {y : MTReportInfoDetail A} (h : Sound x) (hnone : ∀ c, c ∉ x.confirmedCommittee)
    (hc : y.confirmedCommittee = x.confirmedCommittee)
    (hs : y.supportCommittee = x.supportCommittee)
    (ha : y.againstCommittee = x.againstCommittee) : Sound y := by
  refine ⟨fun c hmem => ?_, fun c => ?_, fun c hmem => ?_, fun c hmem => ?_⟩
  · exact absurd (hc ▸ hmem) (hnone c)
  · rw [hc, hs, ha]
    exact h.votes c
  · rw [ha]
    exact h.disjoint c (hs ▸ hmem)
  · exact absurd (hc ▸ hmem) (hnone c)

theorem setStatus (h : Sound x) {st : ReportStatus}
    (hst : st = .submittingRaw ∨ st = .committeeConfirmed) : Sound (x.setStatus st) :=
  ⟨h.confirmed, h.votes, h.disjoint, fun _ _ => hst⟩

theorem counted (h : Sound x) : Sound (counted x) := by
  unfold MaintainCommittee.counted
  split
  · exact h
  · exact h.setStatus (.inr rfl)

theorem addRaw (h : Sound x) {b : Bool} (hst : x.reportStatus = .submittingRaw)
    (hc : c ∈ x.hashedCommittee)
    (hb : c ∈ x.confirmedCommittee → (b = true ↔ c ∈ x.supportCommittee)) (m : Option MachineId)
    (err : Bytes) : Sound (x.addRaw c b m err) := by
  have hsup : b = true → c ∉ x.againstCommittee := fun hb' hmem =>
    h.disjoint c ((hb ((h.votes c).2 (.inr hmem))).1 hb') hmem
  have hagainst : b = false → c ∉ x.supportCommittee := fun hb' hmem => by
    have htrue := (hb ((h.votes c).2 (.inl hmem))).2 hmem
    rw [hb'] at htrue
    cases htrue
  refine ⟨fun c' hc' => ?_, fun c' => ?_, fun c' hc' => ?_, fun _ _ => .inl hst⟩
  · rcases mem_addItem.1 hc' with rfl | hc'
    · exact hc
    · exact h.confirmed c' hc'
  · unfold MTReportInfoDetail.addRaw
    cases b with
    | true => simp [h.votes, or_assoc]
    | false => simp [h.votes, or_left_comm]
  · unfold MTReportInfoDetail.addRaw at hc' ⊢
    cases b with
    | true =>
      rcases mem_addItem.1 hc' with rfl | hc'
      · exact hsup rfl
      · exact h.disjoint c' hc'
    | false =>
      intro hmem
      rcases mem_addItem.1 hmem with rfl | hmem
      · exact hagainst rfl hc'
      · exact h.disjoint c' hc' hmem

end Sound

/-! ## Files -/

/-- While the raw reports come in, each vote that counts is the one its committee sealed before. -/
structure Fair (env : Env) (n : Nat) (f : File A) : Prop where
  manned : Manned f
  sound : ∀ x, f.info = some x → Sound x
  binding : ∀ x, f.info = some x → x.reportStatus = .submittingRaw → ∀ c ∈ x.confirmedCommittee,
    Sealed env (behind x n) (f.hash c) (decide (c ∈ x.supportCommittee))

theorem Fair.of_some {n : Nat} {f : File A} (hm : Manned f) (hx : f.info = some x)
    (hsound : Sound x)
    (hbind : x.reportStatus = .submittingRaw → ∀ c ∈ x.confirmedCommittee,
      Sealed env (behind x n) (f.hash c) (decide (c ∈ x.supportCommittee))) : Fair env n f where
  manned := hm
  sound y hy := by
    cases hx.symm.trans hy
    exact hsound
  binding y hy := by
    cases hx.symm.trans hy
    exact hbind

theorem Fair.of_none {n : Nat} {f : File A} (hm : Manned f) (hx : f.info = none) :
    Fair env n f where
  manned := hm
  sound x h := by
    rw [hx] at h
    cases h
  binding x h := by
    rw [hx] at h
    cases h

section

variable {v : Scene A} {n : Nat} {f g : File A}

variable {y : MTReportInfoDetail A} {b : Bool}

theorem Fair.early {env : Env} (h : Fair env n f) (hm : Manned g) (hx : f.info = some x)
    (hi : g.info = some y) (hs : x.reportStatus ≠ .submittingRaw)
    (hc : x.reportStatus ≠ .committeeConfirmed)
    (hconf : y.confirmedCommittee = x.confirmedCommittee)
    (hsup : y.supportCommittee = x.supportCommittee)
    (hag : y.againstCommittee = x.againstCommittee) : Fair env n g := by
  have hnone := (h.sound x hx).unopened hs hc
  refine .of_some hm hi ((h.sound x hx).early hnone hconf hsup hag) fun _ c hmem => ?_
  exact absurd (hconf ▸ hmem) (hnone c)

theorem Fair.vote_eq (h : Fair v.env n f) (hinj : Function.Injective v.env.blake2)
    (hn : ∀ r, v.allowed id r → r.errReason.length = n) (hx : f.info = some x)
    (hst : x.reportStatus = .submittingRaw) (ho : Opens v id x (f.hash c) b)
    (hc : c ∈ x.confirmedCommittee) : b = true ↔ c ∈ x.supportCommittee := by
  rw [(ho.sealed hn).unique hinj (h.binding x hx hst c hc)]
  exact decide_eq_true_iff

theorem Fair.counted {env : Env} (h : Fair env n f) (hm : Manned g) (hx : f.info = some x)
    (hi : g.info = some (counted x)) : Fair env n g := by
  refine .of_some hm hi (h.sound x hx).counted fun hraw => ?_
  unfold MaintainCommittee.counted at hraw
  split at hraw
  · next hst =>
    rw [hst] at hraw
    cases hraw
  · cases hraw

/-- **No turn makes a file unfair.** -/
theorem Turn.fair (ht : Turn v id f g) (h : Fair v.env n f) (hinj : Function.Injective v.env.blake2)
    (hn : ∀ r, v.allowed id r → r.errReason.length = n) : Fair v.env n g := by
  have hm := ht.manned h.manned
  cases ht with
  | stay heq => rwa [heq]
  | filed hf r t fault stake hi hs hb =>
    exact .of_some hm hi (.new r t fault stake) fun hst => by cases hst
  | canceled hv x hx hst hi hs hb => exact .of_none hm hi
  | booked hv x hx c t hcan hi hs hb hh =>
    obtain ⟨-, hst, -, -⟩ := canBook_ok.1 hcan
    refine h.early hm hx hi ?_ ?_ rfl rfl rfl
    all_goals rcases hst with hst | hst <;> simp [hst]
  | encrypted hv x hx c hi hs hb hh =>
    obtain ⟨hconf, hvotes, hdis, hopen⟩ := h.sound x hx
    refine .of_some hm hi ⟨hconf, hvotes, hdis, hopen⟩ ?_
    rw [hh]
    exact h.binding x hx
  | hashed hv x hx c hash hnew hc hcan hi hs hb hh =>
    have hst := canSubmitHash_status hcan
    refine h.early hm hx hi ?_ ?_ rfl rfl rfl
    all_goals rcases hst with hst | hst <;> simp [hst]
  | revealed hv x hx c b m err hcan ho hi hs hb hh =>
    obtain ⟨hst, hc⟩ := canSubmitRaw_ok.1 hcan
    have hvote := h.vote_eq hinj hn hx hst ho
    have hsound := (h.sound x hx).addRaw hst hc hvote m err
    refine .of_some hm hi hsound fun _ c' hc' => ?_
    rw [hh]
    by_cases hcc : c' = c
    · -- the finding that is revealed now opens the hash
      subst hcc
      have hb' : decide (c' ∈ (x.addRaw c' b m err).supportCommittee) = b := by
        cases b with
        | true => exact decide_eq_true (mem_addItem.2 (.inl rfl))
        | false =>
          refine decide_eq_false fun hmem => ?_
          exact hsound.disjoint c' hmem (mem_addItem.2 (.inl rfl))
      have hsealed := ho.sealed hn
      rw [hb']
      exact hsealed
    · have hold : c' ∈ x.confirmedCommittee := (mem_addItem.1 hc').resolve_left hcc
      have hsame : c' ∈ (x.addRaw c b m err).supportCommittee ↔ c' ∈ x.supportCommittee := by
        cases b with
        | true => simp [MTReportInfoDetail.addRaw, hcc]
        | false => rfl
      rw [decide_eq_decide.2 hsame]
      exact h.binding x hx hst c' hold
  | started hv x hx hin hst hi hs hb hh =>
    refine h.early hm hx hi ?_ ?_ rfl rfl rfl
    all_goals rcases hst with hst | hst <;> simp [hst]
  | closed hv x hx hst hi hs hb hh =>
    refine .of_some hm hi (h.sound x hx) fun _ c hc => ?_
    rw [hh c hc]
    exact h.binding x hx hst c hc
  | concluded hv x hx hst hi hs hb =>
    exact .of_some hm hi ((h.sound x hx).setStatus (.inr rfl)) fun hraw => by cases hraw
  | late hv x hx hin hst hi hs hb =>
    exact h.early hm hx hi (by simp [hst]) (by simp [hst]) rfl rfl rfl
  | dropped hv x hx hin hst c hc hi hs hb hh =>
    exact h.early hm hx hi (by simp [hst]) (by simp [hst]) rfl rfl rfl
  | switched hv x hx hst hi hs hb hh =>
    exact h.early hm hx hi (by simp [hst]) (by simp [hst]) rfl rfl rfl
  | stranded hv x hx hsum hlate hst hi hs hb hh =>
    refine .of_some hm hi (h.sound x hx) ?_
    rw [hh]
    exact h.binding x hx
  | bereft hv x hx hsum hlate hst c hc hi hs hb hh =>
    obtain ⟨hconf, hvotes, hdis, hopen⟩ := h.sound x hx
    refine .of_some hm hi ⟨hconf, hvotes, hdis, hopen⟩ fun hraw c' hc' => ?_
    -- the committee that is dropped submitted no hash
    have hne : c' ≠ c := by
      rintro rfl
      exact (h.manned.joined x hx).verifying c' hc (hconf c' hc')
    rw [hh c' hne]
    exact h.binding x hx hraw c' hc'
  | decided hv x hx hsum hi hs hb hh => exact h.counted hm hx hi
  | stuck hv x hx hsum hc hle hk hi hs hb hh =>
    refine .of_some hm hi (h.sound x hx) ?_
    rw [hh]
    exact h.binding x hx
  | undecided hv x hx hsum he hi hs hb => exact h.counted hm hx hi

/-- The vote `b` of a committee was counted. -/
def Voted (c : A) (b : Bool) (f : File A) : Prop :=
  ∃ x, f.info = some x ∧ c ∈ x.confirmedCommittee ∧ (b = true ↔ c ∈ x.supportCommittee)

theorem Voted.of_eq (h : Voted c b f) (hx : f.info = some x) (hi : g.info = some y)
    (hc : y.confirmedCommittee = x.confirmedCommittee)
    (hs : y.supportCommittee = x.supportCommittee) : Voted c b g := by
  obtain ⟨z, hz, hmem, hvote⟩ := h
  cases hx.symm.trans hz
  exact ⟨y, hi, hc ▸ hmem, hs ▸ hvote⟩

theorem counted_votes (x : MTReportInfoDetail A) :
    (counted x).confirmedCommittee = x.confirmedCommittee ∧
      (counted x).supportCommittee = x.supportCommittee := by
  unfold counted
  split <;> exact ⟨rfl, rfl⟩

/-- **A vote that was counted stays as it was counted.** -/
theorem Turn.voted (ht : Turn v id f g) (h : Fair v.env n f)
    (hinj : Function.Injective v.env.blake2) (hn : ∀ r, v.allowed id r → r.errReason.length = n)
    (hvoted : Voted c b f) : Voted c b g := by
  cases ht with
  | stay heq => rwa [heq]
  | filed hf r t fault stake hi hs hb =>
    obtain ⟨x, hx, -⟩ := hvoted
    rw [hf.info] at hx
    cases hx
  | canceled hv x hx hst hi hs hb =>
    obtain ⟨y, hy, hmem, -⟩ := hvoted
    cases hx.symm.trans hy
    exact absurd hmem ((h.sound x hx).unopened (by simp [hst]) (by simp [hst]) c)
  | booked hv x hx c t hcan hi hs hb hh => exact hvoted.of_eq hx hi rfl rfl
  | encrypted hv x hx c hi hs hb hh => exact hvoted.of_eq hx hi rfl rfl
  | hashed hv x hx c hash hnew hc hcan hi hs hb hh => exact hvoted.of_eq hx hi rfl rfl
  | revealed hv x hx c' b' m err hcan ho hi hs hb hh =>
    obtain ⟨y, hy, hmem, hvote⟩ := hvoted
    cases hx.symm.trans hy
    refine ⟨_, hi, mem_addItem.2 (.inr hmem), hvote.trans ?_⟩
    cases b' with
    | false => rfl
    | true =>
      refine ⟨fun hs => mem_addItem.2 (.inr hs), fun hs => ?_⟩
      rcases mem_addItem.1 hs with rfl | hs
      · obtain ⟨hst, -⟩ := canSubmitRaw_ok.1 hcan
        exact (h.vote_eq hinj hn hx hst ho hmem).1 rfl
      · exact hs
  | started hv x hx hin hst hi hs hb hh => exact hvoted.of_eq hx hi rfl rfl
  | closed hv x hx hst hi hs hb hh => exact hvoted.of_eq hx hi rfl rfl
  | concluded hv x hx hst hi hs hb => exact hvoted.of_eq hx hi rfl rfl
  | late hv x hx hin hst hi hs hb => exact hvoted.of_eq hx hi rfl rfl
  | dropped hv x hx hin hst c hc hi hs hb hh => exact hvoted.of_eq hx hi rfl rfl
  | switched hv x hx hst hi hs hb hh => exact hvoted.of_eq hx hi rfl rfl
  | stranded hv x hx hsum hlate hst hi hs hb hh => exact hvoted.of_eq hx hi rfl rfl
  | bereft hv x hx hsum hlate hst c hc hi hs hb hh => exact hvoted.of_eq hx hi rfl rfl
  | decided hv x hx hsum hi hs hb hh =>
    exact hvoted.of_eq hx hi (counted_votes x).1 (counted_votes x).2
  | stuck hv x hx hsum hc hle hk hi hs hb hh => exact hvoted.of_eq hx hi rfl rfl
  | undecided hv x hx hsum he hi hs hb =>
    exact hvoted.of_eq hx hi (counted_votes x).1 (counted_votes x).2

end

/-! ## Runs -/

section

variable {errLen : Nat → Nat} {s s' : State A} {t : Block A} {op : Op A} {log : List (Deed A)}

/-- The error reasons of a report have one length. -/
def OneLength (errLen : Nat → Nat) (id : Nat) (r : RawInfo) : Prop :=
  r.errReason.length = errLen id

/-- Every error reason revealed for a report `id` has length `errLen id`, and fewer than `2 ^ 60`
reports were made. -/
def Steady (errLen : Nat → Nat) (t : Block A) (op : Op A) : Prop :=
  op.Reveals (OneLength errLen) ∧ 16 * t.state.desk.nextReportId ≤ u64Max

instance (errLen : Nat → Nat) (id : Nat) (r : RawInfo) : Decidable (OneLength errLen id r) :=
  inferInstanceAs (Decidable (_ = _))

instance (errLen : Nat → Nat) (t : Block A) (op : Op A) : Decidable (Steady errLen t op) :=
  inferInstanceAs (Decidable (_ ∧ _))

/-- Every file is fair, and the vote of each logged reveal is the one on its file. -/
structure Polled (env : Env) (errLen : Nat → Nat) (log : List (Deed A)) (s : State A) : Prop where
  fair : ∀ i, Fair env (errLen i) (s.desk.file i)
  voted : ∀ c i b, .vote c i b ∈ log → Voted c b (s.desk.file i)

theorem Polled.moves {v : Scene A} (h : Polled env errLen log s)
    (hinj : Function.Injective env.blake2) (henv : v.env = env) (hv : v.allowed = OneLength errLen)
    (hm : Moves v id s.desk s'.desk) : Polled env errLen log s' := by
  subst henv
  have hn : ∀ i r, v.allowed i r → r.errReason.length = errLen i := by
    intro i r hr
    rwa [hv] at hr
  exact ⟨fun i => (hm.turn i).fair (h.fair i) hinj (hn i),
    fun c i b hb => (hm.turn i).voted (h.fair i) hinj (hn i) (h.voted c i b hb)⟩

theorem Polled.apply (h : Polled env errLen log t.state) (hinj : Function.Injective env.blake2)
    (hf : t.state.desk.Fresh) (hc : Steady errLen t op) :
    Polled env errLen log (apply env t op).state ∧ (apply env t op).state.desk.Fresh := by
  obtain ⟨hr, hroom⟩ := hc
  by_cases hop : op = .endBlock
  · subst hop
    refine @onFinalize_settled A _ env (OneLength errLen) _ (fun _ => Polled env errLen log) _
      (fun id _ s s' _ _ hs hm => ?_) (fun id _ s s' _ _ hs hm => ?_) (fun _ hs => hs)
      (fun id s s' _ hs hm => ?_) h hf hroom
    all_goals exact hs.moves hinj rfl rfl hm.1
  · have hmax : t.state.desk.nextReportId ≠ u64Max := by
      intro heq
      rw [heq] at hroom
      revert hroom
      decide
    obtain ⟨id, hm⟩ : ∃ id, Moves (t.scene env (OneLength errLen) op) id t.state.desk
        (MaintainCommittee.apply env t op).state.desk := apply_moves hf hmax hop hr
    exact ⟨h.moves hinj rfl rfl hm, hm.fresh_desk hf⟩

variable {b : Bool}

theorem voted_addRaw {n : Nat} {g : File A} {m : Option MachineId} {err : Bytes} (hg : Fair env n g)
    (hi : g.info = some (x.addRaw c b m err)) : Voted c b g := by
  have hsound := hg.sound _ hi
  refine ⟨_, hi, mem_addItem.2 (.inl rfl), ?_⟩
  cases b with
  | true => exact ⟨fun _ => mem_addItem.2 (.inl rfl), fun _ => rfl⟩
  | false =>
    refine ⟨fun h => (by cases h), fun hmem => ?_⟩
    exact absurd (mem_addItem.2 (.inl rfl)) (hsound.disjoint c hmem)

theorem voted_of_deeds (hfair : ∀ i, Fair env (errLen i) ((apply env t op).state.desk.file i))
    {i : Nat} (h : .vote c i b ∈ deeds env t op) :
    Voted c b ((apply env t op).state.desk.file i) := by
  cases op with
  | committeeSubmitVerifyRaw c' i' r =>
    simp only [deeds, mem_ite_nil_right, mem_singleton, Deed.vote.injEq] at h
    obtain ⟨hacc, rfl, rfl, rfl⟩ := h
    obtain ⟨_, hr⟩ := run_of_isOk hacc
    obtain ⟨y, -, -, -, -, -, hs⟩ := committeeSubmitVerifyRaw_ok.1 hr
    have hinfo : ((committeeSubmitVerifyRaw env c i r).dispatch t.state).2.desk.info i =
        some (y.addRaw c r.supportReport (some r.machineId) r.errReason) := by
      rw [← hs]
      exact t.state.desk.reportInfo.get_insert_self _ _
    exact voted_addRaw (hfair i) hinfo
  | committeeSubmitInaccessibleRaw c' i' rand b' =>
    simp only [deeds, mem_ite_nil_right, mem_singleton, Deed.vote.injEq] at h
    obtain ⟨hacc, rfl, rfl, rfl⟩ := h
    obtain ⟨_, hr⟩ := run_of_isOk hacc
    obtain ⟨y, -, -, -, -, -, hs⟩ := committeeSubmitInaccessibleRaw_ok.1 hr
    have hinfo : ((committeeSubmitInaccessibleRaw env c i rand b).dispatch t.state).2.desk.info i =
        some (y.addRaw c b none []) := by
      rw [← hs]
      exact t.state.desk.reportInfo.get_insert_self _ _
    exact voted_addRaw (hfair i) hinfo
  | _ => simp [deeds] at h

theorem reach_polled (hinj : Function.Injective env.blake2) {p : Block A × List (Deed A)}
    (h : System.Reach (recorded env) (fun p => Steady errLen p.1) p) :
    Polled env errLen p.2 p.1.state ∧ p.1.state.desk.Fresh := by
  refine h.invariant (I := fun p => Polled env errLen p.2 p.1.state ∧ p.1.state.desk.Fresh) ?_ ?_
  · rintro ⟨t, log⟩ ⟨⟨-, hempty⟩, hlog⟩
    have hfresh : t.state.desk.Fresh := hempty ▸ fresh_empty
    refine ⟨⟨fun i => ?_, fun c i b hb => ?_⟩, hfresh⟩
    · have hblank := hfresh i (hempty ▸ Nat.zero_le i)
      exact .of_none (.of_none hblank.info hblank.booked) hblank.info
    · cases hlog
      cases hb
  · rintro ⟨t, log⟩ op ⟨t', log'⟩ ⟨hpoll, hf⟩ hc ⟨⟨-, rfl⟩, rfl⟩
    obtain ⟨hnew, hfresh⟩ := hpoll.apply hinj hf hc
    refine ⟨⟨hnew.fair, fun c i b hb => ?_⟩, hfresh⟩
    rcases mem_append.1 hb with hb | hb
    · exact hnew.voted c i b hb
    · exact voted_of_deeds hnew.fair hb

/-- **Votes on faults are binding and counted once**, as long as the error reasons revealed for a
report have one length. -/
theorem votes_binding (hinj : Function.Injective env.blake2) {p : Block A × List (Deed A)}
    (h : System.Reach (recorded env) (fun p => Steady errLen p.1) p) :
    (∀ id x, p.1.state.desk.info id = some x → (∀ c ∈ x.supportCommittee, c ∉ x.againstCommittee) ∧
      (∀ c, c ∈ x.confirmedCommittee ↔ c ∈ x.supportCommittee ∨ c ∈ x.againstCommittee) ∧ (∀ c ∈
      x.confirmedCommittee, c ∈ x.hashedCommittee) ∧ ∀ c ∈ x.hashedCommittee, c ∈ x.bookedCommittee)
      ∧
    ∀ c id b b', .vote c id b ∈ p.2 → .vote c id b' ∈ p.2 → b = b' := by
  obtain ⟨hpoll, -⟩ := reach_polled hinj h
  refine ⟨fun id x hx => ?_, fun c id b b' hb hb' => ?_⟩
  · have hsound := (hpoll.fair id).sound x hx
    have hjoined := (hpoll.fair id).manned.joined x hx
    exact ⟨hsound.disjoint, hsound.votes, hsound.confirmed, hjoined.hashed⟩
  · obtain ⟨x, hx, -, hvote⟩ := hpoll.voted c id b hb
    obtain ⟨y, hy, -, hvote'⟩ := hpoll.voted c id b' hb'
    cases hx.symm.trans hy
    exact Bool.eq_iff_iff.2 (hvote.trans hvote'.symm)

end

end

/-! ## A run -/

namespace VoteDemo

/-- A hash function without collisions. -/
def env : Env := ⟨id⟩

def committees : SortedVec Nat := SortedVec.expandToOrder ∅ [11, 12, 13]

def stake : Committee.CommitteeStakeInfo := ⟨1000, 0, 0, 0⟩

def start : Block Nat where
  state := .fresh
    { toProfile := .fresh
        { now := 2
          balances := ⟨(∅ : StorageMap Nat AccountData).insert 5 ⟨1000, 0, 0⟩⟩
          fixedTxFee := some 1
          dbcPrice := some
          committee := ⟨committees, ∅, ∅, ∅⟩
          committeeStakeParams := some ⟨100, 10, .zero⟩
          committeeStake := ((((∅ : StorageMap Nat Committee.CommitteeStakeInfo).insert 11
            stake).insert 12 stake).insert 13 stake) }
      book := ⟨∅, 0, ∅, ∅, ∅, ∅⟩
      userTotalStake := ∅
      rentFeePot := none
      maximumRentalDuration := 60
      machineRenterRentedOrders := ∅ }
  ended := false

/-- What the committee 11 hashes reads as a vote for the report with the error reason `0`, and as a
vote against it with no error reason. -/
def finding (isSupport : Bool) : RawInfo where
  machineId := []
  rentOrderId := 0
  reporterRandStr := if isSupport then [] else [byte 48]
  committeeRandStr := if isSupport then [byte 48] else [byte 49]
  errReason := if isSupport then [byte 48] else []
  extraErrInfo := []
  supportReport := isSupport

def hashOf (c : Nat) : Bytes :=
  if c = 11 then getHash env (finding true).committeeParts else [byte c]

def verify (c : Nat) : List (Op Nat) :=
  [.committeeBookReport c 0, .reporterAddEncryptedErrorInfo 5 0 c [], .committeeSubmitVerifyHash c 0
    (hashOf c)]

def prepare : List (Op Nat) :=
  [.setReporterStakeParams ⟨100, 10, .zero⟩,
    .reportMachineFault 5
    (.rentedHardwareMalfunction (getHash env (finding true).reporterParts))] ++
    [11, 12, 13].flatMap verify

def reveal (isSupport : Bool) : Op Nat := .committeeSubmitVerifyRaw 11 0 (finding isSupport)

def next (p : Block Nat × List (Deed Nat)) (op : Op Nat) : Block Nat × List (Deed Nat) :=
  (apply env p.1 op, p.2 ++ deeds env p.1 op)

theorem reach_next {C : Block Nat × List (Deed Nat) → Op Nat → Prop} {l : List (Op Nat)}
    (hl : System.Path next (fun p op => C p op ∧ op.Possible p.1) l (start, [])) :
    System.Reach (recorded env) C (l.foldl next (start, [])) := by
  have hinit : (recorded env).init (start, ([] : List (Deed Nat))) := ⟨⟨rfl, rfl⟩, rfl⟩
  exact (System.Reach.init hinit).path (fun _ _ h => ⟨h.1, ⟨h.2, rfl⟩, rfl⟩) hl

def revealed : Block Nat × List (Deed Nat) := (prepare ++ [reveal true]).foldl next (start, [])

/-- The committee 11 reveals its finding, and reveals it again as a vote against the report. -/
def revealedTwice : Block Nat × List (Deed Nat) :=
  (prepare ++ [reveal true, reveal false]).foldl next (start, [])

end VoteDemo

open VoteDemo in
theorem votes_binding_demo :
    System.Reach (recorded env) (fun p => Steady (fun _ => 1) p.1) revealed ∧
      .vote 11 0 true ∈ revealed.2 ∧ ∀ b, .vote 11 0 b ∈ revealed.2 → b = true := by
  have hreach : System.Reach (recorded env) (fun p => Steady (fun _ => 1) p.1) revealed :=
    reach_next (by decide +kernel)
  have hvote : .vote 11 0 true ∈ revealed.2 := by decide +kernel
  refine ⟨hreach, hvote, fun b hb => ?_⟩
  exact (votes_binding Function.injective_id hreach).2 11 0 b true hb hvote

open VoteDemo in
/-- One hash opens to a vote for a report and to a vote against it, and both are counted. -/
theorem one_hash_two_votes :
    ∃ (env : Env) (p : Block Nat × List (Deed Nat)), Function.Injective env.blake2 ∧
      System.Reach (recorded env) (fun _ _ => True) p ∧
      .vote 11 0 true ∈ p.2 ∧ .vote 11 0 false ∈ p.2 ∧
      ∃ x, p.1.state.desk.info 0 = some x ∧ 11 ∈ x.supportCommittee ∧
        11 ∈ x.againstCommittee := by
  have hboth : (revealedTwice.1.state.desk.info 0).map (fun x =>
      decide (11 ∈ x.supportCommittee ∧ 11 ∈ x.againstCommittee)) = some true := by decide +kernel
  obtain ⟨x, hx, hmem⟩ := Option.map_eq_some_iff.1 hboth
  exact ⟨env, revealedTwice, Function.injective_id, reach_next (by decide +kernel),
    by decide +kernel, by decide +kernel, x, hx, of_decide_eq_true hmem⟩

end DeepBrainChain.MaintainCommittee
