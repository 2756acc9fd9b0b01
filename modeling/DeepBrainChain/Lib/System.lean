import Mathlib.Tactic.Common

/-!
# Runs of a state machine

A system has initial states and labelled steps. `Reach C` collects the states of the runs in which
every step taken meets the condition `C` on the state before it; `Reach` with the trivial condition
is plain reachability.
-/

namespace DeepBrainChain.Lib

/-- The chain within a block; `ended` says that the hook at its end has run. -/
structure Block (σ : Type) where
  state : σ
  ended : Bool

/-- A state machine with states `σ` and step labels `ι`. -/
structure System (σ ι : Type) where
  init : σ → Prop
  step : σ → ι → σ → Prop

namespace System

variable {σ ι : Type} {S : System σ ι} {C D : σ → ι → Prop} {I : σ → Prop} {s s' : σ} {i : ι}

/-- The states of the runs of `S` whose steps all meet `C`. -/
inductive Reach (S : System σ ι) (C : σ → ι → Prop) : σ → Prop
  | init {s : σ} : S.init s → Reach S C s
  | step {s s' : σ} {i : ι} : Reach S C s → C s i → S.step s i s' → Reach S C s'

/-- **Invariant rule.** -/
theorem Reach.invariant (h : Reach S C s) (hinit : ∀ s, S.init s → I s)
    (hstep : ∀ s i s', I s → C s i → S.step s i s' → I s') : I s := by
  induction h with
  | init h0 => exact hinit _ h0
  | step _ hc hs ih => exact hstep _ _ _ ih hc hs

theorem Reach.mono (h : Reach S C s) (hCD : ∀ s i, C s i → D s i) : Reach S D s := by
  induction h with
  | init h0 => exact .init h0
  | step _ hc hs ih => exact .step ih (hCD _ _ hc) hs

/-- Each of the steps `l`, taken from `s` on by `f`, meets `P`. -/
def Path (f : σ → ι → σ) (P : σ → ι → Prop) : List ι → σ → Prop
  | [], _ => True
  | i :: l, s => P s i ∧ Path f P l (f s i)

instance Path.decidable {f : σ → ι → σ} {P : σ → ι → Prop} [∀ s i, Decidable (P s i)] :
    ∀ (l : List ι) (s : σ), Decidable (Path f P l s)
  | [], _ => isTrue trivial
  | i :: l, s =>
    have := Path.decidable (f := f) (P := P) l (f s i)
    inferInstanceAs (Decidable (P s i ∧ Path f P l (f s i)))

/-- A path of steps that meet the condition ends in a state of a run. -/
theorem Reach.path {f : σ → ι → σ} {P : σ → ι → Prop} {l : List ι} (h : Reach S C s)
    (hf : ∀ s i, P s i → C s i ∧ S.step s i (f s i)) (hl : Path f P l s) :
    Reach S C (l.foldl f s) := by
  induction l generalizing s with
  | nil => exact h
  | cons i l ih =>
    obtain ⟨hi, hl⟩ := hl
    obtain ⟨hc, hs⟩ := hf s i hi
    exact ih (.step h hc hs) hl

theorem Path.take {f : σ → ι → σ} {P : σ → ι → Prop} {l : List ι} (hl : Path f P l s) (n : Nat) :
    Path f P (l.take n) s := by
  induction l generalizing s n with
  | nil =>
    rw [List.take_nil]
    exact hl
  | cons i l ih =>
    cases n with
    | zero => trivial
    | succ n => exact ⟨hl.1, ih hl.2 n⟩

theorem Path.of_forall {f : σ → ι → σ} {P : σ → ι → Prop} {l : List ι}
    (h : ∀ i ∈ l, ∀ s, P s i) (s : σ) : Path f P l s := by
  induction l generalizing s with
  | nil => trivial
  | cons i l ih =>
    refine ⟨h i (List.mem_cons_self ..) s, ih (fun j hj => h j (List.mem_cons_of_mem _ hj)) _⟩

/-! ## Logs -/

section Log

variable {κ : Type} {note : σ → ι → List κ} {p : σ × List κ}

/-- The system with a log, to which a step appends what `note` reads off the state before it. -/
def logged (S : System σ ι) (note : σ → ι → List κ) : System (σ × List κ) ι where
  init p := S.init p.1 ∧ p.2 = []
  step p i p' := S.step p.1 i p'.1 ∧ p'.2 = p.2 ++ note p.1 i

theorem Reach.unlog (h : Reach (S.logged note) (fun p => C p.1) p) : Reach S C p.1 := by
  induction h with
  | init h0 => exact .init h0.1
  | step _ hc hs ih => exact .step ih hc hs.1

/-- **At most once.** If a step notes only what was open before it and is closed after it, and
what is closed stays closed, then nothing is noted twice in a run. -/
theorem Reach.log_nodup {K : σ → κ → Prop} (h : Reach (S.logged note) (fun p => C p.1) p)
    (hstay : ∀ s i s', Reach S C s → C s i → S.step s i s' → ∀ k, K s k → K s' k)
    (hnote : ∀ s i s', Reach S C s → C s i → S.step s i s' →
      (note s i).Nodup ∧ ∀ k ∈ note s i, ¬ K s k ∧ K s' k) :
    p.2.Nodup ∧ ∀ k ∈ p.2, K p.1 k := by
  induction h with
  | init h0 => simp [h0.2]
  | @step p p' i hp hc hs ih =>
    obtain ⟨hstep, hlog⟩ := hs
    obtain ⟨hnodup, hclosed⟩ := ih
    obtain ⟨hnew, hopen⟩ := hnote p.1 i p'.1 hp.unlog hc hstep
    rw [hlog]
    refine ⟨List.nodup_append.2 ⟨hnodup, hnew, ?_⟩, fun k hk => ?_⟩
    · rintro k hk _ hk' rfl
      exact (hopen k hk').1 (hclosed k hk)
    · rcases List.mem_append.1 hk with hk | hk
      · exact hstay p.1 i p'.1 hp.unlog hc hstep k (hclosed k hk)
      · exact (hopen k hk).2

end Log

end System

end DeepBrainChain.Lib
