import Mathlib.Logic.Basic
import Mathlib.Tactic.Common

/-!
# Fallible calls that keep their writes

A call reads and writes a storage and either returns a value or stops with an error. An error does
not undo the writes made before it: that is what a block hook that ignores an error sees. A
dispatched call (`dispatch`) is the same program run as a transaction, where an error leaves the
storage as it was.

`run_bind_ok` and its companions invert a successful run step by step; they are what a proof about a
transaction uses. `Post` speaks about both outcomes and is what a proof about a hook uses; `Keeps`
is its invariant form.
-/

namespace DeepBrainChain.Lib

/-- A program over the storage `σ` with errors in `ε`; the storage is returned in both cases. -/
def Call (σ ε α : Type) : Type := σ → Except ε α × σ

namespace Call

variable {σ τ ε ε' α β γ : Type}

def run (c : Call σ ε α) (s : σ) : Except ε α × σ := c s

instance : Monad (Call σ ε) where
  pure a := fun s => (.ok a, s)
  bind c f := fun s =>
    match c s with
    | (.ok a, s') => f a s'
    | (.error e, s') => (.error e, s')

def get : Call σ ε σ := fun s => (.ok s, s)

def set (s' : σ) : Call σ ε Unit := fun _ => (.ok (), s')

def modify (f : σ → σ) : Call σ ε Unit := fun s => (.ok (), f s)

def throw (e : ε) : Call σ ε α := fun s => (.error e, s)

def ensure (p : Prop) [Decidable p] (e : ε) : Call σ ε Unit := fun s =>
  (if p then .ok () else .error e, s)

def okOr (o : Option α) (e : ε) : Call σ ε α := fun s =>
  (match o with
    | some a => .ok a
    | none => .error e, s)

def when (p : Prop) [Decidable p] (c : Call σ ε Unit) : Call σ ε Unit :=
  if p then c else Pure.pure ()

/-- Run `c` on the value of an option, if there is one. -/
def whenSome (o : Option α) (c : α → Call σ ε Unit) : Call σ ε Unit :=
  match o with
  | some a => c a
  | none => Pure.pure ()

/-- Run `c` and hand its outcome on as a value; the writes made before an error stay. -/
def attempt (c : Call σ ε α) : Call σ ε' (Except ε α) := fun s => (.ok (c s).1, (c s).2)

def ignore (c : Call σ ε α) : Call σ ε' Unit := fun s => (.ok (), (c s).2)

def mapError (f : ε → ε') (c : Call σ ε α) : Call σ ε' α := fun s =>
  match c s with
  | (.ok a, s') => (.ok a, s')
  | (.error e, s') => (.error (f e), s')

/-- Run `c` for each element in turn, stopping at the first error. -/
def forEach (l : List β) (c : β → Call σ ε Unit) : Call σ ε Unit :=
  match l with
  | [] => Pure.pure ()
  | b :: l => Bind.bind (c b) fun _ => forEach l c

/-- Run `c` on a part of the storage: `view` reads the part and `put` writes it back. -/
def zoom (view : σ → τ) (put : τ → σ → σ) (c : Call τ ε α) : Call σ ε α := fun s =>
  ((c (view s)).1, put (c (view s)).2 s)

/-- Run `c` as a transaction: an error leaves the storage as it was. -/
def dispatch (c : Call σ ε α) (s : σ) : Except ε α × σ :=
  match c.run s with
  | (.ok a, s') => (.ok a, s')
  | (.error e, _) => (.error e, s)

/-! ## Runs -/

@[simp] theorem run_pure (a : α) (s : σ) : (Pure.pure a : Call σ ε α).run s = (.ok a, s) := rfl

theorem run_bind (c : Call σ ε α) (f : α → Call σ ε β) (s : σ) :
    (c >>= f).run s = match c.run s with
      | (.ok a, s') => (f a).run s'
      | (.error e, s') => (.error e, s') := rfl

theorem bind_bind (c : Call σ ε α) (f : α → Call σ ε β) (g : β → Call σ ε γ) :
    c >>= f >>= g = c >>= fun a => f a >>= g := by
  funext s
  show (c >>= f >>= g).run s = (c >>= fun a => f a >>= g).run s
  rcases hc : c.run s with ⟨_ | a, s'⟩ <;> simp only [run_bind, hc]

@[simp] theorem run_get (s : σ) : (get : Call σ ε σ).run s = (.ok s, s) := rfl

@[simp] theorem run_set (s s' : σ) : (set s' : Call σ ε Unit).run s = (.ok (), s') := rfl

@[simp] theorem run_modify (f : σ → σ) (s : σ) :
    (modify f : Call σ ε Unit).run s = (.ok (), f s) := rfl

@[simp] theorem run_throw (e : ε) (s : σ) : (throw e : Call σ ε α).run s = (.error e, s) := rfl

theorem run_ensure (p : Prop) [Decidable p] (e : ε) (s : σ) :
    (ensure p e : Call σ ε Unit).run s = (if p then .ok () else .error e, s) := rfl

@[simp] theorem run_okOr_some (a : α) (e : ε) (s : σ) :
    (okOr (some a) e : Call σ ε α).run s = (.ok a, s) := rfl

@[simp] theorem run_ite (p : Prop) [Decidable p] (c d : Call σ ε α) (s : σ) :
    (if p then c else d).run s = if p then c.run s else d.run s := by
  split <;> rfl

@[simp] theorem run_ignore (c : Call σ ε α) (s : σ) :
    (ignore c : Call σ ε' Unit).run s = (.ok (), (c.run s).2) := rfl

@[simp] theorem run_attempt (c : Call σ ε α) (s : σ) :
    (attempt c : Call σ ε' _).run s = (.ok (c.run s).1, (c.run s).2) := rfl

theorem run_mapError (f : ε → ε') (c : Call σ ε α) (s : σ) :
    (mapError f c).run s = match c.run s with
      | (.ok a, s') => (.ok a, s')
      | (.error e, s') => (.error (f e), s') := rfl

theorem run_zoom (view : σ → τ) (put : τ → σ → σ) (c : Call τ ε α) (s : σ) :
    (zoom view put c).run s = ((c.run (view s)).1, put (c.run (view s)).2 s) := rfl

@[simp] theorem run_forEach_nil (c : β → Call σ ε Unit) (s : σ) :
    (forEach [] c).run s = (.ok (), s) := rfl

theorem forEach_cons (b : β) (l : List β) (c : β → Call σ ε Unit) :
    forEach (b :: l) c = (c b >>= fun _ => forEach l c) := rfl

variable {c : Call σ ε α} {f : α → Call σ ε β} {s' : σ} {a : α} {p : Prop} {e : ε} {u : Unit}
  {o : Option α} {l : List β}

theorem run_bind_of_ok {s : σ} (h : c.run s = (.ok a, s')) : (c >>= f).run s = (f a).run s' := by
  rw [run_bind, h]

/-! ## Inverting a successful run -/

theorem run_bind_ok {s : σ} {b : β} :
    (c >>= f).run s = (.ok b, s') ↔
      ∃ a s1, c.run s = (.ok a, s1) ∧ (f a).run s1 = (.ok b, s') := by
  rw [run_bind]
  constructor
  · intro h
    split at h
    · next a s1 hc => exact ⟨a, s1, hc, h⟩
    · cases h
  · rintro ⟨a, s1, hc, hf⟩
    rw [hc]
    exact hf

@[simp] theorem run_ensure_ok [Decidable p] {s : σ} :
    (ensure p e : Call σ ε Unit).run s = (.ok u, s') ↔ p ∧ s = s' := by
  rw [run_ensure]
  by_cases h : p <;> simp [h]

@[simp] theorem run_okOr_ok {s : σ} :
    (okOr o e : Call σ ε α).run s = (.ok a, s') ↔ o = some a ∧ s = s' := by
  cases o <;> simp [okOr, run]

theorem run_when_ok [Decidable p] {c : Call σ ε Unit} {s : σ} :
    (when p c).run s = (.ok u, s') ↔ (p ∧ c.run s = (.ok u, s')) ∨ (¬p ∧ s = s') := by
  by_cases h : p <;> simp [when, h]

theorem run_whenSome_ok {c : α → Call σ ε Unit} {s : σ} :
    (whenSome o c).run s = (.ok u, s') ↔
      (∃ a, o = some a ∧ (c a).run s = (.ok u, s')) ∨ (o = none ∧ s = s') := by
  cases o <;> simp [whenSome]

theorem run_mapError_ok {f : ε → ε'} {s : σ} :
    (mapError f c).run s = (.ok a, s') ↔ c.run s = (.ok a, s') := by
  rw [run_mapError]
  rcases c.run s with ⟨_ | _, _⟩ <;> simp

theorem run_zoom_ok {view : σ → τ} {put : τ → σ → σ} {c : Call τ ε α} {s : σ} :
    (zoom view put c).run s = (.ok a, s') ↔ ∃ t, c.run (view s) = (.ok a, t) ∧ put t s = s' := by
  rw [run_zoom]
  rcases c.run (view s) with ⟨_ | _, t⟩ <;> simp

/-- The rules above as one set for `simp only`: a successful run is taken apart step by step. -/
theorem run_ok :
    (∀ {σ ε α β : Type} {c : Call σ ε α} {f : α → Call σ ε β} {s s' : σ} {b : β}, (c >>= f).run s =
      (.ok b, s') ↔ ∃ a s1, c.run s = (.ok a, s1) ∧ (f a).run s1 = (.ok b, s')) ∧
    (∀ {σ ε α : Type} (a : α) (s : σ), (Pure.pure a : Call σ ε α).run s = (.ok a, s)) ∧
    (∀ {σ ε : Type} (s : σ), (get : Call σ ε σ).run s = (.ok s, s)) ∧
    (∀ {σ ε : Type} (s s' : σ), (set s' : Call σ ε Unit).run s = (.ok (), s')) ∧
    (∀ {σ ε : Type} (f : σ → σ) (s : σ), (modify f : Call σ ε Unit).run s = (.ok (), f s)) ∧
    (∀ {σ ε : Type} {p : Prop} [Decidable p] {e : ε} {s s' : σ} {u : Unit},
      (ensure p e : Call σ ε Unit).run s = (.ok u, s') ↔ p ∧ s = s') ∧
    (∀ {σ ε α : Type} {o : Option α} {e : ε} {s s' : σ} {a : α},
      (okOr o e : Call σ ε α).run s = (.ok a, s') ↔ o = some a ∧ s = s') ∧
    (∀ {σ ε ε' α : Type} {f : ε → ε'} {c : Call σ ε α} {s s' : σ} {a : α},
      (mapError f c).run s = (.ok a, s') ↔ c.run s = (.ok a, s')) ∧
    (∀ {ε α σ : Type} (a b : α) (s s' : σ),
      ((.ok a : Except ε α), s) = (.ok b, s') ↔ a = b ∧ s = s') ∧
    (∀ {ε α σ : Type} (e : ε) (b : α) (s s' : σ),
      ((.error e : Except ε α), s) = (.ok b, s') ↔ False) ∧
    (∀ {α : Type} {p : α → Prop} {a : α}, (∃ b, a = b ∧ p b) ↔ p a) ∧
    (∀ {a b c : Prop}, (a ∧ b) ∧ c ↔ a ∧ b ∧ c) ∧
    (∀ {α : Type} {p : α → Prop} {b : Prop}, (∃ x, b ∧ p x) ↔ b ∧ ∃ x, p x) ∧
    (∀ {α : Type} [Nonempty α] {b : Prop}, (∃ _ : α, b) ↔ b) ∧ ∀ (p : Prop), (True ∧ p) = p :=
  ⟨run_bind_ok, run_pure, run_get, run_set, run_modify, run_ensure_ok, run_okOr_ok, run_mapError_ok,
    fun _ _ _ _ => by simp, fun _ _ _ _ => by simp, exists_eq_left', and_assoc, exists_and_left, exists_const _, true_and⟩

/-- A transaction either committed a successful run or changed nothing. -/
theorem dispatch_cases (c : Call σ ε α) (s : σ) :
    (∃ a, c.run s = (.ok a, (c.dispatch s).2)) ∨ (c.dispatch s).2 = s := by
  unfold dispatch
  split
  · next a s' h => exact .inl ⟨a, h⟩
  · exact .inr rfl

theorem run_of_isOk {s : σ} (h : (c.run s).1.isOk = true) :
    ∃ a, c.run s = (.ok a, (c.dispatch s).2) := by
  unfold dispatch
  split
  · next a s' hr => exact ⟨a, hr⟩
  · next e s' hr =>
    rw [hr] at h
    cases h

/-! ## Both outcomes -/

/-- `Q` holds of the value and the storage if `c` returns, and `E` of the error and the storage
if it stops. -/
def Post (c : Call σ ε α) (s : σ) (Q : α → σ → Prop) (E : ε → σ → Prop) : Prop :=
  match c.run s with
  | (.ok a, s') => Q a s'
  | (.error e, s') => E e s'

section Post

variable {Q Q' : α → σ → Prop} {E E' : ε → σ → Prop} {s : σ}

variable {a : α} {s' : σ} {e : ε} {p : Prop} {c : Call σ ε α}

@[simp] theorem post_pure : Post (Pure.pure a) s Q E ↔ Q a s := Iff.rfl

@[simp] theorem post_get {Q : σ → σ → Prop} : Post get s Q E ↔ Q s s := Iff.rfl

@[simp] theorem post_set {Q : Unit → σ → Prop} : Post (set s') s Q E ↔ Q () s' := Iff.rfl

@[simp] theorem post_modify {Q : Unit → σ → Prop} {f : σ → σ} :
    Post (modify f) s Q E ↔ Q () (f s) := Iff.rfl

@[simp] theorem post_throw : Post (throw e) s Q E ↔ E e s := Iff.rfl

@[simp] theorem post_bind {c : Call σ ε β} {f : β → Call σ ε α} :
    Post (c >>= f) s Q E ↔ Post c s (fun b s' => Post (f b) s' Q E) E := by
  unfold Post
  rw [run_bind]
  split <;> split <;> simp_all

@[simp] theorem post_ensure {Q : Unit → σ → Prop} [Decidable p] :
    Post (ensure p e) s Q E ↔ (p → Q () s) ∧ (¬p → E e s) := by
  unfold Post
  rw [run_ensure]
  by_cases h : p <;> simp [h]

@[simp] theorem post_okOr {o : Option α} :
    Post (okOr o e) s Q E ↔ (∀ a, o = some a → Q a s) ∧ (o = none → E e s) := by
  cases o <;> simp [Post, okOr, run]

/-- The rules above as one set for `simp only`: both outcomes of a call, step by step. -/
theorem post_step :
    (∀ {σ ε α β : Type} {s : σ} {Q : α → σ → Prop} {E : ε → σ → Prop} {c : Call σ ε β} {f : β → Call
      σ ε α}, Post (c >>= f) s Q E ↔ Post c s (fun b s' => Post (f b) s' Q E) E) ∧
    (∀ {σ ε α : Type} {s : σ} {Q : α → σ → Prop} {E : ε → σ → Prop} {a : α},
      Post (Pure.pure a) s Q E ↔ Q a s) ∧
    (∀ {σ ε : Type} {s : σ} {Q : σ → σ → Prop} {E : ε → σ → Prop}, Post get s Q E ↔ Q s s) ∧
    (∀ {σ ε : Type} {s s' : σ} {Q : Unit → σ → Prop} {E : ε → σ → Prop},
      Post (set s') s Q E ↔ Q () s') ∧
    (∀ {σ ε : Type} {s : σ} {Q : Unit → σ → Prop} {E : ε → σ → Prop} {f : σ → σ},
      Post (modify f) s Q E ↔ Q () (f s)) ∧
    (∀ {σ ε : Type} {s : σ} {Q : Unit → σ → Prop} {E : ε → σ → Prop} {p : Prop} [Decidable p]
      {e : ε}, Post (ensure p e) s Q E ↔ (p → Q () s) ∧ (¬p → E e s)) ∧
    ∀ {σ ε α : Type} {s : σ} {Q : α → σ → Prop} {E : ε → σ → Prop} {o : Option α} {e : ε},
      Post (okOr o e) s Q E ↔ (∀ a, o = some a → Q a s) ∧ (o = none → E e s) :=
  ⟨post_bind, post_pure, post_get, post_set, post_modify, post_ensure, post_okOr⟩

theorem post_ite [Decidable p] {d : Call σ ε α} :
    Post (if p then c else d) s Q E ↔ (p → Post c s Q E) ∧ (¬p → Post d s Q E) := by
  by_cases h : p <;> simp [h]

@[simp] theorem post_when {Q : Unit → σ → Prop} [Decidable p] {c : Call σ ε Unit} :
    Post (when p c) s Q E ↔ (p → Post c s Q E) ∧ (¬p → Q () s) := by
  unfold when
  rw [post_ite, post_pure]

@[simp] theorem post_whenSome {Q : Unit → σ → Prop} {o : Option β} {c : β → Call σ ε Unit} :
    Post (whenSome o c) s Q E ↔ (∀ b, o = some b → Post (c b) s Q E) ∧ (o = none → Q () s) := by
  cases o <;> simp [whenSome]

@[simp] theorem post_ignore {Q : Unit → σ → Prop} {E : ε' → σ → Prop} :
    Post (ignore c : Call σ ε' Unit) s Q E ↔ Post c s (fun _ => Q ()) (fun _ => Q ()) := by
  unfold Post
  rw [run_ignore]
  rcases c.run s with ⟨_ | _, _⟩ <;> rfl

@[simp] theorem post_mapError {E : ε' → σ → Prop} {f : ε → ε'} :
    Post (mapError f c) s Q E ↔ Post c s Q (fun e => E (f e)) := by
  unfold Post
  rw [run_mapError]
  rcases c.run s with ⟨_ | _, _⟩ <;> rfl

@[simp] theorem post_attempt {Q : Except ε α → σ → Prop} {E : ε' → σ → Prop} :
    Post (attempt c : Call σ ε' _) s Q E ↔
      Post c s (fun a => Q (.ok a)) (fun e => Q (.error e)) := by
  unfold Post
  rw [run_attempt]
  rcases c.run s with ⟨_ | _, _⟩ <;> rfl

@[simp] theorem post_zoom {view : σ → τ} {put : τ → σ → σ} {c : Call τ ε α} :
    Post (zoom view put c) s Q E ↔
      Post c (view s) (fun a t => Q a (put t s)) (fun e t => E e (put t s)) := by
  unfold Post
  rw [run_zoom]
  rcases c.run (view s) with ⟨_ | _, _⟩ <;> rfl

theorem Post.mono (h : Post c s Q E) (hQ : ∀ a s', Q a s' → Q' a s')
    (hE : ∀ e s', E e s' → E' e s') : Post c s Q' E' := by
  unfold Post at *
  split at h
  · exact hQ _ _ h
  · exact hE _ _ h

theorem Post.and (h : Post c s Q E) (h' : Post c s Q' E') :
    Post c s (fun a s' => Q a s' ∧ Q' a s') (fun e s' => E e s' ∧ E' e s') := by
  unfold Post at h h' ⊢
  rcases hr : c.run s with ⟨_ | _, _⟩ <;> rw [hr] at h h' <;> exact ⟨h, h'⟩

theorem Post.ok (h : Post c s Q E) (hr : c.run s = (.ok a, s')) : Q a s' := by
  unfold Post at h
  rw [hr] at h
  exact h

theorem Post.error (h : Post c s Q E) (hr : (c.run s).1 = .error e) : E e (c.run s).2 := by
  unfold Post at h
  split at h <;> simp_all

/-- Every call returns or fails. -/
theorem post_true (c : Call σ ε α) (s : σ) : Post c s (fun _ _ => True) (fun _ _ => True) := by
  unfold Post
  split <;> trivial

theorem Post.of_run {I : σ → Prop} (h : I (c.run s).2) : Post c s (fun _ => I) (fun _ => I) := by
  unfold Post
  split <;> simp_all

theorem Post.storage {I : σ → Prop} (h : Post c s (fun _ => I) (fun _ => I)) : I (c.run s).2 := by
  unfold Post at h
  split at h <;> simp_all

end Post

/-- `c` preserves `I` whether it returns or stops. -/
def Keeps (I : σ → Prop) (c : Call σ ε α) : Prop :=
  ∀ s, I s → Post c s (fun _ => I) (fun _ => I)

theorem Keeps.run {I : σ → Prop} (h : Keeps I c) {s : σ} (hs : I s) :
    I (c.run s).2 := (h s hs).storage

/-- A transaction keeps what its successful runs keep. -/
theorem dispatch_keeps {I : σ → Prop} {s : σ} (hs : I s)
    (h : ∀ a s', c.run s = (.ok a, s') → I s') : I (c.dispatch s).2 := by
  rcases dispatch_cases c s with ⟨a, ha⟩ | he
  · exact h a _ ha
  · rw [he]
    exact hs

theorem Keeps.forEach {I : σ → Prop} {c : β → Call σ ε Unit}
    (h : ∀ b ∈ l, Keeps I (c b)) : Keeps I (forEach l c) := by
  induction l with
  | nil =>
    intro s hs
    exact hs
  | cons b l ih =>
    intro s hs
    rw [forEach_cons, post_bind]
    refine (h b List.mem_cons_self s hs).mono (fun _ s' hs' => ?_) (fun _ _ hs' => hs')
    exact ih (fun b' hb' => h b' (List.mem_cons_of_mem _ hb')) s' hs'

theorem forEach_ok {I : σ → Prop} {c : β → Call σ ε Unit} {s : σ}
    (h : ∀ b ∈ l, ∀ s s', I s → (c b).run s = (.ok (), s') → I s') (hs : I s)
    (hr : (forEach l c).run s = (.ok u, s')) : I s' := by
  induction l generalizing s with
  | nil =>
    rw [run_forEach_nil] at hr
    cases hr
    exact hs
  | cons b l ih =>
    rw [forEach_cons, run_bind_ok] at hr
    obtain ⟨_, s1, hb, hl⟩ := hr
    exact ih (fun b' hb' => h b' (List.mem_cons_of_mem b hb'))
      (h b List.mem_cons_self s s1 hs hb) hl

/-- A loop each round of which succeeds; `I` knows what is left to do. -/
theorem run_forEach {I : List β → σ → Prop} {c : β → Call σ ε Unit}
    (h : ∀ b l s, I (b :: l) s → ∃ s', (c b).run s = (.ok (), s') ∧ I l s') {s : σ}
    (hs : I l s) : ∃ s', (forEach l c).run s = (.ok (), s') ∧ I [] s' := by
  induction l generalizing s with
  | nil => exact ⟨s, rfl, hs⟩
  | cons b l ih =>
    obtain ⟨s1, hrun, h1⟩ := h b l s hs
    obtain ⟨s2, hrest, h2⟩ := ih h1
    exact ⟨s2, by rw [forEach_cons, run_bind_of_ok hrun, hrest], h2⟩

section Keeps

variable {I : σ → Prop}

variable {c : Call σ ε α} {f : β → Call σ ε α} {o : Option β} {e : ε} {p : Prop}

theorem Keeps.ignore (h : Keeps I c) : Keeps I (Call.ignore c : Call σ ε' Unit) := by
  intro s hs
  rw [post_ignore]
  exact h s hs

theorem Keeps.pure (a : α) : Keeps I (Pure.pure a : Call σ ε α) := fun _ hs => hs

theorem Keeps.bind {c : Call σ ε β} (hc : Keeps I c)
    (hf : ∀ b, Keeps I (f b)) : Keeps I (c >>= f) := by
  intro s hs
  rw [post_bind]
  exact (hc s hs).mono (fun b s' hs' => hf b s' hs') fun _ _ hs' => hs'

/-- What is read satisfies `I`. -/
theorem Keeps.get {f : σ → Call σ ε α} (hf : ∀ s, I s → Keeps I (f s)) :
    Keeps I (Call.get >>= f) := by
  intro s hs
  rw [post_bind, post_get]
  exact hf s hs s hs

theorem Keeps.okOr (hf : ∀ b, o = some b → Keeps I (f b)) : Keeps I (Call.okOr o e >>= f) := by
  intro s hs
  rw [post_bind, post_okOr]
  exact ⟨fun b hb => hf b hb s hs, fun _ => hs⟩

theorem Keeps.ensure [Decidable p] : Keeps I (Call.ensure p e) := by
  intro s hs
  rw [post_ensure]
  exact ⟨fun _ => hs, fun _ => hs⟩

theorem Keeps.guard [Decidable p] (hc : Keeps I c) :
    Keeps I (Call.ensure p e >>= fun _ => c) := Keeps.ensure.bind fun _ => hc

theorem Keeps.modify {f : σ → σ} (hf : ∀ s, I s → I (f s)) :
    Keeps I (Call.modify f : Call σ ε Unit) := fun s hs => hf s hs

theorem Keeps.set {s' : σ} (h : I s') : Keeps I (Call.set s' : Call σ ε Unit) := fun _ _ => h

theorem Keeps.ite [Decidable p] {d : Call σ ε α} (hc : Keeps I c) (hd : Keeps I d) :
    Keeps I (if p then c else d) := by
  split
  · exact hc
  · exact hd

theorem Keeps.when [Decidable p] {c : Call σ ε Unit} (hc : Keeps I c) :
    Keeps I (Call.when p c) := Keeps.ite hc (Keeps.pure ())

theorem Keeps.whenSome {c : β → Call σ ε Unit} (hc : ∀ b, Keeps I (c b)) :
    Keeps I (Call.whenSome o c) := by
  cases o with
  | none => exact Keeps.pure ()
  | some b => exact hc b

theorem Keeps.mapError {f : ε → ε'} (hc : Keeps I c) : Keeps I (Call.mapError f c) := by
  intro s hs
  rw [post_mapError]
  exact hc s hs

theorem Keeps.attempt (hc : Keeps I c) : Keeps I (Call.attempt c : Call σ ε' (Except ε α)) := by
  intro s hs
  rw [post_attempt]
  exact hc s hs

end Keeps

end Call

end DeepBrainChain.Lib
