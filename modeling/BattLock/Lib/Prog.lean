/-!
# Programs on a state that may end early

`Prog σ ε α` is a piece of imperative code: from a state of `σ` it leaves a state and either
returns an `α` or ends early with an `ε` (an exception, a `return`). What it did to the state
before it ended early stays.

`Triple P x Q E` is a Hoare triple with two postconditions: from a state with `P` the program
returns in a state with `Q` or ends early in a state with `E`. There is one rule for each way a
program is built. `Returns x` is the triple of a program that never ends early.

`Keeps R x` says that `x`, however it ends, leaves a state related by `R` to the one it started in.
-/

/-- A program with state `σ`, early ends `ε` and result `α`. -/
def Prog (σ ε α : Type) := σ → σ × Except ε α

namespace Prog

variable {σ ε α β : Type}

instance : Monad (Prog σ ε) where
  pure a := fun s => (s, .ok a)
  bind x f := fun s =>
    match x s with
    | (s', .ok a) => f a s'
    | (s', .error e) => (s', .error e)

/-- End early. -/
def stop (e : ε) : Prog σ ε α := fun s => (s, .error e)

def get : Prog σ ε σ := fun s => (s, .ok s)

/-- A computation that does not touch the state. -/
def lift (x : Except ε α) : Prog σ ε α := fun s => (s, x)

section
variable {x : Prog σ ε α} {s : σ}

/-- A program whose first part returns goes on after it. -/
theorem bind_of_ok {a : α} (h : (x s).2 = .ok a) (f : α → Prog σ ε β) :
    (x >>= f) s = f a (x s).1 := by
  show (match x s with
    | (s', .ok a) => f a s'
    | (s', .error e) => (s', .error e)) = _
  generalize x s = r at h
  obtain ⟨s', r⟩ := r
  obtain rfl : r = .ok a := h
  rfl

theorem lift_bind {y : Except ε α} {a : α} (h : y = .ok a) (f : α → Prog σ ε β) :
    (lift y >>= f) s = f a s := by
  rw [h]
  rfl

end

/-! ## Hoare triples -/

/-- The postcondition of an outcome: `Q` of a result, `E` of an early end. -/
def Post (Q : α → σ → Prop) (E : ε → σ → Prop) : σ × Except ε α → Prop
  | (s, .ok a) => Q a s
  | (s, .error e) => E e s

/-- From a state with `P`, `x` returns with `Q` or ends early with `E`. A structure, so that the
program is not run when a triple is type-checked. -/
structure Triple (P : σ → Prop) (x : Prog σ ε α) (Q : α → σ → Prop) (E : ε → σ → Prop) :
    Prop where
  post : ∀ s, P s → Post Q E (x s)

variable {P P' : σ → Prop} {Q Q' : α → σ → Prop} {R : β → σ → Prop} {E E' : ε → σ → Prop}

theorem Triple.pure {a : α} (h : ∀ s, P s → Q a s) : Triple P (Pure.pure a : Prog σ ε α) Q E :=
  ⟨h⟩

theorem Triple.stop {e : ε} (h : ∀ s, P s → E e s) : Triple P (Prog.stop e : Prog σ ε α) Q E :=
  ⟨h⟩

theorem Triple.get {Q : σ → σ → Prop} (h : ∀ s, P s → Q s s) :
    Triple P (Prog.get : Prog σ ε σ) Q E := ⟨h⟩

theorem Triple.lift {x : Except ε α} (hok : ∀ a s, x = .ok a → P s → Q a s)
    (herr : ∀ e s, x = .error e → P s → E e s) : Triple P (Prog.lift x) Q E := by
  refine ⟨fun s hs => ?_⟩
  cases x with
  | ok a => exact hok a s rfl hs
  | error e => exact herr e s rfl hs

/-- Sequencing: the second part starts where the first returned. -/
theorem Triple.bind {x : Prog σ ε α} {f : α → Prog σ ε β} (hx : Triple P x Q E)
    (hf : ∀ a, Triple (Q a) (f a) R E) : Triple P (x >>= f) R E := by
  refine ⟨fun s hs => ?_⟩
  have h := hx.post s hs
  show Post R E (match x s with
    | (s', .ok a) => f a s'
    | (s', .error e) => (s', .error e))
  match hxs : x s, h with
  | (s', .ok a), h => exact (hf a).post s' h
  | (s', .error e), h => exact h

theorem Triple.lift_bind {y : Except ε α} {a : α} (h : y = .ok a) {f : α → Prog σ ε β}
    (hf : Triple P (f a) R E) : Triple P (Prog.lift y >>= f) R E := by
  refine ⟨fun s hs => ?_⟩
  rw [Prog.lift_bind h]
  exact hf.post s hs

/-- Consequence. -/
theorem Triple.mono {x : Prog σ ε α} (h : Triple P x Q E) (hP : ∀ s, P' s → P s)
    (hQ : ∀ a s, Q a s → Q' a s) (hE : ∀ e s, E e s → E' e s) : Triple P' x Q' E' := by
  refine ⟨fun s hs => ?_⟩
  have h' := h.post s (hP s hs)
  match hxs : x s, h' with
  | (s', .ok a), h' => exact hQ a s' h'
  | (s', .error e), h' => exact hE e s' h'

theorem Triple.pre {x : Prog σ ε α} (h : Triple P x Q E) (hP : ∀ s, P' s → P s) :
    Triple P' x Q E :=
  h.mono hP (fun _ _ hs => hs) (fun _ _ hs => hs)

theorem Triple.results {x : Prog σ ε α} (h : Triple P x Q E) (hQ : ∀ a s, Q a s → Q' a s) :
    Triple P x Q' E :=
  h.mono (fun _ hs => hs) hQ (fun _ _ hs => hs)

theorem Triple.exits {x : Prog σ ε α} (h : Triple P x Q E) (hE : ∀ e s, E e s → E' e s) :
    Triple P x Q E' :=
  h.mono (fun _ hs => hs) (fun _ _ hs => hs) hE

/-- A fact that does not depend on the state. -/
theorem Triple.assuming {p : Prop} {x : Prog σ ε α} (h : p → Triple P x Q E) :
    Triple (fun s => p ∧ P s) x Q E :=
  ⟨fun s hs => (h hs.1).post s hs.2⟩

theorem Triple.exists_pre {γ : Type} {P : γ → σ → Prop} {x : Prog σ ε α}
    (h : ∀ c, Triple (P c) x Q E) : Triple (fun s => ∃ c, P c s) x Q E := by
  refine ⟨fun s hs => ?_⟩
  obtain ⟨c, hs⟩ := hs
  exact (h c).post s hs

/-- Two triples of one program. -/
theorem Triple.both {x : Prog σ ε α} (h : Triple P x Q E) (h' : Triple P' x Q' E') :
    Triple (fun s => P s ∧ P' s) x (fun a s => Q a s ∧ Q' a s) (fun e s => E e s ∧ E' e s) := by
  refine ⟨fun s hs => ?_⟩
  have hpost := h.post s hs.1
  have hpost' := h'.post s hs.2
  generalize x s = r at hpost hpost'
  obtain ⟨s', r⟩ := r
  cases r with
  | ok a => exact ⟨hpost, hpost'⟩
  | error e => exact ⟨hpost, hpost'⟩

/-- What holds at the end, early or not. -/
theorem Triple.final {x : Prog σ ε α} {Q : σ → Prop} (h : Triple P x (fun _ => Q) (fun _ => Q))
    {s : σ} (hs : P s) : Q (x s).1 := by
  have h' := h.post s hs
  match hxs : x s, h' with
  | (_, .ok _), h' => exact h'
  | (_, .error _), h' => exact h'

/-- What holds of a result. -/
theorem Triple.returned {x : Prog σ ε α} (h : Triple P x Q E) {s : σ} (hs : P s) {a : α}
    (hx : (x s).2 = .ok a) : Q a (x s).1 := by
  have h' := h.post s hs
  match hxs : x s, h' with
  | (_, .ok _), h' =>
    rw [hxs] at hx
    cases hx
    exact h'
  | (_, .error _), _ =>
    rw [hxs] at hx
    cases hx

/-- What holds after an early end. -/
theorem Triple.ended {x : Prog σ ε α} (h : Triple P x Q E) {s : σ} (hs : P s) {e : ε}
    (hx : (x s).2 = .error e) : E e (x s).1 := by
  have h' := h.post s hs
  match hxs : x s, h' with
  | (_, .ok _), _ =>
    rw [hxs] at hx
    cases hx
  | (_, .error _), h' =>
    rw [hxs] at hx
    cases hx
    exact h'

/-- A program that returns under a condition and ends early without it. -/
theorem Triple.ok_iff {x : Prog σ ε Unit} {p : Prop}
    (h : Triple P x (fun _ _ => p) (fun _ _ => ¬ p)) {s : σ} (hs : P s) :
    (x s).2 = .ok () ↔ p := by
  refine ⟨fun hok => h.returned hs hok, fun hp => ?_⟩
  cases hr : (x s).2 with
  | ok _ => rfl
  | error e => exact absurd hp (h.ended hs hr)

/-- A program that never ends early. -/
def Returns (x : Prog σ ε α) : Prop := Triple (fun _ => True) x (fun _ _ => True) (fun _ _ => False)

theorem Returns.bind {x : Prog σ ε α} {f : α → Prog σ ε β} (hx : Returns x)
    (hf : ∀ a, Returns (f a)) : Returns (x >>= f) :=
  Triple.bind hx hf

theorem Returns.lift_bind {y : Except ε α} {a : α} (h : y = .ok a) {f : α → Prog σ ε β}
    (hf : Returns (f a)) : Returns (lift y >>= f) :=
  Triple.lift_bind h hf

/-! ## Relations between the states before and after -/

/-- However `x` ends, the state it leaves is related to the one it started in. -/
structure Keeps (R : σ → σ → Prop) (x : Prog σ ε α) : Prop where
  rel : ∀ s, R s (x s).1

variable {R : σ → σ → Prop}

/-- What does not touch the state keeps every reflexive relation. -/
theorem Keeps.unchanged (hrefl : ∀ s, R s s) {x : Prog σ ε α} (hx : ∀ s, (x s).1 = s) :
    Keeps R x := by
  refine ⟨fun s => ?_⟩
  rw [hx s]
  exact hrefl s

theorem Keeps.bind (htrans : ∀ s₁ s₂ s₃, R s₁ s₂ → R s₂ s₃ → R s₁ s₃) {x : Prog σ ε α}
    {f : α → Prog σ ε β} (hx : Keeps R x) (hf : ∀ a, Keeps R (f a)) : Keeps R (x >>= f) := by
  refine ⟨fun s => ?_⟩
  have h := hx.rel s
  show R s (match x s with
    | (s', .ok a) => f a s'
    | (s', .error e) => (s', .error e)).1
  match hxs : x s, h with
  | (s', .ok a), h => exact htrans s s' _ h ((hf a).rel s')
  | (s', .error e), h => exact h

/-- What `R` preserves, a program that keeps `R` preserves. -/
theorem Keeps.triple {x : Prog σ ε α} (hx : Keeps R x) (hP : ∀ s s', R s s' → P s → P s') :
    Triple P x (fun _ => P) (fun _ => P) := by
  refine ⟨fun s hs => ?_⟩
  have h := hP s _ (hx.rel s) hs
  match hxs : x s, h with
  | (_, .ok _), h => exact h
  | (_, .error _), h => exact h

end Prog
