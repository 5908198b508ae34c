import Mathlib.Data.List.Basic
import Mathlib.Data.List.Induction
import Mathlib.Logic.Function.Basic

/-!
# Deterministic machines with outputs

`Mealy σ ι ο` steps a state of `σ` on an input of `ι` and gives an output of `ο`. `run` is the
state after a sequence of inputs, `log` pairs every input of it with its output, in order, so
that a property of a whole run is a property of its log: "`x` happened before `y`" is a split of
the log at `y` with `x` in the first part.

* `log_inv`: an invariant relating the log so far to the state, kept by every step, holds of
  every run.
* `log_pairwise`: what relates every new entry to the earlier ones relates all pairs in order.
* `log_eq_append_cons`: the entry of a log at a split, computed from the state there.
* `flag_run_iff`: a flag that some inputs set and others clear.
* `keptLog_eq`: inputs that leave the state where it is can be deleted from a run without
  changing what the other inputs are answered.
* `keyed`: a machine with a state for each key. What it answers to the inputs of one key is what
  the machine answers to these inputs alone (`filter_log_keyed`), and inputs without a key in common
  are answered as in two runs (`log_keyed_append`).
-/

/-- A machine that answers every input. -/
structure Mealy (σ ι ο : Type) where
  step : σ → ι → σ × ο

namespace Mealy

variable {σ ι ο : Type} (M : Mealy σ ι ο)

/-- The state after a sequence of inputs. -/
def run (s : σ) : List ι → σ
  | [] => s
  | i :: is => run (M.step s i).1 is

/-- The inputs of a run, each with its output. -/
def log (s : σ) : List ι → List (ι × ο)
  | [] => []
  | i :: is => (i, (M.step s i).2) :: log (M.step s i).1 is

@[simp] theorem run_nil (s : σ) : M.run s [] = s := rfl
@[simp] theorem run_cons (s : σ) (i : ι) (is : List ι) :
    M.run s (i :: is) = M.run (M.step s i).1 is := rfl
@[simp] theorem log_nil (s : σ) : M.log s [] = [] := rfl
@[simp] theorem log_cons (s : σ) (i : ι) (is : List ι) :
    M.log s (i :: is) = (i, (M.step s i).2) :: M.log (M.step s i).1 is := rfl

/-- What holds at every input of a sequence, input by input. -/
theorem forall_prefix_cons {P : List ι → ι → Prop} {i : ι} {is : List ι} :
    (∀ earlier j, earlier ++ [j] <+: i :: is → P earlier j) ↔
      P [] i ∧ ∀ earlier j, earlier ++ [j] <+: is → P (i :: earlier) j := by
  constructor
  · intro h
    exact ⟨h [] i ⟨is, rfl⟩,
      fun earlier j hj => h (i :: earlier) j (List.cons_prefix_cons.2 ⟨rfl, hj⟩)⟩
  · rintro ⟨hfirst, hrest⟩ earlier j hj
    cases earlier with
    | nil =>
      obtain ⟨rfl, -⟩ := List.cons_prefix_cons.1 hj
      exact hfirst
    | cons k earlier =>
      obtain ⟨hk, htail⟩ := List.cons_prefix_cons.1 hj
      rw [hk]
      exact hrest earlier j htail

theorem run_append (s : σ) (is js : List ι) : M.run s (is ++ js) = M.run (M.run s is) js := by
  induction is generalizing s with
  | nil => rfl
  | cons i is ih => exact ih _

theorem log_append (s : σ) (is js : List ι) :
    M.log s (is ++ js) = M.log s is ++ M.log (M.run s is) js := by
  induction is generalizing s with
  | nil => rfl
  | cons i is ih => simp only [List.cons_append, log_cons, run_cons, ih]

theorem log_concat (s : σ) (is : List ι) (i : ι) :
    M.log s (is ++ [i]) = M.log s is ++ [(i, (M.step (M.run s is) i).2)] := by
  rw [log_append]; rfl

@[simp] theorem map_fst_log (s : σ) (is : List ι) : (M.log s is).map Prod.fst = is := by
  induction is generalizing s with
  | nil => rfl
  | cons i is ih => simp only [log_cons, List.map_cons, ih]

/-! ## Invariants -/

/-- **The invariant rule**: what relates the log so far to the state, initially and after
every step, holds of every run. -/
theorem log_inv {P : List (ι × ο) → σ → Prop} {s : σ} (h0 : P [] s)
    (hstep : ∀ l t i, P l t → P (l ++ [(i, (M.step t i).2)]) (M.step t i).1) (is : List ι) :
    P (M.log s is) (M.run s is) := by
  induction is using List.reverseRecOn with
  | nil => exact h0
  | append_singleton is i ih =>
    rw [log_concat, run_append]
    exact hstep _ _ i ih

/-- Two entries of a log are related as soon as every new one is related to those before it. -/
theorem log_pairwise {P : List (ι × ο) → σ → Prop} {R : ι × ο → ι × ο → Prop} {s : σ}
    (h0 : P [] s)
    (hstep : ∀ l t i, P l t → P (l ++ [(i, (M.step t i).2)]) (M.step t i).1)
    (hR : ∀ l t i, P l t → ∀ e ∈ l, R e (i, (M.step t i).2)) (is : List ι) :
    (M.log s is).Pairwise R := by
  have h := M.log_inv (P := fun l t => P l t ∧ l.Pairwise R) ⟨h0, List.Pairwise.nil⟩
    (fun l t i ⟨hP, hl⟩ => ⟨hstep l t i hP, List.pairwise_append.2 ⟨hl, List.pairwise_singleton _ _,
      fun e he e' he' => by rw [List.mem_singleton.1 he']; exact hR l t i hP e he⟩⟩) is
  exact h.2

/-- The log of a run at a split: what was answered before, the answer there, what follows. -/
theorem log_eq_append_cons {s : σ} {is : List ι} {l₁ l₂ : List (ι × ο)} {i : ι} {o : ο}
    (h : M.log s is = l₁ ++ (i, o) :: l₂) :
    ∃ is₁ is₂, is = is₁ ++ i :: is₂ ∧ l₁ = M.log s is₁ ∧ o = (M.step (M.run s is₁) i).2 ∧
      l₂ = M.log (M.step (M.run s is₁) i).1 is₂ := by
  induction l₁ generalizing s is with
  | nil =>
    cases is with
    | nil => simp at h
    | cons j is =>
      simp only [log_cons, List.nil_append, List.cons.injEq, Prod.mk.injEq] at h
      obtain ⟨⟨rfl, rfl⟩, rfl⟩ := h
      exact ⟨[], is, rfl, rfl, rfl, rfl⟩
  | cons e l₁ ih =>
    cases is with
    | nil => simp at h
    | cons j is =>
      simp only [log_cons, List.cons_append, List.cons.injEq] at h
      obtain ⟨rfl, h⟩ := h
      obtain ⟨is₁, is₂, rfl, rfl, ho, h2⟩ := ih h
      exact ⟨j :: is₁, is₂, rfl, rfl, ho, h2⟩

/-- An input and its answer are in the log if and only if the run meets that input in a state
that answers so. -/
theorem mem_log {s : σ} {is : List ι} {i : ι} {o : ο} :
    (i, o) ∈ M.log s is ↔ ∃ is₁ is₂, is = is₁ ++ i :: is₂ ∧ o = (M.step (M.run s is₁) i).2 := by
  constructor
  · intro h
    obtain ⟨l₁, l₂, h⟩ := List.append_of_mem h
    obtain ⟨is₁, is₂, his, -, ho, -⟩ := M.log_eq_append_cons h
    exact ⟨is₁, is₂, his, ho⟩
  · intro h
    obtain ⟨is₁, is₂, rfl, rfl⟩ := h
    rw [log_append, log_cons]
    exact List.mem_append_right _ List.mem_cons_self

/-- **Flags**: what some inputs set and others clear holds after a run if and only if it was set
last, or held before and was never cleared. -/
theorem flag_run_iff {P : σ → Prop} {sets clears : ι → Prop}
    (hstep : ∀ s i, P (M.step s i).1 ↔ sets i ∨ P s ∧ ¬ clears i) (s : σ) (is : List ι) :
    P (M.run s is) ↔ (∃ is₁ i is₂, is = is₁ ++ i :: is₂ ∧ sets i ∧ ∀ j ∈ is₂, ¬ clears j) ∨
      P s ∧ ∀ j ∈ is, ¬ clears j := by
  induction is generalizing s with
  | nil => simp
  | cons i is ih =>
    rw [run_cons, ih, hstep, List.forall_mem_cons]
    constructor
    · rintro (⟨is₁, j, is₂, rfl, hj, hclears⟩ | ⟨hi | ⟨hs, hi⟩, hclears⟩)
      · exact .inl ⟨i :: is₁, j, is₂, rfl, hj, hclears⟩
      · exact .inl ⟨[], i, is, rfl, hi, hclears⟩
      · exact .inr ⟨hs, hi, hclears⟩
    · rintro (⟨_ | ⟨j, is₁⟩, j', is₂, his, hj, hclears⟩ | ⟨hs, hi, hclears⟩)
      · obtain ⟨rfl, rfl⟩ := List.cons.inj his
        exact .inr ⟨.inl hj, hclears⟩
      · obtain ⟨rfl, rfl⟩ := List.cons.inj his
        exact .inl ⟨is₁, j', is₂, rfl, hj, hclears⟩
      · exact .inr ⟨.inr ⟨hs, hi⟩, hclears⟩

/-! ## Deleting inputs -/

/-- The part of a run's log that belongs to the inputs tagged `true`. -/
def keptLog (s : σ) (js : List (Bool × ι)) : List (ι × ο) :=
  ((js.zip (M.log s (js.map Prod.snd))).filter (·.1.1)).map Prod.snd

/-- The inputs tagged `true`. -/
def kept (js : List (Bool × ι)) : List ι := (js.filter (·.1)).map Prod.snd

/-- **Deletion**: if every input tagged `false` leaves the state where it finds it, the other
inputs are answered as in the run without them. -/
theorem keptLog_eq {s : σ} {js : List (Bool × ι)}
    (h : ∀ js₁ i js₂, js = js₁ ++ (false, i) :: js₂ →
      (M.step (M.run s (js₁.map Prod.snd)) i).1 = M.run s (js₁.map Prod.snd)) :
    M.keptLog s js = M.log s (kept js) := by
  induction js generalizing s with
  | nil => rfl
  | cons j js ih =>
    obtain ⟨b, i⟩ := j
    have hrest : M.keptLog (M.step s i).1 js = M.log (M.step s i).1 (kept js) :=
      ih fun js₁ i' js₂ e => h ((b, i) :: js₁) i' js₂ (by rw [e]; rfl)
    cases b with
    | true =>
      simp only [keptLog, kept, List.map_cons, log_cons, List.zip_cons_cons, List.filter_cons,
        ↓reduceIte] at hrest ⊢
      rw [hrest]
    | false =>
      have hs : (M.step s i).1 = s := h [] i js rfl
      simp only [keptLog, kept, List.map_cons, log_cons, List.zip_cons_cons, List.filter_cons,
        Bool.false_eq_true, ↓reduceIte, hs] at hrest ⊢
      exact hrest

/-! ## A state for each key -/

section
variable {κ : Type} [DecidableEq κ] (key : ι → κ)

/-- Every input goes to the state of its key. -/
def keyed : Mealy (κ → σ) ι ο where
  step s i := (Function.update s (key i) (M.step (s (key i)) i).1, (M.step (s (key i)) i).2)

/-- The inputs of one key are answered as by the machine alone, whatever comes between them. -/
theorem filter_log_keyed (s : κ → σ) (is : List ι) (k : κ) :
    ((M.keyed key).log s is).filter (fun e => key e.1 = k) =
      M.log (s k) (is.filter fun i => key i = k) := by
  induction is generalizing s with
  | nil => rfl
  | cons i is ih =>
    rw [log_cons, List.filter_cons, List.filter_cons, ih]
    by_cases hk : key i = k
    · subst hk
      simp [keyed]
    · have hother : (((M.keyed key).step s i).1) k = s k :=
        Function.update_of_ne (Ne.symm hk) _ _
      simp only [hk, decide_false, Bool.false_eq_true, if_false, hother]

/-- Only the states of the keys that come matter. -/
theorem log_keyed_congr {s t : κ → σ} {is : List ι} (h : ∀ i ∈ is, s (key i) = t (key i)) :
    (M.keyed key).log s is = (M.keyed key).log t is := by
  induction is generalizing s t with
  | nil => rfl
  | cons i is ih =>
    rw [List.forall_mem_cons] at h
    obtain ⟨hi, his⟩ := h
    have hrest : ∀ j ∈ is, ((M.keyed key).step s i).1 (key j) =
        ((M.keyed key).step t i).1 (key j) := by
      intro j hj
      simp only [keyed, Function.update_apply, hi, his j hj]
    rw [log_cons, log_cons, ih hrest]
    simp only [keyed, hi]

/-- The state of a key that does not come stays. -/
theorem run_keyed_of_notMem {s : κ → σ} {is : List ι} {k : κ} (h : k ∉ is.map key) :
    (M.keyed key).run s is k = s k := by
  induction is generalizing s with
  | nil => rfl
  | cons i is ih =>
    rw [List.map_cons, List.mem_cons, not_or] at h
    rw [run_cons, ih h.2]
    exact Function.update_of_ne h.1 _ _

/-- **Inputs without a key in common** are answered as in two runs. -/
theorem log_keyed_append (s : κ → σ) {is js : List ι} (h : ∀ j ∈ js, key j ∉ is.map key) :
    (M.keyed key).log s (is ++ js) = (M.keyed key).log s is ++ (M.keyed key).log s js := by
  rw [log_append]
  exact congrArg _ (log_keyed_congr M key fun j hj => run_keyed_of_notMem M key (h j hj))

end

end Mealy
