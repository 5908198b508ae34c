import BattLock.Lib.Mealy

/-!
# Relating the runs of machines

Two ways to know a run of a `Mealy` machine without following it:

* `run_eq_getLast?`, `latest_run`, `run_of_latest`: a part of the state that some inputs set is,
  after a run, what was set last.
* `Simulates`: two machines whose steps keep a relation between their states. It relates the
  states after every run, and the outputs one by one (`Simulates.run`); the second machine may be
  given inputs the first does not know (`Weave`).
-/

namespace Mealy

variable {σ ι ο σ' ι' ο' : Type}

/-! ## What was set last -/

section
variable (M : Mealy σ ι ο) {α : Type} (get : σ → Option α) (set : ι → Option α)

/-- **The part is what was set last.** -/
theorem run_eq_getLast? (hset : ∀ s i a, set i = some a → get (M.step s i).1 = some a)
    (hkeep : ∀ s i, set i = none → get (M.step s i).1 = get s) (s : σ) (is : List ι) :
    get (M.run s is) = (is.filterMap set).getLast?.or (get s) := by
  induction is using List.reverseRecOn with
  | nil => rfl
  | append_singleton is i ih =>
    rw [run_append, run_cons, run_nil, List.filterMap_append]
    cases hi : set i with
    | some a => simp [hset _ _ a hi, hi]
    | none => simp [hkeep _ _ hi, hi, ih]

/-- A value of the part is the one set last, or was there before and never set. -/
theorem latest_run (hset : ∀ s i a, set i = some a → get (M.step s i).1 = some a)
    (hkeep : ∀ s i, set i = none → get (M.step s i).1 = get s) {s : σ} {is : List ι} {a : α}
    (h : get (M.run s is) = some a) :
    (∃ is₁ i is₂, is = is₁ ++ i :: is₂ ∧ set i = some a ∧ ∀ j ∈ is₂, set j = none) ∨
      get s = some a ∧ ∀ j ∈ is, set j = none := by
  induction is using List.reverseRecOn with
  | nil => exact .inr ⟨h, by simp⟩
  | append_singleton is i ih =>
    rw [run_append, run_cons, run_nil] at h
    cases hi : set i with
    | some b =>
      rw [hset _ _ b hi, Option.some.injEq] at h
      subst h
      exact .inl ⟨is, i, [], rfl, hi, by simp⟩
    | none =>
      rw [hkeep _ _ hi] at h
      rcases ih h with ⟨is₁, j, is₂, rfl, hj, hnone⟩ | ⟨hs, hnone⟩
      · refine .inl ⟨is₁, j, is₂ ++ [i], by simp, hj, fun k hk => ?_⟩
        rcases List.mem_append.1 hk with hk | hk
        · exact hnone k hk
        · rw [List.mem_singleton.1 hk]
          exact hi
      · refine .inr ⟨hs, fun k hk => ?_⟩
        rcases List.mem_append.1 hk with hk | hk
        · exact hnone k hk
        · rw [List.mem_singleton.1 hk]
          exact hi

theorem run_of_unset (hkeep : ∀ s i, set i = none → get (M.step s i).1 = get s) (s : σ)
    {is : List ι} (h : ∀ j ∈ is, set j = none) : get (M.run s is) = get s := by
  induction is generalizing s with
  | nil => rfl
  | cons i is ih =>
    rw [List.forall_mem_cons] at h
    rw [run_cons, ih _ h.2, hkeep s i h.1]

theorem run_of_latest (hset : ∀ s i a, set i = some a → get (M.step s i).1 = some a)
    (hkeep : ∀ s i, set i = none → get (M.step s i).1 = get s) (s : σ) (is₁ : List ι) {i : ι}
    {is₂ : List ι} {a : α} (hi : set i = some a) (h : ∀ j ∈ is₂, set j = none) :
    get (M.run s (is₁ ++ i :: is₂)) = some a := by
  rw [run_append, run_cons, M.run_of_unset get set hkeep _ h, hset _ _ a hi]

/-- Once set, the part has a value. -/
theorem isSome_run (hset : ∀ s i a, set i = some a → get (M.step s i).1 = some a)
    (hkeep : ∀ s i, set i = none → get (M.step s i).1 = get s) (s : σ) {is : List ι} {i : ι}
    (hi : i ∈ is) (h : (set i).isSome) : (get (M.run s is)).isSome := by
  cases hget : get (M.run s is) with
  | some a => rfl
  | none =>
    induction is using List.reverseRecOn with
    | nil => cases hi
    | append_singleton is j ih =>
      rw [run_append, run_cons, run_nil] at hget
      cases hj : set j with
      | some a =>
        rw [hset _ _ a hj] at hget
        cases hget
      | none =>
        rw [hkeep _ _ hj] at hget
        rcases List.mem_append.1 hi with hi | hi
        · exact ih hi hget
        · rw [List.mem_singleton.1 hi, hj] at h
          cases h

end

/-! ## Simulations -/

/-- Two lists element by element, where the second has hidden elements in between. -/
inductive Weave {α α' : Type} (R : α → α' → Prop) (hidden : α' → Prop) : List α → List α' → Prop
  | nil : Weave R hidden [] []
  | cons {a : α} {a' : α'} {as : List α} {as' : List α'} :
      R a a' → Weave R hidden as as' → Weave R hidden (a :: as) (a' :: as')
  | hide {a' : α'} {as : List α} {as' : List α'} :
      hidden a' → Weave R hidden as as' → Weave R hidden as (a' :: as')

/-- `M'` does what `M` does: related states step on related inputs to related states, the inputs
with their outputs are related, and a hidden input of `M'` leaves the relation. -/
structure Simulates (M : Mealy σ ι ο) (M' : Mealy σ' ι' ο') (R : σ → σ' → Prop)
    (I : ι → ι' → Prop) (O : ι × ο → ι' × ο' → Prop) (hidden : ι' → Prop) : Prop where
  step : ∀ s s' i i', R s s' → I i i' →
    R (M.step s i).1 (M'.step s' i').1 ∧ O (i, (M.step s i).2) (i', (M'.step s' i').2)
  hide : ∀ s s' i', R s s' → hidden i' → R s (M'.step s' i').1

/-- **Simulation**: over runs on related inputs the states stay related and so do the outputs. -/
theorem Simulates.run {M : Mealy σ ι ο} {M' : Mealy σ' ι' ο'} {R : σ → σ' → Prop}
    {I : ι → ι' → Prop} {O : ι × ο → ι' × ο' → Prop} {hidden : ι' → Prop}
    (h : Simulates M M' R I O hidden) (s : σ) (s' : σ') {is : List ι} {is' : List ι'}
    (hs : R s s') (his : Weave I hidden is is') :
    R (M.run s is) (M'.run s' is') ∧
      Weave (fun e e' => I e.1 e'.1 ∧ O e e') (fun e' => hidden e'.1) (M.log s is)
        (M'.log s' is') := by
  induction his generalizing s s' with
  | nil => exact ⟨hs, .nil⟩
  | cons hi _ ih =>
    obtain ⟨hstep, hout⟩ := h.step s s' _ _ hs hi
    obtain ⟨hrun, hlog⟩ := ih _ _ hstep
    exact ⟨hrun, .cons ⟨hi, hout⟩ hlog⟩
  | hide hi _ ih =>
    obtain ⟨hrun, hlog⟩ := ih _ _ (h.hide s s' _ hs hi)
    exact ⟨hrun, .hide hi hlog⟩

end Mealy
