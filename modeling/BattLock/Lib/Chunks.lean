import Mathlib.Data.List.TakeDrop

/-!
# Collecting chunks up to a length

A receiver that knows how long its message is appends what arrives and drops what is too much:
`foldl_append_take` says that the order of cutting and appending does not matter, only the first
`n` elements of everything that arrived count. When the chunks have one size, `take_flatten_iff`
says when those are a given list: chunk by chunk (`Blocks`).
-/

namespace Chunks

variable {α : Type}

/-- Cutting after every chunk is cutting once, at the end. -/
theorem foldl_append_take (n : Nat) (ds : List (List α)) (a : List α) (h : a.length ≤ n) :
    ds.foldl (fun acc d => (acc ++ d).take n) a = (a ++ ds.flatten).take n := by
  induction ds generalizing a with
  | nil => simp [List.take_of_length_le h]
  | cons d ds ih =>
    have hcut : ((a ++ d).take n).length ≤ n := by
      rw [List.length_take]
      exact Nat.min_le_left _ _
    have hall : (a ++ d ++ ds.flatten).take n =
        (a ++ d).take n ++ ds.flatten.take (n - (a ++ d).length) := List.take_append
    rw [List.foldl_cons, ih _ hcut, List.flatten_cons, ← List.append_assoc, hall, List.take_append]
    -- what is cut off the chunk is past the end of everything
    rcases Nat.le_total (a ++ d).length n with hle | hle
    · rw [List.take_of_length_le hle, List.take_of_length_le hle]
    · rw [List.take_take, Nat.min_self, List.length_take, Nat.min_eq_left hle, Nat.sub_self,
        Nat.sub_eq_zero_of_le hle]

/-- The chunks `ds` hold the list `xs`, `k` elements in each; of the last one only the part that
belongs to `xs` counts, and further chunks do not count. -/
def Blocks (k : Nat) (xs : List α) (ds : List (List α)) : Prop :=
  ∀ i, i * k < xs.length →
    ∃ d, ds[i]? = some d ∧ d.take (xs.length - i * k) = (xs.drop (i * k)).take k

variable {k : Nat} {xs d : List α} {ds : List (List α)}

theorem blocks_cons_of_le (hk : xs.length ≤ k) :
    Blocks k xs (d :: ds) ↔ d.take xs.length = xs := by
  have hself : xs.take k = xs := List.take_of_length_le hk
  constructor
  · intro h
    rcases Nat.eq_zero_or_pos xs.length with h0 | hpos
    · rw [h0, List.take_zero, List.length_eq_zero_iff.1 h0]
    · obtain ⟨d', hd', htake⟩ := h 0 (by rwa [Nat.zero_mul])
      simp only [List.getElem?_cons_zero, Option.some.injEq] at hd'
      subst hd'
      simpa [hself] using htake
  · intro h i hi
    have hi0 : i = 0 := by
      rcases Nat.eq_zero_or_pos i with h0 | hpos
      · exact h0
      · exact absurd hi (Nat.not_lt.2 (Nat.le_trans hk (Nat.le_mul_of_pos_left k hpos)))
    subst hi0
    exact ⟨d, rfl, by simpa [hself] using h⟩

theorem blocks_cons_of_lt (hk : k < xs.length) (hd : d.length = k) :
    Blocks k xs (d :: ds) ↔ d = xs.take k ∧ Blocks k (xs.drop k) ds := by
  constructor
  · intro h
    constructor
    · obtain ⟨d', hd', htake⟩ := h 0 (by omega)
      simp only [List.getElem?_cons_zero, Option.some.injEq] at hd'
      subst hd'
      have hwhole : d.take xs.length = d := List.take_of_length_le (by omega)
      simpa [hwhole] using htake
    · intro i hi
      rw [List.length_drop] at hi ⊢
      obtain ⟨d', hd', htake⟩ := h (i + 1) (by rw [Nat.succ_mul]; omega)
      refine ⟨d', by simpa using hd', ?_⟩
      rw [Nat.succ_mul] at htake
      rw [List.drop_drop, Nat.add_comm k, Nat.sub_sub, Nat.add_comm k]
      exact htake
  · rintro ⟨hhead, hrest⟩ i hi
    cases i with
    | zero =>
      have hwhole : d.take xs.length = d := List.take_of_length_le (by omega)
      exact ⟨d, rfl, by simpa [hwhole] using hhead⟩
    | succ i =>
      rw [Nat.succ_mul] at hi ⊢
      obtain ⟨d', hd', htake⟩ := hrest i (by rw [List.length_drop]; omega)
      refine ⟨d', by simpa using hd', ?_⟩
      rw [List.length_drop, List.drop_drop, Nat.add_comm k, Nat.sub_sub, Nat.add_comm k] at htake
      exact htake

/-- **Chunk by chunk.** -/
theorem take_flatten_iff (hds : ∀ d ∈ ds, d.length = k) :
    ds.flatten.take xs.length = xs ↔ Blocks k xs ds := by
  induction ds generalizing xs with
  | nil =>
    simp only [List.flatten_nil, List.take_nil]
    constructor
    · intro h i hi
      rw [← h] at hi
      exact absurd hi (Nat.not_lt_zero _)
    · intro h
      rcases Nat.eq_zero_or_pos xs.length with h0 | hpos
      · exact (List.length_eq_zero_iff.1 h0).symm
      · obtain ⟨d, hd, -⟩ := h 0 (by rwa [Nat.zero_mul])
        simp at hd
  | cons d ds ih =>
    have hd : d.length = k := hds d List.mem_cons_self
    have hrest : ds.flatten.take (xs.drop k).length = xs.drop k ↔ Blocks k (xs.drop k) ds :=
      ih fun e he => hds e (List.mem_cons_of_mem _ he)
    rcases Nat.lt_or_ge k xs.length with hlt | hle
    · rw [blocks_cons_of_lt hlt hd, ← hrest, List.flatten_cons, List.take_append,
        List.take_of_length_le (by omega), List.length_drop, hd]
      constructor
      · intro h
        have hsplit : d = xs.take k ∧ ds.flatten.take (xs.length - k) = xs.drop k :=
          List.append_inj (by rw [h, List.take_append_drop])
            (by rw [hd, List.length_take, Nat.min_eq_left (Nat.le_of_lt hlt)])
        exact hsplit
      · intro h
        rw [h.2]
        conv_rhs => rw [← List.take_append_drop k xs]
        rw [← h.1]
    · rw [blocks_cons_of_le hle, List.flatten_cons,
        List.take_append_of_le_length (Nat.le_trans hle (Nat.le_of_eq hd.symm))]

end Chunks
