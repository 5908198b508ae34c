import Mathlib.Data.List.Induction

/-!
# Greedy subsequences

`Greedy.index order xs` walks through `xs` and takes the next element of `order` whenever it comes.
It ends at the length of the longest prefix of `order` that is a subsequence of `xs`
(`take_index_sublist`, `le_index`): taking an element as soon as it comes loses nothing.
-/

namespace Greedy

variable {α : Type} [DecidableEq α] (order : List α)

/-- The index after one element. -/
def next (i : Nat) (x : α) : Nat := if order[i]? = some x then i + 1 else i

/-- The index after a list of elements. -/
def index (xs : List α) : Nat := xs.foldl (next order) 0

@[simp] theorem index_nil : index order [] = 0 := rfl

theorem index_concat (xs : List α) (x : α) :
    index order (xs ++ [x]) = next order (index order xs) x := by
  rw [index, List.foldl_append, ← index]
  rfl

omit [DecidableEq α] in
/-- A subsequence that ends in an element: the element, and one of what comes before it. -/
theorem concat_sublist_concat_iff {l xs : List α} {a x : α} :
    List.Sublist (l ++ [a]) (xs ++ [x]) ↔
      List.Sublist (l ++ [a]) xs ∨ a = x ∧ List.Sublist l xs := by
  have hreverse : ∀ m n : List α, List.Sublist m n ↔ List.Sublist m.reverse n.reverse :=
    fun m n => List.reverse_sublist.symm
  rw [hreverse (l ++ [a]) (xs ++ [x]), hreverse (l ++ [a]) xs, hreverse l xs, List.reverse_append,
    List.reverse_append]
  simp only [List.reverse_singleton, List.singleton_append, List.sublist_cons_iff]
  constructor
  · rintro (h | ⟨r, hr, h⟩)
    · exact .inl h
    · obtain ⟨rfl, rfl⟩ := List.cons.inj hr
      exact .inr ⟨rfl, h⟩
  · rintro (h | ⟨rfl, h⟩)
    · exact .inl h
    · exact .inr ⟨_, rfl, h⟩

theorem index_le (xs : List α) : index order xs ≤ order.length := by
  induction xs using List.reverseRecOn with
  | nil => exact Nat.zero_le _
  | append_singleton xs x ih =>
    rw [index_concat, next]
    split
    · rename_i h
      exact (List.getElem?_eq_some_iff.1 h).1
    · exact ih

/-- The prefix up to the index is a subsequence. -/
theorem take_index_sublist (xs : List α) : List.Sublist (order.take (index order xs)) xs := by
  induction xs using List.reverseRecOn with
  | nil => simp
  | append_singleton xs x ih =>
    rw [index_concat, next]
    split
    · rename_i h
      rw [List.take_add_one, h]
      exact ih.append (List.Sublist.refl [x])
    · exact ih.trans (List.sublist_append_left xs [x])

/-- No longer prefix is. -/
theorem le_index {k : Nat} (hk : k ≤ order.length) :
    ∀ {xs : List α}, List.Sublist (order.take k) xs → k ≤ index order xs := by
  intro xs
  induction xs using List.reverseRecOn generalizing k with
  | nil =>
    intro h
    have hlen := h.length_le
    rw [List.length_take, List.length_nil] at hlen
    omega
  | append_singleton xs x ih =>
    intro h
    rw [index_concat]
    have hmono : index order xs ≤ next order (index order xs) x := by
      unfold next
      split
      · exact Nat.le_succ _
      · exact Nat.le_refl _
    cases k with
    | zero => exact Nat.zero_le _
    | succ k =>
      rw [List.take_add_one, List.getElem?_eq_getElem hk] at h
      rcases concat_sublist_concat_iff.1 h with h | ⟨hx, h⟩
      · have hsub : List.Sublist (order.take (k + 1)) xs := by
          rw [List.take_add_one, List.getElem?_eq_getElem hk]
          exact h
        exact Nat.le_trans (ih hk hsub) hmono
      · -- the last element is the one the walk waits for, unless it is further already
        have hprev := ih (Nat.le_of_lt hk) h
        rcases Nat.eq_or_lt_of_le hprev with heq | hlt
        · have hnext : next order (index order xs) x = k + 1 := by
            rw [← heq, next, List.getElem?_eq_getElem hk, hx, if_pos rfl]
          exact Nat.le_of_eq hnext.symm
        · exact Nat.le_trans hlt hmono

/-- The whole order is a subsequence exactly if the walk comes to its end. -/
theorem sublist_iff (xs : List α) : List.Sublist order xs ↔ index order xs = order.length := by
  constructor
  · intro h
    refine Nat.le_antisymm (index_le order xs) (le_index order (Nat.le_refl _) ?_)
    rwa [List.take_length]
  · intro h
    have hsub := take_index_sublist order xs
    rwa [h, List.take_length] at hsub

end Greedy
