import Mathlib.Data.List.Basic

/-!
# A line of text in order and without loss

`Link τ` is one direction of a serial line: what has arrived and is not read yet, and what is still
on its way. Every character carries a tag of `τ` that says who caused it. `readline` takes what has
arrived up to the first newline. If the text before a message is empty or ends with a newline, the
next line read is either a part of the message or a line that was there before it
(`firstLine_append`): lines of different messages are never mixed.
-/

/-- One direction of a line. -/
structure Link (τ : Type) where
  arrived : List (τ × Char) := []
  inFlight : List (τ × Char) := []
deriving DecidableEq

namespace Link

variable {τ : Type}

/-- Everything that was sent and not read. -/
def unread (l : Link τ) : List (τ × Char) := l.arrived ++ l.inFlight

/-- A text is sent. -/
def send (l : Link τ) (tag : τ) (text : List Char) : Link τ :=
  { l with inFlight := l.inFlight ++ text.map (tag, ·) }

/-- The next `n` characters arrive. -/
def arrive (l : Link τ) (n : Nat) : Link τ :=
  ⟨l.arrived ++ l.inFlight.take n, l.inFlight.drop n⟩

/-- What has arrived is thrown away. -/
def clear (l : Link τ) : Link τ := { l with arrived := [] }

/-- The text up to the first newline, or all of it. -/
def firstLine : List (τ × Char) → List (τ × Char)
  | [] => []
  | c :: cs => if c.2 = '\n' then [c] else c :: firstLine cs

/-- The line at the front of what has arrived, and what is left. -/
def readline (l : Link τ) : List (τ × Char) × Link τ :=
  (firstLine l.arrived, { l with arrived := l.arrived.drop (firstLine l.arrived).length })

/-- The characters of a tagged text. -/
def text (xs : List (τ × Char)) : List Char := xs.map Prod.snd

/-! ## Lines -/

theorem firstLine_prefix (xs : List (τ × Char)) : List.IsPrefix (firstLine xs) xs := by
  induction xs with
  | nil => exact List.prefix_refl _
  | cons c xs ih =>
    unfold firstLine
    split
    · exact ⟨xs, rfl⟩
    · exact (List.prefix_cons_inj c).2 ih

/-- One line with its newline. -/
theorem firstLine_line {tag : τ} {t : List Char} (h : '\n' ∉ t) :
    firstLine ((t ++ ['\n']).map (tag, ·)) = (t ++ ['\n']).map (tag, ·) := by
  induction t with
  | nil => rfl
  | cons c t ih =>
    rw [List.mem_cons, not_or] at h
    rw [List.cons_append, List.map_cons, firstLine, if_neg (Ne.symm h.1), ih h.2]

/-- A part of one text: its characters, and who caused them. -/
theorem text_prefix {tag : τ} {xs : List (τ × Char)} {t : List Char}
    (h : List.IsPrefix xs (t.map (tag, ·))) :
    List.IsPrefix (text xs) t ∧ ∀ c ∈ xs, c.1 = tag := by
  constructor
  · have hmap := List.IsPrefix.map Prod.snd h
    rwa [List.map_map, show Prod.snd ∘ (fun c : Char => (tag, c)) = id from rfl, List.map_id]
      at hmap
  · intro c hc
    obtain ⟨a, -, rfl⟩ := List.mem_map.1 (h.subset hc)
    rfl

/-- A text is empty or ends with a newline. -/
def Terminated (xs : List (τ × Char)) : Prop := ∀ c ∈ xs.getLast?, c.2 = '\n'

theorem Terminated.append {xs ys : List (τ × Char)} (hx : Terminated xs) (hy : Terminated ys) :
    Terminated (xs ++ ys) := by
  intro c hc
  rw [List.getLast?_append] at hc
  cases hlast : ys.getLast? with
  | none =>
    rw [hlast, Option.none_or] at hc
    exact hx c hc
  | some d =>
    rw [hlast, Option.some_or] at hc
    exact hy c (hlast ▸ hc)

theorem Terminated.of_suffix {xs ys : List (τ × Char)} (h : Terminated ys)
    (hs : List.IsSuffix xs ys) : Terminated xs := by
  obtain ⟨zs, rfl⟩ := hs
  intro c hc
  refine h c ?_
  rw [List.getLast?_append, hc]
  rfl

/-- A text that is not empty and ends with a newline has its line in itself. -/
theorem Terminated.firstLine_append {xs : List (τ × Char)} (h : Terminated xs) (hne : xs ≠ [])
    (ys : List (τ × Char)) : firstLine (xs ++ ys) = firstLine xs := by
  induction xs with
  | nil => exact absurd rfl hne
  | cons c xs ih =>
    rw [List.cons_append, firstLine, firstLine]
    split
    · rfl
    · rename_i hc
      have hxs : xs ≠ [] := by
        rintro rfl
        exact hc (h c rfl)
      rw [ih (h.of_suffix (List.suffix_cons c xs)) hxs]

/-- **Lines are not mixed**: of what has arrived of an older text and a new one, the first line is
that of the older text alone, unless there is no older text. -/
theorem firstLine_take_append {xs ys : List (τ × Char)} (h : Terminated xs) (hne : xs ≠ [])
    (n : Nat) : firstLine ((xs ++ ys).take n) = firstLine (xs.take n) := by
  rcases Nat.le_total n xs.length with hn | hn
  · rw [List.take_append_of_le_length hn]
  · rw [List.take_append, List.take_of_length_le hn, h.firstLine_append hne]

/-! ## What is not read -/

@[simp] theorem unread_send (l : Link τ) (tag : τ) (t : List Char) :
    (l.send tag t).unread = l.unread ++ t.map (tag, ·) := by
  simp [unread, send]

@[simp] theorem unread_arrive (l : Link τ) (n : Nat) : (l.arrive n).unread = l.unread := by
  simp [unread, arrive]

/-- What a read leaves is the rest of the text. -/
theorem unread_readline (l : Link τ) : l.readline.1 ++ l.readline.2.unread = l.unread := by
  obtain ⟨rest, hrest⟩ := firstLine_prefix l.arrived
  have hdrop : l.arrived.drop (firstLine l.arrived).length = rest :=
    (congrArg (List.drop _) hrest.symm).trans List.drop_left
  rw [readline, unread, hdrop, unread, ← List.append_assoc, hrest]

/-- What has arrived is the front of what is not read. -/
theorem arrived_arrive (l : Link τ) (n : Nat) :
    (l.arrive n).arrived = l.unread.take (l.arrived.length + n) := by
  rw [arrive, unread, List.take_length_add_append]

end Link
