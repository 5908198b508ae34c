import BattLock.Lib.JsonRoundTrip

/-!
# Indented JSON

The writer of `json.dump(v, f, indent=n)`: every item and member on a line of its own, indented by
its level. White space between the parts of a text does not matter to the grammar
(`value_joinMembers`), so an indented object of Unicode strings and such objects is read as the
object (`value_dumpsIndent`).
-/

namespace Python.Json

/-! ## Writing -/

/-- A line break with the indentation of a level. -/
def newline (indent level : Nat) : List Char := '\n' :: List.replicate (indent * level) ' '

mutual

/-- `json.dumps(v, indent=indent)` of a value at a level. -/
def dumpsIndent (indent level : Nat) : Json → List Char
  | null => dumps null
  | bool b => dumps (bool b)
  | number literal => literal
  | str s => dumpsStr s
  | array items =>
    if items.isEmpty then "[]".toList
    else '[' :: newline indent (level + 1) ++ dumpsIndentItems indent (level + 1) items ++
      newline indent level ++ [']']
  | object members =>
    if members.isEmpty then "{}".toList
    else '{' :: newline indent (level + 1) ++ dumpsIndentMembers indent (level + 1) members ++
      newline indent level ++ ['}']

def dumpsIndentItems (indent level : Nat) : List Json → List Char
  | [] => []
  | [v] => dumpsIndent indent level v
  | v :: vs => dumpsIndent indent level v ++ ',' :: newline indent level ++
      dumpsIndentItems indent level vs

def dumpsIndentMembers (indent level : Nat) : List (Str × Json) → List Char
  | [] => []
  | [(k, v)] => dumpsStr k ++ ": ".toList ++ dumpsIndent indent level v
  | (k, v) :: ms => dumpsStr k ++ ": ".toList ++ dumpsIndent indent level v ++
      ',' :: newline indent level ++ dumpsIndentMembers indent level ms

end

/-! ## Reading -/

theorem blank_newline (indent level : Nat) : Blank (newline indent level) := by
  refine List.forall_mem_cons.2 ⟨.inr (.inr (.inl rfl)), fun c hc => ?_⟩
  exact .inl (List.eq_of_mem_replicate hc)

theorem dumpsIndentMembers_eq (indent level : Nat) (members : List (Str × Json)) :
    dumpsIndentMembers indent level members = joinMembers (newline indent level)
      (members.map fun m => (m.1, dumpsIndent indent level m.2)) := by
  induction members with
  | nil => rfl
  | cons m members ih =>
    cases members with
    | nil => rfl
    | cons m' members =>
      obtain ⟨k, v⟩ := m
      rw [dumpsIndentMembers, ih]
      · rfl
      · simp

/-- **An indented object is in the grammar.** -/
theorem value_dumpsIndent [Interpreter] {n indent level : Nat} {members : List (Str × Json)}
    (h : ∀ m ∈ members, m.1.IsUnicode ∧ Value n (dumpsIndent indent (level + 1) m.2) m.2) :
    Value (n + 1) (dumpsIndent indent level (.object members)) (.object members) := by
  cases members with
  | nil => exact .emptyObject blank_nil
  | cons m members =>
    have htext : dumpsIndent indent level (.object (m :: members)) =
        '{' :: (newline indent (level + 1) ++
          dumpsIndentMembers indent (level + 1) (m :: members) ++
            newline indent level) ++ ['}'] := by
      rw [dumpsIndent]
      simp
    rw [htext, dumpsIndentMembers_eq]
    exact value_joinMembers (blank_newline _ _) (blank_newline _ _) (blank_newline _ _) h

end Python.Json
