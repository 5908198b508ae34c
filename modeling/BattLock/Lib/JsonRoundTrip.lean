import BattLock.Lib.Hex
import BattLock.Lib.JsonParser

/-!
# Reading back what `json.dumps` writes

The text of a string without surrogates is in the grammar, whatever else it holds: quotes and
control characters are escaped, a character above the basic plane is written as a surrogate pair.
So is an object of such values, with any white space between its parts (`value_joinMembers`).
`loads_dumps` is the round trip.
-/

namespace Python.Json

/-! ## Characters -/

theorem hex4_dumpsUnit {n : Nat} (h : n < 0x10000) : Hex4 ((dumpsUnit n).drop 2) n := by
  have hdigit : ∀ m, hexValue? (hexDigit (m % 16)) = some (m % 16) := fun m =>
    (hexDigit_spec (Nat.mod_lt m (by decide))).1
  have hn : ((n / 4096 % 16 * 16 + n / 256 % 16) * 16 + n / 16 % 16) * 16 + n % 16 = n := by omega
  have hdigits := Hex4.digits (hdigit (n / 4096)) (hdigit (n / 256)) (hdigit (n / 16)) (hdigit n)
  rwa [hn] at hdigits

/-- The surrogates of a character above the basic plane. -/
theorem surrogates {n : Nat} (h : 0x10000 ≤ n) (hlt : n < 0x110000) :
    IsHigh (0xD800 + (n - 0x10000) / 0x400) ∧ IsLow (0xDC00 + (n - 0x10000) % 0x400) ∧
    0x10000 + (0xD800 + (n - 0x10000) / 0x400 - 0xD800) * 0x400 +
      (0xDC00 + (n - 0x10000) % 0x400 - 0xDC00) = n := by
  unfold IsHigh IsLow
  omega

section
variable {c : CodePoint} {cs : List Char} {s : Str} (hcs : Chars cs s)
include hcs

/-- An escape that is not a surrogate stands for itself. -/
theorem chars_unit (hc : c.val < 0x10000) (hvalid : c.val.isValidChar) :
    Chars (dumpsUnit c.val ++ cs) (c :: s) := by
  have hhigh : ¬ IsHigh c.val := by
    unfold IsHigh
    rcases hvalid with h | ⟨h, -⟩ <;> omega
  have hunit := Chars.unit (hex4_dumpsUnit hc) (fun h => hhigh h.1) hcs
  rwa [Fin.ofNat_val_eq_self c] at hunit

theorem chars_pair (hc : 0x10000 ≤ c.val) :
    Chars (dumpsUnit (0xD800 + (c.val - 0x10000) / 0x400) ++
      dumpsUnit (0xDC00 + (c.val - 0x10000) % 0x400) ++ cs) (c :: s) := by
  obtain ⟨hhigh, hlow, hsum⟩ := surrogates hc c.isLt
  have hjoined : joined (0xD800 + (c.val - 0x10000) / 0x400)
      (0xDC00 + (c.val - 0x10000) % 0x400) = c := by
    rw [joined, hsum, Fin.ofNat_val_eq_self]
  have hpair := Chars.pair (hex4_dumpsUnit (Nat.lt_of_le_of_lt hhigh.2 (by decide))) hhigh
    (hex4_dumpsUnit (Nat.lt_of_le_of_lt hlow.2 (by decide))) hlow hcs
  rwa [hjoined] at hpair

/-- A printable character stands for itself. -/
theorem chars_printable (h : 0x20 ≤ c.val ∧ c.val ≤ 0x7E) (hquote : c.val ≠ 0x22)
    (hslash : c.val ≠ 0x5C) : Chars (Char.ofNat c.val :: cs) (c :: s) := by
  have hnat : (Char.ofNat c.val).toNat = c.val := by
    rw [Char.ofNat, dif_pos (.inl (by omega))]
    rfl
  have hne : ∀ d : Char, d.toNat ≠ c.val → Char.ofNat c.val ≠ d := by
    rintro d hd rfl
    exact hd hnat
  have hchar : CodePoint.ofChar (Char.ofNat c.val) = c := by
    rw [Fin.ext_iff, CodePoint.val_ofChar, hnat]
  have hplain := Chars.char (by omega) (hne '"' (by simpa using hquote.symm))
    (hne '\\' (by simpa using hslash.symm)) hcs
  rwa [hchar] at hplain

/-- **One character of a string literal.** -/
theorem chars_dumpsChar (hc : c.val.isValidChar) : Chars (dumpsChar c ++ cs) (c :: s) := by
  have hescape : ∀ {e : Char} (p : CodePoint), (e, p) ∈ escapes → c.val = p.val →
      Chars (['\\', e] ++ cs) (c :: s) := by
    intro e p he h
    obtain rfl : c = p := Fin.ext h
    exact .escape he hcs
  unfold dumpsChar
  split_ifs with h1 h2 h3 h4 h5 h6 h7 h8 h9
  · exact hescape 0x22 (by decide) h1
  · exact hescape 0x5C (by decide) h2
  · exact hescape 0x0A (by decide) h3
  · exact hescape 0x0D (by decide) h4
  · exact hescape 0x09 (by decide) h5
  · exact hescape 0x0C (by decide) h6
  · exact hescape 0x08 (by decide) h7
  · exact chars_printable hcs h8 h1 h2
  · exact chars_unit hcs h9 hc
  · exact chars_pair hcs (Nat.le_of_not_lt h9)

end

theorem chars_flatMap {s : Str} (hs : s.IsUnicode) : Chars (s.flatMap dumpsChar) s := by
  induction s with
  | nil => exact .nil
  | cons c s ih =>
    obtain ⟨hc, hs⟩ := List.forall_mem_cons.1 hs
    exact chars_dumpsChar (ih hs) hc

/-! ## Values -/

section
variable [Interpreter] {n : Nat}

theorem value_dumpsStr {s : Str} (hs : s.IsUnicode) : Value n (dumpsStr s) (.str s) :=
  .str (chars_flatMap hs)

/-- Members with a separator behind each comma. -/
def joinMembers (sep : List Char) : List (Str × List Char) → List Char
  | [] => []
  | [(k, text)] => dumpsStr k ++ ": ".toList ++ text
  | (k, text) :: ms => dumpsStr k ++ ": ".toList ++ text ++ ',' :: sep ++ joinMembers sep ms

/-- A member as the writers write it. -/
def written (before : List Char) (k : Str) (text : List Char) (v : Json) (after : List Char) :
    MemberText :=
  ⟨before, k.flatMap dumpsChar, k, [], ⟨[' '], text, v, after⟩⟩

omit [Interpreter] in
theorem chars_written (before : List Char) (k : Str) (text : List Char) (v : Json)
    (after : List Char) : (written before k text v after).chars =
      before ++ (dumpsStr k ++ ": ".toList ++ text) ++ after := by
  simp [written, MemberText.chars, Item.chars, dumpsStr]

theorem members_written {opening sep close : List Char} (hopening : Blank opening)
    (hsep : Blank sep) (hclose : Blank close) {text : Json → List Char} {m : Str × Json}
    {members : List (Str × Json)}
    (h : ∀ m' ∈ m :: members, m'.1.IsUnicode ∧ Value n (text m'.2) m'.2) :
    ∃ parts, Members n parts ∧ parts.map MemberText.member = m :: members ∧
      commas (parts.map MemberText.chars) =
        opening ++ joinMembers sep ((m :: members).map fun m => (m.1, text m.2)) ++ close := by
  have hblank : Blank [' '] := by
    rintro c hc
    exact .inl (List.mem_singleton.1 hc)
  induction members generalizing m opening with
  | nil =>
    obtain ⟨k, v⟩ := m
    obtain ⟨hk, hv⟩ : k.IsUnicode ∧ Value n (text v) v := h _ List.mem_cons_self
    refine ⟨[written opening k (text v) v close], ⟨List.cons_ne_nil _ _, ?_, ?_⟩, rfl,
      chars_written _ _ _ _ _⟩
    · exact List.forall_mem_singleton.2
        ⟨hopening, chars_flatMap hk, blank_nil, hblank, hclose⟩
    · exact List.forall_mem_singleton.2 hv
  | cons m' members ih =>
    obtain ⟨k, v⟩ := m
    obtain ⟨⟨hk, hv⟩, hrest⟩ := List.forall_mem_cons.1 h
    obtain ⟨parts, hparts, hvalues, hchars⟩ := ih hsep hrest
    refine ⟨written opening k (text v) v [] :: parts, hparts.cons
      ⟨hopening, chars_flatMap hk, blank_nil, hblank, blank_nil⟩ hv, ?_, ?_⟩
    · rw [List.map_cons, hvalues]
      rfl
    · have hsplit : joinMembers sep (((k, v) :: m' :: members).map fun m => (m.1, text m.2)) =
        dumpsStr k ++ ": ".toList ++ text v ++ ',' :: sep ++
          joinMembers sep ((m' :: members).map fun m => (m.1, text m.2)) := rfl
      rw [List.map_cons, commas_cons _ (by simp [hparts.ne_nil]), hchars, hsplit, chars_written]
      simp

/-- **White space around the members of an object does not matter.** -/
theorem value_joinMembers {opening sep close : List Char} (hopening : Blank opening)
    (hsep : Blank sep) (hclose : Blank close) {text : Json → List Char} {m : Str × Json}
    {members : List (Str × Json)}
    (h : ∀ m' ∈ m :: members, m'.1.IsUnicode ∧ Value n (text m'.2) m'.2) :
    Value (n + 1)
      ('{' :: (opening ++ joinMembers sep ((m :: members).map fun m => (m.1, text m.2)) ++ close) ++
        ['}']) (.object (m :: members)) := by
  obtain ⟨parts, hparts, hvalues, hchars⟩ := members_written hopening hsep hclose h
  rw [← hchars, ← hvalues]
  exact hparts.toValue

omit [Interpreter] in
theorem dumpsMembers_eq (members : List (Str × Json)) :
    dumpsMembers members = joinMembers [' '] (members.map fun m => (m.1, dumps m.2)) := by
  induction members with
  | nil => rfl
  | cons m members ih =>
    cases members with
    | nil => rfl
    | cons m' members =>
      obtain ⟨k, v⟩ := m
      rw [dumpsMembers, ih]
      · simp [joinMembers]
      · simp

/-- **Objects of values in the grammar.** -/
theorem value_object {members : List (Str × Json)}
    (h : ∀ m ∈ members, m.1.IsUnicode ∧ Value n (dumps m.2) m.2) :
    Value (n + 1) (dumps (.object members)) (.object members) := by
  have hblank : Blank [' '] := by
    rintro c hc
    exact .inl (List.mem_singleton.1 hc)
  rw [dumps, dumpsMembers_eq]
  cases members with
  | nil => exact .emptyObject blank_nil
  | cons m members =>
    have hvalue := value_joinMembers blank_nil hblank blank_nil h
    rwa [List.nil_append, List.append_nil] at hvalue

/-- A value that is written without white space around it. -/
theorem loads_of_value {text : List Char} {v : Json} (h : Value Interpreter.maxNesting text v) :
    loads text = .ok v := by
  have htext := Text.mk blank_nil blank_nil h
  rw [List.nil_append, List.append_nil] at htext
  exact loads_iff.2 htext

/-- There is room for an object. -/
theorem exists_maxNesting : ∃ n, Interpreter.maxNesting = n + 1 :=
  Nat.exists_eq_succ_of_ne_zero (Nat.ne_of_gt Interpreter.nesting_pos)

end

end Python.Json
