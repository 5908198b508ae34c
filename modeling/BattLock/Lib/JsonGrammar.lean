import BattLock.Lib.Json
import Mathlib.Data.List.TakeDrop
import Mathlib.Data.List.TakeWhile

/-!
# The grammar of JSON texts

`Text text v` says what a text of the value `v` looks like to the `json` module: `Chars` is the
inside of a string literal, `Number` a number, `Value n` a value with at most `n` arrays and objects
open at a time. The scanners of string literals and of the parts of a number take what the grammar
says, and read it wherever it stands.
-/

namespace Python.Json

/-! ## The grammar -/

/-- White space. -/
def Blank (ws : List Char) : Prop := ∀ c ∈ ws, IsSpace c

/-- Four hexadecimal digits. -/
inductive Hex4 : List Char → Nat → Prop
  | digits {a b c d : Char} {x y z w : Nat} : hexValue? a = some x → hexValue? b = some y →
      hexValue? c = some z → hexValue? d = some w →
      Hex4 [a, b, c, d] (((x * 16 + y) * 16 + z) * 16 + w)

/-- The text starts with an escaped low surrogate. -/
def StartsLow (cs : List Char) : Prop :=
  ∃ digits n rest, cs = '\\' :: 'u' :: digits ++ rest ∧ Hex4 digits n ∧ IsLow n

/-- The inside of a string literal, and the string. -/
inductive Chars : List Char → Str → Prop
  | nil : Chars [] []
  | char {c : Char} {cs : List Char} {s : Str} : 0x20 ≤ c.toNat → c ≠ '"' → c ≠ '\\' →
      Chars cs s → Chars (c :: cs) (CodePoint.ofChar c :: s)
  | escape {e : Char} {p : CodePoint} {cs : List Char} {s : Str} : (e, p) ∈ escapes →
      Chars cs s → Chars ('\\' :: e :: cs) (p :: s)
  | unit {digits : List Char} {n : Nat} {cs : List Char} {s : Str} : Hex4 digits n →
      ¬ (IsHigh n ∧ StartsLow cs) → Chars cs s →
      Chars ('\\' :: 'u' :: digits ++ cs) (Fin.ofNat _ n :: s)
  | pair {high low : List Char} {hi lo : Nat} {cs : List Char} {s : Str} : Hex4 high hi →
      IsHigh hi → Hex4 low lo → IsLow lo → Chars cs s →
      Chars ('\\' :: 'u' :: high ++ '\\' :: 'u' :: low ++ cs) (joined hi lo :: s)

/-- One digit or more. -/
structure Digits (ds : List Char) : Prop where
  ne_nil : ds ≠ []
  isDigit : ∀ c ∈ ds, c.isDigit = true

inductive Whole : List Char → Prop
  | zero : Whole ['0']
  | digits {c : Char} {ds : List Char} : c ≠ '0' → Digits (c :: ds) → Whole (c :: ds)

inductive Frac : List Char → Prop
  | none : Frac []
  | some {ds : List Char} : Digits ds → Frac ('.' :: ds)

inductive Exp : List Char → Prop
  | none : Exp []
  | some {e : Char} {sign ds : List Char} : e = 'e' ∨ e = 'E' →
      sign = [] ∨ sign = ['-'] ∨ sign = ['+'] → Digits ds → Exp (e :: sign ++ ds)

section
variable [Interpreter]

/-- A number; the digits of an integer are limited. -/
inductive Number : List Char → Prop
  | parts {sign whole frac exp : List Char} : sign = [] ∨ sign = ['-'] → Whole whole → Frac frac →
      Exp exp → (frac = [] → exp = [] → Interpreter.Takes whole.length) →
      Number (sign ++ whole ++ frac ++ exp)

/-- A value with white space around it. -/
structure Item where
  before : List Char
  text : List Char
  value : Json
  after : List Char

def Item.chars (i : Item) : List Char := i.before ++ i.text ++ i.after

/-- A key with white space around it, and the value behind the colon. -/
structure MemberText where
  before : List Char
  keyText : List Char
  key : Str
  gap : List Char
  item : Item

def MemberText.chars (m : MemberText) : List Char :=
  m.before ++ '"' :: m.keyText ++ '"' :: m.gap ++ ':' :: m.item.chars

def MemberText.member (m : MemberText) : Str × Json := (m.key, m.item.value)

/-- Texts with a comma between them. -/
def commas : List (List Char) → List Char
  | [] => []
  | [text] => text
  | text :: texts => text ++ ',' :: commas texts

/-- The text of a value with at most `n` arrays and objects open at a time. -/
inductive Value : Nat → List Char → Json → Prop
  | null {n : Nat} : Value n "null".toList null
  | bool {n : Nat} (b : Bool) : Value n (if b then "true".toList else "false".toList) (bool b)
  | constant {n : Nat} {w : String} : w ∈ ["NaN", "Infinity", "-Infinity"] →
      Value n w.toList (number w.toList)
  | number {n : Nat} {literal : List Char} : Number literal → Value n literal (number literal)
  | str {n : Nat} {cs : List Char} {s : Str} : Chars cs s → Value n ('"' :: cs ++ ['"']) (str s)
  | emptyArray {n : Nat} {ws : List Char} : Blank ws → Value (n + 1) ('[' :: ws ++ [']']) (array [])
  | array {n : Nat} {items : List Item} : items ≠ [] →
      (∀ i ∈ items, Blank i.before ∧ Blank i.after) →
      (∀ i ∈ items, Value n i.text i.value) →
      Value (n + 1) ('[' :: commas (items.map Item.chars) ++ [']']) (array (items.map Item.value))
  | emptyObject {n : Nat} {ws : List Char} : Blank ws →
      Value (n + 1) ('{' :: ws ++ ['}']) (object [])
  | object {n : Nat} {members : List MemberText} : members ≠ [] →
      (∀ m ∈ members, Blank m.before ∧ Chars m.keyText m.key ∧ Blank m.gap ∧
        Blank m.item.before ∧ Blank m.item.after) →
      (∀ m ∈ members, Value n m.item.text m.item.value) →
      Value (n + 1) ('{' :: commas (members.map MemberText.chars) ++ ['}'])
        (object (members.map MemberText.member))

/-- A value with white space around it. -/
inductive Text : List Char → Json → Prop
  | mk {before text after : List Char} {v : Json} : Blank before → Blank after →
      Value Interpreter.maxNesting text v → Text (before ++ text ++ after) v

end

/-! ## White space -/

theorem skipSpace_eq (cs : List Char) : ∃ ws, Blank ws ∧ cs = ws ++ skipSpace cs := by
  induction cs with
  | nil => exact ⟨[], by simp [Blank], rfl⟩
  | cons c cs ih =>
    rw [skipSpace]
    split
    · rename_i hc
      obtain ⟨ws, hws, hcs⟩ := ih
      refine ⟨c :: ws, List.forall_mem_cons.2 ⟨hc, hws⟩, ?_⟩
      rw [List.cons_append, ← hcs]
    · exact ⟨[], by simp [Blank], rfl⟩

theorem Blank.skipSpace {ws : List Char} (h : Blank ws) (rest : List Char) :
    skipSpace (ws ++ rest) = Json.skipSpace rest := by
  induction ws with
  | nil => rfl
  | cons c ws ih =>
    obtain ⟨hc, hws⟩ := List.forall_mem_cons.1 h
    rw [List.cons_append, Json.skipSpace, if_pos hc, ih hws]

theorem skipSpace_of_not {c : Char} (hc : ¬ IsSpace c) (cs : List Char) :
    skipSpace (c :: cs) = c :: cs := by rw [skipSpace, if_neg hc]

theorem blank_nil : Blank [] := fun _ h => absurd h List.not_mem_nil

theorem Blank.append {ws ws' : List Char} (h : Blank ws) (h' : Blank ws') : Blank (ws ++ ws') :=
  List.forall_mem_append.2 ⟨h, h'⟩

/-- White space in front of a first part belongs to it. -/
theorem commas_prepend (ws text : List Char) (texts : List (List Char)) :
    ws ++ commas (text :: texts) = commas ((ws ++ text) :: texts) := by
  cases texts with
  | nil => rfl
  | cons text' texts => simp [commas]

/-- A part, a comma and other parts. -/
theorem commas_cons (text : List Char) {texts : List (List Char)} (h : texts ≠ []) :
    commas (text :: texts) = text ++ ',' :: commas texts := by
  obtain ⟨text', texts, rfl⟩ := List.exists_cons_of_ne_nil h
  rfl

/-! ## String literals -/

theorem hex4_iff {cs rest : List Char} {n : Nat} :
    hex4 cs = .ok (n, rest) ↔ ∃ digits, cs = digits ++ rest ∧ Hex4 digits n := by
  constructor
  · intro h
    unfold hex4 at h
    split at h
    · split at h
      · rename_i ha hb hc hd
        cases h
        exact ⟨_, rfl, .digits ha hb hc hd⟩
      · cases h
    · cases h
  · rintro ⟨_, rfl, ⟨ha, hb, hc, hd⟩⟩
    simp only [List.cons_append, List.nil_append, hex4, ha, hb, hc, hd]

/-- The digits determine the number and the rest. -/
theorem Hex4.hex4 {digits : List Char} {n : Nat} (h : Hex4 digits n) (rest : List Char) :
    hex4 (digits ++ rest) = .ok (n, rest) := hex4_iff.2 ⟨digits, rfl, h⟩

/-- An escape after its `u`, in front of the rest of a literal. -/
theorem scanUnit_sound {text cs rest : List Char} {p : CodePoint} {s : Str}
    (h : scanUnit text = .ok (p, cs ++ '"' :: rest)) (hcs : Chars cs s) :
    ∃ body, '\\' :: 'u' :: text = body ++ '"' :: rest ∧ Chars body (p :: s) := by
  obtain ⟨⟨hi, tail⟩, hhex, hcont⟩ := bind_eq_ok.1 h
  obtain ⟨high, rfl, hhigh⟩ := hex4_iff.1 hhex
  -- a unit that is not the first half of a pair
  have hunit : (Except.ok (Fin.ofNat _ hi, tail) : Except Err _) = .ok (p, cs ++ '"' :: rest) →
      ¬ (IsHigh hi ∧ StartsLow tail) →
      ∃ body, '\\' :: 'u' :: (high ++ tail) = body ++ '"' :: rest ∧ Chars body (p :: s) := by
    intro hok hnot
    cases hok
    refine ⟨'\\' :: 'u' :: high ++ cs, by simp, .unit hhigh (fun hpair => hnot ⟨hpair.1, ?_⟩) hcs⟩
    obtain ⟨digits, n, more, rfl, hlow⟩ := hpair.2
    exact ⟨digits, n, more ++ '"' :: rest, by simp, hlow⟩
  dsimp only at hcont
  split at hcont
  · rename_i hrange
    split at hcont
    · obtain ⟨⟨lo, tail'⟩, hhex', hcont⟩ := bind_eq_ok.1 hcont
      obtain ⟨low, rfl, hlow⟩ := hex4_iff.1 hhex'
      dsimp only at hcont
      split at hcont
      · rename_i hrange'
        simp only [pure_eq_ok, Except.ok.injEq, Prod.mk.injEq] at hcont
        obtain ⟨rfl, rfl⟩ := hcont
        exact ⟨'\\' :: 'u' :: high ++ '\\' :: 'u' :: low ++ cs, by simp,
          .pair hhigh hrange hlow hrange' hcs⟩
      · rename_i hrange'
        refine hunit hcont ?_
        rintro ⟨-, digits, n, more, heq, hdigits, hn⟩
        simp only [List.cons_append, List.cons.injEq, true_and] at heq
        have hsame := hdigits.hex4 more
        rw [← heq, hhex'] at hsame
        cases hsame
        exact hrange' hn
    · rename_i hnot
      refine hunit hcont ?_
      rintro ⟨-, digits, n, more, heq, -⟩
      exact hnot _ heq
  · rename_i hrange
    exact hunit hcont fun hpair => hrange hpair.1

theorem scanEscape_sound {text cs rest : List Char} {p : CodePoint} {s : Str}
    (h : scanEscape text = .ok (p, cs ++ '"' :: rest)) (hcs : Chars cs s) :
    ∃ body, '\\' :: text = body ++ '"' :: rest ∧ Chars body (p :: s) := by
  cases text with
  | nil => cases h
  | cons c text =>
    rw [scanEscape] at h
    split at h
    · rename_i q hlookup
      cases h
      obtain ⟨l₁, l₂, hescapes, -⟩ := List.lookup_eq_some_iff.1 hlookup
      have hmem : (c, p) ∈ escapes := by
        rw [hescapes]
        exact List.mem_append_right _ List.mem_cons_self
      exact ⟨_, rfl, .escape hmem hcs⟩
    · split at h
      · rename_i hc
        rw [hc]
        exact scanUnit_sound h hcs
      · cases h

theorem scanString_sound {fuel : Nat} {cs rest : List Char} {s : Str}
    (h : scanString fuel cs = .ok (s, rest)) : ∃ body, cs = body ++ '"' :: rest ∧ Chars body s := by
  induction fuel generalizing cs s with
  | zero => cases h
  | succ fuel ih =>
    cases cs with
    | nil => cases h
    | cons c cs =>
      rw [scanString] at h
      split at h
      · rename_i hc
        cases h
        exact ⟨[], by rw [hc]; rfl, .nil⟩
      rename_i hquote
      split at h
      · cases h
      rename_i hcontrol
      split at h
      · rename_i hslash
        obtain ⟨⟨p, tail⟩, hescape, h⟩ := bind_eq_ok.1 h
        obtain ⟨⟨s', tail'⟩, hrest, h⟩ := bind_eq_ok.1 h
        cases h
        obtain ⟨body, rfl, hbody⟩ := ih hrest
        rw [hslash]
        exact scanEscape_sound hescape hbody
      · rename_i hslash
        obtain ⟨⟨s', tail⟩, hrest, h⟩ := bind_eq_ok.1 h
        cases h
        obtain ⟨body, rfl, hbody⟩ := ih hrest
        exact ⟨c :: body, rfl, .char (Nat.le_of_not_lt hcontrol) hquote hslash hbody⟩

theorem scanEscape_letter {e : Char} {p : CodePoint} (he : (e, p) ∈ escapes) (cs : List Char) :
    scanEscape (e :: cs) = .ok (p, cs) := by
  simp only [escapes, List.mem_cons, Prod.mk.injEq, List.not_mem_nil, or_false] at he
  rcases he with ⟨rfl, rfl⟩ | ⟨rfl, rfl⟩ | ⟨rfl, rfl⟩ | ⟨rfl, rfl⟩ | ⟨rfl, rfl⟩ | ⟨rfl, rfl⟩ |
    ⟨rfl, rfl⟩ | ⟨rfl, rfl⟩ <;> rfl

/-- An escaped unit in front of the rest of a literal. -/
theorem scanEscape_unit {digits cs : List Char} {n : Nat} {s : Str} (hdigits : Hex4 digits n)
    (hnot : ¬ (IsHigh n ∧ StartsLow cs)) (hcs : Chars cs s) (rest : List Char) :
    scanEscape ('u' :: (digits ++ (cs ++ '"' :: rest))) =
      .ok (Fin.ofNat _ n, cs ++ '"' :: rest) := by
  have hhex := hdigits.hex4 (cs ++ '"' :: rest)
  show scanUnit _ = _
  rw [scanUnit, hhex, ok_bind]
  dsimp only
  split
  · rename_i hhigh
    have hlow : ¬ StartsLow cs := fun h => hnot ⟨hhigh, h⟩
    -- what may stand behind it
    cases hcs with
    | nil => rfl
    | char hc hquote hslash _ =>
      split
      · rename_i heq
        simp only [List.cons_append, List.cons.injEq] at heq
        exact absurd heq.1 hslash
      · rfl
    | @escape e p cs s he _ =>
      split
      · rename_i heq
        simp only [List.cons_append, List.cons.injEq, true_and] at heq
        rw [heq.1] at he
        simp [escapes] at he
      · rfl
    | @unit digits' m cs s hdigits' _ _ =>
      have hhex' := hdigits'.hex4 (cs ++ '"' :: rest)
      simp only [List.cons_append, List.append_assoc, hhex', ok_bind]
      rw [if_neg fun hm => hlow ⟨digits', m, cs, rfl, hdigits', hm⟩]
      rfl
    | @pair high low hi lo cs s hhigh' hrange _ _ _ =>
      have hhex' := hhigh'.hex4 ('\\' :: 'u' :: low ++ cs ++ '"' :: rest)
      simp only [List.cons_append, List.append_assoc] at hhex' ⊢
      rw [hhex', ok_bind]
      dsimp only
      rw [if_neg]
      · rfl
      · rintro ⟨hlo, -⟩
        have hhi := hrange.2
        omega
  · rfl

theorem scanEscape_pair {high low cs : List Char} {hi lo : Nat} (hhigh : Hex4 high hi)
    (hrange : IsHigh hi) (hlow : Hex4 low lo) (hrange' : IsLow lo) :
    scanEscape ('u' :: (high ++ '\\' :: 'u' :: (low ++ cs))) = .ok (joined hi lo, cs) := by
  have hhex := hhigh.hex4 ('\\' :: 'u' :: (low ++ cs))
  have hhex' := hlow.hex4 cs
  show scanUnit _ = _
  rw [scanUnit, hhex, ok_bind]
  dsimp only
  rw [if_pos hrange]
  show (hex4 (low ++ cs) >>= _) = _
  rw [hhex', ok_bind, if_pos hrange']
  rfl

/-- An escape that reads as a code point. -/
theorem scanString_escape {p : CodePoint} {text cs : List Char} {fuel : Nat}
    (h : scanEscape text = .ok (p, cs)) :
    scanString (fuel + 1) ('\\' :: text) =
      (do let (s, rest) ← scanString fuel cs
          return (p :: s, rest)) := by
  rw [scanString, if_neg (by decide), if_neg (by decide), if_pos rfl, h]
  rfl

/-- **A string literal is read.** -/
theorem Chars.scanString {body : List Char} {s : Str} (h : Chars body s) {fuel : Nat}
    (hfuel : body.length < fuel) (rest : List Char) :
    scanString fuel (body ++ '"' :: rest) = .ok (s, rest) := by
  induction h generalizing fuel with
  | nil =>
    obtain ⟨fuel, rfl⟩ := Nat.exists_eq_succ_of_ne_zero (show fuel ≠ 0 by omega)
    rfl
  | @char c cs s hc hquote hslash _ ih =>
    obtain ⟨fuel, rfl⟩ := Nat.exists_eq_succ_of_ne_zero (show fuel ≠ 0 by omega)
    rw [List.length_cons] at hfuel
    rw [List.cons_append, Json.scanString, if_neg hquote, if_neg (Nat.not_lt.2 hc), if_neg hslash,
      ih (by omega)]
    rfl
  | @escape e p cs s he _ ih =>
    obtain ⟨fuel, rfl⟩ := Nat.exists_eq_succ_of_ne_zero (show fuel ≠ 0 by omega)
    simp only [List.length_cons] at hfuel
    rw [List.cons_append, List.cons_append, scanString_escape (scanEscape_letter he _),
      ih (by omega)]
    rfl
  | @unit digits n cs s hdigits hnot hcs ih =>
    obtain ⟨fuel, rfl⟩ := Nat.exists_eq_succ_of_ne_zero (show fuel ≠ 0 by omega)
    simp only [List.length_cons, List.length_append] at hfuel
    have htext : '\\' :: 'u' :: digits ++ cs ++ '"' :: rest =
        '\\' :: 'u' :: (digits ++ (cs ++ '"' :: rest)) := by simp
    rw [htext, scanString_escape (scanEscape_unit hdigits hnot hcs rest), ih (by omega)]
    rfl
  | @pair high low hi lo cs s hhigh hrange hlow hrange' _ ih =>
    obtain ⟨fuel, rfl⟩ := Nat.exists_eq_succ_of_ne_zero (show fuel ≠ 0 by omega)
    simp only [List.length_cons, List.length_append] at hfuel
    have htext : '\\' :: 'u' :: high ++ '\\' :: 'u' :: low ++ cs ++ '"' :: rest =
        '\\' :: 'u' :: (high ++ '\\' :: 'u' :: (low ++ (cs ++ '"' :: rest))) := by simp
    rw [htext, scanString_escape (scanEscape_pair hhigh hrange hlow hrange'), ih (by omega)]
    rfl

/-! ## Numbers -/

/-- A text does not start with a character that has a property. -/
def NotStarting (P : Char → Prop) (cs : List Char) : Prop := ∀ c ∈ cs.head?, ¬ P c

theorem spanDigits_spec (cs : List Char) : cs = (spanDigits cs).1 ++ (spanDigits cs).2 ∧
    ∀ c ∈ (spanDigits cs).1, c.isDigit = true := by
  rw [spanDigits, List.span_eq_takeWhile_dropWhile]
  exact ⟨List.takeWhile_append_dropWhile.symm, fun c hc => List.mem_takeWhile_imp hc⟩

theorem spanDigits_append {ds rest : List Char} (hds : ∀ c ∈ ds, c.isDigit = true)
    (hrest : NotStarting (·.isDigit = true) rest) : spanDigits (ds ++ rest) = (ds, rest) := by
  rw [spanDigits, List.span_eq_takeWhile_dropWhile, List.takeWhile_append_of_pos hds,
    List.dropWhile_append_of_pos hds]
  cases rest with
  | nil => simp
  | cons c rest =>
    have hc : ¬ c.isDigit = true := hrest c rfl
    rw [List.takeWhile_cons_of_neg hc, List.dropWhile_cons_of_neg hc, List.append_nil]

theorem scanSign_sound (cs : List Char) : cs = (scanSign cs).1 ++ (scanSign cs).2 ∧
    ((scanSign cs).1 = [] ∨ (scanSign cs).1 = ['-']) := by
  unfold scanSign
  split
  · exact ⟨rfl, .inr rfl⟩
  · exact ⟨rfl, .inl rfl⟩

theorem scanWhole_sound (cs : List Char) : cs = (scanWhole cs).1 ++ (scanWhole cs).2 ∧
    ((scanWhole cs).1 ≠ [] → Whole (scanWhole cs).1) := by
  unfold scanWhole
  split
  · exact ⟨rfl, fun _ => .zero⟩
  · rename_i hzero
    obtain ⟨hcs, hdigits⟩ := spanDigits_spec cs
    refine ⟨hcs, fun hne => ?_⟩
    obtain ⟨c, ds, hds⟩ := List.exists_cons_of_ne_nil hne
    rw [hds] at hcs hdigits ⊢
    exact .digits (fun hc => hzero _ (by rw [hcs, hc]; rfl)) ⟨List.cons_ne_nil _ _, hdigits⟩

theorem scanFrac_sound (cs : List Char) : cs = (scanFrac cs).1 ++ (scanFrac cs).2 ∧
    Frac (scanFrac cs).1 := by
  unfold scanFrac
  split
  · rename_i cs
    split
    · exact ⟨rfl, .none⟩
    · rename_i hne
      obtain ⟨hcs, hdigits⟩ := spanDigits_spec cs
      exact ⟨congrArg ('.' :: ·) hcs, .some ⟨fun h => hne (by rw [h]; rfl), hdigits⟩⟩
  · exact ⟨rfl, .none⟩

theorem scanExpSign_sound (cs : List Char) : cs = (scanExpSign cs).1 ++ (scanExpSign cs).2 ∧
    ((scanExpSign cs).1 = [] ∨ (scanExpSign cs).1 = ['-'] ∨ (scanExpSign cs).1 = ['+']) := by
  unfold scanExpSign
  split
  · exact ⟨rfl, .inr (.inl rfl)⟩
  · exact ⟨rfl, .inr (.inr rfl)⟩
  · exact ⟨rfl, .inl rfl⟩

theorem scanExp_sound (cs : List Char) : cs = (scanExp cs).1 ++ (scanExp cs).2 ∧
    Exp (scanExp cs).1 := by
  cases cs with
  | nil => exact ⟨rfl, .none⟩
  | cons e cs =>
    rw [scanExp]
    split
    · rename_i he
      dsimp only
      split
      · exact ⟨rfl, .none⟩
      · rename_i hne
        obtain ⟨hcs, hsign⟩ := scanExpSign_sound cs
        obtain ⟨hrest, hdigits⟩ := spanDigits_spec (scanExpSign cs).2
        refine ⟨?_, .some he hsign ⟨fun h => hne (by rw [h]; rfl), hdigits⟩⟩
        simp only [List.cons_append, List.append_assoc]
        rw [← hrest, ← hcs]
    · exact ⟨rfl, .none⟩

/-- A character that can continue a number. -/
def Continues (c : Char) : Prop := c.isDigit = true ∨ c = '.' ∨ c = 'e' ∨ c = 'E'

theorem Whole.scanWhole {whole rest : List Char} (h : Whole whole)
    (hrest : NotStarting (·.isDigit = true) rest) : scanWhole (whole ++ rest) = (whole, rest) := by
  cases h with
  | zero => rfl
  | @digits c ds hc hds =>
    unfold Json.scanWhole
    split
    · rename_i heq
      exact absurd (List.cons.inj heq).1 hc
    · exact spanDigits_append hds.isDigit hrest

theorem Frac.scanFrac {frac rest : List Char} (h : Frac frac)
    (hrest : NotStarting (fun c => c.isDigit = true ∨ c = '.') rest) :
    scanFrac (frac ++ rest) = (frac, rest) := by
  cases h with
  | none =>
    unfold Json.scanFrac
    split
    · rename_i heq
      rw [List.nil_append] at heq
      rw [heq] at hrest
      exact absurd (.inr rfl) (hrest '.' rfl)
    · rfl
  | @some ds hds =>
    have hspan : spanDigits (ds ++ rest) = (ds, rest) :=
      spanDigits_append hds.isDigit fun c hc h => hrest c hc (.inl h)
    rw [List.cons_append, Json.scanFrac, hspan, if_neg]
    rw [List.isEmpty_iff]
    exact hds.ne_nil

theorem scanExpSign_append {sign ds : List Char} (hsign : sign = [] ∨ sign = ['-'] ∨ sign = ['+'])
    (hds : Digits ds) (rest : List Char) :
    scanExpSign (sign ++ (ds ++ rest)) = (sign, ds ++ rest) := by
  rcases hsign with rfl | rfl | rfl
  · obtain ⟨c, cs, rfl⟩ := List.exists_cons_of_ne_nil hds.ne_nil
    have hdigit := hds.isDigit c List.mem_cons_self
    unfold scanExpSign
    split
    · rename_i heq
      rw [(List.cons.inj heq).1] at hdigit
      exact absurd hdigit (by decide)
    · rename_i heq
      rw [(List.cons.inj heq).1] at hdigit
      exact absurd hdigit (by decide)
    · rfl
  · rfl
  · rfl

theorem Exp.scanExp {exp rest : List Char} (h : Exp exp) (hrest : NotStarting Continues rest) :
    scanExp (exp ++ rest) = (exp, rest) := by
  cases h with
  | none =>
    cases rest with
    | nil => rfl
    | cons c rest =>
      have hc : ¬ (c = 'e' ∨ c = 'E') := fun hc => hrest c rfl (.inr (.inr hc))
      rw [List.nil_append, Json.scanExp, if_neg hc]
  | @some e sign ds he hsign hds =>
    have htext : e :: sign ++ ds ++ rest = e :: (sign ++ (ds ++ rest)) := by simp
    have hspan : spanDigits (ds ++ rest) = (ds, rest) :=
      spanDigits_append hds.isDigit fun c hc h => hrest c hc (.inl h)
    rw [htext, Json.scanExp, if_pos he]
    dsimp only
    rw [scanExpSign_append hsign hds, hspan, if_neg]
    rw [List.isEmpty_iff]
    exact hds.ne_nil

/-- What stands behind the whole part or the fraction of a number. -/
theorem Exp.notStarting {exp rest : List Char} (h : Exp exp) (hrest : NotStarting Continues rest) :
    NotStarting (fun c => c.isDigit = true ∨ c = '.') (exp ++ rest) := by
  cases h with
  | none => exact fun c hc h => hrest c hc (h.elim .inl fun h => .inr (.inl h))
  | some he _ _ =>
    intro c hc h
    obtain rfl : c = _ := (Option.some.inj hc).symm
    rcases he with rfl | rfl
    · revert h; decide
    · revert h; decide

theorem Frac.notStarting {frac rest : List Char} (h : Frac frac)
    (hrest : NotStarting (fun c => c.isDigit = true ∨ c = '.') rest) :
    NotStarting (·.isDigit = true) (frac ++ rest) := by
  cases h with
  | none => exact fun c hc h => hrest c hc (.inl h)
  | some _ =>
    intro c hc h
    obtain rfl : c = _ := (Option.some.inj hc).symm
    exact absurd h (by decide)

/-- The first character of a whole part is a digit. -/
theorem Whole.eq_cons {whole : List Char} (h : Whole whole) :
    ∃ c cs, whole = c :: cs ∧ c.isDigit = true := by
  cases h with
  | zero => exact ⟨_, _, rfl, rfl⟩
  | digits _ hds => exact ⟨_, _, rfl, hds.isDigit _ List.mem_cons_self⟩

theorem scanSign_append {sign whole : List Char} (hsign : sign = [] ∨ sign = ['-'])
    (hwhole : Whole whole) (rest : List Char) :
    scanSign (sign ++ (whole ++ rest)) = (sign, whole ++ rest) := by
  rcases hsign with rfl | rfl
  · obtain ⟨c, cs, rfl, hdigit⟩ := hwhole.eq_cons
    unfold scanSign
    split
    · rename_i heq
      rw [(List.cons.inj heq).1] at hdigit
      exact absurd hdigit (by decide)
    · rfl
  · rfl

/-! ## Words -/

theorem dropWord_eq_some {word : String} {cs rest : List Char} (h : dropWord word cs = some rest) :
    cs = word.toList ++ rest := by
  unfold dropWord at h
  split at h
  · rename_i hprefix
    cases h
    obtain ⟨t, rfl⟩ := List.isPrefixOf_iff_prefix.1 hprefix
    rw [← String.length_toList, List.drop_left]
  · cases h

/-- A text that differs from a word does not start with it. -/
theorem dropWord_eq_none {word : String} {cs : List Char}
    (h : ∀ rest, cs ≠ word.toList ++ rest) : dropWord word cs = none := by
  rw [dropWord, if_neg]
  intro hprefix
  obtain ⟨t, ht⟩ := List.isPrefixOf_iff_prefix.1 hprefix
  exact h t ht.symm

end Python.Json
