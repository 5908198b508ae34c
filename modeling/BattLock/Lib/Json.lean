import BattLock.Lib.Python

/-!
# The `json` module

`loads` is the parser of `json.loads` on text (strict strings, `NaN` and the infinities accepted,
lone surrogates kept, the last of equal keys wins when a member is looked up) and `dumps` the
writer of `json.dumps` with its defaults (ASCII escapes, `", "` and `": "`). A number is kept as
its literal. Two limits of the interpreter stop the parser: the digits of an integer and the
arrays and objects open at a time (`Interpreter`). The parser runs on fuel, two units for each
character of the text.
-/

namespace Python

/-- The limits of the interpreter that a text can reach. -/
class Interpreter where
  /-- `sys.get_int_max_str_digits()`; 0 is no limit. -/
  intMaxStrDigits : Nat
  /-- How many arrays and objects can be open at a time before the recursion limit. -/
  maxNesting : Nat
  /-- An object can be read. -/
  nesting_pos : 0 < maxNesting

/-- `int` of a text with `n` digits does not raise. -/
def Interpreter.Takes [Interpreter] (n : Nat) : Prop := intMaxStrDigits = 0 ∨ n ≤ intMaxStrDigits

instance [Interpreter] (n : Nat) : Decidable (Interpreter.Takes n) :=
  inferInstanceAs (Decidable (_ ∨ _))

namespace CPython

/-- The digit limit of CPython, and a depth its recursion limit of 1000 leaves. -/
scoped instance : Interpreter := ⟨4300, 900, by decide⟩

end CPython

/-- A value of a JSON text. -/
inductive Json
  | null
  | bool (b : Bool)
  | number (literal : List Char)
  | str (s : Str)
  | array (items : List Json)
  | object (members : List (Str × Json))

namespace Json

/-! ## Writing -/

/-- The lower-case digit of a four-bit value. -/
def hexDigit (n : Nat) : Char :=
  if n < 10 then Char.ofNat (0x30 + n) else Char.ofNat (0x57 + n)

/-- `\uXXXX`. -/
def dumpsUnit (n : Nat) : List Char :=
  ['\\', 'u', hexDigit (n / 4096 % 16), hexDigit (n / 256 % 16), hexDigit (n / 16 % 16),
    hexDigit (n % 16)]

/-- One character of a string literal. -/
def dumpsChar (c : CodePoint) : List Char :=
  if c.val = 0x22 then ['\\', '"']
  else if c.val = 0x5C then ['\\', '\\']
  else if c.val = 0x0A then ['\\', 'n']
  else if c.val = 0x0D then ['\\', 'r']
  else if c.val = 0x09 then ['\\', 't']
  else if c.val = 0x0C then ['\\', 'f']
  else if c.val = 0x08 then ['\\', 'b']
  else if 0x20 ≤ c.val ∧ c.val ≤ 0x7E then [Char.ofNat c.val]
  else if c.val < 0x10000 then dumpsUnit c.val
  else dumpsUnit (0xD800 + (c.val - 0x10000) / 0x400) ++
    dumpsUnit (0xDC00 + (c.val - 0x10000) % 0x400)

def dumpsStr (s : Str) : List Char := '"' :: s.flatMap dumpsChar ++ ['"']

mutual

/-- `json.dumps(v)`. -/
def dumps : Json → List Char
  | null => "null".toList
  | bool b => if b then "true".toList else "false".toList
  | number literal => literal
  | str s => dumpsStr s
  | array items => '[' :: dumpsItems items ++ [']']
  | object members => '{' :: dumpsMembers members ++ ['}']

def dumpsItems : List Json → List Char
  | [] => []
  | [v] => dumps v
  | v :: vs => dumps v ++ ", ".toList ++ dumpsItems vs

def dumpsMembers : List (Str × Json) → List Char
  | [] => []
  | [(k, v)] => dumpsStr k ++ ": ".toList ++ dumps v
  | (k, v) :: ms => dumpsStr k ++ ": ".toList ++ dumps v ++ ", ".toList ++ dumpsMembers ms

end

/-! ## Reading -/

def IsSpace (c : Char) : Prop := c = ' ' ∨ c = '\t' ∨ c = '\n' ∨ c = '\r'

instance (c : Char) : Decidable (IsSpace c) := inferInstanceAs (Decidable (_ ∨ _))

def skipSpace : List Char → List Char
  | [] => []
  | c :: cs => if IsSpace c then skipSpace cs else c :: cs

def hexValue? (c : Char) : Option Nat :=
  if '0' ≤ c ∧ c ≤ '9' then some (c.toNat - 0x30)
  else if 'a' ≤ c ∧ c ≤ 'f' then some (c.toNat - 0x57)
  else if 'A' ≤ c ∧ c ≤ 'F' then some (c.toNat - 0x37)
  else none

/-- The four hexadecimal digits of a `\u` escape. -/
def hex4 : List Char → Except Err (Nat × List Char)
  | a :: b :: c :: d :: rest =>
    match hexValue? a, hexValue? b, hexValue? c, hexValue? d with
    | some a, some b, some c, some d => .ok (((a * 16 + b) * 16 + c) * 16 + d, rest)
    | _, _, _, _ => .error .jsonDecodeError
  | _ => .error .jsonDecodeError

def IsHigh (n : Nat) : Prop := 0xD800 ≤ n ∧ n ≤ 0xDBFF

def IsLow (n : Nat) : Prop := 0xDC00 ≤ n ∧ n ≤ 0xDFFF

instance (n : Nat) : Decidable (IsHigh n) := inferInstanceAs (Decidable (_ ∧ _))
instance (n : Nat) : Decidable (IsLow n) := inferInstanceAs (Decidable (_ ∧ _))

/-- The code point of a pair of surrogates. -/
def joined (hi lo : Nat) : CodePoint :=
  Fin.ofNat _ (0x10000 + (hi - 0xD800) * 0x400 + (lo - 0xDC00))

/-- An escape after its `u`: a high surrogate joins with an escaped low one that follows. -/
def scanUnit (cs : List Char) : Except Err (CodePoint × List Char) := do
  let (hi, rest) ← hex4 cs
  if IsHigh hi then
    match rest with
    | '\\' :: 'u' :: rest' => do
      let (lo, rest'') ← hex4 rest'
      if IsLow lo then return (joined hi lo, rest'')
      else return (Fin.ofNat _ hi, rest)
    | _ => return (Fin.ofNat _ hi, rest)
  else return (Fin.ofNat _ hi, rest)

/-- The escapes of one letter. -/
def escapes : List (Char × CodePoint) :=
  [('"', 0x22), ('\\', 0x5C), ('/', 0x2F), ('b', 0x08), ('f', 0x0C), ('n', 0x0A), ('r', 0x0D),
    ('t', 0x09)]

/-- An escape after its backslash. -/
def scanEscape : List Char → Except Err (CodePoint × List Char)
  | [] => .error .jsonDecodeError
  | c :: cs =>
    match escapes.lookup c with
    | some p => .ok (p, cs)
    | none => if c = 'u' then scanUnit cs else .error .jsonDecodeError

/-- A string after its opening quote. -/
def scanString : Nat → List Char → Except Err (Str × List Char)
  | 0, _ => .error .jsonDecodeError
  | _ + 1, [] => .error .jsonDecodeError
  | fuel + 1, c :: cs =>
    if c = '"' then .ok ([], cs)
    else if c.toNat < 0x20 then .error .jsonDecodeError
    else if c = '\\' then do
      let (p, rest) ← scanEscape cs
      let (s, rest') ← scanString fuel rest
      return (p :: s, rest')
    else do
      let (s, rest) ← scanString fuel cs
      return (CodePoint.ofChar c :: s, rest)

section
variable [Interpreter]

/-- The digits at the front of a text, and the rest. -/
def spanDigits (cs : List Char) : List Char × List Char := cs.span Char.isDigit

/-- `-?` -/
def scanSign : List Char → List Char × List Char
  | '-' :: cs => (['-'], cs)
  | cs => ([], cs)

/-- `0|[1-9][0-9]*`; nothing if there is none. -/
def scanWhole : List Char → List Char × List Char
  | '0' :: cs => (['0'], cs)
  | cs => spanDigits cs

/-- `(\.[0-9]+)?` -/
def scanFrac : List Char → List Char × List Char
  | '.' :: cs =>
    if (spanDigits cs).1.isEmpty then ([], '.' :: cs)
    else ('.' :: (spanDigits cs).1, (spanDigits cs).2)
  | cs => ([], cs)

/-- `[-+]?` -/
def scanExpSign : List Char → List Char × List Char
  | '-' :: cs => (['-'], cs)
  | '+' :: cs => (['+'], cs)
  | cs => ([], cs)

/-- `([eE][-+]?[0-9]+)?` -/
def scanExp : List Char → List Char × List Char
  | [] => ([], [])
  | e :: cs =>
    if e = 'e' ∨ e = 'E' then
      let sign := scanExpSign cs
      let ds := spanDigits sign.2
      if ds.1.isEmpty then ([], e :: cs) else (e :: sign.1 ++ ds.1, ds.2)
    else ([], e :: cs)

/-- A number, as far as it matches; one without fraction and exponent is converted by `int`. -/
def scanNumber (cs : List Char) : Except Err (List Char × List Char) :=
  let sign := scanSign cs
  let whole := scanWhole sign.2
  if whole.1.isEmpty then .error .jsonDecodeError
  else
    let frac := scanFrac whole.2
    let exp := scanExp frac.2
    if frac.1.isEmpty ∧ exp.1.isEmpty ∧ ¬ Interpreter.Takes whole.1.length then
      .error (.valueError "Exceeds the limit for integer string conversion")
    else .ok (sign.1 ++ whole.1 ++ frac.1 ++ exp.1, exp.2)

/-- The rest of a text after a literal word it starts with. -/
def dropWord (word : String) (cs : List Char) : Option (List Char) :=
  if word.toList.isPrefixOf cs then some (cs.drop word.length) else none

/-- A value that is not a string, an array or an object. -/
def scanAtom (cs : List Char) : Except Err (Json × List Char) :=
  match dropWord "null" cs, dropWord "true" cs, dropWord "false" cs with
  | some rest, _, _ => .ok (null, rest)
  | _, some rest, _ => .ok (bool true, rest)
  | _, _, some rest => .ok (bool false, rest)
  | _, _, _ =>
    match dropWord "NaN" cs, dropWord "Infinity" cs, dropWord "-Infinity" cs with
    | some rest, _, _ => .ok (number "NaN".toList, rest)
    | _, some rest, _ => .ok (number "Infinity".toList, rest)
    | _, _, some rest => .ok (number "-Infinity".toList, rest)
    | _, _, _ => do
      let (literal, rest) ← scanNumber cs
      return (number literal, rest)

/-- Open an array or an object where there is room. -/
def enter : Nat → Except Err Nat
  | 0 => .error .recursionError
  | room + 1 => .ok room

mutual

/-- A value at the front of a text, and the rest; `room` arrays and objects more can be opened. -/
def scanValue : Nat → Nat → List Char → Except Err (Json × List Char)
  | 0, _, _ => .error .jsonDecodeError
  | _ + 1, _, [] => .error .jsonDecodeError
  | fuel + 1, room, c :: cs =>
    if c = '"' then do
      let (s, rest) ← scanString fuel cs
      return (str s, rest)
    else if c = '[' then do
      let room ← enter room
      match skipSpace cs with
      | ']' :: rest => return (array [], rest)
      | rest => do
        let (items, rest) ← scanItems fuel room rest
        return (array items, rest)
    else if c = '{' then do
      let room ← enter room
      match skipSpace cs with
      | '}' :: rest => return (object [], rest)
      | rest => do
        let (members, rest) ← scanMembers fuel room rest
        return (object members, rest)
    else scanAtom (c :: cs)

/-- The items of an array up to its bracket. -/
def scanItems : Nat → Nat → List Char → Except Err (List Json × List Char)
  | 0, _, _ => .error .jsonDecodeError
  | fuel + 1, room, cs => do
    let (v, rest) ← scanValue fuel room cs
    match skipSpace rest with
    | ']' :: rest => return ([v], rest)
    | ',' :: rest => do
      let (vs, rest) ← scanItems fuel room (skipSpace rest)
      return (v :: vs, rest)
    | _ => .error .jsonDecodeError

/-- The members of an object up to its brace. -/
def scanMembers : Nat → Nat → List Char → Except Err (List (Str × Json) × List Char)
  | 0, _, _ => .error .jsonDecodeError
  | fuel + 1, room, cs =>
    match cs with
    | '"' :: cs => do
      let (k, rest) ← scanString fuel cs
      match skipSpace rest with
      | ':' :: rest => do
        let (v, rest) ← scanValue fuel room (skipSpace rest)
        match skipSpace rest with
        | '}' :: rest => return ([(k, v)], rest)
        | ',' :: rest => do
          let (ms, rest) ← scanMembers fuel room (skipSpace rest)
          return ((k, v) :: ms, rest)
        | _ => .error .jsonDecodeError
      | _ => .error .jsonDecodeError
    | _ => .error .jsonDecodeError

end

/-- `json.loads(text)`. -/
def loads (text : List Char) : Except Err Json := do
  let (v, rest) ← scanValue (2 * text.length + 1) Interpreter.maxNesting (skipSpace text)
  if (skipSpace rest).isEmpty then return v else .error .jsonDecodeError

end

/-- `v[key]`: the last member with the key, for an object; any other value has no string
keys. -/
def getItem (v : Json) (key : String) : Except Err Json :=
  match v with
  | object members =>
    match members.reverse.lookup (Str.ofString key) with
    | some v => .ok v
    | none => .error .keyError
  | _ => .error .typeError

/-- The last member with a key has this value. -/
def LastMember (members : List (Str × Json)) (key : String) (v : Json) : Prop :=
  ∃ before after, members = before ++ (Str.ofString key, v) :: after ∧
    ∀ m ∈ after, m.1 ≠ Str.ofString key

theorem lookup_reverse_iff {members : List (Str × Json)} {key : String} {v : Json} :
    members.reverse.lookup (Str.ofString key) = some v ↔ LastMember members key v := by
  rw [List.lookup_eq_some_iff]
  constructor
  · rintro ⟨after, before, hmembers, hafter⟩
    refine ⟨before.reverse, after.reverse, ?_, fun m hm heq => ?_⟩
    · rw [← List.reverse_reverse members, hmembers]
      simp
    · have hne := hafter m (List.mem_reverse.1 hm)
      simp [heq] at hne
  · rintro ⟨before, after, rfl, hafter⟩
    refine ⟨after.reverse, before.reverse, by simp, fun m hm => ?_⟩
    exact bne_iff_ne.2 (hafter m (List.mem_reverse.1 hm)).symm

/-- **Only objects have items with string keys**, and of equal keys the last one counts. -/
theorem getItem_iff {data : Json} {key : String} {v : Json} : data.getItem key = .ok v ↔
    ∃ members, data = .object members ∧ LastMember members key v := by
  unfold getItem
  split
  · rename_i members
    constructor
    · intro h
      split at h
      · rename_i hlookup
        cases h
        exact ⟨members, rfl, lookup_reverse_iff.1 hlookup⟩
      · cases h
    · rintro ⟨_, heq, hlast⟩
      cases heq
      rw [lookup_reverse_iff.2 hlast]
  · rename_i hnot
    constructor
    · intro h
      cases h
    · rintro ⟨members, rfl, -⟩
      exact absurd rfl (hnot members)

end Json

end Python
