import BattLock.Lib.Python

/-!
# The `base64` module

`b64encode` is the standard alphabet with padding. `b64decode` is the lenient decoder
(`validate=False`): it skips characters outside the alphabet, stops at the padding that completes
a group of four, and fails when the data ends inside a group.
-/

namespace Python.Base64

/-- The character of a six-bit value. -/
def alphabet (n : Nat) : Char :=
  if n < 26 then Char.ofNat (0x41 + n)
  else if n < 52 then Char.ofNat (0x61 + (n - 26))
  else if n < 62 then Char.ofNat (0x30 + (n - 52))
  else if n = 62 then '+' else '/'

/-- The six-bit value of a character of the alphabet. -/
def value? (c : Nat) : Option Nat :=
  if 0x41 ≤ c ∧ c ≤ 0x5A then some (c - 0x41)
  else if 0x61 ≤ c ∧ c ≤ 0x7A then some (c - 0x61 + 26)
  else if 0x30 ≤ c ∧ c ≤ 0x39 then some (c - 0x30 + 52)
  else if c = 0x2B then some 62
  else if c = 0x2F then some 63
  else none

/-- `base64.b64encode(data).decode()`. -/
def b64encode : Bytes → List Char
  | [] => []
  | [a] => [alphabet (a.toNat / 4), alphabet (a.toNat % 4 * 16), '=', '=']
  | [a, b] =>
    [alphabet (a.toNat / 4), alphabet (a.toNat % 4 * 16 + b.toNat / 16),
      alphabet (b.toNat % 16 * 4), '=']
  | a :: b :: c :: rest =>
    alphabet (a.toNat / 4) :: alphabet (a.toNat % 4 * 16 + b.toNat / 16) ::
      alphabet (b.toNat % 16 * 4 + c.toNat / 64) :: alphabet (c.toNat % 64) :: b64encode rest

/-- The decoder at position `quad` of a group of four, with the bits `left` not yet output and
`pads` padding characters seen in a row. -/
def decodeFrom (quad left pads : Nat) : List Nat → Except Err Bytes
  | [] => if quad = 0 then .ok [] else .error .binasciiError
  | c :: cs =>
    if c = 0x3D then
      if 2 ≤ quad ∧ 4 ≤ quad + (pads + 1) then .ok []
      else decodeFrom quad left (if 2 ≤ quad then pads + 1 else pads) cs
    else
      match value? c with
      | none => decodeFrom quad left pads cs
      | some v =>
        match quad with
        | 0 => decodeFrom 1 v 0 cs
        | 1 => do
          let rest ← decodeFrom 2 (v % 16) 0 cs
          return UInt8.ofNat (left * 4 + v / 16) :: rest
        | 2 => do
          let rest ← decodeFrom 3 (v % 4) 0 cs
          return UInt8.ofNat (left * 16 + v / 4) :: rest
        | _ => do
          let rest ← decodeFrom 0 0 0 cs
          return UInt8.ofNat (left * 64 + v) :: rest

/-- `base64.b64decode(s)` of a `str`. -/
def b64decode (s : Str) : Except Err Bytes :=
  if s.all (fun c => c.val < 128) then decodeFrom 0 0 0 (s.map Fin.val)
  else .error (.valueError "string argument should contain only ASCII characters")

/-! ## The round trip -/

/-- A digit is an ASCII character other than the padding, and reads back as its value. -/
theorem alphabet_spec {n : Nat} (h : n < 64) :
    value? (alphabet n).toNat = some n ∧ (alphabet n).toNat ≠ 0x3D ∧
      (alphabet n).toNat < 128 := by
  revert n
  decide

section
variable {n : Nat} (hn : n < 64) (left pads : Nat) (cs : List Nat)
include hn

/-- The first digit of a group. -/
theorem decodeFrom_first : decodeFrom 0 left pads ((alphabet n).toNat :: cs) =
    decodeFrom 1 n 0 cs := by
  obtain ⟨hv, hne, -⟩ := alphabet_spec hn
  rw [decodeFrom, if_neg hne, hv]
  rfl

theorem decodeFrom_second : decodeFrom 1 left pads ((alphabet n).toNat :: cs) =
    (do let rest ← decodeFrom 2 (n % 16) 0 cs
        return UInt8.ofNat (left * 4 + n / 16) :: rest) := by
  obtain ⟨hv, hne, -⟩ := alphabet_spec hn
  rw [decodeFrom, if_neg hne, hv]
  rfl

theorem decodeFrom_third : decodeFrom 2 left pads ((alphabet n).toNat :: cs) =
    (do let rest ← decodeFrom 3 (n % 4) 0 cs
        return UInt8.ofNat (left * 16 + n / 4) :: rest) := by
  obtain ⟨hv, hne, -⟩ := alphabet_spec hn
  rw [decodeFrom, if_neg hne, hv]
  rfl

theorem decodeFrom_fourth : decodeFrom 3 left pads ((alphabet n).toNat :: cs) =
    (do let rest ← decodeFrom 0 0 0 cs
        return UInt8.ofNat (left * 64 + n) :: rest) := by
  obtain ⟨hv, hne, -⟩ := alphabet_spec hn
  rw [decodeFrom, if_neg hne, hv]
  rfl

end

/-- The padding that completes a group ends the data. -/
theorem decodeFrom_pads (left : Nat) (cs : List Nat) :
    decodeFrom 3 left 0 (0x3D :: cs) = .ok [] ∧
      decodeFrom 2 left 0 (0x3D :: 0x3D :: cs) = .ok [] := by
  simp [decodeFrom]

/-- The bytes of a group are the digits' bits put together. -/
theorem digits_bytes (a b c : UInt8) :
    UInt8.ofNat (a.toNat / 4 * 4 + (a.toNat % 4 * 16 + b.toNat / 16) / 16) = a ∧
    UInt8.ofNat ((a.toNat % 4 * 16 + b.toNat / 16) % 16 * 16 +
      (b.toNat % 16 * 4 + c.toNat / 64) / 4) = b ∧
    UInt8.ofNat ((b.toNat % 16 * 4 + c.toNat / 64) % 4 * 64 + c.toNat % 64) = c := by
  have hb := b.toNat_lt
  have hc := c.toNat_lt
  refine ⟨?_, ?_, ?_⟩
  · rw [show a.toNat / 4 * 4 + (a.toNat % 4 * 16 + b.toNat / 16) / 16 = a.toNat by omega,
      UInt8.ofNat_toNat]
  · rw [show (a.toNat % 4 * 16 + b.toNat / 16) % 16 * 16 +
      (b.toNat % 16 * 4 + c.toNat / 64) / 4 = b.toNat by omega, UInt8.ofNat_toNat]
  · rw [show (b.toNat % 16 * 4 + c.toNat / 64) % 4 * 64 + c.toNat % 64 = c.toNat by omega,
      UInt8.ofNat_toNat]

theorem decodeFrom_b64encode (data : Bytes) :
    decodeFrom 0 0 0 ((b64encode data).map Char.toNat) = .ok data := by
  have hpad : '='.toNat = 0x3D := rfl
  fun_induction b64encode data with
  | case1 => rfl
  | case2 a =>
    have ha := a.toNat_lt
    obtain ⟨ha', -⟩ := digits_bytes a 0 0
    simp only [UInt8.toNat_zero, Nat.zero_div, Nat.add_zero] at ha'
    simp only [List.map_cons, List.map_nil, hpad]
    rw [decodeFrom_first (by omega), decodeFrom_second (by omega), (decodeFrom_pads _ []).2,
      ok_bind, ha', pure_eq_ok]
  | case3 a b =>
    have ha := a.toNat_lt
    have hb := b.toNat_lt
    obtain ⟨ha', hb', -⟩ := digits_bytes a b 0
    simp only [UInt8.toNat_zero, Nat.zero_div, Nat.add_zero] at hb'
    simp only [List.map_cons, List.map_nil, hpad]
    rw [decodeFrom_first (by omega), decodeFrom_second (by omega), decodeFrom_third (by omega),
      (decodeFrom_pads _ []).1, ok_bind, pure_eq_ok, ok_bind, ha', hb', pure_eq_ok]
  | case4 a b c rest ih =>
    have ha := a.toNat_lt
    have hb := b.toNat_lt
    have hc := c.toNat_lt
    obtain ⟨ha', hb', hc'⟩ := digits_bytes a b c
    simp only [List.map_cons]
    rw [decodeFrom_first (by omega), decodeFrom_second (by omega), decodeFrom_third (by omega),
      decodeFrom_fourth (by omega), ih]
    simp only [ok_bind, pure_eq_ok, ha', hb', hc']

/-- Base64 is ASCII text. -/
theorem b64encode_ascii (data : Bytes) : ∀ c ∈ b64encode data, c.toNat < 128 := by
  have hpad : '='.toNat < 128 := by decide
  fun_induction b64encode data with
  | case1 => simp
  | case2 a =>
    have ha := a.toNat_lt
    simp only [List.forall_mem_cons]
    exact ⟨(alphabet_spec (by omega)).2.2, (alphabet_spec (by omega)).2.2, hpad, hpad, by simp⟩
  | case3 a b =>
    have ha := a.toNat_lt
    have hb := b.toNat_lt
    simp only [List.forall_mem_cons]
    exact ⟨(alphabet_spec (by omega)).2.2, (alphabet_spec (by omega)).2.2,
      (alphabet_spec (by omega)).2.2, hpad, by simp⟩
  | case4 a b c rest ih =>
    have ha := a.toNat_lt
    have hb := b.toNat_lt
    have hc := c.toNat_lt
    simp only [List.forall_mem_cons]
    exact ⟨(alphabet_spec (by omega)).2.2, (alphabet_spec (by omega)).2.2,
      (alphabet_spec (by omega)).2.2, (alphabet_spec (by omega)).2.2, ih⟩

/-- **Base64 text decodes to the bytes it encodes.** -/
theorem b64decode_b64encode (data : Bytes) :
    b64decode (Str.ofChars (b64encode data)) = .ok data := by
  have hascii : (Str.ofChars (b64encode data)).all (fun c => c.val < 128) = true := by
    simp only [Str.ofChars, List.all_map, List.all_eq_true, Function.comp_apply,
      CodePoint.val_ofChar, decide_eq_true_eq]
    exact b64encode_ascii data
  rw [b64decode, if_pos hascii, Str.map_val_ofChars, decodeFrom_b64encode]

/-! ## What is decoded -/

/-- The number of characters of the alphabet in a text. -/
def symbols (cs : List Nat) : Nat := cs.countP fun c => (value? c).isSome

@[simp] theorem symbols_nil : symbols [] = 0 := rfl

theorem symbols_cons_none {c : Nat} (h : value? c = none) (cs : List Nat) :
    symbols (c :: cs) = symbols cs := by
  rw [symbols, List.countP_cons_of_neg (by simp [h]), symbols]

theorem symbols_cons_some {c v : Nat} (h : value? c = some v) (cs : List Nat) :
    symbols (c :: cs) = symbols cs + 1 := by
  rw [symbols, List.countP_cons_of_pos (by simp [h]), symbols]

/-- A group of two or three characters, with `pads` of the padding seen, is completed by the padding
in front of a text or further on. -/
def Padded (quad pads : Nat) (cs : List Nat) : Prop :=
  ∃ body pad tail, cs = body ++ pad ++ tail ∧ symbols pad = 0 ∧
    2 ≤ (quad + symbols body) % 4 ∧ 4 ≤ (quad + symbols body) % 4 +
      (if symbols body = 0 then pads else 0) + pad.count 0x3D

/-- A text that a decoder in the middle of a group completes. -/
def Completes (quad pads : Nat) (cs : List Nat) : Prop :=
  (quad + symbols cs) % 4 = 0 ∨ Padded quad pads cs

section
variable {quad pads : Nat} (hquad : quad + pads < 4)
include hquad

theorem not_padded_nil : ¬ Padded quad pads [] := by
  rintro ⟨body, pad, tail, h, -, -, hcount⟩
  obtain ⟨rfl, rfl, rfl⟩ : body = [] ∧ pad = [] ∧ tail = [] := by simpa using h
  simp only [symbols_nil, List.count_nil, ↓reduceIte] at hcount
  omega

/-- A character outside of the alphabet, other than the padding. -/
theorem padded_cons_other {c : Nat} (hc : value? c = none) (hne : c ≠ 0x3D) (cs : List Nat) :
    Padded quad pads (c :: cs) ↔ Padded quad pads cs := by
  constructor
  · rintro ⟨body, pad, tail, h, hpad, htwo, hcount⟩
    cases body with
    | nil =>
      cases pad with
      | nil =>
        simp only [symbols_nil, List.count_nil, ↓reduceIte] at hcount
        omega
      | cons d pad =>
        obtain ⟨rfl, rfl⟩ := List.cons.inj h
        rw [symbols_cons_none hc] at hpad
        rw [List.count_cons_of_ne hne] at hcount
        exact ⟨[], pad, tail, rfl, hpad, htwo, hcount⟩
    | cons d body =>
      obtain ⟨rfl, rfl⟩ := List.cons.inj h
      rw [symbols_cons_none hc] at htwo hcount
      exact ⟨body, pad, tail, rfl, hpad, htwo, hcount⟩
  · rintro ⟨body, pad, tail, rfl, hpad, htwo, hcount⟩
    refine ⟨c :: body, pad, tail, rfl, hpad, ?_⟩
    rw [symbols_cons_none hc]
    exact ⟨htwo, hcount⟩

theorem padded_cons_pad (cs : List Nat) :
    Padded quad pads (0x3D :: cs) ↔ Padded quad (if 2 ≤ quad then pads + 1 else pads) cs := by
  have hc : value? 0x3D = none := rfl
  constructor
  · rintro ⟨body, pad, tail, h, hpad, htwo, hcount⟩
    cases body with
    | nil =>
      cases pad with
      | nil =>
        simp only [symbols_nil, List.count_nil, ↓reduceIte] at hcount
        omega
      | cons d pad =>
        obtain ⟨rfl, rfl⟩ := List.cons.inj h
        rw [symbols_cons_none hc] at hpad
        rw [List.count_cons_self] at hcount
        refine ⟨[], pad, tail, rfl, hpad, htwo, ?_⟩
        simp only [symbols_nil, ↓reduceIte] at htwo hcount ⊢
        rw [if_pos (by omega)]
        omega
    | cons d body =>
      obtain ⟨rfl, rfl⟩ := List.cons.inj h
      rw [symbols_cons_none hc] at htwo hcount
      refine ⟨body, pad, tail, rfl, hpad, htwo, ?_⟩
      split at hcount
      · rw [if_pos ‹_›]
        split <;> omega
      · rw [if_neg ‹_›]
        exact hcount
  · rintro ⟨body, pad, tail, rfl, hpad, htwo, hcount⟩
    by_cases hbody : symbols body = 0
    · -- all of it is padding
      rw [if_pos hbody, hbody] at hcount
      rw [hbody] at htwo
      rw [if_pos (by omega)] at hcount
      refine ⟨[], 0x3D :: body ++ pad, tail, by simp, ?_, htwo, ?_⟩
      · rw [List.cons_append, symbols_cons_none hc, symbols, List.countP_append]
        exact Nat.add_eq_zero_iff.2 ⟨hbody, hpad⟩
      · rw [List.cons_append, List.count_cons_self, List.count_append]
        simp only [symbols_nil, ↓reduceIte]
        omega
    · refine ⟨0x3D :: body, pad, tail, rfl, hpad, ?_⟩
      rw [symbols_cons_none hc]
      rw [if_neg hbody] at hcount ⊢
      exact ⟨htwo, hcount⟩

/-- A character of the alphabet takes its place in the group. -/
theorem padded_cons_symbol {c v : Nat} (hc : value? c = some v) (cs : List Nat) :
    Padded quad pads (c :: cs) ↔ Padded ((quad + 1) % 4) 0 cs := by
  have hplace : ∀ n, (quad + (n + 1)) % 4 = ((quad + 1) % 4 + n) % 4 := by omega
  constructor
  · rintro ⟨body, pad, tail, h, hpad, htwo, hcount⟩
    cases body with
    | nil =>
      cases pad with
      | nil =>
        simp only [symbols_nil, List.count_nil, ↓reduceIte] at hcount
        omega
      | cons d pad =>
        obtain ⟨rfl, rfl⟩ := List.cons.inj h
        rw [symbols_cons_some hc] at hpad
        omega
    | cons d body =>
      obtain ⟨rfl, rfl⟩ := List.cons.inj h
      rw [symbols_cons_some hc, hplace] at htwo hcount
      rw [if_neg (Nat.succ_ne_zero _)] at hcount
      refine ⟨body, pad, tail, rfl, hpad, htwo, ?_⟩
      rw [ite_self]
      exact hcount
  · rintro ⟨body, pad, tail, rfl, hpad, htwo, hcount⟩
    refine ⟨c :: body, pad, tail, rfl, hpad, ?_⟩
    rw [symbols_cons_some hc, hplace, if_neg (Nat.succ_ne_zero _)]
    rw [ite_self] at hcount
    exact ⟨htwo, hcount⟩

end

theorem decodeFrom_returns {quad pads : Nat} (hquad : quad + pads < 4) (left : Nat)
    (cs : List Nat) :
    (∃ data, decodeFrom quad left pads cs = .ok data) ↔ Completes quad pads cs := by
  induction cs generalizing quad left pads with
  | nil =>
    rw [Completes, decodeFrom, or_iff_left (not_padded_nil hquad), symbols_nil, Nat.add_zero,
      Nat.mod_eq_of_lt (by omega)]
    split <;> simp_all
  | cons c cs ih =>
    by_cases hc : c = 0x3D
    · subst hc
      rw [decodeFrom, if_pos rfl]
      split
      · rename_i hdone
        refine iff_of_true ⟨_, rfl⟩ (.inr ⟨[], [0x3D], cs, rfl, rfl, ?_, ?_⟩)
        · rw [symbols_nil]
          omega
        · simp only [symbols_nil, ↓reduceIte, List.count_singleton_self]
          omega
      · rw [ih (by split <;> omega), Completes, Completes, padded_cons_pad hquad,
          symbols_cons_none rfl]
    · rw [decodeFrom, if_neg hc]
      cases hv : value? c with
      | none =>
        dsimp only
        rw [ih hquad, Completes, Completes, padded_cons_other hquad hv hc, symbols_cons_none hv]
      | some v =>
        have hplace : (quad + (symbols cs + 1)) % 4 = ((quad + 1) % 4 + symbols cs) % 4 := by omega
        rw [Completes, padded_cons_symbol hquad hv, symbols_cons_some hv, hplace]
        obtain rfl | rfl | rfl | rfl : quad = 0 ∨ quad = 1 ∨ quad = 2 ∨ quad = 3 := by omega
        · exact ih (by decide) v
        · rw [← Completes, ← ih (by decide) (v % 16)]
          simp [bind_eq_ok]
        · rw [← Completes, ← ih (by decide) (v % 4)]
          simp [bind_eq_ok]
        · rw [← Completes, ← ih (by decide) 0]
          simp [bind_eq_ok]

/-- ASCII text whose characters of the alphabet come in groups of four, or with the padding of a
group of two or three, behind which anything may stand. -/
structure Decodable (s : Str) : Prop where
  ascii : s.isAscii = true
  groups : symbols (s.map Fin.val) % 4 = 0 ∨ ∃ body pad tail, s.map Fin.val = body ++ pad ++ tail ∧
    symbols pad = 0 ∧ 2 ≤ symbols body % 4 ∧ 4 ≤ symbols body % 4 + pad.count 0x3D

/-- **What `b64decode` takes.** -/
theorem b64decode_returns {s : Str} : (∃ data, b64decode s = .ok data) ↔ Decodable s := by
  have hgroups : Completes 0 0 (s.map Fin.val) ↔ symbols (s.map Fin.val) % 4 = 0 ∨
      ∃ body pad tail, s.map Fin.val = body ++ pad ++ tail ∧ symbols pad = 0 ∧
        2 ≤ symbols body % 4 ∧ 4 ≤ symbols body % 4 + pad.count 0x3D := by
    simp only [Completes, Padded, Nat.zero_add, ite_self, Nat.add_zero]
  rw [b64decode]
  split
  · rename_i hascii
    rw [decodeFrom_returns (by decide), hgroups]
    exact ⟨fun h => ⟨hascii, h⟩, Decodable.groups⟩
  · rename_i hascii
    refine iff_of_false ?_ fun h => hascii h.ascii
    rintro ⟨data, hdata⟩
    cases hdata

end Python.Base64
