import BattLock.Lib.Json

/-!
# Hexadecimal text

`bytes.hex` and `bytes.fromhex`. `fromHex_hex` is the round trip.
-/

namespace Python

/-- `data.hex()`. -/
def hex (data : Bytes) : List Char :=
  data.flatMap fun b => [Json.hexDigit (b.toNat / 16), Json.hexDigit (b.toNat % 16)]

/-- ASCII white space. -/
def isSpace (c : Char) : Bool :=
  c = ' ' || (9 ≤ c.toNat && c.toNat ≤ 13)

def fromHexError (i : Nat) : Err :=
  .valueError s!"non-hexadecimal number found in fromhex() arg at position {i}"

/-- Pairs of digits, with white space between them, from position `i` on. -/
def fromHexFrom (i : Nat) : List Char → Except Err Bytes
  | [] => .ok []
  | [c] =>
    if isSpace c then .ok []
    else if (Json.hexValue? c).isSome then .error (fromHexError (i + 1))
    else .error (fromHexError i)
  | c :: d :: cs =>
    if isSpace c then fromHexFrom (i + 1) (d :: cs)
    else
      match Json.hexValue? c, Json.hexValue? d with
      | some hi, some lo => do
        let rest ← fromHexFrom (i + 2) cs
        return UInt8.ofNat (16 * hi + lo) :: rest
      | some _, none => .error (fromHexError (i + 1))
      | none, _ => .error (fromHexError i)

/-- `bytes.fromhex(s)`: a character that is not ASCII is reported first. -/
def fromHex (s : List Char) : Except Err Bytes :=
  match s.findIdx? fun c => 128 ≤ c.toNat with
  | some i => .error (fromHexError i)
  | none => fromHexFrom 0 s

/-! ## The round trip -/

theorem hexDigit_spec {n : Nat} (h : n < 16) :
    Json.hexValue? (Json.hexDigit n) = some n ∧ isSpace (Json.hexDigit n) = false ∧
      (Json.hexDigit n).toNat < 128 := by
  revert n
  decide

/-- A way to write digits that are read as their values. -/
def WritesDigits (digit : Nat → Char) : Prop :=
  ∀ n < 16, Json.hexValue? (digit n) = some n ∧ isSpace (digit n) = false ∧ (digit n).toNat < 128

section
variable {digit : Nat → Char} (hdigit : WritesDigits digit)
include hdigit

theorem fromHexFrom_digits (data : Bytes) :
    ∀ i, fromHexFrom i (data.flatMap fun b => [digit (b.toNat / 16), digit (b.toNat % 16)]) =
      .ok data := by
  induction data with
  | nil => intro i; rfl
  | cons b data ih =>
    intro i
    have hb : b.toNat < 256 := b.toNat_lt
    obtain ⟨hhi, hspace, -⟩ := hdigit (b.toNat / 16) (by omega)
    obtain ⟨hlo, -⟩ := hdigit (b.toNat % 16) (by omega)
    have hbyte : UInt8.ofNat (16 * (b.toNat / 16) + b.toNat % 16) = b := by
      rw [Nat.div_add_mod, UInt8.ofNat_toNat]
    rw [List.flatMap_cons, List.cons_append, List.cons_append, List.nil_append, fromHexFrom]
    simp only [hspace, hhi, hlo, ih, hbyte, Bool.false_eq_true, if_false, ok_bind, pure_eq_ok]

/-- **Two digits a byte are read back**, in whatever way they are written. -/
theorem fromHex_digits (data : Bytes) :
    fromHex (data.flatMap fun b => [digit (b.toNat / 16), digit (b.toNat % 16)]) = .ok data := by
  have hascii : (data.flatMap fun b => [digit (b.toNat / 16), digit (b.toNat % 16)]).findIdx?
      (fun c => 128 ≤ c.toNat) = none := by
    rw [List.findIdx?_eq_none_iff]
    intro c hc
    obtain ⟨b, -, hc⟩ := List.mem_flatMap.1 hc
    have hb : b.toNat < 256 := b.toNat_lt
    have hhi := (hdigit (b.toNat / 16) (by omega)).2.2
    have hlo := (hdigit (b.toNat % 16) (by omega)).2.2
    simp only [List.mem_cons, List.not_mem_nil, or_false] at hc
    rcases hc with rfl | rfl <;> simpa
  rw [fromHex, hascii]
  exact fromHexFrom_digits hdigit data 0

end

theorem fromHex_hex (data : Bytes) : fromHex (hex data) = .ok data :=
  fromHex_digits (fun _ hn => hexDigit_spec hn) data

end Python
