import BattLock.Lib.Python
import Mathlib.Data.List.Defs

/-!
# Dates

Naive `datetime` values, ordered by their fields, with the parts of the `datetime` module the
code uses: `strptime` and `strftime` of the format `%Y-%m-%d` and the addition of whole days.
-/

namespace Python

/-- A naive `datetime`; `time` is the time of day in microseconds. -/
structure Datetime where
  year : Nat
  month : Nat
  day : Nat
  time : Nat
deriving DecidableEq, Repr

namespace Datetime

/-- `a < b`. -/
def lt (a b : Datetime) : Bool :=
  a.year < b.year || a.year == b.year && (a.month < b.month || a.month == b.month &&
    (a.day < b.day || a.day == b.day && a.time < b.time))

def isLeap (year : Nat) : Bool := year % 4 == 0 && (year % 100 != 0 || year % 400 == 0)

def daysInMonth (year month : Nat) : Nat :=
  if month = 2 then if isLeap year then 29 else 28
  else if month = 4 ∨ month = 6 ∨ month = 9 ∨ month = 11 then 30 else 31

/-- `datetime(year, month, day)`. -/
def ofDate (year month day : Nat) : Except Err Datetime :=
  if 1 ≤ year ∧ year ≤ 9999 ∧ 1 ≤ month ∧ month ≤ 12 ∧ 1 ≤ day ∧ day ≤ daysInMonth year month then
    .ok ⟨year, month, day, 0⟩
  else .error (.valueError "date value out of range")

/-- The same time on the next day; `OverflowError` after the last day of the year 9999. -/
def nextDay (t : Datetime) : Except Err Datetime :=
  if t.day < daysInMonth t.year t.month then .ok { t with day := t.day + 1 }
  else if t.month < 12 then .ok { t with month := t.month + 1, day := 1 }
  else if t.year < 9999 then .ok { t with year := t.year + 1, month := 1, day := 1 }
  else .error .overflowError

/-- `t + timedelta(days=n)`. -/
def addDays (t : Datetime) : Nat → Except Err Datetime
  | 0 => .ok t
  | n + 1 => do
    let t' ← addDays t n
    t'.nextDay

/-! ## `%Y-%m-%d`

`strptime` matches `\d\d\d\d`, `1[0-2]|0[1-9]|[1-9]` and `3[0-1]|[1-2]\d|0[1-9]|[1-9]| [1-9]` with a
`-` between them. -/

/-- The zeros of the scripts with decimal digits (Unicode 14); the other nine digits follow. -/
def zeros : List Nat :=
  [0x30, 0x660, 0x6F0, 0x7C0, 0x966, 0x9E6, 0xA66, 0xAE6, 0xB66, 0xBE6, 0xC66, 0xCE6, 0xD66, 0xDE6,
    0xE50, 0xED0, 0xF20, 0x1040, 0x1090, 0x17E0, 0x1810, 0x1946, 0x19D0, 0x1A80, 0x1A90, 0x1B50,
    0x1BB0, 0x1C40, 0x1C50, 0xA620, 0xA8D0, 0xA900, 0xA9D0, 0xA9F0, 0xAA50, 0xABF0, 0xFF10, 0x104A0,
    0x10D30, 0x11066, 0x110F0, 0x11136, 0x111D0, 0x112F0, 0x11450, 0x114D0, 0x11650, 0x116C0,
    0x11730, 0x118E0, 0x11950, 0x11C50, 0x11D50, 0x11DA0, 0x16A60, 0x16AC0, 0x16B50, 0x1D7CE,
    0x1D7D8, 0x1D7E2, 0x1D7EC, 0x1D7F6, 0x1E140, 0x1E2F0, 0x1E950, 0x1FBF0]

/-- `\d`: a decimal digit of any script. -/
def decimal? (c : CodePoint) : Option Nat :=
  (zeros.find? fun z => z ≤ c.val ∧ c.val < z + 10).map (c.val - ·)

/-- `[lo-hi]` -/
def digit? (lo hi : Nat) (c : CodePoint) : Option Nat :=
  if 0x30 + lo ≤ c.val ∧ c.val ≤ 0x30 + hi then some (c.val - 0x30) else none

def year? : Str → Option Nat
  | [a, b, c, d] => do
    let thousands ← decimal? a
    let hundreds ← decimal? b
    let tens ← decimal? c
    let ones ← decimal? d
    return 1000 * thousands + 100 * hundreds + 10 * tens + ones
  | _ => none

def month? : Str → Option Nat
  | [d] => digit? 1 9 d
  | [t, d] =>
    if t.val = 0x31 then (digit? 0 2 d).map (10 + ·)
    else if t.val = 0x30 then digit? 1 9 d
    else none
  | _ => none

def day? : Str → Option Nat
  | [d] => digit? 1 9 d
  | [t, d] =>
    if t.val = 0x33 then (digit? 0 1 d).map (30 + ·)
    else if t.val = 0x32 then (decimal? d).map (20 + ·)
    else if t.val = 0x31 then (decimal? d).map (10 + ·)
    else if t.val = 0x30 ∨ t.val = 0x20 then digit? 1 9 d
    else none
  | _ => none

/-- `datetime.strptime(s, "%Y-%m-%d")`. -/
def strptime (s : Str) : Except Err Datetime :=
  match s.splitOn 0x2D with
  | [y, m, d] =>
    match year? y, month? m, day? d with
    | some y, some m, some d => ofDate y m d
    | _, _, _ => .error (.valueError "time data does not match format '%Y-%m-%d'")
  | _ => .error (.valueError "time data does not match format '%Y-%m-%d'")

/-- A character of the year, the month or the day. -/
structure InPart (c : CodePoint) : Prop where
  ne_dash : c ≠ 0x2D
  isValidChar : c.val.isValidChar

theorem inPart_of_ascii {c : CodePoint} (hne : c.val ≠ 0x2D) (hlt : c.val < 128) : InPart c :=
  ⟨fun h => hne (by rw [h]; rfl), .inl (by omega)⟩

theorem inPart_of_digit? {lo hi n : Nat} {c : CodePoint} (h : digit? lo hi c = some n)
    (hhi : hi ≤ 9) : InPart c := by
  unfold digit? at h
  split at h
  · exact inPart_of_ascii (by omega) (by omega)
  · cases h

theorem inPart_of_decimal? {c : CodePoint} {n : Nat} (h : decimal? c = some n) : InPart c := by
  have hzeros : ∀ z ∈ zeros, 0x2D < z ∧ (z + 10 ≤ 0xD800 ∨ 0xDFFF < z) := by decide
  obtain ⟨z, hz, -⟩ := Option.map_eq_some_iff.1 h
  have hrange := List.find?_some hz
  obtain ⟨hle, hlt⟩ := of_decide_eq_true hrange
  obtain ⟨hdash, hvalid⟩ := hzeros z (List.mem_of_find?_eq_some hz)
  refine ⟨?_, ?_⟩
  · rintro rfl
    exact absurd hle (Nat.not_le.2 hdash)
  · rcases hvalid with hlow | hhigh
    · exact .inl (by omega)
    · exact .inr ⟨by omega, c.isLt⟩

theorem inPart_pair {t d : CodePoint} (ht : t.val ≠ 0x2D ∧ t.val < 128) (hd : InPart d) :
    ∀ c ∈ [t, d], InPart c := by
  simp only [List.forall_mem_cons]
  exact ⟨inPart_of_ascii ht.1 ht.2, hd, by simp⟩

theorem year?_spec {s : Str} {n : Nat} (h : year? s = some n) :
    s.length = 4 ∧ ∀ c ∈ s, InPart c := by
  unfold year? at h
  split at h
  · simp only [Option.bind_eq_bind, Option.bind_eq_some_iff] at h
    obtain ⟨w, ha, x, hb, y, hc, z, hd, -⟩ := h
    simp only [List.forall_mem_cons]
    exact ⟨rfl, inPart_of_decimal? ha, inPart_of_decimal? hb, inPart_of_decimal? hc,
      inPart_of_decimal? hd, by simp⟩
  · cases h

theorem month?_spec {s : Str} {n : Nat} (h : month? s = some n) : ∀ c ∈ s, InPart c := by
  unfold month? at h
  split at h
  · exact List.forall_mem_singleton.2 (inPart_of_digit? h (by decide))
  · split at h
    · obtain ⟨x, hx, -⟩ := Option.map_eq_some_iff.1 h
      exact inPart_pair (by omega) (inPart_of_digit? hx (by decide))
    · split at h
      · exact inPart_pair (by omega) (inPart_of_digit? h (by decide))
      · cases h
  · cases h

theorem day?_spec {s : Str} {n : Nat} (h : day? s = some n) : ∀ c ∈ s, InPart c := by
  unfold day? at h
  split at h
  · exact List.forall_mem_singleton.2 (inPart_of_digit? h (by decide))
  · split at h
    · obtain ⟨x, hx, -⟩ := Option.map_eq_some_iff.1 h
      exact inPart_pair (by omega) (inPart_of_digit? hx (by decide))
    · split at h
      · obtain ⟨x, hx, -⟩ := Option.map_eq_some_iff.1 h
        exact inPart_pair (by omega) (inPart_of_decimal? hx)
      · split at h
        · obtain ⟨x, hx, -⟩ := Option.map_eq_some_iff.1 h
          exact inPart_pair (by omega) (inPart_of_decimal? hx)
        · split at h
          · exact inPart_pair (by omega) (inPart_of_digit? h (by decide))
          · cases h
  · cases h

theorem dash_not_mem {s : Str} (h : ∀ c ∈ s, InPart c) : (0x2D : CodePoint) ∉ s := fun hmem =>
  (h _ hmem).ne_dash rfl

/-- The text of a date: a year, a month and a day with a `-` between them. -/
def DateText (s : Str) (t : Datetime) : Prop :=
  ∃ y m d year month day, s = y ++ 0x2D :: (m ++ 0x2D :: d) ∧ year? y = some year ∧
    month? m = some month ∧ day? d = some day ∧ ofDate year month day = .ok t

/-- **What `strptime` reads.** -/
theorem strptime_iff {s : Str} {t : Datetime} : strptime s = .ok t ↔ DateText s t := by
  constructor
  · intro h
    unfold strptime at h
    split at h
    · rename_i y m d hsplit
      have hjoin : List.intercalate [0x2D] (s.splitOn 0x2D) = s := List.intercalate_splitOn 0x2D
      split at h
      · rename_i hy hm hd
        refine ⟨y, m, d, _, _, _, ?_, hy, hm, hd, h⟩
        rw [← hjoin, hsplit]
        simp [List.intercalate]
      · cases h
    · cases h
  · rintro ⟨y, m, d, year, month, day, rfl, hy, hm, hd, hdate⟩
    rw [strptime, List.splitOn_append_cons_self_of_not_mem (dash_not_mem (year?_spec hy).2),
      List.splitOn_append_cons_self_of_not_mem (dash_not_mem (month?_spec hm)),
      List.splitOn_eq_singleton (dash_not_mem (day?_spec hd))]
    simp only [hy, hm, hd, hdate]

theorem DateText.isUnicode {s : Str} {t : Datetime} (h : DateText s t) : s.IsUnicode := by
  obtain ⟨y, m, d, _, _, _, rfl, hy, hm, hd, -⟩ := h
  have hdash : (0x2D : CodePoint).val.isValidChar := .inl (by decide)
  refine List.forall_mem_append.2 ⟨fun c hc => ((year?_spec hy).2 c hc).isValidChar,
    List.forall_mem_cons.2 ⟨hdash, List.forall_mem_append.2
      ⟨fun c hc => (month?_spec hm c hc).isValidChar, List.forall_mem_cons.2 ⟨hdash, ?_⟩⟩⟩⟩
  exact fun c hc => (day?_spec hd c hc).isValidChar

/-- The last `n` decimal digits of `v`. -/
def zeroPadded : Nat → Nat → Str
  | 0, _ => []
  | n + 1, v => zeroPadded n (v / 10) ++ [Fin.ofNat _ (0x30 + v % 10)]

/-- `t.strftime("%Y-%m-%d")`. -/
def strftime (t : Datetime) : Str :=
  zeroPadded 4 t.year ++ 0x2D :: zeroPadded 2 t.month ++ 0x2D :: zeroPadded 2 t.day

theorem length_zeroPadded : ∀ n v, (zeroPadded n v).length = n
  | 0, _ => rfl
  | n + 1, v => by
    rw [zeroPadded, List.length_append, length_zeroPadded n, List.length_singleton]

theorem isAscii_zeroPadded : ∀ n v, Str.isAscii (zeroPadded n v) = true
  | 0, _ => rfl
  | n + 1, v => by
    have hrest := isAscii_zeroPadded n (v / 10)
    simp only [Str.isAscii, zeroPadded, List.all_append, List.all_cons, List.all_nil,
      Bool.and_true, Bool.and_eq_true, decide_eq_true_eq, Fin.val_ofNat] at hrest ⊢
    exact ⟨hrest, by omega⟩

theorem length_strftime (t : Datetime) : t.strftime.length = 10 := by
  simp [strftime, length_zeroPadded]

theorem isAscii_strftime (t : Datetime) : t.strftime.isAscii = true := by
  have h (n v : Nat) := isAscii_zeroPadded n v
  simp only [Str.isAscii] at h
  simp only [Str.isAscii, strftime, List.all_append, List.all_cons, h, Bool.and_true, Bool.true_and]
  decide

end Datetime

end Python
