import BattLock.Lib.Calendar

/-!
# The calendar as a line

A valid `datetime` is a point on a line: `Datetime.stamp` counts the microseconds of the proleptic
Gregorian calendar. Comparing two dates by their fields is comparing their stamps (`lt_iff`), and
adding or taking away days moves a stamp by that many days (`addDays_ok`, `subDays_ok`). The text
of a date reads as the date at midnight (`strptime_strftime`).
-/

namespace Python.Datetime

/-- The microseconds of a day. -/
def dayLength : Nat := 86400000000

/-- What `datetime` values are. -/
structure Valid (t : Datetime) : Prop where
  year : 1 ≤ t.year ∧ t.year ≤ 9999
  month : 1 ≤ t.month ∧ t.month ≤ 12
  day : 1 ≤ t.day ∧ t.day ≤ daysInMonth t.year t.month
  time : t.time < dayLength

/-- The same day at midnight. -/
def midnight (t : Datetime) : Datetime := { t with time := 0 }

/-! ## Counting days -/

/-- The days of a year before its month `m`. -/
def daysBeforeMonth (y : Nat) : Nat → Nat
  | 0 => 0
  | 1 => 0
  | m + 2 => daysBeforeMonth y (m + 1) + daysInMonth y (m + 1)

/-- The days before a year. -/
def daysBeforeYear : Nat → Nat
  | 0 => 0
  | y + 1 => daysBeforeYear y + (daysBeforeMonth y 12 + 31)

/-- The number of the day. -/
def ordinal (t : Datetime) : Nat := daysBeforeYear t.year + daysBeforeMonth t.year t.month + t.day

/-- The number of the microsecond. -/
def stamp (t : Datetime) : Nat := t.ordinal * dayLength + t.time

theorem daysInMonth_le (y m : Nat) : daysInMonth y m ≤ 31 := by
  unfold daysInMonth
  split_ifs <;> decide

theorem daysBeforeMonth_succ (y : Nat) {m : Nat} (hm : 1 ≤ m) :
    daysBeforeMonth y (m + 1) = daysBeforeMonth y m + daysInMonth y m := by
  cases m with
  | zero => cases hm
  | succ m => rfl

theorem daysBeforeMonth_mono (y : Nat) {m n : Nat} (h : m ≤ n) :
    daysBeforeMonth y m ≤ daysBeforeMonth y n := by
  induction n, h using Nat.le_induction with
  | base => exact Nat.le_refl _
  | succ n _ ih =>
    refine ih.trans ?_
    cases n with
    | zero => exact Nat.le_refl _
    | succ n => exact Nat.le_add_right _ _

theorem daysBeforeYear_mono {x y : Nat} (h : x ≤ y) : daysBeforeYear x ≤ daysBeforeYear y := by
  induction y, h using Nat.le_induction with
  | base => exact Nat.le_refl _
  | succ y _ ih => exact ih.trans (Nat.le_add_right _ _)

/-- A day ends before the next month begins. -/
theorem Valid.day_le {t : Datetime} (h : t.Valid) :
    daysBeforeMonth t.year t.month + t.day ≤ daysBeforeMonth t.year (t.month + 1) := by
  rw [daysBeforeMonth_succ _ h.month.1]
  exact Nat.add_le_add_left h.day.2 _

/-- And before the next year begins. -/
theorem Valid.ordinal_le {t : Datetime} (h : t.Valid) :
    t.ordinal ≤ daysBeforeYear (t.year + 1) := by
  have hday := h.day
  rcases Nat.lt_or_eq_of_le h.month.2 with hm | hm
  · have hlt := daysBeforeMonth_mono t.year (show t.month + 1 ≤ 12 by omega)
    have hle := h.day_le
    simp only [ordinal, daysBeforeYear]
    omega
  · have hle := daysInMonth_le t.year t.month
    simp only [ordinal, daysBeforeYear, hm]
    omega

/-! ## Order -/

/-- Dates in order have their numbers in order. -/
theorem ordinal_lt {a b : Datetime} (ha : a.Valid) (hb : b.Valid)
    (h : a.year < b.year ∨ a.year = b.year ∧
      (a.month < b.month ∨ a.month = b.month ∧ a.day < b.day)) : a.ordinal < b.ordinal := by
  have hday := hb.day
  rcases h with hy | ⟨hy, hm | ⟨hm, hd⟩⟩
  · have hle := ha.ordinal_le
    have hmono := daysBeforeYear_mono (show a.year + 1 ≤ b.year from hy)
    simp only [ordinal] at hle ⊢
    omega
  · have hle := ha.day_le
    have hmono := daysBeforeMonth_mono b.year (show a.month + 1 ≤ b.month from hm)
    simp only [ordinal, hy] at hle ⊢
    omega
  · simp only [ordinal, hy, hm]
    omega

theorem stamp_lt_of_ordinal_lt {a b : Datetime} (ha : a.Valid) (h : a.ordinal < b.ordinal) :
    a.stamp < b.stamp := by
  have htime := ha.time
  have hmul := Nat.mul_le_mul_right dayLength (show a.ordinal + 1 ≤ b.ordinal from h)
  rw [Nat.add_mul] at hmul
  simp only [stamp]
  omega

/-- **Comparing by fields is comparing on the line.** -/
theorem lt_iff {a b : Datetime} (ha : a.Valid) (hb : b.Valid) :
    a.lt b = true ↔ a.stamp < b.stamp := by
  have hless : ∀ {a b : Datetime}, a.Valid → b.Valid →
      (a.year < b.year ∨ a.year = b.year ∧
        (a.month < b.month ∨ a.month = b.month ∧ a.day < b.day)) → a.stamp < b.stamp :=
    fun ha hb h => stamp_lt_of_ordinal_lt ha (ordinal_lt ha hb h)
  have hsame : a.year = b.year → a.month = b.month → a.day = b.day → a.ordinal = b.ordinal := by
    intro hy hm hd
    simp only [ordinal, hy, hm, hd]
  have hlt : a.lt b = true ↔ a.year < b.year ∨ a.year = b.year ∧ (a.month < b.month ∨
      a.month = b.month ∧ (a.day < b.day ∨ a.day = b.day ∧ a.time < b.time)) := by
    simp [lt]
  rw [hlt]
  constructor
  · rintro (hy | ⟨hy, hm | ⟨hm, hd | ⟨hd, ht⟩⟩⟩)
    · exact hless ha hb (.inl hy)
    · exact hless ha hb (.inr ⟨hy, .inl hm⟩)
    · exact hless ha hb (.inr ⟨hy, .inr ⟨hm, hd⟩⟩)
    · simp only [stamp, hsame hy hm hd]
      omega
  · intro h
    -- otherwise `b` comes first or they are the same day
    rcases Nat.lt_trichotomy a.year b.year with hy | hy | hy
    · exact .inl hy
    · refine .inr ⟨hy, ?_⟩
      rcases Nat.lt_trichotomy a.month b.month with hm | hm | hm
      · exact .inl hm
      · refine .inr ⟨hm, ?_⟩
        rcases Nat.lt_trichotomy a.day b.day with hd | hd | hd
        · exact .inl hd
        · simp only [stamp, hsame hy hm hd] at h
          exact .inr ⟨hd, by omega⟩
        · exact absurd (hless hb ha (.inr ⟨hy.symm, .inr ⟨hm.symm, hd⟩⟩)) (by omega)
      · exact absurd (hless hb ha (.inr ⟨hy.symm, .inl hm⟩)) (by omega)
    · exact absurd (hless hb ha (.inl hy)) (by omega)

/-! ## Days later and earlier -/

/-- The same time on the day before; `OverflowError` before the year 1. -/
def prevDay (t : Datetime) : Except Err Datetime :=
  if 1 < t.day then .ok { t with day := t.day - 1 }
  else if 1 < t.month then
    .ok { t with month := t.month - 1, day := daysInMonth t.year (t.month - 1) }
  else if 1 < t.year then .ok { t with year := t.year - 1, month := 12, day := 31 }
  else .error .overflowError

/-- `t - timedelta(days=n)`. -/
def subDays (t : Datetime) : Nat → Except Err Datetime
  | 0 => .ok t
  | n + 1 => do
    let t' ← subDays t n
    t'.prevDay

theorem one_le_daysInMonth (y m : Nat) : 1 ≤ daysInMonth y m := by
  unfold daysInMonth
  split_ifs <;> decide

theorem nextDay_ok {t t' : Datetime} (h : t.Valid) (ht : t.nextDay = .ok t') :
    t'.Valid ∧ t'.ordinal = t.ordinal + 1 ∧ t'.time = t.time := by
  have hyear := h.year
  have hmonth := h.month
  have hday := h.day
  unfold nextDay at ht
  split_ifs at ht with hd hm hy
  · cases ht
    exact ⟨⟨hyear, hmonth, ⟨by simp, hd⟩, h.time⟩, rfl, rfl⟩
  · cases ht
    have hlast : t.day = daysInMonth t.year t.month := by omega
    refine ⟨⟨hyear, ⟨by simp, hm⟩, ⟨Nat.le_refl 1, one_le_daysInMonth _ _⟩, h.time⟩, ?_, rfl⟩
    simp only [ordinal, daysBeforeMonth_succ _ hmonth.1, hlast]
    omega
  · cases ht
    have hlast : t.day = daysInMonth t.year t.month := by omega
    have hdec : t.month = 12 := by omega
    have h31 : daysInMonth t.year 12 = 31 := rfl
    refine ⟨⟨⟨by simp, hy⟩, ⟨Nat.le_refl 1, Nat.le_of_ble_eq_true rfl⟩,
      ⟨Nat.le_refl 1, one_le_daysInMonth _ _⟩, h.time⟩, ?_, rfl⟩
    simp only [ordinal, hlast, hdec, h31, daysBeforeYear, daysBeforeMonth]
    omega

theorem prevDay_ok {t t' : Datetime} (h : t.Valid) (ht : t.prevDay = .ok t') :
    t'.Valid ∧ t'.ordinal + 1 = t.ordinal ∧ t'.time = t.time := by
  have hyear := h.year
  have hmonth := h.month
  have hday := h.day
  unfold prevDay at ht
  split_ifs at ht with hd hm hy
  · cases ht
    refine ⟨⟨hyear, hmonth, ⟨?_, ?_⟩, h.time⟩, ?_, rfl⟩
    · show 1 ≤ t.day - 1
      omega
    · show t.day - 1 ≤ daysInMonth t.year t.month
      omega
    · simp only [ordinal]
      omega
  · cases ht
    have hsucc := daysBeforeMonth_succ t.year (show 1 ≤ t.month - 1 by omega)
    rw [Nat.sub_add_cancel hmonth.1] at hsucc
    refine ⟨⟨hyear, ⟨?_, ?_⟩, ⟨one_le_daysInMonth _ _, Nat.le_refl _⟩, h.time⟩, ?_, rfl⟩
    · show 1 ≤ t.month - 1
      omega
    · show t.month - 1 ≤ 12
      omega
    · simp only [ordinal, hsucc]
      omega
  · cases ht
    have hjan : t.month = 1 := by omega
    have hfirst : t.day = 1 := by omega
    obtain ⟨y, hy'⟩ := Nat.exists_eq_succ_of_ne_zero (show t.year ≠ 0 by omega)
    refine ⟨⟨⟨?_, ?_⟩, ⟨Nat.le_of_ble_eq_true rfl, Nat.le_refl _⟩,
      ⟨Nat.le_of_ble_eq_true rfl, Nat.le_refl _⟩, h.time⟩, ?_, rfl⟩
    · show 1 ≤ t.year - 1
      omega
    · show t.year - 1 ≤ 9999
      omega
    · simp only [ordinal, hjan, hfirst, hy', Nat.succ_eq_add_one, Nat.add_sub_cancel,
        daysBeforeYear, daysBeforeMonth]
      omega

/-- **Days later.** -/
theorem addDays_ok {t t' : Datetime} {n : Nat} (h : t.Valid) (ht : t.addDays n = .ok t') :
    t'.Valid ∧ t'.ordinal = t.ordinal + n ∧ t'.time = t.time := by
  induction n generalizing t' with
  | zero =>
    cases ht
    exact ⟨h, rfl, rfl⟩
  | succ n ih =>
    obtain ⟨u, hu, hnext⟩ := bind_eq_ok.1 ht
    obtain ⟨huv, hordinal, htime⟩ := ih hu
    obtain ⟨hv, hordinal', htime'⟩ := nextDay_ok huv hnext
    exact ⟨hv, by omega, htime'.trans htime⟩

theorem le_daysBeforeYear (x y : Nat) : daysBeforeYear x + 365 * y ≤ daysBeforeYear (x + y) := by
  induction y with
  | zero => exact Nat.le_refl _
  | succ y ih =>
    have hfebruary : 28 ≤ daysInMonth (x + y) 2 := by
      unfold daysInMonth
      split_ifs <;> decide
    have hyear : 365 ≤ daysBeforeMonth (x + y) 12 + 31 := by
      simp only [daysBeforeMonth]
      simp only [daysInMonth] at hfebruary ⊢
      simp at hfebruary ⊢
      omega
    rw [← Nat.add_assoc, daysBeforeYear, Nat.mul_succ, ← Nat.add_assoc]
    exact Nat.add_le_add ih hyear

/-- The calendar goes up to the year 9999. -/
theorem exists_addDays {t : Datetime} (h : t.Valid) {y n : Nat} (hy : t.year + y ≤ 9999)
    (hn : n ≤ 365 * y) : ∃ t', t.addDays n = .ok t' := by
  induction n with
  | zero => exact ⟨t, rfl⟩
  | succ n ih =>
    obtain ⟨u, hu⟩ := ih (by omega)
    obtain ⟨huv, hordinal, -⟩ := addDays_ok h hu
    rw [addDays, hu, ok_bind]
    unfold nextDay
    split_ifs with hday hmonth hyear
    · exact ⟨_, rfl⟩
    · exact ⟨_, rfl⟩
    · exact ⟨_, rfl⟩
    · -- the last day of a year from 9999 on is too many days later
      have hdec : u.month = 12 := by
        have hle := huv.month
        omega
      have h31 : daysInMonth u.year 12 = 31 := rfl
      have hlast : daysBeforeYear (u.year + 1) ≤ u.ordinal := by
        rw [hdec, h31] at hday
        rw [ordinal, daysBeforeYear, hdec, Nat.add_assoc]
        exact Nat.add_le_add_left (Nat.add_le_add_left (Nat.le_of_not_lt hday) _) _
      have hle := h.ordinal_le
      have hyears := le_daysBeforeYear (t.year + 1) y
      have hmono := daysBeforeYear_mono (show t.year + 1 + y ≤ u.year + 1 by omega)
      omega

/-- **Days earlier.** -/
theorem subDays_ok {t t' : Datetime} {n : Nat} (h : t.Valid) (ht : t.subDays n = .ok t') :
    t'.Valid ∧ t'.ordinal + n = t.ordinal ∧ t'.time = t.time := by
  induction n generalizing t' with
  | zero =>
    cases ht
    exact ⟨h, rfl, rfl⟩
  | succ n ih =>
    obtain ⟨u, hu, hprev⟩ := bind_eq_ok.1 ht
    obtain ⟨huv, hordinal, htime⟩ := ih hu
    obtain ⟨hv, hordinal', htime'⟩ := prevDay_ok huv hprev
    exact ⟨hv, by omega, htime'.trans htime⟩

theorem Valid.midnight {t : Datetime} (h : t.Valid) : t.midnight.Valid :=
  ⟨h.year, h.month, h.day, Nat.zero_lt_of_lt h.time⟩

theorem stamp_midnight (t : Datetime) : t.midnight.stamp = t.ordinal * dayLength := by
  simp [stamp, Datetime.midnight, ordinal]

/-- An earlier day is over before `t`. -/
theorem lt_stamp_of_lt {t : Datetime} {n : Nat} (h : n < t.ordinal) : n * dayLength < t.stamp := by
  have hmul := Nat.mul_lt_mul_of_pos_right h (show 0 < dayLength by decide)
  exact hmul.trans_le (Nat.le_add_right _ _)

/-! ## The text of a date -/

theorem decimal?_ofNat {d : Nat} (h : d < 10) : decimal? (Fin.ofNat _ (0x30 + d)) = some d := by
  revert d
  decide

theorem year?_zeroPadded {y : Nat} (h : y ≤ 9999) : year? (zeroPadded 4 y) = some y := by
  have hdigit : ∀ v, decimal? (Fin.ofNat _ (0x30 + v % 10)) = some (v % 10) := fun v =>
    decimal?_ofNat (Nat.mod_lt v (by decide))
  simp only [zeroPadded, List.nil_append, List.cons_append, year?, hdigit, Option.bind_eq_bind,
    Option.bind_some, Option.pure_def, Option.some.injEq]
  omega

/-- **The text of a date reads as the date**, at midnight. -/
theorem strptime_strftime {t : Datetime} (h : t.Valid) : strptime t.strftime = .ok t.midnight := by
  obtain ⟨hmonth, hmonth'⟩ := h.month
  obtain ⟨hday, hday'⟩ := h.day
  have hle := daysInMonth_le t.year t.month
  have hmonths : ∀ m < 13, 1 ≤ m → month? (zeroPadded 2 m) = some m := by decide
  have hdays : ∀ d < 32, 1 ≤ d → day? (zeroPadded 2 d) = some d := by decide
  refine strptime_iff.2 ⟨_, _, _, _, _, _, ?_, year?_zeroPadded h.year.2,
    hmonths t.month (by omega) hmonth, hdays t.day (by omega) hday, ?_⟩
  · rw [strftime, List.append_assoc]
    rfl
  · rw [ofDate, if_pos ⟨h.year.1, h.year.2, hmonth, hmonth', hday, hday'⟩]
    rfl

end Python.Datetime
