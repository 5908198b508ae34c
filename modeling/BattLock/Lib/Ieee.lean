import Mathlib.Data.Rat.Defs
import Mathlib.Algebra.Order.Ring.Rat
import Mathlib.Tactic.Ring
import Mathlib.Tactic.Positivity

/-!
# IEEE 754 binary interchange formats

`Binary w p` is a number of the format with `w` exponent and `p` fraction bits, field by field;
`toBits`/`ofBits` are its bit pattern and `Binary.val` its value (a NaN, an infinity or a
rational). `narrow?` is the conversion from binary64 to binary32 (to nearest, ties to even;
`none` on overflow of a finite number), `widen` the exact conversion back: it keeps the value
(`val_widen`), and narrowing undoes it (`narrow?_widen`). `ofInt` is the conversion from whole
numbers that binary64 holds exactly (`val_ofInt`).
-/

namespace Ieee

/-- A number of the format with `w` exponent bits and `p` fraction bits. -/
structure Binary (w p : Nat) where
  sign : Bool
  exp : Fin (2 ^ w)
  frac : Fin (2 ^ p)
deriving DecidableEq

abbrev Binary32 := Binary 8 23
abbrev Binary64 := Binary 11 52

variable {w p : Nat}

namespace Binary

/-! ## Bit patterns -/

/-- The bit pattern: sign, biased exponent, fraction, most significant first. -/
def toBits (x : Binary w p) : Nat := (x.sign.toNat * 2 ^ w + x.exp) * 2 ^ p + x.frac

/-- The number with a bit pattern (bits above the format's width are ignored). -/
def ofBits (n : Nat) : Binary w p where
  sign := n / 2 ^ p / 2 ^ w % 2 == 1
  exp := ⟨n / 2 ^ p % 2 ^ w, Nat.mod_lt _ (Nat.two_pow_pos w)⟩
  frac := ⟨n % 2 ^ p, Nat.mod_lt _ (Nat.two_pow_pos p)⟩

theorem toBits_lt (x : Binary w p) : x.toBits < 2 ^ (1 + w + p) := by
  have hs : x.sign.toNat ≤ 1 := Bool.toNat_le _
  have h1 : x.sign.toNat * 2 ^ w + x.exp < 2 ^ (1 + w) := by
    have := Nat.mul_le_mul_right (2 ^ w) hs
    have := x.exp.isLt
    rw [pow_add]
    omega
  have h2 := Nat.mul_le_mul_right (2 ^ p) (Nat.succ_le_of_lt h1)
  have := x.frac.isLt
  rw [pow_add 2 (1 + w), toBits]
  rw [Nat.succ_mul] at h2
  omega

theorem ofBits_toBits (x : Binary w p) : ofBits x.toBits = x := by
  obtain ⟨s, e, f⟩ := x
  have hp := Nat.two_pow_pos p
  have hw := Nat.two_pow_pos w
  have h1 : toBits ⟨s, e, f⟩ / 2 ^ p = s.toNat * 2 ^ w + e := by
    rw [toBits, Nat.mul_comm, Nat.mul_add_div hp, Nat.div_eq_of_lt f.isLt, Nat.add_zero]
  have h2 : toBits ⟨s, e, f⟩ % 2 ^ p = f := by
    rw [toBits, Nat.mul_comm, Nat.mul_add_mod, Nat.mod_eq_of_lt f.isLt]
  have h3 : (s.toNat * 2 ^ w + e) / 2 ^ w = s.toNat := by
    rw [Nat.mul_comm, Nat.mul_add_div hw, Nat.div_eq_of_lt e.isLt, Nat.add_zero]
  have h4 : (s.toNat * 2 ^ w + e) % 2 ^ w = e := by
    rw [Nat.mul_comm, Nat.mul_add_mod, Nat.mod_eq_of_lt e.isLt]
  simp only [ofBits, h1, h2, h3, h4]
  cases s <;> rfl

theorem toBits_ofBits {n : Nat} (h : n < 2 ^ (1 + w + p)) :
    (ofBits n : Binary w p).toBits = n := by
  have hsign : n / 2 ^ p / 2 ^ w < 2 := by
    rw [Nat.div_div_eq_div_mul, Nat.div_lt_iff_lt_mul (Nat.mul_pos (Nat.two_pow_pos p)
      (Nat.two_pow_pos w))]
    calc n < 2 ^ (1 + w + p) := h
      _ = 2 * (2 ^ p * 2 ^ w) := by ring
  have hbit : ∀ b < 2, (b % 2 == 1).toNat = b := by
    intro b hb
    rcases (by omega : b = 0 ∨ b = 1) with rfl | rfl
    · rfl
    · rfl
  simp only [toBits, ofBits, hbit _ hsign]
  rw [Nat.div_add_mod', Nat.div_add_mod']

end Binary

/-! ## Values -/

/-- What a number of a binary format denotes. -/
inductive Value
  | nan
  | inf (negative : Bool)
  | finite (q : ℚ)
deriving DecidableEq

/-- The comparison `x > c` with a number `c` that the format holds exactly; a NaN compares
greater than nothing. -/
def Value.gt : Value → ℚ → Bool
  | .nan, _ => false
  | .inf negative, _ => !negative
  | .finite q, c => decide (c < q)

/-- The comparison `x <= c`; a NaN compares less than nothing either. -/
def Value.le : Value → ℚ → Bool
  | .nan, _ => false
  | .inf negative, _ => negative
  | .finite q, c => decide (q ≤ c)

/-- The two comparisons are opposite on everything but a NaN. -/
theorem Value.le_iff {x : Value} {c : ℚ} : x.le c = true ↔ x ≠ .nan ∧ x.gt c = false := by
  cases x with
  | nan => simp [Value.le]
  | inf negative => simp [Value.le, Value.gt]
  | finite q => simp [Value.le, Value.gt]

namespace Binary

/-- The significand as a whole number: the hidden bit is set unless the number is subnormal. -/
def significand (x : Binary w p) : Nat := if x.exp.val = 0 then x.frac else 2 ^ p + x.frac

/-- The absolute value of a finite number: `significand * 2 ^ (exp - bias - p)`. -/
def magnitude (x : Binary w p) : ℚ :=
  x.significand * 2 ^ max x.exp.val 1 / 2 ^ (2 ^ (w - 1) - 1 + p)

def val (x : Binary w p) : Value :=
  if x.exp.val = 2 ^ w - 1 then
    if x.frac.val = 0 then .inf x.sign else .nan
  else .finite (if x.sign then -x.magnitude else x.magnitude)

theorem val_of_inf {x : Binary w p} (h : x.exp.val = 2 ^ w - 1) (h0 : x.frac.val = 0) :
    x.val = .inf x.sign := by
  rw [val, if_pos h, if_pos h0]

theorem val_of_nan {x : Binary w p} (h : x.exp.val = 2 ^ w - 1) (h0 : x.frac.val ≠ 0) :
    x.val = .nan := by
  rw [val, if_pos h, if_neg h0]

theorem val_of_finite {x : Binary w p} (h : x.exp.val ≠ 2 ^ w - 1) :
    x.val = .finite (if x.sign then -x.magnitude else x.magnitude) := by
  rw [val, if_neg h]

end Binary

/-! ## Conversions -/

/-- `m / 2 ^ sh` to the nearest whole number, ties to even. -/
def roundShift (m sh : Nat) : Nat :=
  let q := m / 2 ^ sh
  let r := m % 2 ^ sh
  if 2 ^ sh < 2 * r ∨ 2 * r = 2 ^ sh ∧ q % 2 = 1 then q + 1 else q

/-- Binary64 to binary32, to nearest with ties to even; `none` when a number overflows. -/
def narrow? (x : Binary64) : Option Binary32 :=
  if x.exp.val = 2047 then
    -- an infinity, or a NaN: quieted, with the leading bits of its payload
    some ⟨x.sign, 255,
      if x.frac.val = 0 then 0 else Fin.ofNat _ (2 ^ 22 + x.frac.val / 2 ^ 29 % 2 ^ 22)⟩
  else
    -- the exponent fields differ by the biases, 1023 - 127 = 896; below 1 the result is subnormal
    let e := max (x.exp.val - 896) 1
    let bits := (e - 1) * 2 ^ 23 +
      roundShift x.significand (29 + (e + 896 - max x.exp.val 1))
    if bits < 255 * 2 ^ 23 then some (.ofBits (x.sign.toNat * 2 ^ 31 + bits)) else none

/-- The conversion of C: a number that overflows becomes an infinity. -/
def narrow (x : Binary64) : Binary32 := (narrow? x).getD ⟨x.sign, 255, 0⟩

/-- Binary32 to binary64, exactly; a NaN is quieted. -/
def widen (x : Binary32) : Binary64 :=
  if x.exp.val = 255 then
    ⟨x.sign, 2047, if x.frac.val = 0 then 0 else Fin.ofNat _ (2 ^ 51 + x.frac % 2 ^ 22 * 2 ^ 29)⟩
  else if x.exp.val ≠ 0 then ⟨x.sign, Fin.ofNat _ (x.exp + 896), Fin.ofNat _ (x.frac * 2 ^ 29)⟩
  else if x.frac.val = 0 then ⟨x.sign, 0, 0⟩
  else
    -- a subnormal: its leading bit becomes the hidden bit
    let l := x.frac.val.log2
    ⟨x.sign, Fin.ofNat _ (l + 874), Fin.ofNat _ ((x.frac - 2 ^ l) * 2 ^ (52 - l))⟩

/-- A binary64 number after a trip through binary32. -/
def round32 (x : Binary64) : Binary64 := widen (narrow x)

/-! ## Widening is exact -/

theorem roundShift_mul (m sh : Nat) : roundShift (m * 2 ^ sh) sh = m := by
  have hpos := Nat.two_pow_pos sh
  unfold roundShift
  rw [Nat.mul_div_cancel _ hpos, Nat.mul_mod_left]
  exact if_neg (by omega)

/-- The leading bit of a subnormal's fraction. -/
theorem log2_frac_le {f : Nat} (h0 : f ≠ 0) (h : f < 2 ^ 23) : f.log2 ≤ 22 :=
  Nat.le_of_lt_succ ((Nat.log2_lt h0).2 h)

/-- What is below the leading bit, moved up to the fraction of a binary64 number, fits there. -/
theorem subnormal_frac_lt {f : Nat} (h0 : f ≠ 0) (h : f < 2 ^ 23) :
    (f - 2 ^ f.log2) * 2 ^ (52 - f.log2) < 2 ^ 52 := by
  have hl := log2_frac_le h0 h
  have hlt : f < 2 ^ (f.log2 + 1) := Nat.lt_log2_self
  have hle : f - 2 ^ f.log2 < 2 ^ f.log2 := by
    rw [pow_succ] at hlt
    omega
  calc (f - 2 ^ f.log2) * 2 ^ (52 - f.log2)
      < 2 ^ f.log2 * 2 ^ (52 - f.log2) := Nat.mul_lt_mul_of_pos_right hle (Nat.two_pow_pos _)
    _ = 2 ^ 52 := by rw [← pow_add, Nat.add_sub_cancel' (by omega)]

/-- The significand of a widened subnormal. -/
theorem subnormal_significand {f : Nat} (h0 : f ≠ 0) (h : f < 2 ^ 23) :
    2 ^ 52 + (f - 2 ^ f.log2) * 2 ^ (52 - f.log2) = f * 2 ^ (52 - f.log2) := by
  have hl := log2_frac_le h0 h
  have hself : 2 ^ f.log2 ≤ f := Nat.log2_self_le h0
  calc 2 ^ 52 + (f - 2 ^ f.log2) * 2 ^ (52 - f.log2)
      = 2 ^ f.log2 * 2 ^ (52 - f.log2) + (f - 2 ^ f.log2) * 2 ^ (52 - f.log2) := by
        rw [← pow_add, Nat.add_sub_cancel' (by omega)]
    _ = f * 2 ^ (52 - f.log2) := by rw [← Nat.add_mul, Nat.add_sub_cancel' hself]

/-- A finite number widened: the exponents differ by the biases, and what the significand is
moved up by makes up for the rest. -/
theorem widen_finite {y : Binary32} (hy : y.exp.val ≠ 255) :
    (widen y).sign = y.sign ∧ (widen y).exp.val ≠ 2047 ∧
      max ((widen y).exp.val - 896) 1 = max y.exp.val 1 ∧
      ∃ sh, (widen y).significand = y.significand * 2 ^ sh ∧
        sh + max (widen y).exp.val 1 = max y.exp.val 1 + 925 := by
  obtain ⟨s, e, f⟩ := y
  have he := e.isLt
  have hf := f.isLt
  simp only at hy
  by_cases he0 : e.val = 0
  · by_cases hf0 : f.val = 0
    · -- zero
      have hw : widen ⟨s, e, f⟩ = ⟨s, 0, 0⟩ := by simp [widen, he0, hf0]
      rw [hw]
      refine ⟨rfl, by simp, by simp [he0], 925, ?_, by simp [he0]⟩
      have h32 : Binary.significand ⟨s, e, f⟩ = 0 := by simp [Binary.significand, he0, hf0]
      rw [h32, Nat.zero_mul]
      rfl
    · -- subnormal
      have hl := log2_frac_le hf0 hf
      have hexp : (Fin.ofNat (2 ^ 11) (f.val.log2 + 874)).val = f.val.log2 + 874 :=
        Nat.mod_eq_of_lt (by omega)
      have hfrac : (Fin.ofNat (2 ^ 52) ((f.val - 2 ^ f.val.log2) * 2 ^ (52 - f.val.log2))).val =
          (f.val - 2 ^ f.val.log2) * 2 ^ (52 - f.val.log2) :=
        Nat.mod_eq_of_lt (subnormal_frac_lt hf0 hf)
      have hw : widen ⟨s, e, f⟩ = ⟨s, Fin.ofNat _ (f.val.log2 + 874),
          Fin.ofNat _ ((f.val - 2 ^ f.val.log2) * 2 ^ (52 - f.val.log2))⟩ := by
        simp [widen, he0, hf0]
      rw [hw]
      refine ⟨rfl, by rw [hexp]; omega, by rw [hexp, he0]; omega, 52 - f.val.log2, ?_,
        by rw [hexp, he0]; omega⟩
      rw [Binary.significand, Binary.significand, if_pos he0, if_neg (by rw [hexp]; omega), hfrac]
      exact subnormal_significand hf0 hf
  · -- normal
    have hexp : (Fin.ofNat (2 ^ 11) (e.val + 896)).val = e.val + 896 :=
      Nat.mod_eq_of_lt (by omega)
    have hfrac : (Fin.ofNat (2 ^ 52) (f.val * 2 ^ 29)).val = f.val * 2 ^ 29 :=
      Nat.mod_eq_of_lt (by omega)
    have hw : widen ⟨s, e, f⟩ = ⟨s, Fin.ofNat _ (e.val + 896), Fin.ofNat _ (f.val * 2 ^ 29)⟩ := by
      rw [widen, if_neg hy, if_pos he0]
    rw [hw]
    refine ⟨rfl, ?_, ?_, 29, ?_, ?_⟩
    · rw [hexp]
      omega
    · rw [hexp]
      dsimp only
      omega
    · rw [Binary.significand, Binary.significand, if_neg he0, if_neg (by rw [hexp]; omega), hfrac]
      dsimp only
      omega
    · rw [hexp]
      dsimp only
      omega

/-- The bit pattern of a finite number, by its significand. -/
theorem toBits_eq (y : Binary32) :
    y.toBits = y.sign.toNat * 2 ^ 31 + ((max y.exp.val 1 - 1) * 2 ^ 23 + y.significand) := by
  rw [Binary.toBits, Binary.significand]
  split
  · omega
  · omega

/-- **Narrowing undoes widening.** -/
theorem narrow?_widen {y : Binary32} (hy : y.val ≠ .nan) : narrow? (widen y) = some y := by
  by_cases he : y.exp.val = 255
  · have hf : y.frac.val = 0 := by
      by_contra hf
      exact hy (Binary.val_of_nan he hf)
    have hw : widen y = ⟨y.sign, 2047, 0⟩ := by rw [widen, if_pos he, if_pos hf]
    have hy' : y = ⟨y.sign, 255, 0⟩ := by
      obtain ⟨s, e, f⟩ := y
      obtain rfl : e = 255 := Fin.ext he
      obtain rfl : f = 0 := Fin.ext hf
      rfl
    rw [hw, hy']
    rfl
  · obtain ⟨hs, h2047, hmax, sh, hsig, hsh⟩ := widen_finite he
    have hshift : 29 + (max y.exp.val 1 + 896 - max (widen y).exp.val 1) = sh := by omega
    have hlt : (max y.exp.val 1 - 1) * 2 ^ 23 + y.significand < 255 * 2 ^ 23 := by
      have := y.exp.isLt
      have := y.frac.isLt
      rw [Binary.significand]
      split
      · omega
      · omega
    rw [narrow?, if_neg h2047]
    simp only [hmax, hshift, hsig, roundShift_mul, hlt, ↓reduceIte, hs, ← toBits_eq,
      Binary.ofBits_toBits]

/-- **Widening keeps the value.** -/
theorem val_widen (y : Binary32) : (widen y).val = y.val := by
  by_cases he : y.exp.val = 255
  · by_cases hf : y.frac.val = 0
    · have hw : widen y = ⟨y.sign, 2047, 0⟩ := by rw [widen, if_pos he, if_pos hf]
      rw [hw, Binary.val_of_inf he hf, Binary.val_of_inf rfl rfl]
    · have hw : widen y =
          ⟨y.sign, 2047, Fin.ofNat _ (2 ^ 51 + y.frac % 2 ^ 22 * 2 ^ 29)⟩ := by
        rw [widen, if_pos he, if_neg hf]
      have hfrac : (Fin.ofNat (2 ^ 52) (2 ^ 51 + y.frac.val % 2 ^ 22 * 2 ^ 29)).val =
          2 ^ 51 + y.frac.val % 2 ^ 22 * 2 ^ 29 := Nat.mod_eq_of_lt (by omega)
      rw [hw, Binary.val_of_nan he hf, Binary.val_of_nan rfl (by rw [hfrac]; omega)]
  · obtain ⟨hs, h2047, -, sh, hsig, hsh⟩ := widen_finite he
    have hmag : (widen y).magnitude = y.magnitude := by
      have hnat : (widen y).significand * 2 ^ max (widen y).exp.val 1 =
          y.significand * 2 ^ max y.exp.val 1 * 2 ^ 925 := by
        rw [hsig, Nat.mul_assoc, ← pow_add, hsh, pow_add, Nat.mul_assoc]
      have hrat := congrArg (Nat.cast (R := ℚ)) hnat
      have hbias : 2 ^ (11 - 1) - 1 + 52 = 2 ^ (8 - 1) - 1 + 23 + 925 := rfl
      simp only [Nat.cast_mul, Nat.cast_pow, Nat.cast_ofNat] at hrat
      rw [Binary.magnitude, Binary.magnitude, hrat, hbias, pow_add 2 (2 ^ (8 - 1) - 1 + 23)]
      exact mul_div_mul_right _ _ (pow_ne_zero _ two_ne_zero)
    rw [Binary.val_of_finite h2047, Binary.val_of_finite he, hs, hmag]

/-! ## Whole numbers -/

/-- The binary64 number of a whole number below `2 ^ 53`. -/
def ofInt (n : Int) : Binary64 :=
  if n = 0 then ⟨false, 0, 0⟩
  else
    -- the leading bit becomes the hidden bit
    let l := n.natAbs.log2
    ⟨decide (n < 0), Fin.ofNat _ (1023 + l), Fin.ofNat _ (n.natAbs * 2 ^ (52 - l))⟩

/-- A whole number moved up until its leading bit is the hidden bit. -/
theorem hidden_bit {m : Nat} (h0 : m ≠ 0) (h : m < 2 ^ 53) :
    2 ^ 52 ≤ m * 2 ^ (52 - m.log2) ∧ m * 2 ^ (52 - m.log2) < 2 ^ 53 := by
  have hl : m.log2 ≤ 52 := Nat.le_of_lt_succ ((Nat.log2_lt h0).2 h)
  constructor
  · calc 2 ^ 52 = 2 ^ m.log2 * 2 ^ (52 - m.log2) := by rw [← pow_add, Nat.add_sub_cancel' hl]
      _ ≤ m * 2 ^ (52 - m.log2) := Nat.mul_le_mul_right _ (Nat.log2_self_le h0)
  · calc m * 2 ^ (52 - m.log2)
        < 2 ^ (m.log2 + 1) * 2 ^ (52 - m.log2) :=
          Nat.mul_lt_mul_of_pos_right Nat.lt_log2_self (Nat.two_pow_pos _)
      _ = 2 ^ 53 := by rw [← pow_add]; congr 1; omega

/-- **Whole numbers are exact.** -/
theorem val_ofInt {n : Int} (h : n.natAbs < 2 ^ 53) : (ofInt n).val = .finite n := by
  by_cases hn : n = 0
  · subst hn
    decide +kernel
  have h0 : n.natAbs ≠ 0 := Int.natAbs_ne_zero.2 hn
  have hl : n.natAbs.log2 ≤ 52 := Nat.le_of_lt_succ ((Nat.log2_lt h0).2 h)
  obtain ⟨hle, hlt⟩ := hidden_bit h0 h
  have hexp : (Fin.ofNat (2 ^ 11) (1023 + n.natAbs.log2)).val = 1023 + n.natAbs.log2 :=
    Nat.mod_eq_of_lt (by omega)
  have hfrac : 2 ^ 52 + (Fin.ofNat (2 ^ 52) (n.natAbs * 2 ^ (52 - n.natAbs.log2))).val =
      n.natAbs * 2 ^ (52 - n.natAbs.log2) := by
    show 2 ^ 52 + n.natAbs * 2 ^ (52 - n.natAbs.log2) % 2 ^ 52 = _
    omega
  have hw : ofInt n = ⟨decide (n < 0), Fin.ofNat _ (1023 + n.natAbs.log2),
      Fin.ofNat _ (n.natAbs * 2 ^ (52 - n.natAbs.log2))⟩ := by rw [ofInt, if_neg hn]
  have hsig : (ofInt n).significand = n.natAbs * 2 ^ (52 - n.natAbs.log2) := by
    rw [hw, Binary.significand, if_neg (by rw [hexp]; omega), hfrac]
  have hmag : (ofInt n).magnitude = n.natAbs := by
    have hnat : (ofInt n).significand * 2 ^ max (ofInt n).exp.val 1 = n.natAbs * 2 ^ 1075 := by
      rw [hsig, hw, hexp, Nat.mul_assoc, ← pow_add]
      congr 2
      omega
    have hrat := congrArg (Nat.cast (R := ℚ)) hnat
    simp only [Nat.cast_mul, Nat.cast_pow, Nat.cast_ofNat] at hrat
    rw [Binary.magnitude, hrat]
    exact mul_div_cancel_right₀ _ (pow_ne_zero _ two_ne_zero)
  have hfinite : (ofInt n).exp.val ≠ 2 ^ 11 - 1 := by
    rw [hw, hexp]
    omega
  rw [Binary.val_of_finite hfinite, hmag, hw]
  by_cases hneg : n < 0
  · rw [if_pos (decide_eq_true hneg), ← Int.cast_natCast, Int.ofNat_natAbs_of_nonpos (by omega),
      Int.cast_neg, neg_neg]
  · rw [if_neg (by simpa using hneg), ← Int.cast_natCast, Int.natAbs_of_nonneg (by omega)]

end Ieee
