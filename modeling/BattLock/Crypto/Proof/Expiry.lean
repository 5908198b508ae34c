import BattLock.Crypto.Proof.Binding

/-!
# The expiry date that a signature binds

The fields of a certificate are signed without separators, and the expiry date comes last. No date
is a proper ending of another (`eq_nil_of_date`): its year has four digits, and there is no `-` in
its parts. Bytes of text that end the bytes of a text are those of its end. So two certificates
with the same signed bytes have the same expiry date (`expiryDate_of_data`), whatever bytes moved
between the other fields.
-/

namespace BattLock

open Python

/-! ## Dates -/

/-- A list splits in one way at the last occurrence of an element. -/
theorem append_cons_inj_of_last {α : Type} {x : α} {a b c d : List α} (hb : x ∉ b) (hd : x ∉ d)
    (h : a ++ x :: b = c ++ x :: d) : a = c ∧ b = d := by
  rcases List.append_eq_append_iff.1 h with ⟨e, rfl, he⟩ | ⟨e, rfl, he⟩
  · cases e with
    | nil => simpa using he
    | cons y e =>
      rw [List.cons_append, List.cons.injEq] at he
      exact absurd (he.2 ▸ List.mem_append_right e List.mem_cons_self) hb
  · cases e with
    | nil => simpa [eq_comm] using he
    | cons y e =>
      rw [List.cons_append, List.cons.injEq] at he
      exact absurd (he.2 ▸ List.mem_append_right e List.mem_cons_self) hd

/-- **No date is a proper ending of another.** -/
theorem eq_nil_of_date {p s s' : Str} {t t' : Datetime} (hs : Datetime.strptime s = .ok t)
    (hs' : Datetime.strptime s' = .ok t') (h : s' = p ++ s) : p = [] := by
  obtain ⟨y, m, d, _, _, _, rfl, hy, hm, hd, -⟩ := Datetime.strptime_iff.1 hs
  obtain ⟨y', m', d', _, _, _, rfl, hy', hm', hd', -⟩ := Datetime.strptime_iff.1 hs'
  -- the days, then the months, then what comes before them
  have hlast : (y' ++ 0x2D :: m') ++ 0x2D :: d' = (p ++ y ++ 0x2D :: m) ++ 0x2D :: d := by
    simpa using h
  obtain ⟨hfirst, -⟩ := append_cons_inj_of_last (Datetime.dash_not_mem (Datetime.day?_spec hd'))
    (Datetime.dash_not_mem (Datetime.day?_spec hd)) hlast
  obtain ⟨hyear, -⟩ := append_cons_inj_of_last (Datetime.dash_not_mem (Datetime.month?_spec hm'))
    (Datetime.dash_not_mem (Datetime.month?_spec hm)) hfirst
  have hlen := congrArg List.length hyear
  rw [List.length_append, (Datetime.year?_spec hy).1, (Datetime.year?_spec hy').1] at hlen
  exact List.length_eq_zero_iff.1 (by omega)

/-! ## Certificates -/

theorem certificateData_ends {τ : Type} [PyText τ] {c : Certificate τ} {data : Bytes}
    (h : certificateData c = .ok data) :
    ∃ p e, PyText.encode c.expiryDate = .ok e ∧ data = p ++ e := by
  simp only [certificateData, bind_eq_ok, pure_eq_ok, Except.ok.injEq] at h
  obtain ⟨_, -, _, -, _, -, e, he, rfl⟩ := h
  exact ⟨_, e, he, rfl⟩

/-- **The signed bytes determine the expiry date**: two texts that both end the same bytes and are
both dates are equal. -/
theorem expiryDate_eq {e e' : Str} {p p' b b' : Bytes} {t t' : Datetime}
    (ht : Datetime.strptime e = .ok t) (ht' : Datetime.strptime e' = .ok t')
    (hb : e.encode = .ok b) (hb' : e'.encode = .ok b') (h : p ++ b = p' ++ b') : e = e' := by
  have hend : ∀ {e e' : Str} {b b' r : Bytes} {t t' : Datetime}, Datetime.strptime e = .ok t →
      Datetime.strptime e' = .ok t' → e.encode = .ok b → e'.encode = .ok b' → b' = r ++ b →
        e = e' := by
    intro e e' b b' r t t' ht ht' hb hb' hr
    obtain ⟨cs, rfl, rfl⟩ := Str.exists_chars hb
    obtain ⟨ds, rfl, rfl⟩ := Str.exists_chars hb'
    have hne : cs ≠ [] := by
      rintro rfl
      exact absurd ht (by simp [Str.ofChars, Datetime.strptime])
    obtain ⟨ps, rfl⟩ := encodeChars_suffix hne hr
    have hps := eq_nil_of_date ht ht' (List.map_append : Str.ofChars (ps ++ cs) = _)
    rw [List.map_eq_nil_iff.1 hps, List.nil_append]
  rcases List.append_eq_append_iff.1 h with ⟨r, -, hr⟩ | ⟨r, -, hr⟩
  · exact (hend ht' ht hb' hb hr).symm
  · exact hend ht ht' hb hb' hr

/-- **No change that keeps the signed bytes extends the lifetime of a certificate**, whether its
fields are text or come out of a message. -/
theorem expiryDate_of_data :
    (∀ (c c' : Certificate Str) (data : Bytes) (t t' : Datetime),
      certificateData c = .ok data → certificateData c' = .ok data →
      PyText.strptime c.expiryDate = .ok t → PyText.strptime c'.expiryDate = .ok t' →
        c.expiryDate = c'.expiryDate) ∧
    (∀ (c c' : Certificate Json) (data : Bytes) (t t' : Datetime),
      certificateData c = .ok data → certificateData c' = .ok data →
      PyText.strptime c.expiryDate = .ok t → PyText.strptime c'.expiryDate = .ok t' →
        c.expiryDate = c'.expiryDate) := by
  constructor
  · intro c c' data t t' hdata hdata' ht ht'
    obtain ⟨p, e, he, rfl⟩ := certificateData_ends hdata
    obtain ⟨p', e', he', h⟩ := certificateData_ends hdata'
    exact expiryDate_eq ht ht' he he' h
  · intro c c' data t t' hdata hdata' ht ht'
    obtain ⟨p, e, he, rfl⟩ := certificateData_ends hdata
    obtain ⟨p', e', he', h⟩ := certificateData_ends hdata'
    -- only strings are dates
    cases hc : c.expiryDate with
    | str s =>
      cases hc' : c'.expiryDate with
      | str s' =>
        rw [hc] at ht he
        rw [hc'] at ht' he'
        exact congrArg Json.str (expiryDate_eq ht ht' he he' h)
      | _ => rw [hc'] at ht'; cases ht'
    | _ => rw [hc] at ht; cases ht

/-- A letter moved from the manufacturer to the battery id. -/
theorem expiryDate_of_data_tesla :
    teslaCertificate.expiryDate = (CertificateTamperingAttack.tamper teslaCertificate
      [⟨.batteryId, Str.ofString "BAT001T"⟩, ⟨.manufacturerId, Str.ofString "ESLA"⟩]).expiryDate :=
  expiryDate_of_data.1 teslaCertificate _ (encodeChars "BAT001TESLA".toList ++ [9] ++
    encodeChars "2026-01-012031-01-01".toList) ⟨2031, 1, 1, 0⟩ ⟨2031, 1, 1, 0⟩
    (by decide +kernel) (by decide +kernel) (by decide +kernel) (by decide +kernel)

end BattLock
