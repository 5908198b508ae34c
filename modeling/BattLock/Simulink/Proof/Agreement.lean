import BattLock.Simulink.Proof.Verdicts

/-!
# The agreement table

A line of the table says YES when the largest value of each verdict over the mode's rows is the
same on both sides, that is when each verdict is raised by both sides on some row of the mode or by
neither (`agree_iff`). So differing rows go unreported in a mode where this holds of all three
verdicts, and in no other (`agreement_exact_iff`).
-/

namespace BattLock

open Python

/-- The verdicts that are compared. -/
inductive Check
  | auth
  | replay
  | injection
deriving DecidableEq

namespace Check

/-- The rule by which the verifier raises the verdict on a row, after the earlier rows of its
mode. -/
def python : Check → List Reading → Reading → Prop
  | auth, _, r => r.signature = r.nonce + signatureBias
  | replay, earlier, r => Replayed (earlier.map Reading.counter) r.counter
  | injection, _, r => r.voltage.val.gt voltageThreshold = true

/-- The column of the model's verdict. -/
def column : Check → Reading → Int
  | auth => Reading.modelAuth
  | replay => Reading.modelReplay
  | injection => Reading.modelInjection

def pyValue : Check → Verdict → Int
  | auth => Verdict.pyAuth
  | replay => Verdict.pyReplay
  | injection => Verdict.pyInjection

def modelValue : Check → Verdict → Int
  | auth => Verdict.modelAuth
  | replay => Verdict.modelReplay
  | injection => Verdict.modelInjection

end Check

section
variable (rs : List Reading)

/-- The verifier raises the verdict on some row of a mode. -/
def RaisedByPython (c : Check) : Prop :=
  ∃ earlier r later, rs = earlier ++ r :: later ∧ c.python earlier r

/-- The model does. -/
def RaisedByModel (c : Check) : Prop := ∃ r ∈ rs, c.column r = 1

/-- The two sides raise the verdict on the same rows. -/
def SameRows (c : Check) : Prop :=
  ∀ earlier r later, rs = earlier ++ r :: later → (c.python earlier r ↔ c.column r = 1)

/-- The rows of a mode do not hide a difference: they are the same for each verdict, or one verdict
is raised by one side only. -/
def NoneHidden : Prop :=
  (∀ c, SameRows rs c) ∨
    ∃ c, (RaisedByPython rs c ∧ ¬ RaisedByModel rs c) ∨ (RaisedByModel rs c ∧ ¬ RaisedByPython rs c)

end

/-- The model's verdicts are 0 or 1. -/
def Reading.Binary (r : Reading) : Prop := ∀ c : Check, c.column r = 0 ∨ c.column r = 1

/-- The row's mode has a name, and the model's verdicts in it are 0 or 1. -/
def FrameRow.Known (ds : List (Int × String)) (row : FrameRow) : Prop :=
  ∀ r, row.read = .ok r → (dictGet ds r.mode).isSome ∧ r.Binary

/-- Where the table says YES, every row of the mode has the same verdicts on both sides. -/
def AgreementExact (run : Verification) : Prop :=
  ∀ line ∈ run.report, line.agree = true → ∀ v ∈ run.outRows, v.mode = line.mode →
    v.pyAuth = v.modelAuth ∧ v.pyReplay = v.modelReplay ∧ v.pyInjection = v.modelInjection

/-! ## Largest values -/

theorem pyMax_of_binary {xs : List Int} (hne : xs ≠ []) (h : ∀ x ∈ xs, x = 0 ∨ x = 1) :
    pyMax xs = .ok (if 1 ∈ xs then 1 else 0) := by
  cases xs with
  | nil => exact absurd rfl hne
  | cons x xs =>
    have hfold : ∀ (ys : List Int) (y : Int), (∀ z ∈ y :: ys, z = 0 ∨ z = 1) →
        ys.foldl max y = if 1 ∈ y :: ys then 1 else 0 := by
      intro ys
      induction ys with
      | nil =>
        intro y hy
        rcases hy y List.mem_cons_self with rfl | rfl <;> rfl
      | cons z ys ih =>
        intro y hy
        simp only [List.forall_mem_cons] at hy
        obtain ⟨hy, hz, hys⟩ := hy
        have hmax : max y z = 0 ∨ max y z = 1 := by omega
        rw [List.foldl_cons, ih _ (List.forall_mem_cons.2 ⟨hmax, hys⟩)]
        rcases hy with rfl | rfl <;> rcases hz with rfl | rfl <;> simp
    rw [pyMax, hfold xs x h]

theorem pyMax_eq_iff {xs ys : List Int} {a b : Int} (hxs : ∀ x ∈ xs, x = 0 ∨ x = 1)
    (hys : ∀ y ∈ ys, y = 0 ∨ y = 1) (ha : pyMax xs = .ok a) (hb : pyMax ys = .ok b) :
    a = b ↔ (1 ∈ xs ↔ 1 ∈ ys) := by
  have hx : xs ≠ [] := by
    rintro rfl
    cases ha
  have hy : ys ≠ [] := by
    rintro rfl
    cases hb
  rw [pyMax_of_binary hx hxs, Except.ok.injEq] at ha
  rw [pyMax_of_binary hy hys, Except.ok.injEq] at hb
  subst ha hb
  split <;> split <;> simp_all

/-! ## A line of the table -/

/-- The verdicts of the rows of a mode. -/
def group (outRows : List Verdict) (m : Int) : List Verdict := outRows.filter (·.mode = m)

/-- All verdicts are 0 or 1. -/
def BinaryVerdicts (vs : List Verdict) : Prop :=
  ∀ v ∈ vs, ∀ c : Check, (c.pyValue v = 0 ∨ c.pyValue v = 1) ∧
    (c.modelValue v = 0 ∨ c.modelValue v = 1)

/-- **When a line says YES.** -/
theorem agree_iff {ds : List (Int × String)} {outRows : List Verdict} {m : Int}
    (hbin : BinaryVerdicts (group outRows m)) {line : Summary}
    (h : summarize ds outRows m = .ok line) :
    line.mode = m ∧ (line.agree = true ↔ ∀ c : Check,
      (1 ∈ (group outRows m).map c.pyValue ↔ 1 ∈ (group outRows m).map c.modelValue)) := by
  have hpy : ∀ c : Check, ∀ x ∈ (group outRows m).map c.pyValue, x = 0 ∨ x = 1 := by
    intro c x hx
    obtain ⟨v, hv, rfl⟩ := List.mem_map.1 hx
    exact (hbin v hv c).1
  have hmodel : ∀ c : Check, ∀ x ∈ (group outRows m).map c.modelValue, x = 0 ∨ x = 1 := by
    intro c x hx
    obtain ⟨v, hv, rfl⟩ := List.mem_map.1 hx
    exact (hbin v hv c).2
  simp only [summarize, bind_eq_ok] at h
  obtain ⟨a, ha, a', ha', r, hr, r', hr', i, hi, i', hi', h⟩ := h
  have hauth := pyMax_eq_iff (hpy .auth) (hmodel .auth) ha ha'
  have hreplay := pyMax_eq_iff (hpy .replay) (hmodel .replay) hr hr'
  have hinjection := pyMax_eq_iff (hpy .injection) (hmodel .injection) hi hi'
  cases hd : dictGet ds m with
  | none =>
    rw [hd] at h
    cases h
  | some d =>
    rw [hd] at h
    cases h
    refine ⟨rfl, ?_⟩
    simp only [Bool.and_eq_true, decide_eq_true_eq, hauth, hreplay, hinjection]
    constructor
    · rintro ⟨⟨hauth, hreplay⟩, hinjection⟩ c
      cases c
      exacts [hauth, hreplay, hinjection]
    · exact fun hall => ⟨⟨hall .auth, hall .replay⟩, hall .injection⟩

theorem summarize_ok {ds : List (Int × String)} {outRows : List Verdict} {m : Int}
    (hne : group outRows m ≠ []) (hbin : BinaryVerdicts (group outRows m))
    (hname : (dictGet ds m).isSome) : ∃ line, summarize ds outRows m = .ok line := by
  have hmax : ∀ f : Verdict → Int, (∀ v ∈ group outRows m, f v = 0 ∨ f v = 1) →
      ∃ x, pyMax ((group outRows m).map f) = .ok x := by
    intro f hf
    refine ⟨_, pyMax_of_binary (by simpa using hne) fun x hx => ?_⟩
    obtain ⟨v, hv, rfl⟩ := List.mem_map.1 hx
    exact hf v hv
  obtain ⟨a, ha⟩ := hmax Verdict.pyAuth fun v hv => (hbin v hv .auth).1
  obtain ⟨a', ha'⟩ := hmax Verdict.modelAuth fun v hv => (hbin v hv .auth).2
  obtain ⟨r, hr⟩ := hmax Verdict.pyReplay fun v hv => (hbin v hv .replay).1
  obtain ⟨r', hr'⟩ := hmax Verdict.modelReplay fun v hv => (hbin v hv .replay).2
  obtain ⟨i, hi⟩ := hmax Verdict.pyInjection fun v hv => (hbin v hv .injection).1
  obtain ⟨i', hi'⟩ := hmax Verdict.modelInjection fun v hv => (hbin v hv .injection).2
  obtain ⟨d, hd⟩ := Option.isSome_iff_exists.1 hname
  unfold group at ha ha' hr hr' hi hi'
  rw [summarize, ha, ha', hr, hr', hi, hi', hd]
  exact ⟨_, rfl⟩

theorem mem_summaries {ds : List (Int × String)} {outRows : List Verdict} {modes : List Int}
    (h : ∀ m ∈ modes, ∃ line, summarize ds outRows m = .ok line) {line : Summary} :
    line ∈ (summaries ds outRows modes).1 ↔ ∃ m ∈ modes, summarize ds outRows m = .ok line := by
  induction modes with
  | nil => simp [summaries]
  | cons m modes ih =>
    obtain ⟨hm, hmodes⟩ := List.forall_mem_cons.1 h
    obtain ⟨line', hline⟩ := hm
    simp only [summaries, hline, List.mem_cons, ih hmodes, or_and_right, exists_or, exists_eq_left,
      Except.ok.injEq]
    exact or_congr_left eq_comm

/-! ## The verdicts of a mode's rows -/

/-- The verifier's verdict on a row is 1 when its rule raises it, else 0. -/
theorem pyValue_step (c : Check) (earlier : List Reading) (r : Reading) :
    (c.pyValue (judge.step (judge.run {} earlier) r).2 = 1 ↔ c.python earlier r) ∧
      (c.pyValue (judge.step (judge.run {} earlier) r).2 = 0 ∨
        c.pyValue (judge.step (judge.run {} earlier) r).2 = 1) := by
  cases c with
  | auth =>
    simp only [Check.pyValue, Check.python, judge, Reading.verdict]
    split <;> simp_all
  | replay =>
    refine ⟨pyReplay_eq_one earlier r, ?_⟩
    simp only [Check.pyValue, judge, Reading.verdict]
    split <;> simp
  | injection =>
    simp only [Check.pyValue, Check.python, judge, Reading.verdict]
    split <;> simp_all

theorem modelValue_step (c : Check) (replay : ReplayProtection) (r : Reading) :
    c.modelValue (judge.step replay r).2 = c.column r := by
  cases c <;> rfl

section
variable {rs : List Reading}

theorem mem_judge_log {v : Verdict} : v ∈ (judge.log {} rs).map Prod.snd ↔
    ∃ earlier r later, rs = earlier ++ r :: later ∧
      v = (judge.step (judge.run {} earlier) r).2 := by
  rw [List.mem_map]
  constructor
  · rintro ⟨⟨r, v⟩, he, rfl⟩
    obtain ⟨earlier, later, hrs, hv⟩ := judge.mem_log.1 he
    exact ⟨earlier, r, later, hrs, hv⟩
  · rintro ⟨earlier, r, later, hrs, rfl⟩
    exact ⟨_, judge.mem_log.2 ⟨earlier, later, hrs, rfl⟩, rfl⟩

theorem binaryVerdicts_log (hbin : ∀ r ∈ rs, r.Binary) :
    BinaryVerdicts ((judge.log {} rs).map Prod.snd) := by
  intro v hv c
  obtain ⟨earlier, r, later, rfl, rfl⟩ := mem_judge_log.1 hv
  rw [modelValue_step]
  exact ⟨(pyValue_step c earlier r).2, hbin r (by simp) c⟩

theorem raisedByPython_iff (c : Check) :
    1 ∈ ((judge.log {} rs).map Prod.snd).map c.pyValue ↔ RaisedByPython rs c := by
  rw [List.mem_map]
  constructor
  · rintro ⟨v, hv, hone⟩
    obtain ⟨earlier, r, later, hrs, rfl⟩ := mem_judge_log.1 hv
    exact ⟨earlier, r, later, hrs, (pyValue_step c earlier r).1.1 hone⟩
  · rintro ⟨earlier, r, later, hrs, hraised⟩
    exact ⟨_, mem_judge_log.2 ⟨earlier, r, later, hrs, rfl⟩, (pyValue_step c earlier r).1.2 hraised⟩

theorem raisedByModel_iff (c : Check) :
    1 ∈ ((judge.log {} rs).map Prod.snd).map c.modelValue ↔ RaisedByModel rs c := by
  rw [List.mem_map]
  constructor
  · rintro ⟨v, hv, hone⟩
    obtain ⟨earlier, r, later, rfl, rfl⟩ := mem_judge_log.1 hv
    rw [modelValue_step] at hone
    exact ⟨r, by simp, hone⟩
  · rintro ⟨r, hr, hone⟩
    obtain ⟨earlier, later, rfl⟩ := List.append_of_mem hr
    refine ⟨_, mem_judge_log.2 ⟨earlier, r, later, rfl, rfl⟩, ?_⟩
    rw [modelValue_step, hone]

theorem sameRows_iff (hbin : ∀ r ∈ rs, r.Binary) (c : Check) :
    (∀ v ∈ (judge.log {} rs).map Prod.snd, c.pyValue v = c.modelValue v) ↔ SameRows rs c := by
  have hrow : ∀ earlier r later, rs = earlier ++ r :: later →
      (c.pyValue (judge.step (judge.run {} earlier) r).2 =
        c.modelValue (judge.step (judge.run {} earlier) r).2 ↔
          (c.python earlier r ↔ c.column r = 1)) := by
    rintro earlier r later rfl
    obtain ⟨hone, hpy⟩ := pyValue_step c earlier r
    have hcolumn := hbin r (by simp) c
    rw [modelValue_step, ← hone]
    omega
  constructor
  · intro h earlier r later hrs
    exact (hrow earlier r later hrs).1 (h _ (mem_judge_log.2 ⟨earlier, r, later, hrs, rfl⟩))
  · intro h v hv
    obtain ⟨earlier, r, later, hrs, rfl⟩ := mem_judge_log.1 hv
    exact (hrow earlier r later hrs).2 (h earlier r later hrs)

end

/-! ## The table of a run -/

theorem mem_of_mapM_read {rows : List FrameRow} {rs : List Reading}
    (h : rows.mapM FrameRow.read = .ok rs) : ∀ r ∈ rs, ∃ row ∈ rows, row.read = .ok r :=
  exists_mem_of_forall₂ (List.Forall₂.flip (mapM_eq_ok.1 h))

theorem mem_report {ds : List (Int × String)} {rows : List FrameRow} {rs : List Reading}
    (hrs : rows.mapM FrameRow.read = .ok rs)
    (hline : ∀ m ∈ rs.map Reading.mode, ∃ line, summarize ds (verdicts rs) m = .ok line)
    {line : Summary} : line ∈ (verifyWith ds rows).report ↔
      ∃ m ∈ rs.map Reading.mode, summarize ds (verdicts rs) m = .ok line := by
  have hmodes : ∀ m, m ∈ ((modesAfter [] rs).map Prod.fst).insertionSort (· ≤ ·) ↔
      m ∈ rs.map Reading.mode := by
    intro m
    rw [List.mem_insertionSort, mem_keys_modesAfter]
    simp
  rw [verifyWith, verifyRows_eq, hrs]
  cases rs with
  | nil => simp
  | cons r rs =>
    show line ∈ (summaries ds (verdicts (r :: rs)) _).1 ↔ _
    rw [mem_summaries fun m hm => hline m ((hmodes m).1 hm)]
    simp only [hmodes]

section
variable {ds : List (Int × String)} {rows : List FrameRow} {rs : List Reading}
  (hrs : rows.mapM FrameRow.read = .ok rs) (hknown : ∀ row ∈ rows, row.Known ds)
include hrs hknown

theorem group_verdicts (m : Int) : group (verdicts rs) m =
    (judge.log {} (rs.filter fun r => r.mode = m)).map Prod.snd ∧
      (∀ r ∈ rs.filter (fun r => r.mode = m), r.Binary) ∧
      BinaryVerdicts (group (verdicts rs) m) := by
  have hgroup : group (verdicts rs) m = _ := filter_verdicts rs m
  have hbin : ∀ r ∈ rs.filter (fun r => r.mode = m), r.Binary := by
    intro r hr
    obtain ⟨row, hrow, hread⟩ := mem_of_mapM_read hrs r (List.mem_filter.1 hr).1
    exact (hknown row hrow r hread).2
  exact ⟨hgroup, hbin, hgroup ▸ binaryVerdicts_log hbin⟩

theorem summarize_verdicts {m : Int} (hm : m ∈ rs.map Reading.mode) :
    ∃ line, summarize ds (verdicts rs) m = .ok line := by
  obtain ⟨hgroup, -, hbin⟩ := group_verdicts hrs hknown m
  obtain ⟨r, hr, rfl⟩ := List.mem_map.1 hm
  obtain ⟨row, hrow, hread⟩ := mem_of_mapM_read hrs r hr
  refine summarize_ok ?_ hbin (hknown row hrow r hread).1
  have hmem : r ∈ rs.filter fun r' => r'.mode = r.mode := List.mem_filter.2 ⟨hr, by simp⟩
  intro hnil
  rw [hgroup, List.map_eq_nil_iff] at hnil
  have hempty := judge.map_fst_log {} (rs.filter fun r' => r'.mode = r.mode)
  rw [hnil, List.map_nil] at hempty
  rw [← hempty] at hmem
  exact List.not_mem_nil hmem

theorem agree_verdicts {m : Int} {line : Summary} (h : summarize ds (verdicts rs) m = .ok line) :
    line.mode = m ∧ (line.agree = true ↔ ∀ c, RaisedByPython (rs.filter fun r => r.mode = m) c ↔
      RaisedByModel (rs.filter fun r => r.mode = m) c) := by
  obtain ⟨hgroup, -, hbin⟩ := group_verdicts hrs hknown m
  have hagree := agree_iff hbin h
  simp only [hgroup, raisedByPython_iff, raisedByModel_iff] at hagree
  exact hagree

theorem sameRows_verdicts (m : Int) :
    (∀ v ∈ verdicts rs, v.mode = m → v.pyAuth = v.modelAuth ∧ v.pyReplay = v.modelReplay ∧
      v.pyInjection = v.modelInjection) ↔ ∀ c, SameRows (rs.filter fun r => r.mode = m) c := by
  obtain ⟨hgroup, hbin, -⟩ := group_verdicts hrs hknown m
  have hmem : ∀ v, v ∈ group (verdicts rs) m ↔ v ∈ verdicts rs ∧ v.mode = m := by
    intro v
    rw [group, List.mem_filter, decide_eq_true_eq]
  simp only [← sameRows_iff hbin, ← hgroup, hmem]
  constructor
  · intro h c v ⟨hv, hm⟩
    obtain ⟨hauth, hreplay, hinjection⟩ := h v hv hm
    cases c
    exacts [hauth, hreplay, hinjection]
  · exact fun h v hv hm => ⟨h .auth v ⟨hv, hm⟩, h .replay v ⟨hv, hm⟩, h .injection v ⟨hv, hm⟩⟩

theorem agreementExact_iff_readings : AgreementExact (verifyWith ds rows) ↔
    ∀ m, NoneHidden (rs.filter fun r => r.mode = m) := by
  have hreport : ∀ line, line ∈ (verifyWith ds rows).report ↔ _ := fun line =>
    mem_report hrs (fun m hm => summarize_verdicts hrs hknown hm)
  simp only [AgreementExact, hreport, outRows_verifyWith ds hrs]
  constructor
  · intro h m
    by_cases hm : m ∈ rs.map Reading.mode
    · obtain ⟨line, hline⟩ := summarize_verdicts hrs hknown hm
      obtain ⟨rfl, hagree⟩ := agree_verdicts hrs hknown hline
      by_cases hyes : line.agree = true
      · exact .inl ((sameRows_verdicts hrs hknown _).1 (h line ⟨_, hm, hline⟩ hyes))
      · rw [hagree, not_forall] at hyes
        obtain ⟨c, hc⟩ := hyes
        exact .inr ⟨c, by tauto⟩
    · have hnil : rs.filter (fun r => r.mode = m) = [] := by
        rw [List.filter_eq_nil_iff]
        intro r hr hmode
        exact hm (List.mem_map.2 ⟨r, hr, by simpa using hmode⟩)
      rw [hnil]
      exact .inl fun c earlier r later h => by simp at h
  · rintro h line ⟨m, -, hline⟩ hyes
    obtain ⟨rfl, hagree⟩ := agree_verdicts hrs hknown hline
    rcases h line.mode with hsame | ⟨c, hc⟩
    · exact (sameRows_verdicts hrs hknown _).2 hsame
    · have hboth := hagree.1 hyes c
      tauto

end

theorem agreementExact_iff {ds : List (Int × String)} {rows : List FrameRow}
    (hknown : ∀ row ∈ rows, row.Known ds) :
    AgreementExact (verifyWith ds rows) ↔ ∀ rs, rows.mapM FrameRow.read = .ok rs → ∀ m,
      NoneHidden (rs.filter fun r => r.mode = m) := by
  cases hread : rows.mapM FrameRow.read with
  | error e =>
    rw [verifyWith_error ds hread]
    simp [AgreementExact]
  | ok rs =>
    rw [agreementExact_iff_readings hread hknown]
    constructor
    · rintro h _ ⟨⟩
      exact h
    · exact fun h => h rs rfl

/-- **When a YES of the table means equal verdicts on every row.** -/
theorem agreement_exact_iff (frames extra : List FrameRow)
    (hknown : ∀ row ∈ frames ++ extra, row.Known descriptions) :
    (AgreementExact (verifyAll frames extra) ↔
      ∀ rs, (frames ++ extra).mapM FrameRow.read = .ok rs → ∀ m,
        NoneHidden (rs.filter fun r => r.mode = m)) ∧
    ((∀ row ∈ frames, row.Known frameDescriptions) → (AgreementExact (verifyFrames frames) ↔
      ∀ rs, frames.mapM FrameRow.read = .ok rs → ∀ m,
        NoneHidden (rs.filter fun r => r.mode = m))) :=
  ⟨agreementExact_iff hknown, fun hframes => agreementExact_iff hframes⟩

theorem known_of_read {ds : List (Int × String)} {rows : List FrameRow} {rs : List Reading}
    (hrs : rows.mapM FrameRow.read = .ok rs)
    (h : ∀ r ∈ rs, (dictGet ds r.mode).isSome ∧ r.Binary) : ∀ row ∈ rows, row.Known ds := by
  intro row hrow r hr
  obtain ⟨r', hmem, hr'⟩ := exists_mem_of_forall₂ (mapM_eq_ok.1 hrs) row hrow
  obtain rfl : r = r' := Except.ok.inj (hr.symm.trans hr')
  exact h r hmem

instance (r : Reading) : Decidable r.Binary :=
  decidable_of_iff ((r.modelAuth = 0 ∨ r.modelAuth = 1) ∧ (r.modelReplay = 0 ∨ r.modelReplay = 1) ∧
      (r.modelInjection = 0 ∨ r.modelInjection = 1))
    ⟨fun ⟨hauth, hreplay, hinjection⟩ c => by cases c <;> assumption,
      fun h => ⟨h .auth, h .replay, h .injection⟩⟩

/-- The first rows of mode 1 in `simulink/frames.csv`: the counter stays at 5. -/
def replayRows : List FrameRow := [
  .ofBits 0x3FF0000000000000 0 0x4093480000000000 0x4094D80000000000 0x4014000000000000
    0x404999999999999A 0x3FF0000000000000 0 0 0,
  .ofBits 0x3FF0000000000000 0x3FF0000000000000 0x4093480000000000 0x4094D80000000000
    0x4014000000000000 0x404999999999999A 0x3FF0000000000000 0x3FF0000000000000 0 0,
  .ofBits 0x3FF0000000000000 0x4000000000000000 0x4093480000000000 0x4094D80000000000
    0x4014000000000000 0x404999999999999A 0x3FF0000000000000 0x3FF0000000000000 0 0]

def replayReadings : List Reading := [
  ⟨1, .ofBits 0, 1234, 1334, 5, .ofBits 0x404999999999999A, 1, 0, 0, .ofBits 0⟩,
  ⟨1, .ofBits 0x3FF0000000000000, 1234, 1334, 5, .ofBits 0x404999999999999A, 1, 1, 0, .ofBits 0⟩,
  ⟨1, .ofBits 0x4000000000000000, 1234, 1334, 5, .ofBits 0x404999999999999A, 1, 1, 0, .ofBits 0⟩]

theorem replayRows_read :
    (replayRows ++ hijackRows).mapM FrameRow.read = .ok (replayReadings ++ hijackReadings) := by
  decide +kernel

/-- The line of mode 1 says YES, that of mode 9 says NO. -/
theorem agreement_exact_replay :
    (verifyAll replayRows hijackRows).report.map (fun line => (line.mode, line.agree)) =
        [(1, true), (9, false)] ∧
      AgreementExact (verifyAll replayRows hijackRows) := by
  have hknown : ∀ row ∈ replayRows ++ hijackRows, row.Known descriptions :=
    known_of_read replayRows_read (by decide)
  refine ⟨by decide +kernel, ?_⟩
  refine (agreement_exact_iff replayRows hijackRows hknown).1.2 fun rs hrs m => ?_
  rw [replayRows_read, Except.ok.injEq] at hrs
  subst hrs
  by_cases hm : m = 9
  · subst hm
    -- the model authenticates both rows, the verifier neither
    have hmodel : RaisedByModel ((replayReadings ++ hijackReadings).filter fun r => r.mode = 9)
        .auth := by
      unfold RaisedByModel
      decide
    refine .inr ⟨.auth, .inr ⟨hmodel, ?_⟩⟩
    rintro ⟨earlier, r, later, hrs, hsignature⟩
    have hmem : r ∈ earlier ++ r :: later := by simp
    have hnone : ∀ r ∈ (replayReadings ++ hijackReadings).filter (fun r => r.mode = 9),
        r.signature ≠ r.nonce + signatureBias := by
      decide
    rw [← hrs] at hmem
    exact hnone r hmem hsignature
  · by_cases hm' : m = 1
    · subst hm'
      refine .inl fun c => (sameRows_iff (by decide) c).1 ?_
      cases c with
      | auth => decide +kernel
      | replay => decide +kernel
      | injection => decide +kernel
    · refine .inl fun c earlier r later h => ?_
      simp [replayReadings, hijackReadings, Ne.symm hm, Ne.symm hm'] at h

/-- Two rows of mode 0: on the first only the verifier finds the signature right, on the second only
the model does. -/
def crossedRows : List FrameRow := [
  .ofBits 0 0 0 0x4059000000000000 0x3FF0000000000000 0 0 0 0 0,
  .ofBits 0 0x3FF0000000000000 0 0 0x4000000000000000 0 0x3FF0000000000000 0 0 0]

/-- The table says YES of them. -/
theorem not_agreementExact : (∀ row ∈ crossedRows, row.Known frameDescriptions) ∧
    ¬ AgreementExact (verifyFrames crossedRows) := by
  have hread : crossedRows.mapM FrameRow.read = .ok [
      ⟨0, .ofBits 0, 0, 100, 1, .ofBits 0, 0, 0, 0, .ofBits 0⟩,
      ⟨0, .ofBits 0x3FF0000000000000, 0, 0, 2, .ofBits 0, 1, 0, 0, .ofBits 0⟩] := by
    decide +kernel
  refine ⟨known_of_read hread (by decide), fun hexact => ?_⟩
  have hrun : verifyFrames crossedRows = {
      outRows := [
        ⟨0, .ofBits 0, 1, 0, 0, 1, 0, 0, 0, .ofBits 0⟩,
        ⟨0, .ofBits 0x3FF0000000000000, 0, 0, 0, 0, 1, 0, 0, .ofBits 0⟩]
      report := [⟨0, "No attack (baseline)", 1, 1, 0, 0, 0, 0, true⟩] } := by
    decide +kernel
  rw [hrun] at hexact
  have hauth := (hexact _ List.mem_cons_self rfl _ List.mem_cons_self rfl).1
  revert hauth
  decide

end BattLock
