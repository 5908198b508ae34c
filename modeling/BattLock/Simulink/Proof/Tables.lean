import BattLock.Simulink.Proof.Agreement

/-!
# One table for all modes

A run that ends without an exception has read every row and written one line for each mode of its
rows, in increasing order (`verifyWith_eq_iff`). So `verifyAll` on two files writes what
`verifyFrames` writes on the first, followed by what it writes itself on the second alone, exactly
when every mode of the first file is below every mode of the second (`all_splits_iff`).
-/

namespace BattLock

open Python

/-! ## The modes of a run -/

/-- The modes of the rows, sorted. -/
def modesOf (rs : List Reading) : List Int :=
  ((modesAfter [] rs).map Prod.fst).insertionSort (· ≤ ·)

theorem mem_modesOf {rs : List Reading} {m : Int} : m ∈ modesOf rs ↔ m ∈ rs.map Reading.mode := by
  rw [modesOf, List.mem_insertionSort, mem_keys_modesAfter, List.map_nil]
  exact or_iff_right List.not_mem_nil

theorem nodup_keys_modesAfter (rs : List Reading) :
    ∀ modeResults, (modeResults.map Prod.fst).Nodup →
      ((modesAfter modeResults rs).map Prod.fst).Nodup := by
  induction rs with
  | nil => exact fun _ h => h
  | cons r rs ih => exact fun _ h => ih _ (nodup_keys_setItem h _ _)

theorem modesOf_increasing (rs : List Reading) : (modesOf rs).Pairwise (· < ·) := by
  have hsorted : (modesOf rs).Pairwise (· ≤ ·) := List.pairwise_insertionSort _ _
  have hnodup : (modesOf rs).Nodup :=
    (List.perm_insertionSort _ _).nodup_iff.2 (nodup_keys_modesAfter rs [] List.nodup_nil)
  exact (hsorted.and hnodup).imp fun ⟨hle, hne⟩ => Int.lt_iff_le_and_ne.2 ⟨hle, hne⟩

theorem modesOf_append {rs rs' : List Reading}
    (h : ∀ m ∈ modesOf rs, ∀ m' ∈ modesOf rs', m < m') :
    modesOf (rs ++ rs') = modesOf rs ++ modesOf rs' := by
  refine (modesOf_increasing _).eq_of_mem_iff
    (List.pairwise_append.2 ⟨modesOf_increasing rs, modesOf_increasing rs', h⟩) fun m => ?_
  rw [List.mem_append, mem_modesOf, mem_modesOf, mem_modesOf, List.map_append, List.mem_append]

theorem mode_mem_verdicts {rs : List Reading} {m : Int} :
    (∃ v ∈ verdicts rs, v.mode = m) ↔ m ∈ modesOf rs := by
  have hlog : rs.map Reading.mode =
      (verifier.log (fun _ => {}) rs).map fun e => e.1.mode := by
    rw [← verifier.map_fst_log (fun _ => {}) rs, List.map_map, verifier.map_fst_log]
    rfl
  rw [mem_modesOf, hlog, List.mem_map]
  constructor
  · rintro ⟨v, hv, rfl⟩
    obtain ⟨e, he, rfl⟩ := List.mem_map.1 hv
    exact ⟨e, he, (mode_of_mem_log he).2.symm⟩
  · rintro ⟨e, he, rfl⟩
    exact ⟨e.2, List.mem_map_of_mem he, (mode_of_mem_log he).2⟩

/-! ## The lines of a run -/

section
variable {ds : List (Int × String)} {outRows : List Verdict}

theorem summarize_inv {m : Int} {line : Summary} (h : summarize ds outRows m = .ok line) :
    line.mode = m ∧ dictGet ds m = some line.description := by
  simp only [summarize, bind_eq_ok] at h
  obtain ⟨_, -, _, -, _, -, _, -, _, -, _, -, h⟩ := h
  cases hd : dictGet ds m with
  | none =>
    rw [hd] at h
    cases h
  | some d =>
    rw [hd] at h
    cases h
    exact ⟨rfl, rfl⟩

/-- A line depends on the rows of its mode and the mode's name. -/
theorem summarize_congr {ds' : List (Int × String)} {outRows' : List Verdict} {m : Int}
    (hgroup : group outRows m = group outRows' m) (hname : dictGet ds m = dictGet ds' m) :
    summarize ds outRows m = summarize ds' outRows' m := by
  unfold group at hgroup
  rw [summarize, summarize, hgroup, hname]

theorem summaries_eq_iff {modes : List Int} {lines : List Summary} :
    summaries ds outRows modes = (lines, none) ↔
      List.Forall₂ (fun m line => summarize ds outRows m = .ok line) modes lines := by
  induction modes generalizing lines with
  | nil => simp [summaries, eq_comm]
  | cons m modes ih =>
    rw [summaries, List.forall₂_cons_left_iff]
    cases hm : summarize ds outRows m with
    | error e => simp
    | ok line =>
      simp only [Prod.mk.injEq, Except.ok.injEq]
      constructor
      · rintro ⟨rfl, hnone⟩
        exact ⟨line, _, rfl, ih.1 (Prod.ext rfl hnone), rfl⟩
      · rintro ⟨_, rest, rfl, hrest, rfl⟩
        rw [ih.2 hrest]
        exact ⟨rfl, rfl⟩

theorem map_mode_of_forall₂ {modes : List Int} {lines : List Summary}
    (h : List.Forall₂ (fun m line => summarize ds outRows m = .ok line) modes lines) :
    lines.map Summary.mode = modes := by
  induction h with
  | nil => rfl
  | cons hline _ ih => rw [List.map_cons, (summarize_inv hline).1, ih]

end

/-- **A run without an exception.** -/
theorem verifyWith_eq_iff {ds : List (Int × String)} {rows : List FrameRow}
    {outRows : List Verdict} {report : List Summary} :
    verifyWith ds rows = { outRows, report } ↔
      ∃ rs, rows.mapM FrameRow.read = .ok rs ∧ rs ≠ [] ∧ verdicts rs = outRows ∧
        List.Forall₂ (fun m line => summarize ds (verdicts rs) m = .ok line) (modesOf rs)
          report := by
  rw [verifyWith, verifyRows_eq]
  cases rows.mapM FrameRow.read with
  | error e => simp
  | ok rs =>
    cases rs with
    | nil => simp
    | cons r rs =>
      simp only [ok_bind, pure_eq_ok, Except.ok.injEq, exists_eq_left', ne_eq, reduceCtorEq,
        not_false_eq_true, true_and]
      show ({ outRows := verdicts (r :: rs),
              report := (summaries ds (verdicts (r :: rs)) (modesOf (r :: rs))).1,
              raised := (summaries ds (verdicts (r :: rs)) (modesOf (r :: rs))).2 } :
          Verification) = _ ↔ _
      rw [Verification.mk.injEq, ← Prod.mk.injEq, Prod.mk.eta]
      constructor
      · rintro ⟨rfl, hlines⟩
        exact ⟨rfl, summaries_eq_iff.1 hlines⟩
      · rintro ⟨rfl, hlines⟩
        exact ⟨rfl, summaries_eq_iff.2 hlines⟩

/-! ## Two files -/

theorem verdicts_append {rs rs' : List Reading} (h : ∀ r ∈ rs', r.mode ∉ rs.map Reading.mode) :
    verdicts (rs ++ rs') = verdicts rs ++ verdicts rs' := by
  rw [verdicts, verifier, judge.log_keyed_append _ _ h, List.map_append]
  rfl

theorem group_append_left {vs vs' : List Verdict} {m : Int} (h : ∀ v ∈ vs', v.mode ≠ m) :
    group (vs ++ vs') m = group vs m := by
  have hnone : group vs' m = [] := List.filter_eq_nil_iff.2 fun v hv => by simpa using h v hv
  rw [group, List.filter_append, ← group, ← group, hnone, List.append_nil]

theorem group_append_right {vs vs' : List Verdict} {m : Int} (h : ∀ v ∈ vs, v.mode ≠ m) :
    group (vs ++ vs') m = group vs' m := by
  have hnone : group vs m = [] := List.filter_eq_nil_iff.2 fun v hv => by simpa using h v hv
  rw [group, List.filter_append, ← group, ← group, hnone, List.nil_append]

theorem name_of_frame {m : Int} {d : String} (h : dictGet frameDescriptions m = some d) :
    dictGet descriptions m = some d := by
  have hprefix : frameDescriptions <+: descriptions := ⟨descriptions.drop 6, rfl⟩
  exact hprefix.lookup_eq_some h

theorem summarize_of_frame {outRows : List Verdict} {m : Int} {line : Summary}
    (h : summarize frameDescriptions outRows m = .ok line) :
    summarize descriptions outRows m = .ok line := by
  have hname := (summarize_inv h).2
  rw [← h, summarize_congr rfl ((name_of_frame hname).trans hname.symm)]

section
variable {frames extra : List FrameRow} {rs rs' : List Reading} {report report' : List Summary}

/-- The lines of two files whose modes do not overlap. -/
theorem lines_append (hlt : ∀ m ∈ modesOf rs, ∀ m' ∈ modesOf rs', m < m')
    (hlines : List.Forall₂ (fun m line => summarize frameDescriptions (verdicts rs) m = .ok line)
      (modesOf rs) report)
    (hlines' : List.Forall₂ (fun m line => summarize descriptions (verdicts rs') m = .ok line)
      (modesOf rs') report') :
    List.Forall₂
      (fun m line => summarize descriptions (verdicts rs ++ verdicts rs') m = .ok line)
      (modesOf rs ++ modesOf rs') (report ++ report') := by
  have hother : ∀ m ∈ modesOf rs, ∀ v ∈ verdicts rs', v.mode ≠ m := by
    intro m hm v hv
    exact Int.ne_of_gt (hlt m hm v.mode (mode_mem_verdicts.1 ⟨v, hv, rfl⟩))
  have hother' : ∀ m ∈ modesOf rs', ∀ v ∈ verdicts rs, v.mode ≠ m := by
    intro m hm v hv
    exact Int.ne_of_lt (hlt v.mode (mode_mem_verdicts.1 ⟨v, hv, rfl⟩) m hm)
  refine List.rel_append ?_ ?_
  · refine ((List.forall₂_and_left _ _).2 ⟨hother, hlines⟩).imp fun m line ⟨hm, hline⟩ => ?_
    rw [summarize_congr (group_append_left hm) rfl]
    exact summarize_of_frame hline
  · refine ((List.forall₂_and_left _ _).2 ⟨hother', hlines'⟩).imp fun m line ⟨hm, hline⟩ => ?_
    rw [summarize_congr (group_append_right hm) rfl]
    exact hline

/-- Two runs without an exception, and the run on both files. -/
theorem splits_iff {outRows outRows' : List Verdict}
    (hframes : verifyFrames frames = { outRows, report })
    (hextra : verifyAll [] extra = { outRows := outRows', report := report' }) :
    verifyAll frames extra =
        { outRows := outRows ++ outRows', report := report ++ report' } ↔
      ∀ v ∈ outRows, ∀ v' ∈ outRows', v.mode < v'.mode := by
  obtain ⟨rs, hrs, hne, rfl, hlines⟩ := verifyWith_eq_iff.1 hframes
  obtain ⟨rs', hrs', -, rfl, hlines'⟩ := verifyWith_eq_iff.1 hextra
  have hread : (frames ++ extra).mapM FrameRow.read = .ok (rs ++ rs') := by
    rw [List.mapM_append, hrs, ← List.nil_append extra, hrs']
    rfl
  rw [verifyAll, verifyWith_eq_iff]
  constructor
  · rintro ⟨_, hread', -, -, hall⟩ v hv v' hv'
    obtain rfl := Except.ok.inj (hread.symm.trans hread')
    have hmodes := map_mode_of_forall₂ hall
    rw [List.map_append, map_mode_of_forall₂ hlines, map_mode_of_forall₂ hlines'] at hmodes
    have hincreasing := modesOf_increasing (rs ++ rs')
    rw [← hmodes, List.pairwise_append] at hincreasing
    exact hincreasing.2.2 _ (mode_mem_verdicts.1 ⟨v, hv, rfl⟩) _
      (mode_mem_verdicts.1 ⟨v', hv', rfl⟩)
  · intro h
    have hlt : ∀ m ∈ modesOf rs, ∀ m' ∈ modesOf rs', m < m' := by
      intro m hm m' hm'
      obtain ⟨v, hv, rfl⟩ := mode_mem_verdicts.2 hm
      obtain ⟨v', hv', rfl⟩ := mode_mem_verdicts.2 hm'
      exact h v hv v' hv'
    have hapart : ∀ r ∈ rs', r.mode ∉ rs.map Reading.mode := fun r hr hmem =>
      Int.lt_irrefl _ (hlt _ (mem_modesOf.2 hmem) _ (mem_modesOf.2 (List.mem_map_of_mem hr)))
    refine ⟨_, hread, by simp [hne], verdicts_append hapart, ?_⟩
    rw [modesOf_append hlt, verdicts_append hapart]
    exact lines_append hlt hlines hlines'

end

theorem eq_of_raised {run : Verification} (h : run.raised = none) :
    run = { outRows := run.outRows, report := run.report } := by
  obtain ⟨outRows, report, raised⟩ := run
  obtain rfl : raised = none := h
  rfl

/-- **When the table of both files is the two tables one after the other**: what `verifyFrames`
writes of the first file, then what `verifyAll` writes of the second alone. -/
theorem all_splits_iff (frames extra : List FrameRow)
    (hframes : (verifyFrames frames).raised = none) (hextra : (verifyAll [] extra).raised = none) :
    verifyAll frames extra = {
        outRows := (verifyFrames frames).outRows ++ (verifyAll [] extra).outRows
        report := (verifyFrames frames).report ++ (verifyAll [] extra).report } ↔
      ∀ v ∈ (verifyFrames frames).outRows, ∀ v' ∈ (verifyAll [] extra).outRows,
        v.mode < v'.mode :=
  splits_iff (eq_of_raised hframes) (eq_of_raised hextra)

/-- A row of the baseline and the two rows of mode 9. -/
theorem all_splits_hijack :
    verifyAll [.ofBits 0 0 0 0x4059000000000000 0x3FF0000000000000 0 0x3FF0000000000000 0 0 0]
        hijackRows =
      ⟨[⟨0, .ofBits 0, 1, 0, 0, 1, 1, 0, 0, .ofBits 0⟩,
        ⟨9, .ofBits 0, 0, 0, 0, 0, 1, 0, 0, .ofBits 0x4055400000000000⟩,
        ⟨9, .ofBits 0x3FB999999999999A, 0, 0, 0, 0, 1, 1, 0, .ofBits 0⟩],
       [⟨0, "No attack (baseline)", 1, 1, 0, 0, 0, 0, true⟩,
        ⟨9, "Session hijacking", 0, 1, 0, 1, 0, 0, false⟩], none⟩ := by
  refine ((all_splits_iff _ hijackRows ?_ ?_).2 ?_).trans ?_
  all_goals decide +kernel

end BattLock
