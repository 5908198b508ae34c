import BattLock.Lib.Mealy
import BattLock.Simulink.VerifyAllModes

/-!
# The verdicts of the frame verifiers

The row loop reads a row (`FrameRow.read`) and judges it with the replay state of its mode
(`judge`), so a run is that of `judge` with a state for each mode (`verifyRows_eq`) and the verdicts
of a mode are those of its rows alone (`verdicts_of_mode`). Within a mode a row is flagged as a
replay when its counter is negative or not above an earlier positive one (`pyReplay_eq_one`): a
counter of 0 leaves no trace, as the state's 0 is turned back into -1 before the next row. The
accepted counters are increasing exactly if no second 0 comes before the mode's first positive
counter (`accepted_increasing_iff`).
-/

namespace BattLock

open Python

/-- The numbers of a row. -/
structure Reading where
  mode : Int
  time : PyFloat
  nonce : Int
  signature : Int
  counter : Int
  voltage : PyFloat
  modelAuth : Int
  modelReplay : Int
  modelInjection : Int
  modelSoc : PyFloat
deriving DecidableEq

namespace FrameRow

/-- The cells of a row in the order the loop reads them. -/
def read (row : FrameRow) : Except Err Reading := do
  let mode ← pyInt (← row.mode)
  let nonce ← pyInt (← row.nonce)
  let signature ← pyInt (← row.signature)
  let counter ← pyInt (← row.counter)
  let voltage ← row.voltage
  let time ← row.time
  let modelAuth ← pyInt (← row.modelAuth)
  let modelReplay ← pyInt (← row.modelReplay)
  let modelInjection ← pyInt (← row.modelInjection)
  let modelSoc ← row.modelSoc
  return { mode, time, nonce, signature, counter, voltage, modelAuth, modelReplay,
           modelInjection, modelSoc }

/-- Every cell of the row is a number, and finite where an integer is made of it. -/
def Readable (row : FrameRow) : Prop := ∃ r, row.read = .ok r

/-- The row's mode is `m`. -/
def hasMode (m : Int) (row : FrameRow) : Bool :=
  match row.mode >>= pyInt with
  | .ok n => decide (n = m)
  | .error _ => false

theorem hasMode_eq {row : FrameRow} {r : Reading} (h : row.read = .ok r) (m : Int) :
    row.hasMode m = decide (r.mode = m) := by
  simp only [read, bind_eq_ok, pure_eq_ok, Except.ok.injEq] at h
  obtain ⟨x, hx, mode, hmode, h⟩ := h
  have hm : r.mode = mode := by grind
  rw [hasMode, hx, ok_bind, hmode, hm]

end FrameRow

/-! ## The judgement of a row -/

/-- The replay state as a row finds it. -/
def ReplayProtection.patched (self : ReplayProtection) : ReplayProtection :=
  if self.lastCounter = 0 then { lastCounter := -1 } else self

/-- The verdict row of a reading. -/
def Reading.verdict (r : Reading) (replayOk : Bool) : Verdict where
  mode := r.mode
  time := r.time
  pySignatureOk := if r.signature = r.nonce + signatureBias then 1 else 0
  pyReplay := if replayOk then 0 else 1
  pyInjection := if r.voltage.val.gt voltageThreshold then 1 else 0
  pyAuth := if r.signature = r.nonce + signatureBias then 1 else 0
  modelAuth := r.modelAuth
  modelReplay := r.modelReplay
  modelInjection := r.modelInjection
  modelSoc := r.modelSoc

/-- The verifier of one mode. -/
def judge : Mealy ReplayProtection Reading Verdict where
  step replay r :=
    let (replay, replayOk) := replay.patched.validate r.counter
    (replay, r.verdict replayOk)

/-- The state of a mode: a fresh one before its first row. -/
def stateOf (modeResults : List (Int × ReplayProtection)) (mode : Int) : ReplayProtection :=
  (dictGet modeResults mode).getD {}

theorem verifyRow_eq (modeResults : List (Int × ReplayProtection)) (row : FrameRow) :
    verifyRow modeResults row = (do
      let r ← row.read
      let answer := judge.step (stateOf modeResults r.mode) r
      return (setItem modeResults r.mode answer.1, answer.2)) := by
  simp only [verifyRow, FrameRow.read, bind_assoc, pure_bind, decide_eq_true_eq]
  rfl

theorem stateOf_setItem (modeResults : List (Int × ReplayProtection)) (mode : Int)
    (replay : ReplayProtection) :
    stateOf (setItem modeResults mode replay) =
      Function.update (stateOf modeResults) mode replay := by
  funext m
  by_cases hm : m = mode
  · subst hm
    simp [stateOf, dictGet_setItem]
  · simp [stateOf, dictGet_setItem_of_ne _ _ hm, Function.update_of_ne hm]

/-- The verifier of all modes: a state for each. -/
def verifier : Mealy (Int → ReplayProtection) Reading Verdict := judge.keyed Reading.mode

/-- The dictionary after the rows. -/
def modesAfter (modeResults : List (Int × ReplayProtection)) :
    List Reading → List (Int × ReplayProtection)
  | [] => modeResults
  | r :: rs =>
    modesAfter (setItem modeResults r.mode (judge.step (stateOf modeResults r.mode) r).1) rs

/-- **The row loop**: it reads the rows and runs the verifier of all modes on them. -/
theorem verifyRows_eq (modeResults : List (Int × ReplayProtection)) (rows : List FrameRow) :
    verifyRows modeResults rows = (do
      let rs ← rows.mapM FrameRow.read
      return (modesAfter modeResults rs,
        (verifier.log (stateOf modeResults) rs).map Prod.snd)) := by
  induction rows generalizing modeResults with
  | nil => rfl
  | cons row rows ih =>
    rw [verifyRows, verifyRow_eq, List.mapM_cons]
    cases row.read with
    | error e => rfl
    | ok r =>
      simp only [ok_bind, pure_eq_ok]
      rw [ih]
      cases rows.mapM FrameRow.read with
      | error e => rfl
      | ok rs =>
        simp only [ok_bind, pure_eq_ok, stateOf_setItem]
        rfl

theorem mem_keys_modesAfter (rs : List Reading) (m : Int) :
    ∀ modeResults, m ∈ (modesAfter modeResults rs).map Prod.fst ↔
      m ∈ modeResults.map Prod.fst ∨ m ∈ rs.map Reading.mode := by
  induction rs with
  | nil => simp [modesAfter]
  | cons r rs ih =>
    intro modeResults
    rw [modesAfter, ih, mem_keys_setItem, List.map_cons, List.mem_cons]
    tauto

/-- The verdicts on a list of readings. -/
def verdicts (rs : List Reading) : List Verdict :=
  (verifier.log (fun _ => {}) rs).map Prod.snd

theorem outRows_verifyWith (ds : List (Int × String)) {rows : List FrameRow} {rs : List Reading}
    (h : rows.mapM FrameRow.read = .ok rs) : (verifyWith ds rows).outRows = verdicts rs := by
  rw [verifyWith, verifyRows_eq, h]
  cases rs <;> rfl

/-- A row that cannot be read ends the run before anything is written. -/
theorem verifyWith_error (ds : List (Int × String)) {rows : List FrameRow} {e : Err}
    (h : rows.mapM FrameRow.read = .error e) : verifyWith ds rows = { raised := some e } := by
  rw [verifyWith, verifyRows_eq, h]
  rfl

theorem mapM_read_filter {rows : List FrameRow} {rs : List Reading} (m : Int)
    (h : rows.mapM FrameRow.read = .ok rs) :
    (rows.filter (·.hasMode m)).mapM FrameRow.read = .ok (rs.filter fun r => r.mode = m) := by
  refine mapM_eq_ok.2 (List.rel_filter (fun row r hr => ?_) (mapM_eq_ok.1 h))
  show row.hasMode m = true ↔ decide (r.mode = m) = true
  rw [FrameRow.hasMode_eq hr]

/-! ## The verdicts of a mode -/

theorem mode_of_mem_log {rs : List Reading} {e : Reading × Verdict}
    (he : e ∈ verifier.log (fun _ => {}) rs) : e.1 ∈ rs ∧ e.2.mode = e.1.mode := by
  obtain ⟨r, v⟩ := e
  obtain ⟨rs₁, rs₂, rfl, rfl⟩ := verifier.mem_log.1 he
  exact ⟨List.mem_append_right _ List.mem_cons_self, rfl⟩

/-- The verdicts of a mode are those of its rows alone. -/
theorem filter_verdicts (rs : List Reading) (m : Int) :
    (verdicts rs).filter (·.mode = m) =
      (judge.log {} (rs.filter fun r => r.mode = m)).map Prod.snd := by
  rw [verdicts, List.filter_map,
    ← judge.filter_log_keyed Reading.mode (fun _ => ({} : ReplayProtection)) rs m]
  refine congrArg (List.map Prod.snd) (List.filter_congr fun e he => ?_)
  rw [Function.comp_apply, (mode_of_mem_log he).2]

theorem verdicts_filter (rs : List Reading) (m : Int) :
    verdicts (rs.filter fun r => r.mode = m) =
      (judge.log {} (rs.filter fun r => r.mode = m)).map Prod.snd := by
  have hmode : ∀ v ∈ verdicts (rs.filter fun r => r.mode = m), decide (v.mode = m) = true := by
    intro v hv
    obtain ⟨e, he, rfl⟩ := List.mem_map.1 hv
    obtain ⟨hmem, heq⟩ := mode_of_mem_log he
    rw [heq]
    exact (List.mem_filter.1 hmem).2
  rw [← List.filter_eq_self.2 hmode, filter_verdicts, List.filter_filter]
  simp only [Bool.and_self]

/-- **The verifiers agree, mode by mode**: what `verifyAll` writes for a mode is what
`verifyFrames` writes on the rows of that mode, whatever lies between them. A row that cannot be
read ends the run with nothing written. -/
theorem verdicts_of_mode (frames extra : List FrameRow) (m : Int) :
    ((∀ row ∈ frames ++ extra, row.Readable) →
      (verifyAll frames extra).outRows.filter (·.mode = m) =
        (verifyFrames ((frames ++ extra).filter (·.hasMode m))).outRows) ∧
    (¬ (∀ row ∈ frames ++ extra, row.Readable) →
      ∃ e, verifyAll frames extra = { raised := some e }) := by
  constructor
  · intro hread
    obtain ⟨rs, hrs⟩ := exists_mapM_eq_ok.2 hread
    rw [verifyAll, outRows_verifyWith _ hrs, verifyFrames,
      outRows_verifyWith _ (mapM_read_filter m hrs), filter_verdicts, verdicts_filter]
  · intro hread
    cases h : (frames ++ extra).mapM FrameRow.read with
    | error e => exact ⟨e, verifyWith_error _ h⟩
    | ok rs => exact absurd (exists_mapM_eq_ok.1 ⟨rs, h⟩) hread

/-- A row by the bit patterns of its numbers. -/
def FrameRow.ofBits (mode time nonce signature counter voltage modelAuth modelReplay modelInjection
    modelSoc : Nat) : FrameRow where
  mode := .ok (.ofBits mode)
  time := .ok (.ofBits time)
  nonce := .ok (.ofBits nonce)
  signature := .ok (.ofBits signature)
  counter := .ok (.ofBits counter)
  voltage := .ok (.ofBits voltage)
  modelAuth := .ok (.ofBits modelAuth)
  modelReplay := .ok (.ofBits modelReplay)
  modelInjection := .ok (.ofBits modelInjection)
  modelSoc := .ok (.ofBits modelSoc)

/-- The two rows of mode 9 in `simulink/frames_extra.csv`, both with counter 0. -/
def hijackRows : List FrameRow := [
  .ofBits 0x4022000000000000 0 0 0 0 0 0x3FF0000000000000 0 0 0x4055400000000000,
  .ofBits 0x4022000000000000 0x3FB999999999999A 0 0 0 0 0x3FF0000000000000 0x3FF0000000000000 0 0]

def hijackReadings : List Reading := [
  ⟨9, .ofBits 0, 0, 0, 0, .ofBits 0, 1, 0, 0, .ofBits 0x4055400000000000⟩,
  ⟨9, .ofBits 0x3FB999999999999A, 0, 0, 0, .ofBits 0, 1, 1, 0, .ofBits 0⟩]

theorem hijackRows_read : hijackRows.mapM FrameRow.read = .ok hijackReadings := by
  decide +kernel

theorem verdicts_of_mode_hijack :
    (verifyAll (hijackRows.take 1)
        (.ofBits 0 0 0 0 0 0 0 0 0 0 :: hijackRows.drop 1)).outRows.filter (·.mode = 9) =
      (verifyFrames hijackRows).outRows := by
  have hread : ∀ row ∈ hijackRows.take 1 ++ .ofBits 0 0 0 0 0 0 0 0 0 0 :: hijackRows.drop 1,
      row.Readable := by
    have hhijack := exists_mapM_eq_ok.1 ⟨_, hijackRows_read⟩
    have hzero : (FrameRow.ofBits 0 0 0 0 0 0 0 0 0 0).Readable :=
      ⟨⟨0, .ofBits 0, 0, 0, 0, .ofBits 0, 0, 0, 0, .ofBits 0⟩, by decide +kernel⟩
    intro row hrow
    rcases List.mem_append.1 hrow with hrow | hrow
    · exact hhijack row (List.mem_of_mem_take hrow)
    · rcases List.mem_cons.1 hrow with rfl | hrow
      · exact hzero
      · exact hhijack row (List.mem_of_mem_drop hrow)
  have hfilter : (hijackRows.take 1 ++ .ofBits 0 0 0 0 0 0 0 0 0 0 :: hijackRows.drop 1).filter
      (·.hasMode 9) = hijackRows := by
    decide +kernel
  rw [(verdicts_of_mode _ _ 9).1 hread, hfilter]

/-! ## Replays -/

/-- A counter that is not above an earlier positive one of its mode, or is negative. -/
def Replayed (earlier : List Int) (c : Int) : Prop := c < 0 ∨ ∃ c' ∈ earlier, 0 < c' ∧ c ≤ c'

/-- The state a row finds: the largest positive counter so far, or -1 if there is none. -/
def Threshold (earlier : List Int) (last : Int) : Prop :=
  (last = -1 ∧ ∀ c ∈ earlier, c ≤ 0) ∨ (0 < last ∧ last ∈ earlier ∧ ∀ c ∈ earlier, c ≤ last)

theorem Threshold.le_iff {earlier : List Int} {last : Int} (h : Threshold earlier last) (c : Int) :
    c ≤ last ↔ Replayed earlier c := by
  unfold Replayed
  rcases h with ⟨rfl, hnone⟩ | ⟨hpos, hmem, hmax⟩
  · constructor
    · intro hc
      exact .inl (by omega)
    · rintro (hc | ⟨c', hc', hpos, -⟩)
      · omega
      · exact absurd (hnone c' hc') (by omega)
  · constructor
    · intro hc
      exact .inr ⟨last, hmem, hpos, hc⟩
    · rintro (hc | ⟨c', hc', -, hle⟩)
      · omega
      · exact Int.le_trans hle (hmax c' hc')

namespace ReplayProtection

theorem patched_patched (self : ReplayProtection) : self.patched.patched = self.patched := by
  unfold patched
  split <;> simp_all

theorem patched_of_pos {self : ReplayProtection} (h : 0 < self.lastCounter) :
    self.patched = self := by
  rw [patched, if_neg (Int.ne_of_gt h)]

theorem le_patched {last c : Int} (h : -1 ≤ last) (hc : last < c) :
    last ≤ (patched ⟨c⟩).lastCounter := by
  unfold patched
  split
  · show last ≤ -1
    simp_all
    omega
  · exact Int.le_of_lt hc

end ReplayProtection

theorem Threshold.concat {earlier : List Int} {replay : ReplayProtection} {c : Int}
    (h : Threshold earlier replay.patched.lastCounter) :
    Threshold (earlier ++ [c]) (replay.patched.validate c).1.patched.lastCounter := by
  unfold ReplayProtection.validate
  by_cases hc : c ≤ replay.patched.lastCounter
  · rw [if_pos hc, ReplayProtection.patched_patched]
    simp only [Threshold, List.forall_mem_append, List.forall_mem_singleton]
    rcases h with ⟨hlast, hnone⟩ | ⟨hpos, hmem, hmax⟩
    · exact .inl ⟨hlast, hnone, by omega⟩
    · exact .inr ⟨hpos, List.mem_append_left _ hmem, hmax, hc⟩
  · rw [if_neg hc]
    simp only [Threshold, List.forall_mem_append, List.forall_mem_singleton]
    by_cases h0 : c = 0
    · subst h0
      rcases h with ⟨-, hnone⟩ | ⟨hpos, -⟩
      · exact .inl ⟨rfl, hnone, Int.le_refl 0⟩
      · omega
    · have hlast : (ReplayProtection.patched ⟨c⟩).lastCounter = c := by
        rw [ReplayProtection.patched, if_neg h0]
      rw [hlast]
      rcases h with ⟨hlast, hnone⟩ | ⟨hpos, -, hmax⟩
      · exact .inr ⟨by omega, List.mem_concat_self,
          fun c' hc' => Int.le_trans (hnone c' hc') (by omega), Int.le_refl c⟩
      · exact .inr ⟨by omega, List.mem_concat_self,
          fun c' hc' => Int.le_trans (hmax c' hc') (by omega), Int.le_refl c⟩

theorem threshold_run (rs : List Reading) :
    Threshold (rs.map Reading.counter) (judge.run {} rs).patched.lastCounter := by
  induction rs using List.reverseRecOn with
  | nil => exact .inl ⟨rfl, by simp⟩
  | append_singleton rs r ih =>
    rw [judge.run_append, List.map_append]
    exact ih.concat

/-- **The replay verdict** of a row after the earlier rows of its mode. -/
theorem pyReplay_eq_one (earlier : List Reading) (r : Reading) :
    (judge.step (judge.run {} earlier) r).2.pyReplay = 1 ↔
      Replayed (earlier.map Reading.counter) r.counter := by
  rw [← (threshold_run earlier).le_iff]
  simp only [judge, Reading.verdict, ReplayProtection.validate]
  split <;> simp_all

/-- The counters accepted by the verifier of one mode. -/
def accepted (replay : ReplayProtection) (rs : List Reading) : List Int :=
  ((judge.log replay rs).filter fun e => e.2.pyReplay = 0).map fun e => e.1.counter

theorem accepted_cons (replay : ReplayProtection) (r : Reading) (rs : List Reading) :
    accepted replay (r :: rs) =
      if r.counter ≤ replay.patched.lastCounter then accepted replay.patched rs
      else r.counter :: accepted ⟨r.counter⟩ rs := by
  simp only [accepted, Mealy.log_cons, List.filter_cons]
  simp only [judge, Reading.verdict, ReplayProtection.validate]
  split <;> simp

theorem lt_of_mem_accepted {replay : ReplayProtection} {rs : List Reading}
    (h : -1 ≤ replay.patched.lastCounter) :
    ∀ c ∈ accepted replay rs, replay.patched.lastCounter < c := by
  induction rs generalizing replay with
  | nil => simp [accepted]
  | cons r rs ih =>
    rw [accepted_cons]
    split
    · have hrest : ∀ c ∈ accepted replay.patched rs, replay.patched.patched.lastCounter < c :=
        ih (by rwa [ReplayProtection.patched_patched])
      rwa [ReplayProtection.patched_patched] at hrest
    · rename_i hc
      have hle := ReplayProtection.le_patched h (Int.not_le.1 hc)
      rw [List.forall_mem_cons]
      exact ⟨Int.not_le.1 hc, fun c hmem => Int.lt_of_le_of_lt hle (ih (Int.le_trans h hle) c hmem)⟩

theorem lt_of_mem_accepted_of_pos {c : Int} (hc : 0 < c) {rs : List Reading} :
    ∀ c' ∈ accepted ⟨c⟩ rs, c < c' := by
  have hpatched : ReplayProtection.patched ⟨c⟩ = ⟨c⟩ := ReplayProtection.patched_of_pos hc
  have hlow : -1 ≤ (ReplayProtection.patched ⟨c⟩).lastCounter := by
    rw [hpatched]
    exact Int.le_trans (by decide) (Int.le_of_lt hc)
  have h : ∀ c' ∈ accepted ⟨c⟩ rs, _ < c' := lt_of_mem_accepted hlow
  rwa [hpatched] at h

theorem accepted_pairwise_of_pos {replay : ReplayProtection} (h : 0 < replay.lastCounter)
    (rs : List Reading) : (accepted replay rs).Pairwise (· < ·) := by
  induction rs generalizing replay with
  | nil => exact List.Pairwise.nil
  | cons r rs ih =>
    rw [accepted_cons, ReplayProtection.patched_of_pos h]
    split
    · exact ih h
    · rename_i hc
      have hpos : 0 < r.counter := by omega
      exact List.pairwise_cons.2 ⟨lt_of_mem_accepted_of_pos hpos, ih hpos⟩

/-- The counters before the first positive one. -/
def beforePositive (rs : List Reading) : List Int :=
  (rs.map Reading.counter).takeWhile (· ≤ 0)

theorem beforePositive_cons (r : Reading) (rs : List Reading) :
    beforePositive (r :: rs) = if r.counter ≤ 0 then r.counter :: beforePositive rs else [] := by
  rw [beforePositive, List.map_cons, List.takeWhile_cons]
  simp [beforePositive]

section
variable {replay : ReplayProtection} (h : replay.patched.lastCounter = -1)
include h

/-- The first step from a state without an accepted positive counter. -/
theorem accepted_cons_of_none (r : Reading) (rs : List Reading) :
    (r.counter < 0 ∧ accepted replay (r :: rs) = accepted replay.patched rs) ∨
    (r.counter = 0 ∧ accepted replay (r :: rs) = 0 :: accepted ⟨0⟩ rs) ∨
    (0 < r.counter ∧ accepted replay (r :: rs) = r.counter :: accepted ⟨r.counter⟩ rs) := by
  rw [accepted_cons, h]
  rcases Int.lt_trichotomy r.counter 0 with hc | hc | hc
  · rw [if_pos (by omega)]
    exact .inl ⟨hc, rfl⟩
  · rw [if_neg (by omega), hc]
    exact .inr (.inl ⟨rfl, rfl⟩)
  · rw [if_neg (by omega)]
    exact .inr (.inr ⟨hc, rfl⟩)

theorem zero_mem_accepted_iff (rs : List Reading) :
    0 ∈ accepted replay rs ↔ 0 ∈ beforePositive rs := by
  induction rs generalizing replay with
  | nil => simp [accepted, beforePositive]
  | cons r rs ih =>
    rw [beforePositive_cons]
    rcases accepted_cons_of_none h r rs with ⟨hc, heq⟩ | ⟨hc, heq⟩ | ⟨hc, heq⟩
    · have hpatched : replay.patched.patched.lastCounter = -1 := by
        rw [ReplayProtection.patched_patched, h]
      rw [heq, ih hpatched, if_pos (by omega), List.mem_cons]
      exact (or_iff_right (by omega)).symm
    · rw [heq, hc]
      simp
    · have hnot : 0 ∉ accepted ⟨r.counter⟩ rs := fun hmem =>
        absurd (lt_of_mem_accepted_of_pos hc 0 hmem) (by omega)
      rw [heq, if_neg (by omega), List.mem_cons]
      simp only [List.not_mem_nil, iff_false, not_or]
      exact ⟨by omega, hnot⟩

/-- **Within a mode**: a second 0 before the first positive counter is what breaks the order. -/
theorem accepted_pairwise_iff (rs : List Reading) :
    (accepted replay rs).Pairwise (· < ·) ↔ (beforePositive rs).count 0 ≤ 1 := by
  induction rs generalizing replay with
  | nil => simp [accepted, beforePositive]
  | cons r rs ih =>
    rw [beforePositive_cons]
    rcases accepted_cons_of_none h r rs with ⟨hc, heq⟩ | ⟨hc, heq⟩ | ⟨hc, heq⟩
    · have hpatched : replay.patched.patched.lastCounter = -1 := by
        rw [ReplayProtection.patched_patched, h]
      rw [heq, ih hpatched, if_pos (by omega), List.count_cons_of_ne (by omega)]
    · have hzero : (ReplayProtection.patched ⟨0⟩).lastCounter = -1 := rfl
      have hpos : (∀ c ∈ accepted ⟨0⟩ rs, 0 < c) ↔ 0 ∉ beforePositive rs := by
        rw [← zero_mem_accepted_iff hzero]
        constructor
        · exact fun hall hmem => absurd (hall 0 hmem) (Int.lt_irrefl 0)
        · intro hnot c hmem
          have hge := lt_of_mem_accepted (by rw [hzero]) c hmem
          rw [hzero] at hge
          have hne : c ≠ 0 := fun h0 => hnot (h0 ▸ hmem)
          omega
      rw [heq, List.pairwise_cons, ih hzero, hpos, hc, if_pos (Int.le_refl 0),
        List.count_cons_self, ← List.count_eq_zero]
      omega
    · rw [heq, if_neg (by omega)]
      simp only [List.count_nil, Nat.zero_le, iff_true, List.pairwise_cons]
      exact ⟨lt_of_mem_accepted_of_pos hc, accepted_pairwise_of_pos hc rs⟩

end

/-! ## Accepted counters of a run -/

/-- The counters of the rows of a mode that are not flagged as replays, in the order of the
rows. -/
def acceptedCounters (rs : List Reading) (outRows : List Verdict) (m : Int) : List Int :=
  ((rs.zip outRows).filter fun e => e.2.mode = m ∧ e.2.pyReplay = 0).map fun e => e.1.counter

/-- In every mode, the accepted counters increase. -/
def CountersIncrease (rows : List FrameRow) (outRows : List Verdict) : Prop :=
  ∀ rs, rows.mapM FrameRow.read = .ok rs → ∀ m,
    (acceptedCounters rs outRows m).Pairwise (· < ·)

/-- In every mode, at most one row with counter 0 comes before the first positive counter. -/
def OneZero (rows : List FrameRow) : Prop :=
  ∀ rs, rows.mapM FrameRow.read = .ok rs → ∀ m,
    (beforePositive (rs.filter fun r => r.mode = m)).count 0 ≤ 1

theorem acceptedCounters_verdicts (rs : List Reading) (m : Int) :
    acceptedCounters rs (verdicts rs) m = accepted {} (rs.filter fun r => r.mode = m) := by
  have hzip : rs.zip (verdicts rs) = verifier.log (fun _ => {}) rs :=
    (List.zip_of_prod (verifier.map_fst_log _ rs) rfl).symm
  rw [acceptedCounters, hzip, accepted,
    ← judge.filter_log_keyed Reading.mode (fun _ => ({} : ReplayProtection)) rs m,
    List.filter_filter]
  refine congrArg (List.map _) (List.filter_congr fun e he => ?_)
  rw [(mode_of_mem_log he).2, Bool.decide_and, Bool.and_comm]

theorem countersIncrease_iff (ds : List (Int × String)) (rows : List FrameRow) :
    CountersIncrease rows (verifyWith ds rows).outRows ↔ OneZero rows := by
  refine forall_congr' fun rs => forall_congr' fun hrs => forall_congr' fun m => ?_
  rw [outRows_verifyWith ds hrs, acceptedCounters_verdicts, accepted_pairwise_iff rfl]

/-- **When the verifiers accept increasing counters only.** -/
theorem accepted_increasing_iff (frames extra : List FrameRow) :
    (CountersIncrease frames (verifyFrames frames).outRows ↔ OneZero frames) ∧
    (CountersIncrease (frames ++ extra) (verifyAll frames extra).outRows ↔
      OneZero (frames ++ extra)) :=
  ⟨countersIncrease_iff _ _, countersIncrease_iff _ _⟩

/-- The two rows of counter 0 are both accepted. -/
theorem not_countersIncrease :
    ¬ CountersIncrease ([] ++ hijackRows) (verifyAll [] hijackRows).outRows := by
  intro h
  have hzero := (countersIncrease_iff _ _).1 h _ hijackRows_read 9
  revert hzero
  decide

end BattLock
