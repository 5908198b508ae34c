import BattLock.Can.Status
import BattLock.Crypto.Counters
import Mathlib.Data.List.Sort

/-!
# The frame verifier

`integration/verify_frames.py`: every row of a table of recorded frames is judged by the replay
state of its attack mode, and for each mode the verdicts are compared with those of the Simulink
model in the same row. Reading the table and writing the results are left out: a row is what
`float` makes of its cells, a run is the verdict rows and the lines of the agreement table, up to
the exception that ends it.
-/

namespace BattLock

open Python

/-- What `float(row[key])` gives or raises, for each column the verifier reads. -/
structure FrameRow where
  mode : Except Err PyFloat
  time : Except Err PyFloat
  nonce : Except Err PyFloat
  signature : Except Err PyFloat
  counter : Except Err PyFloat
  voltage : Except Err PyFloat
  modelAuth : Except Err PyFloat
  modelReplay : Except Err PyFloat
  modelInjection : Except Err PyFloat
  modelSoc : Except Err PyFloat
deriving DecidableEq

/-- `int(x)`: the number without its fraction. -/
def pyInt (x : PyFloat) : Except Err Int :=
  match x.val with
  | .nan => .error (.valueError "cannot convert float NaN to integer")
  | .inf _ => .error .overflowError
  | .finite q => .ok (q.num.tdiv q.den)

/-- `max(xs)`. -/
def pyMax : List Int → Except Err Int
  | [] => .error (.valueError "max() arg is an empty sequence")
  | x :: xs => .ok (xs.foldl max x)

/-- A row of the verdict file. -/
structure Verdict where
  mode : Int
  time : PyFloat
  pySignatureOk : Int
  pyReplay : Int
  pyInjection : Int
  pyAuth : Int
  modelAuth : Int
  modelReplay : Int
  modelInjection : Int
  modelSoc : PyFloat
deriving DecidableEq

/-- A line of the agreement table. -/
structure Summary where
  mode : Int
  description : String
  pyAuth : Int
  modelAuth : Int
  pyReplay : Int
  modelReplay : Int
  pyInjection : Int
  modelInjection : Int
  agree : Bool
deriving DecidableEq

/-- What a run writes, and the exception that ends it. -/
structure Verification where
  outRows : List Verdict := []
  report : List Summary := []
  raised : Option Err := none
deriving DecidableEq

def signatureBias : Int := 100

def voltageThreshold : ℚ := 100

/-- One row: the replay state of its mode is made on first use, and its 0 is turned into -1 before
every row. -/
def verifyRow (modeResults : List (Int × ReplayProtection)) (row : FrameRow) :
    Except Err (List (Int × ReplayProtection) × Verdict) := do
  let mode ← pyInt (← row.mode)
  let replay := (dictGet modeResults mode).getD {}
  let replay := if replay.lastCounter = 0 then { lastCounter := -1 } else replay
  let nonce ← pyInt (← row.nonce)
  let signature ← pyInt (← row.signature)
  let counter ← pyInt (← row.counter)
  let voltage ← row.voltage
  let expected := nonce + signatureBias
  let sigOk := decide (signature = expected)
  let (replay, replayOk) := replay.validate counter
  let injection := voltage.val.gt voltageThreshold
  let pyAuth := if sigOk then 1 else 0
  let time ← row.time
  let modelAuth ← pyInt (← row.modelAuth)
  let modelReplay ← pyInt (← row.modelReplay)
  let modelInjection ← pyInt (← row.modelInjection)
  let modelSoc ← row.modelSoc
  return (setItem modeResults mode replay, {
    mode, time
    pySignatureOk := if sigOk then 1 else 0
    pyReplay := if replayOk then 0 else 1
    pyInjection := if injection then 1 else 0
    pyAuth, modelAuth, modelReplay, modelInjection, modelSoc })

/-- The row loop. -/
def verifyRows (modeResults : List (Int × ReplayProtection)) :
    List FrameRow → Except Err (List (Int × ReplayProtection) × List Verdict)
  | [] => .ok (modeResults, [])
  | row :: rows => do
    let (modeResults, verdict) ← verifyRow modeResults row
    let (modeResults, outRows) ← verifyRows modeResults rows
    return (modeResults, verdict :: outRows)

/-- The line of a mode: the largest of each verdict over the mode's rows. -/
def summarize (descriptions : List (Int × String)) (outRows : List Verdict) (mode : Int) :
    Except Err Summary := do
  let group := outRows.filter (·.mode = mode)
  let pyAuth ← pyMax (group.map (·.pyAuth))
  let modelAuth ← pyMax (group.map (·.modelAuth))
  let pyReplay ← pyMax (group.map (·.pyReplay))
  let modelReplay ← pyMax (group.map (·.modelReplay))
  let pyInjection ← pyMax (group.map (·.pyInjection))
  let modelInjection ← pyMax (group.map (·.modelInjection))
  let agree := decide (pyAuth = modelAuth) && decide (pyReplay = modelReplay) &&
    decide (pyInjection = modelInjection)
  match dictGet descriptions mode with
  | some description =>
    return { mode, description, pyAuth, modelAuth, pyReplay, modelReplay, pyInjection,
             modelInjection, agree }
  | none => .error .keyError

/-- The lines written for a list of modes, and the exception that ends them. -/
def summaries (descriptions : List (Int × String)) (outRows : List Verdict) :
    List Int → List Summary × Option Err
  | [] => ([], none)
  | mode :: modes =>
    match summarize descriptions outRows mode with
    | .error e => ([], some e)
    | .ok summary =>
      let (lines, raised) := summaries descriptions outRows modes
      (summary :: lines, raised)

/-- The verification of a list of rows, with the names of the modes. -/
def verifyWith (descriptions : List (Int × String)) (rows : List FrameRow) : Verification :=
  match verifyRows [] rows with
  | .error e => { raised := some e }
  -- the field names of the verdict file are those of its first row
  | .ok (_, []) => { raised := some .indexError }
  | .ok (modeResults, outRows) =>
    let (report, raised) :=
      summaries descriptions outRows ((modeResults.map Prod.fst).insertionSort (· ≤ ·))
    { outRows, report, raised }

/-- The modes `verify_frames` knows. -/
def frameDescriptions : List (Int × String) := [
  (0, "No attack (baseline)"),
  (1, "Replay attack"),
  (2, "Signature spoofing"),
  (3, "Voltage injection"),
  (4, "Signature dropping"),
  (5, "Spoof + voltage injection")]

def verifyFrames (rows : List FrameRow) : Verification := verifyWith frameDescriptions rows

end BattLock
