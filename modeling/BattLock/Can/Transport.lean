import BattLock.Can.Message
import Mathlib.Data.List.Sort
import Mathlib.Data.List.Dedup

/-!
# The transport layer

`can/transport.py`: `fragment` splits a payload into frames of at most eight bytes, `reassemble`
validates a set of frames and rebuilds the payload, `CANBus` is the in-memory FIFO bus of the
simulation.
-/

namespace BattLock.Transport

open Python

/-- Payload bytes carried by the first frame. -/
def firstFramePayload : Nat := 5

/-- Payload bytes carried by each continuation frame. -/
def contFramePayload : Nat := 7

/-- The sequence number is a single byte. -/
def maxSequence : Nat := 255

def maxPayload : Nat := firstFramePayload + maxSequence * contFramePayload

/-! ## Fragmentation -/

/-- The continuation frames: the loop of `fragment` from `offset` and `seq` on. -/
def fragmentLoop (arbitrationId : Int) (payload : Bytes) (offset seq : Nat) :
    Except Err (List CANMessage) :=
  if offset < payload.length then do
    let chunk := slice payload offset (offset + contFramePayload)
    let head ← bytesOf [seq]
    let frames ← fragmentLoop arbitrationId payload (offset + contFramePayload) (seq + 1)
    return ⟨arbitrationId, head ++ chunk⟩ :: frames
  else return []
termination_by payload.length - offset
decreasing_by simp only [contFramePayload]; omega

/-- Split a payload into frames that share an arbitration id. -/
def fragment (arbitrationId : Int) (payload : Bytes) : Except Err (List CANMessage) :=
  let totalLen := payload.length
  if totalLen > maxPayload then
    .error (.valueError (s!"payload of {totalLen} bytes exceeds max {maxPayload} " ++
      "for this fragmentation scheme"))
  else do
    let header ← bytesOf [0, totalLen &&& 0xFF, (totalLen >>> 8) &&& 0xFF]
    let firstChunk := slice payload 0 firstFramePayload
    let frames ← fragmentLoop arbitrationId payload firstFramePayload 1
    return ⟨arbitrationId, header ++ firstChunk⟩ :: frames

/-! ## Reassembly -/

/-- The checks made on each frame, in the order of the list. -/
def checkFrames (arbId : Int) : List CANMessage → Except Err Unit
  | [] => .ok ()
  | f :: fs =>
    if f.arbitrationId ≠ arbId then
      .error (.valueError ("frames have inconsistent arbitration_id: " ++
        s!"{f.arbitrationId} vs {arbId}"))
    else if f.data.length = 0 then .error (.valueError "frame has empty data (no sequence byte)")
    else if f.data.length > 8 then
      .error (.valueError s!"frame exceeds 8-byte Classic CAN limit: {f.data.length} bytes")
    else checkFrames arbId fs

/-- Every frame with its sort key, `f.data[0]`. -/
def sortKeys : List CANMessage → Except Err (List (UInt8 × CANMessage))
  | [] => .ok []
  | f :: fs => do
    let key ← item f.data 0
    let keyed ← sortKeys fs
    return (key, f) :: keyed

/-- The payload of frames in sequence order: the length header of the first, then the data of
all of them. -/
def joinFrames : List CANMessage → Except Err Bytes
  | [] => .error .indexError
  | first :: rest =>
    if first.data.length < 3 then
      .error (.valueError "first frame too short to contain length header")
    else do
      let lo ← item first.data 1
      let hi ← item first.data 2
      let totalLen := lo.toNat ||| hi.toNat <<< 8
      let payload := rest.foldl (fun payload frame => payload ++ frame.data.drop 1)
        (first.data.drop 3)
      if payload.length < totalLen then
        .error (.valueError (s!"incomplete message: got {payload.length} bytes, " ++
          s!"expected {totalLen}"))
      else return payload.take totalLen

/-- Rebuild the payload from its frames, in any order. -/
def reassemble (frames : List CANMessage) : Except Err Bytes :=
  match frames with
  | [] => .error (.valueError "reassemble() received no frames")
  | f :: _ => do
    checkFrames f.arbitrationId frames
    let keyed ← sortKeys frames
    -- Python's `sorted` is stable, as is the insertion sort
    let ordered := keyed.insertionSort (fun a b => a.1 ≤ b.1)
    let sequences := ordered.map (·.1.toNat)
    let expected := List.range ordered.length
    if sequences ≠ expected then
      if sequences.dedup.length ≠ sequences.length then
        .error (.valueError s!"duplicate sequence number(s): {sequences}")
      else
        .error (.valueError ("missing or non-contiguous sequence number(s): " ++
          s!"got {sequences}, expected {expected}"))
    else joinFrames (ordered.map (·.2))

/-! ## The bus -/

structure CANBus where
  queue : List CANMessage := []

def CANBus.send (bus : CANBus) (message : CANMessage) : CANBus :=
  { bus with queue := bus.queue ++ [message] }

/-- The oldest frame, or `None` from an empty bus. -/
def CANBus.receive (bus : CANBus) : CANBus × Option CANMessage :=
  match bus.queue with
  | [] => (bus, none)
  | message :: queue => ({ bus with queue }, some message)

end BattLock.Transport
