import BattLock.Hardware.Protocol
import BattLock.Lib.Python

/-!
# What both sketches share

`hardware/battery.ino` and `hardware/vehicle.ino` repeat `can_send` and `send_payload`, word for
word. The CAN controller may refuse a frame: `accept` says what it answers in one call of
`loop()`, in which no frame is handed over twice. What a call of `loop()` does is recorded as a
list of events.
-/

namespace BattLock.Hardware

open CArray Python

/-! ## Frames -/

/-- A frame as `readMsgBuf` delivers it: the identifier, the number of data bytes and the data,
zero-extended to eight bytes. -/
structure CanFrame where
  id : UInt32
  len : UInt8
  data : Vector UInt8 8
deriving DecidableEq

/-- The frame `can_send(id, data, len)` puts on the bus. -/
def CanFrame.ofBytes (id : UInt32) (data : Bytes) : CanFrame :=
  ⟨id, .ofNat data.length, zeroExtend 8 data⟩

/-- `payload[k]`, or the padding behind the payload. -/
def payloadByte (payload : Bytes) (len : UInt16) (k : Nat) : UInt8 :=
  if k < len.toNat then payload.getD k 0 else 0

/-- Fragment 0: its first byte, the total length, five data bytes. -/
def headFrame (id : UInt32) (head : UInt8) (payload : Bytes) (len : UInt16) : CanFrame where
  id
  len := canDataLen
  data := #v[head, (len &&& 0xFF).toUInt8, ((len >>> 8) &&& 0xFF).toUInt8,
    payloadByte payload len 0, payloadByte payload len 1, payloadByte payload len 2,
    payloadByte payload len 3, payloadByte payload len 4]

/-- A later fragment: its first byte and seven data bytes from an offset on. -/
def dataFrame (id : UInt32) (head : UInt8) (payload : Bytes) (len : UInt16) (off : Nat) :
    CanFrame where
  id
  len := canDataLen
  data := #v[head, payloadByte payload len off, payloadByte payload len (off + 1),
    payloadByte payload len (off + 2), payloadByte payload len (off + 3),
    payloadByte payload len (off + 4), payloadByte payload len (off + 5),
    payloadByte payload len (off + 6)]

/-! ## `send_payload` -/

/-- The loop over the later fragments with `n` of them left: the frames taken by the controller,
and whether it took them all. -/
def sendRest (accept : CanFrame → Bool) (id : UInt32) (payload : Bytes) (len chunks : UInt16) :
    Nat → UInt16 → UInt16 → List CanFrame × Bool
  | 0, _, _ => ([], true)
  | n + 1, i, off =>
    let last := i = chunks - 1
    let head := ((if last then fragLastFlag.toUInt16 else 0) ||| i).toUInt8
    let frame := dataFrame id head payload len off.toNat
    if accept frame then
      let (sent, ok) :=
        sendRest accept id payload len chunks n (i + 1) (off + fragDataBytes.toUInt16)
      (frame :: sent, ok)
    else ([], false)

def sendPayload (accept : CanFrame → Bool) (id : UInt32) (payload : Bytes) (len : UInt16) :
    List CanFrame × Bool :=
  let chunks := battlockFragmentCount len
  if chunks = 1 then
    let frame := headFrame id fragLastFlag payload len
    if accept frame then ([frame], true) else ([], false)
  else
    let frame := headFrame id 0 payload len
    if accept frame then
      -- `for (i = 1; i < chunks; i++)`
      let (sent, ok) := sendRest accept id payload len chunks (chunks - 1).toNat 1
        fragFirstData.toUInt16
      (frame :: sent, ok)
    else ([], false)

/-! ## Events -/

/-- A `memcpy`: the sizes of its destination and its source, and the number of bytes. -/
structure MemCopy where
  dst : Nat
  src : Nat
  count : Nat
deriving DecidableEq

def MemCopy.InBounds (c : MemCopy) : Prop := c.count ≤ c.dst ∧ c.count ≤ c.src

/-- What `handle_status_b` prints. -/
inductive Report
  | injection
  | replay
  | valid (counter : UInt32)
deriving DecidableEq

inductive Event
  | sent (frame : CanFrame)
  | assigned (state : BattLockState)
  | copied (copy : MemCopy)
  /-- `verify_certificate` of what is in `cert_raw`. -/
  | certificateCheck (certRaw : Vector UInt8 battlockCertLen) (cert : BattLockCert)
      (accepted : Bool)
  | signatureCheck (message : Vector UInt8 32) (signature : Vector UInt8 64)
      (publicKey : Vector UInt8 65) (accepted : Bool)
  | report (r : Report)
deriving DecidableEq

/-- `can_send` of a single frame whose result is not looked at. -/
def canSend (accept : CanFrame → Bool) (frame : CanFrame) : List Event :=
  if accept frame then [.sent frame] else []

namespace Event

/-- The values assigned to `state`, in order. -/
def states (events : List Event) : List BattLockState :=
  events.filterMap fun
    | assigned s => some s
    | _ => none

/-- The frames put on the bus. -/
def frames (events : List Event) : List CanFrame :=
  events.filterMap fun
    | sent f => some f
    | _ => none

def copies (events : List Event) : List MemCopy :=
  events.filterMap fun
    | copied c => some c
    | _ => none

/-- The certificates `verify_certificate` was called with. -/
def checked (events : List Event) : List BattLockCert :=
  events.filterMap fun
    | certificateCheck _ cert _ => some cert
    | _ => none

@[simp] theorem states_append (l₁ l₂ : List Event) : states (l₁ ++ l₂) = states l₁ ++ states l₂ :=
  List.filterMap_append
@[simp] theorem frames_append (l₁ l₂ : List Event) : frames (l₁ ++ l₂) = frames l₁ ++ frames l₂ :=
  List.filterMap_append
@[simp] theorem copies_append (l₁ l₂ : List Event) : copies (l₁ ++ l₂) = copies l₁ ++ copies l₂ :=
  List.filterMap_append
@[simp] theorem checked_append (l₁ l₂ : List Event) :
    checked (l₁ ++ l₂) = checked l₁ ++ checked l₂ := List.filterMap_append

@[simp] theorem states_map_sent (fs : List CanFrame) : states (fs.map .sent) = [] := by
  simp [states]
@[simp] theorem frames_map_sent (fs : List CanFrame) : frames (fs.map .sent) = fs := by
  simp [frames]

theorem canSend_eq (accept : CanFrame → Bool) (frame : CanFrame) :
    canSend accept frame = (if accept frame then [frame] else []).map sent := by
  unfold canSend
  split
  · rfl
  · rfl

@[simp] theorem states_canSend (accept : CanFrame → Bool) (frame : CanFrame) :
    states (canSend accept frame) = [] := by
  rw [canSend_eq, states_map_sent]

end Event

end BattLock.Hardware
