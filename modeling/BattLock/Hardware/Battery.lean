import BattLock.Hardware.Sketch
import BattLock.Lib.Ieee
import BattLock.Lib.LittleEndian
import BattLock.Lib.Mealy

/-!
# The battery sketch

`hardware/battery.ino`: the static variables and `loop()`, one definition for each of its four
parts. The certificate programmed into the battery is a parameter.
-/

namespace BattLock.Hardware

open CArray Python Ieee

/-- The static variables. -/
structure Battery where
  state : BattLockState := .disconnected
  challengeNonce : Vector UInt8 battlockNonceLen := Vector.replicate battlockNonceLen 0
  hasChallenge : Bool := false
  counter : UInt32 := 0
  /-- `reass` of the case for nonce frames. -/
  reass : BattLockReassembly := {}
deriving DecidableEq

structure BatteryInput where
  /-- The frame `readMsgBuf` reads, if `checkReceive` reports one. -/
  frame : Option CanFrame
  accept : CanFrame → Bool
  /-- `atecc.ecdsaSign` with the battery's key: the signature, or none if it fails. -/
  ecdsaSign : Vector UInt8 battlockNonceLen → Option (Vector UInt8 battlockSigLen)

variable (batteryCert : BattLockCert)

namespace Battery

/-- `BATTERY_ID`, with the terminating zero. -/
def batteryId : Bytes := [0x42, 0x41, 0x54, 0x30, 0x30, 0x31, 0]

def canIdBatteryStatusB : UInt32 := 0x201

/-- The bytes of a `float`. -/
def floatBytes (x : Binary32) : Bytes := LittleEndian.bytes 4 x.toBits

/-- The `float` nearest to 51.2. -/
def voltage : Binary32 := .ofBits 0x424CCCCD

/-- The `float` nearest to 12.4. -/
def current : Binary32 := .ofBits 0x41466666

def statusFrameA (c : UInt32) : CanFrame :=
  .ofBytes canIdBatteryStatus [(c &&& 0xFF).toUInt8, ((c >>> 8) &&& 0xFF).toUInt8,
    ((c >>> 16) &&& 0xFF).toUInt8, ((c >>> 24) &&& 0xFF).toUInt8, 85, 98, 0, 0]

def statusFrameB : CanFrame :=
  .ofBytes canIdBatteryStatusB (floatBytes voltage ++ floatBytes current)

/-- The second frame is sent only if the first was taken. -/
def sendStatus (b : Battery) (accept : CanFrame → Bool) : Battery × List Event :=
  let frameA := statusFrameA b.counter
  ({ b with counter := b.counter + 1 },
    if accept frameA then .sent frameA :: canSend accept statusFrameB else [])

/-- 1) Advertise the identity while disconnected. -/
def advertise (b : Battery) (accept : CanFrame → Bool) : List Event :=
  if b.state = .disconnected then canSend accept (.ofBytes canIdAuthRequest batteryId) else []

/-- The certificate copied to an array of `BATTLOCK_CERT_LEN` bytes. The copy is longer than the
array: what it writes behind it does not belong to `raw`. -/
def rawCertificate : Vector UInt8 battlockCertLen :=
  copyBytes (Vector.replicate battlockCertLen 0) 0 batteryCert.bytes 0 sizeofBattLockCert

/-- The case for authentication requests: send the certificate. -/
def authRequestCase (b : Battery) (input : BatteryInput) : Battery × List Event :=
  let (sent, _) := sendPayload input.accept canIdCertificate (rawCertificate batteryCert).toList
    (.ofNat battlockCertLen)
  ({ b with state := .helloReceived },
    [.assigned .helloReceived,
      .copied ⟨battlockCertLen, sizeofBattLockCert, sizeofBattLockCert⟩] ++ sent.map .sent)

/-- The case for nonce frames. -/
def nonceCase (b : Battery) (frame : CanFrame) : Battery × List Event :=
  let (reass, complete) := b.reass.feed frame.data frame.len
  if complete then
    if reass.len.toNat = battlockNonceLen then
      ({ b with
          reass := reass.init
          challengeNonce := copyBytes b.challengeNonce 0 reass.buffer 0 battlockNonceLen
          hasChallenge := true
          state := .challengeSent },
        [.copied ⟨battlockNonceLen, transportMax, battlockNonceLen⟩, .assigned .challengeSent])
    else ({ b with reass := reass.init }, [])
  else ({ b with reass }, [])

/-- 2) Receive a frame. -/
def receive (b : Battery) (frame : CanFrame) (input : BatteryInput) : Battery × List Event :=
  if frame.id = canIdAuthRequest then authRequestCase batteryCert b input
  else if frame.id = canIdNonce then nonceCase b frame
  else if frame.id = canIdAuthResult then
    if frame.data.get 0 = 0x01 then ({ b with state := .authenticated }, [.assigned .authenticated])
    else ({ b with state := .disconnected }, [.assigned .disconnected])
  else if frame.id = canIdSessionId then
    ({ b with state := .activeSession }, [.assigned .activeSession])
  else (b, [])

/-- 3) Sign the challenge once received. -/
def signChallenge (b : Battery) (input : BatteryInput) : Battery × List Event :=
  if b.hasChallenge ∧ b.state = .challengeSent then
    match input.ecdsaSign b.challengeNonce with
    | some sig =>
      let (sent, _) := sendPayload input.accept canIdSignature sig.toList (.ofNat battlockSigLen)
      ({ b with hasChallenge := false }, sent.map .sent)
    | none => (b, [])
  else (b, [])

/-- 4) Stream telemetry in an active session. -/
def telemetry (b : Battery) (accept : CanFrame → Bool) : Battery × List Event :=
  if b.state = .activeSession then b.sendStatus accept else (b, [])

/-- A call of `loop()`. -/
def loop (b : Battery) (input : BatteryInput) : Battery × List Event :=
  let advertised := b.advertise input.accept
  let (b, received) :=
    match input.frame with
    | some frame => receive batteryCert b frame input
    | none => (b, [])
  let (b, signed) := b.signChallenge input
  let (b, streamed) := b.telemetry input.accept
  (b, advertised ++ received ++ signed ++ streamed)

/-- The sketch under calls of `loop()`. -/
def machine : Mealy Battery BatteryInput (List Event) where
  step b input := loop batteryCert b input

end Battery

end BattLock.Hardware
