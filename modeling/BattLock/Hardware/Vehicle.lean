import BattLock.Hardware.Sketch
import BattLock.Lib.Ieee
import BattLock.Lib.LittleEndian
import BattLock.Lib.Mealy

/-!
# The vehicle sketch

`hardware/vehicle.ino`: the static variables, one definition for each function and each case of
`loop()`. The crypto libraries are a parameter (`Crypto`), what a call of `loop()` meets is its
input: the frame received, the clock, the controller's answers, and the two bytes of memory behind
`cert_raw` that the cast to `BattLockCert` reaches.
-/

namespace BattLock.Hardware

open CArray Python Ieee

/-- `SHA256`, and the two forms of `ATECC608A.ecdsaVerify`: with a public key and with the slot
of one. -/
structure Crypto where
  sha256 : Bytes → Vector UInt8 32
  ecdsaVerify : Vector UInt8 32 → Vector UInt8 64 → Vector UInt8 65 → Bool
  ecdsaVerifySlot : Vector UInt8 32 → Vector UInt8 64 → UInt8 → Bool

/-- Libraries that refuse everything. -/
def Crypto.refusing : Crypto where
  sha256 _ := Vector.replicate 32 0
  ecdsaVerify _ _ _ := false
  ecdsaVerifySlot _ _ _ := false

/-- The static variables. -/
structure Vehicle where
  state : BattLockState := .disconnected
  certRaw : Vector UInt8 battlockCertLen := Vector.replicate battlockCertLen 0
  sigRaw : Vector UInt8 battlockSigLen := Vector.replicate battlockSigLen 0
  lastCounter : UInt32 := 0
  pendingCounter : UInt32 := 0
  pendingFlags : Vector UInt8 4 := Vector.replicate 4 0
  haveFrameA : Bool := false
  /-- `reass` of the two cases of `loop()`. -/
  certReass : BattLockReassembly := {}
  sigReass : BattLockReassembly := {}
  nonce : Vector UInt8 battlockNonceLen := Vector.replicate battlockNonceLen 0
deriving DecidableEq

structure VehicleInput where
  /-- The frame `readMsgBuf` reads, if `checkReceive` reports one. -/
  frame : Option CanFrame
  /-- The readings of `millis()`. -/
  millis : Nat → UInt32
  accept : CanFrame → Bool
  /-- What is in memory behind `cert_raw`. -/
  beyond : Vector UInt8 2

variable (C : Crypto) (rootCaPublicKey : Vector UInt8 65)

def verifySlot : UInt8 := 0

def verifyWithAtecc (message32 : Vector UInt8 32) (sig64 : Vector UInt8 64)
    (pubkey65 : Option (Vector UInt8 65)) (slot : UInt8) : Bool :=
  match pubkey65 with
  | some pubkey65 => C.ecdsaVerify message32 sig64 pubkey65
  | none => C.ecdsaVerifySlot message32 sig64 slot

/-- The byte string `verify_certificate` builds; every byte of the array is written. -/
def certificateMessage (cert : BattLockCert) : Vector UInt8 85 :=
  let msg := copyBytes (Vector.replicate 85 0) 0 cert.batteryId 0 battlockBatIdLen
  -- the offset advances by 6: the next copy overwrites the seventh byte of the id
  let msg := copyBytes msg 6 cert.manufacturerId 0 8
  let msg := copyBytes msg 14 cert.publicKey 0 65
  copyBytes msg 79 cert.dates 0 6

def verifyCertificate (cert : BattLockCert) : Bool :=
  let digest := C.sha256 (certificateMessage cert).toList
  verifyWithAtecc C digest cert.signature (some rootCaPublicKey) verifySlot

/-- `(BattLockCert *)cert_raw`. -/
def certView (certRaw : Vector UInt8 battlockCertLen) (beyond : Vector UInt8 2) : BattLockCert :=
  .ofBytes (certRaw ++ beyond)

namespace Vehicle

/-! ## Telemetry -/

def canIdBatteryStatusB : UInt32 := 0x201

/-- A `float` from its four bytes. -/
def floatOf (data : Bytes) : Binary32 := .ofBits (LittleEndian.value data)

def handleStatusA (v : Vehicle) (data : Vector UInt8 8) : Vehicle :=
  { v with
    pendingCounter := (data.get 0).toUInt32 ||| ((data.get 1).toUInt32 <<< 8) |||
      ((data.get 2).toUInt32 <<< 16) ||| ((data.get 3).toUInt32 <<< 24)
    pendingFlags := #v[data.get 4, data.get 5, data.get 6, v.pendingFlags.get 3]
    haveFrameA := true }

def handleStatusB (v : Vehicle) (data : Vector UInt8 8) : Vehicle × List Event :=
  let voltage := floatOf [data.get 0, data.get 1, data.get 2, data.get 3]
  let current := floatOf [data.get 4, data.get 5, data.get 6, data.get 7]
  if voltage.val.gt 100 || current.val.gt 500 then (v, [.report .injection])
  else if v.pendingCounter ≤ v.lastCounter then (v, [.report .replay])
  else ({ v with lastCounter := v.pendingCounter }, [.report (.valid v.pendingCounter)])

/-! ## The handshake -/

/-- The placeholder for a fresh nonce. -/
def nonceOf (millis : Nat → UInt32) : Vector UInt8 battlockNonceLen :=
  Vector.ofFn fun i => (millis i >>> .ofNat (i % 16)).toUInt8

/-- The frames of the nonce that the controller takes. -/
def sendNonce (accept : CanFrame → Bool) (nonce : Vector UInt8 battlockNonceLen) : List CanFrame :=
  (sendPayload accept canIdNonce nonce.toList (.ofNat battlockNonceLen)).1

/-- A complete certificate has been received. -/
def onCertificate (v : Vehicle) (reass : BattLockReassembly) (input : VehicleInput) :
    Vehicle × List Event :=
  let certRaw := copyBytes v.certRaw 0 reass.buffer 0 battlockCertLen
  let copy := ⟨battlockCertLen, transportMax, battlockCertLen⟩
  let cert := certView certRaw input.beyond
  let v := { v with certRaw }
  if verifyCertificate C rootCaPublicKey cert then
    let nonce := nonceOf input.millis
    ({ v with nonce, state := .challengeSent },
      [.copied copy, .certificateCheck certRaw cert true, .assigned .certVerified] ++
        (sendNonce input.accept nonce).map .sent ++ [.assigned .challengeSent])
  else
    ({ v with state := .disconnected },
      [.copied copy, .certificateCheck certRaw cert false, .assigned .disconnected])

/-- A complete signature has been received. -/
def onSignature (v : Vehicle) (reass : BattLockReassembly) (input : VehicleInput) :
    Vehicle × List Event :=
  let sigRaw := copyBytes v.sigRaw 0 reass.buffer 0 battlockSigLen
  let copy := ⟨battlockSigLen, transportMax, battlockSigLen⟩
  -- the message is the start of the buffer that holds the signature ("digest placeholder")
  let message := sub reass.buffer 0 32
  let publicKey := (certView v.certRaw input.beyond).publicKey
  let v := { v with sigRaw }
  if verifyWithAtecc C message sigRaw (some publicKey) verifySlot then
    ({ v with state := .activeSession, lastCounter := 0 },
      [.copied copy, .signatureCheck message sigRaw publicKey true, .assigned .authenticated] ++
        canSend input.accept (.ofBytes canIdAuthResult [1]) ++
        canSend input.accept
          (.ofBytes canIdSessionId [0xAA, 0xBB, 0xCC, 0xDD, 0x01, 0x02, 0x03, 0x04]) ++
        [.assigned .activeSession])
  else
    ({ v with state := .disconnected },
      [.copied copy, .signatureCheck message sigRaw publicKey false, .assigned .disconnected] ++
        canSend input.accept (.ofBytes canIdAuthResult [0]))

/-- The case for certificate frames. -/
def certificateCase (v : Vehicle) (frame : CanFrame) (input : VehicleInput) :
    Vehicle × List Event :=
  let (reass, complete) := v.certReass.feed frame.data frame.len
  if complete then
    let (v, events) :=
      if reass.len.toNat = battlockCertLen then onCertificate C rootCaPublicKey v reass input
      else (v, [])
    ({ v with certReass := reass.init }, events)
  else ({ v with certReass := reass }, [])

/-- The case for signature frames. -/
def signatureCase (v : Vehicle) (frame : CanFrame) (input : VehicleInput) :
    Vehicle × List Event :=
  let (reass, complete) := v.sigReass.feed frame.data frame.len
  if complete then
    let (v, events) :=
      if reass.len.toNat = battlockSigLen then onSignature C v reass input else (v, [])
    ({ v with sigReass := reass.init }, events)
  else ({ v with sigReass := reass }, [])

/-! ## `loop()` -/

/-- The `switch` on the identifier. -/
def dispatch (v : Vehicle) (frame : CanFrame) (input : VehicleInput) : Vehicle × List Event :=
  if frame.id = canIdAuthRequest then
    ({ v with state := .helloReceived }, [.assigned .helloReceived])
  else if frame.id = canIdCertificate then certificateCase C rootCaPublicKey v frame input
  else if frame.id = canIdSignature then signatureCase C v frame input
  else (v, [])

/-- A call of `loop()`. -/
def loop (v : Vehicle) (input : VehicleInput) : Vehicle × List Event :=
  match input.frame with
  | none => (v, [])
  | some frame =>
    if v.state = .activeSession ∧ frame.id = canIdBatteryStatus then
      (v.handleStatusA frame.data, [])
    else if v.state = .activeSession ∧ frame.id = canIdBatteryStatusB then
      if v.haveFrameA then
        let (v, events) := v.handleStatusB frame.data
        ({ v with haveFrameA := false }, events)
      else (v, [])
    else dispatch C rootCaPublicKey v frame input

/-- The sketch under calls of `loop()`. -/
def machine : Mealy Vehicle VehicleInput (List Event) where
  step v input := loop C rootCaPublicKey v input

end Vehicle

end BattLock.Hardware
