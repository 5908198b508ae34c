import BattLock.Lib.CArray
import BattLock.Protocol.StateMachine

/-!
# The firmware's protocol header

`hardware/battlock_protocol.h`: identifiers and lengths, the connection states, the packed
certificate and the reassembly of a fragmented payload. Fixed-width integers are Lean's; the sums
and comparisons C makes in `int` are made in `Nat`.
-/

namespace BattLock.Hardware

open CArray

/-! ## Identifiers and lengths -/

def canIdAuthRequest : UInt32 := 0x100
def canIdNonce : UInt32 := 0x101
def canIdSignature : UInt32 := 0x102
def canIdAuthResult : UInt32 := 0x103
def canIdCertificate : UInt32 := 0x104
def canIdSessionId : UInt32 := 0x105
def canIdBatteryStatus : UInt32 := 0x200

def battlockNonceLen : Nat := 32
def battlockSigLen : Nat := 64
def battlockCertLen : Nat := 148
def canDataLen : UInt8 := 8
def battlockBatIdLen : Nat := 7

/-- The data bytes of a frame have indices. -/
instance canDataLen.neZero : @NeZero Nat Zero.ofOfNat0 8 := ⟨Nat.succ_ne_zero _⟩

/-! ## Connection states -/

inductive BattLockState
  | disconnected
  | helloReceived
  | certVerified
  | challengeSent
  | authenticated
  | activeSession
deriving DecidableEq

/-- The member of the Python enumeration of the same name. -/
def BattLockState.mirror : BattLockState → ConnectionState
  | disconnected => .disconnected
  | helloReceived => .helloReceived
  | certVerified => .certVerified
  | challengeSent => .challengeSent
  | authenticated => .authenticated
  | activeSession => .activeSession

/-! ## The packed certificate -/

@[ext] structure BattLockCert where
  batteryId : Vector UInt8 battlockBatIdLen
  manufacturerId : Vector UInt8 8
  issueYear : UInt8
  issueMonth : UInt8
  issueDay : UInt8
  expiryYear : UInt8
  expiryMonth : UInt8
  expiryDay : UInt8
  publicKey : Vector UInt8 65
  signature : Vector UInt8 64
deriving DecidableEq

/-- `sizeof(BattLockCert)`: all members are bytes, so there is no padding. -/
def sizeofBattLockCert : Nat := battlockBatIdLen + 8 + 6 + 65 + 64

namespace BattLockCert

/-- The six date bytes in the order of the struct. -/
def dates (c : BattLockCert) : Vector UInt8 6 :=
  #v[c.issueYear, c.issueMonth, c.issueDay, c.expiryYear, c.expiryMonth, c.expiryDay]

/-- The bytes of the struct in memory. -/
def bytes (c : BattLockCert) : Vector UInt8 sizeofBattLockCert :=
  c.batteryId ++ c.manufacturerId ++ c.dates ++ c.publicKey ++ c.signature

/-- Memory read as the struct. -/
def ofBytes (raw : Vector UInt8 sizeofBattLockCert) : BattLockCert where
  batteryId := sub raw 0 battlockBatIdLen
  manufacturerId := sub raw 7 8
  issueYear := raw.toList.getD 15 0
  issueMonth := raw.toList.getD 16 0
  issueDay := raw.toList.getD 17 0
  expiryYear := raw.toList.getD 18 0
  expiryMonth := raw.toList.getD 19 0
  expiryDay := raw.toList.getD 20 0
  publicKey := sub raw 21 65
  signature := sub raw 86 64

end BattLockCert

/-! ## Reassembly -/

def fragLastFlag : UInt8 := 0x80
def fragHeadBytes : Nat := 3
def fragFirstData : UInt8 := 5
def fragDataBytes : UInt8 := 7
def transportMax : Nat := 512

structure BattLockReassembly where
  buffer : Vector UInt8 transportMax := Vector.replicate transportMax 0
  len : UInt16 := 0
  total : UInt16 := 0
  complete : Bool := false
deriving DecidableEq

namespace BattLockReassembly

def init (r : BattLockReassembly) : BattLockReassembly :=
  { r with len := 0, total := 0, complete := false }

/-- The copy both branches of `feed` end with: `chunk` bytes of the frame, if they fit. -/
def store (r : BattLockReassembly) (data : Vector UInt8 8) (off : Nat) (chunk : UInt8) :
    BattLockReassembly :=
  if r.len.toNat + chunk.toNat ≤ transportMax then
    { r with
      buffer := copyBytes r.buffer r.len.toNat data off chunk.toNat
      len := r.len + chunk.toUInt16 }
  else r

/-- The branch for sequence number 0. -/
def feedFirst (r : BattLockReassembly) (data : Vector UInt8 8) : BattLockReassembly :=
  let r := { r with
    len := 0
    total := (data.get 1).toUInt16 ||| ((data.get 2).toUInt16 <<< 8)
    complete := false }
  let chunk := if r.total < fragFirstData.toUInt16 then r.total.toUInt8 else fragFirstData
  r.store data fragHeadBytes chunk

/-- The branch for the other sequence numbers. -/
def feedNext (r : BattLockReassembly) (data : Vector UInt8 8) (dlc : UInt8) :
    BattLockReassembly :=
  let chunk := if 1 < dlc then dlc - 1 else 0
  let chunk := if fragDataBytes < chunk then fragDataBytes else chunk
  let chunk :=
    if r.total.toNat < r.len.toNat + chunk.toNat then (r.total - r.len).toUInt8 else chunk
  r.store data 1 chunk

/-- Feed one frame: the reassembly after it, and whether the payload is complete. -/
def feed (r : BattLockReassembly) (data : Vector UInt8 8) (dlc : UInt8) :
    BattLockReassembly × Bool :=
  let seq := data.get 0 &&& ~~~fragLastFlag
  let r := if seq = 0 then r.feedFirst data else r.feedNext data dlc
  if data.get 0 &&& fragLastFlag ≠ 0 then ({ r with complete := true }, true) else (r, false)

end BattLockReassembly

/-- Number of frames of a payload. -/
def battlockFragmentCount (len : UInt16) : UInt16 :=
  if len ≤ fragFirstData.toUInt16 then 1
  else
    .ofNat (1 + (len.toNat - fragFirstData.toNat + fragDataBytes.toNat - 1) / fragDataBytes.toNat)

end BattLock.Hardware
