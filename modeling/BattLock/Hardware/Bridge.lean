import BattLock.Lib.Hex
import Mathlib.Data.List.DropRight

/-!
# The serial bridge

`hardware/atecc_bridge.ino`: the sketch that lets a host drive the secure element over a serial
line. `Bridge.loop` is what it prints for a command line. The library calls that reach the chip
are a parameter: what they would give while the command is handled.
-/

namespace BattLock.Hardware

open Python

/-- The calls of the chip's library, on the key in slot 0. -/
structure Chip where
  /-- `createSignature` and the signature it leaves, or none if it fails. -/
  createSignature : Bytes → Option (Vector UInt8 64)
  /-- `generatePublicKey` and the key it leaves. -/
  generatePublicKey : Option (Vector UInt8 64)
  createNewKeyPair : Bool
  verifySignature : Bytes → Bytes → Bytes → Bool

namespace Bridge

def hexNibble (c : Char) : UInt8 :=
  if '0' ≤ c ∧ c ≤ '9' then .ofNat (c.toNat - 0x30)
  else if 'a' ≤ c ∧ c ≤ 'f' then .ofNat (c.toNat - 0x61 + 10)
  else if 'A' ≤ c ∧ c ≤ 'F' then .ofNat (c.toNat - 0x41 + 10)
  else 0xFF

/-- The loop of `hexToBytes`, two characters a byte. -/
def hexPairs : List Char → Option Bytes
  | [] => some []
  | [_] => none
  | a :: b :: hex =>
    let hi := hexNibble a
    let lo := hexNibble b
    if hi = 0xFF ∨ lo = 0xFF then none
    else (hexPairs hex).map fun out => (hi <<< 4 ||| lo) :: out

def hexToBytes (hex : List Char) (outLen : Nat) : Option Bytes :=
  if hex.length ≠ outLen * 2 then none else hexPairs hex

/-- The upper-case digit of a four-bit value. -/
def hexDigit (n : Nat) : Char :=
  if n < 10 then Char.ofNat (0x30 + n) else Char.ofNat (0x37 + n)

/-- `Serial.print(b, HEX)`: no leading zero. -/
def printByte (b : UInt8) : List Char :=
  if b < 0x10 then [hexDigit b.toNat] else [hexDigit (b.toNat / 16), hexDigit (b.toNat % 16)]

def printHex (data : Bytes) : List Char :=
  data.flatMap fun b => (if b < 0x10 then ['0'] else []) ++ printByte b

/-- `Serial.println(text)`. -/
def println (text : List Char) : List Char := text ++ ['\r', '\n']

def sendError (msg : String) : List Char := "ERR:".toList ++ println msg.toList

def handleSign (chip : Chip) (hexMsg : List Char) : List Char :=
  match hexToBytes hexMsg 32 with
  | none => sendError "SIGN needs 64 hex chars (32-byte message)"
  | some msg =>
    match chip.createSignature msg with
    | none => sendError "createSignature failed"
    | some signature => "SIG:".toList ++ printHex signature.toList ++ println []

def handlePubKey (chip : Chip) : List Char :=
  match chip.generatePublicKey with
  | none => sendError "generatePublicKey failed"
  | some key => "PUB:".toList ++ printHex key.toList ++ println []

def handleGenKey (chip : Chip) : List Char :=
  if chip.createNewKeyPair then println "OK".toList
  else sendError "createNewKeyPair failed (slot 0 locked/config?)"

def handleVerify (chip : Chip) (args : List Char) : List Char :=
  let needs := sendError "VERIFY needs: <msg64hex> <sig128hex> <pub128hex>"
  match args.idxOf? ' ' with
  | none => needs
  | some sp1 =>
    match (args.drop (sp1 + 1)).idxOf? ' ' with
    | none => needs
    | some n =>
      let sp2 := sp1 + 1 + n
      let msgHex := args.take sp1
      let sigHex := (args.take sp2).drop (sp1 + 1)
      let pubHex := args.drop (sp2 + 1)
      match hexToBytes msgHex 32, hexToBytes sigHex 64, hexToBytes pubHex 64 with
      | some msg, some sig, some pub =>
        "VERIFY:".toList ++ println [if chip.verifySignature msg sig pub then '1' else '0']
      | _, _, _ => sendError "bad hex lengths"

/-- `line.trim()`. -/
def trim (line : List Char) : List Char := (line.dropWhile isSpace).rdropWhile isSpace

/-- The reply to a command line; an empty one has none. -/
def loop (chip : Chip) (line : List Char) : List Char :=
  let line := trim line
  if line.length = 0 then []
  else
    let sp := line.idxOf? ' '
    let cmd := match sp with
      | none => line
      | some sp => line.take sp
    let args := match sp with
      | none => []
      | some sp => line.drop (sp + 1)
    if cmd = "PING".toList then println "PONG".toList
    else if cmd = "SIGN".toList then handleSign chip args
    else if cmd = "PUBKEY".toList then handlePubKey chip
    else if cmd = "GENKEY".toList then handleGenKey chip
    else if cmd = "VERIFY".toList then handleVerify chip args
    else sendError "unknown command"

end Bridge

end BattLock.Hardware
