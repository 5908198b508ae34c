import BattLock.Crypto.Atecc608
import BattLock.Hardware.Bridge
import BattLock.Lib.Link

/-!
# The secure element over its serial line

`crypto/keys/atecc608.py` with the line to the bridge as state. A query writes a request and reads
one line: what has arrived of the bridge's text, up to the first newline, when the read ends. The
text carries the number of the request it answers, which the program does not see.
`SerialATECC608.sign_eq` and `SerialATECC608.getPublicKey_eq` connect the calls to those of
`ATECC608`.
-/

namespace BattLock

open Python Hardware

/-- What happens outside of the program during a query. -/
structure Exchange where
  /-- The chip while the bridge handles the request. -/
  chip : Chip
  /-- How many characters arrive before the read ends. -/
  arriving : Nat

/-- An open `serial.Serial`, with the line from the bridge behind it. -/
structure Handle where
  link : Link Nat
  /-- The number of the next request. -/
  requests : Nat
deriving DecidableEq

namespace Handle

/-- A port just opened: what the bridge has printed before belongs to no request. -/
def opened (arrived late : List Char) : Handle where
  link := { arrived := arrived.map (0, ·), inFlight := late.map (0, ·) }
  requests := 1

def resetInputBuffer (ser : Handle) : Handle := { ser with link := ser.link.clear }

/-- `write` of a line: the bridge replies to it. -/
def write (ser : Handle) (chip : Chip) (line : List Char) : Handle where
  link := ser.link.send ser.requests (Bridge.loop chip line)
  requests := ser.requests + 1

/-- What a query reads. -/
def queryLine (ser : Handle) (line : List Char) (env : Exchange) : List (Nat × Char) :=
  (((ser.write env.chip line).link.arrive env.arriving).readline).1

/-- `_query(line)`: the bridge prints ASCII, so decoding changes nothing. -/
def query (ser : Handle) (line : List Char) (env : Exchange) : List Char × Handle :=
  let ser := ser.write env.chip line
  let (resp, link) := (ser.link.arrive env.arriving).readline
  (strip (Link.text resp), { ser with link })

end Handle

/-- An `ATECC608` object. -/
structure SerialATECC608 where
  port : String := "COM5"
  ser : Option Handle := none
  connected : Bool := false
deriving DecidableEq

namespace SerialATECC608

/-- `_query(line)`; without a port, `None` has no `write`. -/
def query (self : SerialATECC608) (line : List Char) (env : Exchange) :
    SerialATECC608 × Except Err (List Char) :=
  match self.ser with
  | none => (self, .error .attributeError)
  | some ser =>
    let (resp, ser) := ser.query line env
    ({ self with ser := some ser }, .ok resp)

/-- `connect()`, when opening the port gives `opened`. -/
def connect (self : SerialATECC608) (hasSerial : Bool) (opened : Except Err Handle)
    (env : Exchange) : SerialATECC608 × Except Err Unit :=
  if ¬ hasSerial then
    (self, .error (.runtimeError ("pyserial is required for hardware access. " ++
      "Install it with: python -m pip install pyserial")))
  else
    match opened with
    | .error e => (self, .error e)
    | .ok ser =>
      let self := { self with ser := some ser.resetInputBuffer }
      match self.query "PING".toList env with
      | (self, .error e) => (self, .error e)
      | (self, .ok resp) =>
        if resp ≠ "PONG".toList then
          ({ self with ser := none },
            .error (.connectionError s!"ATECC bridge not responding on {self.port}"))
        else ({ self with connected := true }, .ok ())

/-- The signature in the reply to a SIGN request. -/
def signatureOf (resp : List Char) : Except Err Bytes :=
  if ¬ "SIG:".toList.isPrefixOf resp then
    .error (.runtimeError ("sign failed: " ++ String.ofList resp))
  else do
    let raw ← ATECC608.payload resp
    if raw.length ≠ rawSigLen then
      .error (.runtimeError s!"sign returned {raw.length} bytes, expected {rawSigLen}")
    else return raw

def signRequest (data : Bytes) : List Char := "SIGN ".toList ++ hex data

def sign (self : SerialATECC608) (data : Bytes) (env : Exchange) :
    SerialATECC608 × Except Err Bytes :=
  if ¬ self.connected then
    (self, .error (.runtimeError "ATECC608: call connect() first"))
  else if data.length ≠ 32 then
    (self, .error (.valueError "ATECC608.sign: message must be 32 bytes"))
  else
    match self.query (signRequest data) env with
    | (self, resp) => (self, resp >>= signatureOf)

section
variable {PK : Type} (fromEncodedPoint : Bytes → Except Err PK)

/-- The key in the reply to a PUBKEY request. -/
def publicKeyOf (resp : List Char) : Except Err PK :=
  if ¬ "PUB:".toList.isPrefixOf resp then
    .error (.runtimeError ("get_public_key failed: " ++ String.ofList resp))
  else do
    let raw ← ATECC608.payload resp
    ATECC608.rawPubkeyToKey fromEncodedPoint raw

def getPublicKey (self : SerialATECC608) (env : Exchange) : SerialATECC608 × Except Err PK :=
  if ¬ self.connected then
    (self, .error (.runtimeError "ATECC608: call connect() first"))
  else
    match self.query "PUBKEY".toList env with
    | (self, resp) => (self, resp >>= publicKeyOf fromEncodedPoint)

end

def genkey (self : SerialATECC608) (env : Exchange) : SerialATECC608 × Except Err Unit :=
  if ¬ self.connected then
    (self, .error (.runtimeError "ATECC608: call connect() first"))
  else
    match self.query "GENKEY".toList env with
    | (self, .error e) => (self, .error e)
    | (self, .ok resp) =>
      if resp ≠ "OK".toList then
        (self, .error (.runtimeError ("genkey failed: " ++ String.ofList resp)))
      else (self, .ok ())

/-- The port is closed and forgotten. -/
def close (self : SerialATECC608) : SerialATECC608 := { self with ser := none, connected := false }

/-! ## One call as the caller sees it -/

variable {PK : Type} (fromEncodedPoint : Bytes → Except Err PK)

/-- The chip behind the bridge as one call meets it: its query reads what is on the line. -/
def answering (self : SerialATECC608) (env : Exchange) : ATECC608 fromEncodedPoint where
  connected := self.connected
  query line _ := (self.query line env).2

theorem sign_eq (self : SerialATECC608) (data : Bytes) (env : Exchange) (entropy : Nat) :
    (self.sign data env).2 = (self.answering fromEncodedPoint env).sign data entropy := by
  unfold sign ATECC608.sign answering
  by_cases hconnected : ¬ self.connected = true
  · rw [if_pos hconnected, if_pos hconnected]
  · rw [if_neg hconnected, if_neg hconnected]
    split <;> rfl

theorem getPublicKey_eq (self : SerialATECC608) (env : Exchange) :
    (self.getPublicKey fromEncodedPoint env).2 =
      (self.answering fromEncodedPoint env).getPublicKey := by
  unfold getPublicKey ATECC608.getPublicKey answering
  by_cases hconnected : ¬ self.connected = true
  · rw [if_pos hconnected, if_pos hconnected]
  · rw [if_neg hconnected, if_neg hconnected]
    rfl

end SerialATECC608

end BattLock
