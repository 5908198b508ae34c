import BattLock.Crypto.Battery
import BattLock.Lib.Runs
import Mathlib.Logic.Function.Basic

/-!
# The handshake on objects

`simulation/battery_node.py` and `simulation/vehicle_node.py` with the messages of
`protocol/messages/` and `crypto/auth/verifier.py`: the protocol before it was put on the CAN bus.
`system` is any number of vehicles and batteries whose methods are called in any order;
`simulation/network.py` hands a message on as it is, so what a call is given is up to the network.
-/

namespace BattLock.Simulation

open Python

variable {SK PK : Type} (E : Ecdsa SK PK)

/-! ## Messages -/

structure BatteryHello where
  certificate : Certificate Str
deriving DecidableEq

structure AuthChallenge where
  nonce : Bytes
  timestamp : Int
deriving DecidableEq

structure AuthResponse where
  signature : Bytes
deriving DecidableEq

structure AuthSuccess where
  sessionId : Str
deriving DecidableEq

/-- The bytes that are signed for a challenge. -/
def AuthChallenge.challengeData (challenge : AuthChallenge) : Bytes :=
  challenge.nonce ++ encodeChars (strInt challenge.timestamp)

/-- A challenge as it is sent. -/
def sent (challenge : Challenge) : AuthChallenge := ⟨challenge.nonce, challenge.timestamp⟩

/-- `verify_challenge_response` for a certificate and a challenge that may be `None`. -/
def verifyChallengeResponse (certificate : Option (Certificate Str))
    (challenge : Option AuthChallenge) (signature : Bytes) : Except Err Bool :=
  match certificate with
  | none => .error .attributeError
  | some certificate => do
    let publicKey ← deserializePublicKey E certificate.publicKey
    match challenge with
    | none => .error .attributeError
    | some challenge => verifySignature E publicKey challenge.challengeData signature

/-! ## The nodes -/

structure BatteryNode (SK PK : Type) where
  batteryId : Str
  manufacturerId : Str
  privateKey : SK
  publicKey : PK
  certificate : Certificate Str

namespace BatteryNode

def issueDate : Str := Str.ofString "2026-01-01"

def expiryDate : Str := Str.ofString "2031-01-01"

/-- `BatteryNode(battery_id, manufacturer_id, root_ca)` with the generated private key. -/
def init (batteryId manufacturerId : Str) (rootCa : RootCA SK PK) (privateKey : SK)
    (entropy : Nat) : Except Err (BatteryNode SK PK) := do
  let publicKey := E.publicKey privateKey
  let certificate ← createCertificate E rootCa batteryId manufacturerId
    (serializePublicKey E publicKey) issueDate expiryDate entropy
  return { batteryId, manufacturerId, privateKey, publicKey, certificate }

def sendHello (self : BatteryNode SK PK) : BatteryHello := ⟨self.certificate⟩

def respondToChallenge (self : BatteryNode SK PK) (challenge : AuthChallenge) (entropy : Nat) :
    AuthResponse :=
  ⟨signMessage E self.privateKey challenge.challengeData entropy⟩

end BatteryNode

structure VehicleNode (PK : Type) where
  manufacturerPublicKey : PK
  challenge : Option Challenge := none
  certificate : Option (Certificate Str) := none

namespace VehicleNode

/-- The certificate is kept whatever the verdict on it. -/
def processHello (self : VehicleNode PK) (hello : BatteryHello) (now : Datetime) :
    VehicleNode PK × Except Err Bool :=
  ({ self with certificate := some hello.certificate },
    verifyCertificate E hello.certificate self.manufacturerPublicKey now)

/-- `create_auth_challenge` with the challenge that `create_challenge` makes. -/
def createAuthChallenge (self : VehicleNode PK) (challenge : Challenge) :
    VehicleNode PK × AuthChallenge :=
  ({ self with challenge := some challenge }, sent challenge)

def verifyAuthResponse (self : VehicleNode PK) (response : AuthResponse) : Except Err Bool :=
  verifyChallengeResponse E self.certificate (self.challenge.map sent) response.signature

/-- `create_session` with the generated session id; without a certificate, `None` has no
`battery_id`. -/
def createSession (self : VehicleNode PK) (sessionId : Str) : Except Err AuthSuccess :=
  match self.certificate with
  | none => .error .attributeError
  | some certificate => .ok ⟨(BattLock.createSession certificate.batteryId sessionId).sessionId⟩

end VehicleNode

/-! ## The system -/

/-- A call of a node's method, with what the network and the node's environment give it. -/
inductive Action (ν β : Type)
  | processHello (v : ν) (hello : BatteryHello) (now : Datetime)
  | createAuthChallenge (v : ν) (challenge : Challenge)
  | respondToChallenge (b : β) (challenge : AuthChallenge) (entropy : Nat)
  | verifyAuthResponse (v : ν) (response : AuthResponse)
  | createSession (v : ν) (sessionId : Str)

/-- What a call returns or raises. -/
inductive Outcome
  | verdict (r : Except Err Bool)
  | challenge (challenge : AuthChallenge)
  | response (response : AuthResponse)
  | success (r : Except Err AuthSuccess)

/-- The vehicles under calls of the methods of all nodes; the batteries have no state. -/
def system {ν β : Type} [DecidableEq ν] (batteries : β → BatteryNode SK PK) :
    Mealy (ν → VehicleNode PK) (Action ν β) Outcome where
  step vehicles
    | .processHello v hello now =>
      let (self, r) := (vehicles v).processHello E hello now
      (Function.update vehicles v self, .verdict r)
    | .createAuthChallenge v challenge =>
      let (self, challenge) := (vehicles v).createAuthChallenge challenge
      (Function.update vehicles v self, .challenge challenge)
    | .respondToChallenge b challenge entropy =>
      (vehicles, .response ((batteries b).respondToChallenge E challenge entropy))
    | .verifyAuthResponse v response =>
      (vehicles, .verdict ((vehicles v).verifyAuthResponse E response))
    | .createSession v sessionId => (vehicles, .success ((vehicles v).createSession sessionId))

end BattLock.Simulation
