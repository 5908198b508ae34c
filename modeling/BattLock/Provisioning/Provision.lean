import BattLock.Crypto.Certificate
import BattLock.Crypto.Remote
import BattLock.Lib.Base64
import BattLock.Lib.JsonIndent
import BattLock.Lib.Ordinal
import BattLock.Lib.Prog

/-!
# Provisioning a battery

`provisioning/provision.py`: the tool that creates the key of a battery's chip, issues the
battery's certificate under a new root key, and leaves both in its output directory. Each run is a
process of its own; the chip and the directory stay from one run to the next (`tool`). The clock,
the generated root key and the randomness of each step are arguments of a run, and so is what goes
wrong around it: the port, the disk and the output may fail at any step. `private_bytes` of the
`cryptography` package is a parameter.
-/

namespace BattLock.Provisioning

open Python

/-- What `provision` prints. -/
inductive Line
  /-- `[1/5] Connecting to ATECC608B on ...` -/
  | connecting (port : String)
  | responded
  /-- `[2/5] Creating battery private key ...` -/
  | creating
  | created
  /-- `[2/5] --skip-genkey: ...` -/
  | skipping
  /-- `[3/5] Reading battery public key ...` -/
  | reading
  | wrote (name : String)
  /-- `[4/5] Issuing certificate ...` -/
  | issuing
  | issued
  /-- `[5/5] Saving artifacts ...` -/
  | saving
  /-- `PROVISIONING COMPLETE` and the two lines after it. -/
  | complete

/-- How writing a file ends. -/
inductive Disk
  | done
  /-- It cannot be opened and stays as it is. -/
  | refused (e : Err)
  /-- It is opened, which empties it, and an error comes after `n` bytes. -/
  | cut (n : Nat) (e : Err)

/-- The queries of a run. -/
inductive Query
  | ping
  | genkey
  | pubkey

/-- What a run works on. -/
structure Bench (κ : Type) where
  chip : SerialATECC608
  element : κ
  /-- The files of the output directory. -/
  out : List (String × Bytes)
  printed : List Line

/-- A run begins without a connection. -/
def Bench.start {κ : Type} (k : κ) (out : List (String × Bytes)) : Bench κ := ⟨{}, k, out, []⟩

/-- The arguments of `provision`. -/
structure Args where
  port : String := "COM5"
  batteryId : Str := Str.ofString "BAT001"
  manufacturerId : Str := Str.ofString "TESLA"
  skipGenkey : Bool := false

/-- What a run meets outside of the program. -/
structure Surroundings (SK : Type) where
  hasSerial : Bool
  /-- `serial.Serial(...)`. -/
  opened : Except Err Handle
  /-- For each query the chip's randomness and how many characters arrive in time. -/
  ping : Nat × Nat
  genkey : Nat × Nat
  pubkey : Nat × Nat
  /-- The error of a port that is lost during a query, and whether the bridge got the request. -/
  lost : Query → Option (Err × Bool)
  /-- `self._ser.close()`. -/
  closed : Except Err Unit
  /-- `os.makedirs(OUT_DIR, exist_ok=True)`. -/
  madeDirs : Except Err Unit
  /-- For each file of the directory. -/
  disk : String → Disk
  /-- For each line that is printed. -/
  stdout : Line → Except Err Unit
  /-- The key that `RootCA()` generates. -/
  rootCa : SK
  /-- The randomness of its signature. -/
  signing : Nat
  /-- The clock at the issue date, at the expiry date and at the check. -/
  issue : { t : Datetime // t.Valid }
  expiry : { t : Datetime // t.Valid }
  now : { t : Datetime // t.Valid }

section
variable {κ SK PK : Type}

/-! ## Steps -/

/-- `print(...)`. -/
def say (env : Surroundings SK) (line : Line) : Prog (Bench κ) Err Unit := fun s =>
  match env.stdout line with
  | .ok () => ({ s with printed := s.printed ++ [line] }, .ok ())
  | .error e => (s, .error e)

/-- A file of the output directory is opened and written. -/
def store (env : Surroundings SK) (name : String) (data : Bytes) : Prog (Bench κ) Err Unit :=
  fun s =>
    match env.disk name with
    | .done => ({ s with out := setItem s.out name data }, .ok ())
    | .refused e => (s, .error e)
    | .cut n e => ({ s with out := setItem s.out name (data.take n) }, .error e)

/-- `_write(path, data)` in the output directory. -/
def write (env : Surroundings SK) (name : String) (data : Bytes) : Prog (Bench κ) Err Unit := do
  store env name data
  say env (.wrote name)

/-- A query during which the port may be lost. -/
def whileOpen {α : Type} (lost : Option (Err × Bool)) (x : Prog (Bench κ) Err α) :
    Prog (Bench κ) Err α :=
  match lost with
  | none => x
  | some (e, false) => Prog.stop e
  | some (e, true) => fun s => ((x s).1, .error e)

variable (element : SecureElement κ)

/-- `ATECC608(port=port)` and its `connect()`. -/
def connect (port : String) (env : Surroundings SK) : Prog (Bench κ) Err Unit := fun s =>
  let (chip, r) := SerialATECC608.connect { port } env.hasSerial env.opened
    ⟨element.chip s.element env.ping.1, env.ping.2⟩
  ({ s with chip }, r)

def genkey (entropy arriving : Nat) : Prog (Bench κ) Err Unit := fun s =>
  let (chip, r) := s.chip.genkey ⟨element.chip s.element entropy, arriving⟩
  ({ s with chip, element := element.asked s.chip s.element entropy "GENKEY".toList }, r)

def getPublicKey (fromEncodedPoint : Bytes → Except Err PK) (entropy arriving : Nat) :
    Prog (Bench κ) Err PK := fun s =>
  let (chip, r) := s.chip.getPublicKey fromEncodedPoint ⟨element.chip s.element entropy, arriving⟩
  ({ s with chip, element := element.asked s.chip s.element entropy "PUBKEY".toList }, r)

/-- `chip.close()`: an error of an open port passes through. -/
def close (closed : Except Err Unit) : Prog (Bench κ) Err Unit := fun s =>
  match s.chip.ser, closed with
  | some _, .error e => (s, .error e)
  | _, _ => ({ s with chip := s.chip.close }, .ok ())

/-! ## The tool -/

/-- The object that `battery_certificate.json` holds. -/
def certJson (cert : Certificate Str) (pubPem : Str) : Json := .object [
  (Str.ofString "battery_id", .str cert.batteryId),
  (Str.ofString "manufacturer_id", .str cert.manufacturerId),
  (Str.ofString "public_key_pem", .str pubPem),
  (Str.ofString "issue_date", .str cert.issueDate),
  (Str.ofString "expiry_date", .str cert.expiryDate),
  (Str.ofString "signature_b64", .str (Str.ofChars (Base64.b64encode cert.signature)))]

variable (E : Ecdsa SK PK) (fromEncodedPoint : Bytes → Except Err PK) (privateBytes : SK → Bytes)

/-- `[5/5]`: what `provision` does once the certificate is issued. -/
def saveArtifacts (env : Surroundings SK) (cert : Certificate Str) (pubPem : Bytes) :
    Prog (Bench κ) Err Unit := do
  let rootCa := RootCA.init E env.rootCa
  say env .saving
  let text ← Prog.lift (decode pubPem)
  write env "battery_certificate.json" (encodeChars ((certJson cert text).dumpsIndent 2 0))
  write env "root_ca_public_key.pem" (serializePublicKey E rootCa.publicKey)
  write env "root_ca_private_key.pem" (privateBytes rootCa.privateKey)
  close env.closed
  say env .complete

/-- `provision` from the public key on. -/
def issueCertificate (args : Args) (env : Surroundings SK) (pubKeyObj : PK) :
    Prog (Bench κ) Err Unit := do
  let pubPem := serializePublicKey E pubKeyObj
  write env "battery_public_key.pem" pubPem
  say env .issuing
  let rootCa := RootCA.init E env.rootCa
  let issue := env.issue.val.strftime
  let expiry ← Prog.lift (env.expiry.val.addDays (365 * 5))
  let cert ← Prog.lift (createCertificate E rootCa args.batteryId args.manufacturerId pubPem issue
    expiry.strftime env.signing)
  let ok ← Prog.lift (verifyCertificate E cert rootCa.publicKey env.now.val)
  if ¬ ok then
    Prog.stop (.runtimeError "self-check failed: freshly issued cert does not verify")
  else
    say env .issued
    saveArtifacts E privateBytes env cert pubPem

/-- `[2/5]`: the key pair is made unless the arguments say not to. -/
def createKey (args : Args) (env : Surroundings SK) : Prog (Bench κ) Err Unit :=
  if ¬ args.skipGenkey then do
    say env .creating
    whileOpen (env.lost .genkey) (genkey element env.genkey.1 env.genkey.2)
    say env .created
  else say env .skipping

def provision (args : Args) (env : Surroundings SK) : Prog (Bench κ) Err Unit := do
  Prog.lift env.madeDirs
  say env (.connecting args.port)
  whileOpen (env.lost .ping) (connect element args.port env)
  say env .responded
  createKey element args env
  say env .reading
  let pubKeyObj ← whileOpen (env.lost .pubkey)
    (getPublicKey element fromEncodedPoint env.pubkey.1 env.pubkey.2)
  issueCertificate E privateBytes args env pubKeyObj

/-- Runs of the tool, one after another, with one chip and one directory: what each prints and how
it ends. -/
def tool : Mealy (κ × List (String × Bytes)) (Args × Surroundings SK)
    (List Line × Except Err Unit) where
  step
    | (k, out), (args, env) =>
      let (s, r) := provision element E fromEncodedPoint privateBytes args env (.start k out)
      ((s.element, s.out), s.printed, r)

end

end BattLock.Provisioning
