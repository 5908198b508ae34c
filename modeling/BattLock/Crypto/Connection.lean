import BattLock.Crypto.Serial

/-!
# Connecting to the secure element

`crypto/keys/atecc608.py` with what a `serial.Serial` has confirmed of the bridge behind it as
state. A query may read any reply or raise any exception of the port; which ones is an argument of
the calls. `SerialATECC608` says where the replies come from: its calls are those of `PortATECC608`
with the replies of its line (`Follows.connect`, `Follows.sign`, `Follows.getPublicKey`,
`Follows.genkey`, `Follows.close`).
-/

namespace BattLock

open Python

/-- A `serial.Serial`. -/
structure Port where
  isOpen : Bool
  /-- What the last PING on the port was answered. -/
  lastPing : Option (List Char)
deriving DecidableEq

namespace Port

/-- A port just opened: nothing was asked on it yet. -/
def opened : Port := ⟨true, none⟩

def close (ser : Port) : Port := { ser with isOpen := false }

/-- The port after a query that read or raised `resp`. -/
def asked (ser : Port) (line : List Char) (resp : Except Err (List Char)) : Port :=
  if line = "PING".toList then { ser with lastPing := resp.toOption } else ser

end Port

/-- What `connect` meets outside of the program. -/
structure Opening where
  /-- `serial.Serial(...)`. -/
  opened : Except Err Unit
  /-- `reset_input_buffer()`. -/
  reset : Except Err Unit
  /-- The reply to PING. -/
  resp : Except Err (List Char)

/-- An `ATECC608` object. -/
structure PortATECC608 where
  port : String := "COM5"
  ser : Option Port := none
  connected : Bool := false
deriving DecidableEq

namespace PortATECC608

/-- `_query(line)`; without a port, `None` has no `write`. -/
def query (self : PortATECC608) (line : List Char) (resp : Except Err (List Char)) :
    PortATECC608 × Except Err (List Char) :=
  match self.ser with
  | none => (self, .error .attributeError)
  | some ser => ({ self with ser := some (ser.asked line resp) }, resp)

/-- `self._ser.close()`. -/
def closeSer (self : PortATECC608) : PortATECC608 := { self with ser := self.ser.map Port.close }

def connect (self : PortATECC608) (hasSerial : Bool) (env : Opening) :
    PortATECC608 × Except Err Unit :=
  if ¬ hasSerial then
    (self, .error (.runtimeError ("pyserial is required for hardware access. " ++
      "Install it with: python -m pip install pyserial")))
  else
    match env.opened with
    | .error e => (self, .error e)
    | .ok () =>
      let self := { self with ser := some .opened }
      match env.reset with
      | .error e => (self, .error e)
      | .ok () =>
        match self.query "PING".toList env.resp with
        | (self, .error e) => (self, .error e)
        | (self, .ok resp) =>
          if resp ≠ "PONG".toList then
            -- `connected` is not touched here
            ({ self.closeSer with ser := none },
              .error (.connectionError s!"ATECC bridge not responding on {self.port}"))
          else ({ self with connected := true }, .ok ())

def sign (self : PortATECC608) (data : Bytes) (resp : Except Err (List Char)) :
    PortATECC608 × Except Err Bytes :=
  if ¬ self.connected then
    (self, .error (.runtimeError "ATECC608: call connect() first"))
  else if data.length ≠ 32 then
    (self, .error (.valueError "ATECC608.sign: message must be 32 bytes"))
  else
    match self.query (SerialATECC608.signRequest data) resp with
    | (self, resp) => (self, resp >>= SerialATECC608.signatureOf)

section
variable {PK : Type} (fromEncodedPoint : Bytes → Except Err PK)

def getPublicKey (self : PortATECC608) (resp : Except Err (List Char)) :
    PortATECC608 × Except Err PK :=
  if ¬ self.connected then
    (self, .error (.runtimeError "ATECC608: call connect() first"))
  else
    match self.query "PUBKEY".toList resp with
    | (self, resp) => (self, resp >>= SerialATECC608.publicKeyOf fromEncodedPoint)

end

def genkey (self : PortATECC608) (resp : Except Err (List Char)) :
    PortATECC608 × Except Err Unit :=
  if ¬ self.connected then
    (self, .error (.runtimeError "ATECC608: call connect() first"))
  else
    match self.query "GENKEY".toList resp with
    | (self, .error e) => (self, .error e)
    | (self, .ok resp) =>
      if resp ≠ "OK".toList then
        (self, .error (.runtimeError ("genkey failed: " ++ String.ofList resp)))
      else (self, .ok ())

def close (self : PortATECC608) : PortATECC608 :=
  { self.closeSer with ser := none, connected := false }

/-! ## The serial line as the other side of the port -/

/-- The same object, with its port and with its line. -/
structure Follows (p : PortATECC608) (l : SerialATECC608) : Prop where
  port : p.port = l.port
  ser : p.ser.isSome = l.ser.isSome
  connected : p.connected = l.connected

/-- Opening a port with a line behind it. -/
def opening (opened : Except Err Handle) (env : Exchange) : Opening where
  opened := opened.map fun _ => ()
  reset := .ok ()
  resp := opened.map fun ser => (ser.resetInputBuffer.query "PING".toList env).1

/-- A call leaves both objects alike and gives the same. -/
def Agree {α : Type} (p : PortATECC608 × Except Err α) (l : SerialATECC608 × Except Err α) : Prop :=
  Follows p.1 l.1 ∧ p.2 = l.2

namespace Follows

variable {p : PortATECC608} {l : SerialATECC608}

theorem query (h : Follows p l) (line : List Char) (env : Exchange) :
    Agree (p.query line (l.query line env).2) (l.query line env) := by
  obtain ⟨hport, hser, hconnected⟩ := h
  unfold PortATECC608.query SerialATECC608.query
  cases hl : l.ser with
  | none =>
    have hp : p.ser = none := by simpa [hl] using hser
    rw [hp]
    exact ⟨⟨hport, hser, hconnected⟩, rfl⟩
  | some ser =>
    obtain ⟨q, hp⟩ := Option.isSome_iff_exists.1 (hser.trans (by rw [hl]; rfl))
    rw [hp]
    exact ⟨⟨hport, rfl, hconnected⟩, rfl⟩

/-- A query and what is read out of its reply. -/
theorem reply (h : Follows p l) (line : List Char) (env : Exchange) {α : Type}
    (read : List Char → Except Err α) :
    Agree ((p.query line (l.query line env).2).1, (p.query line (l.query line env).2).2 >>= read)
      ((l.query line env).1, (l.query line env).2 >>= read) :=
  ⟨(h.query line env).1, by rw [(h.query line env).2]⟩

theorem sign (h : Follows p l) (data : Bytes) (env : Exchange) :
    Agree (p.sign data (l.query (SerialATECC608.signRequest data) env).2) (l.sign data env) := by
  unfold PortATECC608.sign SerialATECC608.sign
  rw [h.connected]
  by_cases hconnected : ¬ l.connected = true
  · rw [if_pos hconnected, if_pos hconnected]
    exact ⟨h, rfl⟩
  · rw [if_neg hconnected, if_neg hconnected]
    by_cases hdata : data.length ≠ 32
    · rw [if_pos hdata, if_pos hdata]
      exact ⟨h, rfl⟩
    · rw [if_neg hdata, if_neg hdata]
      exact h.reply _ env _

theorem getPublicKey (h : Follows p l) {PK : Type} (fromEncodedPoint : Bytes → Except Err PK)
    (env : Exchange) :
    Agree (p.getPublicKey fromEncodedPoint (l.query "PUBKEY".toList env).2)
      (l.getPublicKey fromEncodedPoint env) := by
  unfold PortATECC608.getPublicKey SerialATECC608.getPublicKey
  rw [h.connected]
  by_cases hconnected : ¬ l.connected = true
  · rw [if_pos hconnected, if_pos hconnected]
    exact ⟨h, rfl⟩
  · rw [if_neg hconnected, if_neg hconnected]
    exact h.reply _ env _

theorem genkey (h : Follows p l) (env : Exchange) :
    Agree (p.genkey (l.query "GENKEY".toList env).2) (l.genkey env) := by
  unfold PortATECC608.genkey SerialATECC608.genkey
  rw [h.connected]
  by_cases hconnected : ¬ l.connected = true
  · rw [if_pos hconnected, if_pos hconnected]
    exact ⟨h, rfl⟩
  · rw [if_neg hconnected, if_neg hconnected]
    have hquery := h.query "GENKEY".toList env
    revert hquery
    rcases p.query "GENKEY".toList (l.query "GENKEY".toList env).2 with ⟨p', resp⟩
    rcases l.query "GENKEY".toList env with ⟨l', resp'⟩
    rintro ⟨hfollows, rfl⟩
    cases resp with
    | error e => exact ⟨hfollows, rfl⟩
    | ok resp =>
      dsimp only
      split
      · exact ⟨hfollows, rfl⟩
      · exact ⟨hfollows, rfl⟩

theorem close (h : Follows p l) : Follows p.close l.close := ⟨h.port, rfl, rfl⟩

theorem connect (h : Follows p l) (hasSerial : Bool) (opened : Except Err Handle)
    (env : Exchange) :
    Agree (p.connect hasSerial (opening opened env)) (l.connect hasSerial opened env) := by
  unfold PortATECC608.connect SerialATECC608.connect
  by_cases hserial : ¬ hasSerial = true
  · rw [if_pos hserial, if_pos hserial]
    exact ⟨h, rfl⟩
  · rw [if_neg hserial, if_neg hserial]
    cases opened with
    | error e => exact ⟨h, rfl⟩
    | ok ser =>
      -- both queries read the reply that the line gives
      obtain ⟨resp, hresp⟩ : ∃ resp, resp = (ser.resetInputBuffer.query "PING".toList env).1 :=
        ⟨_, rfl⟩
      simp only [opening, Except.map, PortATECC608.query, SerialATECC608.query, ← hresp]
      by_cases hpong : resp ≠ "PONG".toList
      · rw [if_pos hpong, if_pos hpong]
        exact ⟨⟨h.port, rfl, h.connected⟩, by rw [h.port]⟩
      · rw [if_neg hpong, if_neg hpong]
        exact ⟨⟨h.port, rfl, rfl⟩, rfl⟩

end Follows

end PortATECC608

end BattLock
