import BattLock.Hardware.Network

/-!
# The two sketches never start a session

The battery answers an authentication request with its certificate, and waits for the request.
The vehicle sends the challenge, the result and the session id, each in answer to a frame of the
battery's handshake, and no request: between the two sketches only the battery's own
advertisement is ever under way (`Advertising`), and neither node gets past it.
-/

namespace BattLock.Hardware

/-- `ecdsaVerify` accepts under a public key what the holder of its private key signs, and
nothing else. -/
def IdealEcdsa (C : Crypto) (publicKey : Vector UInt8 65)
    (ecdsaSign : Vector UInt8 battlockNonceLen → Option (Vector UInt8 battlockSigLen)) : Prop :=
  ∀ message signature,
    C.ecdsaVerify message signature publicKey = true ↔ ecdsaSign message = some signature

namespace Network

section
variable (C : Crypto) (rootCaPublicKey : Vector UInt8 65) (batteryCert : BattLockCert)
  (ecdsaSign : Vector UInt8 battlockNonceLen → Option (Vector UInt8 battlockSigLen))

/-- Some run, all of whose challenges are the given nonce, takes each node to an active
session. -/
def SessionPossible (nonce : Vector UInt8 battlockNonceLen) : Prop :=
  ∃ actions : List Action,
    (∀ receives millis beyond, Action.vehicle receives millis beyond ∈ actions →
      Vehicle.nonceOf millis = nonce) ∧
    (∃ as, as <+: actions ∧
      ((machine C rootCaPublicKey batteryCert ecdsaSign).run {} as).battery.state =
        .activeSession) ∧
    ∃ as, as <+: actions ∧
      ((machine C rootCaPublicKey batteryCert ecdsaSign).run {} as).vehicle.state =
        .activeSession

/-! ## All reachable states -/

def advertisement : CanFrame := .ofBytes canIdAuthRequest Battery.batteryId

/-- The battery advertises, the vehicle has at most heard it, and nothing else is on the bus. -/
structure Advertising (n : Network) : Prop where
  battery : n.battery.state = .disconnected
  vehicle : n.vehicle.state = .disconnected ∨ n.vehicle.state = .helloReceived
  toBattery : n.toBattery = []
  toVehicle : ∀ f ∈ n.toVehicle, f = advertisement

theorem readMsgBuf_nil (receives : Bool) : readMsgBuf receives [] = (none, []) := by
  cases receives <;> rfl

theorem readMsgBuf_mem {receives : Bool} {queue rest : List CanFrame} {frame : Option CanFrame}
    (h : readMsgBuf receives queue = (frame, rest)) :
    (∀ f, frame = some f → f ∈ queue) ∧ ∀ f ∈ rest, f ∈ queue := by
  unfold readMsgBuf at h
  split at h
  · obtain ⟨rfl, rfl⟩ := Prod.mk.inj h
    exact ⟨fun f hf => List.mem_of_head? hf, fun f hf => List.mem_of_mem_tail hf⟩
  · obtain ⟨rfl, rfl⟩ := Prod.mk.inj h
    exact ⟨fun f hf => by simp at hf, fun f hf => hf⟩

theorem battery_loop_disconnected {b : Battery} (hb : b.state = .disconnected)
    {input : BatteryInput} (hf : input.frame = none) :
    b.loop batteryCert input = (b, canSend input.accept advertisement) := by
  simp [Battery.loop, hf, Battery.advertise, Battery.signChallenge, Battery.telemetry, hb,
    advertisement]

/-- To the vehicle an advertisement is an authentication request: it answers nothing. -/
theorem vehicle_loop_advertisement (v : Vehicle) (input : VehicleInput)
    (hf : ∀ f, input.frame = some f → f = advertisement) :
    Event.frames (v.loop C rootCaPublicKey input).2 = [] ∧
      ((v.loop C rootCaPublicKey input).1.state = v.state ∨
        (v.loop C rootCaPublicKey input).1.state = .helloReceived) := by
  unfold Vehicle.loop
  cases h : input.frame with
  | none => exact ⟨rfl, .inl rfl⟩
  | some f =>
    have hid : f.id = canIdAuthRequest := by rw [hf f h]; rfl
    have hstatus : canIdAuthRequest ≠ canIdBatteryStatus := by decide
    have hstatus' : canIdAuthRequest ≠ Vehicle.canIdBatteryStatusB := by decide
    simp only [hid, hstatus, hstatus', and_false, ↓reduceIte, Vehicle.dispatch]
    exact ⟨rfl, .inr trivial⟩

theorem advertising_step {n : Network} (h : Advertising n) (a : Action) :
    Advertising (step C rootCaPublicKey batteryCert ecdsaSign n a).1 := by
  obtain ⟨hb, hv, htb, htv⟩ := h
  cases a with
  | battery receives =>
    -- nothing is under way to the battery
    simp only [step, htb, readMsgBuf_nil, battery_loop_disconnected batteryCert hb]
    refine ⟨hb, hv, rfl, fun f hf => ?_⟩
    rcases List.mem_append.1 hf with hf | hf
    · exact htv f hf
    · exact List.mem_singleton.1 hf
  | vehicle receives millis beyond =>
    cases hr : readMsgBuf receives n.toVehicle with
    | mk frame toVehicle =>
      obtain ⟨hframe, hrest⟩ := readMsgBuf_mem hr
      have hloop := vehicle_loop_advertisement C rootCaPublicKey n.vehicle
        { frame, millis, accept := fun _ => true, beyond } fun f hf => htv f (hframe f hf)
      simp only [step, hr]
      refine ⟨hb, ?_, by simp [htb, hloop.1], fun f hf => htv f (hrest f hf)⟩
      rcases hloop.2 with hs | hs
      · simpa only [hs] using hv
      · exact .inr hs

theorem advertising_run (as : List Action) :
    Advertising ((machine C rootCaPublicKey batteryCert ecdsaSign).run {} as) :=
  Mealy.log_inv _ (P := fun _ n => Advertising n)
    ⟨rfl, .inl rfl, rfl, by simp⟩
    (fun _ _ a hn => advertising_step C rootCaPublicKey batteryCert ecdsaSign hn a) as

theorem not_active (as : List Action) :
    ((machine C rootCaPublicKey batteryCert ecdsaSign).run {} as).battery.state ≠
        .activeSession ∧
      ((machine C rootCaPublicKey batteryCert ecdsaSign).run {} as).vehicle.state ≠
        .activeSession := by
  obtain ⟨hb, hv, -, -⟩ := advertising_run C rootCaPublicKey batteryCert ecdsaSign as
  refine ⟨by simp [hb], ?_⟩
  rcases hv with hv | hv
  · simp [hv]
  · simp [hv]

/-- Whatever the certificate, the keys and the nonce, no run takes a node to a session. -/
theorem not_sessionPossible (nonce : Vector UInt8 battlockNonceLen) :
    ¬ SessionPossible C rootCaPublicKey batteryCert ecdsaSign nonce := by
  intro h
  obtain ⟨actions, -, ⟨as, -, hb⟩, -⟩ := h
  exact (not_active C rootCaPublicKey batteryCert ecdsaSign as).1 hb

end

/-! ## A certificate that verifies -/

/-- A signature is the message and half of the public key. -/
def taggedSignature (message : Vector UInt8 32) (publicKey : Vector UInt8 65) : Vector UInt8 64 :=
  message ++ CArray.sub publicKey 0 32

def taggingCrypto : Crypto where
  sha256 _ := Vector.replicate 32 0
  ecdsaVerify message signature publicKey := signature = taggedSignature message publicKey
  ecdsaVerifySlot _ _ _ := false

/-- The certificate of a battery whose public key is all ones, signed with the key of a root whose
public key is all twos. -/
def taggedCert : BattLockCert where
  batteryId := CArray.zeroExtend _ Battery.batteryId
  manufacturerId := Vector.replicate _ 0
  issueYear := 25
  issueMonth := 1
  issueDay := 1
  expiryYear := 30
  expiryMonth := 1
  expiryDay := 1
  publicKey := Vector.replicate _ 1
  signature := taggedSignature (Vector.replicate _ 0) (Vector.replicate _ 2)

def taggedSign (message : Vector UInt8 battlockNonceLen) : Option (Vector UInt8 battlockSigLen) :=
  some (taggedSignature message taggedCert.publicKey)

/-- A certificate that verifies, ideal signatures and a nonce with which no session is
possible. -/
theorem not_sessionPossible_tagged :
    verifyCertificate taggingCrypto (Vector.replicate 65 2) taggedCert = true ∧
      IdealEcdsa taggingCrypto taggedCert.publicKey taggedSign ∧
      ¬ SessionPossible taggingCrypto (Vector.replicate 65 2) taggedCert taggedSign
        (Vector.replicate _ 0) := by
  refine ⟨by decide, fun message signature => ?_, fun h => ?_⟩
  · constructor
    · intro hverify
      exact congrArg some (of_decide_eq_true hverify).symm
    · intro hsign
      exact decide_eq_true (Option.some.inj hsign).symm
  · obtain ⟨actions, -, ⟨as, -, hb⟩, -⟩ := h
    exact (not_active _ _ _ _ as).1 hb

end Network

end BattLock.Hardware
