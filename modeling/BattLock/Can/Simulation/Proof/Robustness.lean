import BattLock.Can.Proof.CertificateCodec
import BattLock.Can.Simulation.Proof.Authentication

/-!
# Which messages the vehicle handles

Only the status handler catches what its decoder raises. `Handles` says of a call which bytes and
which stored key it can take: text in UTF-8, a JSON object within the limits of the interpreter with
the members of a certificate (`Checkable`), and a key of the algorithm. `returned_iff` is one call
and `run_returned_iff` a whole run, which raises nowhere exactly if each of its calls is handled in
the state that the earlier ones leave.
-/

namespace BattLock

open Python

variable {SK PK : Type} (E : Ecdsa SK PK)

/-! ## Keys -/

/-- A key of the algorithm: it verifies a signature or refuses it. -/
def Ecdsa.Supports (publicKey : PK) : Prop :=
  ∀ signature data, E.verify publicKey signature data = .ok () ∨
    E.verify publicKey signature data = .error .invalidSignature

/-- A key of another algorithm raises something else, whatever it is given. -/
def Ecdsa.Uniform : Prop :=
  ∀ publicKey, E.Supports publicKey ∨
    ∀ signature data, ∃ e, e ≠ .invalidSignature ∧ E.verify publicKey signature data = .error e

variable {E}

theorem verifySignature_returns (hE : E.Uniform) {publicKey : PK} (message signature : Bytes) :
    (∃ b, verifySignature E publicKey message signature = .ok b) ↔ E.Supports publicKey := by
  constructor
  · rintro ⟨b, hb⟩
    refine (hE publicKey).resolve_right fun hraise => ?_
    obtain ⟨e, he, hverify⟩ := hraise signature message
    rw [verifySignature, hverify] at hb
    cases e <;> first | exact he rfl | cases hb
  · intro h
    rcases h signature message with hverify | hverify
    · exact ⟨true, by rw [verifySignature, hverify]⟩
    · exact ⟨false, by rw [verifySignature, hverify]⟩

/-! ## Certificates -/

/-- A JSON string without surrogates. -/
def IsText (v : Json) : Prop := ∃ s, v = .str s ∧ s.IsUnicode

/-- The members of a certificate that can be checked: the key and the signature are in base64, the
expiry date is a date, and if it has not passed the other fields are text. -/
structure Checkable (members : List (Str × Json)) (now : Datetime) : Prop where
  publicKey : ∃ s, Json.LastMember members "public_key" (.str s) ∧ Base64.Decodable s
  signature : ∃ s, Json.LastMember members "signature" (.str s) ∧ Base64.Decodable s
  fields : ∃ batteryId manufacturerId issueDate expiryDate expiry,
    Json.LastMember members "battery_id" batteryId ∧
    Json.LastMember members "manufacturer_id" manufacturerId ∧
    Json.LastMember members "issue_date" issueDate ∧
    Json.LastMember members "expiry_date" (.str expiryDate) ∧
    Datetime.DateText expiryDate expiry ∧
    (expiry.lt now = false → IsText batteryId ∧ IsText manufacturerId ∧ IsText issueDate)

theorem encode_returns (v : Json) : (∃ data, PyText.encode v = .ok data) ↔ IsText v := by
  constructor
  · rintro ⟨data, h⟩
    cases v with
    | str s => exact ⟨s, rfl, Str.isUnicode_of_encode h⟩
    | _ => cases h
  · rintro ⟨s, rfl, hs⟩
    exact Str.exists_encode hs

theorem strptime_json_iff {v : Json} {t : Datetime} :
    PyText.strptime v = .ok t ↔ ∃ s, v = .str s ∧ Datetime.DateText s t := by
  constructor
  · intro h
    cases v with
    | str s => exact ⟨s, rfl, Datetime.strptime_iff.1 h⟩
    | _ => cases h
  · rintro ⟨s, rfl, hs⟩
    exact Datetime.strptime_iff.2 hs

/-- The bytes of a certificate can be put together if its four text fields are text. -/
theorem certificateData_returns (c : Certificate Json) : (∃ data, certificateData c = .ok data) ↔
    IsText c.batteryId ∧ IsText c.manufacturerId ∧ IsText c.issueDate ∧ IsText c.expiryDate := by
  simp only [certificateData, bind_eq_ok, pure_eq_ok, Except.ok.injEq, ← encode_returns]
  constructor
  · rintro ⟨_, b, hb, m, hm, i, hi, e, he, -⟩
    exact ⟨⟨b, hb⟩, ⟨m, hm⟩, ⟨i, hi⟩, ⟨e, he⟩⟩
  · rintro ⟨⟨b, hb⟩, ⟨m, hm⟩, ⟨i, hi⟩, ⟨e, he⟩⟩
    exact ⟨_, b, hb, m, hm, i, hi, e, he, rfl⟩

theorem verifyCertificate_returns (hE : E.Uniform) {root : PK} (hroot : E.Supports root)
    (c : Certificate Json) (now : Datetime) :
    (∃ b, verifyCertificate E c root now = .ok b) ↔
      ∃ expiry, PyText.strptime c.expiryDate = .ok expiry ∧
        (expiry.lt now = false → ∃ data, certificateData c = .ok data) := by
  rw [verifyCertificate, isCertificateExpired]
  cases hexpiry : PyText.strptime c.expiryDate with
  | error e => simp
  | ok expiry =>
    cases hlt : expiry.lt now with
    | true => simp [hlt]
    | false =>
      cases hdata : certificateData c with
      | error e => simp [hlt]
      | ok data =>
        have hverify := (verifySignature_returns hE data c.signature).2 hroot
        simpa [hlt] using hverify

/-- **Which certificates are checked**, in terms of their members. -/
theorem checkable_iff (hE : E.Uniform) {root : PK} (hroot : E.Supports root)
    (members : List (Str × Json)) (now : Datetime) :
    (∃ c, Certificate.InMembers c members ∧ ∃ b, verifyCertificate E c root now = .ok b) ↔
      Checkable members now := by
  simp only [verifyCertificate_returns hE hroot, certificateData_returns, strptime_json_iff]
  constructor
  · rintro ⟨c, hc, expiry, ⟨s, hs, hdate⟩, hdata⟩
    obtain ⟨keyText, hkeyText, hkey⟩ := hc.publicKey
    obtain ⟨signatureText, hsignatureText, hsignature⟩ := hc.signature
    refine ⟨⟨keyText, hkeyText, Base64.b64decode_returns.1 ⟨_, hkey⟩⟩,
      ⟨signatureText, hsignatureText, Base64.b64decode_returns.1 ⟨_, hsignature⟩⟩, ?_⟩
    refine ⟨_, _, _, s, expiry, hc.batteryId, hc.manufacturerId, hc.issueDate, hs ▸ hc.expiryDate,
      hdate, fun hvalid => ?_⟩
    obtain ⟨hbattery, hmanufacturer, hissue, -⟩ := hdata hvalid
    exact ⟨hbattery, hmanufacturer, hissue⟩
  · rintro ⟨⟨keyText, hkeyText, hkey⟩, ⟨signatureText, hsignatureText, hsignature⟩, batteryId,
      manufacturerId, issueDate, s, expiry, hbattery, hmanufacturer, hissue, hs, hdate, htext⟩
    obtain ⟨publicKey, hpublicKey⟩ := Base64.b64decode_returns.2 hkey
    obtain ⟨signature, hsignature⟩ := Base64.b64decode_returns.2 hsignature
    refine ⟨⟨batteryId, manufacturerId, publicKey, issueDate, .str s, signature⟩,
      ⟨hbattery, hmanufacturer, ⟨keyText, hkeyText, hpublicKey⟩, hissue, hs,
        ⟨signatureText, hsignatureText, hsignature⟩⟩, expiry, ⟨s, rfl, hdate⟩, fun hvalid => ?_⟩
    obtain ⟨hbattery, hmanufacturer, hissue⟩ := htext hvalid
    exact ⟨hbattery, hmanufacturer, hissue, s, rfl, hdate.isUnicode⟩

namespace VehicleNode

/-! ## One call -/

/-- The call did not raise. -/
def Outcome.Returned : Outcome → Prop
  | .report r => ∃ report, r = .ok report
  | .verdict r => ∃ b, r = .ok b
  | .sent _ => True

section
variable [Interpreter]

variable (E) in
/-- What a call needs in order to return. -/
def Handles (self : VehicleNode PK) : Call → Prop
  | .receive m =>
    m.arbitrationId = 0x100 ∨ m.arbitrationId = CanId.sessionId →
      ∃ text, m.data = encodeChars text
  | .receiveAndVerifyCertificate m now =>
    ∃ text members, m.data = encodeChars text ∧ Json.Text text (.object members) ∧
      Checkable members now
  | .sendNonce _ _ => True
  | .receiveAndVerifySignature _ =>
    ∀ c challenge, self.storedCertificate = some c → self.challengeData = some challenge →
      ∃ publicKey, E.loadPemPublicKey c.publicKey = .ok publicKey ∧ E.Supports publicKey

theorem receive_returns (self : VehicleNode PK) (m : CANMessage) :
    (∃ r, (self.receive m).2 = .ok r) ↔ Handles E self (.receive m) := by
  have hdecode : (∃ s, decode m.data = .ok s) ↔ ∃ text, m.data = encodeChars text := by
    simp [decode, bind_eq_ok, decodeChars_iff]
  rw [Handles, ← hdecode, receive]
  by_cases hid : m.arbitrationId = 0x100
  · simp [hid, decodeBatteryId, bind_eq_ok]
  by_cases hstatus : m.arbitrationId = CanId.batteryStatus
  · rw [if_neg hid, if_pos hstatus, hstatus]
    exact iff_of_true ⟨_, rfl⟩ fun h => absurd h (by decide)
  by_cases hsession : m.arbitrationId = CanId.sessionId
  · rw [if_neg hid, if_neg hstatus, if_pos hsession, handleSessionId]
    cases hdecode : decode m.data with
    | error e => simp [hsession]
    | ok s =>
      dsimp only
      split
      · simp
      · simp
  · simp [hid, hstatus, hsession]

theorem receiveAndVerifyCertificate_returns (hE : E.Uniform) {root : PK} (hroot : E.Supports root)
    {self : VehicleNode PK} (hself : self.rootCaPublicKey = some root) (m : CANMessage)
    (now : Datetime) : (∃ b, (self.receiveAndVerifyCertificate E m now).2 = .ok b) ↔
      Handles E self (.receiveAndVerifyCertificate m now) := by
  have hverify : (∃ b, (self.receiveAndVerifyCertificate E m now).2 = .ok b) ↔
      ∃ c, decodeCertificate m = .ok c ∧ ∃ b, verifyCertificate E c root now = .ok b := by
    rw [receiveAndVerifyCertificate]
    cases hdecode : decodeCertificate m with
    | error e => simp
    | ok c => simp [hself]
  simp only [hverify, Handles, ← checkable_iff hE hroot, decodeCertificate_iff]
  constructor
  · rintro ⟨c, ⟨text, members, hdata, htext, hc⟩, hb⟩
    exact ⟨text, members, hdata, htext, c, hc, hb⟩
  · rintro ⟨text, members, hdata, htext, c, hc, hb⟩
    exact ⟨c, ⟨text, members, hdata, htext, hc⟩, hb⟩

theorem receiveAndVerifySignature_returns (hE : E.Uniform) (self : VehicleNode PK)
    (m : CANMessage) : (∃ b, self.receiveAndVerifySignature E m = .ok b) ↔
      Handles E self (.receiveAndVerifySignature m) := by
  rw [receiveAndVerifySignature, Handles]
  cases hcert : self.storedCertificate with
  | none => simp
  | some c =>
    cases hchallenge : self.challengeData with
    | none => simp
    | some challenge =>
      simp only [bind_eq_ok, Option.some.injEq]
      constructor
      · rintro ⟨b, publicKey, hkey, hb⟩ c' challenge' rfl rfl
        exact ⟨publicKey, hkey, (verifySignature_returns hE _ _).1 ⟨b, hb⟩⟩
      · intro h
        obtain ⟨publicKey, hkey, hsupports⟩ := h c challenge rfl rfl
        obtain ⟨b, hb⟩ := (verifySignature_returns hE challenge (decodeSignature m)).2 hsupports
        exact ⟨b, publicKey, hkey, hb⟩

/-- **One call**: it returns exactly if it is handled. -/
theorem returned_iff (hE : E.Uniform) {root : PK} (hroot : E.Supports root)
    {self : VehicleNode PK} (hself : self.rootCaPublicKey = some root) (call : Call) :
    ((machine E).step self call).2.Returned ↔ Handles E self call := by
  cases call with
  | receive m => exact receive_returns self m
  | receiveAndVerifyCertificate m now =>
    exact receiveAndVerifyCertificate_returns hE hroot hself m now
  | sendNonce nonce timestamp => exact iff_of_true trivial trivial
  | receiveAndVerifySignature m => exact receiveAndVerifySignature_returns hE self m

/-! ## A run -/

theorem step_rootCaPublicKey (self : VehicleNode PK) (call : Call) :
    ((machine E).step self call).1.rootCaPublicKey = self.rootCaPublicKey := by
  cases call with
  | receive m => exact (receive_keeps self m).2.1
  | receiveAndVerifyCertificate m now =>
    change (self.receiveAndVerifyCertificate E m now).1.rootCaPublicKey = _
    rw [receiveAndVerifyCertificate]
    split
    · rfl
    · rfl
  | sendNonce nonce timestamp => rfl
  | receiveAndVerifySignature m => rfl

theorem run_rootCaPublicKey (self : VehicleNode PK) (calls : List Call) :
    ((machine E).run self calls).rootCaPublicKey = self.rootCaPublicKey := by
  induction calls generalizing self with
  | nil => rfl
  | cons call calls ih => rw [Mealy.run_cons, ih, step_rootCaPublicKey]

/-- Every call of a run returns. -/
def AllReturned (E : Ecdsa SK PK) (self : VehicleNode PK) (calls : List Call) : Prop :=
  ∀ call outcome, (call, outcome) ∈ (machine E).log self calls → outcome.Returned

/-- **When the vehicle never raises**: every call of a run returns if and only if each is handled
in the state that the calls before it leave. -/
theorem run_returned_iff (hE : E.Uniform) (root : PK) (hroot : E.Supports root)
    (self : VehicleNode PK) (hself : self.rootCaPublicKey = some root) (calls : List Call) :
    AllReturned E self calls ↔
      ∀ earlier call, earlier ++ [call] <+: calls →
        Handles E ((machine E).run self earlier) call := by
  have hstep : ∀ earlier call, ((machine E).step ((machine E).run self earlier) call).2.Returned ↔
      Handles E ((machine E).run self earlier) call := by
    intro earlier call
    exact returned_iff hE hroot (by rw [run_rootCaPublicKey, hself]) call
  constructor
  · rintro h earlier call ⟨later, rfl⟩
    refine (hstep earlier call).1 (h call _ ?_)
    exact (Mealy.mem_log _).2 ⟨earlier, later, by simp, rfl⟩
  · intro h call outcome hmem
    obtain ⟨earlier, later, rfl, rfl⟩ := (Mealy.mem_log _).1 hmem
    exact (hstep earlier call).2 (h earlier call ⟨later, by simp⟩)

end

theorem handles_encodeCertificate [Interpreter] {c : Certificate Str} (hc : c.IsUnicode)
    {expiry : Datetime} (hdate : Datetime.DateText c.expiryDate expiry) (self : VehicleNode PK)
    (now : Datetime) :
    Handles E self (.receiveAndVerifyCertificate (encodeCertificate c) now) := by
  have hlast : ∀ {members : List (Str × Json)} {key : String} {v : Json},
      (Json.object members).getItem key = .ok v → Json.LastMember members key v := by
    intro members key v h
    obtain ⟨_, heq, hlast⟩ := Json.getItem_iff.1 h
    cases heq
    exact hlast
  have hbase64 : ∀ data, Base64.Decodable (Str.ofChars (Base64.b64encode data)) := fun data =>
    Base64.b64decode_returns.1 ⟨data, Base64.b64decode_b64encode data⟩
  have htext : Json.Text (certificateJson c).dumps (certificateJson c) :=
    Json.loads_iff.1 (Json.loads_of_value (value_certificateJson hc))
  refine ⟨_, _, rfl, htext, ⟨_, hlast rfl, hbase64 _⟩, ⟨_, hlast rfl, hbase64 _⟩, _, _, _, _,
    expiry, hlast rfl, hlast rfl, hlast rfl, hlast rfl, hdate, fun _ => ?_⟩
  exact ⟨⟨_, rfl, hc.batteryId⟩, ⟨_, rfl, hc.manufacturerId⟩, ⟨_, rfl, hc.issueDate⟩⟩

theorem plainEcdsa_supports (publicKey : UInt8) : plainEcdsa.Supports publicKey := by
  intro signature data
  simp only [plainEcdsa]
  split
  · exact .inl rfl
  · exact .inr rfl

open CPython in
/-- A challenge, a certificate that is refused, a signature with the key in it, and a frame that no
method handles. -/
theorem run_returned_refused : AllReturned plainEcdsa (init (some 8))
    (signatureAfter (encodeCertificate teslaCertificate) ++ [.receive ⟨0x123, [0xFF]⟩]) := by
  have hunicode : teslaCertificate.IsUnicode := ⟨Str.isUnicode_ofChars _, Str.isUnicode_ofChars _,
    Str.isUnicode_ofChars _, Str.isUnicode_ofChars _⟩
  have hdate : Datetime.DateText teslaCertificate.expiryDate ⟨2031, 1, 1, 0⟩ :=
    Datetime.strptime_iff.1 (by decide +kernel)
  refine (run_returned_iff (fun pk => .inl (plainEcdsa_supports pk)) 8 (plainEcdsa_supports 8)
    (init (some 8)) rfl _).2 ?_
  simp only [signatureAfter, List.cons_append, List.nil_append, Mealy.forall_prefix_cons]
  refine ⟨handles_encodeCertificate hunicode hdate _ _, trivial, ?_,
    fun hid => absurd hid (by decide), fun earlier call h => by simp at h⟩
  -- the key is in the certificate that was stored
  intro c challenge hc _
  have hdecode : decodeCertificate (encodeCertificate teslaCertificate) =
      .ok teslaCertificate.decoded := decodeCertificate_ok hunicode _
  simp only [Mealy.run_cons, Mealy.run_nil, machine, receiveAndVerifyCertificate, hdecode,
    sendNonce, Option.some.injEq] at hc
  rw [← hc]
  exact ⟨9, rfl, plainEcdsa_supports 9⟩

open CPython in
/-- A battery id that is not UTF-8, and an empty certificate frame. -/
theorem run_raises :
    ((init (some 7) : VehicleNode UInt8).receive ⟨0x100, [0xFF]⟩).2 =
        .error .unicodeDecodeError ∧
      ((init (some 7) : VehicleNode UInt8).receiveAndVerifyCertificate plainEcdsa ⟨0x104, []⟩
        ⟨2026, 6, 1, 0⟩).2 = .error .jsonDecodeError := by
  decide +kernel

end VehicleNode

end BattLock
