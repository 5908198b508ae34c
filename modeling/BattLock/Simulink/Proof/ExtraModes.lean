import BattLock.Can.Proof.StatusCodec
import BattLock.Crypto.Proof.Lifetime
import BattLock.Simulation.Proof.Refinement
import BattLock.Simulink.ExtraModes
import BattLock.Simulink.Proof.Tables

/-!
# The table with the Python attacks

The rows of the six attacks do not depend on keys, draws or clocks, except for the verdicts on the
forged certificates (`generateExtraModes_ok`): the delayed messages count as replays because the
vehicle's replay protection is asked about each of them twice (`delayRows_ok`). No row carries a
signature. So `verifyAll` finds its model wrong in every one of these modes but the last, whatever
Simulink recorded (`extra_table`).
-/

namespace BattLock

open Python CertificateTamperingAttack

/-- Whole numbers of the size of a row's come back from the file. -/
theorem pyInt_ofInt {n : Int} (h : n.natAbs < 2 ^ 53) : pyInt (Ieee.ofInt n) = .ok n := by
  rw [pyInt, Ieee.val_ofInt h]
  show Except.ok (Int.tdiv (n : ℚ).num ((n : ℚ).den : ℤ)) = _
  rw [Rat.num_intCast, Rat.den_intCast, Int.natCast_one, Int.tdiv_one]

namespace ExtraModes

/-! ## Rows as they are read -/

/-- The whole numbers of a row, in the columns that are read. -/
def Row.integers (row : Row) : List Int :=
  [row.mode, row.nonce, row.signature, row.counter, row.modelAuth, row.modelReplay,
    row.modelInjection]

def Row.reading (row : Row) : Reading where
  mode := row.mode
  time := row.time
  nonce := row.nonce
  signature := row.signature
  counter := row.counter
  voltage := row.voltage
  modelAuth := row.modelAuth
  modelReplay := row.modelReplay
  modelInjection := row.modelInjection
  modelSoc := Ieee.ofInt row.modelSoc

/-- **A row is read as it was written.** -/
theorem Row.read_cells {row : Row} (h : ∀ n ∈ row.integers, n.natAbs < 2 ^ 53) :
    row.cells.read = .ok row.reading := by
  simp only [integers, List.forall_mem_cons] at h
  obtain ⟨hmode, hnonce, hsignature, hcounter, hauth, hreplay, hinjection, -⟩ := h
  simp only [FrameRow.read, cells, ok_bind, pyInt_ofInt hmode, pyInt_ofInt hnonce,
    pyInt_ofInt hsignature, pyInt_ofInt hcounter, pyInt_ofInt hauth, pyInt_ofInt hreplay,
    pyInt_ofInt hinjection]
  rfl

theorem mapM_read_cells {rows : List Row}
    (h : ∀ row ∈ rows, ∀ n ∈ row.integers, n.natAbs < 2 ^ 53) :
    (rows.map Row.cells).mapM FrameRow.read = .ok (rows.map Row.reading) := by
  rw [mapM_eq_ok, List.forall₂_map_left_iff, List.forall₂_map_right_iff, List.forall₂_same]
  exact fun row hrow => Row.read_cells (h row hrow)

/-! ## The loops -/

section
variable {SK PK : Type} {E : Ecdsa SK PK}

theorem le_lastCounter_receive (v : VehicleNode PK) {m : CANMessage} {status : BatteryStatus}
    (hid : m.arbitrationId = CanId.batteryStatus) (hstatus : decodeStatus m = .ok status) :
    status.counter ≤ (v.receive m).1.replay.lastCounter := by
  rw [VehicleNode.receive_lastCounter, VehicleNode.statusCounter_eq_some.2 ⟨hid, _, hstatus, rfl⟩]
  exact le_max_right _ _

/-- Every delayed status is a replay by the time its row is made. -/
theorem delayRows_ok {v : VehicleNode PK} {messages : List (PyFloat × CANMessage)}
    {rows : List Row} (hid : ∀ p ∈ messages, p.2.arbitrationId = CanId.batteryStatus)
    (h : delayRows v messages = .ok rows) :
    List.Forall₂ (fun p row => ∃ status, decodeStatus p.2 = .ok status ∧
      row = statusToRow 7 p.1 0 0 status 5 1 1 0 0) messages rows := by
  induction messages generalizing v rows with
  | nil =>
    cases h
    exact .nil
  | cons p messages ih =>
    rw [List.forall_mem_cons] at hid
    simp only [delayRows, bind_eq_ok] at h
    obtain ⟨_, -, status, hstatus, rest, hrest, h⟩ := h
    cases h
    have hreplay : ((v.receive p.2).1.replay.validate status.counter).2 = false := by
      rw [ReplayProtection.validate, if_pos (le_lastCounter_receive v hid.1 hstatus)]
    refine .cons ⟨status, hstatus, ?_⟩ (ih hid.2 hrest)
    rw [hreplay]
    rfl

theorem fuzzRows_ok {v : VehicleNode PK} {frames : List (PyFloat × CANMessage)}
    {result : VehicleNode PK × List Row} (h : fuzzRows v frames = .ok result) :
    result.2 = frames.map fun p => plainRow 8 p.1 0 0 0 0 0 := by
  induction frames generalizing v result with
  | nil =>
    cases h
    rfl
  | cons p frames ih =>
    simp only [fuzzRows, bind_eq_ok] at h
    obtain ⟨_, -, rest, hrest, h⟩ := h
    cases h
    rw [List.map_cons, ← ih hrest]

theorem certificateRows_ok [Interpreter] {rootKey : PK} {node : BatteryNode Unit}
    {v : VehicleNode PK} {certs : List (PyFloat × (Datetime × Datetime) × Certificate Str)}
    {rows : List Row}
    (h : certificateRows E rootKey node v certs = .ok rows) :
    List.Forall₂ (fun p row => ∃ ok, verifyCertificate E p.2.2 rootKey p.2.1.1 = .ok ok ∧
      row = plainRow 11 p.1 2 (if ok then 1 else 0) 0 0 0) certs rows := by
  induction certs generalizing v rows with
  | nil =>
    cases h
    exact .nil
  | cons p certs ih =>
    simp only [certificateRows, bind_eq_ok] at h
    obtain ⟨ok, hok, _, -, rest, hrest, h⟩ := h
    cases h
    exact .cons ⟨ok, hok, rfl⟩ (ih hrest)

/-- The rows are made as soon as the certificates can be sent and their verifications return. -/
theorem certificateRows_returns [Interpreter] {rootKey : PK} {node : BatteryNode Unit}
    {v : VehicleNode PK} (hroot : v.rootCaPublicKey = some rootKey)
    {certs : List (PyFloat × (Datetime × Datetime) × Certificate Str)}
    (h : ∀ p ∈ certs, p.2.2.IsUnicode ∧
      (∃ ok, verifyCertificate E p.2.2 rootKey p.2.1.1 = .ok ok) ∧
      ∃ ok, verifyCertificate E p.2.2 rootKey p.2.1.2 = .ok ok) :
    ∃ rows, certificateRows E rootKey node v certs = .ok rows := by
  induction certs generalizing v with
  | nil => exact ⟨[], rfl⟩
  | cons p certs ih =>
    obtain ⟨t, ⟨now, now'⟩, cert⟩ := p
    rw [List.forall_mem_cons] at h
    obtain ⟨⟨hunicode, ⟨ok, hok⟩, ok', hok'⟩, hcerts⟩ := h
    have hreceived := Simulation.receiveAndVerifyCertificate_sent (E := E) hroot hunicode now'
    obtain ⟨rows, hrows⟩ := ih (v := { v with storedCertificate := some cert.decoded }) hroot hcerts
    refine ⟨plainRow 11 t 2 (if ok then 1 else 0) 0 0 0 :: rows, ?_⟩
    rw [certificateRows, hok, ok_bind, BatteryNode.sendCertificate, hreceived]
    show (verifyCertificate E cert rootKey now' >>= fun _ =>
      certificateRows E rootKey node _ certs >>= _) = _
    rw [hok', ok_bind, hrows]
    rfl

/-! ## The rows of the modes -/

/-- What the vehicle reads of the battery's voltage. -/
def receivedVoltage : PyFloat := .ofBits 0x40499999A0000000

theorem round32_voltage (counter : Int) :
    Ieee.round32 (BatteryNode.status counter).voltage = receivedVoltage := by
  dsimp only [BatteryNode.status]
  decide +kernel

theorem statusToRow_rounded {status : BatteryStatus} {voltage : PyFloat}
    (hvoltage : Ieee.round32 status.voltage = voltage) (mode : Int) (time : PyFloat)
    (modelState modelAuth modelReplay modelInjection modelSoc : Int) :
    statusToRow mode time 0 0 status.rounded modelState modelAuth modelReplay modelInjection
        modelSoc =
      ⟨mode, time, 0, 0, status.counter, voltage, modelState, modelAuth, modelReplay,
        modelInjection, modelSoc⟩ := by
  rw [← hvoltage]
  rfl

theorem mode6Mitm_ok {keys : Keys SK} {rows : List Row} (h : mode6Mitm E keys = .ok rows) :
    rows = [⟨6, time00, 0, 0, 1, receivedVoltage, 5, 1, 0, 0, 85⟩,
      ⟨6, time10, 0, 0, 1, .ofBits 0x4058400000000000, 5, 1, 0, 1, 0⟩] := by
  simp only [mode6Mitm, bind_eq_ok] at h
  obtain ⟨_, -, valid, hvalid, -, -, status, hstatus, tampered, htampered, status', hstatus', h⟩ :=
    h
  obtain ⟨-, -, hdecode⟩ := encodeStatus_ok (s := BatteryNode.status 1) hvalid
  obtain rfl := Except.ok.inj (hdecode.symm.trans hstatus)
  simp only [MitMAttack.intercept, MitMAttack.modify, bind_eq_ok] at htampered
  obtain ⟨_, hcaptured, htampered⟩ := htampered
  obtain rfl := Except.ok.inj (hdecode.symm.trans hcaptured)
  obtain ⟨-, -, hdecode'⟩ := encodeStatus_ok htampered
  obtain rfl := Except.ok.inj (hdecode'.symm.trans hstatus')
  cases h
  rw [statusToRow_rounded (round32_voltage 1), statusToRow_rounded]
  · rfl
  · decide +kernel

theorem mode7Delay_ok {keys : Keys SK} {rows : List Row} (h : mode7Delay E keys = .ok rows) :
    rows = [⟨7, time00, 0, 0, 2, receivedVoltage, 5, 1, 1, 0, 0⟩,
      ⟨7, time10, 0, 0, 1, receivedVoltage, 5, 1, 1, 0, 0⟩] := by
  simp only [mode7Delay, bind_eq_ok] at h
  obtain ⟨_, -, m1, hm1, m2, hm2, h⟩ := h
  obtain ⟨hid1, -, hdecode1⟩ := encodeStatus_ok (s := BatteryNode.status 1) hm1
  obtain ⟨hid2, -, hdecode2⟩ := encodeStatus_ok (s := BatteryNode.status 2) hm2
  change delayRows _ [(time00, m2), (time10, m1)] = _ at h
  have hrows := delayRows_ok (by simp [hid1, hid2]) h
  cases hrows with
  | cons hfirst hrest =>
    cases hrest with
    | cons hsecond hrest =>
      cases hrest
      obtain ⟨_, hstatus2, rfl⟩ := hfirst
      obtain ⟨_, hstatus1, rfl⟩ := hsecond
      obtain rfl := Except.ok.inj (hdecode2.symm.trans hstatus2)
      obtain rfl := Except.ok.inj (hdecode1.symm.trans hstatus1)
      rw [statusToRow_rounded (round32_voltage 1), statusToRow_rounded (round32_voltage 2)]
      rfl

theorem mode8Fuzzing_ok {keys : Keys SK} {draws : Fin 3 → FuzzingAttack.Draw}
    {operation : FuzzingAttack.Operation} {rows : List Row}
    (h : mode8Fuzzing E keys draws operation = .ok rows) :
    rows = [plainRow 8 time00 0 0 0 0 0, plainRow 8 time05 0 0 0 0 0,
      plainRow 8 time10 0 0 0 0 0, plainRow 8 time15 5 0 0 1 0] := by
  simp only [mode8Fuzzing, bind_eq_ok] at h
  obtain ⟨_, -, flooded, hflooded, -, -, -, -, h⟩ := h
  cases h
  rw [fuzzRows_ok hflooded]
  rfl

theorem mode9SessionHijack_ok [Interpreter] {keys : Keys SK} {handshake : Handshake}
    {rows : List Row} (h : mode9SessionHijack E keys handshake = .ok rows) :
    rows = [plainRow 9 time00 5 1 0 0 85, plainRow 9 time10 5 1 1 0 0] := by
  simp only [mode9SessionHijack, bind_eq_ok] at h
  obtain ⟨-, -, -, -, -, -, -, -, -, -, -, -, -, -, -, -, h⟩ := h
  cases h
  rfl

theorem mode10Evasion_ok {keys : Keys SK} {rows : List Row}
    (h : mode10Evasion E keys = .ok rows) :
    rows = [⟨10, time00, 0, 0, 1, .ofBits 0x4058C00000000000, 5, 1, 0, 1, 0⟩,
      ⟨10, time10, 0, 0, 2, receivedVoltage, 5, 1, 0, 1, 0⟩] := by
  simp only [mode10Evasion, bind_eq_ok] at h
  obtain ⟨-, -, msg1, hmsg1, _, -, status1, hstatus1, msg2, hmsg2, -, -, status2, hstatus2, h⟩ := h
  obtain ⟨-, -, hdecode1⟩ := encodeStatus_ok hmsg1
  obtain ⟨-, -, hdecode2⟩ := encodeStatus_ok hmsg2
  obtain rfl := Except.ok.inj (hdecode1.symm.trans hstatus1)
  obtain rfl := Except.ok.inj (hdecode2.symm.trans hstatus2)
  cases h
  rw [statusToRow_rounded, statusToRow_rounded]
  · rfl
  · exact round32_voltage 2
  · decide +kernel

/-- One of the forged certificates is accepted under the key of the Root CA. -/
def ForgeryVerifies (E : Ecdsa SK PK) (supply : Supply SK) : Prop :=
  ∃ battery priv pub rootCa validCert certs,
    batteryAndCert E supply.tamperingKeys = .ok (battery, priv, pub, rootCa, validCert) ∧
      forgedCertificates E rootCa (serializePublicKey E pub) validCert supply.forging =
        .ok certs ∧
      ∃ p ∈ (List.ofFn supply.nows).zip certs,
        verifyCertificate E p.2 rootCa.publicKey p.1.1 = .ok true

/-- The row of a certificate, with the verdict on it. -/
def certificateRow (time : PyFloat) (ok : Bool) : Row :=
  plainRow 11 time 2 (if ok then 1 else 0) 0 0 0

theorem mode11CertificateTampering_ok [Interpreter] {supply : Supply SK} {rows : List Row}
    (h : mode11CertificateTampering E supply.tamperingKeys supply.forging supply.nows = .ok rows) :
    ∃ ok₁ ok₂ ok₃, rows =
        [certificateRow time00 ok₁, certificateRow time10 ok₂, certificateRow time20 ok₃] ∧
      (ForgeryVerifies E supply ↔ (ok₁ || ok₂ || ok₃) = true) := by
  simp only [mode11CertificateTampering, bind_eq_ok] at h
  obtain ⟨⟨battery, priv, pub, rootCa, validCert⟩, hbattery, certs, hcerts, h⟩ := h
  obtain ⟨expired, rogue, tampered, rfl⟩ : ∃ expired rogue tampered,
      certs = [expired, rogue, tampered] := by
    simp only [forgedCertificates, bind_eq_ok] at hcerts
    obtain ⟨expired, -, rogue, -, hcerts⟩ := hcerts
    exact ⟨expired, rogue, _, (Except.ok.inj hcerts).symm⟩
  have hrows := certificateRows_ok h
  cases hrows with
  | cons h₁ hrows =>
    cases hrows with
    | cons h₂ hrows =>
      cases hrows with
      | cons h₃ hrows =>
        cases hrows
        obtain ⟨ok₁, hok₁, rfl⟩ := h₁
        obtain ⟨ok₂, hok₂, rfl⟩ := h₂
        obtain ⟨ok₃, hok₃, rfl⟩ := h₃
        refine ⟨ok₁, ok₂, ok₃, rfl, ?_⟩
        have hforgery : ForgeryVerifies E supply ↔
            ∃ p ∈ (List.ofFn supply.nows).zip [expired, rogue, tampered],
              verifyCertificate E p.2 rootCa.publicKey p.1.1 = .ok true := by
          constructor
          · rintro ⟨_, _, _, _, _, _, hbattery', hcerts', hp⟩
            cases hbattery.symm.trans hbattery'
            cases hcerts.symm.trans hcerts'
            exact hp
          · exact fun hp => ⟨_, _, _, _, _, _, hbattery, hcerts, hp⟩
        change verifyCertificate E expired rootCa.publicKey (supply.nows 0).1 = _ at hok₁
        change verifyCertificate E rogue rootCa.publicKey (supply.nows 1).1 = _ at hok₂
        change verifyCertificate E tampered rootCa.publicKey (supply.nows 2).1 = _ at hok₃
        rw [hforgery]
        show (∃ p ∈ [(supply.nows 0, expired), (supply.nows 1, rogue),
          (supply.nows 2, tampered)], _) ↔ _
        simp [hok₁, hok₂, hok₃, or_assoc]

/-- The scheme is ideal for the Root CA's key and verifies no signature of the rogue one under it,
and the clock does not go back before the expired certificate is looked at. -/
structure Sound (E : Ecdsa SK PK) (supply : Supply SK) : Prop where
  ideal : E.Ideal supply.tamperingKeys.root
  separate : ∀ data entropy data', E.verify (E.publicKey supply.tamperingKeys.root)
    (E.sign supply.forging.rogueKey data entropy) data' ≠ .ok ()
  utcnow : supply.forging.utcnow.Valid
  utcnow' : supply.forging.utcnow'.Valid
  now : (supply.nows 0).1.Valid
  later : supply.forging.utcnow.stamp ≤ (supply.nows 0).1.stamp

theorem certificateData_evil {c : Certificate Str} (hid : c.batteryId = Str.ofString "BAT001")
    {data : Bytes} (hdata : certificateData c = .ok data) :
    certificateData (Change.apply c ⟨.batteryId, Str.ofString "BAT_EVIL"⟩) ≠ .ok data := by
  intro hevil
  simp only [certificateData, bind_eq_ok] at hdata hevil
  obtain ⟨b, hb, m, hm, i, hi, e, he, hdata⟩ := hdata
  obtain ⟨b', hb', m', hm', i', hi', e', he', hevil⟩ := hevil
  rw [hid] at hb
  have h6 : PyText.encode (Str.ofString "BAT001") = .ok [66, 65, 84, 48, 48, 49] := by
    decide +kernel
  have h8 : PyText.encode (Str.ofString "BAT_EVIL") = .ok [66, 65, 84, 95, 69, 86, 73, 76] := by
    decide +kernel
  cases h6.symm.trans hb
  cases h8.symm.trans hb'
  have heq := (Except.ok.inj hevil).trans (Except.ok.inj hdata).symm
  -- the fourth byte differs
  simp at heq

theorem not_forgeryVerifies {supply : Supply SK} (h : Sound E supply) :
    ¬ ForgeryVerifies E supply := by
  rintro ⟨battery, priv, pub, rootCa, validCert, certs, hbattery, hcerts, p, hp, hverifies⟩
  simp only [batteryAndCert, bind_eq_ok] at hbattery
  obtain ⟨_, hvalid, hbattery⟩ := hbattery
  cases hbattery
  simp only [forgedCertificates, bind_eq_ok] at hcerts
  obtain ⟨expired, hexpired, rogue, hrogue, hcerts⟩ := hcerts
  cases hcerts
  change p ∈ [(supply.nows 0, expired), (supply.nows 1, rogue), (supply.nows 2, _)] at hp
  simp only [List.mem_cons, List.not_mem_nil, or_false] at hp
  rcases hp with rfl | rfl | rfl
  · exact (forged_verifies_iff E h.ideal .expired h.utcnow h.utcnow' h.now hexpired []).2 h.later
      rfl hverifies
  · exact self_signed_refused h.separate hrogue [] _ hverifies
  · obtain ⟨data, hdata, -⟩ := createCertificate_ok hvalid
    have hid : validCert.batteryId = Str.ofString "BAT001" := by
      obtain ⟨_, -, hcert⟩ := bind_eq_ok.1 hvalid
      rw [← Except.ok.inj hcert]
    have hsame := ((verifyCertificate_of_created h.ideal hvalid (signature_apply _ _)).1
      hverifies).1
    exact certificateData_evil hid hdata (hsame.trans hdata)

/-- The rows of the six modes, given the verdicts on the forged certificates. -/
def generated (ok₁ ok₂ ok₃ : Bool) : List Row := [
  ⟨6, time00, 0, 0, 1, receivedVoltage, 5, 1, 0, 0, 85⟩,
  ⟨6, time10, 0, 0, 1, .ofBits 0x4058400000000000, 5, 1, 0, 1, 0⟩,
  ⟨7, time00, 0, 0, 2, receivedVoltage, 5, 1, 1, 0, 0⟩,
  ⟨7, time10, 0, 0, 1, receivedVoltage, 5, 1, 1, 0, 0⟩,
  plainRow 8 time00 0 0 0 0 0, plainRow 8 time05 0 0 0 0 0, plainRow 8 time10 0 0 0 0 0,
  plainRow 8 time15 5 0 0 1 0,
  plainRow 9 time00 5 1 0 0 85, plainRow 9 time10 5 1 1 0 0,
  ⟨10, time00, 0, 0, 1, .ofBits 0x4058C00000000000, 5, 1, 0, 1, 0⟩,
  ⟨10, time10, 0, 0, 2, receivedVoltage, 5, 1, 0, 1, 0⟩,
  certificateRow time00 ok₁, certificateRow time10 ok₂, certificateRow time20 ok₃]

/-- **What is generated.** -/
theorem generateExtraModes_ok [Interpreter] {supply : Supply SK} {rows : List Row}
    (h : generateExtraModes E supply = .ok rows) :
    ∃ ok₁ ok₂ ok₃, rows = generated ok₁ ok₂ ok₃ ∧
      (ForgeryVerifies E supply ↔ (ok₁ || ok₂ || ok₃) = true) := by
  simp only [generateExtraModes, bind_eq_ok] at h
  obtain ⟨_, hmitm, _, hdelay, _, hfuzzing, _, hhijack, _, hevasion, _, htampering, h⟩ := h
  obtain ⟨ok₁, ok₂, ok₃, rfl, hforgery⟩ := mode11CertificateTampering_ok htampering
  rw [mode6Mitm_ok hmitm, mode7Delay_ok hdelay, mode8Fuzzing_ok hfuzzing,
    mode9SessionHijack_ok hhijack, mode10Evasion_ok hevasion] at h
  cases h
  exact ⟨ok₁, ok₂, ok₃, rfl, hforgery⟩

end

/-! ## Their lines in the table -/

/-- The lines of the six modes, the last one by whether a forged certificate was accepted. -/
def lines (accepted : Bool) : List Summary := [
  ⟨6, "MITM telemetry tamper", 0, 1, 1, 0, 0, 1, false⟩,
  ⟨7, "Delay / reorder", 0, 1, 1, 1, 0, 0, false⟩,
  ⟨8, "Fuzzing", 0, 0, 0, 0, 0, 1, false⟩,
  ⟨9, "Session hijacking", 0, 1, 0, 1, 0, 0, false⟩,
  ⟨10, "Threshold evasion", 0, 1, 0, 0, 0, 1, false⟩,
  ⟨11, "Certificate tampering", 0, if accepted then 1 else 0, 0, 0, 0, 0, !accepted⟩]

theorem generated_lines (ok₁ ok₂ ok₃ : Bool) :
    summaries descriptions (verdicts ((generated ok₁ ok₂ ok₃).map Row.reading))
      (modesOf ((generated ok₁ ok₂ ok₃).map Row.reading)) = (lines (ok₁ || ok₂ || ok₃), none) := by
  cases ok₁ <;> cases ok₂ <;> cases ok₃ <;> decide +kernel

theorem generated_small (ok₁ ok₂ ok₃ : Bool) :
    ∀ row ∈ generated ok₁ ok₂ ok₃, ∀ n ∈ row.integers, n.natAbs < 2 ^ 53 := by
  cases ok₁ <;> cases ok₂ <;> cases ok₃ <;> decide +kernel

theorem verifyAll_generated (ok₁ ok₂ ok₃ : Bool) :
    verifyAll [] ((generated ok₁ ok₂ ok₃).map Row.cells) = {
      outRows := verdicts ((generated ok₁ ok₂ ok₃).map Row.reading)
      report := lines (ok₁ || ok₂ || ok₃) } :=
  verifyWith_eq_iff.2 ⟨_, mapM_read_cells (generated_small ok₁ ok₂ ok₃), by simp [generated], rfl,
    summaries_eq_iff.1 (generated_lines ok₁ ok₂ ok₃)⟩

theorem six_le_mode {ok₁ ok₂ ok₃ : Bool} {v : Verdict}
    (hv : v ∈ verdicts ((generated ok₁ ok₂ ok₃).map Row.reading)) : 6 ≤ v.mode := by
  have hmodes : ∀ m ∈ (generated ok₁ ok₂ ok₃).map Row.mode, 6 ≤ m := by
    decide +revert
  have hmode := mem_modesOf.1 (mode_mem_verdicts.1 ⟨v, hv, rfl⟩)
  rw [List.map_map] at hmode
  exact hmodes _ hmode

theorem mode_lt_six {frames : List FrameRow} (hframes : (verifyFrames frames).raised = none)
    {v : Verdict} (hv : v ∈ (verifyFrames frames).outRows) : v.mode < 6 := by
  obtain ⟨rs, -, -, hout, hlines⟩ := verifyWith_eq_iff.1 (eq_of_raised hframes)
  have hmode : v.mode ∈ modesOf rs := by
    refine mode_mem_verdicts.1 ⟨v, ?_, rfl⟩
    rw [hout]
    exact hv
  obtain ⟨line, -, hline⟩ := exists_mem_of_forall₂ hlines _ hmode
  obtain ⟨before, after, heq, -⟩ := List.lookup_eq_some_iff.1 (summarize_inv hline).2
  have hnamed : ∀ p ∈ frameDescriptions, p.1 < 6 := by decide
  exact hnamed (v.mode, line.description) (by rw [heq]; simp)

end ExtraModes

open ExtraModes in
/-- **The table with the Python attacks**, whatever keys, random values and clock readings the
attacks get and whatever rows of Simulink `verifyFrames` handles: its lines, then NO for the modes
6 to 10, and YES for mode 11 unless a forged certificate is accepted, which does not happen under a
sound scheme. -/
theorem extra_table [Interpreter] {SK PK : Type} (E : Ecdsa SK PK) (supply : Supply SK)
    {rows : List Row} (hrows : generateExtraModes E supply = .ok rows) (frames : List FrameRow)
    (hframes : (verifyFrames frames).raised = none) :
    ∃ accepted, (accepted = true ↔ ForgeryVerifies E supply) ∧
      (Sound E supply → accepted = false) ∧
      verifyAll frames (rows.map Row.cells) = {
        outRows := (verifyFrames frames).outRows ++ (verifyAll [] (rows.map Row.cells)).outRows
        report := (verifyFrames frames).report ++ lines accepted } := by
  obtain ⟨ok₁, ok₂, ok₃, rfl, hforgery⟩ := generateExtraModes_ok hrows
  refine ⟨_, hforgery.symm, fun hsound => ?_, ?_⟩
  · exact Bool.eq_false_iff.2 fun haccepted => not_forgeryVerifies hsound (hforgery.2 haccepted)
  · rw [verifyAll_generated]
    refine (splits_iff (eq_of_raised hframes) (verifyAll_generated ok₁ ok₂ ok₃)).2 ?_
    exact fun v hv v' hv' => Int.lt_of_lt_of_le (mode_lt_six hframes hv) (six_le_mode hv')

/-! ## A generation -/

namespace ExtraModes

/-- All on one day, with random frames that no node handles. -/
def plainSupply : Supply UInt8 where
  mitmKeys := ⟨9, 7, 0⟩
  delayKeys := ⟨9, 7, 0⟩
  fuzzingKeys := ⟨9, 7, 0⟩
  hijackKeys := ⟨9, 7, 0⟩
  evasionKeys := ⟨9, 7, 0⟩
  tamperingKeys := ⟨9, 7, 0⟩
  draws _ := ⟨0x7FF, [], by decide⟩
  operation := .truncate 0
  handshake := ⟨⟨2026, 6, 2, 0⟩, [1, 2, 3], 0, Str.ofString "5e55"⟩
  forging := ⟨⟨2026, 6, 2, 0⟩, ⟨2026, 6, 2, 0⟩, 5, 0, 0⟩
  nows _ := (⟨2026, 6, 2, 0⟩, ⟨2026, 6, 2, 0⟩)

def plainCertificate (batteryId issueDate expiryDate : String) (signer : UInt8) :
    Certificate Str where
  batteryId := Str.ofString batteryId
  manufacturerId := Str.ofString "TESLA"
  publicKey := [9]
  issueDate := Str.ofString issueDate
  expiryDate := Str.ofString expiryDate
  signature := signer :: (encodeChars "BAT001TESLA".toList ++ [9] ++
    encodeChars (issueDate ++ expiryDate).toList)

def validPlain : Certificate Str := plainCertificate "BAT001" "2026-06-01" "2031-06-01" 7

theorem plainCertificate_isUnicode (batteryId issueDate expiryDate : String) (signer : UInt8) :
    (plainCertificate batteryId issueDate expiryDate signer).IsUnicode := by
  constructor <;> exact Str.isUnicode_ofChars _

theorem batteryAndCert_plain : batteryAndCert plainEcdsa ⟨9, 7, 0⟩ =
    .ok (⟨Str.ofString "BAT001", Str.ofString "SN001", Str.ofString "TESLA"⟩, 9, 9, ⟨7, 7⟩,
      validPlain) := by
  have hcert : createCertificate plainEcdsa (RootCA.init plainEcdsa 7) (Str.ofString "BAT001")
      (Str.ofString "TESLA") [9] (Str.ofString "2026-06-01") (Str.ofString "2031-06-01") 0 =
        .ok validPlain := by
    decide +kernel
  rw [batteryAndCert]
  exact congrArg (· >>= _) hcert

theorem mode9_plain [Interpreter] : ∃ rows,
    mode9SessionHijack plainEcdsa ⟨9, 7, 0⟩ plainSupply.handshake = .ok rows := by
  have hunicode : validPlain.IsUnicode := plainCertificate_isUnicode _ _ _ _
  have hreceived : (VehicleNode.init (some 7)).receiveAndVerifyCertificate plainEcdsa
      (encodeCertificate validPlain) plainSupply.handshake.now = _ :=
    Simulation.receiveAndVerifyCertificate_sent rfl hunicode _
  refine ⟨[plainRow 9 time00 5 1 0 0 85, plainRow 9 time10 5 1 1 0 0], ?_⟩
  rw [mode9SessionHijack, batteryAndCert_plain, ok_bind]
  dsimp only [BatteryNode.sendCertificate]
  rw [hreceived]
  decide +kernel

def forgedPlain : List (Certificate Str) := [
  plainCertificate "BAT001" "2025-06-02" "2026-06-01" 7,
  plainCertificate "BAT001" "2026-01-01" "2031-01-01" 5,
  plainCertificate "BAT_EVIL" "2026-06-01" "2031-06-01" 7]

theorem mode11_plain [Interpreter] : ∃ rows, mode11CertificateTampering plainEcdsa ⟨9, 7, 0⟩
    plainSupply.forging plainSupply.nows = .ok rows := by
  have hcerts : forgedCertificates plainEcdsa ⟨7, 7⟩ (serializePublicKey plainEcdsa 9) validPlain
      plainSupply.forging = .ok forgedPlain := by
    decide +kernel
  have hverdicts : ∀ cert ∈ forgedPlain,
      verifyCertificate plainEcdsa cert 7 ⟨2026, 6, 2, 0⟩ = .ok false := by
    decide +kernel
  have hunicode : ∀ cert ∈ forgedPlain, cert.IsUnicode := by
    rw [forgedPlain, List.forall_mem_cons, List.forall_mem_cons, List.forall_mem_singleton]
    exact ⟨plainCertificate_isUnicode _ _ _ _, plainCertificate_isUnicode _ _ _ _,
      plainCertificate_isUnicode _ _ _ _⟩
  rw [mode11CertificateTampering, batteryAndCert_plain, ok_bind]
  dsimp only
  rw [hcerts, ok_bind]
  refine certificateRows_returns rfl fun p hp => ?_
  obtain ⟨hnows, hmem⟩ := List.of_mem_zip (List.of_mem_zip hp).2
  obtain ⟨_, hnows⟩ := List.mem_ofFn.1 hnows
  rw [← hnows]
  exact ⟨hunicode _ hmem, ⟨false, hverdicts _ hmem⟩, false, hverdicts _ hmem⟩

theorem generateExtraModes_plain [Interpreter] : ∃ rows,
    generateExtraModes plainEcdsa plainSupply = .ok rows := by
  have hmitm : mode6Mitm plainEcdsa ⟨9, 7, 0⟩ = .ok ((generated false false false).take 2) := by
    decide +kernel
  have hdelay : mode7Delay plainEcdsa ⟨9, 7, 0⟩ =
      .ok (((generated false false false).drop 2).take 2) := by
    decide +kernel
  have hfuzzing : mode8Fuzzing plainEcdsa ⟨9, 7, 0⟩ plainSupply.draws plainSupply.operation =
      .ok (((generated false false false).drop 4).take 4) := by
    decide +kernel
  have hevasion : mode10Evasion plainEcdsa ⟨9, 7, 0⟩ =
      .ok (((generated false false false).drop 10).take 2) := by
    decide +kernel
  obtain ⟨hijack, hhijack⟩ := mode9_plain
  obtain ⟨tampering, htampering⟩ := mode11_plain
  simp only [generateExtraModes, bind_eq_ok]
  exact ⟨_, _, hmitm, _, hdelay, _, hfuzzing, hijack, hhijack, _, hevasion, tampering, htampering,
    rfl⟩

theorem sound_plain : Sound plainEcdsa plainSupply where
  ideal := plainEcdsa_ideal 7
  separate := by
    intro data entropy data' hverify
    have hsigner : (5 : UInt8) = 7 :=
      (List.cons.inj (Simulation.plainEcdsa_verify hverify)).1
    exact absurd hsigner (by decide)
  utcnow := ⟨by decide, by decide, by decide, by decide⟩
  utcnow' := ⟨by decide, by decide, by decide, by decide⟩
  now := ⟨by decide, by decide, by decide, by decide⟩
  later := Nat.le_refl _

end ExtraModes

open ExtraModes in
open CPython in
/-- After a row of the baseline. -/
theorem extra_table_plain : ∃ rows outRows, generateExtraModes plainEcdsa plainSupply = .ok rows ∧
    verifyAll [.ofBits 0 0 0 0x4059000000000000 0x3FF0000000000000 0 0x3FF0000000000000 0 0 0]
        (rows.map Row.cells) = {
      outRows
      report := ⟨0, "No attack (baseline)", 1, 1, 0, 0, 0, 0, true⟩ :: lines false } := by
  have hframes : verifyFrames
      [.ofBits 0 0 0 0x4059000000000000 0x3FF0000000000000 0 0x3FF0000000000000 0 0 0] = {
        outRows := [⟨0, .ofBits 0, 1, 0, 0, 1, 1, 0, 0, .ofBits 0⟩]
        report := [⟨0, "No attack (baseline)", 1, 1, 0, 0, 0, 0, true⟩] } := by
    decide +kernel
  obtain ⟨rows, hrows⟩ := generateExtraModes_plain
  obtain ⟨accepted, -, hsound, htable⟩ :=
    extra_table plainEcdsa plainSupply hrows _ (congrArg Verification.raised hframes)
  obtain rfl : accepted = false := hsound sound_plain
  rw [hframes] at htable
  exact ⟨rows, _, hrows, htable⟩

end BattLock
