import BattLock.Can.Simulation.Proof.Replay
import BattLock.Crypto.Proof.Binding

/-!
# What a verified signature stands for

Runs of the vehicle node under calls of its methods in any order. The node keeps the certificate
it decoded last, whatever the verdict on it (`signature_certificate`). The status handler does not
look at whether a signature was verified, so the telemetry accepted before one is settled by the
frames alone (`valid_authenticated_iff`).
-/

namespace BattLock.VehicleNode

open Python

variable {SK PK : Type} (E : Ecdsa SK PK)

/-- A signature was verified. -/
def Authenticated (log : List (Call × Outcome)) : Prop :=
  ∃ m, (.receiveAndVerifySignature m, .verdict (.ok true)) ∈ log

/-! ## The certificate in use -/

section
variable [Interpreter]

/-- The certificate a call stores. -/
def Call.certificate? : Call → Option (Certificate Json)
  | .receiveAndVerifyCertificate m _ => (decodeCertificate m).toOption
  | _ => none

/-- The last certificate that was decoded is `certificate`, and `verdict` is what the call that
decoded it returned or raised. -/
def LatestCertificate (log : List (Call × Outcome)) (certificate : Certificate Json)
    (now : Datetime) (verdict : Except Err Bool) : Prop :=
  ∃ before m after,
    log = before ++ (.receiveAndVerifyCertificate m now, .verdict verdict) :: after ∧
      decodeCertificate m = .ok certificate ∧ ∀ e ∈ after, e.1.certificate? = none

/-- The verdict on a certificate under the root key of the node. -/
def certificateVerdict (root : Option PK) (certificate : Certificate Json) (now : Datetime) :
    Except Err Bool :=
  match root with
  | none => .ok false
  | some rootCaPublicKey => verifyCertificate E certificate rootCaPublicKey now

/-- The stored certificate is the one decoded last. -/
def StoresLatest (root : Option PK) (log : List (Call × Outcome)) (t : VehicleNode PK) : Prop :=
  t.rootCaPublicKey = root ∧ ∀ certificate, t.storedCertificate = some certificate →
    ∃ now, LatestCertificate log certificate now (certificateVerdict E root certificate now)

theorem LatestCertificate.concat {log : List (Call × Outcome)} {certificate : Certificate Json}
    {now : Datetime} {verdict : Except Err Bool} (h : LatestCertificate log certificate now verdict)
    {call : Call} (hcall : call.certificate? = none) (outcome : Outcome) :
    LatestCertificate (log ++ [(call, outcome)]) certificate now verdict := by
  obtain ⟨before, m, after, rfl, hm, hafter⟩ := h
  refine ⟨before, m, after ++ [(call, outcome)], by simp, hm, fun e he => ?_⟩
  rcases List.mem_append.1 he with he | he
  · exact hafter e he
  · rw [List.mem_singleton.1 he]; exact hcall

omit [Interpreter] in
theorem receive_keeps (t : VehicleNode PK) (m : CANMessage) :
    (t.receive m).1.storedCertificate = t.storedCertificate ∧
      (t.receive m).1.rootCaPublicKey = t.rootCaPublicKey ∧
      (t.receive m).1.challengeData = t.challengeData := by
  by_cases hid : m.arbitrationId = CanId.batteryStatus
  · rw [receive_status t hid]
    unfold handleStatus
    split
    · exact ⟨rfl, rfl, rfl⟩
    · split <;> exact ⟨rfl, rfl, rfl⟩
  · unfold receive handleSessionId
    rw [if_neg hid]
    repeat' split
    all_goals exact ⟨rfl, rfl, rfl⟩

theorem step_of_no_certificate {t : VehicleNode PK} {call : Call} (h : call.certificate? = none) :
    ((machine E).step t call).1.storedCertificate = t.storedCertificate ∧
      ((machine E).step t call).1.rootCaPublicKey = t.rootCaPublicKey := by
  cases call with
  | receive m => exact ⟨(receive_keeps t m).1, (receive_keeps t m).2.1⟩
  | receiveAndVerifyCertificate m now =>
    cases hm : decodeCertificate m with
    | error e =>
      have hstep : (machine E).step t (.receiveAndVerifyCertificate m now) =
          (t, .verdict (.error e)) := by
        simp only [machine, receiveAndVerifyCertificate, hm]
      rw [hstep]
      exact ⟨rfl, rfl⟩
    | ok certificate => simp [Call.certificate?, hm, Except.toOption] at h
  | sendNonce nonce timestamp => exact ⟨rfl, rfl⟩
  | receiveAndVerifySignature m => exact ⟨rfl, rfl⟩

theorem step_of_certificate {t : VehicleNode PK} {call : Call} {certificate : Certificate Json}
    (h : call.certificate? = some certificate) :
    ∃ m now, call = .receiveAndVerifyCertificate m now ∧
      decodeCertificate m = .ok certificate ∧
      (machine E).step t call = ({ t with storedCertificate := some certificate },
        .verdict (certificateVerdict E t.rootCaPublicKey certificate now)) := by
  cases call with
  | receiveAndVerifyCertificate m now =>
    cases hm : decodeCertificate m with
    | error e => simp [Call.certificate?, hm, Except.toOption] at h
    | ok c =>
      obtain rfl : c = certificate := by
        simpa [Call.certificate?, hm, Except.toOption] using h
      refine ⟨m, now, rfl, hm, ?_⟩
      simp only [machine, receiveAndVerifyCertificate, hm]
      rfl
  | receive m => cases h
  | sendNonce nonce timestamp => cases h
  | receiveAndVerifySignature m => cases h

theorem storesLatest_step (root : Option PK) (log : List (Call × Outcome)) (t : VehicleNode PK)
    (call : Call) (h : StoresLatest E root log t) :
    StoresLatest E root (log ++ [(call, ((machine E).step t call).2)])
      ((machine E).step t call).1 := by
  obtain ⟨hroot, hstored⟩ := h
  cases hcall : call.certificate? with
  | none =>
    obtain ⟨hsame, hsameRoot⟩ := step_of_no_certificate E (t := t) hcall
    refine ⟨hsameRoot.trans hroot, fun certificate hc => ?_⟩
    obtain ⟨now, hlatest⟩ := hstored certificate (hsame ▸ hc)
    exact ⟨now, hlatest.concat hcall _⟩
  | some certificate =>
    obtain ⟨m, now, rfl, hm, hstep⟩ := step_of_certificate E (t := t) hcall
    rw [hstep]
    refine ⟨hroot, fun certificate' hc => ?_⟩
    cases hc
    exact ⟨now, log, m, [], by rw [hroot], hm, by simp⟩

/-- **The certificate in use**: a signature is verified under the key of the certificate that was
decoded last, whatever the verdict on that certificate was. -/
theorem signature_certificate (root : Option PK) (calls : List Call)
    (before : List (Call × Outcome)) (m : CANMessage) (after : List (Call × Outcome))
    (h : (machine E).log (init root) calls =
      before ++ (.receiveAndVerifySignature m, .verdict (.ok true)) :: after) :
    ∃ certificate now publicKey challengeData,
      LatestCertificate before certificate now (certificateVerdict E root certificate now) ∧
        E.loadPemPublicKey certificate.publicKey = .ok publicKey ∧
          E.verify publicKey m.data challengeData = .ok () := by
  obtain ⟨earlier, later, -, rfl, hr, -⟩ := (machine E).log_eq_append_cons h
  have hinit : StoresLatest E root [] (init root) := ⟨rfl, fun _ hc => by cases hc⟩
  have hlatest := (machine E).log_inv hinit (storesLatest_step E root) earlier
  generalize (machine E).run (init root) earlier = t at hr hlatest
  replace hr : t.receiveAndVerifySignature E m = .ok true := by
    simpa [machine, eq_comm] using hr
  unfold receiveAndVerifySignature at hr
  split at hr
  · rename_i certificate challengeData hc _
    obtain ⟨publicKey, hload, hverify⟩ := bind_eq_ok.1 hr
    obtain ⟨now, hnow⟩ := hlatest.2 certificate hc
    exact ⟨certificate, now, publicKey, challengeData, hnow, hload,
      (verifySignature_eq_true E).1 hverify⟩
  · cases hr

end

/-- A certificate message, then a signature with key 9. -/
def signatureAfter (m : CANMessage) : List Call :=
  [.receiveAndVerifyCertificate m ⟨2026, 6, 1, 0⟩, .sendNonce [1, 2, 3] none,
    .receiveAndVerifySignature (encodeSignature [9, 1, 2, 3])]

/-- The signature is verified under a certificate for key 9 that was refused. -/
theorem log_signatureAfter [Interpreter] {m : CANMessage} {c : Certificate Json}
    (hm : decodeCertificate m = .ok c) (hkey : c.publicKey = [9])
    (hverdict : verifyCertificate plainEcdsa c 8 ⟨2026, 6, 1, 0⟩ = .ok false) :
    (machine plainEcdsa).log (init (some 8)) (signatureAfter m) =
      [(.receiveAndVerifyCertificate m ⟨2026, 6, 1, 0⟩, .verdict (.ok false)),
        (.sendNonce [1, 2, 3] none, .sent ⟨0x101, [1, 2, 3]⟩)] ++
      (.receiveAndVerifySignature (encodeSignature [9, 1, 2, 3]), .verdict (.ok true)) :: [] := by
  have hsig : (do
      let publicKey ← deserializePublicKey plainEcdsa [9]
      verifySignature plainEcdsa publicKey [1, 2, 3]
        (decodeSignature (encodeSignature [9, 1, 2, 3]))) = .ok true := by
    decide
  simp only [signatureAfter, Mealy.log_cons, Mealy.log_nil, machine, receiveAndVerifyCertificate,
    hm, init, hverdict, sendNonce, challengeBytes, receiveAndVerifySignature, hkey, hsig]
  rfl

open CPython in
/-- A certificate issued under key 7, at a node that trusts key 8. -/
theorem decode_tesla : ∃ c, decodeCertificate (encodeCertificate teslaCertificate) = .ok c ∧
    c.publicKey = [9] ∧ verifyCertificate plainEcdsa c 8 ⟨2026, 6, 1, 0⟩ = .ok false := by
  rw [decodeCertificate_encodeCertificate]
  have h : (do
      let c ← Json.loads (certificateJson teslaCertificate).dumps >>= certificateOfJson
      return (c.publicKey, verifyCertificate plainEcdsa c 8 ⟨2026, 6, 1, 0⟩)) =
        Except.ok ([9], .ok false) := by
    decide +kernel
  obtain ⟨c, hc, heq⟩ := bind_eq_ok.1 h
  simp only [pure_eq_ok, Except.ok.injEq, Prod.mk.injEq] at heq
  exact ⟨c, hc, heq⟩

open CPython in
theorem signature_certificate_refused :
    ∃ certificate now publicKey challengeData,
      LatestCertificate
        [(.receiveAndVerifyCertificate (encodeCertificate teslaCertificate) ⟨2026, 6, 1, 0⟩,
            .verdict (.ok false)),
          (.sendNonce [1, 2, 3] none, .sent ⟨0x101, [1, 2, 3]⟩)]
        certificate now (certificateVerdict plainEcdsa (some 8) certificate now) ∧
      plainEcdsa.loadPemPublicKey certificate.publicKey = .ok publicKey ∧
        plainEcdsa.verify publicKey [9, 1, 2, 3] challengeData = .ok () := by
  obtain ⟨c, hc, hkey, hverdict⟩ := decode_tesla
  exact signature_certificate plainEcdsa (some 8) _ _ _ [] (log_signatureAfter hc hkey hverdict)

open CPython in
/-- A signature is verified although no certificate was accepted. -/
theorem refused_certificate_used :
    ∃ before m after,
      (machine plainEcdsa).log (init (some 8))
          (signatureAfter (encodeCertificate teslaCertificate)) =
        before ++ (.receiveAndVerifySignature m, .verdict (.ok true)) :: after ∧
      ∀ m' now, (.receiveAndVerifyCertificate m' now, .verdict (.ok true)) ∉ before := by
  obtain ⟨c, hc, hkey, hverdict⟩ := decode_tesla
  refine ⟨_, _, [], log_signatureAfter hc hkey hverdict, fun m' now h => ?_⟩
  simp at h

/-! ## Telemetry before authentication -/

/-- A status frame that passes every check the node makes after the given calls: it is safe and
its counter exceeds those of all earlier status frames. -/
def Acceptable (earlier : List Call) (m : CANMessage) : Prop :=
  m.arbitrationId = CanId.batteryStatus ∧ ∃ s, decodeStatus m = .ok s ∧ ¬ Unsafe s ∧
    0 < s.counter ∧ ∀ call ∈ earlier, ∀ c, call.statusCounter = some c → c < s.counter

/-- After any calls, the frames reported `VALID` are the acceptable ones. -/
theorem valid_iff_acceptable [Interpreter] (root : Option PK) (earlier : List Call)
    (m : CANMessage) :
    Valid (((machine E).run (init root) earlier).receive m).2 ↔ Acceptable earlier m := by
  have hlast : ∀ c, ((machine E).run (init root) earlier).replay.lastCounter < c ↔
      0 < c ∧ ∀ call ∈ earlier, ∀ c', call.statusCounter = some c' → c' < c :=
    fun c => run_lastCounter_lt (machine_lastCounter E)
  constructor
  · intro h
    obtain ⟨s, hs⟩ := h
    obtain ⟨hid, hdec, hlt, hsafe⟩ := (receive_valid_iff _ m s).1 hs
    obtain ⟨hpos, habove⟩ := (hlast _).1 hlt
    exact ⟨hid, s, hdec, hsafe, hpos, habove⟩
  · intro h
    obtain ⟨hid, s, hdec, hsafe, hpos, habove⟩ := h
    exact ⟨s, (receive_valid_iff _ m s).2 ⟨hid, hdec, (hlast _).2 ⟨hpos, habove⟩, hsafe⟩⟩

/-- **Telemetry needs no authentication**: a run reports `VALID` only after a verified signature
exactly if no acceptable status frame reaches it before one. -/
theorem valid_authenticated_iff [Interpreter] (root : Option PK) (calls : List Call) :
    (∀ before m s after, (machine E).log (init root) calls =
        before ++ (.receive m, .report (.ok (.valid s))) :: after → Authenticated before) ↔
      ∀ earlier m later, calls = earlier ++ .receive m :: later → Acceptable earlier m →
        Authenticated ((machine E).log (init root) earlier) := by
  constructor
  · intro h earlier m later hcalls hm
    subst hcalls
    obtain ⟨s, hs⟩ := (valid_iff_acceptable E root earlier m).2 hm
    refine h _ m s ((machine E).log ((machine E).step ((machine E).run (init root) earlier)
      (.receive m)).1 later) ?_
    rw [Mealy.log_append, Mealy.log_cons, ← hs]
    rfl
  · intro h before m s after hlog
    obtain ⟨earlier, later, rfl, rfl, hr, -⟩ := (machine E).log_eq_append_cons hlog
    refine h earlier m later rfl ((valid_iff_acceptable E root earlier m).1 ⟨s, ?_⟩)
    simpa [machine, eq_comm] using hr

open CPython in
/-- A fresh node accepts the first status it gets. -/
theorem valid_unauthenticated :
    ∃ s, (machine plainEcdsa).log (init (some 7)) [.receive honestFrame] =
        [] ++ (.receive honestFrame, .report (.ok (.valid s))) :: [] ∧ ¬ Authenticated [] := by
  refine ⟨honestStatus, by decide +kernel, ?_⟩
  intro h
  obtain ⟨m, hm⟩ := h
  cases hm

end BattLock.VehicleNode
