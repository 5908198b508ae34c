import BattLock.Crypto.Proof.Binding
import BattLock.Simulation.Nodes

/-!
# What a vehicle knows after a verified response

Runs of any number of vehicles and batteries, called in any order over a network that relays,
delays, repeats and redirects messages but cannot sign. A verified response was made by the battery
whose key the certificate names, after the vehicle's latest challenge and for its bytes
(`response_agreement`). An honest handshake succeeds however the calls of others interleave with it
(`handshake_completes`).
-/

namespace BattLock.Simulation

open Python

variable {SK PK ν β : Type} [DecidableEq ν]

/-! ## Challenges as bytes -/

theorem challengeData_inj {c c' : AuthChallenge} (hlen : c.nonce.length = c'.nonce.length)
    (h : c.challengeData = c'.challengeData) : c = c' := by
  obtain ⟨nonce, timestamp⟩ := c
  obtain ⟨nonce', timestamp'⟩ := c'
  obtain ⟨hnonce, htime⟩ := List.append_inj h hlen
  obtain rfl : timestamp = timestamp' := strInt_injective (encodeChars_injective htime)
  obtain rfl : nonce = nonce' := hnonce
  rfl

theorem nonce_prefix (c : AuthChallenge) : List.IsPrefix c.nonce c.challengeData :=
  List.prefix_append _ _

/-! ## What a vehicle holds -/

/-- The certificate a call gives to a vehicle. -/
def Action.certificate? (v : ν) : Action ν β → Option (Certificate Str)
  | .processHello v' hello _ => if v' = v then some hello.certificate else none
  | _ => none

/-- The challenge a call makes a vehicle create. -/
def Action.challenge? (v : ν) : Action ν β → Option Challenge
  | .createAuthChallenge v' challenge => if v' = v then some challenge else none
  | _ => none

section
variable (E : Ecdsa SK PK) (batteries : β → BatteryNode SK PK)

theorem step_vehicle (vehicles : ν → VehicleNode PK) (action : Action ν β) (v : ν) :
    ((system E batteries).step vehicles action).1 v =
      { vehicles v with
        certificate := (action.certificate? v).or (vehicles v).certificate
        challenge := (action.challenge? v).or (vehicles v).challenge } := by
  cases action with
  | processHello v' hello now =>
    by_cases hv : v' = v
    · subst hv
      simp [system, Action.certificate?, Action.challenge?, VehicleNode.processHello]
    · simp [system, Action.certificate?, Action.challenge?, hv, Function.update_of_ne (Ne.symm hv)]
  | createAuthChallenge v' challenge =>
    by_cases hv : v' = v
    · subst hv
      simp [system, Action.certificate?, Action.challenge?, VehicleNode.createAuthChallenge]
    · simp [system, Action.certificate?, Action.challenge?, hv, Function.update_of_ne (Ne.symm hv)]
  | respondToChallenge b challenge entropy => rfl
  | verifyAuthResponse v' response => rfl
  | createSession v' sessionId => rfl

theorem certificate_set (v : ν) (vehicles : ν → VehicleNode PK) (action : Action ν β)
    (c : Certificate Str) (h : action.certificate? v = some c) :
    (((system E batteries).step vehicles action).1 v).certificate = some c := by
  rw [step_vehicle, h]
  rfl

theorem certificate_kept (v : ν) (vehicles : ν → VehicleNode PK) (action : Action ν β)
    (h : action.certificate? v = none) :
    (((system E batteries).step vehicles action).1 v).certificate = (vehicles v).certificate := by
  rw [step_vehicle, h]
  rfl

theorem challenge_set (v : ν) (vehicles : ν → VehicleNode PK) (action : Action ν β)
    (c : Challenge) (h : action.challenge? v = some c) :
    (((system E batteries).step vehicles action).1 v).challenge = some c := by
  rw [step_vehicle, h]
  rfl

theorem challenge_kept (v : ν) (vehicles : ν → VehicleNode PK) (action : Action ν β)
    (h : action.challenge? v = none) :
    (((system E batteries).step vehicles action).1 v).challenge = (vehicles v).challenge := by
  rw [step_vehicle, h]
  rfl

theorem manufacturerPublicKey_run (v : ν) (vehicles : ν → VehicleNode PK)
    (actions : List (Action ν β)) :
    ((system E batteries).run vehicles actions v).manufacturerPublicKey =
      (vehicles v).manufacturerPublicKey := by
  induction actions generalizing vehicles with
  | nil => rfl
  | cons action actions ih => rw [Mealy.run_cons, ih, step_vehicle]

theorem step_response {vehicles : ν → VehicleNode PK} {action : Action ν β}
    {response : AuthResponse}
    (h : ((system E batteries).step vehicles action).2 = .response response) :
    ∃ b challenge entropy, action = .respondToChallenge b challenge entropy ∧
      response = (batteries b).respondToChallenge E challenge entropy := by
  cases action with
  | respondToChallenge b challenge entropy =>
    cases h
    exact ⟨b, challenge, entropy, rfl, rfl⟩
  | processHello v hello now => cases h
  | createAuthChallenge v challenge => cases h
  | verifyAuthResponse v response => cases h
  | createSession v sessionId => cases h

theorem response_made {vehicles : ν → VehicleNode PK} {actions : List (Action ν β)}
    {action : Action ν β} {response : AuthResponse}
    (h : (action, .response response) ∈ (system E batteries).log vehicles actions) :
    ∃ b challenge entropy, action = .respondToChallenge b challenge entropy ∧
      response = (batteries b).respondToChallenge E challenge entropy := by
  obtain ⟨_, _, -, hout⟩ := (system E batteries).mem_log.1 h
  exact step_response E batteries hout.symm

theorem verifyAuthResponse_eq_true {self : VehicleNode PK} {response : AuthResponse} :
    self.verifyAuthResponse E response = .ok true ↔
      ∃ certificate challenge publicKey, self.certificate = some certificate ∧
        self.challenge = some challenge ∧
        deserializePublicKey E certificate.publicKey = .ok publicKey ∧
        E.verify publicKey response.signature (sent challenge).challengeData = .ok () := by
  unfold VehicleNode.verifyAuthResponse verifyChallengeResponse
  cases self.certificate with
  | none => simp
  | some certificate =>
    cases self.challenge with
    | none => simp [bind_eq_ok]
    | some challenge => simp [bind_eq_ok, verifySignature_eq_true]

end

/-! ## Agreement -/

section
variable (E : Ecdsa SK PK) (batteries : β → BatteryNode SK PK)

/-- A signature made by a battery verifies under that battery's key only, on the signed bytes
only. -/
def Separates : Prop :=
  ∀ b b' data data' entropy,
    E.verify (batteries b).publicKey (signMessage E (batteries b').privateKey data' entropy) data =
      .ok () → b = b' ∧ data = data'

/-- The network cannot sign: a response it delivers was made before, or carries a signature that
no battery's key verifies. -/
def OnlyRelays (log : List (Action ν β × Outcome)) : Prop :=
  ∀ l₁ v response o l₂, log = l₁ ++ (.verifyAuthResponse v response, o) :: l₂ →
    (∃ action, (action, .response response) ∈ l₁) ∨
      ∀ b data, E.verify (batteries b).publicKey response.signature data ≠ .ok ()

end

/-- Nonces are random: when a challenge is created, nothing that begins with its nonce was signed
before. -/
def FreshNonces (log : List (Action ν β × Outcome)) : Prop :=
  ∀ l₁ v challenge o l₂, log = l₁ ++ (.createAuthChallenge v challenge, o) :: l₂ →
    ∀ b c entropy r, (.respondToChallenge b c entropy, r) ∈ l₁ →
      ¬ List.IsPrefix challenge.nonce c.challengeData

/-- Vehicles as they are made, each with its manufacturer's key. -/
def fresh (keys : ν → PK) (v : ν) : VehicleNode PK := { manufacturerPublicKey := keys v }

/-- The certificate of the latest hello that reached a vehicle. -/
def LatestHello (v : ν) (log : List (Action ν β × Outcome)) (certificate : Certificate Str) :
    Prop :=
  ∃ l₁ hello now o l₂, log = l₁ ++ (.processHello v hello now, o) :: l₂ ∧
    hello.certificate = certificate ∧ ∀ e ∈ l₂, e.1.certificate? v = none

/-- Between the latest challenge of a vehicle and the end of the log, a battery answered with a
response to the bytes of that challenge. -/
def AnsweredLatest (v : ν) (b : β) (response : AuthResponse) (log : List (Action ν β × Outcome)) :
    Prop :=
  ∃ m₁ challenge o m₂ c entropy m₃,
    log = m₁ ++ (.createAuthChallenge v challenge, o) ::
      (m₂ ++ (.respondToChallenge b c entropy, .response response) :: m₃) ∧
    (∀ e ∈ m₂ ++ m₃, e.1.challenge? v = none) ∧
    c.challengeData = (sent challenge).challengeData ∧
    (c.nonce.length = 32 → c = sent challenge)

section
variable {E : Ecdsa SK PK} {batteries : β → BatteryNode SK PK} {keys : ν → PK}

theorem latestHello {v : ν} {actions : List (Action ν β)} {certificate : Certificate Str}
    (h : ((system E batteries).run (fresh keys) actions v).certificate = some certificate) :
    LatestHello v ((system E batteries).log (fresh keys) actions) certificate := by
  rcases (system E batteries).latest_run (fun s => (s v).certificate)
    (fun a => a.certificate? v) (certificate_set E batteries v)
    (certificate_kept E batteries v) h with ⟨is₁, i, is₂, rfl, hi, hnone⟩ | ⟨hnew, -⟩
  · cases i with
    | processHello v' hello now =>
      by_cases hv : v' = v
      · subst hv
        simp only [Action.certificate?, if_true, Option.some.injEq] at hi
        refine ⟨_, hello, now, _, _, Mealy.log_append .., hi, fun e he => hnone e.1 ?_⟩
        rw [← (system E batteries).map_fst_log _ is₂]
        exact List.mem_map_of_mem he
      · simp [Action.certificate?, hv] at hi
    | createAuthChallenge v challenge => cases hi
    | respondToChallenge b challenge entropy => cases hi
    | verifyAuthResponse v response => cases hi
    | createSession v sessionId => cases hi
  · cases hnew

theorem latestChallenge {v : ν} {actions : List (Action ν β)} {challenge : Challenge}
    (h : ((system E batteries).run (fresh keys) actions v).challenge = some challenge) :
    ∃ is₁ is₂, actions = is₁ ++ .createAuthChallenge v challenge :: is₂ ∧
      ∀ j ∈ is₂, j.challenge? v = none := by
  rcases (system E batteries).latest_run (fun s => (s v).challenge)
    (fun a => a.challenge? v) (challenge_set E batteries v)
    (challenge_kept E batteries v) h with ⟨is₁, i, is₂, rfl, hi, hnone⟩ | ⟨hnew, -⟩
  · cases i with
    | createAuthChallenge v' c =>
      by_cases hv : v' = v
      · subst hv
        simp only [Action.challenge?, if_true, Option.some.injEq] at hi
        subst hi
        exact ⟨is₁, is₂, rfl, hnone⟩
      · simp [Action.challenge?, hv] at hi
    | processHello v hello now => cases hi
    | respondToChallenge b challenge entropy => cases hi
    | verifyAuthResponse v response => cases hi
    | createSession v sessionId => cases hi
  · cases hnew

/-- **Agreement**: over a network that cannot sign, and with fresh nonces, a response is verified
only if the battery whose key the vehicle's latest certificate carries made it after the vehicle's
latest challenge, for the bytes of that challenge. -/
theorem response_agreement (E : Ecdsa SK PK) (batteries : β → BatteryNode SK PK) (keys : ν → PK)
    (hsign : Separates E batteries) (actions : List (Action ν β))
    (hrelay : OnlyRelays E batteries ((system E batteries).log (fresh keys) actions))
    (hfresh : FreshNonces ((system E batteries).log (fresh keys) actions))
    (l₁ : List (Action ν β × Outcome)) (v : ν) (response : AuthResponse)
    (l₂ : List (Action ν β × Outcome))
    (h : (system E batteries).log (fresh keys) actions =
      l₁ ++ (.verifyAuthResponse v response, .verdict (.ok true)) :: l₂) :
    ∃ certificate publicKey, LatestHello v l₁ certificate ∧
      deserializePublicKey E certificate.publicKey = .ok publicKey ∧
      ∀ b, (batteries b).publicKey = publicKey → AnsweredLatest v b response l₁ := by
  obtain ⟨is, is', -, rfl, hout, -⟩ := (system E batteries).log_eq_append_cons h
  have htrue : ((system E batteries).run (fresh keys) is v).verifyAuthResponse E response =
      .ok true := (Outcome.verdict.inj hout).symm
  obtain ⟨certificate, challenge, publicKey, hcertificate, hchallenge, hkey, hverify⟩ :=
    (verifyAuthResponse_eq_true E).1 htrue
  refine ⟨certificate, publicKey, latestHello hcertificate, hkey, fun b hb => ?_⟩
  subst hb
  obtain ⟨is₁, is₂, rfl, hnone⟩ := latestChallenge hchallenge
  have hmade : ∀ {action : Action ν β} {vehicles actions},
      (action, .response response) ∈ (system E batteries).log vehicles actions →
        ∃ c entropy, action = .respondToChallenge b c entropy ∧
          c.challengeData = (sent challenge).challengeData := by
    intro action vehicles actions hmem
    obtain ⟨b', c, entropy, rfl, rfl⟩ := response_made E batteries hmem
    obtain ⟨rfl, hdata⟩ := hsign _ _ _ _ _ hverify
    exact ⟨c, entropy, rfl, hdata.symm⟩
  rcases hrelay _ v response _ l₂ h with ⟨action, hmem⟩ | hjunk
  · rw [Mealy.log_append, Mealy.log_cons] at h hmem ⊢
    rcases List.mem_append.1 hmem with hmem | hmem
    · -- before the challenge its nonce was in no signed bytes
      obtain ⟨c, entropy, rfl, hdata⟩ := hmade hmem
      refine absurd ?_ (hfresh _ v challenge _ _ ((h.trans (List.append_assoc ..)))
        b c entropy _ hmem)
      rw [hdata]
      exact nonce_prefix (sent challenge)
    · rcases List.mem_cons.1 hmem with heq | hmem
      · cases heq
      · obtain ⟨c, entropy, rfl, hdata⟩ := hmade hmem
        obtain ⟨m₂, m₃, hsplit⟩ := List.append_of_mem hmem
        refine ⟨_, challenge, _, m₂, c, entropy, m₃, by rw [hsplit], fun e he => hnone e.1 ?_,
          hdata, fun hlen => challengeData_inj (hlen.trans challenge.length_nonce.symm) hdata⟩
        rw [← (system E batteries).map_fst_log _ is₂, hsplit]
        refine List.mem_map_of_mem (List.mem_append.2 ?_)
        rcases List.mem_append.1 he with he | he
        · exact .inl he
        · exact .inr (List.mem_cons_of_mem _ he)
  · exact absurd hverify (hjunk b _)

end

/-! ## Two vehicles and two batteries -/

/-- The batteries with the keys 8 and 9; the second is the one the certificate was issued to. -/
def twoBatteries (b : Bool) : BatteryNode UInt8 UInt8 where
  batteryId := Str.ofString "BAT001"
  manufacturerId := Str.ofString "TESLA"
  privateKey := if b then 9 else 8
  publicKey := if b then 9 else 8
  certificate := teslaCertificate

theorem plainEcdsa_verify {pk : UInt8} {signature data : Bytes}
    (h : plainEcdsa.verify pk signature data = .ok ()) : signature = pk :: data := by
  by_contra hne
  have herror : plainEcdsa.verify pk signature data = .error .invalidSignature := if_neg hne
  rw [herror] at h
  cases h

theorem twoBatteries_separate : Separates plainEcdsa twoBatteries := by
  intro b b' data data' entropy h
  obtain ⟨hkey, hdata⟩ := List.cons.inj (plainEcdsa_verify h)
  refine ⟨?_, hdata.symm⟩
  revert hkey
  cases b <;> cases b' <;> simp [twoBatteries]

def onesChallenge : Challenge := ⟨List.replicate 32 1, 1700000000, rfl⟩

def twosChallenge : Challenge := ⟨List.replicate 32 2, 1700000001, rfl⟩

/-- The challenges of two vehicles cross, the response to the first comes back. -/
def crossedCalls : List (Action Bool Bool) := [
  .processHello false (twoBatteries true).sendHello ⟨2026, 6, 1, 0⟩,
  .createAuthChallenge false onesChallenge,
  .createAuthChallenge true twosChallenge,
  .respondToChallenge true (sent onesChallenge) 0,
  .verifyAuthResponse false
    ((twoBatteries true).respondToChallenge plainEcdsa (sent onesChallenge) 0)]

theorem crossedCalls_relayed :
    OnlyRelays plainEcdsa twoBatteries
      ((system plainEcdsa twoBatteries).log (fresh fun _ => 7) crossedCalls) := by
  intro l₁ v response o l₂ h
  rcases l₁ with _ | ⟨e₁, _ | ⟨e₂, _ | ⟨e₃, _ | ⟨e₄, _ | ⟨e₅, l₁⟩⟩⟩⟩⟩ <;>
    simp [crossedCalls, system] at h
  obtain ⟨rfl, rfl, rfl, rfl, ⟨⟨rfl, rfl⟩, -⟩, -⟩ := h
  exact .inl ⟨.respondToChallenge true (sent onesChallenge) 0, by simp⟩

theorem crossedCalls_fresh :
    FreshNonces ((system plainEcdsa twoBatteries).log (fresh fun _ => 7) crossedCalls) := by
  intro l₁ v challenge o l₂ h b c entropy r hmem
  rcases l₁ with _ | ⟨e₁, _ | ⟨e₂, _ | ⟨e₃, _ | ⟨e₄, _ | ⟨e₅, l₁⟩⟩⟩⟩⟩ <;>
    simp [crossedCalls, system] at h
  · simp [← h.1] at hmem
  · simp [← h.1, ← h.2.1] at hmem

/-- The calls before the verification. -/
def crossedLog : List (Action Bool Bool × Outcome) :=
  (system plainEcdsa twoBatteries).log (fresh fun _ => 7) (crossedCalls.take 4)

theorem response_agreement_crossed :
    ∃ certificate publicKey, LatestHello false crossedLog certificate ∧
      deserializePublicKey plainEcdsa certificate.publicKey = .ok publicKey ∧
      ∀ b, (twoBatteries b).publicKey = publicKey → AnsweredLatest false b
        ((twoBatteries true).respondToChallenge plainEcdsa (sent onesChallenge) 0) crossedLog :=
  response_agreement plainEcdsa twoBatteries (fun _ => 7) twoBatteries_separate crossedCalls
    crossedCalls_relayed crossedCalls_fresh crossedLog false
    ((twoBatteries true).respondToChallenge plainEcdsa (sent onesChallenge) 0) [] rfl

/-! ## Completeness -/

section
variable {E : Ecdsa SK PK}

theorem init_ok {batteryId manufacturerId : Str} {caKey privateKey : SK} {entropy : Nat}
    {b : BatteryNode SK PK}
    (h : BatteryNode.init E batteryId manufacturerId (RootCA.init E caKey) privateKey entropy =
      .ok b) :
    b.privateKey = privateKey ∧ b.certificate.publicKey = E.publicBytes (E.publicKey privateKey) ∧
      b.certificate.expiryDate = BatteryNode.expiryDate ∧
      createCertificate E (RootCA.init E caKey) batteryId manufacturerId
        (E.publicBytes (E.publicKey privateKey)) BatteryNode.issueDate BatteryNode.expiryDate
        entropy = .ok b.certificate := by
  simp only [BatteryNode.init, bind_eq_ok, pure_eq_ok, Except.ok.injEq] at h
  obtain ⟨c, hc, rfl⟩ := h
  have hfields := hc
  simp only [createCertificate, bind_eq_ok, pure_eq_ok, Except.ok.injEq] at hfields
  obtain ⟨_, -, rfl⟩ := hfields
  exact ⟨rfl, rfl, rfl, hc⟩

theorem verifyCertificate_init {batteryId manufacturerId : Str} {caKey privateKey : SK}
    {entropy : Nat} {b : BatteryNode SK PK} (hca : E.Ideal caKey)
    (h : BatteryNode.init E batteryId manufacturerId (RootCA.init E caKey) privateKey entropy =
      .ok b) {now : Datetime} (hnow : (⟨2031, 1, 1, 0⟩ : Datetime).lt now = false) :
    verifyCertificate E b.certificate (E.publicKey caKey) now = .ok true := by
  obtain ⟨-, -, hexpiry, hcreated⟩ := init_ok h
  have hdate : PyText.strptime BatteryNode.expiryDate = .ok ⟨2031, 1, 1, 0⟩ := by
    decide +kernel
  refine (verifyCertificate_of_created hca hcreated rfl).2 ⟨rfl, ?_⟩
  rw [isCertificateExpired, hexpiry, hdate, ok_bind, hnow, pure_eq_ok]

/-- **Completeness**: once a vehicle's latest hello is that of a battery issued under its
manufacturer's key, and its latest challenge was answered by that battery, the response verifies
and the session is made, whatever other calls stand between; the hello itself is accepted until the
certificate expires. -/
theorem handshake_completes (E : Ecdsa SK PK) (batteries : β → BatteryNode SK PK) (keys : ν → PK)
    {v : ν} {b : β} {batteryId manufacturerId : Str} {caKey privateKey : SK} {entropy : Nat}
    (hca : E.Ideal caKey) (hbattery : E.Ideal privateKey) (hkeys : keys v = E.publicKey caKey)
    (hpem : E.loadPemPublicKey (E.publicBytes (E.publicKey privateKey)) =
      .ok (E.publicKey privateKey))
    (hinit : BatteryNode.init E batteryId manufacturerId (RootCA.init E caKey) privateKey entropy =
      .ok (batteries b))
    (is₁ is₂ js₁ js₂ : List (Action ν β)) (now : Datetime) (challenge : Challenge)
    (hhello : is₁ ++ .processHello v (batteries b).sendHello now :: is₂ =
      js₁ ++ .createAuthChallenge v challenge :: js₂)
    (his : ∀ i ∈ is₂, i.certificate? v = none) (hjs : ∀ j ∈ js₂, j.challenge? v = none)
    (entropy' : Nat) (sessionId : Str) :
    let vehicles := (system E batteries).run (fresh keys)
      (is₁ ++ .processHello v (batteries b).sendHello now :: is₂)
    ((system E batteries).step vehicles (.verifyAuthResponse v
        ((batteries b).respondToChallenge E (sent challenge) entropy'))).2 = .verdict (.ok true) ∧
      ((system E batteries).step vehicles (.createSession v sessionId)).2 =
        .success (.ok ⟨sessionId⟩) ∧
      ((⟨2031, 1, 1, 0⟩ : Datetime).lt now = false →
        ((system E batteries).step ((system E batteries).run (fresh keys) is₁)
          (.processHello v (batteries b).sendHello now)).2 = .verdict (.ok true)) := by
  intro vehicles
  obtain ⟨hsk, hpublic, -, -⟩ := init_ok hinit
  have hcertificate : (vehicles v).certificate = some (batteries b).certificate :=
    (system E batteries).run_of_latest (fun s => (s v).certificate)
      (fun a => a.certificate? v) (certificate_set E batteries v)
      (certificate_kept E batteries v) (fresh keys) is₁ (if_pos rfl) his
  have hchallenge : (vehicles v).challenge = some challenge := by
    refine (congrArg (fun is => ((system E batteries).run (fresh keys) is v).challenge)
      hhello).trans ?_
    exact (system E batteries).run_of_latest (fun s => (s v).challenge)
      (fun a => a.challenge? v) (challenge_set E batteries v)
      (challenge_kept E batteries v) (fresh keys) js₁ (if_pos rfl) hjs
  refine ⟨?_, ?_, fun hnow => ?_⟩
  · refine congrArg Outcome.verdict ((verifyAuthResponse_eq_true E).2
      ⟨_, challenge, E.publicKey privateKey, hcertificate, hchallenge, ?_, ?_⟩)
    · rw [hpublic]
      exact hpem
    · rw [BatteryNode.respondToChallenge, signMessage, hsk, hbattery, if_pos rfl]
  · refine congrArg Outcome.success ?_
    rw [VehicleNode.createSession, hcertificate]
    rfl
  · refine congrArg Outcome.verdict ?_
    show verifyCertificate E (batteries b).certificate
      ((system E batteries).run (fresh keys) is₁ v).manufacturerPublicKey now = .ok true
    rw [manufacturerPublicKey_run, fresh, hkeys]
    exact verifyCertificate_init hca hinit hnow

theorem init_twoBatteries :
    BatteryNode.init plainEcdsa (Str.ofString "BAT001") (Str.ofString "TESLA")
      (RootCA.init plainEcdsa 7) 9 0 = .ok (twoBatteries true) := by
  have hcreate := createCertificate_tesla
  simp only [BatteryNode.init]
  exact (congrArg (· >>= fun certificate => pure _) hcreate)

theorem handshake_completes_crossed :
    ((system plainEcdsa twoBatteries).step
      ((system plainEcdsa twoBatteries).run (fresh fun _ => 7) (crossedCalls.take 3))
      (.verifyAuthResponse false
        ((twoBatteries true).respondToChallenge plainEcdsa (sent onesChallenge) 0))).2 =
      .verdict (.ok true) :=
  (handshake_completes plainEcdsa twoBatteries (fun _ => 7) (v := false) (plainEcdsa_ideal 7)
    (plainEcdsa_ideal 9) rfl rfl init_twoBatteries []
    [.createAuthChallenge false onesChallenge, .createAuthChallenge true twosChallenge]
    [.processHello false (twoBatteries true).sendHello ⟨2026, 6, 1, 0⟩]
    [.createAuthChallenge true twosChallenge] ⟨2026, 6, 1, 0⟩ onesChallenge rfl
    (by simp [Action.certificate?]) (by simp [Action.challenge?]) 0 (Str.ofString "00")).1

end

end BattLock.Simulation
