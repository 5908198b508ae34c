import BattLock.Crypto.ApiState
import BattLock.Crypto.Proof.RawSignature
import BattLock.Lib.Runs

/-!
# What the API remembers

The three globals of the module do not get into each other's way (`step_state`). In any run of
calls a counter is fresh if it is above all those checked since the last reset
(`checkCounter_iff`), a certificate is verified under the Root CA key that was loaded last
(`verifyCertificate_eq`), and a signature verifies under the public key that is given out before or
after it, as long as no other key manager was configured in between (`signed_verifies`).
-/

namespace BattLock.CryptoApi

open Python

variable {SK PK ρ τ : Type} {E : Ecdsa SK PK} [KeyProvider ρ PK] [PyText τ] (D : Dss)

/-! ## What a call does to each global -/

/-- To the key manager: the default is made where one is needed. -/
def Call.keys (keyManager : Option (Keys E ρ)) : Call E ρ τ → Option (Keys E ρ)
  | configureKeyManager keyManager => keyManager
  | signNonce _ none generated _ => some (keyManager.getD (softwareKeys generated))
  | getPublicKeyBytes none generated => some (keyManager.getD (softwareKeys generated))
  | _ => keyManager

/-- The Root CA key that a call sets. -/
def Call.rootKey : Call E ρ τ → Option PK
  | setRootCaPublicKey publicKey => (publicKey.load E).toOption
  | _ => none

/-- To the counter. -/
def Call.counters (replay : ReplayProtection) : Call E ρ τ → ReplayProtection
  | checkCounter counter => (replay.validate counter).1
  | resetCounter => {}
  | _ => replay

omit [KeyProvider ρ PK] in
theorem keyManagerOr_eq (s : Module E ρ) (keyManager : Option (Keys E ρ)) (generated : SK) :
    s.keyManagerOr keyManager generated = match keyManager with
      | some keyManager => (s, keyManager)
      | none => ({ s with keyManager := some (s.keyManager.getD (softwareKeys generated)) },
          s.keyManager.getD (softwareKeys generated)) := by
  cases keyManager with
  | some keyManager => rfl
  | none =>
    obtain ⟨keys, root, replay⟩ := s
    cases keys with
    | some keys => rfl
    | none => rfl

/-- **A step, global by global.** -/
theorem step_state (s : Module E ρ) (call : Call E ρ τ) : ((api D).step s call).1 =
    ⟨call.keys s.keyManager, call.rootKey.or s.rootCaPublicKey, call.counters s.replay⟩ := by
  cases call with
  | setRootCaPublicKey publicKey =>
    show (s.setRootCaPublicKey publicKey).1 = _
    rw [Module.setRootCaPublicKey, Call.rootKey]
    cases publicKey.load E with
    | ok publicKey => rfl
    | error e => rfl
  | signNonce nonce keyManager generated entropy =>
    show (s.keyManagerOr keyManager generated).1 = _
    rw [keyManagerOr_eq]
    cases keyManager with
    | some keyManager => rfl
    | none => rfl
  | getPublicKeyBytes keyManager generated =>
    show (s.keyManagerOr keyManager generated).1 = _
    rw [keyManagerOr_eq]
    cases keyManager with
    | some keyManager => rfl
    | none => rfl
  | configureKeyManager keyManager => rfl
  | generateNonce random => rfl
  | verifySignature nonce signature publicKeyBytes => rfl
  | verifyCertificate certificate now => rfl
  | createSession batteryId sessionId => rfl
  | checkCounter counter => rfl
  | resetCounter => rfl

/-! ## Counters -/

/-- The counter that a call checks. -/
def Call.checked : Call E ρ τ → Option Int
  | checkCounter counter => some counter
  | _ => none

def Call.isReset : Call E ρ τ → Bool
  | resetCounter => true
  | _ => false

/-- The counters checked since the last reset, the latest first. -/
def window (calls : List (Call E ρ τ)) : List Int :=
  (calls.reverse.takeWhile fun call => !call.isReset).filterMap Call.checked

omit [KeyProvider ρ PK] [PyText τ] in
theorem window_append_singleton (calls : List (Call E ρ τ)) (call : Call E ρ τ) :
    window (calls ++ [call]) =
      if call.isReset then [] else call.checked.toList ++ window calls := by
  rw [window, List.reverse_append, List.reverse_singleton, List.singleton_append,
    List.takeWhile_cons]
  cases call with
  | resetCounter => rfl
  | checkCounter counter => rfl
  | _ => rfl

omit [KeyProvider ρ PK] [PyText τ] in
theorem counters_lt_iff (call : Call E ρ τ) (replay : ReplayProtection) (c : Int) :
    (call.counters replay).lastCounter < c ↔
      if call.isReset then 0 < c
      else (∀ c' ∈ call.checked.toList, c' < c) ∧ replay.lastCounter < c := by
  cases call with
  | checkCounter counter =>
    show (replay.validate counter).1.lastCounter < c ↔ (∀ c' ∈ [counter], c' < c) ∧ _
    rw [ReplayProtection.validate, List.forall_mem_singleton]
    split
    · show replay.lastCounter < c ↔ _
      omega
    · show counter < c ↔ _
      omega
  | resetCounter => rfl
  | _ => simp [Call.counters, Call.checked, Call.isReset]

theorem run_lastCounter_lt (calls : List (Call E ρ τ)) (c : Int) :
    ((api D).run {} calls).replay.lastCounter < c ↔ 0 < c ∧ ∀ c' ∈ window calls, c' < c := by
  induction calls using List.reverseRecOn with
  | nil => simp [window]
  | append_singleton calls call ih =>
    rw [Mealy.run_append, Mealy.run_cons, Mealy.run_nil, step_state, counters_lt_iff,
      window_append_singleton]
    split
    · simp
    · rw [ih, List.forall_mem_append, and_left_comm]

/-- **Freshness**: in any run, a counter is found fresh if and only if it is positive and above all
counters checked since the last reset, the refused ones included. -/
theorem checkCounter_iff (calls : List (Call E ρ τ)) (counter : Int) :
    answer D calls (.checkCounter counter) = .ok (.bool true) ↔
      0 < counter ∧ ∀ c' ∈ window calls, c' < counter := by
  rw [← run_lastCounter_lt D calls]
  show (Except.ok (Value.bool (((api D).run {} calls).replay.validate counter).2) :
    Except Err Value) = .ok (.bool true) ↔ _
  rw [ReplayProtection.validate]
  split
  · exact iff_of_false (by simp) (by omega)
  · exact iff_of_true rfl (by omega)

/-! ## The Root CA key -/

/-- **The trusted key**: in any run, `verify_certificate` raises without a Root CA key, and
otherwise verifies under the one loaded last; keys that failed to load do not count. -/
theorem verifyCertificate_eq (calls : List (Call E ρ τ)) (certificate : Certificate τ)
    (now : Datetime) :
    answer D calls (.verifyCertificate certificate now) =
      match (calls.filterMap Call.rootKey).getLast? with
      | some publicKey => (verifyCertificate E certificate publicKey now).map .bool
      | none => .error (.runtimeError ("crypto_api.verify_certificate: no Root CA key " ++
          "configured. Call set_root_ca_public_key() first.")) := by
  have hroot : ((api D).run {} calls).rootCaPublicKey =
      (calls.filterMap Call.rootKey).getLast? := by
    have hrun := (api D : Mealy (Module E ρ) (Call E ρ τ) (Except Err Value)).run_eq_getLast?
      Module.rootCaPublicKey Call.rootKey (fun s call publicKey h => by rw [step_state, h]; rfl)
      (fun s call h => by rw [step_state, h]; rfl) {} calls
    rwa [show ({} : Module E ρ).rootCaPublicKey = none from rfl, Option.or_none] at hrun
  show ((((api D).run {} calls).verifyCertificate certificate now).map Value.bool) = _
  rw [Module.verifyCertificate, hroot]
  cases (calls.filterMap Call.rootKey).getLast? with
  | some publicKey => rfl
  | none => rfl

/-! ## The key manager -/

/-- What a key manager is for: it has a public key, and its signatures, raw or DER, verify under
it. -/
def Signs (E : Ecdsa SK PK) {π : Type} [KeyProvider π PK] (keyManager : KeyManager π) : Prop :=
  ∃ publicKey, keyManager.getPublicKey = .ok publicKey ∧
    ∀ nonce entropy sig, keyManager.sign nonce entropy = .ok sig →
      ∃ r s, r < 2 ^ 256 ∧ s < 2 ^ 256 ∧ (sig = rawSignature r s ∨ sig = Der.signature r s) ∧
        E.verify publicKey (Der.signature r s) nonce = .ok ()

theorem Signs.verifies {π : Type} [KeyProvider π PK] {keyManager : KeyManager π}
    (h : Signs E keyManager) {D : Dss} (hD : D.Standard)
    (hpem : ∀ publicKey, E.loadPemPublicKey (E.publicBytes publicKey) = .ok publicKey)
    {nonce signature pem : Bytes} {entropy : Nat}
    (hsign : signNonce D keyManager nonce entropy = .ok signature)
    (hkey : keyManager.getPublicKey.map (serializePublicKey E) = .ok pem)
    (hder : ∀ r s, signature ≠ Der.signature r s) :
    verifySignature E D nonce signature pem = .ok true := by
  obtain ⟨publicKey, hpublicKey, hsigns⟩ := h
  rw [hpublicKey] at hkey
  cases hkey
  obtain ⟨sig, hsig, hraw⟩ := bind_eq_ok.1 hsign
  obtain ⟨r, s, hr, hs, hform, hverify⟩ := hsigns nonce entropy sig hsig
  -- in both cases what is returned is the raw form
  have heq : signature = rawSignature r s := by
    rcases hform with rfl | rfl
    · rw [if_pos (length_rawSignature r s)] at hraw
      cases hraw
      rfl
    · rw [signNonce_signature hD hr hs hsig, Except.ok.injEq] at hsign
      split at hsign
      · exact absurd hsign.symm (hder r s)
      · exact hsign.symm
  rw [heq, verifySignature_raw E hD hr hs, deserializePublicKey, serializePublicKey, hpem, ok_bind,
    BattLock.verifySignature, hverify]

/-- The key managers that the API can come to use in some calls. -/
def InUse (calls : List (Call E ρ τ)) (keyManager : Keys E ρ) : Prop :=
  .configureKeyManager (some keyManager) ∈ calls ∨ ∃ generated, keyManager = softwareKeys generated

omit [KeyProvider ρ PK] [PyText τ] in
theorem keys_eq_some {keyManager : Option (Keys E ρ)} {call : Call E ρ τ} {km : Keys E ρ}
    (h : call.keys keyManager = some km) :
    call = .configureKeyManager (some km) ∨ keyManager = some km ∨
      ∃ generated, km = softwareKeys generated := by
  have hdefault : ∀ generated, some (keyManager.getD (softwareKeys generated)) = some km →
      keyManager = some km ∨ ∃ generated, km = softwareKeys generated := by
    intro generated h
    cases keyManager with
    | some keyManager => exact .inl h
    | none => exact .inr ⟨generated, (Option.some.inj h).symm⟩
  cases call with
  | configureKeyManager keyManager => exact .inl (congrArg _ h)
  | signNonce nonce given generated entropy =>
    cases given with
    | some given => exact .inr (.inl h)
    | none => exact .inr (hdefault generated h)
  | getPublicKeyBytes given generated =>
    cases given with
    | some given => exact .inr (.inl h)
    | none => exact .inr (hdefault generated h)
  | _ => exact .inr (.inl h)

theorem run_inUse (calls : List (Call E ρ τ)) {km : Keys E ρ}
    (h : ((api D).run {} calls).keyManager = some km) : InUse calls km := by
  induction calls using List.reverseRecOn with
  | nil => cases h
  | append_singleton calls call ih =>
    rw [Mealy.run_append, Mealy.run_cons, Mealy.run_nil, step_state] at h
    rcases keys_eq_some h with rfl | hold | hdefault
    · exact .inl (by simp)
    · exact (ih hold).imp_left (List.mem_append_left _)
    · exact .inr hdefault

theorem run_keeps {calls : List (Call E ρ τ)} (hkeep : ∀ km, .configureKeyManager km ∉ calls)
    {s : Module E ρ} {km : Keys E ρ} (hs : s.keyManager = some km) :
    ((api D).run s calls).keyManager = some km := by
  induction calls generalizing s with
  | nil => exact hs
  | cons call calls ih =>
    have hstep : ((api D).step s call).1.keyManager = some km := by
      rw [step_state, hs]
      cases call with
      | configureKeyManager keyManager => exact absurd List.mem_cons_self (hkeep keyManager)
      | signNonce nonce given generated entropy => cases given <;> rfl
      | getPublicKeyBytes given generated => cases given <;> rfl
      | _ => rfl
    exact ih (fun km h => hkeep km (List.mem_cons_of_mem _ h)) hstep

/-- The key manager that a call which names none uses. -/
def Module.active (s : Module E ρ) (generated : SK) : Keys E ρ :=
  s.keyManager.getD (softwareKeys generated)

theorem answer_signNonce (calls : List (Call E ρ τ)) (nonce : Bytes) (generated : SK)
    (entropy : Nat) :
    answer D calls (.signNonce nonce none generated entropy) =
      (signNonce D (((api D).run {} calls).active generated) nonce entropy).map .bytes := by
  show (Except.map Value.bytes (Module.signNonce D _ nonce none generated entropy).2) = _
  rw [Module.signNonce, keyManagerOr_eq]
  rfl

theorem answer_getPublicKeyBytes (calls : List (Call E ρ τ)) (generated : SK) :
    answer D calls (.getPublicKeyBytes none generated) =
      ((((api D).run {} calls).active generated).getPublicKey.map (serializePublicKey E)).map
        .bytes := by
  show (Except.map Value.bytes (Module.getPublicKeyBytes _ none generated).2) = _
  rw [Module.getPublicKeyBytes, keyManagerOr_eq]
  rfl

/-- The key manager that a call uses is the one that the next such call uses. -/
theorem active_after {s : Module E ρ} {call : Call E ρ τ} {generated : SK}
    (hcall : (∃ nonce entropy, call = .signNonce nonce none generated entropy) ∨
      call = .getPublicKeyBytes none generated)
    {between : List (Call E ρ τ)} (hkeep : ∀ km, .configureKeyManager km ∉ between)
    (generated' : SK) :
    ((api D).run ((api D).step s call).1 between).active generated' = s.active generated := by
  have hstep : ((api D).step s call).1.keyManager = some (s.active generated) := by
    rw [step_state]
    rcases hcall with ⟨nonce, entropy, rfl⟩ | rfl
    · rfl
    · rfl
  rw [Module.active, run_keeps D hkeep hstep, Option.getD_some]

/-- **Signing and the public key**: in any run, what `sign_nonce` returns verifies under what
`get_public_key_bytes` returns, whichever is called first and whatever is called in between, as
long as no key manager is configured there and the signature is not a DER one of 64 bytes. -/
theorem signed_verifies (hD : D.Standard)
    (hpem : ∀ publicKey, E.loadPemPublicKey (E.publicBytes publicKey) = .ok publicKey)
    (before between after : List (Call E ρ τ)) (hsigns : ∀ km, InUse before km → Signs E km)
    (hkeep : ∀ km, .configureKeyManager km ∉ between) {nonce signature pem : Bytes}
    {generated generated' : SK} {entropy : Nat}
    (hanswers :
      answer D before (.signNonce nonce none generated entropy) = .ok (.bytes signature) ∧
          answer D (before ++ .signNonce nonce none generated entropy :: between)
            (.getPublicKeyBytes none generated') = .ok (.bytes pem) ∨
        answer D before (.getPublicKeyBytes none generated) = .ok (.bytes pem) ∧
          answer D (before ++ .getPublicKeyBytes none generated :: between)
            (.signNonce nonce none generated' entropy) = .ok (.bytes signature))
    (hder : ∀ r s, signature ≠ Der.signature r s) :
    answer D after (.verifySignature nonce signature pem) = .ok (.bool true) := by
  have hbytes : ∀ {x : Except Err Bytes} {b : Bytes}, x.map Value.bytes = .ok (.bytes b) →
      x = .ok b := by
    intro x b h
    cases x with
    | error e => cases h
    | ok a =>
      cases h
      rfl
  -- both calls use the key manager that is active before the first
  obtain ⟨hsign, hkey⟩ :
      signNonce D (((api D).run {} before).active generated) nonce entropy = .ok signature ∧
        (((api D).run {} before).active generated).getPublicKey.map (serializePublicKey E) =
          .ok pem := by
    rcases hanswers with ⟨hfirst, hsecond⟩ | ⟨hfirst, hsecond⟩
    · rw [answer_signNonce] at hfirst
      rw [answer_getPublicKeyBytes, Mealy.run_append, Mealy.run_cons,
        active_after D (.inl ⟨nonce, entropy, rfl⟩) hkeep] at hsecond
      exact ⟨hbytes hfirst, hbytes hsecond⟩
    · rw [answer_getPublicKeyBytes] at hfirst
      rw [answer_signNonce, Mealy.run_append, Mealy.run_cons,
        active_after D (.inr rfl) hkeep] at hsecond
      exact ⟨hbytes hsecond, hbytes hfirst⟩
  have huse : InUse before (((api D).run {} before).active generated) := by
    cases hkm : ((api D).run {} before).keyManager with
    | some km =>
      rw [Module.active, hkm, Option.getD_some]
      exact run_inUse D before hkm
    | none =>
      rw [Module.active, hkm, Option.getD_none]
      exact .inr ⟨generated, rfl⟩
  have hverify := (hsigns _ huse).verifies hD hpem hsign hkey hder
  show (verifySignature E D nonce signature pem).map Value.bool = _
  rw [hverify]
  rfl

/-! ## A fixed signature -/

/-- Key managers of a scheme with one good signature. -/
abbrev FixedKeys := Keys (fixedEcdsa 1 1) (SoftwareProvider (fixedEcdsa 1 1))

abbrev FixedCall := Call (fixedEcdsa 1 1) (SoftwareProvider (fixedEcdsa 1 1)) Str

theorem softwareKeys_signs (generated : UInt8) :
    Signs (fixedEcdsa 1 1) (softwareKeys generated : FixedKeys) := by
  refine ⟨generated, rfl, fun nonce entropy sig h => ⟨1, 1, by decide, by decide, .inr ?_, ?_⟩⟩
  · cases h
    rfl
  · simp [fixedEcdsa]

/-- The key that is made for the signature stays, although another one could have been made. -/
theorem signed_verifies_default :
    answer derDss ([.resetCounter] : List FixedCall)
      (.verifySignature [1, 2] (rawSignature 1 1) [9]) = .ok (.bool true) := by
  have hsign : answer derDss ([] : List FixedCall) (.signNonce [1, 2] none 9 0) =
      .ok (.bytes (rawSignature 1 1)) := by
    rw [answer_signNonce]
    exact congrArg (Except.map Value.bytes) (show signNonce derDss
      (softwareKeys 9 : FixedKeys) [1, 2] 0 = .ok (rawSignature 1 1) by decide +kernel)
  have hkey : answer derDss ([] ++ [.signNonce [1, 2] none 9 0, .checkCounter 1] : List FixedCall)
      (.getPublicKeyBytes none 5) = .ok (.bytes [9]) := rfl
  have hder : ∀ r s, rawSignature 1 1 ≠ Der.signature r s := by
    intro r s h
    have hhead : (rawSignature 1 1).head? = some 0x30 := congrArg List.head? h
    exact absurd hhead (by decide)
  refine signed_verifies derDss derDss_standard (fun _ => rfl) [] [.checkCounter 1] [.resetCounter]
    (fun km huse => ?_) (fun km h => ?_) (.inl ⟨hsign, hkey⟩) hder
  · obtain h | ⟨generated, rfl⟩ := huse
    · cases h
    · exact softwareKeys_signs generated
  · simp at h

end BattLock.CryptoApi
