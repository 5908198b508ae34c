import BattLock.Crypto.Proof.RawSignature
import BattLock.Provisioning.Proof.Healthy

/-!
# What the compatibility test tests

Over a healthy line the test of `provisioning/cross_compat_test.py` passes if and only if a
signature of the chip verifies in Python under the key it gives out, and the chip verifies one made
in Python but not the same one with a bit flipped (`main_passes_iff`).
-/

namespace BattLock.CrossCompat

open Python Provisioning

theorem length_testNonce : testNonce.length = 32 := rfl

theorem length_derToRaw {D : Dss} {derSignature rawSignature : Bytes}
    (h : derToRaw D derSignature = .ok rawSignature) : rawSignature.length = 64 := by
  obtain ⟨⟨r, s⟩, -, h⟩ := bind_eq_ok.1 h
  obtain ⟨rBytes, hr, h⟩ := bind_eq_ok.1 h
  obtain ⟨sBytes, hs, h⟩ := bind_eq_ok.1 h
  cases h
  rw [List.length_append, length_toBytes hr, length_toBytes hs]
  rfl

theorem length_pubkeyToRaw {PK : Type} {publicNumbers : PK → Nat × Nat} {pubKeyObj : PK}
    {raw : Bytes} (h : pubkeyToRaw publicNumbers pubKeyObj = .ok raw) : raw.length = 64 := by
  obtain ⟨x, hx, h⟩ := bind_eq_ok.1 h
  obtain ⟨y, hy, h⟩ := bind_eq_ok.1 h
  cases h
  rw [List.length_append, length_toBytes hx, length_toBytes hy]

theorem flipFirst_ok {data bad : Bytes} (h : flipFirst data = .ok bad) :
    bad.length = data.length := by
  cases data with
  | nil => cases h
  | cons b bs =>
    cases h
    rfl

/-! ## Steps that are what they are for the chip -/

section
variable {κ α : Type} {k : κ} {out : List (String × Bytes)}

theorem triple_lift {y : Except Err α} :
    Prog.Triple (Bench.Has (κ := κ) · k out) (Prog.lift y) (fun a s => y = .ok a ∧ s.Has k out)
      (fun e _ => y = .error e) :=
  Prog.Triple.lift (fun _ _ hy hs => ⟨hy, hs⟩) (fun _ _ hy _ => hy)

theorem triple_assert {condition : Bool} {message : String} :
    Prog.Triple (Bench.Has (κ := κ) · k out) (assert condition message)
      (fun _ s => condition = true ∧ s.Has k out) (fun _ _ => condition = false) := by
  cases condition with
  | true => exact ⟨fun s hs => ⟨rfl, hs⟩⟩
  | false => exact ⟨fun s hs => rfl⟩

end

/-! ## The three tests -/

variable {κ SK PK : Type} (element : SecureElement κ) (E : Ecdsa SK PK) (D : Dss)
  (fromEncodedPoint : Bytes → Except Err PK) (publicNumbers : PK → Nat × Nat)

/-- A signature of the chip verifies in Python, under the key the chip gives out. -/
def ChipToPython (queries : Queries) (k : κ) : Prop :=
  ∃ sigHw raw key, (element.chip k queries.sign.1).createSignature testNonce = some sigHw ∧
    (element.chip k queries.pubkey.1).generatePublicKey = some raw ∧
    ATECC608.rawPubkeyToKey fromEncodedPoint raw.toList = .ok key ∧
    CryptoApi.verifySignature E D testNonce sigHw.toList (serializePublicKey E key) = .ok true

/-- The chip verifies a signature made in Python. -/
def Verified (priv : SK) (signing : Nat) (queries : Queries) (k : κ) (sigSw pubRaw : Bytes) :
    Prop :=
  signMessageRaw E D priv testNonce signing = .ok sigSw ∧
    pubkeyToRaw publicNumbers (E.publicKey priv) = .ok pubRaw ∧
    (element.chip k queries.verify.1).verifySignature testNonce sigSw pubRaw = true

/-- It refuses the same one with its first bit flipped. -/
def Refused (queries : Queries) (k : κ) (sigSw pubRaw : Bytes) : Prop :=
  ∃ badSig, flipFirst sigSw = .ok badSig ∧
    (element.chip k queries.verifyBad.1).verifySignature testNonce badSig pubRaw = false

section
variable {queries : Queries} {k : κ} {out : List (String × Bytes)}

theorem triple_testA (hsign : 134 ≤ queries.sign.2) (hpubkey : 134 ≤ queries.pubkey.2) :
    Prog.Triple (Bench.Has · k out) (testA element E D fromEncodedPoint queries)
      (fun _ s => ChipToPython element E D fromEncodedPoint queries k ∧ s.Has k out)
      (fun _ _ => ¬ ChipToPython element E D fromEncodedPoint queries k) := by
  unfold testA
  refine ((triple_of_quiet fun s hs =>
    sign_quiet element hs queries.sign.1 hsign length_testNonce).exits ?_).bind fun sigHw =>
      Prog.Triple.assuming fun hsig => ?_
  · intro e s he hpass
    obtain ⟨sig, raw, key, hsome, -⟩ := hpass
    rw [hsome] at he
    cases he
  refine ((triple_of_quiet fun s hs => getPublicKey_quiet element hs queries.pubkey.1 hpubkey
    fromEncodedPoint).exits ?_).bind fun key => Prog.Triple.assuming fun hkey => ?_
  · intro e s he hpass
    obtain ⟨sig, raw, key, -, hsome, hpoint, -⟩ := hpass
    rw [quietPublicKey_eq_ok.2 ⟨raw, hsome, hpoint⟩] at he
    cases he
  obtain ⟨sig, hcreated, rfl⟩ : ∃ sig, (element.chip k queries.sign.1).createSignature testNonce =
      some sig ∧ sigHw = sig.toList := by
    cases hsome : (element.chip k queries.sign.1).createSignature testNonce with
    | none =>
      rw [hsome] at hsig
      cases hsig
    | some sig =>
      rw [hsome] at hsig
      cases hsig
      exact ⟨sig, rfl, rfl⟩
  obtain ⟨raw, hgenerated, hpoint⟩ := quietPublicKey_eq_ok.1 hkey
  have hpass : ChipToPython element E D fromEncodedPoint queries k ↔
      CryptoApi.verifySignature E D testNonce sig.toList (serializePublicKey E key) =
        .ok true := by
    refine ⟨fun hpass => ?_, fun hok => ⟨sig, raw, key, hcreated, hgenerated, hpoint, hok⟩⟩
    obtain ⟨sig', raw', key', hcreated', hgenerated', hpoint', hok⟩ := hpass
    rw [hcreated, Option.some.injEq] at hcreated'
    rw [hgenerated, Option.some.injEq] at hgenerated'
    subst hcreated' hgenerated'
    rw [hpoint, Except.ok.injEq] at hpoint'
    rw [hpoint', hok]
  rw [hpass]
  refine (triple_lift.exits ?_).bind fun okA => Prog.Triple.assuming fun hokA => ?_
  · intro e s he hok
    rw [hok] at he
    cases he
  refine triple_assert.mono (fun _ hs => hs) (fun _ s hs => ⟨?_, hs.2⟩) fun _ _ hfalse hok => ?_
  · rw [hokA, hs.1]
  · rw [hokA, hfalse] at hok
    cases hok

theorem triple_testB {priv : SK} {signing : Nat} (hverify : 134 ≤ queries.verify.2) :
    Prog.Triple (Bench.Has · k out) (testB element E D publicNumbers queries priv signing)
      (fun r s => Verified element E D publicNumbers priv signing queries k r.1 r.2 ∧ s.Has k out)
      (fun _ _ => ∀ sigSw pubRaw,
        ¬ Verified element E D publicNumbers priv signing queries k sigSw pubRaw) := by
  unfold testB
  refine (triple_lift.exits ?_).bind fun sigSw => Prog.Triple.assuming fun hsig => ?_
  · intro e s he sigSw pubRaw hpass
    rw [hpass.1] at he
    cases he
  refine (triple_lift.exits ?_).bind fun pubRaw => Prog.Triple.assuming fun hpub => ?_
  · intro e s he sigSw pubRaw hpass
    rw [hpass.2.1] at he
    cases he
  have hlength : sigSw.length = 64 := length_derToRaw hsig
  refine ((triple_of_quiet fun s hs => verify_quiet element hs queries.verify.1 hverify
    length_testNonce hlength (length_pubkeyToRaw hpub)).exits ?_).bind fun resp =>
      Prog.Triple.assuming fun hresp => ?_
  · intro e s he
    cases he
  cases hresp
  have hcond : decide ((if (element.chip k queries.verify.1).verifySignature testNonce sigSw pubRaw
      then "VERIFY:1".toList else "VERIFY:0".toList) = "VERIFY:1".toList) =
        (element.chip k queries.verify.1).verifySignature testNonce sigSw pubRaw := by
    cases (element.chip k queries.verify.1).verifySignature testNonce sigSw pubRaw with
    | true => rfl
    | false => rfl
  rw [hcond]
  refine (triple_assert.exits ?_).bind fun _ => Prog.Triple.assuming fun hok => ?_
  · intro e s hfalse sigSw' pubRaw' hpass
    obtain ⟨hsig', hpub', hok⟩ := hpass
    rw [hsig, Except.ok.injEq] at hsig'
    rw [hpub, Except.ok.injEq] at hpub'
    rw [← hsig', ← hpub', hfalse] at hok
    cases hok
  · exact Prog.Triple.pure fun s hs => ⟨⟨hsig, hpub, hok⟩, hs⟩

theorem triple_testC {sigSw pubRaw : Bytes} (hverifyBad : 134 ≤ queries.verifyBad.2)
    (hsig : sigSw.length = 64) (hpub : pubRaw.length = 64) :
    Prog.Triple (Bench.Has · k out) (testC element queries sigSw pubRaw)
      (fun _ s => Refused element queries k sigSw pubRaw ∧ s.Has k out)
      (fun _ _ => ¬ Refused element queries k sigSw pubRaw) := by
  unfold testC
  refine (triple_lift.exits ?_).bind fun badSig => Prog.Triple.assuming fun hbad => ?_
  · intro e s he hpass
    obtain ⟨badSig, hbad, -⟩ := hpass
    rw [hbad] at he
    cases he
  have hlength : badSig.length = 64 := (flipFirst_ok hbad).trans hsig
  refine ((triple_of_quiet fun s hs => verify_quiet element hs queries.verifyBad.1 hverifyBad
    length_testNonce hlength hpub).exits ?_).bind fun resp => Prog.Triple.assuming fun hresp => ?_
  · intro e s he
    cases he
  cases hresp
  have hcond : decide ((if (element.chip k queries.verifyBad.1).verifySignature testNonce badSig
      pubRaw then "VERIFY:1".toList else "VERIFY:0".toList) = "VERIFY:0".toList) =
        !(element.chip k queries.verifyBad.1).verifySignature testNonce badSig pubRaw := by
    cases (element.chip k queries.verifyBad.1).verifySignature testNonce badSig pubRaw with
    | true => rfl
    | false => rfl
  rw [hcond]
  refine triple_assert.mono (fun _ hs => hs) (fun _ s hs => ⟨⟨badSig, hbad, ?_⟩, hs.2⟩)
    fun _ _ hfalse hpass => ?_
  · simpa using hs.1
  · obtain ⟨badSig', hbad', hrefused⟩ := hpass
    rw [hbad, Except.ok.injEq] at hbad'
    rw [hbad', hrefused] at hfalse
    cases hfalse

end

/-- **The compatibility test** passes over a healthy line if and only if each side accepts the
other's signature and the chip refuses the tampered one. -/
theorem main_passes_iff (port : String) {env : Surroundings SK} (queries : Queries) (priv : SK)
    (signing : Nat) (k : κ) (out : List (String × Bytes)) (hserial : env.hasSerial = true)
    {arrived : List Char} (hopened : env.opened = .ok (.opened arrived []))
    (hping : 134 ≤ env.ping.2) (hsign : 134 ≤ queries.sign.2) (hpubkey : 134 ≤ queries.pubkey.2)
    (hverify : 134 ≤ queries.verify.2) (hverifyBad : 134 ≤ queries.verifyBad.2)
    (hclosed : env.closed = .ok ()) :
    (main element E D fromEncodedPoint publicNumbers port env queries priv signing
        (.start k out)).2 = .ok () ↔
      ChipToPython element E D fromEncodedPoint queries k ∧ ∃ sigSw pubRaw,
        Verified element E D publicNumbers priv signing queries k sigSw pubRaw ∧
          Refused element queries k sigSw pubRaw := by
  obtain ⟨h₀, hconnect⟩ := connect_quiet element (.start k out) port hserial hopened hping
  rw [main, Prog.bind_of_ok hconnect]
  generalize (connect element port env (.start k out)).1 = s at h₀
  refine Prog.Triple.ok_iff (P := (Bench.Has · k out)) ?_ h₀
  refine ((triple_testA element E D fromEncodedPoint hsign hpubkey).exits
    fun _ _ hfail hpass => hfail hpass.1).bind fun _ => Prog.Triple.assuming fun hA => ?_
  refine ((triple_testB element E D publicNumbers hverify).exits ?_).bind fun r =>
    Prog.Triple.assuming fun hB => ?_
  · intro e s hfail hpass
    obtain ⟨-, sigSw, pubRaw, hverified, -⟩ := hpass
    exact hfail sigSw pubRaw hverified
  obtain ⟨sigSw, pubRaw⟩ := r
  refine ((triple_testC element hverifyBad (length_derToRaw hB.1)
    (length_pubkeyToRaw hB.2.1)).exits ?_).bind fun _ => Prog.Triple.assuming fun hC => ?_
  · intro e s hfail hpass
    obtain ⟨-, sigSw', pubRaw', hverified, hrefused⟩ := hpass
    obtain rfl : sigSw = sigSw' := Except.ok.inj (hB.1.symm.trans hverified.1)
    obtain rfl : pubRaw = pubRaw' := Except.ok.inj (hB.2.1.symm.trans hverified.2.1)
    exact hfail hrefused
  rw [hclosed]
  refine close_returns.mono (fun _ _ => trivial) (fun _ _ _ => ?_) fun _ _ hs => hs.elim
  exact ⟨hA, sigSw, pubRaw, hB, hC⟩

/-- Every message has the signature of ones. -/
def onesEcdsa : Ecdsa Unit Unit where
  publicKey _ := ()
  sign _ _ _ := Der.signature 1 1
  verify _ signature _ :=
    if signature = Der.signature 1 1 then .ok () else .error .invalidSignature
  loadPemPublicKey _ := .ok ()
  publicBytes _ := []

/-- A chip of that scheme. -/
def onesElement : SecureElement Unit where
  chip _ _ := {
    createSignature := fun _ => some ⟨(rawSignature 1 1).toArray, by decide⟩
    generatePublicKey := some (Vector.replicate 64 1)
    createNewKeyPair := true
    verifySignature := fun _ sig _ => sig = rawSignature 1 1 }
  newKeyPair k _ := k

/-- It passes the test. -/
theorem main_passes_ones :
    (main onesElement onesEcdsa derDss (fun _ => .ok ()) (fun _ => (1, 1)) "COM5"
      ⟨true, .ok (.opened [] []), (0, 134), (0, 0), (0, 0), fun _ => none, .ok (), .ok (),
        fun _ => .done, fun _ => .ok (), (), 0,
        ⟨⟨2026, 1, 1, 0⟩, by decide, by decide, by decide, by decide⟩,
        ⟨⟨2026, 1, 1, 0⟩, by decide, by decide, by decide, by decide⟩,
        ⟨⟨2026, 1, 1, 0⟩, by decide, by decide, by decide, by decide⟩⟩
      ⟨(0, 134), (0, 134), (0, 134), (0, 134)⟩ () 0 (.start () [])).2 = .ok () := by
  refine (main_passes_iff onesElement onesEcdsa derDss (fun _ => .ok ()) (fun _ => (1, 1)) "COM5"
    ⟨(0, 134), (0, 134), (0, 134), (0, 134)⟩ () 0 () [] rfl rfl (Nat.le_refl _) (Nat.le_refl _)
    (Nat.le_refl _) (Nat.le_refl _) (Nat.le_refl _) rfl).2
      ⟨⟨_, _, (), rfl, rfl, rfl, ?_⟩, rawSignature 1 1, rawSignature 1 1, ⟨?_, ?_, ?_⟩,
        0x01 :: (rawSignature 1 1).tail, ?_, ?_⟩
  all_goals decide +kernel

end BattLock.CrossCompat
