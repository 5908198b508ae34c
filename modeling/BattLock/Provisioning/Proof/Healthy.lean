import BattLock.Crypto.Proof.Binding
import BattLock.Provisioning.CrossCompat
import BattLock.Provisioning.Proof.Directory

/-!
# The tools over a healthy line

With a bridge that has nothing under way when the port is opened, and every reply in time, the tools
depend on the chip and the keys alone: what it takes for a certificate to be issued
(`provision_healthy`), and what the compatibility test tests (`main_passes_iff`).
-/

namespace BattLock

open Python Hardware Provisioning

variable {κ SK PK : Type} (element : SecureElement κ)

/-! ## Steps -/

namespace Provisioning

/-- Quiet, with an element and a directory. -/
def Bench.Has (s : Bench κ) (k : κ) (out : List (String × Bytes)) : Prop :=
  s.chip.Quiet ∧ s.element = k ∧ s.out = out

/-- What a query for the public key gives over a quiet line. -/
def quietPublicKey (fromEncodedPoint : Bytes → Except Err PK) (chip : Chip) : Except Err PK :=
  match chip.generatePublicKey with
  | none => .error (.runtimeError "get_public_key failed: ERR:generatePublicKey failed")
  | some key => ATECC608.rawPubkeyToKey fromEncodedPoint key.toList

theorem quietPublicKey_eq_ok {fromEncodedPoint : Bytes → Except Err PK} {chip : Chip} {key : PK} :
    quietPublicKey fromEncodedPoint chip = .ok key ↔ ∃ raw, chip.generatePublicKey = some raw ∧
      ATECC608.rawPubkeyToKey fromEncodedPoint raw.toList = .ok key := by
  unfold quietPublicKey
  cases chip.generatePublicKey with
  | none => simp
  | some raw => simp

section
variable {s : Bench κ} {k : κ} {out : List (String × Bytes)} (h : s.Has k out) (entropy : Nat)
include h

theorem Bench.Has.asked (call : Remote.Call) :
    element.asked s.chip k entropy call.request =
      match call with
      | .genkey => element.createNewKeyPair k entropy
      | _ => k := by
  obtain ⟨hconnected, ser, hser, -⟩ := h.1
  unfold SecureElement.asked
  rw [hconnected, hser]
  exact Remote.handled_request element k entropy call

variable {arriving : Nat} (harriving : 134 ≤ arriving)
include harriving

theorem genkey_quiet :
    (genkey element entropy arriving s).1.Has (element.createNewKeyPair k entropy) out ∧
      (genkey element entropy arriving s).2 =
        if (element.chip k entropy).createNewKeyPair then .ok ()
        else .error (.runtimeError
          "genkey failed: ERR:createNewKeyPair failed (slot 0 locked/config?)") := by
  have hk := h.asked element entropy .genkey
  obtain ⟨chip, k', out', printed⟩ := s
  obtain ⟨hquiet, rfl, rfl⟩ := h
  obtain ⟨hquiet', hr⟩ := hquiet.genkey (element.chip k' entropy) harriving
  exact ⟨⟨hquiet', hk, rfl⟩, hr⟩

theorem getPublicKey_quiet (fromEncodedPoint : Bytes → Except Err PK) :
    (getPublicKey element fromEncodedPoint entropy arriving s).1.Has k out ∧
      (getPublicKey element fromEncodedPoint entropy arriving s).2 =
        quietPublicKey fromEncodedPoint (element.chip k entropy) := by
  have hk := h.asked element entropy .getPublicKey
  obtain ⟨chip, k', out', printed⟩ := s
  obtain ⟨hquiet, rfl, rfl⟩ := h
  obtain ⟨hquiet', hr⟩ := hquiet.getPublicKey (element.chip k' entropy) harriving fromEncodedPoint
  exact ⟨⟨hquiet', hk, rfl⟩, hr⟩

theorem sign_quiet {data : Bytes} (hdata : data.length = 32) :
    (CrossCompat.sign element data entropy arriving s).1.Has k out ∧
      (CrossCompat.sign element data entropy arriving s).2 =
        match (element.chip k entropy).createSignature data with
        | none => .error (.runtimeError "sign failed: ERR:createSignature failed")
        | some signature => .ok signature.toList := by
  have hk := h.asked element entropy (.sign data)
  obtain ⟨chip, k', out', printed⟩ := s
  obtain ⟨hquiet, rfl, rfl⟩ := h
  obtain ⟨hquiet', hr⟩ := hquiet.sign (element.chip k' entropy) harriving data
  rw [if_neg (not_not.2 hdata)] at hr
  exact ⟨⟨hquiet', hk, rfl⟩, hr⟩

theorem verify_quiet {msg sig pub : Bytes} (hmsg : msg.length = 32) (hsig : sig.length = 64)
    (hpub : pub.length = 64) :
    (CrossCompat.query element (verifyRequest msg sig pub) entropy arriving s).1.Has k out ∧
      (CrossCompat.query element (verifyRequest msg sig pub) entropy arriving s).2 =
        .ok (if (element.chip k entropy).verifySignature msg sig pub then "VERIFY:1".toList
          else "VERIFY:0".toList) := by
  -- a list of the right length is a vector
  have hk := h.asked element entropy (.verify ⟨msg.toArray, hmsg⟩ ⟨sig.toArray, hsig⟩
    ⟨pub.toArray, hpub⟩)
  obtain ⟨chip, k', out', printed⟩ := s
  obtain ⟨hquiet, rfl, rfl⟩ := h
  obtain ⟨hquiet', hr⟩ := hquiet.verify (element.chip k' entropy) harriving ⟨msg.toArray, hmsg⟩
    ⟨sig.toArray, hsig⟩ ⟨pub.toArray, hpub⟩
  exact ⟨⟨hquiet', hk, rfl⟩, hr⟩

end

theorem connect_quiet (s : Bench κ) (port : String) {env : Surroundings SK}
    (hserial : env.hasSerial = true) {arrived : List Char}
    (hopened : env.opened = .ok (.opened arrived [])) (hping : 134 ≤ env.ping.2) :
    (connect element port env s).1.Has s.element s.out ∧
      (connect element port env s).2 = .ok () := by
  obtain ⟨hr, hquiet⟩ :=
    Remote.connect_opened { port } arrived ⟨element.chip s.element env.ping.1, env.ping.2⟩ hping
  rw [← hserial, ← hopened] at hr hquiet
  exact ⟨⟨hquiet, rfl, rfl⟩, hr⟩

theorem close_returns : (close (κ := κ) (.ok ())).Returns := by
  refine ⟨fun s _ => ?_⟩
  unfold close
  cases s.chip.ser with
  | none => trivial
  | some _ => trivial

/-- A step that is what it is for the chip, as a triple. -/
theorem triple_of_quiet {α : Type} {k k' : κ} {out : List (String × Bytes)}
    {x : Prog (Bench κ) Err α} {r : Except Err α}
    (hx : ∀ s : Bench κ, s.Has k out → (x s).1.Has k' out ∧ (x s).2 = r) :
    Prog.Triple (Bench.Has · k out) x (fun a s => r = .ok a ∧ s.Has k' out)
      (fun e _ => r = .error e) := by
  refine ⟨fun s hs => ?_⟩
  obtain ⟨hhas, hr⟩ := hx s hs
  generalize x s = res at hhas hr
  obtain ⟨s', r'⟩ := res
  cases r' with
  | ok a => exact ⟨hr.symm, hhas⟩
  | error e => exact hr.symm

/-! ## Provisioning -/

/-- The line, the clock and the disk as they should be. -/
structure Healthy (args : Args) (env : Surroundings SK) : Prop where
  hasSerial : env.hasSerial = true
  opened : ∃ arrived, env.opened = .ok (.opened arrived [])
  ping : 134 ≤ env.ping.2
  genkey : 134 ≤ env.genkey.2
  pubkey : 134 ≤ env.pubkey.2
  lost : ∀ query, env.lost query = none
  closed : env.closed = .ok ()
  madeDirs : env.madeDirs = .ok ()
  disk : ∀ name, env.disk name = .done
  stdout : ∀ line, env.stdout line = .ok ()
  /-- The calendar has the expiry date. -/
  expiry : env.expiry.val.year + 5 ≤ 9999
  /-- The check is done before it. -/
  now : env.now.val.ordinal < env.expiry.val.ordinal + 365 * 5

/-- The chip after the key pair was made. -/
def keyed (args : Args) (env : Surroundings SK) (k : κ) : κ :=
  if args.skipGenkey then k else element.newKeyPair k env.genkey.1

theorem exists_certificate {E : Ecdsa SK PK} {args : Args} (env : Surroundings SK)
    (hbattery : args.batteryId.IsUnicode) (hmanufacturer : args.manufacturerId.IsUnicode)
    (key : PK) (expiry : Datetime) :
    ∃ cert, createCertificate E (RootCA.init E env.rootCa) args.batteryId args.manufacturerId
      (serializePublicKey E key) env.issue.val.strftime expiry.strftime env.signing = .ok cert := by
  obtain ⟨batteryId, hbattery⟩ := Str.exists_encode hbattery
  obtain ⟨manufacturerId, hmanufacturer⟩ := Str.exists_encode hmanufacturer
  obtain ⟨issueDate, hissue⟩ := Str.exists_encode (isUnicode_strftime env.issue.val)
  obtain ⟨expiryDate, hexpiryDate⟩ := Str.exists_encode (isUnicode_strftime expiry)
  have hdata : ∀ signature, certificateData ⟨args.batteryId, args.manufacturerId,
      E.publicBytes key, env.issue.val.strftime, expiry.strftime, signature⟩ =
        .ok (batteryId ++ manufacturerId ++ E.publicBytes key ++ issueDate ++ expiryDate) := by
    intro signature
    simp only [certificateData, PyText.encode, hbattery, hmanufacturer, hissue, hexpiryDate,
      ok_bind, pure_eq_ok]
  rw [createCertificate, serializePublicKey, hdata]
  exact ⟨_, rfl⟩

/-- Quiet, and not at `[5/5]` yet. -/
def Bench.Ready (s : Bench κ) (k : κ) (out : List (String × Bytes)) : Prop :=
  s.Has k out ∧ At False out s

section
variable {args : Args} {env : Surroundings SK} (h : Healthy args env) {k k' : κ}
  {out : List (String × Bytes)}
include h

theorem triple_say {P : Bench κ → Prop} {line : Line}
    (hP : ∀ s, P s → P { s with printed := s.printed ++ [line] }) {Q : Err → Bench κ → Prop} :
    Prog.Triple P (say env line) (fun _ => P) Q := by
  refine ⟨fun s hs => ?_⟩
  rw [say, h.stdout line]
  exact hP s hs

theorem ready_say {line : Line} (hline : line ≠ .saving) {Q : Err → Bench κ → Prop} :
    Prog.Triple (Bench.Ready · k out) (say env line) (fun _ s => s.Ready k out) Q :=
  triple_say h fun _ hs => ⟨hs.1, hs.2.said hline⟩

theorem ready_query {α : Type} (query : Query) {x : Prog (Bench κ) Err α} {r : Except Err α}
    (hx : ∀ s : Bench κ, s.Has k out → (x s).1.Has k' out ∧ (x s).2 = r)
    (hprinted : ∀ s, (x s).1.printed = s.printed) (hout : ∀ s, (x s).1.out = s.out) :
    Prog.Triple (Bench.Ready · k out) (whileOpen (env.lost query) x)
      (fun a s => r = .ok a ∧ s.Ready k' out) (fun e _ => r = .error e) := by
  rw [h.lost query]
  refine ((triple_of_quiet hx).both (at_of_unchanged hout hprinted)).mono (fun _ hs => hs)
    (fun _ _ hs => ?_) (fun _ _ hs => hs.1)
  exact ⟨hs.1.1, hs.1.2, hs.2⟩

/-! ### The certificate -/

theorem say_returns (line : Line) : (say (κ := κ) env line).Returns :=
  triple_say h fun _ hs => hs

theorem write_returns (name : String) (data : Bytes) :
    (write (κ := κ) env name data).Returns := by
  have hstore : (store (κ := κ) env name data).Returns := by
    refine ⟨fun s _ => ?_⟩
    rw [store, h.disk name]
    trivial
  exact hstore.bind fun _ => say_returns h _

theorem not_expired {expiry : Datetime} (hexpiry : env.expiry.val.addDays (365 * 5) = .ok expiry) :
    expiry.midnight.lt env.now.val = false := by
  obtain ⟨hvalid, hordinal, -⟩ := Datetime.addDays_ok env.expiry.property hexpiry
  have hlt := mt (Datetime.lt_iff hvalid.midnight env.now.property).1
  rw [Bool.not_eq_true] at hlt
  apply hlt
  have htime := env.now.property.time
  have hnow := h.now
  have hmul := Nat.mul_le_mul_right Datetime.dayLength
    (show env.now.val.ordinal + 1 ≤ expiry.ordinal by omega)
  rw [Nat.add_mul] at hmul
  rw [Datetime.stamp_midnight, Datetime.stamp]
  omega

theorem verified {E : Ecdsa SK PK} (hideal : E.Ideal env.rootCa) {key : PK} {expiry : Datetime}
    {cert : Certificate Str} (hexpiry : env.expiry.val.addDays (365 * 5) = .ok expiry)
    (hcert : createCertificate E (RootCA.init E env.rootCa) args.batteryId args.manufacturerId
      (serializePublicKey E key) env.issue.val.strftime expiry.strftime env.signing = .ok cert) :
    verifyCertificate E cert (RootCA.init E env.rootCa).publicKey env.now.val = .ok true := by
  obtain ⟨hvalid, -, -⟩ := Datetime.addDays_ok env.expiry.property hexpiry
  have hdate : cert.expiryDate = expiry.strftime := by
    obtain ⟨data, -, hcert⟩ := bind_eq_ok.1 hcert
    cases hcert
    rfl
  refine (verifyCertificate_of_created hideal hcert rfl).2 ⟨rfl, ?_⟩
  rw [isCertificateExpired_strftime hvalid hdate, not_expired h hexpiry]

theorem issueCertificate_returns {E : Ecdsa SK PK} (hideal : E.Ideal env.rootCa)
    (privateBytes : SK → Bytes) {key : PK}
    (hpem : ∃ text, decode (serializePublicKey E key) = .ok text)
    (hbattery : args.batteryId.IsUnicode) (hmanufacturer : args.manufacturerId.IsUnicode) :
    (issueCertificate (κ := κ) E privateBytes args env key).Returns := by
  obtain ⟨text, htext⟩ := hpem
  obtain ⟨expiry, hexpiry⟩ :=
    Datetime.exists_addDays env.expiry.property h.expiry (Nat.le_refl (365 * 5))
  obtain ⟨cert, hcert⟩ := exists_certificate (E := E) env hbattery hmanufacturer key expiry
  unfold issueCertificate saveArtifacts
  refine (write_returns h _ _).bind fun _ => (say_returns h _).bind fun _ => ?_
  refine .lift_bind hexpiry <| .lift_bind hcert <| .lift_bind (verified h hideal hexpiry hcert) ?_
  rw [if_neg (by decide)]
  refine (say_returns h _).bind fun _ => (say_returns h _).bind fun _ => .lift_bind htext ?_
  refine (write_returns h _ _).bind fun _ => (write_returns h _ _).bind fun _ => ?_
  refine (write_returns h _ _).bind fun _ => ?_
  rw [h.closed]
  exact close_returns.bind fun _ => say_returns h _

/-- A certificate is issued if and only if the identifiers have an encoding. -/
theorem issueCertificate_healthy {E : Ecdsa SK PK} (hideal : E.Ideal env.rootCa)
    (privateBytes : SK → Bytes) {key : PK}
    (hpem : ∃ text, decode (serializePublicKey E key) = .ok text) :
    Prog.Triple (Bench.Ready · k out) (issueCertificate E privateBytes args env key)
      (fun _ s => (args.batteryId.IsUnicode ∧ args.manufacturerId.IsUnicode) ∧ s.element = k ∧
        ∃ issue : Issue E args env, issue.key = key ∧ issue.Saved privateBytes out s.out)
      (fun _ _ => ¬ (args.batteryId.IsUnicode ∧ args.manufacturerId.IsUnicode)) := by
  have hchip : Prog.Triple (fun s : Bench κ => s.element = k)
      (issueCertificate E privateBytes args env key) (fun _ s => s.element = k)
      (fun _ s => s.element = k) :=
    (keepsChip_issueCertificate E privateBytes args env key).triple fun _ _ => Eq.trans
  have hleaves := hchip.both (issueCertificate_leaves E privateBytes args env key out)
  have hpre : ∀ s : Bench κ, s.Ready k out → s.element = k ∧ At False out s :=
    fun s hs => ⟨hs.1.2.1, hs.2⟩
  by_cases hids : args.batteryId.IsUnicode ∧ args.manufacturerId.IsUnicode
  · have hreturns := issueCertificate_returns (κ := κ) h hideal privateBytes hpem hids.1 hids.2
    refine (hleaves.both hreturns).mono (fun s hs => ⟨hpre s hs, trivial⟩) (fun _ s hs => ?_)
      (fun _ _ hs => hs.2.elim)
    exact ⟨hids, hs.1.1, hs.1.2.2⟩
  · refine hleaves.mono hpre (fun _ s hs => ?_) (fun _ _ _ => hids)
    obtain ⟨hk, -, issue, hkey, hsaved⟩ := hs
    obtain ⟨signature, heq⟩ := issue.cert_eq
    have hunicode := issue.isUnicode
    rw [heq] at hunicode
    exact absurd ⟨hunicode.batteryId, hunicode.manufacturerId⟩ hids

end

/-! ### A run -/

section
variable {args : Args} {env : Surroundings SK} {k : κ} {out : List (String × Bytes)}

theorem connect_ready (h : Healthy args env) {Q : Err → Bench κ → Prop} :
    Prog.Triple (fun s => s.element = k ∧ At False out s) (connect element args.port env)
      (fun _ s => s.Ready k out) Q := by
  obtain ⟨arrived, hopened⟩ := h.opened
  have hconnect : Prog.Triple (fun s => s.element = k ∧ s.out = out) (connect element args.port env)
      (fun _ s => s.Has k out) (fun _ _ => False) := by
    refine ⟨?_⟩
    rintro s ⟨rfl, rfl⟩
    obtain ⟨hhas, hr⟩ := connect_quiet element s args.port h.hasSerial hopened h.ping
    generalize connect element args.port env s = res at hhas hr
    obtain ⟨s', r⟩ := res
    obtain rfl : r = .ok () := hr
    exact hhas
  have hat : Prog.Triple (At False out) (connect element args.port env) (fun _ => At False out)
      (fun _ => At False out) := at_of_unchanged (fun _ => rfl) fun _ => rfl
  exact (hconnect.both hat).mono (fun _ hs => ⟨⟨hs.1, hs.2.2⟩, hs.2⟩) (fun _ _ hs => hs)
    fun _ _ hs => hs.1.elim

theorem createKey_healthy (h : Healthy args env) :
    Prog.Triple (Bench.Ready · k out) (createKey element args env)
      (fun _ s =>
        (args.skipGenkey = false → (element.chip k env.genkey.1).createNewKeyPair = true) ∧
          s.Ready (keyed element args env k) out)
      (fun _ _ => ¬ (args.skipGenkey = false →
        (element.chip k env.genkey.1).createNewKeyPair = true)) := by
  have hcreating : Line.creating ≠ .saving := nofun
  have hcreated : Line.created ≠ .saving := nofun
  have hskipping : Line.skipping ≠ .saving := nofun
  unfold createKey keyed
  cases args.skipGenkey with
  | true => exact (ready_say h hskipping).results fun _ _ hs => ⟨nofun, hs⟩
  | false =>
    refine (ready_say h hcreating).bind fun _ => ?_
    refine ((ready_query h .genkey (fun s hs => genkey_quiet element hs env.genkey.1 h.genkey)
      (fun _ => rfl) fun _ => rfl).exits fun e s he => ?_).bind fun _ =>
        Prog.Triple.assuming fun hr => ?_
    · intro hmade
      rw [if_pos (hmade rfl)] at he
      cases he
    have hmade : (element.chip k env.genkey.1).createNewKeyPair = true := by
      by_contra hfailed
      rw [if_neg hfailed] at hr
      cases hr
    rw [SecureElement.createNewKeyPair, if_pos hmade]
    exact (ready_say h hcreated).results fun _ _ hs => ⟨fun _ => hmade, hs⟩

/-- What a run needs of the chip and its arguments. -/
structure Provisionable (fromEncodedPoint : Bytes → Except Err PK) (args : Args)
    (env : Surroundings SK) (k : κ) (raw : Vector UInt8 64) (key : PK) : Prop where
  created : args.skipGenkey = false → (element.chip k env.genkey.1).createNewKeyPair = true
  generated : (element.chip (keyed element args env k) env.pubkey.1).generatePublicKey = some raw
  point : ATECC608.rawPubkeyToKey fromEncodedPoint raw.toList = .ok key
  batteryId : args.batteryId.IsUnicode
  manufacturerId : args.manufacturerId.IsUnicode

theorem Provisionable.unique {fromEncodedPoint : Bytes → Except Err PK} {raw raw' : Vector UInt8 64}
    {key key' : PK} (h : Provisionable element fromEncodedPoint args env k raw key)
    (h' : Provisionable element fromEncodedPoint args env k raw' key') : key = key' := by
  have hgenerated := h.generated
  rw [h'.generated, Option.some.injEq] at hgenerated
  have hpoint := h.point
  rw [← hgenerated, h'.point, Except.ok.injEq] at hpoint
  exact hpoint.symm

/-- **A run over a healthy line**, step by step. -/
theorem provision_ends {E : Ecdsa SK PK} (hideal : E.Ideal env.rootCa) (h : Healthy args env)
    (fromEncodedPoint : Bytes → Except Err PK)
    (hpem : ∀ point key, fromEncodedPoint point = .ok key →
      ∃ text, decode (serializePublicKey E key) = .ok text)
    (privateBytes : SK → Bytes) (k : κ) (out : List (String × Bytes)) :
    Prog.Triple (fun s : Bench κ => s.element = k ∧ At False out s)
      (provision element E fromEncodedPoint privateBytes args env)
      (fun _ s => ∃ raw key, Provisionable element fromEncodedPoint args env k raw key ∧
        s.element = keyed element args env k ∧
        ∃ issue : Issue E args env, issue.key = key ∧ issue.Saved privateBytes out s.out)
      (fun _ _ => ∀ raw key, ¬ Provisionable element fromEncodedPoint args env k raw key) := by
  have hconnecting : Line.connecting args.port ≠ .saving := nofun
  have hresponded : Line.responded ≠ .saving := nofun
  have hreading : Line.reading ≠ .saving := nofun
  unfold provision
  refine .lift_bind h.madeDirs ?_
  rw [h.lost .ping]
  refine (triple_say h fun _ hs => ⟨hs.1, hs.2.said hconnecting⟩).bind fun _ => ?_
  refine (connect_ready element h).bind fun _ => ?_
  refine (ready_say h hresponded).bind fun _ => ?_
  refine ((createKey_healthy element h).exits fun _ _ hfailed raw key hprov =>
    hfailed hprov.created).bind fun _ => Prog.Triple.assuming fun hcreated => ?_
  refine (ready_say h hreading).bind fun _ => ?_
  refine ((ready_query h .pubkey (fun s hs => getPublicKey_quiet element hs env.pubkey.1 h.pubkey
    fromEncodedPoint) (fun _ => rfl) fun _ => rfl).exits fun e _ he raw key hprov => ?_).bind
      fun key => Prog.Triple.assuming fun hkey => ?_
  · rw [quietPublicKey_eq_ok.2 ⟨raw, hprov.generated, hprov.point⟩] at he
    cases he
  obtain ⟨raw, hgenerated, hpoint⟩ := quietPublicKey_eq_ok.1 hkey
  refine (issueCertificate_healthy h hideal privateBytes (hpem _ key hpoint)).mono
    (fun _ hs => hs) (fun _ s hs => ?_) fun _ _ hids raw key hprov =>
      hids ⟨hprov.batteryId, hprov.manufacturerId⟩
  obtain ⟨⟨hbattery, hmanufacturer⟩, hk, issue, hissue⟩ := hs
  exact ⟨raw, key, ⟨hcreated, hgenerated, hpoint, hbattery, hmanufacturer⟩, hk, issue, hissue⟩

end

/-- **Provisioning over a healthy line**: a run succeeds if and only if the chip makes its key pair
and gives a public key that is a point, and the identifiers have an encoding. The certificate it
leaves is then for the key in the chip. -/
theorem provision_healthy [Interpreter] {E : Ecdsa SK PK} {args : Args} {env : Surroundings SK}
    (hideal : E.Ideal env.rootCa) (h : Healthy args env)
    (fromEncodedPoint : Bytes → Except Err PK)
    (hpem : ∀ point key, fromEncodedPoint point = .ok key →
      ∃ text, decode (serializePublicKey E key) = .ok text)
    (privateBytes : SK → Bytes) (k : κ) (out : List (String × Bytes)) :
    (((tool element E fromEncodedPoint privateBytes).step (k, out) (args, env)).2.2 = .ok () ↔
        ∃ raw key, Provisionable element fromEncodedPoint args env k raw key) ∧
      ∀ raw key, Provisionable element fromEncodedPoint args env k raw key →
        ((tool element E fromEncodedPoint privateBytes).step (k, out) (args, env)).1.1 =
            keyed element args env k ∧
          ∃ cert, cert.publicKey = serializePublicKey E key ∧ Holds E privateBytes args env cert
            ((tool element E fromEncodedPoint privateBytes).step (k, out) (args, env)).1.2 := by
  have hends := provision_ends element hideal h fromEncodedPoint hpem privateBytes k out
  have hstart : (Bench.start k out).element = k ∧ At False out (.start k out) :=
    ⟨rfl, at_start k out⟩
  rw [tool_step_eq]
  dsimp only
  have hok :
      (provision element E fromEncodedPoint privateBytes args env (.start k out)).2 = .ok () ↔
        ∃ raw key, Provisionable element fromEncodedPoint args env k raw key := by
    refine (hends.mono (fun _ hs => hs) (fun _ _ hs => ?_) fun _ _ hs => ?_).ok_iff hstart
    · obtain ⟨raw, key, hprov, -⟩ := hs
      exact ⟨raw, key, hprov⟩
    · rintro ⟨raw, key, hprov⟩
      exact hs raw key hprov
  refine ⟨hok, fun raw key hprov => ?_⟩
  obtain ⟨raw', key', hprov', hk, issue, hkey, hsaved⟩ :=
    hends.returned hstart (hok.2 ⟨raw, key, hprov⟩)
  obtain ⟨signature, heq⟩ := issue.cert_eq
  refine ⟨hk, issue.cert, ?_, hsaved.holds⟩
  rw [heq, hkey, hprov'.unique element hprov]

/-- The calendar and the line of a run. -/
def labEnv : Surroundings UInt8 where
  hasSerial := true
  opened := .ok (.opened "PONG".toList [])
  ping := (0, 134)
  genkey := (0, 134)
  pubkey := (0, 200)
  lost _ := none
  closed := .ok ()
  madeDirs := .ok ()
  disk _ := .done
  stdout _ := .ok ()
  rootCa := 7
  signing := 0
  issue := ⟨⟨2026, 1, 1, 0⟩, by decide, by decide, by decide, by decide⟩
  expiry := ⟨⟨2026, 1, 1, 1⟩, by decide, by decide, by decide, by decide⟩
  now := ⟨⟨2026, 1, 1, 2⟩, by decide, by decide, by decide, by decide⟩

/-- The chip's second key is a point. -/
def labPoint (point : Bytes) : Except Err UInt8 :=
  if point = 0x04 :: List.replicate 64 1 then .ok 9
  else .error (.valueError "Invalid EC key.")

open CPython in
/-- The first run makes the key that the certificate is for. -/
theorem provision_healthy_lab :
    ((tool Remote.countingElement plainEcdsa labPoint fun sk => [sk]).step (0, [])
      ({}, labEnv)).2.2 = .ok () := by
  have hnow : labEnv.now.val.ordinal = labEnv.expiry.val.ordinal := by
    simp only [labEnv, Datetime.ordinal]
  have hhealthy : Healthy {} labEnv := by
    refine ⟨rfl, ⟨_, rfl⟩, by decide, by decide, by decide, fun _ => rfl, rfl, rfl, fun _ => rfl,
      fun _ => rfl, by decide, ?_⟩
    rw [hnow]
    exact Nat.lt_add_of_pos_right (by decide)
  have hpem : ∀ point key, labPoint point = .ok key →
      ∃ text, decode (serializePublicKey plainEcdsa key) = .ok text := by
    intro point key h
    unfold labPoint at h
    split at h
    · cases h
      exact ⟨_, (rfl : decode [9] = .ok [9])⟩
    · cases h
  refine (provision_healthy Remote.countingElement (plainEcdsa_ideal 7) hhealthy labPoint hpem
    (fun sk => [sk]) 0 []).1.2 ⟨_, 9, fun _ => rfl, rfl, by decide, ?_, ?_⟩
  · exact Str.isUnicode_ofChars _
  · exact Str.isUnicode_ofChars _

end Provisioning

end BattLock
