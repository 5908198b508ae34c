import BattLock.Can.Proof.CertificateCodec
import BattLock.Crypto.Proof.Lifetime
import BattLock.Crypto.Proof.Remote
import BattLock.Provisioning.Proof.Artifacts

/-!
# The output directory

After any runs of the tool, whichever of them fail and wherever, the directory is as the last one
that came to `[5/5]` left it, but for the file of the public key (`tool_runs`). If that one wrote
its files, the certificate reads back from its own and the root key beside it verifies it until it
expires (`Holds`); if not, `Interrupted` says which files are its own.
-/

namespace BattLock.Provisioning

open Python

variable {κ SK PK : Type} (E : Ecdsa SK PK) (privateBytes : SK → Bytes)

/-! ## What is issued -/

section
variable {E} {args : Args} {env : Surroundings SK} (issue : Issue E args env)
include issue

theorem Issue.cert_eq : ∃ signature, issue.cert = ⟨args.batteryId, args.manufacturerId,
    serializePublicKey E issue.key, env.issue.val.strftime, issue.expiry.strftime, signature⟩ := by
  obtain ⟨data, -, hcert⟩ := bind_eq_ok.1 issue.hcert
  exact ⟨_, (Except.ok.inj hcert).symm⟩

theorem Issue.isUnicode : issue.cert.IsUnicode := by
  obtain ⟨data, hdata, hcert⟩ := bind_eq_ok.1 issue.hcert
  obtain ⟨batteryId, hbattery, hdata⟩ := bind_eq_ok.1 hdata
  obtain ⟨manufacturerId, hmanufacturer, -⟩ := bind_eq_ok.1 hdata
  obtain ⟨signature, heq⟩ := issue.cert_eq
  rw [heq]
  exact ⟨Str.isUnicode_of_encode hbattery, Str.isUnicode_of_encode hmanufacturer,
    isUnicode_strftime _, isUnicode_strftime _⟩

/-- **The file of the certificate reads back.** -/
theorem Issue.loads [Interpreter] {text : Str}
    (htext : decode (serializePublicKey E issue.key) = .ok text) :
    Json.loads ((certJson issue.cert text).dumpsIndent 2 0) = .ok (certJson issue.cert text) := by
  have hkey : ∀ s : String, (Str.ofString s).IsUnicode := fun s => Str.isUnicode_ofChars s.toList
  have hcert := issue.isUnicode
  have hpem : text.IsUnicode := Str.isUnicode_of_encode (encode_of_decode htext)
  obtain ⟨n, hn⟩ := Json.exists_maxNesting
  have hstr : ∀ {s : Str}, s.IsUnicode → Json.Value n (Json.dumpsStr s) (.str s) :=
    Json.value_dumpsStr
  refine Json.loads_of_value ?_
  rw [hn]
  refine Json.value_dumpsIndent ?_
  simp only [List.forall_mem_cons]
  exact ⟨⟨hkey _, hstr hcert.batteryId⟩, ⟨hkey _, hstr hcert.manufacturerId⟩,
    ⟨hkey _, hstr hpem⟩, ⟨hkey _, hstr hcert.issueDate⟩, ⟨hkey _, hstr hcert.expiryDate⟩,
    ⟨hkey _, hstr (Str.isUnicode_ofChars _)⟩, by simp⟩

/-- The self-check has verified the signature: afterwards only the clock decides. -/
theorem Issue.verifies (now : Datetime) :
    verifyCertificate E issue.cert (E.publicKey env.rootCa) now =
      .ok (!issue.expiry.midnight.lt now) := by
  obtain ⟨hvalid, -, -⟩ := Datetime.addDays_ok env.expiry.property issue.hexpiry
  obtain ⟨signature, heq⟩ := issue.cert_eq
  have hexpired := isCertificateExpired_strftime hvalid (by rw [heq] : issue.cert.expiryDate = _)
  have hverified := issue.hverified
  rw [verifyCertificate, hexpired, ok_bind] at hverified ⊢
  cases hlater : issue.expiry.midnight.lt env.now.val with
  | true =>
    rw [hlater] at hverified
    cases hverified
  | false =>
    rw [hlater] at hverified
    cases issue.expiry.midnight.lt now with
    | true => rfl
    | false => exact hverified

end

/-- The directory holds the certificate of a run, and the keys it was issued under. -/
structure Holds [Interpreter] (args : Args) (env : Surroundings SK) (cert : Certificate Str)
    (out : List (String × Bytes)) : Prop where
  batteryId : cert.batteryId = args.batteryId
  manufacturerId : cert.manufacturerId = args.manufacturerId
  certificate : ∃ text pubPem, dictGet out "battery_certificate.json" = some (encodeChars text) ∧
    Json.loads text = .ok (certJson cert pubPem) ∧ pubPem.encode = .ok cert.publicKey
  rootCaPublicKey :
    dictGet out "root_ca_public_key.pem" = some (E.publicBytes (E.publicKey env.rootCa))
  rootCaPrivateKey : dictGet out "root_ca_private_key.pem" = some (privateBytes env.rootCa)
  verifies : ∃ expiry, env.expiry.val.addDays (365 * 5) = .ok expiry ∧
    ∀ now, verifyCertificate E cert (E.publicKey env.rootCa) now = .ok (!expiry.midnight.lt now)

section
variable {E privateBytes} {args : Args} {env : Surroundings SK} {issue : Issue E args env}
  {out out' : List (String × Bytes)}

theorem Issue.Saved.holds [Interpreter] (h : issue.Saved privateBytes out out') :
    Holds E privateBytes args env issue.cert out' := by
  obtain ⟨text, htext, -, rfl⟩ := h
  obtain ⟨signature, heq⟩ := issue.cert_eq
  have hpem : text.encode = .ok issue.cert.publicKey := by
    rw [encode_of_decode htext, heq]
  refine ⟨by rw [heq], by rw [heq], ⟨_, text, ?_, issue.loads htext, hpem⟩, ?_, ?_,
    issue.expiry, issue.hexpiry, issue.verifies⟩
  all_goals
    refine dictGet_save (issue.nodup_artifacts privateBytes text) ?_ _
    simp [artifacts, serializePublicKey]

theorem Issue.Saved.publicKey (h : issue.Saved privateBytes out out') :
    dictGet out' "battery_public_key.pem" = some issue.cert.publicKey := by
  obtain ⟨text, -, -, rfl⟩ := h
  obtain ⟨signature, heq⟩ := issue.cert_eq
  have hkey : "battery_public_key.pem" ∉ (issue.artifacts privateBytes text).map Prod.fst := by
    simp [Issue.artifacts]
  rw [dictGet_save_of_notMem hkey, Issue.keySaved, dictGet_setItem, heq]

theorem Holds.same [Interpreter] {cert : Certificate Str}
    (h : Holds E privateBytes args env cert out) (hsame : SameButKey out out') :
    Holds E privateBytes args env cert out' := by
  obtain ⟨text, pubPem, hfile, hcert⟩ := h.certificate
  refine ⟨h.batteryId, h.manufacturerId, ⟨text, pubPem, ?_, hcert⟩, ?_, ?_, h.verifies⟩
  · rw [hsame _ (by decide), hfile]
  · rw [hsame _ (by decide), h.rootCaPublicKey]
  · rw [hsame _ (by decide), h.rootCaPrivateKey]

end

/-! ## Any runs -/

/-- The files of the tool. -/
def fileNames : List String := ["battery_public_key.pem", "battery_certificate.json",
  "root_ca_public_key.pem", "root_ca_private_key.pem"]

theorem Issue.dictGet_other {args : Args} {env : Surroundings SK} (issue : Issue E args env)
    (text : Str) {files : List (String × Bytes)}
    (hfiles : files.map Prod.fst <+: (issue.artifacts privateBytes text).map Prod.fst)
    {name : String} (hname : name ∉ fileNames) (out : List (String × Bytes)) :
    dictGet (save files (issue.keySaved out)) name = dictGet out name := by
  have hnames : fileNames =
      "battery_public_key.pem" :: (issue.artifacts privateBytes text).map Prod.fst := rfl
  rw [hnames, List.mem_cons, not_or] at hname
  have hfile : name ∉ files.map Prod.fst := fun h => hname.2 (hfiles.subset h)
  rw [dictGet_save_of_notMem hfile, Issue.keySaved, dictGet_setItem_of_ne _ _ hname.1]

variable {E privateBytes} in
theorem Leaves.other {args : Args} {env : Surroundings SK} {out out' : List (String × Bytes)}
    {printed : List Line} {r : Except Err Unit}
    (h : Leaves E privateBytes args env out printed r out') {name : String}
    (hname : name ∉ fileNames) : dictGet out' name = dictGet out name := by
  rcases h with ⟨-, -, hsame⟩ | ⟨-, hinterrupted | ⟨issue, text, -, -, rfl⟩⟩
  · exact hsame name fun h => hname (h ▸ List.mem_cons_self)
  · cases hinterrupted with
    | undecoded issue htext =>
      have hnil : ([] : List (String × Bytes)).map Prod.fst <+:
          (issue.artifacts privateBytes []).map Prod.fst := List.nil_prefix
      exact issue.dictGet_other E privateBytes [] hnil hname out
    | @stopped issue text written rest _ _ _ htext hfiles hwritten hstop =>
      have hstart : written <+: issue.artifacts privateBytes text :=
        hfiles ▸ List.prefix_append _ _
      exact issue.dictGet_other E privateBytes text (hstart.map _) hname out
    | @cut issue text written rest _ _ _ _ htext hfiles hwritten hcut =>
      refine issue.dictGet_other E privateBytes text ⟨rest.map Prod.fst, ?_⟩ hname out
      rw [hfiles, List.map_append, List.map_append, List.append_assoc]
      rfl
  · exact issue.dictGet_other E privateBytes text List.prefix_rfl hname out

variable (element : SecureElement κ) (fromEncodedPoint : Bytes → Except Err PK)

/-- A run that fails before `[5/5]`. -/
def FailsEarly (entry : (Args × Surroundings SK) × (List Line × Except Err Unit)) : Prop :=
  .saving ∉ entry.2.1 ∧ ∃ e, entry.2.2 = .error e

/-- What the directory holds after any runs. -/
inductive Consistent [Interpreter] (k : κ) (out : List (String × Bytes))
    (runs : List (Args × Surroundings SK)) : Prop
  /-- No run came to `[5/5]`. -/
  | none
      (hruns : ∀ entry ∈ (tool element E fromEncodedPoint privateBytes).log (k, out) runs,
        FailsEarly entry)
      (hsame : SameButKey out
        ((tool element E fromEncodedPoint privateBytes).run (k, out) runs).2) :
      Consistent k out runs
  /-- `args` and `env` are those of the last run that did. -/
  | last {earlier later : List (Args × Surroundings SK)} {args : Args} {env : Surroundings SK}
      {before after : κ × List (String × Bytes)} {printed : List Line} {r : Except Err Unit}
      (hruns : runs = earlier ++ (args, env) :: later)
      (hbefore : (tool element E fromEncodedPoint privateBytes).run (k, out) earlier = before)
      (hstep : (tool element E fromEncodedPoint privateBytes).step before (args, env) =
        (after, printed, r))
      (hsaving : .saving ∈ printed)
      (hlater : ∀ entry ∈ (tool element E fromEncodedPoint privateBytes).log after later,
        FailsEarly entry)
      (hsame : SameButKey after.2
        ((tool element E fromEncodedPoint privateBytes).run (k, out) runs).2)
      (hleft : Interrupted E privateBytes args env before.2 r after.2 ∨ ∃ cert,
        Holds E privateBytes args env cert
            ((tool element E fromEncodedPoint privateBytes).run (k, out) runs).2 ∧
          dictGet after.2 "battery_public_key.pem" = some cert.publicKey) :
      Consistent k out runs

theorem at_start (k : κ) (out : List (String × Bytes)) :
    At False out (.start k out : Bench κ) := by
  have hprinted : ¬ Line.saving ∈ (Bench.start k out).printed := by simp [Bench.start]
  exact ⟨iff_of_false hprinted not_false, rfl⟩

theorem tool_step_eq (k : κ) (out : List (String × Bytes)) (args : Args) (env : Surroundings SK) :
    (tool element E fromEncodedPoint privateBytes).step (k, out) (args, env) =
      (((provision element E fromEncodedPoint privateBytes args env (.start k out)).1.element,
        (provision element E fromEncodedPoint privateBytes args env (.start k out)).1.out),
        (provision element E fromEncodedPoint privateBytes args env (.start k out)).1.printed,
        (provision element E fromEncodedPoint privateBytes args env (.start k out)).2) := rfl

theorem tool_step (k : κ) (out : List (String × Bytes)) (args : Args) (env : Surroundings SK) :
    Leaves E privateBytes args env out
      ((tool element E fromEncodedPoint privateBytes).step (k, out) (args, env)).2.1
      ((tool element E fromEncodedPoint privateBytes).step (k, out) (args, env)).2.2
      ((tool element E fromEncodedPoint privateBytes).step (k, out) (args, env)).1.2 := by
  have hleaves := provision_leaves E privateBytes element fromEncodedPoint args env out
  rw [tool_step_eq]
  dsimp only
  cases hr : (provision element E fromEncodedPoint privateBytes args env (.start k out)).2 with
  | ok _ => exact hleaves.returned (at_start k out) hr
  | error e => exact hleaves.ended (at_start k out) hr

theorem consistent_runs [Interpreter] (k : κ) (out : List (String × Bytes))
    (runs : List (Args × Surroundings SK)) :
    Consistent E privateBytes element fromEncodedPoint k out runs := by
  induction runs using List.reverseRecOn with
  | nil => exact .none (List.forall_mem_nil _) (SameButKey.refl out)
  | append_singleton runs run ih =>
    obtain ⟨args, env⟩ := run
    have hleaves := tool_step E privateBytes element fromEncodedPoint
      ((tool element E fromEncodedPoint privateBytes).run (k, out) runs).1
      ((tool element E fromEncodedPoint privateBytes).run (k, out) runs).2 args env
    have hrun :
        (tool element E fromEncodedPoint privateBytes).run (k, out) (runs ++ [(args, env)]) =
        ((tool element E fromEncodedPoint privateBytes).step
          ((tool element E fromEncodedPoint privateBytes).run (k, out) runs) (args, env)).1 := by
      rw [Mealy.run_append]
      rfl
    rcases hleaves with ⟨hsaving, herror, hsame⟩ | ⟨hsaving, hleft⟩
    · -- the run changes the file of the public key at most
      cases ih with
      | none hruns hsame' =>
        refine .none ?_ ?_
        · rw [Mealy.log_concat, List.forall_mem_append, List.forall_mem_singleton]
          exact ⟨hruns, hsaving, herror⟩
        · rw [hrun]
          exact hsame'.trans hsame
      | @last earlier later args' env' before after printed r hruns hbefore hstep hsaving' hlater
          hsame' hleft =>
        have hafter : (tool element E fromEncodedPoint privateBytes).run after later =
            (tool element E fromEncodedPoint privateBytes).run (k, out) runs := by
          rw [hruns, Mealy.run_append, hbefore, Mealy.run_cons, hstep]
        refine .last (by rw [hruns, List.append_assoc, List.cons_append]) hbefore hstep hsaving' ?_
          ?_ ?_
        · rw [Mealy.log_concat, List.forall_mem_append, List.forall_mem_singleton, hafter]
          exact ⟨hlater, hsaving, herror⟩
        · rw [hrun]
          exact hsame'.trans hsame
        · rw [hrun]
          exact hleft.imp_right fun ⟨cert, hholds, hkey⟩ => ⟨cert, hholds.same hsame, hkey⟩
    · refine .last rfl rfl rfl hsaving (List.forall_mem_nil _) ?_ ?_
      · rw [hrun]
        exact SameButKey.refl _
      · rw [hrun]
        refine hleft.imp_right fun ⟨issue, hsaved⟩ => ⟨issue.cert, hsaved.holds, hsaved.publicKey⟩

/-! ## The chip -/

/-- A program that leaves the chip as it is. -/
def KeepsChip {α : Type} (x : Prog (Bench κ) Err α) : Prop :=
  Prog.Keeps (fun s s' : Bench κ => s'.element = s.element) x

section
variable {α β : Type} {env : Surroundings SK}

theorem KeepsChip.bind {x : Prog (Bench κ) Err α} {f : α → Prog (Bench κ) Err β}
    (hx : KeepsChip x) (hf : ∀ a, KeepsChip (f a)) : KeepsChip (x >>= f) :=
  Prog.Keeps.bind (fun _ _ _ h₁ h₂ => h₂.trans h₁) hx hf

theorem keepsChip_lift (x : Except Err α) : KeepsChip (κ := κ) (Prog.lift x) :=
  ⟨fun _ => rfl⟩

theorem keepsChip_say (line : Line) : KeepsChip (κ := κ) (say env line) := by
  refine ⟨fun s => ?_⟩
  unfold say
  split <;> rfl

theorem keepsChip_write (name : String) (data : Bytes) :
    KeepsChip (κ := κ) (write env name data) := by
  refine KeepsChip.bind ⟨fun s => ?_⟩ fun _ => keepsChip_say _
  unfold store
  split <;> rfl

theorem keepsChip_close (closed : Except Err Unit) : KeepsChip (κ := κ) (close closed) := by
  refine ⟨fun s => ?_⟩
  unfold close
  split <;> rfl

theorem keepsChip_whileOpen (lost : Option (Err × Bool)) {x : Prog (Bench κ) Err α}
    (hx : KeepsChip x) : KeepsChip (whileOpen lost x) := by
  cases lost with
  | none => exact hx
  | some fault =>
    obtain ⟨e, got⟩ := fault
    cases got with
    | false => exact ⟨fun s => rfl⟩
    | true => exact ⟨hx.rel⟩

end

theorem keepsChip_issueCertificate (args : Args) (env : Surroundings SK) (key : PK) :
    KeepsChip (issueCertificate (κ := κ) E privateBytes args env key) := by
  unfold issueCertificate saveArtifacts
  refine (keepsChip_write _ _).bind fun _ => (keepsChip_say _).bind fun _ => ?_
  refine (keepsChip_lift _).bind fun expiry => (keepsChip_lift _).bind fun cert => ?_
  refine (keepsChip_lift _).bind fun ok => ?_
  cases ok with
  | false => exact ⟨fun s => rfl⟩
  | true =>
    refine (keepsChip_say _).bind fun _ => (keepsChip_say _).bind fun _ => ?_
    refine (keepsChip_lift _).bind fun text => (keepsChip_write _ _).bind fun _ => ?_
    refine (keepsChip_write _ _).bind fun _ => (keepsChip_write _ _).bind fun _ => ?_
    exact (keepsChip_close _).bind fun _ => keepsChip_say _

theorem tool_skipGenkey (k : κ) (out : List (String × Bytes)) {args : Args}
    (env : Surroundings SK) (hskip : args.skipGenkey = true) :
    ((tool element E fromEncodedPoint privateBytes).step (k, out) (args, env)).1.1 = k := by
  have hpubkey : KeepsChip (getPublicKey element fromEncodedPoint env.pubkey.1 env.pubkey.2) := by
    refine ⟨fun s => ?_⟩
    have hhandled := Remote.handled_request element s.element env.pubkey.1 .getPublicKey
    show element.asked s.chip s.element env.pubkey.1 "PUBKEY".toList = s.element
    unfold SecureElement.asked
    split
    · exact hhandled
    · rfl
  have hcreate : KeepsChip (createKey element args env) := by
    rw [createKey, hskip]
    exact keepsChip_say _
  have hkeeps : KeepsChip (provision element E fromEncodedPoint privateBytes args env) := by
    unfold provision
    refine (keepsChip_lift _).bind fun _ => (keepsChip_say _).bind fun _ => ?_
    refine (keepsChip_whileOpen _ ⟨fun s => rfl⟩).bind fun _ => (keepsChip_say _).bind fun _ => ?_
    refine hcreate.bind fun _ => (keepsChip_say _).bind fun _ => ?_
    refine (keepsChip_whileOpen _ hpubkey).bind fun key => ?_
    exact keepsChip_issueCertificate E privateBytes args env key
  exact hkeeps.rel (.start k out)

/-- **Any runs of the tool**, whichever of them fail and wherever: the directory is as the last one
that came to `[5/5]` left it, but for the file of the public key; no other file is touched; and runs
with `--skip-genkey` leave the key in the chip. -/
theorem tool_runs [Interpreter] (k : κ) (out : List (String × Bytes))
    (runs : List (Args × Surroundings SK)) :
    Consistent E privateBytes element fromEncodedPoint k out runs ∧
      (∀ name, name ∉ fileNames →
        dictGet ((tool element E fromEncodedPoint privateBytes).run (k, out) runs).2 name =
          dictGet out name) ∧
      ((∀ run ∈ runs, run.1.skipGenkey = true) →
        ((tool element E fromEncodedPoint privateBytes).run (k, out) runs).1 = k) := by
  refine ⟨consistent_runs E privateBytes element fromEncodedPoint k out runs, ?_, ?_⟩
  · intro name hname
    refine (tool element E fromEncodedPoint privateBytes).log_inv
      (P := fun _ s => dictGet s.2 name = dictGet out name) rfl ?_ runs
    rintro log ⟨k', out'⟩ ⟨args, env⟩ h
    exact ((tool_step E privateBytes element fromEncodedPoint k' out' args env).other hname).trans h
  · intro hskip
    induction runs generalizing k out with
    | nil => rfl
    | cons run runs ih =>
      obtain ⟨args, env⟩ := run
      rw [List.forall_mem_cons] at hskip
      have hstep := tool_skipGenkey E privateBytes element fromEncodedPoint k out env hskip.1
      rw [Mealy.run_cons]
      generalize (tool element E fromEncodedPoint privateBytes).step (k, out) (args, env) = res
        at hstep ⊢
      obtain ⟨⟨k', out'⟩, r⟩ := res
      obtain rfl : k' = k := hstep
      exact ih _ _ hskip.2

end BattLock.Provisioning
