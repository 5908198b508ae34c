import BattLock.Provisioning.Provision

/-!
# What a run of the tool leaves

A run that does not come to `[5/5]` leaves the certificate and the root keys of the directory as
they are. One that does replaces them one after the other: together if nothing fails there
(`Issue.Saved`), and otherwise up to the file at which it stops (`Interrupted`). One lemma for each
kind of step says what it does to the directory; `provision_leaves` puts them together.
-/

namespace BattLock.Provisioning

open Python

variable {κ SK PK : Type}

/-! ## Files -/

/-- Files written one after the other. -/
def save (files out : List (String × Bytes)) : List (String × Bytes) :=
  files.foldl (fun out file => setItem out file.1 file.2) out

theorem save_concat (files out : List (String × Bytes)) (name : String) (data : Bytes) :
    save (files ++ [(name, data)]) out = setItem (save files out) name data :=
  List.foldl_append

theorem dictGet_save_of_notMem {name : String} {files : List (String × Bytes)}
    (h : name ∉ files.map Prod.fst) (out : List (String × Bytes)) :
    dictGet (save files out) name = dictGet out name := by
  induction files generalizing out with
  | nil => rfl
  | cons file files ih =>
    rw [List.map_cons, List.mem_cons, not_or] at h
    exact (ih h.2 _).trans (dictGet_setItem_of_ne _ _ h.1)

theorem dictGet_save {files : List (String × Bytes)} (hnodup : (files.map Prod.fst).Nodup)
    {name : String} {data : Bytes} (h : (name, data) ∈ files) (out : List (String × Bytes)) :
    dictGet (save files out) name = some data := by
  induction files generalizing out with
  | nil => cases h
  | cons file files ih =>
    rw [List.map_cons, List.nodup_cons] at hnodup
    rcases List.mem_cons.1 h with rfl | h
    · exact (dictGet_save_of_notMem hnodup.1 _).trans (dictGet_setItem _ _ _)
    · exact ih hnodup.2 h _

/-- Two directories that differ in the file of the public key at most. -/
def SameButKey (out out' : List (String × Bytes)) : Prop :=
  ∀ name, name ≠ "battery_public_key.pem" → dictGet out' name = dictGet out name

theorem SameButKey.refl (out : List (String × Bytes)) : SameButKey out out := fun _ _ => rfl

theorem SameButKey.trans {out out' out'' : List (String × Bytes)} (h : SameButKey out out')
    (h' : SameButKey out' out'') : SameButKey out out'' :=
  fun name hname => (h' name hname).trans (h name hname)

theorem sameButKey_setItem (out : List (String × Bytes)) (pem : Bytes) :
    SameButKey out (setItem out "battery_public_key.pem" pem) :=
  fun _ hname => dictGet_setItem_of_ne _ _ hname

variable (E : Ecdsa SK PK) (privateBytes : SK → Bytes)

/-! ## What a run leaves -/

/-- What is issued in a run that comes to `[5/5]`. -/
structure Issue (args : Args) (env : Surroundings SK) where
  key : PK
  expiry : Datetime
  cert : Certificate Str
  hexpiry : env.expiry.val.addDays (365 * 5) = .ok expiry
  hcert : createCertificate E (RootCA.init E env.rootCa) args.batteryId args.manufacturerId
    (serializePublicKey E key) env.issue.val.strftime expiry.strftime env.signing = .ok cert
  hverified : verifyCertificate E cert (E.publicKey env.rootCa) env.now.val = .ok true

section
variable {E} {args : Args} {env : Surroundings SK} (issue : Issue E args env)

/-- The directory when the run comes to `[5/5]`. -/
def Issue.keySaved (out : List (String × Bytes)) : List (String × Bytes) :=
  setItem out "battery_public_key.pem" (serializePublicKey E issue.key)

/-- The files that are written there; `text` is the text of the key's PEM file. -/
def Issue.artifacts (text : Str) : List (String × Bytes) := [
  ("battery_certificate.json", encodeChars ((certJson issue.cert text).dumpsIndent 2 0)),
  ("root_ca_public_key.pem", serializePublicKey E (E.publicKey env.rootCa)),
  ("root_ca_private_key.pem", privateBytes env.rootCa)]

theorem Issue.nodup_artifacts (text : Str) :
    ((issue.artifacts privateBytes text).map Prod.fst).Nodup := by
  simp [artifacts]

/-- The files were written in full. -/
def Written (env : Surroundings SK) (files : List (String × Bytes)) : Prop :=
  ∀ file ∈ files, env.disk file.1 = .done

/-- All of them were. -/
def Issue.Saved (out out' : List (String × Bytes)) : Prop :=
  ∃ text, decode (serializePublicKey E issue.key) = .ok text ∧
    Written env (issue.artifacts privateBytes text) ∧
    out' = save (issue.artifacts privateBytes text) (issue.keySaved out)

end

/-- How a run fails while it writes them, and the directory it leaves. -/
inductive Interrupted (args : Args) (env : Surroundings SK) (out : List (String × Bytes)) :
    Except Err Unit → List (String × Bytes) → Prop
  /-- The key's PEM file is not text. -/
  | undecoded (issue : Issue E args env) {e : Err}
      (htext : decode (serializePublicKey E issue.key) = .error e) :
      Interrupted args env out (.error e) (issue.keySaved out)
  /-- A file cannot be opened, or the line about the one before it cannot be printed: it and those
  after it stay as they were. -/
  | stopped (issue : Issue E args env) {text : Str} {written rest : List (String × Bytes)}
      {name : String} {data : Bytes} {e : Err}
      (htext : decode (serializePublicKey E issue.key) = .ok text)
      (hfiles : issue.artifacts privateBytes text = written ++ (name, data) :: rest)
      (hwritten : Written env written)
      (hstop : env.disk name = .refused e ∨
        ∃ file, written.getLast? = some file ∧ env.stdout (.wrote file.1) = .error e) :
      Interrupted args env out (.error e) (save written (issue.keySaved out))
  /-- A file gets `n` bytes of its content: those after it stay as they were. -/
  | cut (issue : Issue E args env) {text : Str} {written rest : List (String × Bytes)}
      {name : String} {data : Bytes} {n : Nat} {e : Err}
      (htext : decode (serializePublicKey E issue.key) = .ok text)
      (hfiles : issue.artifacts privateBytes text = written ++ (name, data) :: rest)
      (hwritten : Written env written) (hcut : env.disk name = .cut n e) :
      Interrupted args env out (.error e)
        (save (written ++ [(name, data.take n)]) (issue.keySaved out))

/-- What a run leaves: either it does not come to `[5/5]`, or it does. -/
def Leaves (args : Args) (env : Surroundings SK) (out : List (String × Bytes))
    (printed : List Line) (r : Except Err Unit) (out' : List (String × Bytes)) : Prop :=
  (.saving ∉ printed ∧ (∃ e, r = .error e) ∧ SameButKey out out') ∨
    (.saving ∈ printed ∧ (Interrupted E privateBytes args env out r out' ∨
      ∃ issue : Issue E args env, issue.Saved privateBytes out out'))

/-! ## Steps -/

/-- The directory is `out`, and the run has come to `[5/5]` or not. -/
def At (saving : Prop) (out : List (String × Bytes)) (s : Bench κ) : Prop :=
  (.saving ∈ s.printed ↔ saving) ∧ s.out = out

/-- How a write fails, and the directory then. -/
inductive WriteFails (env : Surroundings SK) (name : String) (data : Bytes)
    (out : List (String × Bytes)) (e : Err) : List (String × Bytes) → Prop
  | refused (h : env.disk name = .refused e) : WriteFails env name data out e out
  | cut {n : Nat} (h : env.disk name = .cut n e) :
      WriteFails env name data out e (setItem out name (data.take n))
  | unsaid (hdone : env.disk name = .done) (h : env.stdout (.wrote name) = .error e) :
      WriteFails env name data out e (setItem out name data)

section
variable {saving : Prop} {out : List (String × Bytes)} {env : Surroundings SK}

/-- A step that only works on the chip. -/
theorem at_of_unchanged {α : Type} {x : Prog (Bench κ) Err α}
    (hout : ∀ s, (x s).1.out = s.out) (hprinted : ∀ s, (x s).1.printed = s.printed) :
    Prog.Triple (At saving out) x (fun _ => At saving out) (fun _ => At saving out) := by
  have hkeeps : Prog.Keeps (fun s s' : Bench κ => s'.out = s.out ∧ s'.printed = s.printed) x :=
    ⟨fun s => ⟨hout s, hprinted s⟩⟩
  refine hkeeps.triple fun s s' h hs => ?_
  obtain ⟨hout, hprinted⟩ := h
  rw [At, hout, hprinted]
  exact hs

theorem at_whileOpen {α : Type} {x : Prog (Bench κ) Err α} (lost : Option (Err × Bool))
    (hx : Prog.Triple (At saving out) x (fun _ => At saving out) (fun _ => At saving out)) :
    Prog.Triple (At saving out) (whileOpen lost x) (fun _ => At saving out)
      (fun _ => At saving out) := by
  cases lost with
  | none => exact hx
  | some fault =>
    obtain ⟨e, got⟩ := fault
    cases got with
    | false => exact Prog.Triple.stop fun _ hs => hs
    | true => exact ⟨fun s hs => hx.final hs⟩

theorem At.said {s : Bench κ} (h : At saving out s) {line : Line} (hline : line ≠ .saving) :
    At saving out { s with printed := s.printed ++ [line] } := by
  refine ⟨?_, h.2⟩
  rw [List.mem_append, List.mem_singleton, h.1]
  exact or_iff_left hline.symm

theorem at_say {line : Line} (hline : line ≠ .saving) :
    Prog.Triple (At (κ := κ) saving out) (say env line) (fun _ => At saving out)
      (fun e s => env.stdout line = .error e ∧ At saving out s) := by
  refine ⟨fun s hs => ?_⟩
  unfold say
  cases env.stdout line with
  | error e => exact ⟨rfl, hs⟩
  | ok _ => exact hs.said hline

theorem at_say_saving :
    Prog.Triple (At (κ := κ) False out) (say env .saving) (fun _ => At True out)
      (fun _ => At False out) := by
  refine ⟨fun s hs => ?_⟩
  unfold say
  cases env.stdout .saving with
  | error e => exact hs
  | ok _ => exact ⟨iff_true_intro (List.mem_append_right _ List.mem_cons_self), hs.2⟩

theorem at_close (closed : Except Err Unit) :
    Prog.Triple (At (κ := κ) saving out) (close closed) (fun _ => At saving out)
      (fun _ => At saving out) := by
  refine at_of_unchanged (fun s => ?_) (fun s => ?_)
  all_goals
    unfold close
    split <;> rfl

theorem at_lift {α : Type} {x : Except Err α} :
    Prog.Triple (At saving out) (Prog.lift x) (fun a s => x = .ok a ∧ At (κ := κ) saving out s)
      (fun e s => x = .error e ∧ At saving out s) :=
  Prog.Triple.lift (fun _ _ hx hs => ⟨hx, hs⟩) (fun _ _ hx hs => ⟨hx, hs⟩)

theorem at_write (name : String) (data : Bytes) :
    Prog.Triple (At (κ := κ) saving out) (write env name data)
      (fun _ s => env.disk name = .done ∧ At saving (setItem out name data) s)
      (fun e s => (.saving ∈ s.printed ↔ saving) ∧ WriteFails env name data out e s.out) := by
  have hstore : Prog.Triple (At (κ := κ) saving out) (store env name data)
      (fun _ s => env.disk name = .done ∧ At saving (setItem out name data) s)
      (fun e s => (.saving ∈ s.printed ↔ saving) ∧ WriteFails env name data out e s.out) := by
    refine ⟨fun s hs => ?_⟩
    obtain ⟨hsaving, rfl⟩ := hs
    unfold store
    cases h : env.disk name with
    | done => exact ⟨rfl, hsaving, rfl⟩
    | refused e => exact ⟨hsaving, .refused h⟩
    | cut n e => exact ⟨hsaving, .cut h⟩
  have hline : Line.wrote name ≠ .saving := nofun
  refine hstore.bind fun _ => Prog.Triple.assuming fun hdone => ?_
  refine (at_say hline).mono (fun _ hs => hs) (fun _ _ hs => ⟨hdone, hs⟩) fun e s hs => ?_
  obtain ⟨hsaid, hsaving, hout⟩ := hs
  exact ⟨hsaving, hout ▸ .unsaid hdone hsaid⟩

end

section
variable {E privateBytes} {args : Args} {env : Surroundings SK} {out : List (String × Bytes)}

/-- At `[5/5]`, with the first files written. -/
def Progress (issue : Issue E args env) (out files : List (String × Bytes)) (s : Bench κ) : Prop :=
  Written env files ∧ At True (save files (issue.keySaved out)) s

/-- The next file: it is written in full, or the run ends there. -/
theorem progress_write {issue : Issue E args env} {text : Str}
    (htext : decode (serializePublicKey E issue.key) = .ok text)
    {written rest : List (String × Bytes)} {name : String} {data : Bytes}
    (hfiles : issue.artifacts privateBytes text = written ++ (name, data) :: rest) :
    Prog.Triple (Progress issue out written) (write (κ := κ) env name data)
      (fun _ => Progress issue out (written ++ [(name, data)]))
      (fun e s => Leaves E privateBytes args env out s.printed (.error e) s.out) := by
  refine Prog.Triple.assuming fun hwritten => (at_write name data).mono (fun _ hs => hs) ?_ ?_
  · intro _ s hs
    obtain ⟨hdone, hat⟩ := hs
    refine ⟨?_, save_concat written _ name data ▸ hat⟩
    rw [Written, List.forall_mem_append, List.forall_mem_singleton]
    exact ⟨hwritten, hdone⟩
  · intro e s hs
    obtain ⟨hsaving, hfails⟩ := hs
    refine .inr ⟨hsaving.2 trivial, ?_⟩
    generalize s.out = out' at hfails
    cases hfails with
    | refused h => exact .inl (.stopped issue htext hfiles hwritten (.inl h))
    | cut h => exact .inl (save_concat written _ name _ ▸ .cut issue htext hfiles hwritten h)
    | unsaid hdone h =>
      have hwritten' : Written env (written ++ [(name, data)]) := by
        rw [Written, List.forall_mem_append, List.forall_mem_singleton]
        exact ⟨hwritten, hdone⟩
      rw [List.append_cons] at hfiles
      rw [← save_concat]
      -- the error shows in the directory only if there is another file to write
      cases rest with
      | nil =>
        rw [List.append_nil] at hfiles
        rw [← hfiles] at hwritten' ⊢
        exact .inr ⟨issue, text, htext, hwritten', rfl⟩
      | cons next rest =>
        exact .inl (.stopped issue htext hfiles hwritten'
          (.inr ⟨_, List.getLast?_concat, h⟩))

theorem saved_of_progress {issue : Issue E args env} {text : Str} {s : Bench κ}
    (htext : decode (serializePublicKey E issue.key) = .ok text)
    (h : Progress issue out (issue.artifacts privateBytes text) s) :
    .saving ∈ s.printed ∧ issue.Saved privateBytes out s.out := by
  obtain ⟨hwritten, hsaving, hout⟩ := h
  exact ⟨hsaving.2 trivial, text, htext, hwritten, hout⟩

theorem saveArtifacts_leaves (issue : Issue E args env) :
    Prog.Triple (At False (issue.keySaved out))
      (saveArtifacts (κ := κ) E privateBytes env issue.cert (serializePublicKey E issue.key))
      (fun _ s => .saving ∈ s.printed ∧ issue.Saved privateBytes out s.out)
      (fun e s => Leaves E privateBytes args env out s.printed (.error e) s.out) := by
  have hcomplete : Line.complete ≠ .saving := nofun
  unfold saveArtifacts
  refine (at_say_saving.exits fun e s hs => ?_).bind fun _ => ?_
  · exact .inl ⟨mt hs.1.1 not_false, ⟨e, rfl⟩, hs.2 ▸ sameButKey_setItem out _⟩
  refine (at_lift.exits fun e s hs => ?_).bind fun text => Prog.Triple.assuming fun htext => ?_
  · obtain ⟨htext, hsaving, hout⟩ := hs
    exact .inr ⟨hsaving.2 trivial, .inl (hout ▸ .undecoded issue htext)⟩
  have hcert : issue.artifacts privateBytes text =
      [] ++ ("battery_certificate.json", _) :: [_, _] := rfl
  have hpublic : issue.artifacts privateBytes text =
      [_] ++ ("root_ca_public_key.pem", _) :: [_] := rfl
  have hprivate : issue.artifacts privateBytes text =
      [_, _] ++ ("root_ca_private_key.pem", _) :: [] := rfl
  refine ((progress_write htext hcert).pre fun s hs => ⟨List.forall_mem_nil _, hs⟩).bind fun _ => ?_
  refine (progress_write htext hpublic).bind fun _ => ?_
  refine (progress_write htext hprivate).bind fun _ => Prog.Triple.assuming fun hwritten => ?_
  have hsaved : ∀ s : Bench κ, At True (save (issue.artifacts privateBytes text)
      (issue.keySaved out)) s → .saving ∈ s.printed ∧ issue.Saved privateBytes out s.out :=
    fun s hs => saved_of_progress htext ⟨hwritten, hs⟩
  have hfailed : ∀ e (s : Bench κ), At True (save (issue.artifacts privateBytes text)
      (issue.keySaved out)) s → Leaves E privateBytes args env out s.printed (.error e) s.out :=
    fun e s hs => .inr ⟨(hsaved s hs).1, .inr ⟨issue, (hsaved s hs).2⟩⟩
  refine ((at_close _).exits hfailed).bind fun _ => ?_
  exact (at_say hcomplete).mono (fun _ hs => hs) (fun _ => hsaved) fun e s hs => hfailed e s hs.2

variable (E privateBytes) in
theorem issueCertificate_leaves (args : Args) (env : Surroundings SK) (key : PK)
    (out : List (String × Bytes)) :
    Prog.Triple (At False out) (issueCertificate (κ := κ) E privateBytes args env key)
      (fun _ s => .saving ∈ s.printed ∧ ∃ issue : Issue E args env, issue.key = key ∧
        issue.Saved privateBytes out s.out)
      (fun e s => Leaves E privateBytes args env out s.printed (.error e) s.out) := by
  have hissuing : Line.issuing ≠ .saving := nofun
  have hissued : Line.issued ≠ .saving := nofun
  -- up to `[5/5]` at most the file of the public key changes
  have hearly : ∀ e (s : Bench κ),
      At False (setItem out "battery_public_key.pem" (serializePublicKey E key)) s →
        Leaves E privateBytes args env out s.printed (.error e) s.out :=
    fun e s hs => .inl ⟨mt hs.1.1 not_false, ⟨e, rfl⟩, hs.2 ▸ sameButKey_setItem out _⟩
  unfold issueCertificate
  refine ((at_write _ _).exits fun e s hs => ?_).bind fun _ => Prog.Triple.assuming fun _ => ?_
  · obtain ⟨hsaving, hfails⟩ := hs
    refine .inl ⟨mt hsaving.1 not_false, ⟨e, rfl⟩, ?_⟩
    generalize s.out = out' at hfails
    cases hfails with
    | refused h => exact SameButKey.refl out
    | cut h => exact sameButKey_setItem out _
    | unsaid hdone h => exact sameButKey_setItem out _
  refine ((at_say hissuing).exits fun e s hs => hearly e s hs.2).bind fun _ => ?_
  refine (at_lift.exits fun e s hs => hearly e s hs.2).bind fun expiry =>
    Prog.Triple.assuming fun hexpiry => ?_
  refine (at_lift.exits fun e s hs => hearly e s hs.2).bind fun cert =>
    Prog.Triple.assuming fun hcert => ?_
  refine (at_lift.exits fun e s hs => hearly e s hs.2).bind fun ok =>
    Prog.Triple.assuming fun hverified => ?_
  cases ok with
  | false => exact Prog.Triple.stop (hearly _)
  | true =>
    refine ((at_say hissued).exits fun e s hs => hearly e s hs.2).bind fun _ => ?_
    exact (saveArtifacts_leaves ⟨key, expiry, cert, hexpiry, hcert, hverified⟩).results
      fun _ s hs => ⟨hs.1, _, rfl, hs.2⟩

end

section
variable (element : SecureElement κ) (fromEncodedPoint : Bytes → Except Err PK)

theorem createKey_at (args : Args) (env : Surroundings SK) {out : List (String × Bytes)} :
    Prog.Triple (At False out) (createKey element args env) (fun _ => At False out)
      (fun _ => At False out) := by
  have hcreating : Line.creating ≠ .saving := nofun
  have hcreated : Line.created ≠ .saving := nofun
  have hskipping : Line.skipping ≠ .saving := nofun
  unfold createKey
  cases args.skipGenkey with
  | true => exact (at_say hskipping).exits fun _ _ => And.right
  | false =>
    refine ((at_say hcreating).exits fun _ _ => And.right).bind fun _ => ?_
    refine (at_whileOpen _ (at_of_unchanged (fun _ => rfl) fun _ => rfl)).bind fun _ => ?_
    exact (at_say hcreated).exits fun _ _ => And.right

/-- **One run and the directory.** -/
theorem provision_leaves (args : Args) (env : Surroundings SK) (out : List (String × Bytes)) :
    Prog.Triple (At False out) (provision element E fromEncodedPoint privateBytes args env)
      (fun _ s => Leaves E privateBytes args env out s.printed (.ok ()) s.out)
      (fun e s => Leaves E privateBytes args env out s.printed (.error e) s.out) := by
  have hconnecting : Line.connecting args.port ≠ .saving := nofun
  have hresponded : Line.responded ≠ .saving := nofun
  have hreading : Line.reading ≠ .saving := nofun
  have hearly : ∀ e (s : Bench κ), At False out s →
      Leaves E privateBytes args env out s.printed (.error e) s.out :=
    fun e s hs => .inl ⟨mt hs.1.1 not_false, ⟨e, rfl⟩, hs.2 ▸ SameButKey.refl out⟩
  unfold provision
  refine (at_lift.exits fun e s hs => hearly e s hs.2).bind fun _ => ?_
  refine Prog.Triple.assuming fun _ => ?_
  refine ((at_say hconnecting).exits fun e s hs => hearly e s hs.2).bind fun _ => ?_
  refine ((at_whileOpen _ (at_of_unchanged (fun _ => rfl) fun _ => rfl)).exits hearly).bind
    fun _ => ?_
  refine ((at_say hresponded).exits fun e s hs => hearly e s hs.2).bind fun _ => ?_
  refine ((createKey_at element args env).exits hearly).bind fun _ => ?_
  refine ((at_say hreading).exits fun e s hs => hearly e s hs.2).bind fun _ => ?_
  refine ((at_whileOpen _ (at_of_unchanged (fun _ => rfl) fun _ => rfl)).exits hearly).bind
    fun key => ?_
  refine (issueCertificate_leaves E privateBytes args env key out).results fun _ s hs => ?_
  obtain ⟨hsaving, issue, -, hsaved⟩ := hs
  exact .inr ⟨hsaving, .inr ⟨issue, hsaved⟩⟩

end

end BattLock.Provisioning
