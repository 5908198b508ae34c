import BattLock.Crypto.Remote

/-!
# Calls through the driver

Over a line with nothing on it, and with every reply in time, a call of the driver does to the chip
what the library call does, gives what it gives and raises what `direct` says, and the line is
empty again (`direct_step`). So any sequence of calls through the driver, the line and the bridge is
the same sequence of calls on the chip (`remote_transparent`).
-/

namespace BattLock

open Python Hardware

/-! ## Replies -/

namespace Hardware.Bridge

/-- The longest reply carries 64 bytes. -/
theorem length_loop_le (chip : Chip) (line : List Char) : (loop chip line).length ≤ 134 := by
  have hdigits : ∀ v : Vector UInt8 64, (printHex v.toList).length = 128 := by
    intro v
    rw [printHex_eq, List.length_flatMap]
    simp
  have herror : ∀ msg : String, msg.length ≤ 128 → (sendError msg).length ≤ 134 := by
    intro msg hmsg
    have hlen : msg.toList.length = msg.length := String.length_toList
    simp [sendError, println]
    omega
  unfold loop
  dsimp only
  split_ifs
  · simp
  · simp [println]
  · unfold handleSign
    split
    · exact herror _ (by decide)
    · split
      · exact herror _ (by decide)
      · simp [println, hdigits]
  · unfold handlePubKey
    split
    · exact herror _ (by decide)
    · simp [println, hdigits]
  · unfold handleGenKey
    split
    · simp [println]
    · exact herror _ (by decide)
  · unfold handleVerify
    dsimp only
    split
    · exact herror _ (by decide)
    · split
      · exact herror _ (by decide)
      · split
        · simp [println]
        · exact herror _ (by decide)
  · exact herror _ (by decide)

end Hardware.Bridge

namespace Handle

theorem query_fst {ser : Handle} (h : ser.link.unread = []) {line : List Char} {env : Exchange}
    (henv : (Bridge.loop env.chip line).length ≤ env.arriving) :
    (ser.query line env).1 = strip (Bridge.loop env.chip line) := by
  have hread := Link.unread_readline ((ser.write env.chip line).link.arrive env.arriving)
  have hrest : ((ser.write env.chip line).link.arrive env.arriving).readline.2.unread = [] :=
    query_quiet h henv
  rw [hrest, List.append_nil, Link.unread_arrive, unread_write, h, List.nil_append] at hread
  have htext : Link.text ((Bridge.loop env.chip line).map fun c => (ser.requests, c)) =
      Bridge.loop env.chip line := by
    rw [Link.text, List.map_map]
    exact List.map_id _
  show strip (Link.text ((ser.write env.chip line).link.arrive env.arriving).readline.1) = _
  rw [hread, htext]

end Handle

/-! ## What the driver makes of the replies -/

namespace SerialATECC608

theorem signatureOf_reply (chip : Chip) {data : Bytes} (hdata : data.length = 32) :
    signatureOf (strip (Bridge.loop chip (signRequest data))) =
      match chip.createSignature data with
      | none => .error (.runtimeError "sign failed: ERR:createSignature failed")
      | some signature => .ok signature.toList := by
  have hloop : Bridge.loop chip (signRequest data) = Bridge.handleSign chip (hex data) :=
    Bridge.loop_sign chip hdata
  rcases Bridge.handleSign_hex chip hdata with ⟨hnone, heq⟩ | ⟨signature, hsome, heq⟩
  · rw [hloop, heq, hnone]
    decide +kernel
  · rw [hloop, heq, hsome]
    exact signatureOf_signReply signature

theorem publicKeyOf_reply {PK : Type} (fromEncodedPoint : Bytes → Except Err PK) (chip : Chip) :
    publicKeyOf fromEncodedPoint (strip (Bridge.loop chip "PUBKEY".toList)) =
      match chip.generatePublicKey with
      | none => .error (.runtimeError "get_public_key failed: ERR:generatePublicKey failed")
      | some key => ATECC608.rawPubkeyToKey fromEncodedPoint key.toList := by
  have hloop : Bridge.loop chip "PUBKEY".toList = Bridge.handlePubKey chip := rfl
  rw [hloop, Bridge.handlePubKey]
  cases chip.generatePublicKey with
  | none => rfl
  | some key => exact publicKeyOf_pubKeyReply fromEncodedPoint key

theorem genkey_reply (chip : Chip) :
    strip (Bridge.loop chip "GENKEY".toList) =
      if chip.createNewKeyPair then "OK".toList
      else "ERR:createNewKeyPair failed (slot 0 locked/config?)".toList := by
  have hloop : Bridge.loop chip "GENKEY".toList = Bridge.handleGenKey chip := rfl
  rw [hloop, Bridge.handleGenKey]
  cases chip.createNewKeyPair with
  | true => rfl
  | false => rfl

theorem verify_reply (chip : Chip) (msg : Vector UInt8 32) (sig pub : Vector UInt8 64) :
    strip (Bridge.loop chip (verifyRequest msg.toList sig.toList pub.toList)) =
      if chip.verifySignature msg.toList sig.toList pub.toList then "VERIFY:1".toList
      else "VERIFY:0".toList := by
  rw [Bridge.loop_verifyRequest]
  cases chip.verifySignature msg.toList sig.toList pub.toList with
  | true => rfl
  | false => rfl

theorem Quiet.query {self : SerialATECC608} (h : self.Quiet) (line : List Char) (env : Exchange)
    (henv : (Bridge.loop env.chip line).length ≤ env.arriving) :
    (self.query line env).1.Quiet ∧
      (self.query line env).2 = .ok (strip (Bridge.loop env.chip line)) := by
  obtain ⟨hconnected, ser, hser, hunread⟩ := h
  rw [query_of_ser hser]
  exact ⟨⟨hconnected, _, rfl, Handle.query_quiet hunread henv⟩,
    congrArg Except.ok (Handle.query_fst hunread henv)⟩

section
variable {self : SerialATECC608} (h : self.Quiet) (chip : Chip) {arriving : Nat}
  (harriving : 134 ≤ arriving)
include h harriving

theorem Quiet.sign (data : Bytes) :
    (self.sign data ⟨chip, arriving⟩).1.Quiet ∧
      (self.sign data ⟨chip, arriving⟩).2 =
        if data.length ≠ 32 then .error (.valueError "ATECC608.sign: message must be 32 bytes")
        else
          match chip.createSignature data with
          | none => .error (.runtimeError "sign failed: ERR:createSignature failed")
          | some signature => .ok signature.toList := by
  rw [SerialATECC608.sign, if_neg (not_not.2 h.1)]
  by_cases hdata : data.length ≠ 32
  · rw [if_pos hdata, if_pos hdata]
    exact ⟨h, rfl⟩
  · rw [if_neg hdata, if_neg hdata]
    obtain ⟨hquiet, hreply⟩ := h.query (signRequest data) ⟨chip, arriving⟩
      ((Bridge.length_loop_le _ _).trans harriving)
    refine ⟨hquiet, ?_⟩
    show (self.query (signRequest data) ⟨chip, arriving⟩).2 >>= signatureOf = _
    rw [hreply, ok_bind, signatureOf_reply chip (not_not.1 hdata)]

theorem Quiet.getPublicKey {PK : Type} (fromEncodedPoint : Bytes → Except Err PK) :
    (self.getPublicKey fromEncodedPoint ⟨chip, arriving⟩).1.Quiet ∧
      (self.getPublicKey fromEncodedPoint ⟨chip, arriving⟩).2 =
        match chip.generatePublicKey with
        | none => .error (.runtimeError "get_public_key failed: ERR:generatePublicKey failed")
        | some key => ATECC608.rawPubkeyToKey fromEncodedPoint key.toList := by
  rw [SerialATECC608.getPublicKey, if_neg (not_not.2 h.1)]
  obtain ⟨hquiet, hreply⟩ := h.query "PUBKEY".toList ⟨chip, arriving⟩
    ((Bridge.length_loop_le _ _).trans harriving)
  refine ⟨hquiet, ?_⟩
  show (self.query "PUBKEY".toList ⟨chip, arriving⟩).2 >>= publicKeyOf fromEncodedPoint = _
  rw [hreply, ok_bind, publicKeyOf_reply]

theorem Quiet.genkey :
    (self.genkey ⟨chip, arriving⟩).1.Quiet ∧
      (self.genkey ⟨chip, arriving⟩).2 =
        if chip.createNewKeyPair then .ok ()
        else .error (.runtimeError
          "genkey failed: ERR:createNewKeyPair failed (slot 0 locked/config?)") := by
  obtain ⟨hquiet, hreply⟩ := h.query "GENKEY".toList ⟨chip, arriving⟩
    ((Bridge.length_loop_le _ _).trans harriving)
  rw [genkey_reply] at hreply
  rw [SerialATECC608.genkey, if_neg (not_not.2 h.1)]
  generalize self.query "GENKEY".toList ⟨chip, arriving⟩ = q at hquiet hreply ⊢
  obtain ⟨self', resp⟩ := q
  obtain rfl : resp = _ := hreply
  cases chip.createNewKeyPair with
  | true => exact ⟨hquiet, rfl⟩
  | false => exact ⟨hquiet, rfl⟩

theorem Quiet.verify (msg : Vector UInt8 32) (sig pub : Vector UInt8 64) :
    (self.query (verifyRequest msg.toList sig.toList pub.toList) ⟨chip, arriving⟩).1.Quiet ∧
      (self.query (verifyRequest msg.toList sig.toList pub.toList) ⟨chip, arriving⟩).2 =
        .ok (if chip.verifySignature msg.toList sig.toList pub.toList then "VERIFY:1".toList
          else "VERIFY:0".toList) := by
  have hquery := h.query (verifyRequest msg.toList sig.toList pub.toList) ⟨chip, arriving⟩
    ((Bridge.length_loop_le _ _).trans harriving)
  rwa [verify_reply] at hquery

end

end SerialATECC608

/-! ## The chip's state -/

theorem Hardware.Bridge.command_cons {c : Char} (cs : List Char) (h : isSpace c = false) :
    ∃ rest, command (c :: cs) = c :: rest := by
  have hdrop : (c :: cs).dropWhile isSpace = c :: cs := List.dropWhile_cons_of_neg (by simp [h])
  obtain ⟨ds, htrim⟩ : ∃ ds, trim (c :: cs) = c :: ds := by
    rw [trim, hdrop]
    obtain ⟨suffix, hsuffix⟩ := List.rdropWhile_prefix isSpace (c :: cs)
    cases hkept : (c :: cs).rdropWhile isSpace with
    | nil =>
      rw [List.rdropWhile_eq_nil_iff] at hkept
      rw [hkept c List.mem_cons_self] at h
      cases h
    | cons d ds =>
      rw [hkept, List.cons_append, List.cons.injEq] at hsuffix
      exact ⟨ds, by rw [hsuffix.1]⟩
  have hspace : c ≠ ' ' := by
    rintro rfl
    exact absurd h (by decide)
  rw [command, htrim, List.idxOf?_cons, if_neg (by simpa using hspace)]
  cases ds.idxOf? ' ' with
  | none => exact ⟨ds, rfl⟩
  | some sp => exact ⟨ds.take sp, rfl⟩

namespace Remote

open SerialATECC608 (signRequest)

/-- Only a GENKEY request may change the chip. -/
theorem handled_request {κ : Type} (element : SecureElement κ) (k : κ) (entropy : Nat)
    (call : Call) :
    element.handled k entropy call.request =
      match call with
      | .genkey => element.createNewKeyPair k entropy
      | _ => k := by
  have hother : ∀ {c : Char} {cs : List Char}, isSpace c = false → c ≠ 'G' →
      element.handled k entropy (c :: cs) = k := by
    intro c cs hspace hc
    obtain ⟨rest, hrest⟩ := Bridge.command_cons cs hspace
    rw [SecureElement.handled, hrest, if_neg]
    intro h
    exact hc (List.cons.inj h).1
  cases call with
  | genkey => rfl
  | getPublicKey => rfl
  | sign data => exact hother (by decide) (by decide)
  | verify msg sig pub =>
    rw [Call.request, Bridge.verifyRequest_eq]
    exact hother (by decide) (by decide)

/-! ## Transparency -/

variable {κ PK : Type} (element : SecureElement κ) (fromEncodedPoint : Bytes → Except Err PK)

/-- The same call; its reply comes in time. -/
def InTime (i : Call × Nat) (i' : Call × Nat × Nat) : Prop :=
  i'.1 = i.1 ∧ i'.2.1 = i.2 ∧ 134 ≤ i'.2.2

/-- **One call through the driver.** -/
theorem direct_step :
    Mealy.Simulates (direct element fromEncodedPoint) (remote element fromEncodedPoint)
      (fun k s => s.1.Quiet ∧ s.2 = k) InTime (fun e e' => e.2 = e'.2)
      (fun _ => False) where
  step k s i i' h hi := by
    obtain ⟨self, k'⟩ := s
    obtain ⟨call, entropy⟩ := i
    obtain ⟨call', entropy', arriving⟩ := i'
    obtain ⟨hquiet, rfl⟩ := h
    obtain ⟨rfl, rfl, harriving⟩ := hi
    dsimp only at hquiet harriving ⊢
    have hready : (self.connected && self.ser.isSome) = true := by
      obtain ⟨hconnected, ser, hser, -⟩ := hquiet
      rw [hconnected, hser]
      rfl
    have hstate : element.asked self k' entropy' call'.request = _ :=
      (if_pos hready).trans (handled_request element k' entropy' call')
    cases call' with
    | sign data =>
      obtain ⟨hquiet', hr⟩ := hquiet.sign (element.chip k' entropy') harriving data
      dsimp only [remote, direct]
      rw [hstate, hr]
      exact ⟨⟨hquiet', rfl⟩, rfl⟩
    | getPublicKey =>
      obtain ⟨hquiet', hr⟩ :=
        hquiet.getPublicKey (element.chip k' entropy') harriving fromEncodedPoint
      dsimp only [remote, direct]
      rw [hstate, hr]
      exact ⟨⟨hquiet', rfl⟩, rfl⟩
    | genkey =>
      obtain ⟨hquiet', hr⟩ := hquiet.genkey (element.chip k' entropy') harriving
      dsimp only [remote, direct]
      rw [hstate, hr]
      exact ⟨⟨hquiet', rfl⟩, rfl⟩
    | verify msg sig pub =>
      obtain ⟨hquiet', hr⟩ := hquiet.verify (element.chip k' entropy') harriving msg sig pub
      dsimp only [remote, direct]
      rw [hstate, hr]
      exact ⟨⟨hquiet', rfl⟩, rfl⟩
  hide _ _ _ _ h := h.elim

/-- Over a line with nothing under way, and with the PONG in time, `connect` succeeds and leaves the
line empty. -/
theorem connect_opened (self₀ : SerialATECC608) (arrived : List Char) (env : Exchange)
    (henv : 134 ≤ env.arriving) :
    (self₀.connect true (.ok (.opened arrived [])) env).2 = .ok () ∧
      (self₀.connect true (.ok (.opened arrived [])) env).1.Quiet := by
  have hloop : Bridge.loop env.chip "PING".toList = Bridge.println "PONG".toList := rfl
  have harriving := (Bridge.length_loop_le env.chip "PING".toList).trans henv
  have hser : (⟨self₀.port, some (Handle.opened arrived []).resetInputBuffer,
      self₀.connected⟩ : SerialATECC608).ser =
        some (Handle.opened arrived []).resetInputBuffer := rfl
  have hquery := SerialATECC608.query_of_ser hser "PING".toList env
  have hpong : ((Handle.opened arrived []).resetInputBuffer.query "PING".toList env).1 =
      "PONG".toList := by
    rw [Handle.query_fst rfl harriving, hloop]
    rfl
  have hunread :
      ((Handle.opened arrived []).resetInputBuffer.query "PING".toList env).2.link.unread = [] :=
    Handle.query_quiet rfl harriving
  unfold SerialATECC608.connect
  rw [if_neg (by decide)]
  dsimp only
  rw [hquery]
  dsimp only
  rw [hpong, if_neg (by decide)]
  exact ⟨rfl, rfl, _, rfl, hunread⟩

theorem quiet_of_connect {self₀ self : SerialATECC608} {hasSerial : Bool} {arrived : List Char}
    {env : Exchange} (henv : 134 ≤ env.arriving)
    (h : self₀.connect hasSerial (.ok (.opened arrived [])) env = (self, .ok ())) :
    self.Quiet := by
  cases hasSerial with
  | false => cases h
  | true =>
    obtain ⟨-, hquiet⟩ := connect_opened self₀ arrived _ henv
    rwa [h] at hquiet

/-- **The driver is transparent**: after a successful `connect`, and as long as every reply comes
in time, any sequence of calls through the driver, the line and the bridge answers as the same
calls on the chip and leaves the chip in the same state, whatever the chip does and whichever calls
fail. -/
theorem remote_transparent {self₀ self : SerialATECC608} {hasSerial : Bool} {arrived : List Char}
    {env : Exchange} (henv : 134 ≤ env.arriving)
    (hconnect : self₀.connect hasSerial (.ok (.opened arrived [])) env = (self, .ok ()))
    (k : κ) (calls : List (Call × Nat × Nat)) (hcalls : ∀ i ∈ calls, 134 ≤ i.2.2) :
    ((remote element fromEncodedPoint).log (self, k) calls).map Prod.snd =
        ((direct element fromEncodedPoint).log k (calls.map fun i => (i.1, i.2.1))).map Prod.snd ∧
      ((remote element fromEncodedPoint).run (self, k) calls).2 =
        (direct element fromEncodedPoint).run k (calls.map fun i => (i.1, i.2.1)) := by
  have hweave : Mealy.Weave InTime (fun _ => False) (calls.map fun i => (i.1, i.2.1)) calls := by
    induction calls with
    | nil => exact .nil
    | cons i calls ih =>
      obtain ⟨hi, hcalls⟩ := List.forall_mem_cons.1 hcalls
      exact .cons ⟨rfl, rfl, hi⟩ (ih hcalls)
  obtain ⟨⟨-, hstate⟩, hlogs⟩ := (direct_step element fromEncodedPoint).run k (self, k)
    ⟨quiet_of_connect henv hconnect, rfl⟩ hweave
  refine ⟨?_, hstate⟩
  generalize (direct element fromEncodedPoint).log k (calls.map fun i => (i.1, i.2.1)) = ds at hlogs
  generalize (remote element fromEncodedPoint).log (self, k) calls = rs at hlogs
  induction hlogs with
  | nil => rfl
  | cons h _ ih => rw [List.map_cons, List.map_cons, ih, h.2]
  | hide h => exact h.elim

/-- A chip whose key is a number that counts its key pairs and signs with its bytes. -/
def countingElement : SecureElement UInt8 where
  chip k _ := {
    createSignature := fun _ => some (Vector.replicate 64 k)
    generatePublicKey := some (Vector.replicate 64 k)
    createNewKeyPair := true
    verifySignature := fun _ sig pub => sig = pub }
  newKeyPair k _ := k + 1

/-- A fresh object in front of it. -/
def countingObject : SerialATECC608 :=
  (SerialATECC608.connect {} true (.ok (.opened [] [])) ⟨countingElement.chip 0 0, 134⟩).1

/-- The second signature is made with the key of the second pair. -/
theorem remote_transparent_counting :
    ((remote countingElement fun raw => (.ok raw : Except Err Bytes)).run (countingObject, 0)
        [(.genkey, 0, 134), (.sign (List.replicate 32 1), 0, 134), (.genkey, 0, 200),
          (.sign (List.replicate 32 1), 0, 134)]).2 = 2 := by
  have hconnect : SerialATECC608.connect {} true (.ok (.opened [] []))
      ⟨countingElement.chip 0 0, 134⟩ = (countingObject, .ok ()) := by
    decide +kernel
  exact (remote_transparent countingElement (fun raw => (.ok raw : Except Err Bytes))
    (Nat.le_refl 134) hconnect 0 [(.genkey, 0, 134), (.sign (List.replicate 32 1), 0, 134),
      (.genkey, 0, 200), (.sign (List.replicate 32 1), 0, 134)] (by decide)).2

end Remote

end BattLock
