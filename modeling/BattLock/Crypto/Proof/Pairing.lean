import BattLock.Crypto.Serial
import BattLock.Hardware.Proof.Bridge
import BattLock.Lib.Mealy

/-!
# Requests and replies on the serial line

The line is in order and without loss, but a reply may come after the read of its query has given
up, and is then read by a later query. A query reads either a part of its own reply or a line that
was on the way before its request (`queryLine_cases`); when a signature is read from its own reply,
it is the one the chip made of the message (`signatureOf_own`). `sign` returns only such signatures
in exactly the runs in which it is never called while a reply with a signature is waiting
(`signs_own_iff`), among them all whose replies are prompt (`neverWaiting_of_prompt`).
-/

namespace BattLock

open Python Hardware

/-! ## White space around a reply -/

theorem strip_prefix {c : Char} {cs : List Char} (h : isspace c = false) :
    List.IsPrefix (strip (c :: cs)) (c :: cs) := by
  have hdrop : (c :: cs).dropWhile isspace = c :: cs :=
    List.dropWhile_cons_of_neg (by simp [h])
  rw [strip, hdrop]
  exact List.rdropWhile_prefix _ _

theorem strip_getLast {cs t : List Char} {c : Char} (h : strip cs = t ++ [c]) :
    isspace c = false := by
  have hne : (cs.dropWhile isspace).rdropWhile isspace ≠ [] := by
    rw [← strip, h]
    simp
  have hlast := List.rdropWhile_last_not isspace (cs.dropWhile isspace) hne
  have hc : ((cs.dropWhile isspace).rdropWhile isspace).getLast hne = c := by
    rw [List.getLast_congr hne (by simp) h, List.getLast_append_singleton]
  rw [hc] at hlast
  simpa using hlast

/-! ## The signature in a reply -/

namespace SerialATECC608

theorem signatureOf_ok {resp : List Char} {raw : Bytes} (h : signatureOf resp = .ok raw) :
    List.IsPrefix "SIG:".toList resp ∧ fromHex (resp.drop 4) = .ok raw ∧ raw.length = 64 := by
  unfold signatureOf at h
  split at h
  · cases h
  · rename_i hsig
    rw [not_not, List.isPrefixOf_iff_prefix] at hsig
    obtain ⟨raw', hpayload, h⟩ := bind_eq_ok.1 h
    split at h
    · cases h
    · rename_i hlen
      cases h
      exact ⟨hsig, hpayload, not_not.1 hlen⟩

theorem strip_reply_prefix {chip : Chip} {data : Bytes} (hdata : data.length = 32) {t : List Char}
    (ht : List.IsPrefix t (Bridge.handleSign chip (hex data))) : List.IsPrefix (strip t) t := by
  cases t with
  | nil => exact List.prefix_refl _
  | cons c t =>
    -- the reply starts with a letter
    refine strip_prefix ?_
    obtain ⟨rest, hrest⟩ := ht
    rcases Bridge.handleSign_hex chip hdata with ⟨-, heq⟩ | ⟨signature, -, heq⟩
    · rw [heq] at hrest
      obtain rfl : c = 'E' := (List.cons.inj hrest).1
      decide
    · rw [heq] at hrest
      obtain rfl : c = 'S' := (List.cons.inj hrest).1
      decide

/-- **What is read of the bridge's own reply**: if it passes for a signature, then for the one the
chip made of the message. -/
theorem signatureOf_own {chip : Chip} {data : Bytes} (hdata : data.length = 32) {t : List Char}
    (ht : List.IsPrefix t (Bridge.loop chip (signRequest data))) {raw : Bytes}
    (h : signatureOf (strip t) = .ok raw) :
    ∃ signature, chip.createSignature data = some signature ∧ signature.toList = raw := by
  obtain ⟨hsig, hpayload, hlen⟩ := signatureOf_ok h
  have hreply : Bridge.loop chip (signRequest data) = Bridge.handleSign chip (hex data) :=
    Bridge.loop_sign chip hdata
  rw [hreply] at ht
  have hstrip := strip_reply_prefix hdata ht
  have hfront := (hsig.trans hstrip).trans ht
  rcases Bridge.handleSign_hex chip hdata with ⟨-, heq⟩ | ⟨signature, hsignature, heq⟩
  · rw [heq] at hfront
    exact absurd hfront (by decide)
  · refine ⟨signature, hsignature, ?_⟩
    rw [heq] at ht
    obtain ⟨w, hw⟩ := hsig
    have hdrop : (strip t).drop 4 = w := by
      rw [← hw]
      rfl
    have hdigits : List.IsPrefix w (Bridge.printHex signature.toList ++ ['\r'] ++ ['\n']) := by
      have h := hstrip.trans ht
      rw [← hw, List.append_assoc, List.prefix_append_right_inj] at h
      simpa [Bridge.println] using h
    -- the stripped text ends neither with the newline nor with the carriage return
    rcases List.prefix_concat_iff.1 hdigits with rfl | hdigits
    · exact absurd (strip_getLast (by rw [← hw, ← List.append_assoc])) (by decide)
    rcases List.prefix_concat_iff.1 hdigits with rfl | hdigits
    · exact absurd (strip_getLast (by rw [← hw, ← List.append_assoc])) (by decide)
    rw [hdrop, List.prefix_iff_eq_take.1 hdigits] at hpayload
    exact (Bridge.fromHex_take_printHex hpayload (by rw [hlen, Vector.length_toList])).symm

end SerialATECC608

/-! ## Queries -/

namespace Handle

/-- Everything on the line ends with a newline and answers a request made before. -/
structure Linked (ser : Handle) : Prop where
  terminated : Link.Terminated ser.link.unread
  earlier : ∀ c ∈ ser.link.unread, c.1 < ser.requests

/-- What a query with the given delay would read of the text that is on the line already. -/
def waitingLine (ser : Handle) (arriving : Nat) : List (Nat × Char) :=
  ((ser.link.arrive arriving).readline).1

theorem terminated_reply (tag : Nat) {t : List Char} (h : Bridge.OneLine t) :
    Link.Terminated (t.map fun c => (tag, c)) := by
  rcases h with rfl | ⟨t, -, rfl⟩
  · simp [Link.Terminated]
  · simp [Link.Terminated]

theorem unread_write (ser : Handle) (chip : Chip) (line : List Char) :
    (ser.write chip line).link.unread =
      ser.link.unread ++ (Bridge.loop chip line).map fun c => (ser.requests, c) :=
  Link.unread_send _ _ _

theorem earlier_write {ser : Handle} (h : ∀ c ∈ ser.link.unread, c.1 < ser.requests) (chip : Chip)
    (line : List Char) :
    ∀ c ∈ (ser.write chip line).link.unread, c.1 < (ser.write chip line).requests := by
  intro c hc
  rw [unread_write] at hc
  rcases List.mem_append.1 hc with hc | hc
  · exact Nat.lt_succ_of_lt (h c hc)
  · obtain ⟨a, -, rfl⟩ := List.mem_map.1 hc
    exact Nat.lt_succ_self _

theorem Linked.write {ser : Handle} (h : ser.Linked) (chip : Chip) (line : List Char) :
    (ser.write chip line).Linked := by
  refine ⟨?_, earlier_write h.earlier chip line⟩
  rw [unread_write]
  exact h.terminated.append (terminated_reply _ (Bridge.oneLine_loop chip line))

theorem Linked.read {ser ser' : Handle} (h : ser.Linked) (hrequests : ser'.requests = ser.requests)
    (hsuffix : List.IsSuffix ser'.link.unread ser.link.unread) : ser'.Linked :=
  ⟨h.terminated.of_suffix hsuffix, fun c hc => hrequests ▸ h.earlier c (hsuffix.subset hc)⟩

/-- Behind a reply that is not empty, the line ends with a newline whatever was on it before. -/
theorem linked_write_of_reply {ser : Handle} (h : ∀ c ∈ ser.link.unread, c.1 < ser.requests)
    {chip : Chip} {line : List Char} (hne : Bridge.loop chip line ≠ []) :
    (ser.write chip line).Linked := by
  constructor
  · intro c hc
    rw [unread_write, List.getLast?_append_of_ne_nil _ (by simpa using hne)] at hc
    exact terminated_reply _ (Bridge.oneLine_loop chip line) c hc
  · exact earlier_write h chip line

/-- **A query keeps the line as its request left it.** -/
theorem linked_query {ser : Handle} {line : List Char} {env : Exchange}
    (h : (ser.write env.chip line).Linked) : (ser.query line env).2.Linked := by
  refine h.read rfl ?_
  have hread := Link.unread_readline ((ser.write env.chip line).link.arrive env.arriving)
  rw [Link.unread_arrive] at hread
  exact ⟨_, hread⟩

/-- **What a query reads**: a part of its own reply, when nothing was waiting, or else what it would
have read without its request. -/
theorem queryLine_cases {ser : Handle} (h : ser.Linked) (line : List Char) (env : Exchange) :
    (ser.link.unread = [] ∧ List.IsPrefix (ser.queryLine line env)
      ((Bridge.loop env.chip line).map fun c => (ser.requests, c))) ∨
    (ser.link.unread ≠ [] ∧ ser.queryLine line env = ser.waitingLine env.arriving) := by
  by_cases hnone : ser.link.unread = []
  · refine .inl ⟨hnone, ?_⟩
    have hread : List.IsPrefix (ser.queryLine line env)
        ((ser.write env.chip line).link.arrive env.arriving).arrived := Link.firstLine_prefix _
    rw [Link.arrived_arrive, unread_write, hnone, List.nil_append] at hread
    exact hread.trans (List.take_prefix _ _)
  · refine .inr ⟨hnone, ?_⟩
    rw [queryLine, waitingLine, Link.readline, Link.readline, Link.arrived_arrive,
      Link.arrived_arrive, unread_write]
    exact Link.firstLine_take_append h.terminated hnone _

theorem waitingLine_subset (ser : Handle) (arriving : Nat) :
    ∀ c ∈ ser.waitingLine arriving, c ∈ ser.link.unread := by
  intro c hc
  have hread := Link.unread_readline (ser.link.arrive arriving)
  rw [Link.unread_arrive] at hread
  rw [← hread]
  exact List.mem_append_left _ hc

theorem Linked.waitingLine_earlier {ser : Handle} (h : ser.Linked) {arriving : Nat}
    (hne : ser.waitingLine arriving ≠ []) :
    ¬ ∀ c ∈ ser.waitingLine arriving, c.1 = ser.requests := by
  intro htags
  obtain ⟨c, hc⟩ := List.exists_mem_of_ne_nil _ hne
  have hlt := h.earlier c (ser.waitingLine_subset _ c hc)
  rw [htags c hc] at hlt
  exact Nat.lt_irrefl _ hlt

theorem query_quiet {ser : Handle} (h : ser.link.unread = []) {line : List Char} {env : Exchange}
    (henv : (Bridge.loop env.chip line).length ≤ env.arriving) :
    (ser.query line env).2.link.unread = [] := by
  have hread := Link.unread_readline ((ser.write env.chip line).link.arrive env.arriving)
  rw [Link.unread_arrive, unread_write, h, List.nil_append] at hread
  have hline : ((ser.write env.chip line).link.arrive env.arriving).readline.1 =
      (Bridge.loop env.chip line).map fun c => (ser.requests, c) := by
    rw [Link.readline, Link.arrived_arrive, unread_write, h, List.nil_append,
      List.take_of_length_le (by rw [List.length_map]; omega)]
    rcases Bridge.oneLine_loop env.chip line with hnil | ⟨t, ht, heq⟩
    · rw [hnil]
      rfl
    · rw [heq]
      exact Link.firstLine_line ht
  rw [hline] at hread
  exact List.append_right_eq_self.1 hread

theorem waitingLine_of_quiet {ser : Handle} (h : ser.link.unread = []) (arriving : Nat) :
    ser.waitingLine arriving = [] := by
  rw [List.eq_nil_iff_forall_not_mem]
  intro c hc
  have hmem := ser.waitingLine_subset arriving c hc
  rw [h] at hmem
  exact List.not_mem_nil hmem

end Handle

/-! ## Calls after connecting -/

namespace SerialATECC608

inductive Call
  | sign (data : Bytes)
  | getPublicKey
  | genkey
deriving DecidableEq

/-- What a call returns or raises. -/
inductive Returned (PK : Type)
  | signature (result : Except Err Bytes)
  | key (result : Except Err PK)
  | done (result : Except Err Unit)

variable {PK : Type} (fromEncodedPoint : Bytes → Except Err PK)

def Call.request : Call → List Char
  | sign data => signRequest data
  | getPublicKey => "PUBKEY".toList
  | genkey => "GENKEY".toList

/-- The object under calls of its methods. -/
def machine : Mealy SerialATECC608 (Call × Exchange) (Returned PK) where
  step self
    | (.sign data, env) => ((self.sign data env).1, .signature (self.sign data env).2)
    | (.getPublicKey, env) =>
      ((self.getPublicKey fromEncodedPoint env).1, .key (self.getPublicKey fromEncodedPoint env).2)
    | (.genkey, env) => ((self.genkey env).1, .done (self.genkey env).2)

/-- Connected over a line that is as it should be. -/
def Ready (self : SerialATECC608) : Prop :=
  self.connected = true ∧ ∃ ser, self.ser = some ser ∧ ser.Linked

theorem query_of_ser {self : SerialATECC608} {ser : Handle} (h : self.ser = some ser)
    (line : List Char) (env : Exchange) : self.query line env =
      ({ self with ser := some (ser.query line env).2 }, .ok (ser.query line env).1) := by
  rw [query, h]

/-- **What a call does to a connected object**: nothing, or its query. -/
theorem step_cases {self : SerialATECC608} (h : self.connected = true) (call : Call)
    (env : Exchange) :
    ((machine fromEncodedPoint).step self (call, env)).1 = self ∨
      ((machine fromEncodedPoint).step self (call, env)).1 = (self.query call.request env).1 := by
  cases call with
  | sign data =>
    show (self.sign data env).1 = self ∨ (self.sign data env).1 = (self.query _ env).1
    rw [sign, if_neg (not_not.2 h)]
    split
    · exact .inl rfl
    · exact .inr rfl
  | getPublicKey =>
    show _ ∨ (self.getPublicKey fromEncodedPoint env).1 = (self.query _ env).1
    rw [getPublicKey, if_neg (not_not.2 h)]
    exact .inr rfl
  | genkey =>
    show _ ∨ (self.genkey env).1 = (self.query "GENKEY".toList env).1
    rw [genkey, if_neg (not_not.2 h)]
    refine .inr ?_
    rcases self.query "GENKEY".toList env with ⟨self', e | resp⟩
    · rfl
    · show (if _ then _ else _ : SerialATECC608 × Except Err Unit).1 = self'
      split <;> rfl

/-- **Every call leaves the object ready.** -/
theorem Ready.step {self : SerialATECC608} (h : self.Ready) (i : Call × Exchange) :
    ((machine fromEncodedPoint).step self i).1.Ready := by
  obtain ⟨call, env⟩ := i
  rcases step_cases fromEncodedPoint h.1 call env with heq | heq
  · rw [heq]
    exact h
  · obtain ⟨hconnected, ser, hser, hlinked⟩ := h
    rw [heq, query_of_ser hser]
    exact ⟨hconnected, _, rfl, Handle.linked_query (hlinked.write env.chip _)⟩

theorem Ready.run {self : SerialATECC608} (h : self.Ready) (calls : List (Call × Exchange)) :
    ((machine fromEncodedPoint).run self calls).Ready := by
  induction calls generalizing self with
  | nil => exact h
  | cons i calls ih => exact ih (h.step fromEncodedPoint i)

/-- Connecting gives a ready object, whatever the bridge printed before. -/
theorem ready_of_connect {self₀ self : SerialATECC608} {hasSerial : Bool} {arrived late : List Char}
    {env : Exchange}
    (h : self₀.connect hasSerial (.ok (.opened arrived late)) env = (self, .ok ())) :
    self.Ready := by
  have hpong : Bridge.loop env.chip "PING".toList ≠ [] := by
    have hreply : Bridge.loop env.chip "PING".toList = "PONG\r\n".toList := rfl
    rw [hreply]
    decide
  have hbefore : ∀ c ∈ (Handle.opened arrived late).resetInputBuffer.link.unread,
      c.1 < (Handle.opened arrived late).resetInputBuffer.requests := by
    intro c hc
    obtain ⟨a, -, rfl⟩ := List.mem_map.1 (show c ∈ late.map (0, ·) from hc)
    exact Nat.zero_lt_one
  have hquery : query ⟨self₀.port, some (Handle.opened arrived late).resetInputBuffer,
      self₀.connected⟩ "PING".toList env = _ := query_of_ser rfl _ env
  unfold connect at h
  split at h
  · cases h
  · dsimp only at h
    rw [hquery] at h
    dsimp only at h
    split at h
    · cases h
    · cases h
      exact ⟨rfl, _, rfl, Handle.linked_query (Handle.linked_write_of_reply hbefore hpong)⟩

/-! ## Signing -/

/-- The signature returned was read from the reply to this request, and is the one the chip made of
the message. -/
def OwnSignature (self : SerialATECC608) (data : Bytes) (env : Exchange) (raw : Bytes) : Prop :=
  ∃ ser, self.ser = some ser ∧
    (∀ c ∈ ser.queryLine (signRequest data) env, c.1 = ser.requests) ∧
    ∃ signature, env.chip.createSignature data = some signature ∧ signature.toList = raw

/-- A reply with a signature is at the front of the line before the request, and arrives before
the read of the query ends. -/
def SignatureWaiting (self : SerialATECC608) (env : Exchange) : Prop :=
  ∃ ser raw, self.ser = some ser ∧
    signatureOf (strip (Link.text (ser.waitingLine env.arriving))) = .ok raw

theorem sign_of_ser {self : SerialATECC608} {ser : Handle} (hconnected : self.connected = true)
    (hser : self.ser = some ser) {data : Bytes} (hdata : data.length = 32) (env : Exchange) :
    (self.sign data env).2 =
      signatureOf (strip (Link.text (ser.queryLine (signRequest data) env))) := by
  rw [sign, if_neg (not_not.2 hconnected), if_neg (not_not.2 hdata), query_of_ser hser]
  rfl

theorem signatureOf_nil (raw : Bytes) : signatureOf [] ≠ .ok raw := by
  intro h
  exact absurd (signatureOf_ok h).1 (by decide)

/-- **One call of `sign`.** -/
theorem sign_own_iff {self : SerialATECC608} (h : self.Ready) {data : Bytes}
    (hdata : data.length = 32) (env : Exchange) :
    (∀ raw, (self.sign data env).2 = .ok raw → self.OwnSignature data env raw) ↔
      ¬ self.SignatureWaiting env := by
  obtain ⟨hconnected, ser, hser, hlinked⟩ := h
  have hsame : ∀ {ser'}, self.ser = some ser' → ser = ser' := fun hser' =>
    Option.some.inj (hser.symm.trans hser')
  have hsign := sign_of_ser hconnected hser hdata env
  rcases Handle.queryLine_cases hlinked (signRequest data) env with ⟨hnone, hown⟩ | ⟨-, hwaiting⟩
  · obtain ⟨htext, htags⟩ := Link.text_prefix hown
    refine iff_of_true (fun raw hraw => ?_) ?_
    · rw [hsign] at hraw
      exact ⟨ser, hser, htags, signatureOf_own hdata htext hraw⟩
    · rintro ⟨ser', raw, hser', hraw⟩
      obtain rfl := hsame hser'
      rw [Handle.waitingLine_of_quiet hnone] at hraw
      exact signatureOf_nil raw hraw
  · rw [hwaiting] at hsign
    constructor
    · rintro hall ⟨ser', raw, hser', hraw⟩
      obtain rfl := hsame hser'
      obtain ⟨ser', hser', htags, -⟩ := hall raw (hsign.trans hraw)
      obtain rfl := hsame hser'
      rw [hwaiting] at htags
      refine hlinked.waitingLine_earlier (fun hnil => ?_) htags
      rw [hnil] at hraw
      exact signatureOf_nil raw hraw
    · intro hnone raw hraw
      exact absurd ⟨ser, raw, hser, hsign.symm.trans hraw⟩ hnone

/-- Every signature that `sign` returns in a run is the reply to its own request. -/
def SignsOwn (self : SerialATECC608) (calls : List (Call × Exchange)) : Prop :=
  ∀ before data env after, calls = before ++ (.sign data, env) :: after → ∀ raw,
    (((machine fromEncodedPoint).run self before).sign data env).2 = .ok raw →
      ((machine fromEncodedPoint).run self before).OwnSignature data env raw

/-- No message is signed in a run while a reply with a signature is waiting. -/
def NeverWaiting (self : SerialATECC608) (calls : List (Call × Exchange)) : Prop :=
  ∀ before data env after, calls = before ++ (.sign data, env) :: after → data.length = 32 →
    ¬ ((machine fromEncodedPoint).run self before).SignatureWaiting env

/-! ## Prompt replies -/

/-- The read of every query lasts until its reply has arrived. -/
def Prompt (calls : List (Call × Exchange)) : Prop :=
  ∀ i ∈ calls, (Bridge.loop i.2.chip i.1.request).length ≤ i.2.arriving

/-- Connected, and nothing on the line. -/
def Quiet (self : SerialATECC608) : Prop :=
  self.connected = true ∧ ∃ ser, self.ser = some ser ∧ ser.link.unread = []

theorem Quiet.run {self : SerialATECC608} (h : self.Quiet) {calls : List (Call × Exchange)}
    (hprompt : Prompt calls) : ((machine fromEncodedPoint).run self calls).Quiet := by
  induction calls generalizing self with
  | nil => exact h
  | cons i calls ih =>
    obtain ⟨call, env⟩ := i
    obtain ⟨henv, hprompt⟩ := List.forall_mem_cons.1 hprompt
    refine ih ?_ hprompt
    rcases step_cases fromEncodedPoint h.1 call env with heq | heq
    · rw [heq]
      exact h
    · obtain ⟨hconnected, ser, hser, hunread⟩ := h
      rw [heq, query_of_ser hser]
      exact ⟨hconnected, _, rfl, Handle.query_quiet hunread henv⟩

/-- **No reply waits when every reply is prompt.** -/
theorem neverWaiting_of_prompt {self : SerialATECC608} (h : self.Quiet)
    {calls : List (Call × Exchange)} (hprompt : Prompt calls) :
    NeverWaiting fromEncodedPoint self calls := by
  rintro before data env after rfl - ⟨ser, raw, hser, hraw⟩
  have hbefore : Prompt before := fun i hi => hprompt i (List.mem_append_left _ hi)
  obtain ⟨-, ser', hser', hunread⟩ := h.run fromEncodedPoint hbefore
  obtain rfl : ser = ser' := Option.some.inj (hser.symm.trans hser')
  rw [Handle.waitingLine_of_quiet hunread] at hraw
  exact signatureOf_nil raw hraw

/-! ## Pairing -/

/-- **Requests and replies are paired** in exactly the runs in which `sign` is never called while a
reply with a signature is waiting. -/
theorem signs_own_iff {self₀ self : SerialATECC608} {hasSerial : Bool} {arrived late : List Char}
    {env : Exchange}
    (hconnect : self₀.connect hasSerial (.ok (.opened arrived late)) env = (self, .ok ()))
    (calls : List (Call × Exchange)) :
    SignsOwn fromEncodedPoint self calls ↔ NeverWaiting fromEncodedPoint self calls := by
  have hready := ready_of_connect hconnect
  constructor
  · intro h before data env' after hcalls hdata
    exact (sign_own_iff (hready.run fromEncodedPoint before) hdata env').1
      (h before data env' after hcalls)
  · intro h before data env' after hcalls raw hraw
    by_cases hdata : data.length = 32
    · exact (sign_own_iff (hready.run fromEncodedPoint before) hdata env').2
        (h before data env' after hcalls hdata) raw hraw
    · have hconnected := (hready.run fromEncodedPoint before).1
      rw [sign, if_neg (not_not.2 hconnected), if_pos hdata] at hraw
      cases hraw

/-- A chip whose signatures repeat the first byte of the message. -/
def echoChip : Chip where
  createSignature msg := some (Vector.replicate 64 (msg.headD 0))
  generatePublicKey := none
  createNewKeyPair := true
  verifySignature _ _ _ := true

/-- A fresh object after a prompt PONG. -/
def echoObject : SerialATECC608 :=
  (connect {} true (.ok (.opened [] [])) ⟨echoChip, 6⟩).1

theorem connect_echo :
    connect {} true (.ok (.opened [] [])) ⟨echoChip, 6⟩ = (echoObject, .ok ()) := by
  decide +kernel

theorem signs_own_prompt :
    SignsOwn (fun raw => (.ok raw : Except Err Bytes)) echoObject
      [(.getPublicKey, ⟨echoChip, 200⟩), (.sign (List.replicate 32 1), ⟨echoChip, 200⟩)] := by
  have hquiet : echoObject.Quiet := ⟨by decide +kernel, ⟨{}, 2⟩, by decide +kernel⟩
  have hprompt : Prompt [(.getPublicKey, ⟨echoChip, 200⟩),
      (.sign (List.replicate 32 1), ⟨echoChip, 200⟩)] := by
    unfold Prompt
    decide +kernel
  exact (signs_own_iff _ connect_echo _).2 (neverWaiting_of_prompt _ hquiet hprompt)

/-- The reply to the first message comes after its read has given up, and is returned for the
second. -/
theorem not_signsOwn :
    connect {} true (.ok (.opened [] [])) ⟨echoChip, 6⟩ = (echoObject, .ok ()) ∧
      ¬ SignsOwn (fun raw => (.ok raw : Except Err Bytes)) echoObject
        [(.sign (List.replicate 32 0), ⟨echoChip, 0⟩),
          (.sign (List.replicate 32 1), ⟨echoChip, 200⟩)] := by
  refine ⟨connect_echo, fun hown => ?_⟩
  obtain ⟨ser, -, -, signature, hsignature, heq⟩ :=
    hown [(.sign (List.replicate 32 0), ⟨echoChip, 0⟩)] _ _ [] rfl (List.replicate 64 0)
      (by decide +kernel)
  cases hsignature
  revert heq
  decide

end SerialATECC608

end BattLock
