import BattLock.Crypto.Proof.Pairing

/-!
# The commands of the bridge, there and back

The command lines of the Python side are read by the bridge as the bytes they were made of
(`loop_signRequest`, `loop_verifyRequest`), and the bridge's replies are read by the Python side as
the bytes that were printed (`signatureOf_signReply`, `publicKeyOf_pubKeyReply`), although one side
writes lower-case digits and the other upper-case ones. `commands_round_trip` joins them with what
the bridge refuses.
-/

namespace BattLock

open Python Hardware

/-! ## Command lines -/

/-- The VERIFY query of `provisioning/cross_compat_test.py`. -/
def verifyRequest (msg sig pub : Bytes) : List Char :=
  "VERIFY ".toList ++ hex msg ++ " ".toList ++ hex sig ++ " ".toList ++ hex pub

namespace Hardware.Bridge

/-- The reply to a SIGN request, by what the chip gives. -/
def signReply : Option (Vector UInt8 64) → List Char
  | none => sendError "createSignature failed"
  | some signature => "SIG:".toList ++ printHex signature.toList ++ println []

/-- The reply to a PUBKEY request with the chip's key. -/
def pubKeyReply (key : Vector UInt8 64) : List Char :=
  "PUB:".toList ++ printHex key.toList ++ println []

theorem loop_signRequest (chip : Chip) (msg : Vector UInt8 32) :
    loop chip (SerialATECC608.signRequest msg.toList) =
      signReply (chip.createSignature msg.toList) := by
  have hlen : msg.toList.length = 32 := Vector.length_toList
  rw [SerialATECC608.signRequest, loop_sign chip hlen]
  rcases handleSign_hex chip hlen with ⟨hnone, heq⟩ | ⟨signature, hsome, heq⟩
  · rw [heq, hnone]
    rfl
  · rw [heq, hsome]
    rfl

theorem not_space_of_mem_hex (data : Bytes) : ' ' ∉ hex data := fun h =>
  absurd (not_isSpace_of_mem_hex ' ' h) (by decide)

theorem verifyRequest_eq (msg sig pub : Bytes) : verifyRequest msg sig pub =
    "VERIFY".toList ++ ' ' :: (hex msg ++ ' ' :: (hex sig ++ ' ' :: hex pub)) := by
  have hassoc : ∀ w a b c : List Char, w ++ [' '] ++ a ++ [' '] ++ b ++ [' '] ++ c =
      w ++ ' ' :: (a ++ ' ' :: (b ++ ' ' :: c)) := by
    simp
  exact hassoc "VERIFY".toList (hex msg) (hex sig) (hex pub)

theorem loop_verify (chip : Chip) {args : List Char}
    (htrim : trim ("VERIFY".toList ++ ' ' :: args) = "VERIFY".toList ++ ' ' :: args) :
    loop chip ("VERIFY".toList ++ ' ' :: args) = handleVerify chip args := by
  have hidx : ("VERIFY".toList ++ ' ' :: args).idxOf? ' ' = some 6 :=
    idxOf?_eq_some_append.2 ⟨_, args, rfl, by decide, rfl⟩
  have hcmd : ("VERIFY".toList ++ ' ' :: args).take 6 = "VERIFY".toList := rfl
  have hargs : ("VERIFY".toList ++ ' ' :: args).drop 7 = args := rfl
  have hlen : ("VERIFY".toList ++ ' ' :: args).length ≠ 0 := by simp
  simp only [loop, htrim, hidx, hcmd, hargs]
  rw [if_neg hlen, if_neg (by decide), if_neg (by decide), if_neg (by decide), if_neg (by decide),
    if_pos trivial]

theorem hexToBytes_toList {n : Nat} (v : Vector UInt8 n) :
    hexToBytes (hex v.toList) n = some v.toList := by
  have h := hexToBytes_hex v.toList
  rwa [Vector.length_toList] at h

/-- **The bridge verifies what the request was made of.** -/
theorem loop_verifyRequest (chip : Chip) (msg : Vector UInt8 32) (sig pub : Vector UInt8 64) :
    loop chip (verifyRequest msg.toList sig.toList pub.toList) =
      verifyReply (chip.verifySignature msg.toList sig.toList pub.toList) := by
  have hline := verifyRequest_eq msg.toList sig.toList pub.toList
  have hpub : pub.toList ≠ [] := by
    intro h
    have hlen : pub.toList.length = 64 := Vector.length_toList
    rw [h] at hlen
    cases hlen
  have htrim := trim_request ("ERIFY ".toList ++ hex msg.toList ++ " ".toList ++ hex sig.toList ++
    " ".toList) (show isSpace 'V' = false by decide) hpub
  have hcons : 'V' :: ("ERIFY ".toList ++ hex msg.toList ++ " ".toList ++ hex sig.toList ++
      " ".toList) ++ hex pub.toList = verifyRequest msg.toList sig.toList pub.toList := rfl
  rw [hcons, hline] at htrim
  rw [hline, loop_verify chip htrim, handleVerify_cut chip (not_space_of_mem_hex _)
    (not_space_of_mem_hex _), verifyParts_ok chip (hexToBytes_toList msg) (hexToBytes_toList sig)
    (hexToBytes_toList pub)]

end Hardware.Bridge

/-! ## Replies -/

namespace SerialATECC608

/-- Of a printed line without white space, stripping takes the end of the line. -/
theorem strip_println {t : List Char} (hne : t ≠ []) (h : ∀ c ∈ t, isspace c = false) :
    strip (Bridge.println t) = t := by
  have hdrop : (t ++ ['\r', '\n']).dropWhile isspace = t ++ ['\r'] ++ ['\n'] := by
    obtain ⟨c, t, rfl⟩ := List.exists_cons_of_ne_nil hne
    rw [List.cons_append, List.dropWhile_cons_of_neg (by simp [h c List.mem_cons_self])]
    simp
  rw [strip, Bridge.println, hdrop, List.rdropWhile_concat_pos _ _ _ (by decide),
    List.rdropWhile_concat_pos _ _ _ (by decide), List.rdropWhile_eq_self_iff]
  intro hl
  rw [h _ (List.getLast_mem hl)]
  exact Bool.false_ne_true

theorem strip_digits {word : List Char} (hne : word ≠ []) (h : word.any isspace = false)
    (data : Bytes) : strip (word ++ Bridge.printHex data ++ Bridge.println []) =
      word ++ Bridge.printHex data := by
  have hline : word ++ Bridge.printHex data ++ Bridge.println [] =
      Bridge.println (word ++ Bridge.printHex data) := by
    simp [Bridge.println]
  have hdigit : ∀ n < 16, isspace (Bridge.hexDigit n) = false := by decide
  rw [hline]
  refine strip_println (List.append_ne_nil_of_left_ne_nil hne _) fun c hc => ?_
  rcases List.mem_append.1 hc with hc | hc
  · exact Bool.eq_false_of_not_eq_true (List.any_eq_false.1 h c hc)
  · rw [Bridge.printHex_eq] at hc
    obtain ⟨b, -, hc⟩ := List.mem_flatMap.1 hc
    have hb : b.toNat < 256 := b.toNat_lt
    simp only [List.mem_cons, List.not_mem_nil, or_false] at hc
    rcases hc with rfl | rfl
    · exact hdigit _ (by omega)
    · exact hdigit _ (by omega)

theorem payload_digits {word : List Char} (hword : word.length = 4) (data : Bytes) :
    ATECC608.payload (word ++ Bridge.printHex data) = .ok data := by
  rw [ATECC608.payload, ← hword, List.drop_left, Bridge.fromHex_printHex]

theorem signatureOf_signReply (signature : Vector UInt8 64) :
    signatureOf (strip (Bridge.signReply (some signature))) = .ok signature.toList := by
  have hstrip : strip (Bridge.signReply (some signature)) =
      "SIG:".toList ++ Bridge.printHex signature.toList :=
    strip_digits (by decide) (by decide) _
  have hword : "SIG:".toList.isPrefixOf ("SIG:".toList ++ Bridge.printHex signature.toList) =
      true := isPrefixOf_append _ _
  have hlen : signature.toList.length = rawSigLen := Vector.length_toList
  rw [hstrip, signatureOf, if_neg (not_not.2 hword), payload_digits rfl, ok_bind,
    if_neg (not_not.2 hlen), pure_eq_ok]

theorem publicKeyOf_pubKeyReply {PK : Type} (fromEncodedPoint : Bytes → Except Err PK)
    (key : Vector UInt8 64) :
    publicKeyOf fromEncodedPoint (strip (Bridge.pubKeyReply key)) =
      ATECC608.rawPubkeyToKey fromEncodedPoint key.toList := by
  have hstrip : strip (Bridge.pubKeyReply key) = "PUB:".toList ++ Bridge.printHex key.toList :=
    strip_digits (by decide) (by decide) _
  have hword : "PUB:".toList.isPrefixOf ("PUB:".toList ++ Bridge.printHex key.toList) = true :=
    isPrefixOf_append _ _
  rw [hstrip, publicKeyOf, if_neg (not_not.2 hword), payload_digits rfl, ok_bind]

/-! ## Both directions -/

/-- **Requests and replies are read as what they were written from**, whatever the chip gives: the
message of a SIGN request, the three parts of a VERIFY request, the signature and the key of the
replies. Arguments that are not the digits of as many bytes as are needed are refused. -/
theorem commands_round_trip {PK : Type} (fromEncodedPoint : Bytes → Except Err PK) (chip : Chip) :
    (∀ msg : Vector UInt8 32, Bridge.loop chip (signRequest msg.toList) =
        Bridge.signReply (chip.createSignature msg.toList)) ∧
    (∀ (msg : Vector UInt8 32) (sig pub : Vector UInt8 64),
      Bridge.loop chip (verifyRequest msg.toList sig.toList pub.toList) =
        Bridge.verifyReply (chip.verifySignature msg.toList sig.toList pub.toList)) ∧
    (∀ signature : Vector UInt8 64,
      signatureOf (strip (Bridge.signReply (some signature))) = .ok signature.toList) ∧
    (∀ key : Vector UInt8 64, publicKeyOf fromEncodedPoint (strip (Bridge.pubKeyReply key)) =
        ATECC608.rawPubkeyToKey fromEncodedPoint key.toList) ∧
    (∀ s n, (Bridge.hexToBytes s n).isSome ↔ Bridge.HexDigits n s) ∧
    (∀ args, Bridge.handleSign chip args =
        Bridge.sendError "SIGN needs 64 hex chars (32-byte message)" ↔
          ¬ Bridge.HexDigits 32 args) ∧
    (∀ args, (∃ e, Bridge.handleVerify chip args = Bridge.sendError e) ↔
        ¬ Bridge.VerifyArgs args) :=
  ⟨Bridge.loop_signRequest chip, Bridge.loop_verifyRequest chip, signatureOf_signReply,
    publicKeyOf_pubKeyReply fromEncodedPoint, Bridge.hexToBytes_isSome_iff,
    Bridge.handleSign_refused_iff chip, Bridge.handleVerify_refused_iff chip⟩

end SerialATECC608

end BattLock
