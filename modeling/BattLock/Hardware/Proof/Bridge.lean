import BattLock.Hardware.Bridge

/-!
# What the bridge reads and prints

The bridge reads the lower-case digits of `bytes.hex` (`hexToBytes_hex`) and prints upper-case
ones, which `bytes.fromhex` reads (`fromHex_printHex`); of digits that were cut off it reads no
other bytes (`fromHex_take_printHex`). Every reply is one line (`oneLine_loop`), the one to a SIGN
request carries the signature of its message (`loop_sign`, `handleSign_hex`). It accepts the digits
of exactly as many bytes as it needs (`hexToBytes_isSome_iff`) and refuses every other argument
(`handleSign_refused_iff`, `handleVerify_refused_iff`).
-/

namespace BattLock.Hardware.Bridge

open Python

/-! ## Reading -/

theorem hexNibble_hexDigit {n : Nat} (h : n < 16) :
    hexNibble (Json.hexDigit n) = .ofNat n ∧ UInt8.ofNat n ≠ 0xFF := by
  revert n
  decide

theorem halves (b : UInt8) :
    UInt8.ofNat (b.toNat / 16) <<< 4 ||| UInt8.ofNat (b.toNat % 16) = b := by
  have hall : ∀ n < 256, UInt8.ofNat (n / 16) <<< 4 ||| UInt8.ofNat (n % 16) = UInt8.ofNat n := by
    decide +kernel
  have hb := hall b.toNat b.toNat_lt
  rwa [UInt8.ofNat_toNat] at hb

theorem hexPairs_hex (data : Bytes) : hexPairs (hex data) = some data := by
  induction data with
  | nil => rfl
  | cons b data ih =>
    have hb : b.toNat < 256 := b.toNat_lt
    obtain ⟨hhi, hhi'⟩ := hexNibble_hexDigit (show b.toNat / 16 < 16 by omega)
    obtain ⟨hlo, hlo'⟩ := hexNibble_hexDigit (show b.toNat % 16 < 16 by omega)
    have hcons : hex (b :: data) =
        Json.hexDigit (b.toNat / 16) :: Json.hexDigit (b.toNat % 16) :: hex data := rfl
    rw [hcons, hexPairs, hhi, hlo, if_neg (not_or.2 ⟨hhi', hlo'⟩), ih, Option.map_some, halves]

@[simp] theorem length_hex (data : Bytes) : (hex data).length = data.length * 2 := by
  simp [hex, List.length_flatMap]

theorem hexToBytes_hex (data : Bytes) : hexToBytes (hex data) data.length = some data := by
  rw [hexToBytes, if_neg (not_not.2 (length_hex data)), hexPairs_hex]

/-! ## Printing -/

theorem hexDigit_spec {n : Nat} (h : n < 16) :
    Json.hexValue? (hexDigit n) = some n ∧ isSpace (hexDigit n) = false ∧
      (hexDigit n).toNat < 128 := by
  revert n
  decide

theorem printHex_eq (data : Bytes) :
    printHex data = data.flatMap fun b => [hexDigit (b.toNat / 16), hexDigit (b.toNat % 16)] := by
  refine List.flatMap_congr fun b _ => ?_
  unfold printByte
  split
  · rename_i hb
    have hlt : b.toNat < 16 := UInt8.lt_iff_toNat_lt.1 hb
    rw [Nat.div_eq_of_lt hlt, Nat.mod_eq_of_lt hlt]
    rfl
  · rfl

theorem printHex_cons (b : UInt8) (data : Bytes) : printHex (b :: data) =
    hexDigit (b.toNat / 16) :: hexDigit (b.toNat % 16) :: printHex data := by
  rw [printHex_eq, printHex_eq]
  rfl

theorem fromHex_printHex (data : Bytes) : fromHex (printHex data) = .ok data := by
  rw [printHex_eq]
  exact fromHex_digits (fun _ hn => hexDigit_spec hn) data

/-- The bytes that can be read of the first `k` digits are the first bytes. -/
theorem fromHexFrom_take_printHex (data : Bytes) {raw : Bytes} : ∀ (k i : Nat),
    fromHexFrom i ((printHex data).take k) = .ok raw → raw = data.take (k / 2) := by
  induction data generalizing raw with
  | nil =>
    intro k i h
    rw [show printHex [] = [] from rfl, List.take_nil] at h
    cases h
    simp
  | cons b data ih =>
    intro k i h
    have hb : b.toNat < 256 := b.toNat_lt
    obtain ⟨hhi, hspace, -⟩ := hexDigit_spec (show b.toNat / 16 < 16 by omega)
    obtain ⟨hlo, -⟩ := hexDigit_spec (show b.toNat % 16 < 16 by omega)
    rw [printHex_cons] at h
    match k with
    | 0 =>
      cases h
      rfl
    | 1 =>
      -- half a byte
      simp [fromHexFrom, hspace, hhi] at h
    | k + 2 =>
      have hbyte : UInt8.ofNat (16 * (b.toNat / 16) + b.toNat % 16) = b := by
        rw [Nat.div_add_mod, UInt8.ofNat_toNat]
      simp only [List.take_succ_cons, fromHexFrom, hspace, hhi, hlo, hbyte, Bool.false_eq_true,
        if_false, bind_eq_ok, pure_eq_ok, Except.ok.injEq] at h
      obtain ⟨rest, hrest, rfl⟩ := h
      rw [ih k (i + 2) hrest, show (k + 2) / 2 = k / 2 + 1 by omega, List.take_succ_cons]

theorem fromHex_take_printHex {data raw : Bytes} {k : Nat}
    (h : fromHex ((printHex data).take k) = .ok raw) (hlen : raw.length = data.length) :
    raw = data := by
  unfold fromHex at h
  split at h
  · cases h
  · have hraw := fromHexFrom_take_printHex data k 0 h
    rw [hraw, List.length_take] at hlen
    rw [hraw, List.take_of_length_le (by omega)]

/-! ## Replies -/

/-- A text is empty, or one line with its newline. -/
def OneLine (text : List Char) : Prop := text = [] ∨ ∃ t, '\n' ∉ t ∧ text = t ++ ['\n']

theorem oneLine_append_println {a text : List Char} (h : '\n' ∉ a ++ text) :
    OneLine (a ++ println text) := by
  refine .inr ⟨a ++ text ++ ['\r'], ?_, by simp [println]⟩
  rw [List.mem_append, not_or]
  exact ⟨h, by decide⟩

theorem oneLine_println {text : List Char} (h : '\n' ∉ text) : OneLine (println text) := by
  have hline : OneLine ([] ++ println text) := oneLine_append_println (by simpa using h)
  exact hline

theorem oneLine_sendError {msg : String} (h : '\n' ∉ msg.toList) : OneLine (sendError msg) := by
  refine oneLine_append_println ?_
  rw [List.mem_append, not_or]
  exact ⟨by decide, h⟩

theorem newline_not_mem_printHex (data : Bytes) : '\n' ∉ printHex data := by
  rw [printHex_eq]
  intro h
  obtain ⟨b, -, h⟩ := List.mem_flatMap.1 h
  have hb : b.toNat < 256 := b.toNat_lt
  have hdigit : ∀ n < 16, '\n' ≠ hexDigit n := by decide
  simp only [List.mem_cons, List.not_mem_nil, or_false] at h
  rcases h with h | h
  · exact hdigit _ (by omega) h
  · exact hdigit _ (by omega) h

theorem oneLine_printHex {word : List Char} (h : '\n' ∉ word) (data : Bytes) :
    OneLine (word ++ printHex data ++ println []) := by
  refine oneLine_append_println ?_
  rw [List.append_nil, List.mem_append, not_or]
  exact ⟨h, newline_not_mem_printHex data⟩

theorem oneLine_handleSign (chip : Chip) (hexMsg : List Char) :
    OneLine (handleSign chip hexMsg) := by
  unfold handleSign
  split
  · exact oneLine_sendError (by decide)
  · split
    · exact oneLine_sendError (by decide)
    · exact oneLine_printHex (by decide) _

theorem oneLine_handlePubKey (chip : Chip) : OneLine (handlePubKey chip) := by
  unfold handlePubKey
  split
  · exact oneLine_sendError (by decide)
  · exact oneLine_printHex (by decide) _

theorem oneLine_handleGenKey (chip : Chip) : OneLine (handleGenKey chip) := by
  unfold handleGenKey
  split
  · exact oneLine_println (by decide)
  · exact oneLine_sendError (by decide)

theorem oneLine_handleVerify (chip : Chip) (args : List Char) :
    OneLine (handleVerify chip args) := by
  unfold handleVerify
  dsimp only
  split
  · exact oneLine_sendError (by decide)
  · split
    · exact oneLine_sendError (by decide)
    · split
      · refine oneLine_append_println ?_
        split <;> decide
      · exact oneLine_sendError (by decide)

/-- **Every reply is one line.** -/
theorem oneLine_loop (chip : Chip) (line : List Char) : OneLine (loop chip line) := by
  unfold loop
  dsimp only
  split_ifs
  · exact .inl rfl
  · exact oneLine_println (by decide)
  · exact oneLine_handleSign chip _
  · exact oneLine_handlePubKey chip
  · exact oneLine_handleGenKey chip
  · exact oneLine_handleVerify chip _
  · exact oneLine_sendError (by decide)

/-! ## The SIGN request -/

theorem not_isSpace_of_mem_hex {data : Bytes} : ∀ c ∈ hex data, isSpace c = false := by
  intro c hc
  obtain ⟨b, -, hc⟩ := List.mem_flatMap.1 hc
  have hb : b.toNat < 256 := b.toNat_lt
  simp only [List.mem_cons, List.not_mem_nil, or_false] at hc
  rcases hc with rfl | rfl
  · exact (Python.hexDigit_spec (by omega)).2.1
  · exact (Python.hexDigit_spec (by omega)).2.1

theorem trim_request (cmd : List Char) {c : Char} (hc : isSpace c = false) {data : Bytes}
    (hne : data ≠ []) : trim (c :: cmd ++ hex data) = c :: cmd ++ hex data := by
  have hdrop : (c :: (cmd ++ hex data)).dropWhile isSpace = c :: (cmd ++ hex data) :=
    List.dropWhile_cons_of_neg (by simp [hc])
  rw [trim, List.cons_append, hdrop, List.rdropWhile_eq_self_iff]
  intro hl
  have hhex : hex data ≠ [] := by
    intro h
    have hlen := length_hex data
    have hpos := List.length_pos_of_ne_nil hne
    rw [h, List.length_nil] at hlen
    omega
  rw [List.getLast_congr hl (List.append_ne_nil_of_right_ne_nil (c :: cmd) hhex) rfl,
    List.getLast_append_of_ne_nil _ hhex, not_isSpace_of_mem_hex _ (List.getLast_mem hhex)]
  exact Bool.false_ne_true

/-- **The bridge signs the message of the request.** -/
theorem loop_sign (chip : Chip) {data : Bytes} (hdata : data.length = 32) :
    loop chip ("SIGN ".toList ++ hex data) = handleSign chip (hex data) := by
  have hne : data ≠ [] := by
    rintro rfl
    cases hdata
  have htrim : trim ("SIGN ".toList ++ hex data) = "SIGN ".toList ++ hex data :=
    trim_request "IGN ".toList (by decide) hne
  have hidx : ("SIGN ".toList ++ hex data).idxOf? ' ' = some 4 := by
    simp [List.idxOf?_cons]
  have hcmd : ("SIGN ".toList ++ hex data).take 4 = "SIGN".toList := rfl
  have hargs : ("SIGN ".toList ++ hex data).drop 5 = hex data := rfl
  have hlen : ("SIGN ".toList ++ hex data).length ≠ 0 := by simp
  simp only [loop, htrim, hidx, hcmd, hargs]
  rw [if_neg hlen, if_neg (by decide), if_pos trivial]

theorem handleSign_hex (chip : Chip) {data : Bytes} (hdata : data.length = 32) :
    (chip.createSignature data = none ∧
      handleSign chip (hex data) = sendError "createSignature failed") ∨
    ∃ signature, chip.createSignature data = some signature ∧
      handleSign chip (hex data) = "SIG:".toList ++ printHex signature.toList ++ println [] := by
  have hbytes : hexToBytes (hex data) 32 = some data := by
    rw [← hdata]
    exact hexToBytes_hex data
  cases hsignature : chip.createSignature data with
  | none => exact .inl ⟨rfl, by simp only [handleSign, hbytes, hsignature]⟩
  | some signature =>
    exact .inr ⟨signature, rfl, by simp only [handleSign, hbytes, hsignature]⟩

/-! ## Malformed arguments -/

/-- A hexadecimal digit of either case. -/
def IsHexDigit (c : Char) : Prop :=
  ('0' ≤ c ∧ c ≤ '9') ∨ ('a' ≤ c ∧ c ≤ 'f') ∨ ('A' ≤ c ∧ c ≤ 'F')

/-- The digits of `n` bytes. -/
def HexDigits (n : Nat) (s : List Char) : Prop := s.length = 2 * n ∧ ∀ c ∈ s, IsHexDigit c

theorem ofNat_ne_sentinel {n : Nat} (h : n < 0xFF) : UInt8.ofNat n ≠ 0xFF := by
  intro heq
  have hn := congrArg UInt8.toNat heq
  rw [UInt8.toNat_ofNat_of_lt' (Nat.lt_succ_of_lt h)] at hn
  exact Nat.ne_of_lt h hn

/-- The sentinel marks exactly the characters that are no digits. -/
theorem hexNibble_ne_iff (c : Char) : hexNibble c ≠ 0xFF ↔ IsHexDigit c := by
  have hle : ∀ a b : Char, a ≤ b ↔ a.toNat ≤ b.toNat := fun a b => UInt32.le_iff_toNat_le
  unfold hexNibble IsHexDigit
  split
  · rename_i h
    refine iff_of_true (ofNat_ne_sentinel ?_) (.inl h)
    have h9 := (hle _ _).1 h.2
    simp at h9
    omega
  · rename_i h0
    split
    · rename_i h
      refine iff_of_true (ofNat_ne_sentinel ?_) (.inr (.inl h))
      have hf := (hle _ _).1 h.2
      simp at hf
      omega
    · rename_i ha
      split
      · rename_i h
        refine iff_of_true (ofNat_ne_sentinel ?_) (.inr (.inr h))
        have hf := (hle _ _).1 h.2
        simp at hf
        omega
      · rename_i hA
        exact iff_of_false (fun h => h rfl) (fun h => h.elim h0 fun h => h.elim ha hA)

theorem hexPairs_isSome_iff (s : List Char) :
    (hexPairs s).isSome ↔ 2 ∣ s.length ∧ ∀ c ∈ s, IsHexDigit c := by
  fun_induction hexPairs s with
  | case1 => simp
  | case2 c => simp
  | case3 a b s hi lo h =>
    have hnot : ¬ (IsHexDigit a ∧ IsHexDigit b) := by
      rw [← hexNibble_ne_iff, ← hexNibble_ne_iff]
      tauto
    refine iff_of_false (by simp) fun hall => hnot ⟨hall.2 a (by simp), hall.2 b (by simp)⟩
  | case4 a b s hi lo h ih =>
    have hdigits : IsHexDigit a ∧ IsHexDigit b := by
      rw [← hexNibble_ne_iff, ← hexNibble_ne_iff]
      tauto
    rw [Option.isSome_map, ih]
    simp only [List.length_cons, List.forall_mem_cons, hdigits, true_and]
    exact and_congr_left' (by omega)

/-- **What is accepted**: the digits of as many bytes as are asked for, and nothing else. -/
theorem hexToBytes_isSome_iff (s : List Char) (n : Nat) :
    (hexToBytes s n).isSome ↔ HexDigits n s := by
  unfold hexToBytes HexDigits
  split
  · rename_i hlen
    exact iff_of_false (by simp) fun h => hlen (by omega)
  · rename_i hlen
    rw [hexPairs_isSome_iff]
    exact and_congr_left' (by omega)

theorem handleSign_refused_iff (chip : Chip) (args : List Char) :
    handleSign chip args = sendError "SIGN needs 64 hex chars (32-byte message)" ↔
      ¬ HexDigits 32 args := by
  rw [← hexToBytes_isSome_iff]
  unfold handleSign
  cases hexToBytes args 32 with
  | none => simp
  | some msg =>
    simp only [Option.isSome_some, not_true_eq_false, iff_false]
    split
    · decide
    · intro h
      exact absurd (List.cons.inj h).1 (by decide)

/-! ## The VERIFY request -/

theorem idxOf?_eq_some_append {l : List Char} {c : Char} {i : Nat} :
    l.idxOf? c = some i ↔ ∃ a b, l = a ++ c :: b ∧ c ∉ a ∧ a.length = i := by
  induction l generalizing i with
  | nil => simp
  | cons d l ih =>
    rw [List.idxOf?_cons]
    by_cases hd : d = c
    · subst hd
      simp only [BEq.rfl, if_true, Option.some.injEq]
      constructor
      · rintro rfl
        exact ⟨[], l, rfl, by simp, rfl⟩
      · rintro ⟨a, b, h, ha, rfl⟩
        cases a with
        | nil => rfl
        | cons e a =>
          rw [List.cons_append, List.cons.injEq] at h
          exact absurd (by simp [h.1]) ha
    · rw [if_neg (by simpa using hd), Option.map_eq_some_iff]
      constructor
      · rintro ⟨j, hj, rfl⟩
        obtain ⟨a, b, rfl, ha, rfl⟩ := ih.1 hj
        exact ⟨d :: a, b, rfl, by simp [ha, Ne.symm hd], rfl⟩
      · rintro ⟨a, b, h, ha, rfl⟩
        cases a with
        | nil => exact absurd (List.cons.inj h).1 hd
        | cons e a =>
          obtain ⟨rfl, rfl⟩ := List.cons.inj h
          exact ⟨a.length, ih.2 ⟨a, b, rfl, fun hmem => ha (List.mem_cons_of_mem _ hmem), rfl⟩, rfl⟩

theorem not_space_of_hexDigits {n : Nat} {s : List Char} (h : HexDigits n s) : ' ' ∉ s := by
  intro hs
  have hspace : ¬ IsHexDigit ' ' := by
    unfold IsHexDigit
    decide
  exact hspace (h.2 ' ' hs)

/-- The arguments of a VERIFY request: the digits of three byte strings, separated by spaces. -/
def VerifyArgs (args : List Char) : Prop :=
  ∃ a b c, HexDigits 32 a ∧ HexDigits 64 b ∧ HexDigits 64 c ∧ args = a ++ ' ' :: (b ++ ' ' :: c)

/-- The reply to a VERIFY request that can be read. -/
def verifyReply (ok : Bool) : List Char := "VERIFY:".toList ++ println [if ok then '1' else '0']

/-- The reply to the three parts of a VERIFY request. -/
def verifyParts (chip : Chip) (msgHex sigHex pubHex : List Char) : List Char :=
  match hexToBytes msgHex 32, hexToBytes sigHex 64, hexToBytes pubHex 64 with
  | some msg, some sig, some pub => verifyReply (chip.verifySignature msg sig pub)
  | _, _, _ => sendError "bad hex lengths"

section
variable (chip : Chip) {a b : List Char} (ha : ' ' ∉ a) (hb : ' ' ∉ b) (c : List Char)
include ha hb

theorem handleVerify_cut :
    handleVerify chip (a ++ ' ' :: (b ++ ' ' :: c)) = verifyParts chip a b c := by
  have hsp1 : (a ++ ' ' :: (b ++ ' ' :: c)).idxOf? ' ' = some a.length :=
    idxOf?_eq_some_append.2 ⟨a, _, rfl, ha, rfl⟩
  have hsp2 : (b ++ ' ' :: c).idxOf? ' ' = some b.length :=
    idxOf?_eq_some_append.2 ⟨b, c, rfl, hb, rfl⟩
  have hrest : (a ++ ' ' :: (b ++ ' ' :: c)).drop (a.length + 1) = b ++ ' ' :: c := by
    rw [← List.drop_drop, List.drop_left, List.drop_one, List.tail_cons]
  have hmsg : (a ++ ' ' :: (b ++ ' ' :: c)).take a.length = a := List.take_left
  have hsig : ((a ++ ' ' :: (b ++ ' ' :: c)).take (a.length + 1 + b.length)).drop
      (a.length + 1) = b := by
    rw [List.drop_take, hrest, Nat.add_sub_cancel_left, List.take_left]
  have hpub : (a ++ ' ' :: (b ++ ' ' :: c)).drop (a.length + 1 + b.length + 1) = c := by
    rw [Nat.add_assoc (a.length + 1), ← List.drop_drop, hrest, ← List.drop_drop, List.drop_left,
      List.drop_one, List.tail_cons]
  simp only [handleVerify, hsp1, hrest, hsp2, hmsg, hsig, hpub]
  rfl

end

theorem verifyParts_ok (chip : Chip) {a b c : List Char} {msg sig pub : Bytes}
    (hmsg : hexToBytes a 32 = some msg) (hsig : hexToBytes b 64 = some sig)
    (hpub : hexToBytes c 64 = some pub) :
    verifyParts chip a b c = verifyReply (chip.verifySignature msg sig pub) := by
  rw [verifyParts, hmsg, hsig, hpub]

theorem verifyParts_bad (chip : Chip) {a b c : List Char}
    (h : ¬ (HexDigits 32 a ∧ HexDigits 64 b ∧ HexDigits 64 c)) :
    verifyParts chip a b c = sendError "bad hex lengths" := by
  simp only [← hexToBytes_isSome_iff] at h
  unfold verifyParts
  split
  · rename_i hmsg hsig hpub
    exact absurd ⟨by rw [hmsg]; rfl, by rw [hsig]; rfl, by rw [hpub]; rfl⟩ h
  · rfl

theorem verifyReply_ne_sendError (ok : Bool) (e : String) : verifyReply ok ≠ sendError e := by
  intro h
  exact absurd (List.cons.inj h).1 (by decide)

theorem handleVerify_refused_iff (chip : Chip) (args : List Char) :
    (∃ e, handleVerify chip args = sendError e) ↔ ¬ VerifyArgs args := by
  constructor
  · rintro ⟨e, he⟩ ⟨a, b, c, ha, hb, hc, rfl⟩
    obtain ⟨msg, hmsg⟩ := Option.isSome_iff_exists.1 ((hexToBytes_isSome_iff a 32).2 ha)
    obtain ⟨sig, hsig⟩ := Option.isSome_iff_exists.1 ((hexToBytes_isSome_iff b 64).2 hb)
    obtain ⟨pub, hpub⟩ := Option.isSome_iff_exists.1 ((hexToBytes_isSome_iff c 64).2 hc)
    rw [handleVerify_cut chip (not_space_of_hexDigits ha) (not_space_of_hexDigits hb),
      verifyParts_ok chip hmsg hsig hpub] at he
    exact verifyReply_ne_sendError _ e he
  · intro h
    cases hsp1 : args.idxOf? ' ' with
    | none =>
      exact ⟨"VERIFY needs: <msg64hex> <sig128hex> <pub128hex>", by rw [handleVerify, hsp1]⟩
    | some sp1 =>
      obtain ⟨a, rest, rfl, ha, rfl⟩ := idxOf?_eq_some_append.1 hsp1
      have hrest : (a ++ ' ' :: rest).drop (a.length + 1) = rest := by
        rw [← List.drop_drop, List.drop_left, List.drop_one, List.tail_cons]
      cases hsp2 : rest.idxOf? ' ' with
      | none =>
        exact ⟨"VERIFY needs: <msg64hex> <sig128hex> <pub128hex>",
          by simp only [handleVerify, hsp1, hrest, hsp2]⟩
      | some sp2 =>
        obtain ⟨b, c, rfl, hb, rfl⟩ := idxOf?_eq_some_append.1 hsp2
        refine ⟨_, (handleVerify_cut chip ha hb c).trans (verifyParts_bad chip ?_)⟩
        exact fun hdigits => h ⟨a, b, c, hdigits.1, hdigits.2.1, hdigits.2.2, rfl⟩

end BattLock.Hardware.Bridge
