import BattLock.Lib.BigEndian
import Mathlib.Algebra.GroupWithZero.Nat
import Mathlib.Data.List.Basic
import Mathlib.Data.List.DropRight
import Mathlib.Data.List.Forall2

/-!
# Python values

The built-in types and operations the modelled code uses, in the form the other modules share:
exceptions (`Err`, carried by `Except`), `bytes` as lists of bytes, `str` as a list of code
points. A `str` may hold lone surrogates (a JSON escape can spell one), which is why it is not
Lean's `String`; `Str.encode` fails on them, `decode` never produces them.
-/

namespace Python

/-- An exception by its class. Those raised by the modelled code itself carry their text. -/
inductive Err
  | valueError (message : String)
  | runtimeError (message : String)
  | connectionError (message : String)
  | assertionError (message : String)
  | typeError
  | attributeError
  | keyError
  | indexError
  | overflowError
  | structError
  | unicodeEncodeError
  | unicodeDecodeError
  | jsonDecodeError
  | recursionError
  | binasciiError
  | osError
  | serialException
  | invalidSignature
  | unsupportedAlgorithm
deriving DecidableEq, Repr

/-! ## Sequencing -/

section
variable {ε α β : Type}

@[simp] theorem ok_bind (a : α) (f : α → Except ε β) : (Except.ok a >>= f) = f a := rfl
@[simp] theorem error_bind (e : ε) (f : α → Except ε β) :
    (Except.error e >>= f) = .error e := rfl
@[simp] theorem pure_eq_ok (a : α) : (pure a : Except ε α) = .ok a := rfl
@[simp] theorem throw_eq_error (e : ε) : (throw e : Except ε α) = .error e := rfl

/-- A sequence returns if both parts do. -/
theorem bind_eq_ok {x : Except ε α} {f : α → Except ε β} {b : β} :
    (x >>= f) = .ok b ↔ ∃ a, x = .ok a ∧ f a = .ok b := by
  cases x <;> simp

/-- A function mapped over a list returns what it returns on the elements. -/
theorem mapM_eq_ok {f : α → Except ε β} {xs : List α} {ys : List β} :
    xs.mapM f = .ok ys ↔ List.Forall₂ (fun x y => f x = .ok y) xs ys := by
  induction xs generalizing ys with
  | nil => rw [List.mapM_nil, List.forall₂_nil_left_iff, pure_eq_ok, Except.ok.injEq, eq_comm]
  | cons x xs ih =>
    simp only [List.mapM_cons, List.forall₂_cons_left_iff, bind_eq_ok, pure_eq_ok, ih,
      Except.ok.injEq]
    constructor
    · rintro ⟨y, hy, ys, hys, rfl⟩
      exact ⟨y, ys, hy, hys, rfl⟩
    · rintro ⟨y, ys, hy, hys, rfl⟩
      exact ⟨y, hy, ys, hys, rfl⟩

/-- It returns if it does so on every element. -/
theorem exists_mapM_eq_ok {f : α → Except ε β} {xs : List α} :
    (∃ ys, xs.mapM f = .ok ys) ↔ ∀ x ∈ xs, ∃ y, f x = .ok y := by
  induction xs with
  | nil => simp
  | cons x xs ih =>
    rw [List.forall_mem_cons, ← ih]
    simp only [mapM_eq_ok, List.forall₂_cons_left_iff]
    constructor
    · rintro ⟨_, y, ys, hy, hys, rfl⟩
      exact ⟨⟨y, hy⟩, ys, hys⟩
    · rintro ⟨⟨y, hy⟩, ys, hys⟩
      exact ⟨_, y, ys, hy, hys, rfl⟩

/-- Every element on the left has its partner on the right. -/
theorem exists_mem_of_forall₂ {R : α → β → Prop} {xs : List α} {ys : List β}
    (h : List.Forall₂ R xs ys) : ∀ x ∈ xs, ∃ y ∈ ys, R x y := by
  induction h with
  | nil => simp
  | cons hxy _ ih =>
    rw [List.forall_mem_cons]
    refine ⟨⟨_, List.mem_cons_self, hxy⟩, fun x hx => ?_⟩
    obtain ⟨y, hy, hR⟩ := ih x hx
    exact ⟨y, List.mem_cons_of_mem _ hy, hR⟩

end

/-! ## Bytes -/

abbrev Bytes := List UInt8

/-- `data[i]`. -/
def item (data : Bytes) (i : Nat) : Except Err UInt8 :=
  match data[i]? with
  | some b => .ok b
  | none => .error .indexError

/-- `data[i:j]`. -/
def slice (data : Bytes) (i j : Nat) : Bytes := (data.drop i).take (j - i)

/-- `bytes([...])` of a list of integers. -/
def bytesOf : List Nat → Except Err Bytes
  | [] => .ok []
  | n :: ns =>
    if n < 256 then do
      let rest ← bytesOf ns
      return UInt8.ofNat n :: rest
    else .error (.valueError "bytes must be in range(0, 256)")

/-- `v.to_bytes(n, "big")`. -/
def toBytes (v : Int) (n : Nat) : Except Err Bytes :=
  if 0 ≤ v ∧ v < 256 ^ n then .ok (BigEndian.bytes n v.toNat) else .error .overflowError

/-- `int.from_bytes(data, "big")`. -/
def fromBytes (data : Bytes) : Nat := BigEndian.value data

theorem length_toBytes {v : Int} {n : Nat} {data : Bytes} (h : toBytes v n = .ok data) :
    data.length = n := by
  unfold toBytes at h
  split at h
  · cases h
    exact BigEndian.length_bytes _ _
  · cases h

theorem item_of_lt {data : Bytes} {i : Nat} (h : i < data.length) : item data i = .ok data[i] := by
  simp [item, h]

/-- A slice that ends within the first part. -/
theorem slice_append_left {a : Bytes} (b : Bytes) (i : Nat) {j : Nat} (h : j ≤ a.length) :
    slice (a ++ b) i j = slice a i j := by
  unfold slice
  rcases Nat.le_total i a.length with hi | hi
  · rw [List.drop_append_of_le_length hi,
      List.take_append_of_le_length (by rw [List.length_drop]; omega)]
  · have hj : j - i = 0 := by omega
    rw [hj, List.take_zero, List.take_zero]

/-- A slice that starts after the first part. -/
theorem slice_append_right {a : Bytes} (b : Bytes) {i : Nat} (j : Nat) (h : a.length ≤ i) :
    slice (a ++ b) i j = slice b (i - a.length) (j - a.length) := by
  unfold slice
  have hj : j - a.length - (i - a.length) = j - i := by omega
  rw [List.drop_append, List.drop_eq_nil_of_le h, List.nil_append, hj]

@[simp] theorem length_slice (a : Bytes) (i j : Nat) :
    (slice a i j).length = min (j - i) (a.length - i) := by
  rw [slice, List.length_take, List.length_drop]

/-- Two slices that meet. -/
theorem slice_append_slice (a : Bytes) {i j k : Nat} (hij : i ≤ j) (hjk : j ≤ k) :
    slice a i j ++ slice a j k = slice a i k := by
  unfold slice
  rw [show k - i = (j - i) + (k - j) by omega, List.take_add, List.drop_drop,
    Nat.add_sub_cancel' hij]

theorem slice_all {a : Bytes} {j : Nat} (h : a.length ≤ j) : slice a 0 j = a := by
  unfold slice
  rw [List.drop_zero, List.take_of_length_le (by omega)]

/-! ## Dictionaries

A `dict` is the list of its items in insertion order. -/

section
variable {κ ν : Type} [DecidableEq κ]

/-- `d[key] = value`: a key that is there keeps its place. -/
def setItem : List (κ × ν) → κ → ν → List (κ × ν)
  | [], key, value => [(key, value)]
  | (k, v) :: d, key, value =>
    if k = key then (k, value) :: d else (k, v) :: setItem d key value

/-- `d.get(key)`. -/
def dictGet (d : List (κ × ν)) (key : κ) : Option ν := d.lookup key

theorem dictGet_setItem (d : List (κ × ν)) (key : κ) (value : ν) :
    dictGet (setItem d key value) key = some value := by
  unfold dictGet
  induction d with
  | nil => simp [setItem]
  | cons item d ih =>
    obtain ⟨k, v⟩ := item
    unfold setItem
    split
    · rename_i h
      simp [h]
    · rename_i h
      have hne : (key == k) = false := beq_eq_false_iff_ne.2 fun he => h he.symm
      rw [List.lookup_cons, hne]
      exact ih

theorem dictGet_setItem_of_ne (d : List (κ × ν)) {key key' : κ} (value : ν) (h : key' ≠ key) :
    dictGet (setItem d key value) key' = dictGet d key' := by
  have hbeq : (key' == key) = false := beq_eq_false_iff_ne.2 h
  unfold dictGet
  induction d with
  | nil => simp [setItem, List.lookup_cons, hbeq]
  | cons item d ih =>
    obtain ⟨k, v⟩ := item
    unfold setItem
    split
    · rename_i hk
      subst hk
      rw [List.lookup_cons, List.lookup_cons, hbeq]
    · rw [List.lookup_cons, List.lookup_cons, ih]

theorem mem_keys_setItem (d : List (κ × ν)) (key key' : κ) (value : ν) :
    key' ∈ (setItem d key value).map Prod.fst ↔ key' = key ∨ key' ∈ d.map Prod.fst := by
  induction d with
  | nil => simp [setItem]
  | cons item d ih =>
    obtain ⟨k, v⟩ := item
    unfold setItem
    split
    · rename_i hk
      subst hk
      simp
    · rw [List.map_cons, List.mem_cons, ih, List.map_cons, List.mem_cons]
      tauto

/-- The keys stay different. -/
theorem nodup_keys_setItem {d : List (κ × ν)} (h : (d.map Prod.fst).Nodup) (key : κ) (value : ν) :
    ((setItem d key value).map Prod.fst).Nodup := by
  induction d with
  | nil => exact List.pairwise_singleton _ _
  | cons item d ih =>
    obtain ⟨k, v⟩ := item
    rw [List.map_cons, List.nodup_cons] at h
    obtain ⟨hk, hd⟩ := h
    unfold setItem
    split
    · exact List.nodup_cons.2 ⟨hk, hd⟩
    · rename_i hne
      rw [List.map_cons, List.nodup_cons, mem_keys_setItem, not_or]
      exact ⟨⟨hne, hk⟩, ih hd⟩

end

/-! ## Text -/

/-- A Unicode code point, surrogates included. -/
abbrev CodePoint := Fin 0x110000

instance CodePoint.neZero : NeZero 0x110000 := ⟨Nat.succ_ne_zero _⟩

/-- A `str`. -/
abbrev Str := List CodePoint

def CodePoint.ofChar (c : Char) : CodePoint := Fin.ofNat _ c.toNat

/-- Text without surrogates as a `str`. -/
def Str.ofChars (cs : List Char) : Str := cs.map CodePoint.ofChar

def Str.ofString (s : String) : Str := Str.ofChars s.toList

@[simp] theorem CodePoint.val_ofChar (c : Char) : (CodePoint.ofChar c).val = c.toNat := by
  have hlt : c.toNat < 0x110000 := by
    rcases c.valid with h | ⟨-, h⟩
    · exact Nat.lt_trans h (by decide)
    · exact h
  exact Nat.mod_eq_of_lt hlt

theorem Str.map_val_ofChars (cs : List Char) :
    (Str.ofChars cs).map Fin.val = cs.map Char.toNat := by
  simp [Str.ofChars]

/-- A valid Unicode string: one without surrogates. -/
def Str.IsUnicode (s : Str) : Prop := ∀ c ∈ s, c.val.isValidChar

theorem Str.isUnicode_ofChars (cs : List Char) : (Str.ofChars cs).IsUnicode := by
  intro c hc
  obtain ⟨a, -, rfl⟩ := List.mem_map.1 hc
  rw [CodePoint.val_ofChar]
  exact a.valid

/-- The UTF-8 bytes of one code point; a surrogate has none. -/
def CodePoint.encode (c : CodePoint) : Except Err Bytes :=
  if h : c.val.isValidChar then .ok (String.utf8EncodeChar (Char.ofNatAux c.val h))
  else .error .unicodeEncodeError

/-- `s.encode()`. -/
def Str.encode : Str → Except Err Bytes
  | [] => .ok []
  | c :: s => do
    let b ← c.encode
    let rest ← Str.encode s
    return b ++ rest

/-- `s.isascii()`. -/
def Str.isAscii (s : Str) : Bool := s.all fun c => c.val < 128

/-- An ASCII character has one byte. -/
theorem CodePoint.length_encode {c : CodePoint} {b : Bytes} (hc : c.val < 128)
    (h : c.encode = .ok b) : b.length = 1 := by
  unfold CodePoint.encode at h
  by_cases hvalid : c.val.isValidChar
  · rw [dif_pos hvalid, Except.ok.injEq] at h
    rw [← h, String.length_utf8EncodeChar, Char.utf8Size_eq_one_iff]
    exact UInt32.le_iff_toNat_le.2 (Nat.le_of_lt_succ hc)
  · rw [dif_neg hvalid] at h
    cases h

/-- The bytes of ASCII text are its code points. -/
theorem Str.encode_eq {s : Str} (hs : s.isAscii) :
    s.encode = .ok (s.map fun c => UInt8.ofNat c.val) := by
  induction s with
  | nil => rfl
  | cons c s ih =>
    simp only [Str.isAscii, List.all_cons, Bool.and_eq_true, decide_eq_true_eq] at hs
    have hvalid : c.val.isValidChar := .inl (by omega)
    have hc : c.encode = .ok [UInt8.ofNat c.val] := by
      rw [CodePoint.encode, dif_pos hvalid]
      have hval : (Char.ofNatAux c.val hvalid).val.toNat = c.val := rfl
      generalize Char.ofNatAux c.val hvalid = d at hval ⊢
      simp [String.utf8EncodeChar, hval, Nat.le_of_lt_succ hs.1]
    rw [Str.encode, hc, ih hs.2]
    rfl

/-- ASCII text has one byte for each character. -/
theorem Str.length_encode {s : Str} {data : Bytes} (hs : s.isAscii) (h : s.encode = .ok data) :
    data.length = s.length := by
  induction s generalizing data with
  | nil =>
    cases h
    rfl
  | cons c s ih =>
    simp only [Str.isAscii, List.all_cons, Bool.and_eq_true, decide_eq_true_eq] at hs
    simp only [Str.encode, bind_eq_ok, pure_eq_ok, Except.ok.injEq] at h
    obtain ⟨b, hb, rest, hrest, rfl⟩ := h
    rw [List.length_append, CodePoint.length_encode hs.1 hb, ih hs.2 hrest, List.length_cons,
      Nat.add_comm]

/-- `s.encode()` of text without surrogates. -/
def encodeChars (cs : List Char) : Bytes := cs.flatMap String.utf8EncodeChar

/-- `data.decode()` as characters. -/
def decodeChars (data : Bytes) : Except Err (List Char) :=
  match data.toByteArray.utf8Decode? with
  | some cs => .ok cs.toList
  | none => .error .unicodeDecodeError

/-- `data.decode()`. -/
def decode (data : Bytes) : Except Err Str := do
  let cs ← decodeChars data
  return Str.ofChars cs

theorem decodeChars_encodeChars (cs : List Char) : decodeChars (encodeChars cs) = .ok cs := by
  have h : (encodeChars cs).toByteArray.utf8Decode? = some cs.toArray := List.utf8Decode?_utf8Encode
  simp [decodeChars, h]

theorem encodeChars_injective {cs ds : List Char} (h : encodeChars cs = encodeChars ds) :
    cs = ds := by
  have hdecode := decodeChars_encodeChars cs
  rwa [h, decodeChars_encodeChars, Except.ok.injEq, eq_comm] at hdecode

theorem encodeChars_of_decodeChars {data : Bytes} {cs : List Char}
    (h : decodeChars data = .ok cs) : encodeChars cs = data := by
  unfold decodeChars at h
  cases hdecode : data.toByteArray.utf8Decode? with
  | none =>
    rw [hdecode] at h
    cases h
  | some ds =>
    rw [hdecode] at h
    cases h
    have hsome : data.toByteArray.utf8Decode?.isSome := by rw [hdecode]; rfl
    have hencode := ByteArray.utf8Encode_get_utf8Decode? (b := data.toByteArray) (h := hsome)
    simp only [hdecode, Option.get_some] at hencode
    exact List.toByteArray_inj.1 hencode

/-- **What is UTF-8.** -/
theorem decodeChars_iff {data : Bytes} {text : List Char} :
    decodeChars data = .ok text ↔ data = encodeChars text := by
  constructor
  · intro h
    exact (encodeChars_of_decodeChars h).symm
  · rintro rfl
    exact decodeChars_encodeChars text

theorem Str.encode_ofChars (cs : List Char) : (Str.ofChars cs).encode = .ok (encodeChars cs) := by
  induction cs with
  | nil => rfl
  | cons c cs ih =>
    have hvalid : (CodePoint.ofChar c).val.isValidChar := by
      rw [CodePoint.val_ofChar]
      exact c.valid
    have hchar : Char.ofNatAux (CodePoint.ofChar c).val hvalid = c := by
      apply Char.ext
      apply UInt32.toNat.inj
      exact CodePoint.val_ofChar c
    have hc : (CodePoint.ofChar c).encode = .ok (String.utf8EncodeChar c) := by
      rw [CodePoint.encode, dif_pos hvalid, hchar]
    show Str.encode (CodePoint.ofChar c :: Str.ofChars cs) = _
    rw [Str.encode, hc, ih]
    rfl

theorem Str.exists_chars {s : Str} {data : Bytes} (h : s.encode = .ok data) :
    ∃ cs, s = Str.ofChars cs ∧ data = encodeChars cs := by
  induction s generalizing data with
  | nil =>
    cases h
    exact ⟨[], rfl, rfl⟩
  | cons c s ih =>
    obtain ⟨b, hb, hcont⟩ := bind_eq_ok.1 h
    obtain ⟨rest, hrest, hdata⟩ := bind_eq_ok.1 hcont
    cases hdata
    obtain ⟨cs, rfl, rfl⟩ := ih hrest
    rw [CodePoint.encode] at hb
    by_cases hvalid : c.val.isValidChar
    · rw [dif_pos hvalid] at hb
      cases hb
      have hc : CodePoint.ofChar (Char.ofNatAux c.val hvalid) = c := by
        rw [Fin.ext_iff, CodePoint.val_ofChar]
        rfl
      exact ⟨Char.ofNatAux c.val hvalid :: cs, congrArg (· :: Str.ofChars cs) hc.symm, rfl⟩
    · rw [dif_neg hvalid] at hb
      cases hb

/-- The first byte of a character stands at the start of characters only. -/
theorem eq_nil_of_utf8EncodeChar {c d : Char} {a t bs : Bytes} {b : UInt8}
    (hd : String.utf8EncodeChar d = a ++ b :: t) (hc : String.utf8EncodeChar c = b :: bs) :
    a = [] := by
  have hfirst : ∀ {e : Char} {i : Nat}, (String.utf8EncodeChar e)[i]? = some b →
      (b.IsUTF8FirstByte ↔ i = 0) := by
    intro e i h
    obtain ⟨hi, rfl⟩ := List.getElem?_eq_some_iff.1 h
    exact UInt8.isUTF8FirstByte_getElem_utf8EncodeChar
  have hb : b.IsUTF8FirstByte := (hfirst (show (String.utf8EncodeChar c)[0]? = some b by
    rw [hc]; rfl)).2 rfl
  have hlen := (hfirst (show (String.utf8EncodeChar d)[a.length]? = some b by
    rw [hd]; simp)).1 hb
  exact List.length_eq_zero_iff.1 hlen

/-- **UTF-8 synchronises**: text whose bytes end those of another text ends that text. -/
theorem encodeChars_suffix {cs ds : List Char} {r : Bytes} (hne : cs ≠ [])
    (h : encodeChars ds = r ++ encodeChars cs) : ∃ ps, ds = ps ++ cs := by
  obtain ⟨c, cs, rfl⟩ := List.exists_cons_of_ne_nil hne
  obtain ⟨b, bs, hb⟩ : ∃ b bs, String.utf8EncodeChar c = b :: bs := by
    refine List.exists_cons_of_ne_nil (List.ne_nil_of_length_pos ?_)
    rw [String.length_utf8EncodeChar]
    exact c.utf8Size_pos
  induction ds generalizing r with
  | nil => simp [encodeChars, hb] at h
  | cons d ds ih =>
    have hsplit : String.utf8EncodeChar d ++ encodeChars ds = r ++ encodeChars (c :: cs) := h
    rcases List.append_eq_append_iff.1 hsplit with ⟨r', -, hrest⟩ | ⟨t, hd, hrest⟩
    · obtain ⟨ps, rfl⟩ := ih hrest
      exact ⟨d :: ps, rfl⟩
    · have hbytes : encodeChars (c :: cs) = b :: (bs ++ encodeChars cs) := by
        rw [encodeChars, List.flatMap_cons, hb]
        rfl
      cases t with
      | nil =>
        have hend : encodeChars ds = [] ++ encodeChars (c :: cs) := hrest.symm
        obtain ⟨ps, rfl⟩ := ih hend
        exact ⟨d :: ps, rfl⟩
      | cons t ts =>
        -- it starts within the character `d`, so with it
        rw [hbytes, List.cons_append] at hrest
        rw [← (List.cons.inj hrest).1] at hd
        obtain rfl := eq_nil_of_utf8EncodeChar hd hb
        exact ⟨[], encodeChars_injective h⟩

/-- What `decode` accepts encodes back to the same bytes. -/
theorem encode_of_decode {data : Bytes} {s : Str} (h : decode data = .ok s) :
    s.encode = .ok data := by
  obtain ⟨cs, hcs, hs⟩ := bind_eq_ok.1 h
  cases hs
  rw [Str.encode_ofChars, encodeChars_of_decodeChars hcs]

/-- Only strings without surrogates encode. -/
theorem Str.isUnicode_of_encode {s : Str} {data : Bytes} (h : s.encode = .ok data) :
    s.IsUnicode := by
  induction s generalizing data with
  | nil => exact fun c hc => absurd hc List.not_mem_nil
  | cons c s ih =>
    obtain ⟨b, hb, hrest⟩ := bind_eq_ok.1 h
    obtain ⟨rest, hrest, -⟩ := bind_eq_ok.1 hrest
    refine List.forall_mem_cons.2 ⟨?_, ih hrest⟩
    by_contra hc
    rw [CodePoint.encode, dif_neg hc] at hb
    cases hb

theorem Str.exists_encode {s : Str} (h : s.IsUnicode) : ∃ data, s.encode = .ok data := by
  induction s with
  | nil => exact ⟨[], rfl⟩
  | cons c s ih =>
    obtain ⟨hc, hs⟩ := List.forall_mem_cons.1 h
    obtain ⟨rest, hrest⟩ := ih hs
    refine ⟨String.utf8EncodeChar (Char.ofNatAux c.val hc) ++ rest, ?_⟩
    rw [Str.encode, CodePoint.encode, dif_pos hc, hrest]
    rfl

/-- `c.isspace()`. -/
def isspace (c : Char) : Bool :=
  let n := c.toNat
  (9 ≤ n && n ≤ 13) || (28 ≤ n && n ≤ 32) || n == 0x85 || n == 0xA0 || n == 0x1680 ||
    (0x2000 ≤ n && n ≤ 0x200A) || n == 0x2028 || n == 0x2029 || n == 0x202F || n == 0x205F ||
    n == 0x3000

/-- `s.startswith(word)` of a text that begins with the word. -/
theorem isPrefixOf_append (word t : List Char) : word.isPrefixOf (word ++ t) = true := by
  rw [List.isPrefixOf_iff_prefix]
  exact List.prefix_append _ _

/-- `s.strip()`. -/
def strip (cs : List Char) : List Char := (cs.dropWhile isspace).rdropWhile isspace

/-- `str(n)`. -/
def strInt (n : Int) : List Char := (toString n).toList

theorem strInt_ne_nil (n : Int) : strInt n ≠ [] := by
  cases n with
  | ofNat n =>
    have h : strInt (Int.ofNat n) = n.repr.toList := rfl
    rw [h, Nat.toList_repr]
    exact Nat.toDigits_ne_nil
  | negSucc n =>
    have h : strInt (Int.negSucc n) = ("-" ++ (n + 1).repr).toList := rfl
    simp [h]

/-- Different numbers are written differently. -/
theorem strInt_injective {m n : Int} (h : strInt m = strInt n) : m = n := by
  have hnat : ∀ k : Nat, strInt (Int.ofNat k) = Nat.toDigits 10 k := fun k => Nat.toList_repr
  have hneg : ∀ k : Nat, strInt (Int.negSucc k) = '-' :: Nat.toDigits 10 (k + 1) := by
    intro k
    have hk : strInt (Int.negSucc k) = ("-" ++ (k + 1).repr).toList := rfl
    rw [hk, String.toList_append, Nat.toList_repr]
    rfl
  have hdigits : ∀ {j k : Nat}, Nat.toDigits 10 j = Nat.toDigits 10 k → j = k := by
    intro j k hjk
    rw [← Nat.ofDigitChars_toDigits (b := 10) (n := j) (by decide) (by decide), hjk,
      Nat.ofDigitChars_toDigits (by decide) (by decide)]
  have hdash : ∀ k : Nat, '-' ∉ Nat.toDigits 10 k := fun k hk =>
    absurd (Nat.isDigit_of_mem_toDigits (by decide) (by decide) hk) (by decide)
  cases m with
  | ofNat m =>
    cases n with
    | ofNat n => rw [hdigits ((hnat m).symm.trans (h.trans (hnat n)))]
    | negSucc n =>
      refine absurd ?_ (hdash m)
      rw [← hnat m, h, hneg n]
      exact List.mem_cons_self
  | negSucc m =>
    cases n with
    | ofNat n =>
      refine absurd ?_ (hdash n)
      rw [← hnat n, ← h, hneg m]
      exact List.mem_cons_self
    | negSucc n =>
      rw [hneg m, hneg n, List.cons.injEq] at h
      have hsucc := hdigits h.2
      rw [Int.negSucc.injEq]
      omega

end Python
