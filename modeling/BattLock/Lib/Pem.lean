import BattLock.Lib.Base64

/-!
# PEM

The textual encoding of binary data: base64 in lines of 64 characters between two boundary lines.
`p256PublicKey` is the encoding of an elliptic-curve public key on P-256 as a
`SubjectPublicKeyInfo`, of which all but the point is constant.
-/

namespace Python.Pem

/-- ASCII text as bytes. -/
def ascii (cs : List Char) : Bytes := cs.map fun c => .ofNat c.toNat

/-- The text in lines of 64 characters. -/
def wrap (text : Bytes) : Bytes :=
  (List.range ((text.length + 63) / 64)).flatMap fun i => (text.drop (64 * i)).take 64 ++ [0x0A]

def encode (label : List Char) (der : Bytes) : Bytes :=
  ascii ("-----BEGIN ".toList ++ label ++ "-----\n".toList) ++
    wrap (ascii (Base64.b64encode der)) ++ ascii ("-----END ".toList ++ label ++ "-----\n".toList)

/-- The DER bytes before the point: an `id-ecPublicKey` on `prime256v1`, in a bit string. -/
def p256Header : Bytes :=
  [0x30, 0x59, 0x30, 0x13, 0x06, 0x07, 0x2A, 0x86, 0x48, 0xCE, 0x3D, 0x02, 0x01, 0x06, 0x08, 0x2A,
    0x86, 0x48, 0xCE, 0x3D, 0x03, 0x01, 0x07, 0x03, 0x42, 0x00]

/-- `public_bytes(PEM, SubjectPublicKeyInfo)` of a key, given its uncompressed point. -/
def p256PublicKey (point : Vector UInt8 65) : Bytes :=
  encode "PUBLIC KEY".toList (p256Header ++ point.toList)

/-! ## Lengths -/

theorem length_b64encode (data : Bytes) :
    (Base64.b64encode data).length = 4 * ((data.length + 2) / 3) := by
  induction data using Base64.b64encode.induct with
  | case1 => rfl
  | case2 a => simp [Base64.b64encode]
  | case3 a b => simp [Base64.b64encode]
  | case4 a b c rest ih =>
    simp only [Base64.b64encode, List.length_cons, ih]
    omega

/-- A line end for each line. -/
theorem length_wrap (text : Bytes) :
    (wrap text).length = text.length + (text.length + 63) / 64 := by
  have hlines (n : Nat) : ((List.range n).flatMap fun i =>
      (text.drop (64 * i)).take 64 ++ [0x0A]).length = min (64 * n) text.length + n := by
    induction n with
    | zero => simp
    | succ n ih =>
      rw [List.range_succ, List.flatMap_append, List.length_append, ih]
      simp only [List.flatMap_singleton, List.length_append, List.length_take, List.length_drop,
        List.length_singleton]
      omega
  rw [wrap, hlines]
  omega

theorem length_p256PublicKey (point : Vector UInt8 65) : (p256PublicKey point).length = 178 := by
  have hder : (p256Header ++ point.toList).length = 91 := by
    rw [List.length_append, Vector.length_toList]
    rfl
  simp only [p256PublicKey, encode, List.length_append, length_wrap, ascii, List.length_map,
    length_b64encode, hder]
  decide

end Python.Pem
