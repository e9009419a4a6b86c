import TrialLedger.Value

/-! The encodings of the few types that contracts exchange. At top level a value is
its shortest form; nested in another one it is preceded by its length in four bytes. -/

namespace TrialLedger.Codec

inductive Error where
  | negative (v : Int)
  | unfit (v : Int) (signed : Bool) (width : Int)
  | noWidth
  | shortPrefix
  | shortValue
  deriving DecidableEq, Repr

def Error.message : Error → String
  | negative v => "negative value " ++ toString v ++ " for unsigned encoding"
  | unfit v signed width =>
    toString v ++ " does not fit in " ++ (if signed then "i" else "u") ++ toString (8 * width)
  | noWidth => "negative shift count"
  | shortPrefix => "input too short for length prefix"
  | shortValue => "input too short for nested value"

/-! ### Numbers at top level -/

/-- Big-endian without leading zeros; zero is empty. -/
def encodeNat (n : Nat) : Bytes := Bytes.ofNat (Bytes.width n) n

def encodeUnsigned (v : Int) : Except Error Bytes :=
  if v < 0 then .error (.negative v) else .ok (encodeNat v.toNat)

/-- The shortest two's complement form; zero is empty. -/
def encodeSigned (v : Int) : Bytes := if v = 0 then [] else Bytes.ofInt (Bytes.signedWidth v) v

/-- A number as it is exchanged: signed only when negative. -/
def encodeInt (v : Int) : Bytes := if v < 0 then encodeSigned v else encodeNat v.toNat

def decodeUnsigned (b : Bytes) : Nat := b.toNat

def decodeSigned (b : Bytes) : Int := b.toInt

/-! ### Numbers of fixed width -/

/-- There is no width below zero, and a number below zero fits into none. -/
def encodeFixedUnsigned (width : Int) (v : Int) : Except Error Bytes :=
  if v < 0 then .error (.unfit v false width)
  else if width < 0 then .error .noWidth
  else if 256 ^ width.toNat ≤ v then .error (.unfit v false width)
  else .ok (Bytes.ofNat width.toNat v.toNat)

/-- A signed number takes a byte at least, for its sign. -/
def encodeFixedSigned (width : Int) (v : Int) : Except Error Bytes :=
  if width ≤ 0 then .error .noWidth
  else if 2 * v < -256 ^ width.toNat ∨ 256 ^ width.toNat ≤ 2 * v then .error (.unfit v true width)
  else .ok (Bytes.ofInt width.toNat v)

/-! ### Nested values -/

/-- Bytes behind their length in four bytes. There are to be fewer than `2 ^ 32` of them. -/
def encodeNested (b : Bytes) : Bytes := Bytes.ofNat 4 b.length ++ b

def encodeNestedUnsigned (v : Int) : Except Error Bytes := (encodeUnsigned v).map encodeNested

/-- The value at an offset and the offset after it. -/
def decodeNested (b : Bytes) (offset : Nat) : Except Error (Bytes × Nat) :=
  if b.length < offset + 4 then .error .shortPrefix
  else
    let length := Bytes.toNat ((b.drop offset).take 4)
    if b.length < offset + 4 + length then .error .shortValue
    else .ok ((b.drop (offset + 4)).take length, offset + 4 + length)

theorem decodeNested_bounds {b v : Bytes} {offset next : Nat} (h : decodeNested b offset = .ok (v, next)) :
    offset + 4 ≤ next ∧ next ≤ b.length := by
  simp only [decodeNested] at h
  split at h
  · simp at h
  · split at h
    · simp at h
    · simp only [Except.ok.injEq, Prod.mk.injEq] at h
      omega

/-- The value at any offset. Before the start of the bytes positions are counted from their end. -/
def decodeNestedAt (b : Bytes) (offset : Int) : Except Error (Bytes × Int) :=
  if 0 ≤ offset then (decodeNested b offset.toNat).map fun (v, next) => (v, next)
  else
    let start := offset + 4
    let length := Bytes.toNat (b.slice offset start)
    if b.length < start then .error .shortPrefix
    else if b.length < start + length then .error .shortValue
    else .ok (b.slice start (start + length), start + length)

/-- All values from an offset to the end. -/
def decodeAllNested (b : Bytes) (offset : Nat) : Except Error (List Bytes) :=
  if b.length ≤ offset then .ok []
  else match _h : decodeNested b offset with
    | .error e => .error e
    | .ok (v, next) => (decodeAllNested b next).map (v :: ·)
termination_by b.length - offset
decreasing_by
  have := decodeNested_bounds _h
  omega

/-! ### Any value -/

/-- A type that has no encoding, by its name. -/
structure Unencodable where
  typeName : String
  deriving DecidableEq, Repr

def Unencodable.message (e : Unencodable) : String := "cannot top-encode " ++ e.typeName

def encode : Value → Except Unencodable Bytes
  | .nothing => .ok []
  | .bool b => .ok (if b then [1] else [])
  | .int n => .ok (encodeInt n)
  | .bytes b => .ok b
  | .text s => .ok (Utf8.encode s)
  | .token t => .ok t.name
  | v => .error ⟨v.typeName⟩

def encodeAll (vs : List Value) : Except Unencodable (List Bytes) := vs.mapM encode

/-- What an endpoint returns as a list of encodings: nothing is none, a list one for each item. -/
def encodeResults : Value → Except Unencodable (List Bytes)
  | .nothing => .ok []
  | .list vs | .tuple vs => encodeAll vs
  | v => (encode v).map ([·])

def encodeNestedToken (t : Token) : Bytes := encodeNested t.name

end TrialLedger.Codec
