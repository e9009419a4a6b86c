import TrialLedger.Fixture.Basic
import TrialLedger.Path
import TrialLedger.Text.Integer

/-! Literals: the spellings of byte strings and amounts in a fixture. A text holds one
literal or several between bars, a list holds literals in order, and their bytes are
joined. A number spells its shortest big-endian form. -/

namespace TrialLedger.Fixture

/-! ### Texts -/

/-- The bytes of a text, of which a ragged one has none. -/
def textBytes (t : Text) : Read Bytes :=
  match t.bytes? with
  | some b => .ok b
  | none => .error .unencodable

def isAsciiDigit (c : Char) : Bool := '0' ≤ c && c ≤ '9'

/-- A digit, then digits, commas and underscores. -/
def isUnsignedNumeral : List Char → Bool
  | [] => false
  | c :: r => isAsciiDigit c && r.all fun d => isAsciiDigit d || d == ',' || d == '_'

/-- A numeral may have a minus in front. -/
def isNumeral : List Char → Bool
  | '-' :: r => isUnsignedNumeral r
  | cs => isUnsignedNumeral cs

/-- The number that is left of a text without commas and underscores. -/
def number? : Text → Option Int
  | .plain s => Text.readInteger? (s.toList.filter fun c => c != ',' && c != '_')
  | .ragged _ => none

def number (path t : Text) : Read Int :=
  match number? t with
  | some n => .ok n
  | none => misread path (.badNumber t)

/-- A name in a given number of bytes, with low lines after it. -/
def paddedName (path : Text) (room : Nat) (t : Text) : Read Bytes := do
  let b ← textBytes t
  if room < b.length then misread path (.longName t room)
  else return b ++ List.replicate (room - b.length) 95

def fixedNumber (path : Text) (encode : Int → Except Codec.Error Bytes) (t : Text) : Read Bytes := do
  let n ← number path t
  (encode n).mapError fun e => .misread path (.unfit e)

def hexBytes (path whole t : Text) : Read Bytes :=
  match t.plain?.bind Bytes.ofHex? with
  | some b => .ok b
  | none => misread path (.badHex whole)

/-- The name of contract code that is kept in a file: the file's name without its extension. -/
def codeName (ctx : Context) : Text → Text
  | .plain s => String.ofList (Path.fileStem ctx.directory.toList s.toList)
  | .ragged t => .ofPoints (Path.fileStem (ctx.directory : Text).points t.points)

/-- How what follows the word that opens a literal is read. -/
inductive Opening where
  | text
  /-- A name in a given room behind zeros. -/
  | name (zeros room : Nat)
  | file
  | fixed (encode : Int → Except Codec.Error Bytes)
  | hex

def Opening.read (ctx : Context) (path whole : Text) : Opening → Text → Read Bytes
  | text, t => textBytes t
  | name zeros room, t => (paddedName path room t).map (List.replicate zeros 0 ++ ·)
  | file, t => textBytes (codeName ctx t)
  | fixed encode, t => fixedNumber path encode t
  | hex, t => hexBytes path whole t

/-- Words that open a literal. -/
def openings : List (String × Opening) := [
  ("str:", .text),
  ("''", .text),
  ("\x60\x60", .text),
  ("address:", .name 0 32),
  ("sc:", .name 8 24),
  ("file:", .file),
  ("u8:", .fixed (Codec.encodeFixedUnsigned 1)),
  ("u16:", .fixed (Codec.encodeFixedUnsigned 2)),
  ("u32:", .fixed (Codec.encodeFixedUnsigned 4)),
  ("u64:", .fixed (Codec.encodeFixedUnsigned 8)),
  ("i8:", .fixed (Codec.encodeFixedSigned 1)),
  ("i16:", .fixed (Codec.encodeFixedSigned 2)),
  ("i32:", .fixed (Codec.encodeFixedSigned 4)),
  ("i64:", .fixed (Codec.encodeFixedSigned 8)),
  ("0x", .hex),
  ("0X", .hex)]

/-- The first word that opens a literal, and what follows it. -/
def opened? (ps : List Point) : Option (Opening × Text) :=
  openings.findSome? fun (word, o) => (Text.rest? (word : Text).points ps).map fun r => (o, .ofPoints r)

/-- A literal that no word opens. -/
def bareLiteral (path : Text) : Text → Read Bytes
  | .plain s =>
    if s = "" ∨ s = "false" then .ok []
    else if s = "true" then .ok [1]
    else if isNumeral s.toList then (number path s).map Codec.encodeInt
    else misread path (.unknownLiteral s)
  | t => misread path (.unknownLiteral t)

/-- A literal that holds no other one. -/
def simpleLiteral (ctx : Context) (path : Text) (ps : List Point) : Read Bytes :=
  let whole := Text.ofPoints ps
  match opened? ps with
  | some (o, t) => o.read ctx path whole t
  | none => bareLiteral path whole

/-- The numeral that stands in a text alone, with blanks around it. -/
def numeral? : Text → Option Text
  | .plain s =>
    let trimmed := Text.trim Text.isBlank s.toList
    if isNumeral trimmed then some (String.ofList trimmed) else none
  | .ragged _ => none

/-- The amount that a text spells, given the bytes that it spells: the number that stands in it
alone, or the number that its bytes make. -/
def textAmount (path t : Text) (bytes : Read Bytes) : Read Nat :=
  match numeral? t with
  | some numeral => do
    let n ← number path numeral
    if n < 0 then misread path (.negativeText t) else return n.toNat
  | none => bytes.map Bytes.toNat

/-- Bytes behind their length, which takes four bytes. -/
def nested (b : Bytes) : Read Bytes :=
  if b.length < 2 ^ 32 then .ok (Codec.encodeNested b) else .error .oversized

/-- One literal of a text. `nested:` puts a length before the bytes of the literal after it, and
`biguint:` before the amount that it spells. -/
def literal (ctx : Context) (path : Text) : List Point → Read Bytes
  | .char 'n' :: .char 'e' :: .char 's' :: .char 't' :: .char 'e' :: .char 'd' :: .char ':' :: r =>
    literal ctx path r >>= nested
  | .char 'b' :: .char 'i' :: .char 'g' :: .char 'u' :: .char 'i' :: .char 'n' :: .char 't' :: .char ':' :: r =>
    textAmount path (.ofPoints r) (literal ctx path r) >>= fun n => nested (Codec.encodeNat n)
  | ps => simpleLiteral ctx path ps

/-- The bytes of several literals, joined. -/
def joined (ctx : Context) (path : Text) : List (List Point) → Read Bytes
  | [] => .ok []
  | ps :: r => do
    let b ← literal ctx path ps
    return b ++ (← joined ctx path r)

/-! ### Any value -/

mutual

def readBytes (ctx : Context) (path : Text) : Json → Read Bytes
  | .null => .ok []
  | .bool b => .ok (if b then [1] else [])
  | .int n => .ok (Codec.encodeInt n)
  | .text t => joined ctx path (Text.fields (.char '|') t.points)
  | .list items => readListBytes ctx path 0 items
  | j => misread path (.badType j.typeName)

def readListBytes (ctx : Context) (path : Text) (i : Nat) : List Json → Read Bytes
  | [] => .ok []
  | j :: r => do
    let b ← readBytes ctx (item path i) j
    return b ++ (← readListBytes ctx path (i + 1) r)

end

/-- An amount. A number below zero is told of, unless it is too long to be written. -/
def readAmount (ctx : Context) (path : Text) : Json → Read Nat
  | .null => .ok 0
  | .int n =>
    if 0 ≤ n then .ok n.toNat
    else if Text.isWritable n then misread path (.negativeNumber n)
    else .error .unwritable
  | .text t => textAmount path t (readBytes ctx path (.text t))
  | j => (readBytes ctx path j).map Bytes.toNat

/-- An amount of at most eight bytes. The message about a larger one holds the amount, so one that
cannot be written ends the reading at once. -/
def readU64 (ctx : Context) (path : Text) (j : Json) : Read Nat := do
  let n ← readAmount ctx path j
  if n < 2 ^ 64 then return n
  else if Text.isWritable n then misread path (.beyondU64 n)
  else .error .unwritable

def readAddress (ctx : Context) (path : Text) (j : Json) : Read Bytes :=
  if j.isNull then misread path .noAddress
  else do
    let b ← readBytes ctx path j
    if b.length = 32 then return b else misread path (.addressLength b.length)

/-- A name of contract code, with or without `file:` in front. -/
def readCode (ctx : Context) (path : Text) : Json → Read Text
  | .text t =>
    if t.isEmpty then misread path .noCode
    else .ok (codeName ctx (((Text.rest? ("file:" : Text).points t.points).map .ofPoints).getD t))
  | _ => misread path .noCode

end TrialLedger.Fixture
