import TrialLedger.Text.Quoted
import TrialLedger.Text.Utf8

/-! Texts that come from outside. They are made of points: characters, and surrogates that stand
by themselves. A text of characters alone is a plain one. A text with a surrogate in it is ragged: it can
be compared, cut and shown like any other, but it has no bytes. -/

namespace TrialLedger

inductive Point where
  | char (c : Char)
  /-- A surrogate, counted from the first one. -/
  | surrogate (n : Fin 0x800)
  deriving DecidableEq, Repr

namespace Point

def code : Point → Nat
  | char c => c.toNat
  | surrogate n => 0xd800 + n

def isSurrogate : Point → Bool
  | char _ => false
  | surrogate _ => true

def char? : Point → Option Char
  | char c => some c
  | surrogate _ => none

/-- The point with the given number. -/
def ofCode (n : Nat) : Point :=
  if h : 0xd800 ≤ n ∧ n < 0xe000 then surrogate ⟨n - 0xd800, by omega⟩ else char (Char.ofNat n)

end Point

/-- Points with a surrogate among them. -/
structure Ragged where
  points : List Point
  isRagged : points.any Point.isSurrogate = true
  deriving DecidableEq, Repr

inductive Text where
  | plain (s : String)
  | ragged (t : Ragged)
  deriving DecidableEq, Repr

namespace Text

instance : Coe String Text := ⟨plain⟩

instance : Inhabited Text := ⟨plain ""⟩

def points : Text → List Point
  | plain s => s.toList.map .char
  | ragged t => t.points

def ofPoints (ps : List Point) : Text :=
  if h : ps.any Point.isSurrogate = true then ragged ⟨ps, h⟩ else plain (String.ofList (ps.filterMap Point.char?))

def append : Text → Text → Text
  | plain s, plain t => plain (s ++ t)
  | s, t => ofPoints (s.points ++ t.points)

instance : Append Text := ⟨append⟩

def isEmpty : Text → Bool
  | plain s => s.isEmpty
  | ragged _ => false

/-- The text, if it is made of characters alone. -/
def plain? : Text → Option String
  | plain s => some s
  | ragged _ => none

/-- The bytes of a text, if it has any. -/
def bytes? (t : Text) : Option Bytes := t.plain?.map Utf8.encode

/-- Texts in the order of the numbers of their points. -/
def le (s t : Text) : Bool := !(t.points.map Point.code).lex (s.points.map Point.code) Nat.blt

/-! ### Showing -/

def escapePoint (mark : Char) : Point → List Char
  | .char c => escapeChar mark c
  | p => '\\' :: 'u' :: hexPadded 4 p.code

/-- A text between quotes, where surrogates are escaped. -/
def quoted : Text → String
  | plain s => quote s
  | ragged t =>
    let mark := quoteMark (t.points.contains (.char '\'')) (t.points.contains (.char '"'))
    String.ofList (mark :: t.points.flatMap (escapePoint mark) ++ [mark])

/-- A text with a replacement character for each byte of what would encode a surrogate. -/
def lossy : Text → String
  | plain s => s
  | ragged t => String.ofList (t.points.flatMap fun
    | .char c => [c]
    | .surrogate _ => ['\ufffd', '\ufffd', '\ufffd'])

/-! ### Points and texts -/

theorem plain_append_plain (s t : String) : (s : Text) ++ (t : Text) = ((s ++ t : String) : Text) := rfl

theorem any_isSurrogate_chars (cs : List Char) : (cs.map Point.char).any Point.isSurrogate = false := by
  induction cs with
  | nil => rfl
  | cons c r ih => exact ih

theorem filterMap_char?_chars (cs : List Char) : (cs.map Point.char).filterMap Point.char? = cs := by
  induction cs with
  | nil => rfl
  | cons c r ih => exact congrArg (c :: ·) ih

theorem chars_of_not_any {ps : List Point} (h : ps.any Point.isSurrogate = false) :
    (ps.filterMap Point.char?).map Point.char = ps := by
  induction ps with
  | nil => rfl
  | cons p r ih =>
    obtain ⟨hp, hr⟩ := Bool.or_eq_false_iff.1 h
    cases p with
    | char c => exact congrArg (Point.char c :: ·) (ih hr)
    | surrogate n => exact Bool.noConfusion hp

theorem ofPoints_chars (cs : List Char) : ofPoints (cs.map .char) = String.ofList cs := by
  rw [ofPoints, dif_neg (by rw [any_isSurrogate_chars]; decide), filterMap_char?_chars]

@[simp] theorem points_ofPoints (ps : List Point) : (ofPoints ps).points = ps := by
  unfold ofPoints
  split
  · rfl
  · next h => rw [points, String.toList_ofList, chars_of_not_any (by simpa using h)]

@[simp] theorem ofPoints_points (t : Text) : ofPoints t.points = t := by
  cases t with
  | plain s => rw [points, ofPoints_chars, String.ofList_toList]
  | ragged t => exact dif_pos t.isRagged

theorem points_append (s t : Text) : (s ++ t).points = s.points ++ t.points := by
  cases s with
  | plain s =>
    cases t with
    | plain t => rw [plain_append_plain, points, points, points, String.toList_append, List.map_append]
    | ragged t => exact points_ofPoints _
  | ragged s => exact points_ofPoints _

end Text

end TrialLedger
