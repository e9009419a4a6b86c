import TrialLedger.Amount
import TrialLedger.Json.Basic
import TrialLedger.Table

/-! Patterns for single values, lists and maps. A pattern is unspecified, a star, or exact;
the first two accept everything. An exact value keeps the literal that it was written as,
which a mismatch shows as what was expected. -/

namespace TrialLedger.Check

/-- What a report shows: a value, or JSON as it was written. -/
inductive Exhibit where
  | value (v : Value)
  | json (j : Json)

namespace Exhibit

instance : Coe Value Exhibit := ⟨value⟩

instance : Coe Json Exhibit := ⟨json⟩

def nothing : Exhibit := Value.nothing

def int (n : Int) : Exhibit := Value.int n

def bytes (b : Bytes) : Exhibit := Value.bytes b

def text (t : Text) : Exhibit := Json.text t

/-- What is shown by itself: bytes are hexadecimal, and no bytes are two quotes. -/
def display : Exhibit → Text
  | value (.bytes b) => if b.isEmpty then "\"\"" else "0x" ++ b.hex
  | value v => v.display
  | json j => j.display

end Exhibit

/-- The first place where something is not as it was expected. -/
structure Mismatch where
  path : String
  expected : Exhibit
  actual : Exhibit

namespace Mismatch

/-- One line that tells the step, the place and the two values. -/
def describe (m : Mismatch) (stepIndex : Int) (stepId : Text) : Text :=
  let step : Text := if stepId.isEmpty then "" else " (" ++ stepId ++ ")"
  "step " ++ toString stepIndex ++ step ++ ": mismatch at " ++ m.path ++ ": expected " ++ m.expected.display ++
    ", got " ++ m.actual.display

end Mismatch

/-! ### Single values -/

inductive Pattern (α : Type) where
  | unspecified
  | star
  | exact (value : α) (written : Json)

namespace Pattern

variable {α β : Type}

def map (f : α → β) : Pattern α → Pattern β
  | unspecified => unspecified
  | star => star
  | exact a written => exact (f a) written

/-- Whether a value is accepted, given which values equal the one of the pattern. -/
def acceptsBy (same : α → β → Bool) : Pattern α → β → Bool
  | exact a _, b => same a b
  | _, _ => true

def accepts [DecidableEq α] : Pattern α → α → Bool := acceptsBy fun a b => a = b

/-- What the pattern was written as. -/
def written : Pattern α → Json
  | unspecified => .null
  | star => .text "*"
  | exact _ written => written

def text : Pattern α → Text
  | unspecified => "<unspecified>"
  | p => p.written.display

/-- The mismatch of a value at a place, given which values are equal and how the value is shown. -/
def mismatchBy (same : α → β → Bool) (p : Pattern α) (path : String) (actual : β) (shown : β → Exhibit) :
    Option Mismatch :=
  if p.acceptsBy same actual then none else some ⟨path, p.written, shown actual⟩

def mismatch [DecidableEq α] (p : Pattern α) (path : String) (actual : α) (shown : α → Exhibit) : Option Mismatch :=
  if p.accepts actual then none else some ⟨path, p.written, shown actual⟩

end Pattern

/-- Whether an amount is the whole number that is expected. -/
def sameAmount (n : Int) (a : Amount) : Bool := (Amount.whole n).same a

/-! ### Lists -/

inductive ListPattern where
  | unspecified
  | star
  | exact (items : List (Pattern Bytes))

namespace ListPattern

/-- The first item that is not as expected, in lists of one length. -/
def firstMismatch (path : String) (i : Nat) : List (Pattern Bytes) → List Bytes → Option Mismatch
  | p :: ps, b :: bs =>
    (p.mismatch (path ++ "[" ++ toString i ++ "]") b .bytes).or (firstMismatch path (i + 1) ps bs)
  | _, _ => none

def mismatch (path : String) (actual : List Bytes) : ListPattern → Option Mismatch
  | exact items =>
    if items.length = actual.length then firstMismatch path 0 items actual
    else some ⟨path ++ ".length", .int items.length, .int actual.length⟩
  | _ => none

end ListPattern

/-! ### Maps -/

/-- A key in a path: printable ASCII stands for itself, and anything else is hexadecimal. -/
def keyText (b : Bytes) : String :=
  if b.all fun x => 0x20 ≤ x && x ≤ 0x7e then String.ofList (b.map fun x => Char.ofNat x.toNat)
  else "0x" ++ b.hex

/-- A pattern for a map whose missing keys count as empty values. Unless more is allowed, a key
that is not listed has to be missing or empty. -/
inductive MapPattern (κ α : Type) where
  | unspecified
  | star
  | exact (entries : List (κ × Pattern α)) (allowMore : Bool)

namespace MapPattern

variable {κ ι α β : Type} [DecidableEq ι]

/-- How a pattern is compared with a map: which entry a listed key stands for, when values are
equal, and how all of it is shown. -/
structure View (κ ι α β : Type) where
  locate : κ → ι
  listed : κ → String
  stored : ι → β → String
  same : α → β → Bool
  value : β → Exhibit
  empty : β
  isEmpty : β → Bool

/-- The first listed entry that is not as expected. -/
def listedMismatch (v : View κ ι α β) (path : String) (actual : Table ι β) : List (κ × Pattern α) → Option Mismatch
  | [] => none
  | (k, p) :: r =>
    (p.mismatchBy v.same (path ++ "[" ++ v.listed k ++ "]") (actual.getD (v.locate k) v.empty) v.value).or
      (listedMismatch v path actual r)

/-- The first entry of the map that is not listed and not empty, in the order of the shown
keys. -/
def strangerMismatch (v : View κ ι α β) (path : String) (actual : Table ι β) (listed : List ι) : Option Mismatch :=
  let sorted := actual.entries.mergeSort fun a b => decide (v.stored a.1 a.2 ≤ v.stored b.1 b.2)
  (sorted.find? fun e => !listed.contains e.1 && !v.isEmpty e.2).map fun e =>
    ⟨path ++ "[" ++ v.stored e.1 e.2 ++ "]", .text "absent", v.value e.2⟩

def mismatch (v : View κ ι α β) (path : String) (actual : Table ι β) : MapPattern κ α → Option Mismatch
  | exact entries allowMore =>
    (listedMismatch v path actual entries).or
      (if allowMore then none else strangerMismatch v path actual (entries.map fun e => v.locate e.1))
  | _ => none

end MapPattern

end TrialLedger.Check
