import TrialLedger.Value.Items

/-! Keys: what the entries of a table are found under. Values of nearly all types may name an
entry, and values that are equal name the same one: numbers by their value, whatever their
type, and tokens by their wire name. -/

namespace TrialLedger

inductive Key where
  | number (n : Int)
  | text (s : String)
  | bytes (b : Bytes)
  | other (shown : String)
  deriving DecidableEq, Repr

namespace Key

mutual

/-- One form for all values that are equal: whole numbers are of one type, and tokens are known
by their wire names. -/
def normal : Value → Value
  | .token t => .token (.issued t.name)
  | .transfer t => .transfer { t with token := .issued t.token.name }
  | .tuple vs => .tuple (normals vs)
  | v => ((v.number?.bind Number.whole?).map .int).getD v

def normals : List Value → List Value
  | [] => []
  | v :: r => normal v :: normals r

end

/-- The key that a value stands for, unless it cannot name an entry. -/
def ofValue (v : Value) : Except Fault Key := do
  v.checkHashable
  return match normal v with
    | .int n => .number n
    | .text s => .text s
    | .bytes b => .bytes b
    | v => .other v.shown

theorem ofValue_int (n : Int) : ofValue (.int n) = .ok (.number n) := by
  simp [ofValue, normal, Value.checkHashable, Value.unhashablePart, Value.number?, Value.integer?, Number.ofInt,
    Number.whole?, bind, Except.bind, pure, Except.pure]

end Key

end TrialLedger
