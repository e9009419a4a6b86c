import TrialLedger.Stop
import TrialLedger.Text.Nearest
import TrialLedger.Value.Number

/-! Sums and differences of values. Whole numbers are exact; as soon as one operand has a point,
the other one is brought to the nearest number with a point. Texts, bytes, lists and tuples are
joined with their kind. -/

namespace TrialLedger.Value

def nearestFloat (n : Int) : Except Fault Float :=
  let x := Text.nearest (n < 0) n.natAbs 0
  if x.isInf then .error (.raised "OverflowError" "int too large to convert to float") else .ok x

/-- The number with a point for an operand, if it is a number. -/
def float? : Value → Option (Except Fault Float)
  | float x => some (.ok x)
  | v => v.integer?.map nearestFloat

def noOperands (sign : String) (v w : Value) : Fault :=
  .illTyped ("unsupported operand type(s) for " ++ sign ++ ": '" ++ v.typeName ++ "' and '" ++ w.typeName ++ "'")

/-- Puts together two numbers in the way of their types. -/
def combine (sign : String) (whole : Int → Int → Int) (real : Float → Float → Float) (v w : Value) :
    Except Fault Value :=
  match v.integer?, w.integer? with
  | some a, some b => .ok (int (whole a b))
  | _, _ =>
    match v.float?, w.float? with
    | some x, some y => do return float (real (← x) (← y))
    | _, _ => .error (noOperands sign v w)

/-- What is said when a text, a list or the like is joined with something else. -/
def notJoined (v w : Value) : Fault :=
  match v with
  | bytes _ => .illTyped ("can't concat " ++ w.typeName ++ " to bytes")
  | _ => .illTyped ("can only concatenate " ++ v.typeName ++ " (not \"" ++ w.typeName ++ "\") to " ++ v.typeName)

def plus : Value → Value → Except Fault Value
  | text s, text t => .ok (text (s ++ t))
  | bytes a, bytes b => .ok (bytes (a ++ b))
  | list vs, list ws => .ok (list (vs ++ ws))
  | tuple vs, tuple ws => .ok (tuple (vs ++ ws))
  | v, w =>
    match v with
    | text _ | bytes _ | list _ | tuple _ => .error (notJoined v w)
    | _ => combine "+" (· + ·) (· + ·) v w

def minus (v w : Value) : Except Fault Value := combine "-" (· - ·) (· - ·) v w

end TrialLedger.Value
