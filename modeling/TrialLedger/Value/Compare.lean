import TrialLedger.Stop
import TrialLedger.Value.Number

/-! Comparing values. Numbers of all types are compared with each other, lists and tuples item
by item and each with its kind alone, and tokens by their wire names. A number that is undefined
differs from itself when it stands alone, but not as an item of a list. -/

namespace TrialLedger.Value

/-! ### Equality -/

def sameTransfer (t u : Transfer) : Bool := t.token.same u.token && t.nonce == u.nonce && t.amount == u.amount

def sameNumber (v w : Value) : Bool :=
  match v.number?, w.number? with
  | some m, some n => m.same n
  | _, _ => false

def bothUndefined (v w : Value) : Bool := v.number? = some .undefined && w.number? = some .undefined

mutual

def same : Value → Value → Bool
  | nothing, nothing | context, context => true
  | text s, text t => s == t
  | bytes a, bytes b => a == b
  | token t, token u => t.same u
  | transfer t, transfer u => sameTransfer t u
  | result s m d, result s' m' d' => s == s' && (same m m' || bothUndefined m m') && d == d'
  | list vs, list ws | tuple vs, tuple ws => sameItems vs ws
  | v, w => sameNumber v w

def sameItems : List Value → List Value → Bool
  | [], [] => true
  | v :: vs, w :: ws => (same v w || bothUndefined v w) && sameItems vs ws
  | _, _ => false

end

/-! ### Order -/

/-- What is said of two values without an order, which the given sign asks for. -/
def unordered (sign : String) (v w : Value) : Fault :=
  .illTyped ("'" ++ sign ++ "' not supported between instances of '" ++ v.typeName ++ "' and '" ++ w.typeName ++ "'")

def numberAbove (v w : Value) : Except Fault Bool :=
  match v.number?, w.number? with
  | some m, some n => .ok (n.lt m)
  | _, _ => .error (unordered ">" v w)

mutual

/-- Whether the first of two values is the greater one. -/
def above : Value → Value → Except Fault Bool
  | text s, text t => .ok (t < s)
  | bytes a, bytes b => .ok (b.lt a)
  | token t, token u => .ok (u.lt t)
  | list vs, list ws | tuple vs, tuple ws => itemsAbove vs ws
  | v, w => numberAbove v w

/-- The first items that differ decide. -/
def itemsAbove : List Value → List Value → Except Fault Bool
  | [], _ => .ok false
  | _ :: _, [] => .ok true
  | v :: vs, w :: ws => if same v w || bothUndefined v w then itemsAbove vs ws else above v w

end

end TrialLedger.Value
