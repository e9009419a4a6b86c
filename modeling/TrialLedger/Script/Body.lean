import TrialLedger.Script.Request

/-! Bodies of scripted endpoints. The expressions of a body run in order; a catch hears of
failures alone. -/

namespace TrialLedger.Script

def makeTransfer (token nonce amount : Value) : Eval Value :=
  Eval.ofExcept (((Value.makeTransfer token nonce amount).mapError .invalidTransfer).map .transfer)

/-- The identifier with a given name. Only a name that is text or bytes can be the native one. -/
def parsed : Value → Except Fault Token
  | .text s => .ok (Token.parse (Utf8.encode s))
  | .bytes b => .ok (Token.parse b)
  | v => v.key.map .issued

mutual

def eval (s : Scope) : Expr → Eval Value
  | .literal v => pure v
  | .argument i => itemAt s.arguments i outsideTuple
  | .arguments => pure (.list s.arguments)
  | .variable name => Eval.lookup name
  | .list items => do return .list (← evalAll s items)
  | .token name => do return .token (.issued (← Eval.ofExcept (← eval s name).key))
  | .parsedToken name => do return .token (← Eval.ofExcept (parsed (← eval s name)))
  | .transfer token nonce amount => do
    let token ← eval s token
    let nonce ← eval s nonce
    let amount ← eval s amount
    makeTransfer token nonce amount
  | .assign name value => do
    Eval.assign name (← eval s value)
    return .nothing
  | .branch condition yes no => do
    if (← eval s condition).isTrue then evalBlock s yes else evalBlock s no
    return .nothing
  | .finish value => do Eval.halt (.finished (← eval s value))
  | .catchFailure body handler => do
    Eval.orElse (evalBlock s body) fun f => do
      Eval.assign (.text "err_status") (.int f.status.code)
      Eval.assign (.text "err_message") f.message
      evalBlock s handler
    return .nothing
  | .call form parameters => do makeCall s form (← evalParameters s parameters)
  | .op name operands => do operate s name (← evalAll s operands)
  | .broken f => Eval.fault f

def evalAll (s : Scope) : List Expr → Eval (List Value)
  | [] => pure []
  | x :: r => do
    let v ← eval s x
    return v :: (← evalAll s r)

def evalBlock (s : Scope) : List Expr → Eval Unit
  | [] => pure ()
  | x :: r => do
    let _ ← eval s x
    evalBlock s r

def evalParameters (s : Scope) : List (String × Expr) → Eval Parameters
  | [] => pure []
  | (k, x) :: r => do
    let v ← eval s x
    return (k, v) :: (← evalParameters s r)

end

/-- The program of a body. Without a result it returns nothing. -/
def runIn (s : Scope) (body : List Expr) : Program Value := do
  match (← evalBlock s body []).1 with
  | .ok () => return .nothing
  | .error (.finished v) => return v
  | .error (.stopped reason) => .stop reason

def argumentValues (e : Entry) : List Value := e.call.arguments.map .bytes

def run (body : List Expr) (e : Entry) : Program Value := runIn ⟨some e, argumentValues e⟩ body

/-- Runs a body apart from the call: the call and its arguments are arguments themselves. -/
def runApart (body : List Expr) (e : Entry) : Program Value :=
  runIn ⟨none, [.context, .tuple (argumentValues e)]⟩ body

end TrialLedger.Script
