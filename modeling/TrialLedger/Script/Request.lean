import TrialLedger.Script.Operation

/-! Calls that scripts ask for. A call has named parameters, and their values may be of any type. -/

namespace TrialLedger.Script

abbrev Parameters : Type := List (String × Value)

/-- Short names of parameters. -/
def fullNames : List (String × String) := [
  ("fn", "function"), ("native", "native_amount"), ("cb_args", "callback_args")]

def fullName (name : String) : String := (fullNames.lookup name).getD name

/-- The value of a parameter, of which the last one counts. -/
def given (ps : Parameters) (name : String) : Option Value := ps.reverse.lookup name

/-! ### Parameters -/

def CallForm.method : CallForm → String
  | .mode .propagate => "execute_on_dest_context"
  | .mode .report => "try_execute_on_dest_context"
  | .mode .keepValue => "transfer_execute"
  | .deferred => "async_call"

/-- Parameters that have to be there. Value can be moved without running a function. -/
def CallForm.required : CallForm → List String
  | .mode .keepValue => ["to"]
  | _ => ["to", "function"]

def CallForm.optional : CallForm → List String
  | .mode .keepValue => ["function", "args", "native_amount", "transfers", "gas"]
  | .mode _ => ["args", "native_amount", "transfers", "gas"]
  | .deferred => ["args", "native_amount", "transfers", "gas", "callback", "callback_args"]

def CallForm.signature (form : CallForm) : Signature :=
  ⟨"CallContext." ++ form.method, form.required, form.optional⟩

/-- Refuses parameters that the form does not know, then the lack of others. -/
def checkParameters (form : CallForm) (ps : Parameters) : Except Fault Unit :=
  let s := form.signature
  match ps.find? fun (k, _) => !(s.required ++ s.optional).contains k with
  | some (k, _) => .error (.illTyped (s.operation ++ "() got an unexpected keyword argument " ++ Text.quote k))
  | none =>
    match s.required.filter fun k => (given ps k).isNone with
    | [] => .ok ()
    | names => .error (.illTyped (s.lacking names))

/-- The request that parameters describe. -/
def request (ps : Parameters) : CallRequest where
  receiver := (given ps "to").getD .nothing
  function := (given ps "function").getD (.text "")
  arguments := (given ps "args").getD (.tuple [])
  native := (given ps "native_amount").getD (.int 0)
  transfers := (given ps "transfers").getD (.tuple [])
  gas := (given ps "gas").getD .nothing

/-! ### Calls -/

def makeCall (s : Scope) (form : CallForm) (parameters : Parameters) : Eval Value := do
  let ps := parameters.map fun (k, v) => (fullName k, v)
  let _ ← s.entryFor form.method
  Eval.ofExcept (checkParameters form ps)
  let r := request ps
  match form with
  | .mode .propagate => return .list ((← Eval.request (.call .propagate r)).map .bytes)
  | .mode .report => return (← Eval.request (.call .report r)).value
  | .mode .keepValue => return (← Eval.request (.call .keepValue r)).value
  | .deferred =>
    Eval.demand
      (.callAsync r ((given ps "callback").getD .nothing) ((given ps "callback_args").getD (.tuple [])))

end TrialLedger.Script
