import TrialLedger.Program

/-! Contracts and their endpoints. An endpoint takes a range of argument counts and runs
a program on the call that enters it; callbacks are entered by the engine alone. -/

namespace TrialLedger

/-- What an endpoint knows when it is entered. -/
structure Entry where
  call : Call
  /-- Outcome of the call that a callback answers. -/
  asyncResult : Option CallResult

structure Endpoint where
  name : String
  /-- The name of the method behind the endpoint. -/
  method : String
  /-- Replaces the engine's cost of entering a frame. It is looked at when it is charged. -/
  gasCost : Option Value := none
  isCallback : Bool := false
  minArguments : Nat := 0
  /-- None for an endpoint that takes any number of further arguments. -/
  maxArguments : Option Nat := none
  /-- Whether a wrong number of arguments is refused. -/
  isBounded : Bool := true
  body : Entry → Program Value

def Endpoint.accepts (e : Endpoint) (count : Nat) : Bool :=
  e.minArguments ≤ count && (match e.maxArguments with | some m => count ≤ m | none => true)

structure Contract where
  endpoints : Table String Endpoint

namespace Contract

/-- The endpoints in the order of their methods; of two with one name the later counts. -/
def ofEndpoints (es : List Endpoint) : Contract :=
  ⟨Table.ofList ((es.mergeSort fun a b => decide (a.method ≤ b.method)).map fun e => (e.name, e))⟩

/-- The endpoint of a name, of which none is ragged. -/
def find? (c : Contract) (name : Text) : Option Endpoint := name.plain?.bind c.endpoints.get?

/-- The endpoints in the order of their names. -/
def sortedEndpoints (c : Contract) : List Endpoint :=
  (c.endpoints.entries.map Prod.snd).mergeSort fun a b => decide (a.name ≤ b.name)

end Contract

/-- Contracts by code name. -/
structure Registry where
  contracts : Table String Contract := Table.empty

namespace Registry

/-- A code name that is taken. -/
structure Taken where
  code : String
  deriving DecidableEq, Repr

def Taken.message (e : Taken) : String :=
  "contract code " ++ Text.quote e.code ++ " already registered"

def register (r : Registry) (code : String) (c : Contract) : Except Taken Registry :=
  if r.contracts.contains code then .error ⟨code⟩ else .ok ⟨r.contracts.put code c⟩

def get? (r : Registry) (code : Text) : Option Contract := code.plain?.bind r.contracts.get?

def contains (r : Registry) (code : String) : Bool := r.contracts.contains code

def names (r : Registry) : List String := r.contracts.keys.mergeSort fun a b => decide (a ≤ b)

end Registry

end TrialLedger
