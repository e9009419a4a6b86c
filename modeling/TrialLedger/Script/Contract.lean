import TrialLedger.Script.Body

/-! Contracts written as JSON objects, with an endpoint for each member. -/

namespace TrialLedger.Script

def flag (members : List (Text × Json)) (name : String) : Bool :=
  match Json.member? members name with
  | some j => (valueOf j).isTrue
  | none => false

def count (members : List (Text × Json)) (name : String) : Nat :=
  (((Json.member? members name).bind integer?).getD 0).toNat

/-- The name that an endpoint gives itself; an empty one does not count. -/
def givenName (members : List (Text × Json)) : Option String :=
  match Json.member? members "name" with
  | some (.text t) => if t.isEmpty then none else some t.lossy
  | _ => none

def bodyOf (members : List (Text × Json)) : List Expr :=
  match Json.member? members "body" with
  | some (.list items) => ofItems items
  | _ => []

/-- The cost that an endpoint gives itself. -/
def givenCost (members : List (Text × Json)) : Option Value :=
  (Json.member? members "gas_cost").bind fun j => if j.isNull then none else some (valueOf j)

/-- The endpoint behind a method. A callback goes by its method's name and has no cost of its own. -/
def endpointOf (method : String) (members : List (Text × Json)) : Endpoint :=
  let isCallback := flag members "callback"
  let required := count members "required"
  { name := if isCallback then method else (givenName members).getD method
    method
    gasCost := if isCallback then none else givenCost members
    isCallback
    minArguments := required
    maxArguments := if flag members "variadic" then none else some (required + count members "optional")
    body := run (bodyOf members) }

def membersOf : Json → List (Text × Json)
  | .object members => members
  | _ => []

/-- The method that endpoints are entered through. A contract that has one of its own runs it in
place of every endpoint, whatever the number of arguments. -/
def entryMethod : String := "invoke"

def enteredThrough (body : List Expr) (e : Endpoint) : Endpoint :=
  { e with isBounded := false, body := runApart body }

def contractOf (methods : List (Text × Json)) : Contract :=
  let endpoints := methods.map fun (method, j) => endpointOf method.lossy (membersOf j)
  match Json.member? methods entryMethod with
  | some j => Contract.ofEndpoints (endpoints.map (enteredThrough (bodyOf (membersOf j))))
  | none => Contract.ofEndpoints endpoints

/-- Registers contracts after those that are there; a name that is taken is refused. -/
def registerAll (r : Registry) : List (Text × Json) → Except Registry.Taken Registry
  | [] => .ok r
  | (code, j) :: rest =>
    match r.register code.lossy (contractOf (membersOf j)) with
    | .ok r => registerAll r rest
    | .error e => .error e

end TrialLedger.Script
