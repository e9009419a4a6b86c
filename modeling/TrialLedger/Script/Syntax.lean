import TrialLedger.Json.Basic
import TrialLedger.Program
import TrialLedger.Text.Integer

/-! Contracts written as data: the expressions of their bodies, and how JSON spells them.
A scalar stands for itself, an object for a constructed value, and a list for an
operation that is named by its first item. What is spelled wrong stops the program where
it is reached, and does no harm before. No value of a script is ragged: surrogates are replaced. -/

namespace TrialLedger.Script

/-! ### Values -/

mutual

def valueOf : Json → Value
  | .null => .nothing
  | .bool b => .bool b
  | .int n => .int n
  | .float x => .float x
  | .text t => .text t.lossy
  | .list items => .list (valuesOf items)
  | .object members => .map (entriesOf members)

def valuesOf : List Json → List Value
  | [] => []
  | j :: r => valueOf j :: valuesOf r

def entriesOf : List (Text × Json) → List (Value × Value)
  | [] => []
  | (k, j) :: r => (.text k.lossy, valueOf j) :: entriesOf r

end

/-! ### Expressions -/

/-- The ways to hand a call to the engine. -/
inductive CallForm where
  | mode (m : CallMode)
  | deferred
  deriving DecidableEq, Repr

inductive Expr where
  | literal (v : Value)
  | argument (index : Int)
  | arguments
  | variable (name : Value)
  | list (items : List Expr)
  | token (name : Expr)
  | parsedToken (name : Expr)
  | transfer (token nonce amount : Expr)
  | assign (name : Value) (value : Expr)
  | branch (condition : Expr) (yes no : List Expr)
  | finish (value : Expr)
  | catchFailure (body handler : List Expr)
  | call (form : CallForm) (parameters : List (String × Expr))
  | op (name : String) (operands : List Expr)
  /-- What no expression is spelled like. -/
  | broken (f : Fault)

/-- A whole number, given as such, as a truth value or as decimal text. -/
def integer? : Json → Option Int
  | .int n => some n
  | .bool b => some (if b then 1 else 0)
  | .text t => Text.readInteger? t.lossy.toList
  | _ => none

def callForm? : String → Option CallForm
  | "call" => some (.mode .propagate)
  | "try_call" => some (.mode .report)
  | "transfer_exec" => some (.mode .keepValue)
  | "async" => some .deferred
  | _ => none

/-! ### Spellings that are wrong -/

/-- A part of an operation that is not there. -/
def absent : Fault := .raised "IndexError" "list index out of range"

def unknown (name : String) : Fault := .raised "LookupError" name

def notIterable (j : Json) : Fault := .illTyped ("'" ++ j.typeName ++ "' object is not iterable")

def missing : List Expr := [.broken absent]

/-! ### Parts without expressions in them -/

def ofHex : Json → Expr
  | .text t =>
    match Bytes.ofHex? t.lossy with
    | some b => .literal (.bytes b)
    | none => .broken (.raised "ValueError" (Bytes.hexFlaw t.lossy))
  | j => .broken (.illTyped ("fromhex() argument must be str, not " ++ j.typeName))

def ofPosition (j : Json) : Expr :=
  match integer? j with
  | some i => .argument i
  | none => .broken (.illTyped ("tuple indices must be integers or slices, not " ++ j.typeName))

/-- The characters of a text, each as an expression. -/
def ofChars (s : String) : List Expr := s.toList.map fun c => .literal (.text (String.singleton c))

mutual

def Expr.ofJson : Json → Expr
  | .null => .literal .nothing
  | .bool b => .literal (.bool b)
  | .int n => .literal (.int n)
  | .float x => .literal (.float x)
  | .text t => .literal (.text t.lossy)
  | .object members => ofMembers members
  | .list (.text (.plain "let") :: name :: value :: _) => .assign (valueOf name) (Expr.ofJson value)
  | .list (.text (.plain "let") :: _) => .broken absent
  | .list (.text (.plain "if") :: condition :: yes :: no :: _) =>
    .branch (Expr.ofJson condition) (ofBlock yes) (ofBlock no)
  | .list (.text (.plain "if") :: condition :: yes :: _) => .branch (Expr.ofJson condition) (ofBlock yes) missing
  | .list (.text (.plain "if") :: condition :: _) => .branch (Expr.ofJson condition) missing missing
  | .list (.text (.plain "if") :: _) => .broken absent
  | .list (.text (.plain "return") :: value :: _) => .finish (Expr.ofJson value)
  | .list (.text (.plain "return") :: _) => .broken absent
  | .list (.text (.plain "catch") :: body :: handler :: _) => .catchFailure (ofBlock body) (ofBlock handler)
  | .list (.text (.plain "catch") :: body :: _) => .catchFailure (ofBlock body) missing
  | .list (.text (.plain "catch") :: _) => .broken absent
  | .list (.text name :: .object members :: r) =>
    match callForm? name.lossy with
    | some form => .call form (ofParameters members)
    | none => .op name.lossy (ofMembers members :: ofItems r)
  | .list (.text name :: operands) =>
    match callForm? name.lossy, operands with
    | none, _ => .op name.lossy (ofItems operands)
    | some _, [] => .broken absent
    | some _, j :: _ => .broken (.noAttribute j.typeName "items")
  | .list [] => .broken absent
  | .list (j :: _) => .broken (unknown (valueOf j).shown)

/-- An object, of which the first known member tells what is constructed. -/
def ofMembers : List (Text × Json) → Expr
  | [] => .broken (unknown "")
  | (.plain "hex", j) :: _ => ofHex j
  | (.plain "arg", j) :: _ => ofPosition j
  | (.plain "args", _) :: _ => .arguments
  | (.plain "var", j) :: _ => .variable (valueOf j)
  | (.plain "list", j) :: _ => .list (ofBlock j)
  | (.plain "native", _) :: _ => .literal (.token .native)
  | (.plain "token", j) :: _ => .token (Expr.ofJson j)
  | (.plain "parse", j) :: _ => .parsedToken (Expr.ofJson j)
  | (.plain "transfer", .list [t, n, a]) :: _ => .transfer (Expr.ofJson t) (Expr.ofJson n) (Expr.ofJson a)
  | (.plain "transfer", .list items) :: _ => .broken (Value.notThree items.length)
  | (.plain "transfer", j) :: _ => .broken (notIterable j)
  | _ :: r => ofMembers r

/-- What is gone through one by one: a list, the characters of a text, or the names of members. -/
def ofBlock : Json → List Expr
  | .list items => ofItems items
  | .text t => ofChars t.lossy
  | .object members => members.map fun e => .literal (.text e.1.lossy)
  | j => [.broken (notIterable j)]

def ofItems : List Json → List Expr
  | [] => []
  | j :: r => Expr.ofJson j :: ofItems r

def ofParameters : List (Text × Json) → List (String × Expr)
  | [] => []
  | (k, j) :: r => (k.lossy, Expr.ofJson j) :: ofParameters r

end

end TrialLedger.Script
