import TrialLedger.Contract

/-! Evaluation of scripted bodies: programs over a set of variables. A stop keeps what was done
before it, the variables included. -/

namespace TrialLedger.Script

/-- Why the evaluation of a body ends before its last expression. -/
inductive Halt where
  | stopped (reason : Stop)
  | finished (result : Value)

abbrev Variables : Type := List (Key × Value)

/-- A program over variables, which may end early and keeps the variables when it does. -/
def Eval (α : Type) : Type := Variables → Program (Except Halt α × Variables)

namespace Eval

variable {α β : Type}

def andThen (x : Eval α) (f : α → Eval β) : Eval β := fun vars => do
  match ← x vars with
  | (.ok a, vars) => f a vars
  | (.error h, vars) => return (.error h, vars)

instance : Monad Eval where
  pure a := fun vars => .done (.ok a, vars)
  bind := andThen

def halt (h : Halt) : Eval α := fun vars => .done (.error h, vars)

def fault (f : Fault) : Eval α := halt (.stopped (.fault f))

def fail (f : Failure) : Eval α := halt (.stopped (.failure f))

def ofExcept : Except Fault α → Eval α
  | .ok a => pure a
  | .error f => fault f

/-- Asks the engine. -/
def request (r : Request) : Eval r.Answer := fun vars => .ask r fun
  | .ok a => .done (.ok a, vars)
  | .error e => .done (.error (.stopped e), vars)

/-- Asks the engine for something to which there is no answer. -/
def demand (r : Request) : Eval Value := do
  let _ ← request r
  return .nothing

/-- The value of a variable, which a value of any type may name. -/
def lookup (name : Value) : Eval Value := fun vars =>
  match (Key.ofValue name).map fun k => List.lookup k vars with
  | .ok (some v) => .done (.ok v, vars)
  | .ok none => .done (.error (.stopped (.fault (.thrown "KeyError" name.display name.shown))), vars)
  | .error f => .done (.error (.stopped (.fault f)), vars)

def assign (name v : Value) : Eval Unit := fun vars =>
  match Key.ofValue name with
  | .ok k => .done (.ok (), (k, v) :: vars)
  | .error f => .done (.error (.stopped (.fault f)), vars)

/-- Runs the handler when the body stops with a failure. -/
def orElse (body : Eval Unit) (handler : Failure → Eval Unit) : Eval Unit := fun vars => do
  match ← body vars with
  | (.error (.stopped (.failure f)), vars) => handler f vars
  | other => return other

end Eval

/-- What a body sees from outside: its arguments, and the call that it answers unless it is run
apart from one. -/
structure Scope where
  entry : Option Entry
  arguments : List Value

/-- The call that a body answers, which a part of it is asked for by name. -/
def Scope.entryFor (s : Scope) (part : String) : Eval Entry :=
  match s.entry with
  | some e => pure e
  | none => Eval.fault (.noAttribute "EndpointSpec" part)

end TrialLedger.Script
