import TrialLedger.CallValue.Basic
import TrialLedger.World.Basic

/-! Contract code as data. A program computes on its own until it asks the engine for
something; the answer, or the reason why there is none, goes to the rest of it. A
program thus acts through its requests alone and sees every stop that they cause. -/

namespace TrialLedger

/-- A call that a contract asks for. Its members are looked at when the call is made; without a gas
amount it gets all that is left. -/
structure CallRequest where
  receiver : Value
  function : Value := .text ""
  arguments : Value := .tuple []
  native : Value := .int 0
  transfers : Value := .tuple []
  gas : Value := .nothing

/-- How a contract takes the end of a call that it makes. -/
inductive CallMode where
  /-- A failure of the callee is one of the caller. -/
  | propagate
  /-- A failure is reported, and the payment comes back. -/
  | report
  /-- A failure is reported, and the payment stays where it went. -/
  | keepValue
  deriving DecidableEq, Repr

inductive Request where
  | gasLeft
  | balance (address : Value) (token : Token) (nonce : Value)
  | owner (address : Value)
  | payment (query : CallValue.Query)
  | storageGet (key : Value)
  | storageSet (key value : Value)
  | send (receiver : Value) (token : Token) (nonce amount : Value)
  | log (endpoint topics data : Value)
  | call (mode : CallMode) (request : CallRequest)
  | callAsync (request : CallRequest) (callback callbackArguments : Value)
  /-- Asks for a whole transaction while one is going on. -/
  | reenter

@[reducible] def Request.Answer : Request → Type
  | gasLeft | balance .. => Amount
  | owner _ => Option Bytes
  | payment query => query.Answer
  | storageGet _ => Bytes
  | storageSet .. | send .. | log .. | callAsync .. | reenter => Unit
  | call .propagate _ => List Bytes
  | call .report _ | call .keepValue _ => CallResult

inductive Program (α : Type) where
  | done (result : α)
  | stop (reason : Stop)
  | ask (request : Request) (next : Except Stop request.Answer → Program α)

namespace Program

variable {α β : Type}

/-- Goes on with the result of a program. -/
def andThen : Program α → (α → Program β) → Program β
  | done a, f => f a
  | stop e, _ => stop e
  | ask r next, f => ask r fun a => andThen (next a) f

instance : Monad Program where
  pure := done
  bind := andThen

/-- Asks, and stops when the request does not go through. -/
def request (r : Request) : Program r.Answer :=
  .ask r fun
    | .ok a => .done a
    | .error e => .stop e

def fail (f : Failure) : Program α := .stop (.failure f)

def fault (f : Fault) : Program α := .stop (.fault f)

/-- Signals an error. -/
def signal (message : String) : Program α := fail (.user message)

/-- Signals an error unless the condition holds. -/
def require (condition : Bool) (message : String) : Program Unit :=
  if condition then .done () else signal message

/-- Goes on after a failure; what was done before it stays done. -/
def orElse : Program α → (Failure → Program α) → Program α
  | done a, _ => done a
  | stop (.failure f), h => h f
  | stop (.fault f), _ => stop (.fault f)
  | ask r next, h => ask r fun a => orElse (next a) h

end Program

end TrialLedger
