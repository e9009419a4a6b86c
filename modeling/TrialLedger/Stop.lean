import TrialLedger.Codec
import TrialLedger.Failure

/-! Reasons for which a computation stops. A failure is part of the game: it undoes
one frame. A fault is a mistake in a contract or in its use, and it ends the whole
transaction without a result. -/

namespace TrialLedger

inductive Fault where
  | releasedHandles (owner : String)
  | unknownHandle (handle : String) (owner : String)
  | transferIndex (index : String) (count : Nat)
  | unencodable (e : Codec.Unencodable)
  | engineBusy
  | invalidText (bytes : Bytes) (place : Utf8.Invalid)
  | invalidTransfer (issues : List Issue)
  | illTyped (message : String)
  /-- A mistake with a name and a cause of its own, and the way in which the cause is shown. -/
  | thrown (label message shown : String)
  deriving DecidableEq, Repr

namespace Fault

def raised (label message : String) : Fault := .thrown label message (Text.quote message)

/-- A part that a value does not have. -/
def noAttribute (typeName name : String) : Fault :=
  raised "AttributeError" ("'" ++ typeName ++ "' object has no attribute " ++ Text.quote name)

/-- The name under which a fault is shown. -/
def label : Fault → String
  | releasedHandles _ => "ReleasedHandleError"
  | unknownHandle .. => "KeyError"
  | transferIndex .. => "IndexError"
  | unencodable _ | illTyped _ => "TypeError"
  | engineBusy => "RuntimeError"
  | invalidText .. => "UnicodeDecodeError"
  | invalidTransfer _ => "ValidationError"
  | thrown label .. => label

def message : Fault → String
  | releasedHandles owner => "handle table of frame " ++ owner ++ " already released"
  | unknownHandle handle owner => "unknown handle " ++ handle ++ " in frame " ++ owner
  | transferIndex index count =>
    "transfer index " ++ index ++ " out of range [0, " ++ toString count ++ ")"
  | unencodable e => e.message
  | engineBusy => "engine is already executing a transaction"
  | invalidText _ place => place.flaw.message
  | invalidTransfer issues => Issue.headline Transfer.model issues
  | illTyped message | thrown _ message _ => message

def shown : Fault → String
  | invalidText bytes place =>
    "UnicodeDecodeError('utf-8', " ++ Text.quoteBytes bytes ++ ", " ++ toString place.start ++ ", " ++
      toString place.stop ++ ", " ++ Text.quote place.flaw.message ++ ")"
  | invalidTransfer issues => Issue.headline Transfer.model issues
  | thrown label _ shown => label ++ "(" ++ shown ++ ")"
  | f => f.label ++ "(" ++ Text.quote f.message ++ ")"

end Fault

inductive Stop where
  | failure (f : Failure)
  | fault (f : Fault)

def Stop.shown : Stop → String
  | failure f => f.shown
  | fault f => f.shown

end TrialLedger
