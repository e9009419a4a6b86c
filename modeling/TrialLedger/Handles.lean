import TrialLedger.Action
import TrialLedger.Table
import TrialLedger.Key

/-! Handle tables. Contract code names values of its host by small numbers; each frame
has a table of its own, which is released when the frame ends. The host allocates numbers
alone, yet a value of any type may be asked for as a handle. -/

namespace TrialLedger

structure HandleTable where
  owner : String
  values : Table Key Value := Table.empty
  next : Int := 1
  released : Bool := false

namespace HandleTable

def checkLive : Action HandleTable Unit := fun t =>
  if t.released then (.error (.fault (.releasedHandles t.owner)), t) else (.ok (), t)

/-- Stores a value under the next handle. -/
def new (v : Value) : Action HandleTable Int := do
  checkLive
  fun t => (.ok t.next, { t with next := t.next + 1, values := t.values.put (.number t.next) v })

def store (handle : Key) (v : Value) : Action HandleTable Unit := do
  checkLive
  Action.modify fun t => { t with values := t.values.put handle v }

/-- The value under a handle, which a message about its absence calls by the given name. -/
def load (handle : Key) (name : String) : Action HandleTable Value := do
  checkLive
  fun t => match t.values.get? handle with
    | some v => (.ok v, t)
    | none => (.error (.fault (.unknownHandle name t.owner)), t)

def set (handle : Int) (v : Value) : Action HandleTable Unit := store (.number handle) v

def get (handle : Int) : Action HandleTable Value := load (.number handle) (toString handle)

def contains (t : HandleTable) (handle : Key) : Bool := !t.released && t.values.contains handle

/-- Forgets all values for good. -/
def release (t : HandleTable) : HandleTable := { t with values := Table.empty, released := true }

def size (t : HandleTable) : Nat := t.values.entries.length

/-! ### Handles of any type -/

def handleOf (v : Value) : Action HandleTable Key := do
  checkLive
  Action.ofExcept ((Key.ofValue v).mapError .fault)

def storeAt (handle v : Value) : Action HandleTable Unit := do store (← handleOf handle) v

def loadAt (handle : Value) : Action HandleTable Value := do load (← handleOf handle) handle.display

def holds (handle : Value) : Action HandleTable Bool := fun t =>
  if t.released then (.ok false, t)
  else match Key.ofValue handle with
    | .ok h => (.ok (t.contains h), t)
    | .error f => (.error (.fault f), t)

end HandleTable

end TrialLedger
