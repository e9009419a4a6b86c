import TrialLedger.Issue
import TrialLedger.Json.Basic

/-! Shapes of records. A shape lists the members that a record may have, each with its
spellings, and reads them. Everything that is wrong with a record is reported: first the
members of the shape in its order, then the members that the shape does not know, in the
order in which they stand. A record with a ragged name is not looked at any further. Keys of maps may
be ragged; the places of what is wrong under them are told without the surrogates. -/

namespace TrialLedger.Fixture

/-! ### Results with all that is wrong -/

def Checked (α : Type) : Type := Except (List Issue) α

namespace Checked

variable {α β : Type}

def ok (a : α) : Checked α := Except.ok a

def bad (issues : List Issue) : Checked α := Except.error issues

/-- Applies a result to another one; what is wrong with both is kept. -/
def apply : Checked (α → β) → Checked α → Checked β
  | .ok f, .ok a => .ok (f a)
  | .ok _, .error js => .error js
  | .error is, .ok _ => .error is
  | .error is, .error js => .error (is ++ js)

instance : Applicative Checked where
  pure := ok
  seq f x := apply f (x ())

/-- The result of reading what stands under a name or a position. -/
def under (step : String) : Checked α → Checked α
  | .ok a => .ok a
  | .error issues => .error (issues.map (Issue.under step))

def issue (p : Problem) : Checked α := bad [⟨[], p⟩]

end Checked

/-! ### Values -/

def anyValue (j : Json) : Checked Json := .ok j

def textValue : Json → Checked Text
  | .text t => .ok t
  | _ => .issue .notText

/-- Words that stand for true and for false; the case of their letters does not count. -/
def flagWords : List (String × Bool) := [
  ("0", false), ("off", false), ("f", false), ("false", false), ("n", false), ("no", false),
  ("1", true), ("on", true), ("t", true), ("true", true), ("y", true), ("yes", true)]

/-- A flag, which may also be one of the words, or zero or one. A whole number in eight bytes is
called unclear, and any other number is called no flag. -/
def flagValue : Json → Checked Bool
  | .bool b => .ok b
  | .int n =>
    if n = 0 then .ok false else if n = 1 then .ok true
    else if -2 ^ 63 ≤ n ∧ n < 2 ^ 63 then .issue .unclearFlag else .issue .notFlag
  | .float x =>
    if x == 0 then .ok false else if x == 1 then .ok true
    else if x.floor == x && x.abs < 9223372036854775808.0 then .issue .unclearFlag else .issue .notFlag
  | .text (.plain s) =>
    match flagWords.lookup (s.map Char.toLower) with
    | some b => .ok b
    | none => .issue .unclearFlag
  | .text (.ragged _) => .issue .brokenText
  | _ => .issue .notFlag

/-- A value that may be null. -/
def nullable {α : Type} (read : Json → Checked α) : Json → Checked (Option α)
  | .null => .ok none
  | j => some <$> read j

def itemsFrom {α : Type} (read : Json → Checked α) (i : Nat) : List Json → Checked (List α)
  | [] => .ok []
  | j :: r => List.cons <$> (read j).under (toString i) <*> itemsFrom read (i + 1) r

def listValue {α : Type} (read : Json → Checked α) : Json → Checked (List α)
  | .list items => itemsFrom read 0 items
  | _ => .issue .notList

def entriesOf {α : Type} (read : Json → Checked α) : List (Text × Json) → Checked (List (Text × α))
  | [] => .ok []
  | (k, j) :: r => (fun a l => (k, a) :: l) <$> (read j).under k.lossy <*> entriesOf read r

def mapValue {α : Type} (read : Json → Checked α) : Json → Checked (List (Text × α))
  | .object members => entriesOf read members
  | _ => .issue .notMap

/-! ### Records -/

def namesArePlain (members : List (Text × Json)) : Bool := members.all fun m => m.1.plain?.isSome

/-- The member that stands under the first of several spellings. -/
def spelled? (members : List (Text × Json)) (spellings : List String) : Option (String × Json) :=
  spellings.findSome? fun name => (Json.member? members name).map fun j => (name, j)

structure Shape (α : Type) where
  /-- The spellings of each member. -/
  spellings : List (List String)
  read : List (Text × Json) → Checked α

namespace Shape

variable {α β : Type}

instance : Applicative Shape where
  pure a := ⟨[], fun _ => .ok a⟩
  seq f x := ⟨f.spellings ++ (x ()).spellings, fun members => f.read members <*> (x ()).read members⟩

def field (spellings : List String) (absent : Checked α) (read : Json → Checked α) : Shape α where
  spellings := [spellings]
  read members :=
    match spelled? members spellings with
    | some (name, j) => (read j).under name
    | none => absent

/-- A member that may be left out. -/
def optional (spellings : List String) (default : α) (read : Json → Checked α) : Shape α :=
  field spellings (.ok default) read

/-- A member that has to be there. -/
def required (spellings : List String) (read : Json → Checked α) : Shape α :=
  field spellings (.under (spellings.headD "") (.issue .missing)) read

/-- A literal that may be left out. -/
def literal (spellings : List String) : Shape Json := optional spellings .null anyValue

/-- A remark, which nothing depends on. -/
def remark (spellings : List String) : Shape (Option Text) := optional spellings none (nullable textValue)

/-- The names that the shape takes from a record; a second spelling of a member is not one. -/
def taken (s : Shape α) (members : List (Text × Json)) : List Text :=
  s.spellings.filterMap fun names => (spelled? members names).map fun m => .plain m.1

/-- The members that the shape does not know. -/
def strangers (s : Shape α) (members : List (Text × Json)) : List (Text × Json) :=
  members.filter fun m => !(s.taken members).contains m.1

def known (s : Shape α) (members : List (Text × Json)) : Checked Unit :=
  match s.strangers members with
  | [] => .ok ()
  | ms => .bad (ms.map fun m => ⟨[m.1.lossy], .extraForbidden⟩)

/-- Reads the members of a record and refuses all others. -/
def ofMembers (s : Shape α) (members : List (Text × Json)) : Checked α :=
  if namesArePlain members then s.read members <* s.known members else .issue .brokenText

/-- Reads a record of the named model. -/
def record (model : String) (s : Shape α) : Json → Checked α
  | .object members => s.ofMembers members
  | _ => .issue (.notRecord model)

end Shape

end TrialLedger.Fixture
