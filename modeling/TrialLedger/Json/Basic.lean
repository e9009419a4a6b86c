import TrialLedger.Value
import TrialLedger.Table
import TrialLedger.Text.Basic
import TrialLedger.Text.Integer

/-! JSON values. Whole numbers are kept apart from numbers with a fraction or an
exponent, and the members of an object keep their order. -/

namespace TrialLedger

inductive Json where
  | null
  | bool (b : Bool)
  | int (n : Int)
  | float (x : Float)
  | text (t : Text)
  | list (items : List Json)
  | object (members : List (Text × Json))
  deriving Inhabited

namespace Json

/-- The name that messages give to the type of a value. -/
def typeName : Json → String
  | null => "NoneType"
  | bool _ => "bool"
  | int _ => "int"
  | float _ => "float"
  | text _ => "str"
  | list _ => "list"
  | object _ => "dict"

mutual

/-- A value as a part of another one: texts stand between quotes. -/
def shown : Json → String
  | null => "None"
  | bool b => Value.boolText b
  | int n => toString n
  | float x => Text.Shortest.text x
  | text t => t.quoted
  | list items => "[" ++ ", ".intercalate (shownItems items) ++ "]"
  | object members => "\x7b" ++ ", ".intercalate (shownMembers members) ++ "\x7d"

def shownItems : List Json → List String
  | [] => []
  | j :: r => shown j :: shownItems r

def shownMembers : List (Text × Json) → List String
  | [] => []
  | (k, j) :: r => (k.quoted ++ ": " ++ shown j) :: shownMembers r

end

/-- A value on its own: a text stands for itself. -/
def display : Json → Text
  | text t => t
  | j => j.shown

mutual

/-- Whether all numbers of a value are short enough to be written. -/
def isWritable : Json → Bool
  | int n => Text.isWritable n
  | list items => areWritable items
  | object members => membersAreWritable members
  | _ => true

def areWritable : List Json → Bool
  | [] => true
  | j :: r => isWritable j && areWritable r

def membersAreWritable : List (Text × Json) → Bool
  | [] => true
  | (_, j) :: r => isWritable j && membersAreWritable r

end

def isNull : Json → Bool
  | null => true
  | _ => false

def isText (j : Json) (s : String) : Bool :=
  match j with
  | text t => t == .plain s
  | _ => false

/-- The value of a member. -/
def member? (members : List (Text × Json)) (name : String) : Option Json :=
  members.lookup (.plain name)

/-- Members of which the last one of a name counts, at the place of the first. -/
def distinct (members : List (Text × Json)) : List (Text × Json) :=
  members.foldl (fun l (k, v) => Table.putEntry k v l) []

/-- An object whose members have plain names. -/
def record (members : List (String × Json)) : Json := object (members.map fun m => (.plain m.1, m.2))

end Json

end TrialLedger
