import TrialLedger.Call
import TrialLedger.Status
import TrialLedger.Text.Shortest

/-! Values that contracts compute with and hand to the engine, and that reports show.
Which of them have an encoding is decided by the codec. -/

namespace TrialLedger

inductive Value where
  | nothing
  | bool (b : Bool)
  | int (n : Int)
  | float (x : Float)
  | text (s : String)
  | bytes (b : Bytes)
  | token (t : Token)
  | transfer (t : Transfer)
  /-- Outcome of a call. -/
  | result (status : Status) (message : Value) (data : List Bytes)
  | list (vs : List Value)
  | tuple (vs : List Value)
  | map (entries : List (Value × Value))
  /-- The call that contract code answers, of which nothing can be seen. -/
  | context
  deriving Inhabited

namespace Value

/-- The name that messages give to the type of a value. -/
def typeName : Value → String
  | nothing => "NoneType"
  | bool _ => "bool"
  | int _ => "int"
  | float _ => "float"
  | text _ => "str"
  | bytes _ => "bytes"
  | token _ => "TokenIdentifierOrNative"
  | transfer _ => "TokenTransfer"
  | result .. => "CallResult"
  | list _ => "list"
  | tuple _ => "tuple"
  | map _ => "dict"
  | context => "CallContext"

def transferMembers (t : Transfer) (separator : String) : String :=
  "token=" ++ t.token.shown ++ separator ++ "nonce=" ++ toString t.nonce ++ separator ++ "amount=" ++
    toString t.amount

def boolText (b : Bool) : String := if b then "True" else "False"

/-- The text of an outcome whose message is shown as given. -/
def resultText (status : Status) (message : String) (data : List Bytes) : String :=
  "CallResult(status=" ++ status.shown ++ ", message=" ++ message ++ ", return_data=[" ++
    ", ".intercalate (data.map Text.quoteBytes) ++ "])"

mutual

/-- A value as a part of another one: texts stand between quotes. -/
def shown : Value → String
  | nothing => "None"
  | bool b => boolText b
  | int n => toString n
  | float x => Text.Shortest.text x
  | text s => Text.quote s
  | bytes b => Text.quoteBytes b
  | token t => t.shown
  | transfer t => "TokenTransfer(" ++ transferMembers t ", " ++ ")"
  | result status message data => resultText status (shown message) data
  | list vs => "[" ++ ", ".intercalate (shownAll vs) ++ "]"
  | tuple [v] => "(" ++ shown v ++ ",)"
  | tuple vs => "(" ++ ", ".intercalate (shownAll vs) ++ ")"
  | map es => "\x7b" ++ ", ".intercalate (shownEntries es) ++ "\x7d"
  | context => "CallContext"

def shownAll : List Value → List String
  | [] => []
  | v :: r => shown v :: shownAll r

def shownEntries : List (Value × Value) → List String
  | [] => []
  | (k, v) :: r => (shown k ++ ": " ++ shown v) :: shownEntries r

end

/-- A value on its own: a text stands for itself. -/
def display : Value → String
  | text s => s
  | token t => t.text
  | transfer t => transferMembers t " "
  | v => v.shown

/-- False are nothing, zero, and what is empty. -/
def isTrue : Value → Bool
  | nothing => false
  | bool b => b
  | int n => n != 0
  | float x => x != 0
  | text s => !s.toList.isEmpty
  | bytes b => !b.isEmpty
  | token _ | transfer _ | result .. | context => true
  | list vs | tuple vs => !vs.isEmpty
  | map es => !es.isEmpty

end Value

end TrialLedger
