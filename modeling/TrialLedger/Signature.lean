import TrialLedger.Stop

/-! Signatures: how many operands a named operation takes. The first ones have to be there, and
the others may be left out from the end. -/

namespace TrialLedger

structure Signature where
  operation : String
  required : List String := []
  optional : List String := []
  deriving DecidableEq, Repr

namespace Signature

/-- Quoted names with commas and an "and" between them. -/
def enumeration (names : List String) : String :=
  match names.map Text.quote with
  | [] => ""
  | [a] => a
  | [a, b] => a ++ " and " ++ b
  | quoted => ", ".intercalate quoted.dropLast ++ ", and " ++ (quoted.getLast?.getD "")

def counted (n : Nat) (noun : String) : String :=
  toString n ++ " " ++ noun ++ (if n = 1 then "" else "s")

/-- What is said of too many operands. The owner of the operation counts as one. -/
def surplus (s : Signature) (count : Nat) : String :=
  let least := s.required.length + 1
  let most := least + s.optional.length
  let room := if s.optional.isEmpty then counted least "positional argument"
    else "from " ++ toString least ++ " to " ++ counted most "positional argument"
  s.operation ++ "() takes " ++ room ++ " but " ++ toString (count + 1) ++ " were given"

def lacking (s : Signature) (names : List String) : String :=
  s.operation ++ "() missing " ++ counted names.length "required positional argument" ++ ": " ++ enumeration names

/-- Refuses a number of operands. -/
def check (s : Signature) (count : Nat) : Except Fault Unit :=
  if s.required.length + s.optional.length < count then .error (.illTyped (s.surplus count))
  else if count < s.required.length then .error (.illTyped (s.lacking (s.required.drop count)))
  else .ok ()

end Signature

end TrialLedger
