import TrialLedger.Json.Basic
import TrialLedger.Text.Quoted

/-! JSON text in ASCII. A blank follows each comma and each colon. -/

namespace TrialLedger.Json

/-- The escape of a number below 65536. -/
def escapeUnit (n : Nat) : List Char := '\\' :: 'u' :: Text.hexPadded 4 n

/-- A character inside a JSON text; one beyond the first plane takes two escapes. -/
def escape (c : Char) : List Char :=
  if c = '"' then ['\\', '"']
  else if c = '\\' then ['\\', '\\']
  else if c = '\n' then ['\\', 'n']
  else if c = '\r' then ['\\', 'r']
  else if c = '\t' then ['\\', 't']
  else if c = '\x0c' then ['\\', 'f']
  else if c = '\x08' then ['\\', 'b']
  else if 0x20 ≤ c.toNat ∧ c.toNat < 0x7f then [c]
  else if c.toNat < 0x10000 then escapeUnit c.toNat
  else escapeUnit (0xd800 + (c.toNat - 0x10000) / 0x400) ++ escapeUnit (0xdc00 + (c.toNat - 0x10000) % 0x400)

def escapePoint : Point → List Char
  | .char c => escape c
  | p => escapeUnit p.code

def quoted (t : Text) : List Char := '"' :: t.points.flatMap escapePoint ++ ['"']

/-- Parts with a comma and a blank between them. -/
def separated : List (List Char) → List Char
  | [] => []
  | [p] => p
  | p :: r => p ++ ',' :: ' ' :: separated r

def floatText (x : Float) : String :=
  if x.isNaN then "NaN" else if x.isInf then (if x < 0 then "-Infinity" else "Infinity")
  else Text.Shortest.text x

mutual

def chars : Json → List Char
  | null => "null".toList
  | bool b => (if b then "true" else "false").toList
  | int n => (toString n).toList
  | float x => (floatText x).toList
  | text t => quoted t
  | list items => '[' :: separated (itemChars items) ++ [']']
  | object members => '\x7b' :: separated (memberChars members) ++ ['\x7d']

def itemChars : List Json → List (List Char)
  | [] => []
  | j :: r => chars j :: itemChars r

def memberChars : List (Text × Json) → List (List Char)
  | [] => []
  | (k, j) :: r => (quoted k ++ ':' :: ' ' :: chars j) :: memberChars r

end

def print (j : Json) : String := String.ofList j.chars

end TrialLedger.Json
