import TrialLedger.Text.Basic
import TrialLedger.Text.Fields

/-! Paths of files. A path is relative to a directory unless it starts from the root, and
`.` and `..` are resolved by name alone. It may be made of characters, or of the points of a text. -/

namespace TrialLedger.Path

/-- What paths are made of. -/
class Letter (α : Type) where
  ofChar : Char → α

instance : Letter Char := ⟨id⟩

instance : Letter Point := ⟨.char⟩

section

variable {α : Type} [DecidableEq α] [Letter α]

def stroke : α := Letter.ofChar '/'

def dot : α := Letter.ofChar '.'

def isAbsolute (path : List α) : Bool := path.head? = some stroke

/-- The path that a path stands for in a directory. -/
def join (directory path : List α) : List α :=
  if isAbsolute path then path
  else if directory = [] ∨ directory.getLast? = some stroke then directory ++ path
  else directory ++ stroke :: path

/-- Goes one part further, from parts that are given last first. From the root there is no way
up. -/
def step (absolute : Bool) (done : List (List α)) (part : List α) : List (List α) :=
  if part = [] ∨ part = [dot] then done
  else if part ≠ [dot, dot] then part :: done
  else match done with
    | [] => if absolute then [] else [part]
    | p :: r => if p = [dot, dot] then part :: done else r

/-- The parts of a path once it is resolved, last first. -/
def resolved (path : List α) : List (List α) :=
  (Text.fields stroke path).foldl (step (isAbsolute path)) []

/-- The last part of a path once it is resolved. The root has none, and a path that leads nowhere
is a dot. -/
def lastPart (path : List α) : List α :=
  match resolved path with
  | p :: _ => p
  | [] => if isAbsolute path then [] else [dot]

/-- What is written up to the last dot, if there is one. -/
def beforeLastDot (name : List α) : List α :=
  match name.reverse.dropWhile (· ≠ dot) with
  | [] => name
  | _ :: r => r.reverse

/-- A file name without its extension; dots at the start of a name begin none. -/
def stem (name : List α) : List α :=
  name.takeWhile (· = dot) ++ beforeLastDot (name.dropWhile (· = dot))

/-- The name of what a file holds: the file's name without its extension. -/
def fileStem (directory path : List α) : List α := stem (lastPart (join directory path))

end

/-- What follows the last stroke of a path, as it is written. -/
def baseName (path : String) : String :=
  String.ofList ((Text.fields '/' path.toList).getLast?.getD [])

/-- The directory of a file, from the root, for a path that is relative to `here`. -/
def directory (here path : String) : String :=
  match (resolved (join here.toList path.toList)).drop 1 with
  | [] => "/"
  | parts => String.ofList (parts.reverse.flatMap fun p => '/' :: p)

end TrialLedger.Path
