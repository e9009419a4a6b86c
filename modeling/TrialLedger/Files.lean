import TrialLedger.Text.Fields
import TrialLedger.Text.Quoted
import TrialLedger.Text.Utf8

/-! Files: why one cannot be opened, what is asked of them, and a folder that is kept in memory.
A path is walked part by part, so that the first part that leads nowhere decides. -/

namespace TrialLedger

namespace Files

inductive Error where
  | notFound
  | notDirectory
  | isDirectory
  | longName
  | nullCharacter
  deriving DecidableEq, Repr

namespace Error

/-- Whether the system refuses the path, with a number and a reason of its own. -/
def isSystems : Error → Bool
  | nullCharacter => false
  | _ => true

def number : Error → Nat
  | notFound => 2
  | notDirectory => 20
  | isDirectory => 21
  | longName => 36
  | nullCharacter => 0

def reason : Error → String
  | notFound => "No such file or directory"
  | notDirectory => "Not a directory"
  | isDirectory => "Is a directory"
  | longName => "File name too long"
  | nullCharacter => "embedded null byte"

/-- The name under which an error is shown. -/
def label : Error → String
  | notFound => "FileNotFoundError"
  | notDirectory => "NotADirectoryError"
  | isDirectory => "IsADirectoryError"
  | longName => "OSError"
  | nullCharacter => "ValueError"

def message (e : Error) (path : String) : String :=
  if e.isSystems then "[Errno " ++ toString e.number ++ "] " ++ e.reason ++ ": " ++ Text.quote path else e.reason

end Error

end Files

/-- Files that hold something readable, and that texts can be written to. -/
structure Files (m : Type → Type) (α : Type) where
  read : String → m (Except Files.Error α)
  write : String → String → m (Except Files.Error Unit)

/-! ### A folder in memory -/

/-- Files by name, all of them in the directory that paths start from. -/
structure Folder (α : Type) where
  files : List (String × α)

namespace Folder

variable {α : Type}

/-- Where a path leads: to the folder itself, to somewhere outside it, or to a file. -/
inductive Place where
  | here
  | outside
  | file (name : String)
  deriving DecidableEq, Repr

def longestName : Nat := 255

def longestPath : Nat := 4095

def isLong (limit : Nat) (s : String) : Bool := limit < (Utf8.encode s).length

/-- Goes one part further. A file leads nowhere, and outside nothing is known but directories. -/
def enter (f : Folder α) (part : String) : Place → Except Files.Error Place
  | .file _ => .error .notDirectory
  | p =>
    if part = "" ∨ part = "." then .ok p
    else if part = ".." then .ok .outside
    else if isLong longestName part then .error .longName
    else if p = .here ∧ (f.files.lookup part).isSome then .ok (.file part)
    else .error .notFound

def walk (f : Folder α) (start : Place) (parts : List String) : Except Files.Error Place :=
  parts.foldlM (fun p part => f.enter part p) start

/-- The parts of a path and where they start from, unless no path is written like that. -/
def parts (path : String) : Except Files.Error (Place × List String) :=
  if path.toList.contains '\x00' then .error .nullCharacter
  else if path = "" then .error .notFound
  else if isLong longestPath path then .error .longName
  else .ok (if path.toList.head? = some '/' then .outside else .here, (Text.fields '/' path.toList).map String.ofList)

def read (f : Folder α) (path : String) : Except Files.Error α := do
  let (start, ps) ← parts path
  match ← f.walk start ps with
  | .file name =>
    match f.files.lookup name with
    | some a => .ok a
    | none => .error .notFound
  | _ => .error .isDirectory

/-- Parts without the empty ones at their end. -/
def trimmed (parts : List String) : List String := (parts.reverse.dropWhile (· = "")).reverse

/-- The file that is written to under a path; what is written outside the folder is out of sight.
A path that ends in a stroke or in dots names a directory. -/
def target (f : Folder α) (path : String) : Except Files.Error (Option String) := do
  let (start, ps) ← parts path
  let named := trimmed ps
  match ← f.walk start named.dropLast with
  | .file _ => .error .notDirectory
  | p =>
    let last := named.getLast?.getD ""
    if named ≠ ps ∨ last = "." ∨ last = ".." then .error .isDirectory
    else if isLong longestName last then .error .longName
    else .ok (if p = .here then some last else none)

def put (f : Folder α) (name : String) (a : α) : Folder α := ⟨(name, a) :: f.files⟩

/-- The files of a folder that changes as it is written to. -/
def access (ofText : String → α) : Files (StateM (Folder α)) α where
  read path := do return (← get).read path
  write path text := do
    match (← get).target path with
    | .error e => return .error e
    | .ok none => return .ok ()
    | .ok (some name) =>
      modify fun f => f.put name (ofText text)
      return .ok ()

end Folder

end TrialLedger
