import TrialLedger.Settings
import TrialLedger.Text.Integer

/-! Options of the command line. An option may be written with its value after an equals
sign, or cut short as long as no other option begins the same way. A word that begins with a
minus is no value, unless it is a number or holds a blank. -/

namespace TrialLedger

structure Options where
  /-- Scenario files, in the order in which they run. -/
  scenarios : List String := []
  /-- Where the contracts come from, as a collection and an entry of it. -/
  contracts : Option String := none
  strict : Bool := false
  /-- Where the hashes of the last scenario go. -/
  outputHashes : Option String := none
  defaultGasLimit : Int := ({} : Settings).defaultGasLimit
  logLevel : String := "WARNING"

namespace Options

inductive Refusal where
  /-- Only a description of the options was asked for. -/
  | help
  | misused
  deriving DecidableEq, Repr

/-- What an option does with the options read before it. -/
inductive Effect where
  | help
  | flag (set : Options → Options)
  | value (set : String → Options → Option Options)

/-- Every option with its effect. -/
def table : List (String × Effect) := [
  ("-h", .help),
  ("--help", .help),
  ("--scenario", .value fun v o => some { o with scenarios := o.scenarios ++ [v] }),
  ("--contracts", .value fun v o => some { o with contracts := some v }),
  ("--strict", .flag fun o => { o with strict := true }),
  ("--output-hashes", .value fun v o => some { o with outputHashes := some v }),
  ("--default-gas-limit", .value fun v o =>
    (Text.readGrouped? v.toList).map fun n => { o with defaultGasLimit := n }),
  ("--log-level", .value fun v o => some { o with logLevel := v })]

/-! ### Words -/

inductive Word where
  | value (s : String)
  | option (effect : Effect) (attached : Option String)
  | stranger

/-- A text without the line end that it ends in, if it does. -/
def withoutLineEnd (cs : List Char) : List Char := if cs.getLast? = some '\n' then cs.dropLast else cs

/-- A minus, then digits, or digits around a point, and possibly a line end. -/
def isNegativeNumber : List Char → Bool
  | '-' :: r =>
    let isDigit := fun c => (Text.digitValue? c).isSome
    match Text.fields '.' (withoutLineEnd r) with
    | [whole] => !whole.isEmpty && whole.all isDigit
    | [whole, fraction] => whole.all isDigit && !fraction.isEmpty && fraction.all isDigit
    | _ => false
  | _ => false

/-- The part of a word before its first equals sign, and the part after it. -/
def splitEquals (cs : List Char) : String × Option String :=
  match cs.dropWhile (· ≠ '=') with
  | [] => (String.ofList cs, none)
  | _ :: r => (String.ofList (cs.takeWhile (· ≠ '=')), some (String.ofList r))

/-- The options that a word may be a short form of, with what is attached to them. The option of one
letter may be repeated in one word, but it takes no other letters with it. -/
def candidates (cs : List Char) : List (Effect × Option String) :=
  match cs with
  | '-' :: '-' :: _ =>
    let (name, attached) := splitEquals cs
    (table.filter fun t => name.toList.isPrefixOf t.1.toList).map fun t => (t.2, attached)
  | '-' :: 'h' :: r => [(.help, if r.all (· = 'h') then none else some (String.ofList r))]
  | _ => []

/-- What a word is. A word that may be short for several options is misused. -/
def classify (s : String) : Except Refusal Word :=
  let cs := s.toList
  let (name, attached) := splitEquals cs
  if cs.head? ≠ some '-' ∨ cs = ['-'] then .ok (.value s)
  else match table.lookup s, table.lookup name with
    | some effect, _ => .ok (.option effect none)
    | none, some effect => .ok (.option effect attached)
    | none, none =>
      match candidates cs with
      | [(effect, attached)] => .ok (.option effect attached)
      | _ :: _ :: _ => .error .misused
      | [] => .ok (if isNegativeNumber cs || cs.contains ' ' then .value s else .stranger)

/-- The words of a command line; after two minuses all words are values. -/
def words : List String → Except Refusal (List Word)
  | [] => .ok []
  | s :: r =>
    if s = "--" then .ok (.stranger :: r.map .value)
    else do
      let w ← classify s
      return w :: (← words r)

/-! ### Reading -/

/-- Takes words in order. Words that belong to no option are passed over, and the answer tells
whether there was one. -/
def take (o : Options) (strangers : Bool) : List Word → Except Refusal (Options × Bool)
  | [] => .ok (o, strangers)
  | .value _ :: r | .stranger :: r => take o true r
  | .option .help none :: _ => .error .help
  | .option .help (some _) :: _ => .error .misused
  | .option (.flag set) none :: r => take (set o) strangers r
  | .option (.flag _) (some _) :: _ => .error .misused
  | .option (.value set) (some v) :: r =>
    match set v o with
    | some o => take o strangers r
    | none => .error .misused
  | .option (.value set) none :: .value v :: r =>
    match set v o with
    | some o => take o strangers r
    | none => .error .misused
  | .option (.value _) none :: _ => .error .misused

/-- Reads a command line. At least one scenario and the contracts have to be named, and no word
may be left. -/
def ofWords (args : List String) : Except Refusal Options := do
  let (o, strangers) ← take {} false (← words args)
  if strangers ∨ o.scenarios = [] ∨ o.contracts = none then .error .misused else .ok o

end Options

end TrialLedger
