/-! Cutting a text: the part after a word at its start, and the fields between
separators. A text without a separator is one field, and so is the empty text. -/

namespace TrialLedger.Text

variable {α : Type} [DecidableEq α]

/-- What follows a word at the start. -/
def rest? (word xs : List α) : Option (List α) :=
  if word.isPrefixOf xs then some (xs.drop word.length) else none

/-- The rest of a text after a word at its start. -/
def after? (word : String) (cs : List Char) : Option (List Char) := rest? word.toList cs

/-- Puts a character in front of the first field. -/
def consField (c : α) : List (List α) → List (List α)
  | [] => [[c]]
  | f :: r => (c :: f) :: r

def fields (separator : α) : List α → List (List α)
  | [] => [[]]
  | c :: r => if c = separator then [] :: fields separator r else consField c (fields separator r)

theorem fields_of_not_mem {separator : α} {cs : List α} (h : separator ∉ cs) :
    fields separator cs = [cs] := by
  induction cs with
  | nil => rfl
  | cons c r ih =>
    simp only [List.mem_cons, not_or] at h
    simp [fields, Ne.symm h.1, ih h.2, consField]

theorem fields_append {separator : α} {cs : List α} (h : separator ∉ cs) (r : List α) :
    fields separator (cs ++ separator :: r) = cs :: fields separator r := by
  induction cs with
  | nil => simp [fields]
  | cons c s ih =>
    simp only [List.mem_cons, not_or] at h
    simp [fields, Ne.symm h.1, ih h.2, consField]

end TrialLedger.Text
