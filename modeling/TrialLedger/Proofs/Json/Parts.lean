import Mathlib
import TrialLedger.Json.Basic

/-! What stands in a value. -/

namespace TrialLedger.Json

/-- What stands in a value at any depth, the names of members among it. Null stands for what is left out, and
so in every value. -/
inductive Part : Json → Json → Prop
  | absent (j : Json) : Part j .null
  | here (j : Json) : Part j j
  | item {items : List Json} {i j : Json} (hi : i ∈ items) (h : Part i j) : Part (.list items) j
  | name {members : List (Text × Json)} {m : Text × Json} (hm : m ∈ members) : Part (.object members) (.text m.1)
  | value {members : List (Text × Json)} {m : Text × Json} {j : Json} (hm : m ∈ members) (h : Part m.2 j) :
    Part (.object members) j

theorem Part.of_null {j k : Json} (h : Part j k) (hj : j = .null) : k = .null := by
  cases h with
  | absent => rfl
  | here => exact hj
  | item | name | value => cases hj

theorem Part.trans {j k l : Json} (h : Part j k) (h' : Part k l) : Part j l := by
  induction h with
  | absent j => exact h'.of_null rfl ▸ .absent j
  | here j => exact h'
  | item hi h ih => exact .item hi (ih h')
  | name hm =>
    cases h' with
    | absent => exact .absent _
    | here => exact .name hm
  | value hm h ih => exact .value hm (ih h')

theorem areWritable_iff {items : List Json} : areWritable items = true ↔ ∀ j ∈ items, j.isWritable = true := by
  induction items with
  | nil => simp [areWritable]
  | cons j r ih => rw [areWritable, Bool.and_eq_true, ih, List.forall_mem_cons]

theorem membersAreWritable_iff {members : List (Text × Json)} :
    membersAreWritable members = true ↔ ∀ m ∈ members, m.2.isWritable = true := by
  induction members with
  | nil => simp [membersAreWritable]
  | cons m r ih => rw [membersAreWritable, Bool.and_eq_true, ih, List.forall_mem_cons]

/-- The parts of a value that can be written can be written. -/
theorem Part.isWritable {j k : Json} (h : Part j k) (hj : j.isWritable = true) : k.isWritable = true := by
  induction h with
  | absent => rfl
  | here => exact hj
  | item hi h ih => exact ih (areWritable_iff.1 hj _ hi)
  | name => rfl
  | value hm h ih => exact ih (membersAreWritable_iff.1 hj _ hm)

theorem Part.member {j : Json} {members : List (Text × Json)} (h : j.Part (.object members)) {name : String}
    {v : Json} (hv : member? members name = some v) : j.Part v := by
  obtain ⟨before, after, hmembers, -⟩ := List.lookup_eq_some_iff.1 hv
  have hmem : (.plain name, v) ∈ members := hmembers ▸ List.mem_append_right before List.mem_cons_self
  exact h.trans (.value hmem (.here v))

theorem Part.getD_member {j : Json} {members : List (Text × Json)} (h : j.Part (.object members)) (name : String) :
    j.Part ((member? members name).getD .null) := by
  cases hv : member? members name with
  | none => exact .absent j
  | some v => exact h.member hv

end TrialLedger.Json
