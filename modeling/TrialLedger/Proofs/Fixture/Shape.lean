import Mathlib.Logic.Relator
import TrialLedger.Fixture.Shape

/-! Shapes of records, where the JSON that is read changes in a single place. A record that gains a member of
an unknown name is refused. One that changes under a name it knows is read the same but for that member, so
what becomes of the member is all that has to be told. -/

namespace TrialLedger

/-- Two lists that differ in one item. -/
inductive Altered {α : Type} (R : α → α → Prop) : List α → List α → Prop
  | intro (before after : List α) {a b : α} (h : R a b) : Altered R (before ++ a :: after) (before ++ b :: after)

theorem Altered.cons {α : Type} {R : α → α → Prop} {l l' : List α} (h : Altered R l l') (a : α) :
    Altered R (a :: l) (a :: l') := by
  obtain ⟨before, after, hR⟩ := h
  exact .intro (a :: before) after hR

/-- Two entries with one of the given keys. -/
inductive SameKey {α : Type} (keys : Text → Prop) (R : α → α → Prop) : Text × α → Text × α → Prop
  | intro {k : Text} (hk : keys k) {a b : α} (h : R a b) : SameKey keys R (k, a) (k, b)

namespace Json

/-! ### Changes -/

/-- An object and the same with one more member, of a name that is not known. -/
inductive Extended (known : List String) : Json → Json → Prop
  | intro (before after : List (Text × Json)) (name : Text) (j : Json) (h : name ∉ known.map Text.plain) :
    Extended known (.object (before ++ after)) (.object (before ++ (name, j) :: after))

/-- Two objects that differ in what is found under one of the given names, where it stands first. -/
inductive AtMember (names : List String) (R : Json → Json → Prop) : Json → Json → Prop
  | intro (before after : List (Text × Json)) {name : String} {j j' : Json}
      (hname : name ∈ names) (hfirst : ∀ m ∈ before, m.1 ≠ .plain name) (h : R j j') :
    AtMember names R (.object (before ++ (.plain name, j) :: after)) (.object (before ++ (.plain name, j') :: after))

/-- Two lists that differ in one item. -/
inductive AtItem (R : Json → Json → Prop) : Json → Json → Prop
  | intro {items items' : List Json} (h : Altered R items items') : AtItem R (.list items) (.list items')

/-- Two maps that differ in the value of one of the given keys. -/
inductive AtEntry (keys : Text → Prop) (R : Json → Json → Prop) : Json → Json → Prop
  | intro {entries entries' : List (Text × Json)} (h : Altered (SameKey keys R) entries entries') :
    AtEntry keys R (.object entries) (.object entries')

theorem member?_insert_other {before after : List (Text × Json)} {name : Text} {n : String} (j : Json)
    (hn : .plain n ≠ name) : member? (before ++ (name, j) :: after) n = member? (before ++ after) n := by
  have hbeq : (Text.plain n == name) = false := beq_false_of_ne hn
  simp [member?, List.lookup_append, List.lookup_cons, hbeq]

theorem member?_append_other {before after : List (Text × Json)} {name : Text} {n : String} (j j' : Json)
    (hn : .plain n ≠ name) : member? (before ++ (name, j') :: after) n = member? (before ++ (name, j) :: after) n := by
  rw [member?_insert_other j' hn, member?_insert_other j hn]

theorem member?_append_self {before : List (Text × Json)} {name : String}
    (hfirst : ∀ m ∈ before, m.1 ≠ .plain name) (after : List (Text × Json)) (j : Json) :
    member? (before ++ (.plain name, j) :: after) name = some j := by
  have hnone : before.lookup (.plain name) = none := List.lookup_eq_none_iff.2 fun m hm => by
    simpa using (hfirst m hm).symm
  simp [member?, List.lookup_append, hnone]

end Json

namespace Fixture

open Json

/-! ### Results with all that is wrong -/

namespace Checked

variable {α β : Type}

theorem seq_eq_ok {f : Checked (α → β)} {x : Checked α} {b : β} :
    f <*> x = .ok b ↔ ∃ g a, f = .ok g ∧ x = .ok a ∧ g a = b := by
  constructor
  · intro h
    cases f with
    | ok g =>
      cases x with
      | ok a => exact ⟨g, a, rfl, rfl, Except.ok.inj h⟩
      | error js => cases h
    | error is => cases x <;> cases h
  · rintro ⟨g, a, rfl, rfl, rfl⟩
    rfl

theorem map_eq_ok {f : α → β} {x : Checked α} {b : β} : f <$> x = .ok b ↔ ∃ a, x = .ok a ∧ f a = b := by
  change (ok f : Checked (α → β)) <*> x = .ok b ↔ _
  rw [seq_eq_ok]
  constructor
  · rintro ⟨_, a, ⟨⟩, ha, h⟩
    exact ⟨a, ha, h⟩
  · rintro ⟨a, ha, h⟩
    exact ⟨f, a, rfl, ha, h⟩

theorem seqLeft_eq_ok {x : Checked α} {y : Checked β} {a : α} : x <* y = .ok a ↔ x = .ok a ∧ ∃ b, y = .ok b := by
  change Function.const β <$> x <*> y = .ok a ↔ _
  simp only [seq_eq_ok, map_eq_ok]
  constructor
  · rintro ⟨_, b, ⟨a, ha, rfl⟩, hb, rfl⟩
    exact ⟨ha, b, hb⟩
  · rintro ⟨ha, b, hb⟩
    exact ⟨_, b, ⟨a, ha, rfl⟩, hb, rfl⟩

theorem under_eq_ok {step : String} {x : Checked α} {a : α} : x.under step = .ok a ↔ x = .ok a := by
  cases x with
  | ok b => exact Iff.rfl
  | error issues => exact ⟨nofun, nofun⟩

end Checked

section Values

variable {α : Type} {read : Json → Checked α}

theorem itemsFrom_cons {j : Json} {r : List Json} {i : Nat} {l : List α} :
    itemsFrom read i (j :: r) = .ok l ↔
      ∃ a rest, read j = .ok a ∧ itemsFrom read (i + 1) r = .ok rest ∧ l = a :: rest := by
  simp only [itemsFrom, Checked.seq_eq_ok, Checked.map_eq_ok, Checked.under_eq_ok]
  constructor
  · rintro ⟨_, rest, ⟨a, ha, rfl⟩, hrest, rfl⟩
    exact ⟨a, rest, ha, hrest, rfl⟩
  · rintro ⟨a, rest, ha, hrest, rfl⟩
    exact ⟨_, rest, ⟨a, ha, rfl⟩, hrest, rfl⟩

theorem entriesOf_cons {k : Text} {j : Json} {r : List (Text × Json)} {l : List (Text × α)} :
    entriesOf read ((k, j) :: r) = .ok l ↔
      ∃ a rest, read j = .ok a ∧ entriesOf read r = .ok rest ∧ l = (k, a) :: rest := by
  simp only [entriesOf, Checked.seq_eq_ok, Checked.map_eq_ok, Checked.under_eq_ok]
  constructor
  · rintro ⟨_, rest, ⟨a, ha, rfl⟩, hrest, rfl⟩
    exact ⟨a, rest, ha, hrest, rfl⟩
  · rintro ⟨a, rest, ha, hrest, rfl⟩
    exact ⟨_, rest, ⟨a, ha, rfl⟩, hrest, rfl⟩

end Values

/-- Where two values that are related by `R` are both read, the results are related by `S`. -/
def Carries {α : Type} (read : Json → Checked α) (R : Json → Json → Prop) (S : α → α → Prop) : Prop :=
  ∀ ⦃j j' a a'⦄, R j j' → read j = .ok a → read j' = .ok a' → S a a'

/-- The second one of two related values is refused if the first one is not. -/
abbrev Refuses {α : Type} (read : Json → Checked α) (R : Json → Json → Prop) : Prop :=
  Carries read R fun _ _ => False

namespace Carries

variable {α : Type} {read : Json → Checked α} {R R' : Json → Json → Prop} {S : α → α → Prop}

theorem or (h : Carries read R S) (h' : Carries read R' S) : Carries read (fun j j' => R j j' ∨ R' j j') S := by
  rintro j j' a a' (hR | hR) ha ha'
  · exact h hR ha ha'
  · exact h' hR ha ha'

theorem any : Carries anyValue R R := by
  rintro j j' _ _ h ⟨⟩ ⟨⟩
  exact h

theorem nullable (h : Carries read R S) (hnull : ∀ j j', R j j' → j.isNull = false ∧ j'.isNull = false) :
    Carries (nullable read) R fun o o' => ∃ a a', o = some a ∧ o' = some a' ∧ S a a' := by
  have hread : ∀ j, j.isNull = false → Fixture.nullable read j = some <$> read j := by
    intro j hj
    cases j with
    | null => cases hj
    | _ => rfl
  intro j j' o o' hR ho ho'
  obtain ⟨hj, hj'⟩ := hnull j j' hR
  rw [hread j hj, Checked.map_eq_ok] at ho
  rw [hread j' hj', Checked.map_eq_ok] at ho'
  obtain ⟨a, ha, rfl⟩ := ho
  obtain ⟨a', ha', rfl⟩ := ho'
  exact ⟨a, a', rfl, rfl, h hR ha ha'⟩

theorem items (h : Carries read R S) : Carries (listValue read) (AtItem R) (Altered S) := by
  rintro _ _ l l' ⟨⟨before, after, hR⟩⟩ hl hl'
  change itemsFrom read 0 _ = _ at hl hl'
  generalize 0 = i at hl hl'
  induction before generalizing i l l' with
  | nil =>
    obtain ⟨a, rest, ha, hrest, rfl⟩ := itemsFrom_cons.1 hl
    obtain ⟨a', rest', ha', hrest', rfl⟩ := itemsFrom_cons.1 hl'
    obtain rfl := Except.ok.inj (hrest.symm.trans hrest')
    exact .intro [] rest (h hR ha ha')
  | cons j before ih =>
    obtain ⟨b, rest, hb, hrest, rfl⟩ := itemsFrom_cons.1 hl
    obtain ⟨b', rest', hb', hrest', rfl⟩ := itemsFrom_cons.1 hl'
    obtain rfl := Except.ok.inj (hb.symm.trans hb')
    exact (ih _ hrest hrest').cons b

theorem entries {keys : Text → Prop} (h : Carries read R S) :
    Carries (mapValue read) (AtEntry keys R) (Altered (SameKey keys S)) := by
  rintro _ _ l l' ⟨⟨before, after, hk, hR⟩⟩ hl hl'
  change entriesOf read _ = _ at hl hl'
  induction before generalizing l l' with
  | nil =>
    obtain ⟨a, rest, ha, hrest, rfl⟩ := entriesOf_cons.1 hl
    obtain ⟨a', rest', ha', hrest', rfl⟩ := entriesOf_cons.1 hl'
    obtain rfl := Except.ok.inj (hrest.symm.trans hrest')
    exact .intro [] rest (.intro hk (h hR ha ha'))
  | cons m before ih =>
    obtain ⟨b, rest, hb, hrest, rfl⟩ := entriesOf_cons.1 hl
    obtain ⟨b', rest', hb', hrest', rfl⟩ := entriesOf_cons.1 hl'
    obtain rfl := Except.ok.inj (hb.symm.trans hb')
    exact (ih hrest hrest').cons _

end Carries

/-! ### Records -/

/-- Members that differ in what counts under some spellings. -/
structure DifferAt (names : List String) (j j' : Json) (ms ms' : List (Text × Json)) : Prop where
  here : ∃ name, spelled? ms names = some (name, j) ∧ spelled? ms' names = some (name, j')
  other : ∀ spellings, (∀ name ∈ names, name ∉ spellings) → spelled? ms' spellings = spelled? ms spellings

theorem mem_of_spelled? {ms : List (Text × Json)} {spellings : List String} {m : String × Json}
    (h : spelled? ms spellings = some m) : m.1 ∈ spellings ∧ member? ms m.1 = some m.2 := by
  obtain ⟨name, hname, hm⟩ := List.exists_of_findSome?_eq_some h
  obtain ⟨j, hj, rfl⟩ := Option.map_eq_some_iff.1 hm
  exact ⟨hname, hj⟩

theorem spelled?_congr {ms ms' : List (Text × Json)} {spellings : List String}
    (h : ∀ name ∈ spellings, member? ms' name = member? ms name) : spelled? ms' spellings = spelled? ms spellings := by
  induction spellings with
  | nil => rfl
  | cons name r ih =>
    obtain ⟨hname, hr⟩ := List.forall_mem_cons.1 h
    simp only [spelled?, List.findSome?_cons, hname] at ih ⊢
    cases member? ms name with
    | none => exact ih hr
    | some j => rfl

/-- What counts still counts if nothing changes but its value. -/
theorem spelled?_update {ms ms' : List (Text × Json)} {spellings : List String} {name : String} {j i : Json}
    (h : spelled? ms spellings = some (name, j)) (hother : ∀ n ≠ name, member? ms' n = member? ms n)
    (hself : member? ms' name = some i) : spelled? ms' spellings = some (name, i) := by
  induction spellings with
  | nil => cases h
  | cons n r ih =>
    by_cases hn : n = name
    · subst hn
      simp [spelled?, hself]
    · simp only [spelled?, List.findSome?_cons, hother n hn] at h ih ⊢
      cases hm : member? ms n with
      | none =>
        rw [hm] at h
        exact ih h
      | some m =>
        rw [hm] at h
        cases h
        exact absurd rfl hn

namespace Shape

variable {α β : Type}

/-- The names that a shape knows. -/
def names (s : Shape α) : List String := s.spellings.flatten

theorem mem_taken {s : Shape α} {ms : List (Text × Json)} {t : Text} (h : t ∈ s.taken ms) :
    ∃ spellings ∈ s.spellings, ∃ name j, t = .plain name ∧ spelled? ms spellings = some (name, j) := by
  obtain ⟨spellings, hmem, hname⟩ := List.mem_filterMap.1 h
  obtain ⟨⟨name, j⟩, hj, rfl⟩ := Option.map_eq_some_iff.1 hname
  exact ⟨spellings, hmem, name, j, rfl, hj⟩

/-- A ragged name is none that a shape takes. -/
theorem namesArePlain_of_taken {s : Shape α} {ms ms' : List (Text × Json)} (h : ∀ m ∈ ms, m.1 ∈ s.taken ms') :
    namesArePlain ms = true := by
  refine List.all_eq_true.2 fun m hm => ?_
  obtain ⟨_, -, name, -, hname, -⟩ := mem_taken (h m hm)
  rw [hname]
  rfl

theorem ofMembers_eq_ok {s : Shape α} {ms : List (Text × Json)} {a : α} :
    s.ofMembers ms = .ok a ↔ s.read ms = .ok a ∧ ∀ m ∈ ms, m.1 ∈ s.taken ms := by
  have hknown : (∃ u, s.known ms = .ok u) ↔ s.strangers ms = [] := by
    unfold known
    cases s.strangers ms with
    | nil => exact ⟨fun _ => rfl, fun _ => ⟨(), rfl⟩⟩
    | cons m r => exact ⟨nofun, nofun⟩
  have htaken : s.strangers ms = [] ↔ ∀ m ∈ ms, m.1 ∈ s.taken ms := by
    rw [strangers, List.filter_eq_nil_iff]
    simp
  unfold ofMembers
  split
  · rw [Checked.seqLeft_eq_ok, hknown, htaken]
  · rename_i hragged
    exact ⟨nofun, fun ⟨_, h⟩ => absurd (namesArePlain_of_taken h) hragged⟩

theorem refuses_extended (model : String) (s : Shape α) : Refuses (s.record model) (Extended s.names) := by
  rintro _ _ _ a ⟨before, after, name, j, hname⟩ - ha
  obtain ⟨-, htaken⟩ := ofMembers_eq_ok.1 ha
  obtain ⟨spellings, hmem, n, j', rfl, hj'⟩ := mem_taken (htaken (name, j) (by simp))
  exact hname (List.mem_map_of_mem (List.mem_flatten.2 ⟨spellings, hmem, (mem_of_spelled? hj').1⟩))

/-- Where two lists of members are both read, the results are related. -/
def Follows (s : Shape α) (S : α → α → Prop) (ms ms' : List (Text × Json)) : Prop :=
  ∀ ⦃a a'⦄, s.read ms = .ok a → s.read ms' = .ok a' → S a a'

section

open Relator

variable {ms ms' : List (Text × Json)} {f : Shape (α → β)} {x : Shape α} {S : α → α → Prop} {T : β → β → Prop}

theorem Follows.seq (hf : f.Follows (S ⇒ T) ms ms') (hx : x.Follows S ms ms') : (f <*> x).Follows T ms ms' := by
  intro b b' hb hb'
  obtain ⟨g, a, hg, ha, rfl⟩ := Checked.seq_eq_ok.1 hb
  obtain ⟨g', a', hg', ha', rfl⟩ := Checked.seq_eq_ok.1 hb'
  exact hf hg hg' (hx ha ha')

theorem Follows.map {g : α → β} (hg : (S ⇒ T) g g) (hx : x.Follows S ms ms') : (g <$> x).Follows T ms ms' := by
  have hpure : (pure g : Shape (α → β)).Follows (S ⇒ T) ms ms' := by
    rintro _ _ ⟨⟩ ⟨⟩
    exact hg
  change (pure g <*> x : Shape β).Follows T ms ms'
  exact hpure.seq hx

theorem Follows.seqRight {y : Shape β} (hx : x.Follows Eq ms ms') (hy : y.Follows T ms ms') :
    (x *> y).Follows T ms ms' := by
  have hconst : (Function.const α id <$> x : Shape (β → β)).Follows (T ⇒ T) ms ms' :=
    hx.map fun _ _ _ => fun _ _ h => h
  change (Function.const α id <$> x <*> y : Shape β).Follows T ms ms'
  exact hconst.seq hy

/-- What one field refuses, the record refuses. -/
theorem Follows.never_seq (hf : f.Follows (fun _ _ => False) ms ms') : (f <*> x).Follows T ms ms' := by
  intro b b' hb hb'
  obtain ⟨g, a, hg, -, -⟩ := Checked.seq_eq_ok.1 hb
  obtain ⟨g', a', hg', -, -⟩ := Checked.seq_eq_ok.1 hb'
  exact (hf hg hg').elim

theorem Follows.seq_never (hx : x.Follows (fun _ _ => False) ms ms') : (f <*> x).Follows T ms ms' := by
  intro b b' hb hb'
  obtain ⟨g, a, -, ha, -⟩ := Checked.seq_eq_ok.1 hb
  obtain ⟨g', a', -, ha', -⟩ := Checked.seq_eq_ok.1 hb'
  exact (hx ha ha').elim

/-- A member that is not changed is read the same. -/
theorem Follows.other {names spellings : List String} {j j' : Json} {absent : Checked α} {read : Json → Checked α}
    (h : DifferAt names j j' ms ms') (hother : ∀ name ∈ names, name ∉ spellings) :
    (field spellings absent read).Follows Eq ms ms' := by
  intro a a' ha ha'
  have hsame : (field spellings absent read).read ms' = (field spellings absent read).read ms := by
    simp only [field, h.other spellings hother]
  rw [hsame] at ha'
  exact Except.ok.inj (ha.symm.trans ha')

theorem Follows.literal {name n : String} {j j' : Json} (h : DifferAt [n] j j' ms ms') (hne : name ≠ n) :
    (Shape.literal [name]).Follows Eq ms ms' := .other h (by simpa using hne.symm)

theorem Follows.here {names : List String} {j j' : Json} {absent : Checked α} {read : Json → Checked α}
    {R : Json → Json → Prop} (h : DifferAt names j j' ms ms') (hR : R j j') (hread : Carries read R S) :
    (field names absent read).Follows S ms ms' := by
  intro a a' ha ha'
  obtain ⟨name, hj, hj'⟩ := h.here
  simp only [field, hj, hj', Checked.under_eq_ok] at ha ha'
  exact hread hR ha ha'

end

/-- A record of which one member changes is read as the fields of its shape are. -/
theorem carries_atMember {model : String} {s : Shape α} {names : List String} {R : Json → Json → Prop}
    {S : α → α → Prop} (hnames : ∀ name ∈ names, ∀ spellings ∈ s.spellings, name ∈ spellings → spellings = names)
    (h : ∀ {j j' ms ms'}, DifferAt names j j' ms ms' → R j j' → s.Follows S ms ms') :
    Carries (s.record model) (AtMember names R) S := by
  rintro _ _ a a' ⟨before, after, hname, hfirst, hR⟩ ha ha'
  rename_i name j j'
  obtain ⟨hread, htaken⟩ := ofMembers_eq_ok.1 ha
  obtain ⟨hread', -⟩ := ofMembers_eq_ok.1 ha'
  -- the record is read, so the member that changes is no second spelling of another one
  obtain ⟨spellings, hmem, _, _, ⟨⟩, hcounts⟩ := mem_taken (htaken (.plain name, j) (by simp))
  obtain rfl := hnames name hname spellings hmem (mem_of_spelled? hcounts).1
  have hspelled : ∀ i, spelled? (before ++ (.plain name, i) :: after) spellings = some (name, i) := fun i =>
    spelled?_update hcounts (fun n hn => member?_append_other j i (mt Text.plain.inj hn))
      (member?_append_self hfirst after i)
  refine h ⟨⟨name, hspelled j, hspelled j'⟩, fun spellings hother => spelled?_congr fun n hn => ?_⟩ hR hread hread'
  exact member?_append_other j j' fun heq => hother name hname (Text.plain.inj heq ▸ hn)

end Shape

end Fixture

end TrialLedger
