import Mathlib.Data.List.Basic
import TrialLedger.Proofs.Fixture.Misspelled
import TrialLedger.Proofs.Table

/-! Records that gain a member. One whose shape knows the name is read with the new member and is otherwise as it
was; any other one is refused for that member alone. The steps of a scenario are such records, and what becomes of
one of them leaves the others as they were. -/

namespace TrialLedger

namespace Json

/-- Two lists that differ in the item at one position. -/
inductive AtIndex (i : Nat) (R : Json → Json → Prop) : Json → Json → Prop
  | intro {items : List Json} {a b : Json} (ha : items[i]? = some a) (h : R a b) :
    AtIndex i R (.list items) (.list (items.set i b))

theorem member?_insert_self {before after : List (Text × Json)} {name : String}
    (h : member? (before ++ after) name = none) (j : Json) :
    member? (before ++ (.plain name, j) :: after) name = some j := by
  have hfirst : ∀ m ∈ before, m.1 ≠ .plain name := by
    intro m hm heq
    have hne := List.lookup_eq_none_iff.1 h m (List.mem_append_left _ hm)
    simp [heq] at hne
  exact member?_append_self hfirst after j

end Json

namespace Fixture

open Json Relator

/-! ### Lists -/

/-- A list of which one item changes is read as before but for what is read of that item. -/
theorem itemsFrom_set {α : Type} {read : Json → Checked α} {items : List Json} {k n : Nat} {l : List α} {a : Json}
    (h : itemsFrom read k items = .ok l) (ha : items[n]? = some a) :
    ∃ r, read a = .ok r ∧ l[n]? = some r ∧
      ∀ b, itemsFrom read k (items.set n b) = (l.set n ·) <$> (read b).under (toString (k + n)) := by
  induction items generalizing k n l with
  | nil => cases ha
  | cons j rest ih =>
    obtain ⟨x, xs, hx, hxs, rfl⟩ := itemsFrom_cons.1 h
    cases n with
    | zero =>
      obtain rfl := Option.some.inj ha
      refine ⟨x, hx, rfl, fun b => ?_⟩
      rw [List.set_cons_zero, itemsFrom, hxs, Nat.add_zero]
      cases (read b).under (toString k) <;> rfl
    | succ n =>
      obtain ⟨r, hr, hl, hset⟩ := ih hxs ha
      refine ⟨r, hr, hl, fun b => ?_⟩
      rw [List.set_cons_succ, itemsFrom, hset, hx, Nat.add_assoc, Nat.add_comm 1 n]
      cases (read b).under (toString (k + (n + 1))) <;> rfl

/-! ### Shapes -/

namespace Shape

variable {α β : Type} {ms ms' : List (Text × Json)}

/-- Where members are read, others are read as well, and the results are related. -/
def Yields (s : Shape α) (S : α → α → Prop) (ms ms' : List (Text × Json)) : Prop :=
  ∀ ⦃a⦄, s.read ms = .ok a → ∃ a', s.read ms' = .ok a' ∧ S a a'

section

variable {f : Shape (α → β)} {x : Shape α} {S : α → α → Prop} {T : β → β → Prop}

theorem Yields.seq (hf : f.Yields (S ⇒ T) ms ms') (hx : x.Yields S ms ms') : (f <*> x).Yields T ms ms' := by
  intro b hb
  obtain ⟨g, a, hg, ha, rfl⟩ := Checked.seq_eq_ok.1 hb
  obtain ⟨g', hg', hgg'⟩ := hf hg
  obtain ⟨a', ha', haa'⟩ := hx ha
  exact ⟨g' a', Checked.seq_eq_ok.2 ⟨g', a', hg', ha', rfl⟩, hgg' haa'⟩

theorem Yields.map {g : α → β} (hg : (S ⇒ T) g g) (hx : x.Yields S ms ms') : (g <$> x).Yields T ms ms' := by
  have hpure : (pure g : Shape (α → β)).Yields (S ⇒ T) ms ms' := by
    rintro _ ⟨⟩
    exact ⟨g, rfl, hg⟩
  change (pure g <*> x : Shape β).Yields T ms ms'
  exact hpure.seq hx

theorem Yields.seqRight {y : Shape β} (hx : x.Yields Eq ms ms') (hy : y.Yields T ms ms') :
    (x *> y).Yields T ms ms' := by
  have hconst : (Function.const α id <$> x : Shape (β → β)).Yields (T ⇒ T) ms ms' :=
    hx.map fun _ _ _ => fun _ _ h => h
  change (Function.const α id <$> x <*> y : Shape β).Yields T ms ms'
  exact hconst.seq hy

end

variable {spellings : List String} {absent : Checked α} {read : Json → Checked α}

theorem Yields.other (h : spelled? ms' spellings = spelled? ms spellings) :
    (field spellings absent read).Yields Eq ms ms' := by
  intro a ha
  refine ⟨a, ?_, rfl⟩
  simpa only [field, h] using ha

theorem Yields.gained {name : String} {j : Json} {a : α} (h : spelled? ms' spellings = some (name, j))
    (ha : read j = .ok a) : (field spellings absent read).Yields (fun _ a' => a' = a) ms ms' := by
  intro _ _
  refine ⟨a, ?_, rfl⟩
  simp only [field, h, Checked.under_eq_ok]
  exact ha

section

variable {before after : List (Text × Json)} {name : String} {j j' : Json}

theorem spelled?_insert_other (h : name ∉ spellings) :
    spelled? (before ++ (.plain name, j) :: after) spellings = spelled? (before ++ after) spellings :=
  spelled?_congr fun _ hn => member?_insert_other j fun heq => h (Text.plain.inj heq ▸ hn)

/-- A field that does not know the new member is read as before. -/
theorem Yields.insert (h : name ∉ spellings) :
    (field spellings absent read).Yields Eq (before ++ after) (before ++ (.plain name, j) :: after) :=
  .other (spelled?_insert_other h)

/-- A field that does not know the member whose value changes is read as before. -/
theorem Yields.update (h : name ∉ spellings) :
    (field spellings absent read).Yields Eq (before ++ (.plain name, j) :: after)
      (before ++ (.plain name, j') :: after) :=
  .other (spelled?_congr fun _ hn => member?_append_other j j' fun heq => h (Text.plain.inj heq ▸ hn))

end

/-! ### Members that are taken -/

theorem known_eq_ok {s : Shape α} (h : ∀ m ∈ ms, m.1 ∈ s.taken ms) : s.known ms = .ok () := by
  have hstrangers : s.strangers ms = [] := by
    rw [strangers, List.filter_eq_nil_iff]
    simpa using h
  rw [known, hstrangers]

/-- Which spelling counts depends on nothing but the names. -/
theorem map_fst_spelled? (ms : List (Text × Json)) (spellings : List String) :
    (spelled? ms spellings).map Prod.fst = spellings.find? fun name => (member? ms name).isSome := by
  induction spellings with
  | nil => rfl
  | cons name r ih =>
    rw [spelled?] at ih
    rw [spelled?, List.findSome?_cons, List.find?_cons]
    cases member? ms name with
    | none => exact ih
    | some j => rfl

theorem taken_congr (s : Shape α) (h : ∀ name, (member? ms' name).isSome = (member? ms name).isSome) :
    s.taken ms' = s.taken ms := by
  have hnames : ∀ ms, s.taken ms =
      s.spellings.filterMap fun names => ((spelled? ms names).map Prod.fst).map Text.plain := by
    intro ms
    simp only [taken, Option.map_map]
    rfl
  simp only [hnames, map_fst_spelled?, h]

/-- A member that has a new value is still taken, and so are all others. -/
theorem ofMembers_update {s : Shape α} {before after : List (Text × Json)} {name : String} {j : Json} {a : α}
    (hfirst : ∀ m ∈ before, m.1 ≠ .plain name) (h : s.ofMembers (before ++ (.plain name, j) :: after) = .ok a)
    (j' : Json) :
    s.ofMembers (before ++ (.plain name, j') :: after) = s.read (before ++ (.plain name, j') :: after) := by
  obtain ⟨-, htaken⟩ := ofMembers_eq_ok.1 h
  have hsame : s.taken (before ++ (.plain name, j') :: after) = s.taken (before ++ (.plain name, j) :: after) := by
    refine s.taken_congr fun n => ?_
    by_cases hn : n = name
    · rw [hn, member?_append_self hfirst, member?_append_self hfirst]
      rfl
    · rw [member?_append_other j j' (mt Text.plain.inj hn)]
  have htaken' : ∀ m ∈ before ++ (.plain name, j') :: after, m.1 ∈ s.taken (before ++ (.plain name, j') :: after) := by
    intro m hm
    rw [hsame]
    rcases List.mem_append.1 hm with hm | hm
    · exact htaken m (List.mem_append_left _ hm)
    · rcases List.mem_cons.1 hm with rfl | hm
      · exact htaken (.plain name, j) (by simp)
      · exact htaken m (by simp [hm])
  rw [ofMembers, if_pos (namesArePlain_of_taken htaken'), known_eq_ok htaken']
  cases s.read (before ++ (.plain name, j') :: after) <;> rfl

section

variable {s : Shape α} {before after : List (Text × Json)} {name : String} {a : α}

/-- A member of a name that the shape knows is taken where no spelling of it was there before. -/
theorem ofMembers_gained {S : α → α → Prop} {j : Json} {spellings : List String} (hmem : spellings ∈ s.spellings)
    (hnames : ∀ names ∈ s.spellings, name ∈ names → names = spellings)
    (habsent : spelled? (before ++ after) spellings = none)
    (hhere : spelled? (before ++ (.plain name, j) :: after) spellings = some (name, j))
    (hy : s.Yields S (before ++ after) (before ++ (.plain name, j) :: after))
    (h : s.ofMembers (before ++ after) = .ok a) :
    ∃ a', s.ofMembers (before ++ (.plain name, j) :: after) = .ok a' ∧ S a a' := by
  obtain ⟨hread, htaken⟩ := ofMembers_eq_ok.1 h
  obtain ⟨a', hread', haa'⟩ := hy hread
  have htakes : ∀ names ∈ s.spellings, ∀ n i, spelled? (before ++ (.plain name, j) :: after) names = some (n, i) →
      .plain n ∈ s.taken (before ++ (.plain name, j) :: after) := by
    intro names hnames n i hn
    refine List.mem_filterMap.2 ⟨names, hnames, ?_⟩
    rw [hn]
    rfl
  have hkept : ∀ m ∈ before ++ after, m.1 ∈ s.taken (before ++ (.plain name, j) :: after) := by
    intro m hm
    obtain ⟨names, hmem', n, i, hn, hi⟩ := mem_taken (htaken m hm)
    have hname : name ∉ names := by
      intro hname
      rw [hnames names hmem' hname, habsent] at hi
      cases hi
    rw [hn]
    exact htakes names hmem' n i ((spelled?_insert_other hname).trans hi)
  refine ⟨a', ofMembers_eq_ok.2 ⟨hread', fun m hm => ?_⟩, haa'⟩
  rcases List.mem_append.1 hm with hm | hm
  · exact hkept m (List.mem_append_left _ hm)
  · rcases List.mem_cons.1 hm with rfl | hm
    · exact htakes spellings hmem name j hhere
    · exact hkept m (List.mem_append_right _ hm)

/-- A member of a name that the shape does not know is all that is wrong. -/
theorem ofMembers_stranger (hname : ∀ spellings ∈ s.spellings, name ∉ spellings)
    (h : s.ofMembers (before ++ after) = .ok a) (j : Json)
    (hy : s.Yields Eq (before ++ after) (before ++ (.plain name, j) :: after)) :
    s.ofMembers (before ++ (.plain name, j) :: after) = .bad [⟨[name], .extraForbidden⟩] := by
  obtain ⟨hread, htaken⟩ := ofMembers_eq_ok.1 h
  obtain ⟨_, hread', rfl⟩ := hy hread
  have hsame : s.taken (before ++ (.plain name, j) :: after) = s.taken (before ++ after) :=
    List.filterMap_congr fun spellings hspellings => by rw [spelled?_insert_other (hname spellings hspellings)]
  have hnot : .plain name ∉ s.taken (before ++ after) := by
    intro hmem
    obtain ⟨spellings, hspellings, _, i, ⟨⟩, hi⟩ := mem_taken hmem
    exact hname spellings hspellings (mem_of_spelled? hi).1
  have hkept : ∀ part ⊆ before ++ after, (part.filter fun m => !(s.taken (before ++ after)).contains m.1) = [] := by
    intro part hpart
    rw [List.filter_eq_nil_iff]
    intro m hm
    simpa using htaken m (hpart hm)
  have hstrangers : s.strangers (before ++ (.plain name, j) :: after) = [(.plain name, j)] := by
    rw [strangers, hsame, List.filter_append, List.filter_cons_of_pos (by simpa using hnot),
      hkept before (List.subset_append_left _ _), hkept after (List.subset_append_right _ _), List.nil_append]
  have hplain : namesArePlain (before ++ (.plain name, j) :: after) = true := by
    have hboth := namesArePlain_of_taken htaken
    rw [namesArePlain, List.all_append, Bool.and_eq_true] at hboth
    rw [namesArePlain, List.all_append, List.all_cons, hboth.1, hboth.2]
    rfl
  rw [ofMembers, if_pos hplain, hread', known, hstrangers]
  rfl

end

end Shape

/-! ### Steps -/

/-- The member that a step has by its kind. -/
def StepRecord.tag : StepRecord → String
  | .setState _ => "setState"
  | .transaction kind _ => kind.name
  | .checkState _ => "checkState"

theorem stepTag?_of_ofJson {j : Json} {r : StepRecord} (h : StepRecord.ofJson j = .ok r) :
    stepTag? j = some (.text r.tag) := by
  cases j with
  | object ms =>
    rw [StepRecord.ofJson] at h
    split at h
    · cases h
    · rename_i tag htag
      split at h
      · rename_i read hread
        rw [Checked.under_eq_ok] at h
        have hkind := Table.mem_of_lookup_eq_some hread
        simp only [stepKinds, List.mem_cons, Prod.mk.injEq, List.not_mem_nil, or_false] at hkind
        rcases hkind with ⟨rfl, rfl⟩ | ⟨rfl, rfl⟩ | ⟨rfl, rfl⟩ | ⟨rfl, rfl⟩ | ⟨rfl, rfl⟩
        all_goals
          obtain ⟨a, -, rfl⟩ := Checked.map_eq_ok.1 h
          exact htag
      · cases h
    · cases h
  | _ => cases h

/-- A step that has no id, and the same with one. -/
inductive GainsId (id : Text) : Json → Json → Prop
  | intro (before after : List (Text × Json)) (hid : member? (before ++ after) "id" = none)
      (htxId : member? (before ++ after) "txId" = none) :
    GainsId id (.object (before ++ after)) (.object (before ++ (.plain "id", .text id) :: after))

/-- The record with an id. Accounts that are set have none. -/
def StepRecord.identified (id : Text) : StepRecord → Checked StepRecord
  | .setState _ => .bad [⟨["setState", "id"], .extraForbidden⟩]
  | .transaction kind r => .ok (.transaction kind { r with id })
  | .checkState r => .ok (.checkState { r with id })

theorem StepRecord.exists_identified {r : StepRecord} (id : Text) (h : r.tag ≠ "setState") :
    ∃ r', r.identified id = .ok r' := by
  cases r with
  | setState r => exact absurd rfl h
  | transaction _ _ | checkState _ => exact ⟨_, rfl⟩

theorem StepRecord.identified_setState {r : StepRecord} (id : Text) (h : r.tag = "setState") :
    r.identified id = .bad [⟨["setState", "id"], .extraForbidden⟩] := by
  cases r with
  | setState r => rfl
  | transaction kind r => cases kind <;> simp [tag, TransactionKind.name] at h
  | checkState r => simp [tag] at h

section

variable {before after : List (Text × Json)} {id : Text}

theorem AccountsRecord.ofMembers_id {r : AccountsRecord} (h : shape.ofMembers (before ++ after) = .ok r) :
    shape.ofMembers (before ++ (.plain "id", .text id) :: after) = .bad [⟨["id"], .extraForbidden⟩] := by
  refine Shape.ofMembers_stranger (by decide) h _ ?_
  refine .seqRight (.insert (by decide)) (.seq (.map ?_ (.insert (by decide))) (.insert (by decide)))
  rintro _ _ rfl _ _ rfl
  rfl

theorem TransactionRecord.ofMembers_id {r : TransactionRecord} (hid : member? (before ++ after) "id" = none)
    (htxId : member? (before ++ after) "txId" = none) (h : shape.ofMembers (before ++ after) = .ok r) :
    shape.ofMembers (before ++ (.plain "id", .text id) :: after) = .ok { r with id } := by
  have habsent : spelled? (before ++ after) ["id", "txId"] = none := by
    simp [spelled?, hid, htxId]
  have hhere : spelled? (before ++ (.plain "id", .text id) :: after) ["id", "txId"] = some ("id", .text id) := by
    simp [spelled?, member?_insert_self hid]
  have hy : shape.Yields (fun r r' => r' = { r with id }) (before ++ after)
      (before ++ (.plain "id", .text id) :: after) := by
    refine .seqRight (.insert (by decide)) (.seq (.seq (.seq (.seq (.map ?_ (.gained hhere rfl))
      (.insert (by decide))) (.insert (by decide))) (.insert (by decide))) (.insert (by decide)))
    rintro _ _ rfl _ _ rfl _ _ rfl _ _ rfl _ _ rfl
    rfl
  obtain ⟨_, hread, rfl⟩ := Shape.ofMembers_gained (by decide) (by decide) habsent hhere hy h
  exact hread

theorem CheckRecord.ofMembers_id {r : CheckRecord} (hid : member? (before ++ after) "id" = none)
    (h : shape.ofMembers (before ++ after) = .ok r) :
    shape.ofMembers (before ++ (.plain "id", .text id) :: after) = .ok { r with id } := by
  have habsent : spelled? (before ++ after) ["id"] = none := by
    simp [spelled?, hid]
  have hhere : spelled? (before ++ (.plain "id", .text id) :: after) ["id"] = some ("id", .text id) := by
    simp [spelled?, member?_insert_self hid]
  have hy : shape.Yields (fun r r' => r' = { r with id }) (before ++ after)
      (before ++ (.plain "id", .text id) :: after) := by
    refine .seqRight (.insert (by decide)) (.seq (.seq (.map ?_ (.gained hhere rfl)) (.insert (by decide)))
      (.insert (by decide)))
    rintro _ _ rfl _ _ rfl _ _ rfl
    rfl
  obtain ⟨_, hread, rfl⟩ := Shape.ofMembers_gained (by decide) (by decide) habsent hhere hy h
  exact hread

end

/-- A step that gains an id is read with it, or refused for it. -/
theorem StepRecord.ofJson_gainsId {id : Text} {j j' : Json} {r : StepRecord} (h : GainsId id j j')
    (hr : StepRecord.ofJson j = .ok r) : StepRecord.ofJson j' = r.identified id := by
  obtain ⟨before, after, hid, htxId⟩ := h
  have htag := stepTag?_of_ofJson hr
  have htag' : member? (before ++ (.plain "id", .text id) :: after) "step" = some (.text r.tag) :=
    (member?_insert_other _ (by decide)).trans htag
  rw [StepRecord.ofJson, htag']
  cases r with
  | setState r =>
    have hkind : stepKinds.lookup "setState" = some fun ms => .setState <$> AccountsRecord.shape.ofMembers ms := rfl
    obtain ⟨_, ha, heq⟩ := ofJson_step hkind htag hr
    cases heq
    simp only [StepRecord.tag, hkind]
    rw [AccountsRecord.ofMembers_id ha]
    rfl
  | transaction kind r =>
    have hkind : stepKinds.lookup kind.name =
        some fun ms => .transaction kind <$> TransactionRecord.shape.ofMembers ms := by cases kind <;> rfl
    obtain ⟨_, ha, heq⟩ := ofJson_step hkind htag hr
    cases heq
    simp only [StepRecord.tag, hkind]
    rw [TransactionRecord.ofMembers_id hid htxId ha]
    rfl
  | checkState r =>
    have hkind : stepKinds.lookup "checkState" = some fun ms => .checkState <$> CheckRecord.shape.ofMembers ms := rfl
    obtain ⟨_, ha, heq⟩ := ofJson_step hkind htag hr
    cases heq
    simp only [StepRecord.tag, hkind]
    rw [CheckRecord.ofMembers_id hid ha]
    rfl

/-! ### Scenarios -/

/-- All of a scenario but its steps is read as before when the steps change. -/
theorem ScenarioRecord.yields_front {front back : List (Text × Json)} {j j' : Json} :
    (ScenarioRecord.mk <$> .optional ["name"] "" textValue <*> .remark ["comment"] <*>
      .remark ["gasSchedule", "gas_schedule"] : Shape (List StepRecord → ScenarioRecord)).Yields Eq
      (front ++ (.plain "steps", j) :: back) (front ++ (.plain "steps", j') :: back) := by
  refine .seq (.seq (.map ?_ (.update (by decide))) (.update (by decide))) (.update (by decide))
  rintro _ _ rfl _ _ rfl _ _ rfl
  rfl

/-- A scenario of which one step gains an id is read as before, but for the record of that step. -/
theorem ScenarioRecord.ofJson_gainsId {i : Nat} {id : Text} {j j' : Json} {r : ScenarioRecord}
    (h : AtMember ["steps"] (AtIndex i (GainsId id)) j j') (hr : ScenarioRecord.ofJson j = .ok r) :
    ∃ s, r.steps[i]? = some s ∧
      ScenarioRecord.ofJson j' =
        (fun s' => { r with steps := r.steps.set i s' }) <$> ((s.identified id).under (toString i)).under "steps" := by
  obtain ⟨front, back, hname, hfirst, hitems⟩ := h
  obtain rfl := List.mem_singleton.1 hname
  obtain ⟨ha, hgains⟩ := hitems
  have hsteps : ∀ items,
      spelled? (front ++ (.plain "steps", .list items) :: back) ["steps"] = some ("steps", .list items) :=
    fun items => by simp [spelled?, member?_append_self hfirst]
  obtain ⟨hread, -⟩ := Shape.ofMembers_eq_ok.1 hr
  obtain ⟨g, l, hg, hl, rfl⟩ := Checked.seq_eq_ok.1 hread
  obtain ⟨_, hg', rfl⟩ := yields_front hg
  obtain ⟨_, gasSchedule, hcomment, -, rfl⟩ := Checked.seq_eq_ok.1 hg
  obtain ⟨_, comment, hname, -, rfl⟩ := Checked.seq_eq_ok.1 hcomment
  obtain ⟨name, -, rfl⟩ := Checked.map_eq_ok.1 hname
  simp only [Shape.optional, Shape.field, hsteps, Checked.under_eq_ok] at hl
  obtain ⟨s, hs, hget, hset⟩ := itemsFrom_set hl ha
  refine ⟨s, hget, ?_⟩
  change ScenarioRecord.shape.ofMembers _ = _
  rw [Shape.ofMembers_update hfirst hr]
  change _ <*> (Shape.optional ["steps"] [] (listValue StepRecord.ofJson)).read _ = _
  rw [hg']
  simp only [Shape.optional, Shape.field, hsteps, listValue, hset, StepRecord.ofJson_gainsId hgains hs, Nat.zero_add]
  cases (s.identified id).under (toString i) <;> rfl

end Fixture

end TrialLedger
