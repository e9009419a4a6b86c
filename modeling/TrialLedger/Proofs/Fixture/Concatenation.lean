import TrialLedger.Proofs.Fixture.Failures
import TrialLedger.Proofs.Fixture.Literal

/-! Bytes one after the other. Bars in a text and the items of a list join what is read between them, in the same
way and at any depth: neither changes how a neighbour is read. The first part that cannot be read is what is wrong
with all of them. -/

namespace TrialLedger.Fixture

open Codec

variable (ctx : Context) (path : Text)

/-! ### Several values -/

/-- The bytes of several values, read one after the other. -/
def readEach (js : List Json) : Read Bytes := (js.mapM (readBytes ctx path)).map List.flatten

theorem readEach_cons (j : Json) (r : List Json) :
    readEach ctx path (j :: r) = (do
      let b ← readBytes ctx path j
      return b ++ (← readEach ctx path r)) := by
  rw [readEach, readEach, List.mapM_cons]
  cases readBytes ctx path j with
  | error e => rfl
  | ok b => cases r.mapM (readBytes ctx path) <;> rfl

theorem readEach_append (js js' : List Json) :
    readEach ctx path (js ++ js') = (do
      let b ← readEach ctx path js
      return b ++ (← readEach ctx path js')) := by
  induction js with
  | nil =>
    rw [List.nil_append]
    cases readEach ctx path js' <;> rfl
  | cons j r ih =>
    rw [List.cons_append, readEach_cons, readEach_cons, ih]
    cases readBytes ctx path j with
    | error e => rfl
    | ok b =>
      cases readEach ctx path r with
      | error e => rfl
      | ok b' => cases readEach ctx path js' <;> simp [bind, Except.bind, pure, Except.pure]

theorem readEach_singleton (j : Json) : readEach ctx path [j] = readBytes ctx path j := by
  rw [readEach_cons]
  cases readBytes ctx path j with
  | error e => rfl
  | ok b => exact congrArg Except.ok (List.append_nil b)

/-! ### Bars -/

/-- Texts with bars between them. -/
def barred (parts : List Text) : Text := .ofPoints ([.char '|'].intercalate (parts.map Text.points))

theorem barred_plain (parts : List String) : barred (parts.map .plain) = ("|".intercalate parts : String) := by
  have hbars : [Point.char '|'].intercalate ((parts.map Text.plain).map Text.points) =
      (['|'].intercalate (parts.map String.toList)).map Point.char := by
    induction parts with
    | nil => rfl
    | cons s r ih =>
      cases r with
      | nil => simp [Text.points]
      | cons s' r =>
        simp only [List.map_cons, List.intercalate_cons_cons, List.map_append] at ih ⊢
        rw [ih]
        rfl
  have hlist : (['|'].intercalate (parts.map String.toList)) = ("|".intercalate parts).toList := by
    rw [String.toList_intercalate]
    rfl
  rw [barred, hbars, Text.ofPoints_chars, hlist, String.ofList_toList]

/-- Parts with bars between them are the fields of the text that they make. -/
theorem fields_intercalate {α : Type} [DecidableEq α] {separator : α} {parts : List (List α)} (hne : parts ≠ [])
    (h : ∀ cs ∈ parts, separator ∉ cs) : Text.fields separator ([separator].intercalate parts) = parts := by
  induction parts with
  | nil => exact absurd rfl hne
  | cons cs r ih =>
    obtain ⟨hcs, hr⟩ := List.forall_mem_cons.1 h
    cases r with
    | nil => rw [List.intercalate_singleton, Text.fields_of_not_mem hcs]
    | cons cs' r =>
      rw [List.intercalate_cons_cons, List.append_assoc, List.singleton_append, Text.fields_append hcs,
        ih (List.cons_ne_nil _ _) hr]

theorem joined_points {parts : List Text} (h : ∀ t ∈ parts, .char '|' ∉ t.points) :
    joined ctx path (parts.map Text.points) = readEach ctx path (parts.map .text) := by
  induction parts with
  | nil => rfl
  | cons t r ih =>
    obtain ⟨ht, hr⟩ := List.forall_mem_cons.1 h
    rw [List.map_cons, List.map_cons, joined, readEach_cons, readBytes_text ctx path ht, ih hr]

theorem readBytes_barred {parts : List Text} (hne : parts ≠ []) (h : ∀ t ∈ parts, .char '|' ∉ t.points) :
    readBytes ctx path (.text (barred parts)) = readEach ctx path (parts.map .text) := by
  have hfields : Text.fields (.char '|') (barred parts).points = parts.map Text.points := by
    rw [barred, Text.points_ofPoints]
    exact fields_intercalate (mt List.map_eq_nil_iff.1 hne) (List.forall_mem_map.2 h)
  rw [readBytes, hfields, joined_points ctx path h]

/-- What stands in front of the first bar is read by itself. -/
theorem readBytes_bar {s : Text} (hs : .char '|' ∉ s.points) (t : Text) :
    readBytes ctx path (.text (s ++ ("|" : Text) ++ t)) = (do
      let b ← readBytes ctx path (.text s)
      return b ++ (← readBytes ctx path (.text t))) := by
  have hfields : Text.fields (.char '|') (s ++ ("|" : Text) ++ t).points =
      s.points :: Text.fields (.char '|') t.points := by
    rw [Text.points_append, Text.points_append, List.append_assoc]
    exact Text.fields_append hs _
  rw [readBytes_text ctx path hs, readBytes, hfields, joined, readBytes]

/-- A word in front of a literal changes the bytes of that literal alone. -/
theorem readBytes_bar_append {word : String} {s : Text} (hword : '|' ∉ word.toList) (hs : .char '|' ∉ s.points)
    (t : Text) :
    readBytes ctx path (.text ((word : Text) ++ s ++ ("|" : Text) ++ t)) = (do
      let b ← readBytes ctx path (.text ((word : Text) ++ s))
      return b ++ (← readBytes ctx path (.text t))) := by
  refine readBytes_bar ctx path ?_ t
  rw [Text.points_append, List.mem_append]
  exact not_or.2 ⟨mt char_mem_points.1 hword, hs⟩

/-! ### Lists in lists -/

mutual

/-- What a value is made of besides lists, from left to right. -/
def leaves : Json → List Json
  | .list items => leavesOf items
  | j => [j]

def leavesOf : List Json → List Json
  | [] => []
  | j :: r => leaves j ++ leavesOf r

end

mutual

/-- However deep a list is, its leaves are read one after the other. -/
theorem unplaced_readBytes_leaves (j : Json) :
    unplaced (readBytes ctx path j) = unplaced (readEach ctx path (leaves j)) := by
  cases j with
  | list items => exact unplaced_readListBytes_leavesOf 0 items
  | _ => exact congrArg unplaced (readEach_singleton ctx path _).symm

theorem unplaced_readListBytes_leavesOf (i : Nat) (items : List Json) :
    unplaced (readListBytes ctx path i items) = unplaced (readEach ctx path (leavesOf items)) := by
  cases items with
  | nil => rfl
  | cons j r =>
    have hj := (unplaced_readBytes ctx (item path i) path j).trans (unplaced_readBytes_leaves j)
    rw [leavesOf, readEach_append, readListBytes]
    simp only [unplaced_bind, hj, unplaced_readListBytes_leavesOf (i + 1) r, unplaced_pure]

end

theorem leavesOf_texts (parts : List Text) : leavesOf (parts.map .text) = parts.map .text := by
  induction parts with
  | nil => rfl
  | cons t r ih => exact congrArg (Json.text t :: ·) ih

/-! ### Both spellings -/

/-- Bytes are joined alike by bars and by lists. Parts without bars read the same with bars between them and in a
list, as their bytes in order, or as what is wrong with the first one that has none; so do the leaves of a list at any
depth. What opens a part reaches no further than the bar after it. What is wrong is told with its place, unless it is
that a text is ragged or that a literal is oversized. -/
theorem concatenation_spellings (ctx : Context) (path : Text) :
    (∀ parts : List Text, parts ≠ [] → (∀ t ∈ parts, .char '|' ∉ t.points) →
      readBytes ctx path (.text (barred parts)) = readEach ctx path (parts.map .text) ∧
      unplaced (readBytes ctx path (.list (parts.map .text))) = unplaced (readEach ctx path (parts.map .text))) ∧
    (∀ j : Json, unplaced (readBytes ctx path j) = unplaced (readEach ctx path (leaves j))) ∧
    (∀ s t : Text, .char '|' ∉ s.points →
      readBytes ctx path (.text (("nested:" : Text) ++ s ++ ("|" : Text) ++ t)) = (do
        let b ← readBytes ctx path (.text s) >>= nested
        return b ++ (← readBytes ctx path (.text t))) ∧
      readBytes ctx path (.text (("str:" : Text) ++ s ++ ("|" : Text) ++ t)) = (do
        let b ← textBytes s
        return b ++ (← readBytes ctx path (.text t))) ∧
      readBytes ctx path (.text (("biguint:" : Text) ++ s ++ ("|" : Text) ++ t)) = (do
        let b ← readAmount ctx path (.text s) >>= fun n => nested (encodeNat n)
        return b ++ (← readBytes ctx path (.text t)))) ∧
    ∀ j e, readBytes ctx path j = .error e →
      (∃ place flaw, e = .misread place flaw) ∨
      e = .unencodable ∧ (∃ t, j.Part (.text t) ∧ t.plain? = none) ∨
      e = .oversized ∧ ∃ place t, j.Part (.text t) ∧ readBytes ctx place (.text t) = .error .oversized := by
  refine ⟨fun parts hne h => ⟨readBytes_barred ctx path hne h, ?_⟩, unplaced_readBytes_leaves ctx path,
    fun s t hs => ?_, fun j e he => ?_⟩
  · rw [unplaced_readBytes_leaves, leaves, leavesOf_texts]
  · rw [readBytes_bar_append ctx path (by decide) hs, readBytes_bar_append ctx path (by decide) hs,
      readBytes_bar_append ctx path (by decide) hs, readBytes_nested ctx path hs, readBytes_biguint ctx path hs,
      readBytes_opened ctx path ("str:", .text) (by simp [openings]) s hs]
    exact ⟨rfl, rfl, rfl⟩
  · refine (bytes_fail path (.here j) e he).imp_right fun h => ?_
    cases e with
    | unencodable => exact .inl ⟨rfl, h⟩
    | oversized => exact .inr ⟨rfl, h⟩
    | _ => exact h.elim

/-- A length is put before the part behind the word alone, whether a bar or a list ends that part. -/
theorem concatenation_spellings_nested :
    readBytes {} "data" (.text "nested:str:a|7") = .ok [0, 0, 0, 1, 97, 7] ∧
      readBytes {} "data" (.list [.text "nested:str:a", .text "7"]) = .ok [0, 0, 0, 1, 97, 7] := by
  obtain ⟨hspellings, -, hwords, -⟩ := concatenation_spellings {} "data"
  obtain ⟨hbars, hlist⟩ := hspellings ["nested:str:a", "7"] (by decide) (by decide)
  have hread : readBytes {} "data" (.text "nested:str:a|7") = .ok [0, 0, 0, 1, 97, 7] := by
    change readBytes {} "data" (.text (("nested:" : Text) ++ ("str:a" : Text) ++ ("|" : Text) ++ ("7" : Text))) = _
    rw [(hwords "str:a" "7" (by decide)).1]
    rfl
  have hbarred : barred ["nested:str:a", "7"] = "nested:str:a|7" := barred_plain ["nested:str:a", "7"]
  rw [← hbars, hbarred, hread] at hlist
  exact ⟨hread, ok_of_unplaced_eq hlist.symm rfl⟩

/-- A text that is one surrogate. -/
def loneSurrogate : Text := .ragged ⟨[.surrogate 0], rfl⟩

/-- The bytes of such a text are asked for in vain, and no place is told, in either spelling. -/
theorem readBytes_loneSurrogate :
    readBytes {} "data" (.text (barred [("str:" : Text) ++ loneSurrogate])) = .error .unencodable ∧
      readBytes {} "data" (.list [.text (("str:" : Text) ++ loneSurrogate)]) = .error .unencodable ∧
      ReadError.unencodable.isMisreading = false := ⟨rfl, rfl, rfl⟩

end TrialLedger.Fixture
