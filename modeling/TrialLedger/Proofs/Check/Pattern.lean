import Mathlib
import TrialLedger.Proofs.Check.Accounts

/-! Which values and lists are as patterns say, and what is reported of the others. Of a list it is the length if
that differs, and otherwise the first position that is wrong. A pattern that asks for less accepts all that the
other one accepts. -/

namespace TrialLedger.Check

/-! ### Lists position by position -/

section FirstAt

variable {α β : Type} {report : Nat → α → β → Option Mismatch} {as : List α} {bs : List β}

/-- The first report about two lists, where positions are counted from a number on. -/
def firstAt (report : Nat → α → β → Option Mismatch) (i : Nat) : List α → List β → Option Mismatch
  | a :: as, b :: bs => (report i a b).or (firstAt report (i + 1) as bs)
  | _, _ => none

theorem firstAt_eq_none {accepts : α → β → Prop} (h : ∀ i a b, report i a b = none ↔ accepts a b) {i : Nat}
    (hlength : as.length = bs.length) : firstAt report i as bs = none ↔ List.Forall₂ accepts as bs := by
  induction as generalizing i bs with
  | nil =>
    obtain rfl := List.eq_nil_of_length_eq_zero hlength.symm
    exact iff_of_true rfl .nil
  | cons a as ih =>
    cases bs with
    | nil => cases hlength
    | cons b bs => rw [firstAt, Option.or_eq_none_iff, h, ih (Nat.succ.inj hlength), List.forall₂_cons]

/-- What is reported is the report about a position, and there is none about those before it. -/
theorem firstAt_eq_some {i : Nat} {m : Mismatch} : firstAt report i as bs = some m ↔
    ∃ j, ∃ (_ : j < as.length) (_ : j < bs.length),
      (∀ k, ∀ _ : k < j, report (i + k) as[k] bs[k] = none) ∧ report (i + j) as[j] bs[j] = some m := by
  induction as generalizing i bs with
  | nil => exact iff_of_false nofun fun ⟨j, hj, _⟩ => absurd hj (Nat.not_lt_zero j)
  | cons a as ih =>
    cases bs with
    | nil => exact iff_of_false nofun fun ⟨j, _, hj, _⟩ => absurd hj (Nat.not_lt_zero j)
    | cons b bs =>
      rw [firstAt, Option.or_eq_some_iff, ih]
      constructor
      · rintro (hfirst | ⟨hnone, j, hj, hj', hbefore, hm⟩)
        · exact ⟨0, Nat.succ_pos _, Nat.succ_pos _, nofun, hfirst⟩
        · rw [Nat.add_right_comm] at hm
          refine ⟨j + 1, Nat.succ_lt_succ hj, Nat.succ_lt_succ hj', fun k hk => ?_, hm⟩
          cases k with
          | zero => exact hnone
          | succ k =>
            have hk := hbefore k (Nat.lt_of_succ_lt_succ hk)
            rwa [Nat.add_right_comm] at hk
      · rintro ⟨j, hj, hj', hbefore, hm⟩
        cases j with
        | zero => exact .inl hm
        | succ j =>
          have hshorter := Nat.lt_of_succ_lt_succ hj
          refine .inr ⟨hbefore 0 j.succ_pos, j, hshorter, Nat.lt_of_succ_lt_succ hj', fun k hk => ?_, ?_⟩
          · rw [Nat.add_right_comm]
            exact hbefore (k + 1) (Nat.succ_lt_succ hk)
          · rw [Nat.add_right_comm]
            exact hm

end FirstAt

section InStep

variable {α β : Type} {accepts : α → β → Prop} {report : String → α → β → Option Mismatch}
  {reports : String → α → β → Mismatch → Prop} {path : String} {as : List α} {bs : List β}

/-- What is reported when two lists are compared position by position. -/
def mismatchInStep (report : String → α → β → Option Mismatch) (path : String) (as : List α) (bs : List β) :
    Option Mismatch :=
  if as.length = bs.length then firstAt (fun i => report (path ++ "[" ++ toString i ++ "]")) 0 as bs
  else some ⟨path ++ ".length", .int as.length, .int bs.length⟩

/-- The report is about the lengths if they differ, and otherwise about the first position where something is
not accepted. -/
inductive ReportsInStep (accepts : α → β → Prop) (reports : String → α → β → Mismatch → Prop) (path : String)
    (as : List α) (bs : List β) : Mismatch → Prop where
  | length (h : as.length ≠ bs.length) :
    ReportsInStep accepts reports path as bs ⟨path ++ ".length", .int as.length, .int bs.length⟩
  | position (hlength : as.length = bs.length) {i : Nat} (hi : i < as.length)
    (hbefore : ∀ j, ∀ _ : j < i, accepts as[j] bs[j]) {m : Mismatch}
    (h : reports (path ++ "[" ++ toString i ++ "]") as[i] bs[i] m) : ReportsInStep accepts reports path as bs m

theorem mismatchInStep_eq_none (hnone : ∀ path a b, report path a b = none ↔ accepts a b) :
    mismatchInStep report path as bs = none ↔ List.Forall₂ accepts as bs := by
  rw [mismatchInStep]
  split_ifs with hlength
  · exact firstAt_eq_none (fun i => hnone _) hlength
  · exact iff_of_false nofun fun h => hlength h.length_eq

theorem mismatchInStep_eq_some (hnone : ∀ path a b, report path a b = none ↔ accepts a b)
    (hsome : ∀ path a b m, report path a b = some m ↔ reports path a b m) {m : Mismatch} :
    mismatchInStep report path as bs = some m ↔ ReportsInStep accepts reports path as bs m := by
  rw [mismatchInStep]
  split_ifs with hlength
  · rw [firstAt_eq_some]
    constructor
    · rintro ⟨i, hi, hi', hbefore, hm⟩
      rw [hsome, Nat.zero_add] at hm
      exact .position hlength hi (fun j hj => (hnone _ _ _).1 (hbefore j hj)) hm
    · rintro (h | ⟨hlength, hi, hbefore, hm⟩)
      · exact absurd hlength h
      · refine ⟨_, hi, hlength ▸ hi, fun j hj => (hnone _ _ _).2 (hbefore j hj), ?_⟩
        rwa [hsome, Nat.zero_add]
  · rw [Option.some.injEq]
    constructor
    · rintro rfl
      exact .length hlength
    · rintro (_ | ⟨h⟩)
      · rfl
      · exact absurd h hlength

/-- Two lists that are related at every position stay so where another one is related to the first. -/
theorem forall₂_mono {α' : Type} {as' : List α'} {r : α → β → Prop} {r' : α' → β → Prop} {s : α → α' → Prop}
    (hmono : ∀ {a b a'}, r a b → s a a' → r' a' b) (h : List.Forall₂ r as bs) (hs : List.Forall₂ s as as') :
    List.Forall₂ r' as' bs := by
  induction h generalizing as' with
  | nil =>
    cases hs
    exact .nil
  | cons hr _ ih =>
    cases hs with
    | cons hs hrest => exact .cons (hmono hr hs) (ih hrest)

end InStep

/-! ### Values -/

namespace Pattern

variable {α β : Type} {p q : Pattern α}

/-- A value is what is asked for, if anything is. -/
def Accepts (p : Pattern α) (a : α) : Prop := ∀ b ∈ p.asked, b = a

/-- The report about a value that is not accepted. -/
def Reports (p : Pattern α) (path : String) (a : α) (shown : Exhibit) (m : Mismatch) : Prop :=
  ¬ p.Accepts a ∧ m = ⟨path, p.written, shown⟩

theorem mismatchBy_eq_some {same : α → β → Bool} {path : String} {actual : β} {shown : β → Exhibit} {m : Mismatch} :
    p.mismatchBy same path actual shown = some m ↔
      (¬ ∀ a ∈ p.asked, same a actual = true) ∧ m = ⟨path, p.written, shown actual⟩ := by
  rw [mismatchBy, ← acceptsBy_iff]
  split_ifs with h
  · exact iff_of_false id fun hm => hm.1 h
  · rw [Option.some.injEq, eq_comm]
    exact (and_iff_right h).symm

theorem mismatch_eq_some [DecidableEq α] {path : String} {actual : α} {shown : α → Exhibit} {m : Mismatch} :
    p.mismatch path actual shown = some m ↔ p.Reports path actual (shown actual) m := by
  have hby : p.mismatch path actual shown = p.mismatchBy (fun a b => a = b) path actual shown := rfl
  simp only [hby, mismatchBy_eq_some, decide_eq_true_eq, Reports, Accepts]

/-- The other pattern is this one, or one that accepts everything. -/
inductive Looser : Pattern α → Pattern α → Prop where
  | same (p : Pattern α) : Looser p p
  | star (p : Pattern α) : Looser p .star
  | unspecified (p : Pattern α) : Looser p .unspecified

/-- What is asked for by the other pattern is asked for by this one. -/
theorem Looser.asked (h : p.Looser q) {a : α} (ha : a ∈ q.asked) : a ∈ p.asked := by
  cases h with
  | same => exact ha
  | star => cases ha
  | unspecified => cases ha

theorem Accepts.mono {a : α} (ha : p.Accepts a) (h : p.Looser q) : q.Accepts a := fun b hb => ha b (h.asked hb)

end Pattern

/-! ### Lists -/

namespace ListPattern

variable {path : String} {actual : List Bytes} {p q : ListPattern}

/-- There are as many items as are listed, each accepted by the pattern at its position. -/
def Accepts (actual : List Bytes) : ListPattern → Prop
  | exact items => List.Forall₂ Pattern.Accepts items actual
  | _ => True

/-- The report about a list. -/
def Reports (path : String) (actual : List Bytes) : ListPattern → Mismatch → Prop
  | exact items, m =>
    ReportsInStep Pattern.Accepts (fun path p b => p.Reports path b (.bytes b)) path items actual m
  | _, _ => False

theorem firstMismatch_eq (items : List (Pattern Bytes)) (i : Nat) : firstMismatch path i items actual =
    firstAt (fun i (p : Pattern Bytes) b => p.mismatch (path ++ "[" ++ toString i ++ "]") b .bytes) i items
      actual := by
  induction items generalizing i actual with
  | nil => rfl
  | cons p ps ih =>
    cases actual with
    | nil => rfl
    | cons b bs => rw [firstMismatch, firstAt, ih]

theorem mismatch_exact (items : List (Pattern Bytes)) : (exact items).mismatch path actual =
    mismatchInStep (fun path (p : Pattern Bytes) b => p.mismatch path b .bytes) path items actual := by
  rw [mismatch, firstMismatch_eq, mismatchInStep]

theorem mismatch_eq_none : p.mismatch path actual = none ↔ p.Accepts actual := by
  cases p with
  | unspecified => exact iff_of_true rfl trivial
  | star => exact iff_of_true rfl trivial
  | exact items =>
    rw [mismatch_exact]
    refine mismatchInStep_eq_none fun path p b => ?_
    exact Pattern.mismatch_eq_none

theorem mismatch_eq_some {m : Mismatch} : p.mismatch path actual = some m ↔ p.Reports path actual m := by
  cases p with
  | unspecified => exact iff_of_false nofun id
  | star => exact iff_of_false nofun id
  | exact items =>
    rw [mismatch_exact]
    refine mismatchInStep_eq_some (fun path p b => ?_) fun path p b m => ?_
    · exact Pattern.mismatch_eq_none
    · exact Pattern.mismatch_eq_some

/-- The other pattern accepts everything, or differs in items that do not ask for more. -/
inductive Looser : ListPattern → ListPattern → Prop where
  | star (p : ListPattern) : Looser p .star
  | unspecified (p : ListPattern) : Looser p .unspecified
  | items {items items' : List (Pattern Bytes)} (h : List.Forall₂ Pattern.Looser items items') :
    Looser (.exact items) (.exact items')

theorem Looser.refl (p : ListPattern) : p.Looser p := by
  cases p with
  | unspecified => exact .unspecified _
  | star => exact .star _
  | exact items => exact .items (List.forall₂_same.2 fun p _ => .same p)

theorem Accepts.mono (ha : p.Accepts actual) (h : p.Looser q) : q.Accepts actual := by
  cases h with
  | star => trivial
  | unspecified => trivial
  | items h => exact forall₂_mono (fun hp h => hp.mono h) ha h

end ListPattern

end TrialLedger.Check
