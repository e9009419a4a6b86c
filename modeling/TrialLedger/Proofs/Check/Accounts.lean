import TrialLedger.Check.Accounts
import TrialLedger.Proofs.Bytes
import TrialLedger.Proofs.World.Same

/-! Which worlds are as a pattern for accounts expects them. What is looked at is written down as a list of
probes, in the order in which they are made. The first one that fails is reported, and without
one the world is accepted. -/

namespace TrialLedger.Check

/-! ### Probes -/

/-- One thing that is looked at, and what is reported if it is not as expected. -/
structure Probe where
  passes : Bool
  report : Mismatch

/-- The report of the first probe that fails. -/
def firstReport (l : List Probe) : Option Mismatch := (l.find? fun c => !c.passes).map Probe.report

theorem firstReport_cons (c : Probe) (l : List Probe) :
    firstReport (c :: l) = if c.passes then firstReport l else some c.report := by
  rw [firstReport, List.find?_cons]
  cases c.passes <;> rfl

theorem firstReport_append (l l' : List Probe) :
    firstReport (l ++ l') = (firstReport l).or (firstReport l') := by
  rw [firstReport, List.find?_append, Option.map_or]
  rfl

theorem firstReport_eq_none {l : List Probe} : firstReport l = none ↔ ∀ c ∈ l, c.passes := by
  simp [firstReport]

namespace Pattern

variable {α β : Type}

/-- The value that is asked for, if there is one. -/
def asked : Pattern α → Option α
  | exact a _ => some a
  | _ => none

theorem acceptsBy_iff {same : α → β → Bool} {p : Pattern α} {b : β} :
    p.acceptsBy same b = true ↔ ∀ a ∈ p.asked, same a b = true := by
  cases p <;> simp [acceptsBy, asked]

def probeBy (same : α → β → Bool) (p : Pattern α) (path : String) (actual : β) (shown : β → Exhibit) : Probe :=
  ⟨p.acceptsBy same actual, ⟨path, p.written, shown actual⟩⟩

def probe [DecidableEq α] (p : Pattern α) (path : String) (actual : α) (shown : α → Exhibit) : Probe :=
  p.probeBy (fun a b => a = b) path actual shown

theorem mismatchBy_eq (same : α → β → Bool) (p : Pattern α) (path : String) (actual : β) (shown : β → Exhibit) :
    p.mismatchBy same path actual shown = firstReport [p.probeBy same path actual shown] := by
  rw [firstReport_cons]
  rfl

theorem mismatch_eq [DecidableEq α] (p : Pattern α) (path : String) (actual : α) (shown : α → Exhibit) :
    p.mismatch path actual shown = firstReport [p.probe path actual shown] := by
  rw [firstReport_cons]
  rfl

theorem mismatchBy_eq_none {same : α → β → Bool} {p : Pattern α} {path : String} {actual : β}
    {shown : β → Exhibit} : p.mismatchBy same path actual shown = none ↔ ∀ a ∈ p.asked, same a actual = true := by
  rw [mismatchBy, ← acceptsBy_iff]
  split <;> simp_all

theorem mismatch_eq_none [DecidableEq α] {p : Pattern α} {path : String} {actual : α} {shown : α → Exhibit} :
    p.mismatch path actual shown = none ↔ ∀ a ∈ p.asked, a = actual := by
  simp only [show p.mismatch path actual shown = p.mismatchBy (fun a b => a = b) path actual shown from rfl,
    mismatchBy_eq_none, decide_eq_true_eq]

end Pattern

theorem sameAmount_whole (m n : Int) : sameAmount m (.whole n) = decide (m = n) := Amount.same_whole m n

/-! ### Maps -/

namespace MapPattern

variable {κ ι α β : Type} [DecidableEq ι] (v : View κ ι α β) (path : String) (actual : Table ι β)

def listedProbe (e : κ × Pattern α) : Probe :=
  e.2.probeBy v.same (path ++ "[" ++ v.listed e.1 ++ "]") (actual.getD (v.locate e.1) v.empty) v.value

def strangerProbe (e : ι × β) : Probe :=
  ⟨v.isEmpty e.2, ⟨path ++ "[" ++ v.stored e.1 e.2 ++ "]", .text "absent", v.value e.2⟩⟩

/-- The entries of a map that are not listed, in the order of the shown keys. -/
def strangers (listed : List ι) : List (ι × β) :=
  (actual.entries.mergeSort fun a b => decide (v.stored a.1 a.2 ≤ v.stored b.1 b.2)).filter
    fun e => !listed.contains e.1

/-- Listed entries are looked at in their order, then the others. -/
def probes : MapPattern κ α → List Probe
  | exact entries allowMore =>
    entries.map (listedProbe v path actual) ++
      if allowMore then []
      else (strangers v actual (entries.map fun e => v.locate e.1)).map (strangerProbe v path)
  | _ => []

theorem listedMismatch_eq (entries : List (κ × Pattern α)) :
    listedMismatch v path actual entries = firstReport (entries.map (listedProbe v path actual)) := by
  induction entries with
  | nil => rfl
  | cons e r ih =>
    rw [listedMismatch, ih, Pattern.mismatchBy_eq, ← firstReport_append]
    rfl

theorem strangerMismatch_eq (listed : List ι) :
    strangerMismatch v path actual listed =
      firstReport ((strangers v actual listed).map (strangerProbe v path)) := by
  rw [strangerMismatch, firstReport, strangers, List.find?_map, List.find?_filter, Option.map_map]
  simp only [Bool.decide_and, Bool.decide_eq_true]
  rfl

theorem mismatch_eq (p : MapPattern κ α) :
    p.mismatch v path actual = firstReport (p.probes v path actual) := by
  cases p with
  | unspecified => rfl
  | star => rfl
  | exact entries allowMore =>
    rw [mismatch, probes, firstReport_append, listedMismatch_eq]
    cases allowMore with
    | true => rfl
    | false => rw [if_neg Bool.false_ne_true, if_neg Bool.false_ne_true, strangerMismatch_eq]

/-- The entries that are listed, with what is expected there. -/
def entries : MapPattern κ α → List (κ × Pattern α)
  | exact entries _ => entries
  | _ => []

/-- Whether nothing else may be there. -/
def closed : MapPattern κ α → Bool
  | exact _ allowMore => !allowMore
  | _ => false

/-- A map holds under every listed key what is asked for, and nothing under others if the pattern is closed. -/
def Accepts (p : MapPattern κ α) : Prop :=
  (∀ e ∈ p.entries, ∀ a ∈ e.2.asked, v.same a (actual.getD (v.locate e.1) v.empty) = true) ∧
    (p.closed = true → ∀ i, (∀ e ∈ p.entries, v.locate e.1 ≠ i) → v.isEmpty (actual.getD i v.empty) = true)

theorem mem_strangers {listed : List ι} {e : ι × β} :
    e ∈ strangers v actual listed ↔ actual.get? e.1 = some e.2 ∧ e.1 ∉ listed := by
  rw [strangers, List.mem_filter, List.mem_mergeSort, Table.mem_entries_iff]
  simp

/-- All probes pass exactly when the map holds what it has to. -/
theorem mismatch_eq_none {v : View κ ι α β} (hempty : v.isEmpty v.empty = true) {path : String}
    {actual : Table ι β} {p : MapPattern κ α} : p.mismatch v path actual = none ↔ p.Accepts v actual := by
  rw [mismatch_eq, firstReport_eq_none]
  cases p with
  | unspecified => simp [probes, Accepts, entries, closed]
  | star => simp [probes, Accepts, entries, closed]
  | exact l allowMore =>
    have hlisted : (∀ c ∈ l.map (listedProbe v path actual), c.passes) ↔
        ∀ e ∈ l, ∀ a ∈ e.2.asked, v.same a (actual.getD (v.locate e.1) v.empty) = true := by
      simp only [List.forall_mem_map, listedProbe, Pattern.probeBy, Pattern.acceptsBy_iff]
    have hstrangers : (∀ c ∈ (strangers v actual (l.map fun e => v.locate e.1)).map (strangerProbe v path),
        c.passes) ↔ ∀ i, (∀ e ∈ l, v.locate e.1 ≠ i) → v.isEmpty (actual.getD i v.empty) = true := by
      have hunlisted : ∀ i, i ∉ l.map (fun e => v.locate e.1) ↔ ∀ e ∈ l, v.locate e.1 ≠ i := by
        simp [List.mem_map]
      rw [List.forall_mem_map]
      constructor
      · intro h i hi
        cases hget : actual.get? i with
        | none => rwa [Table.getD, hget]
        | some b =>
          rw [Table.getD, hget]
          exact h (i, b) ((mem_strangers v actual).2 ⟨hget, (hunlisted i).2 hi⟩)
      · rintro h ⟨i, b⟩ hb
        obtain ⟨hget, hi⟩ := (mem_strangers v actual).1 hb
        have hempty := h i ((hunlisted i).1 hi)
        rwa [Table.getD, hget] at hempty
    rw [probes, Accepts, entries, closed, List.forall_mem_append, hlisted]
    cases allowMore with
    | true => simp
    | false =>
      rw [if_neg Bool.false_ne_true, hstrangers]
      exact and_congr_right fun _ => ⟨fun h _ => h, fun h => h rfl⟩

end MapPattern

/-! ### Accounts -/

namespace AccountPattern

variable (p : AccountPattern) (path : String) (a : Account)

/-- Single values are looked at before the maps. -/
def probes : List Probe :=
  [p.nonce.probe (path ++ ".nonce") a.nonce .int,
    p.balance.probeBy sameAmount (path ++ ".balance") a.balance fun b => b.value,
    p.code.probe (path ++ ".code") a.code (shownOption .text),
    p.owner.probe (path ++ ".owner") a.owner (shownOption .bytes)] ++
    (p.dct.probes dctView (path ++ ".dct") a.dct ++ p.storage.probes storageView (path ++ ".storage") a.storage)

theorem mismatch_eq : p.mismatch path a = firstReport (p.probes path a) := by
  rw [mismatch, probes, firstReport_append, firstReport_append, ← MapPattern.mismatch_eq, ← MapPattern.mismatch_eq]
  simp only [Pattern.mismatch_eq, Pattern.mismatchBy_eq, ← Option.or_assoc, ← firstReport_append]
  rfl

/-- What an account has to hold to be as expected: the values that are asked for, also under the listed
tokens and storage keys, and nothing under others where the pattern is closed. -/
structure Accepts : Prop where
  nonce : ∀ n ∈ p.nonce.asked, n = a.nonce
  balance : ∀ n ∈ p.balance.asked, sameAmount n a.balance = true
  code : ∀ c ∈ p.code.asked, c = a.code
  owner : ∀ b ∈ p.owner.asked, b = a.owner
  listedDct : ∀ e ∈ p.dct.entries, ∀ n ∈ e.2.asked, sameAmount n (a.held e.1.1 (.number e.1.2)) = true
  otherDct : p.dct.closed = true → ∀ id k, (∀ e ∈ p.dct.entries, (e.1.1, .number e.1.2) ≠ (id, k)) →
    (a.held id k).isZero = true
  listedStorage : ∀ e ∈ p.storage.entries, ∀ b ∈ e.2.asked, b = a.storage.getD e.1 []
  otherStorage : p.storage.closed = true → ∀ k, (∀ e ∈ p.storage.entries, e.1 ≠ k) → a.storage.getD k [] = []

variable {p a}

theorem amount_getD_dct (i : Bytes × Key) : (a.dct.getD i dctView.empty).amount = a.held i.1 i.2 := by
  rw [Account.held, Table.getD]
  cases a.dct.get? i <;> rfl

theorem accepts_dct_iff : p.dct.Accepts dctView a.dct ↔
    (∀ e ∈ p.dct.entries, ∀ n ∈ e.2.asked, sameAmount n (a.held e.1.1 (.number e.1.2)) = true) ∧
    (p.dct.closed = true → ∀ id k, (∀ e ∈ p.dct.entries, (e.1.1, .number e.1.2) ≠ (id, k)) →
      (a.held id k).isZero = true) := by
  have hsame : ∀ n i, dctView.same n (a.dct.getD i dctView.empty) = sameAmount n (a.held i.1 i.2) :=
    fun n i => congrArg (sameAmount n) (amount_getD_dct i)
  have hempty : ∀ i, dctView.isEmpty (a.dct.getD i dctView.empty) = (a.held i.1 i.2).isZero :=
    fun i => congrArg Amount.isZero (amount_getD_dct i)
  simp only [MapPattern.Accepts, hsame, hempty, Prod.forall]
  rfl

theorem accepts_storage_iff : p.storage.Accepts storageView a.storage ↔
    (∀ e ∈ p.storage.entries, ∀ b ∈ e.2.asked, b = a.storage.getD e.1 []) ∧
    (p.storage.closed = true → ∀ k, (∀ e ∈ p.storage.entries, e.1 ≠ k) → a.storage.getD k [] = []) := by
  simp [MapPattern.Accepts, storageView]

/-- An account is as expected exactly when no part of it is reported. -/
theorem mismatch_eq_none {path : String} : p.mismatch path a = none ↔ p.Accepts a := by
  have hdct : dctView.isEmpty dctView.empty = true := Amount.isZero_whole 0
  have hstorage : storageView.isEmpty storageView.empty = true := rfl
  simp only [mismatch, Option.or_eq_none_iff, Pattern.mismatch_eq_none, Pattern.mismatchBy_eq_none,
    MapPattern.mismatch_eq_none hdct, MapPattern.mismatch_eq_none hstorage, accepts_dct_iff, accepts_storage_iff]
  constructor
  · rintro ⟨h₁, h₂, h₃, h₄, ⟨h₅, h₆⟩, h₇, h₈⟩
    exact ⟨h₁, h₂, h₃, h₄, h₅, h₆, h₇, h₈⟩
  · exact fun h => ⟨h.nonce, h.balance, h.code, h.owner, ⟨h.listedDct, h.otherDct⟩, h.listedStorage, h.otherStorage⟩

end AccountPattern

/-! ### Worlds -/

namespace AccountsPattern

variable (p : AccountsPattern) (w : World)

def existenceProbe (e : Bytes × AccountPattern) : Probe :=
  ⟨(w.account? e.1).isSome, ⟨accountPath e.1, .text "existing account", .text "missing"⟩⟩

/-- A listed account has to be there, and then its parts are looked at. -/
def listedProbes (e : Bytes × AccountPattern) : List Probe :=
  existenceProbe w e :: match w.account? e.1 with
    | none => []
    | some a => e.2.probes (accountPath e.1) a

def strangerProbe (address : Bytes) : Probe :=
  ⟨false, ⟨accountPath address, .text "absent", .text "unexpected account"⟩⟩

/-- The addresses that are not listed, in the order of byte strings. -/
def strangers : List Bytes :=
  (w.accounts.keys.filter fun b => !(p.accounts.map Prod.fst).contains b).mergeSort fun a b => decide (a ≤ b)

/-- All that is looked at, in its order. -/
def probes : List Probe :=
  p.accounts.flatMap (listedProbes w) ++ if p.allowMore then [] else (p.strangers w).map strangerProbe

/-- What a world has to hold to be as expected. -/
structure Accepts : Prop where
  listed : ∀ e ∈ p.accounts, ∃ a, w.account? e.1 = some a ∧ e.2.Accepts a
  others : p.allowMore = false → ∀ b, w.account? b ≠ none → b ∈ p.accounts.map Prod.fst
  strays : p.allowMore = false → ∀ k, w.strays.get? k = none

theorem listedMismatch_eq (l : List (Bytes × AccountPattern)) :
    listedMismatch w l = firstReport (l.flatMap (listedProbes w)) := by
  induction l with
  | nil => rfl
  | cons e r ih =>
    rw [listedMismatch, List.flatMap_cons, firstReport_append, ← ih, listedProbes, firstReport_cons, existenceProbe]
    cases w.account? e.1 with
    | none => rfl
    | some a => exact congrArg (fun o : Option Mismatch => o.or (listedMismatch w r)) (AccountPattern.mismatch_eq ..)

theorem filter_mergeSort_keys :
    (w.accounts.keys.mergeSort Bytes.le).filter (fun b => !(p.accounts.map Prod.fst).contains b) = p.strangers w := by
  have hle : Bytes.le = fun a b => decide (a ≤ b) := by
    funext a b
    rw [Bool.eq_iff_iff, Bytes.le_iff, decide_eq_true_eq]
  have hsorted : ∀ l : List Bytes, (l.mergeSort fun a b => decide (a ≤ b)).Pairwise (· ≤ ·) := fun l =>
    (List.pairwise_mergeSort (fun a b c hab hbc => by
      rw [decide_eq_true_eq] at hab hbc ⊢
      exact List.le_trans hab hbc) (fun a b => by simpa using List.le_total a b) l).imp fun h => of_decide_eq_true h
  rw [hle]
  refine List.Perm.eq_of_pairwise (fun a b _ _ hab hba => List.le_antisymm hab hba) ((hsorted _).filter _)
    (hsorted _) ?_
  exact ((List.mergeSort_perm ..).filter _).trans (List.mergeSort_perm ..).symm

theorem strangerMismatch_eq :
    strangerMismatch w (p.accounts.map Prod.fst) = firstReport ((p.strangers w).map strangerProbe) := by
  rw [strangerMismatch, ← List.head?_filter, filter_mergeSort_keys]
  cases p.strangers w <;> rfl

theorem mismatch_eq : p.mismatch w = match firstReport (p.accounts.flatMap (listedProbes w)) with
    | some m => .ok (some m)
    | none => if p.allowMore then .ok none
      else (checkOrder w).map fun _ => firstReport ((p.strangers w).map strangerProbe) := by
  rw [mismatch, listedMismatch_eq, strangerMismatch_eq]
  cases firstReport (p.accounts.flatMap (listedProbes w)) with
  | some m => rfl
  | none =>
    cases p.allowMore with
    | true => rfl
    | false => cases checkOrder w <;> rfl

variable {p w}

theorem listedProbes_pass_iff {e : Bytes × AccountPattern} :
    (∀ c ∈ listedProbes w e, c.passes) ↔ ∃ a, w.account? e.1 = some a ∧ e.2.Accepts a := by
  rw [listedProbes, List.forall_mem_cons, existenceProbe]
  cases w.account? e.1 with
  | none => simp
  | some a =>
    have hparts : (∀ c ∈ e.2.probes (accountPath e.1) a, c.passes) ↔ e.2.Accepts a := by
      rw [← firstReport_eq_none, ← AccountPattern.mismatch_eq, AccountPattern.mismatch_eq_none]
    simpa using hparts

theorem strangers_eq_nil : p.strangers w = [] ↔ ∀ b, w.account? b ≠ none → b ∈ p.accounts.map Prod.fst := by
  have hkeys : ∀ b, b ∈ w.accounts.keys ↔ w.account? b ≠ none := by
    intro b
    rw [World.account?, Option.ne_none_iff_exists', Table.keys, List.mem_map]
    constructor
    · rintro ⟨e, he, rfl⟩
      exact ⟨e.2, Table.mem_entries_iff.1 he⟩
    · rintro ⟨a, ha⟩
      exact ⟨(b, a), Table.mem_entries_iff.2 ha, rfl⟩
  have hmem : ∀ b, b ∈ p.strangers w ↔ w.account? b ≠ none ∧ b ∉ p.accounts.map Prod.fst := by
    intro b
    rw [strangers, List.mem_mergeSort, List.mem_filter, hkeys]
    simp
  rw [List.eq_nil_iff_forall_not_mem]
  simp only [hmem, not_and, not_not]

/-- No report comes back exactly when the world holds what it has to. -/
theorem mismatch_eq_ok_none : p.mismatch w = .ok none ↔ p.Accepts w := by
  have hlisted : firstReport (p.accounts.flatMap (listedProbes w)) = none ↔
      ∀ e ∈ p.accounts, ∃ a, w.account? e.1 = some a ∧ e.2.Accepts a := by
    rw [firstReport_eq_none, List.forall_mem_flatMap]
    exact forall₂_congr fun e _ => listedProbes_pass_iff
  have hstrangers : firstReport ((p.strangers w).map strangerProbe) = none ↔ p.strangers w = [] := by
    cases p.strangers w <;> simp [firstReport, strangerProbe]
  have hstrays : checkOrder w = .ok () ↔ ∀ k, w.strays.get? k = none := by
    rw [← Table.entries_eq_nil_iff, checkOrder]
    cases w.strays.entries <;> simp
  rw [mismatch_eq]
  constructor
  · intro h
    cases hfirst : firstReport (p.accounts.flatMap (listedProbes w)) with
    | some m => simp [hfirst] at h
    | none =>
      rw [hfirst] at h
      have hclosed : p.allowMore = false → checkOrder w = .ok () ∧ p.strangers w = [] := by
        intro hmore
        cases horder : checkOrder w with
        | error f => simp [hmore, horder, Except.map] at h
        | ok => exact ⟨rfl, hstrangers.1 (by simpa [hmore, horder, Except.map] using h)⟩
      exact ⟨hlisted.1 hfirst, fun hmore => strangers_eq_nil.1 (hclosed hmore).2,
        fun hmore => hstrays.1 (hclosed hmore).1⟩
  · intro h
    rw [hlisted.2 h.listed]
    cases hmore : p.allowMore with
    | true => rfl
    | false =>
      have hnone := hstrangers.2 (strangers_eq_nil.2 (h.others hmore))
      simp [hstrays.2 (h.strays hmore), hnone, Except.map]

end AccountsPattern

end TrialLedger.Check
