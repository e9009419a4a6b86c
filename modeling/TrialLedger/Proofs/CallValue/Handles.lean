import TrialLedger.CallValue.Host
import TrialLedger.Proofs.Action
import TrialLedger.Proofs.Table

/-! Handle tables that are in use. A live table answers every allocation, an allocation changes
nothing under the handles that were given out before, and the rows that describe the transfers of
a call stay readable while further handles are given out. -/

namespace TrialLedger

namespace HandleTable

variable {t u v : HandleTable}

/-- The table with one more value under the next handle. -/
def allocated (t : HandleTable) (x : Value) : HandleTable :=
  { t with next := t.next + 1, values := t.values.put (.number t.next) x }

/-- The table with a value under the given handle. -/
def stored (t : HandleTable) (k : Key) (x : Value) : HandleTable := { t with values := t.values.put k x }

/-! ### Live tables -/

theorem checkLive_apply (h : t.released = false) : checkLive t = (.ok (), t) := by
  simp [checkLive, h]

theorem new_apply (h : t.released = false) (x : Value) : new x t = (.ok t.next, t.allocated x) :=
  Action.bind_ok (checkLive_apply h)

theorem store_apply (h : t.released = false) (k : Key) (x : Value) :
    store k x t = (.ok (), t.stored k x) :=
  Action.bind_ok (checkLive_apply h)

theorem load_apply (h : t.released = false) {k : Key} {x : Value} (hx : t.values.get? k = some x)
    (name : String) : load k name t = (.ok x, t) := by
  refine (Action.bind_ok (checkLive_apply h)).trans ?_
  simp only [hx]

/-- What is not there cannot be read, and the message about it names the frame. -/
theorem load_absent (h : t.released = false) {k : Key} (hk : t.values.get? k = none) (name : String) :
    load k name t = (.error (.fault (.unknownHandle name t.owner)), t) := by
  refine (Action.bind_ok (checkLive_apply h)).trans ?_
  simp only [hk]

theorem get_apply (h : t.released = false) {n : Int} {x : Value}
    (hx : t.values.get? (.number n) = some x) : get n t = (.ok x, t) :=
  load_apply h hx _

theorem get_absent (h : t.released = false) {n : Int} (hn : t.values.get? (.number n) = none) :
    get n t = (.error (.fault (.unknownHandle (toString n) t.owner)), t) :=
  load_absent h hn _

theorem loadAt_int (h : t.released = false) {n : Int} {x : Value}
    (hx : t.values.get? (.number n) = some x) : loadAt (.int n) t = (.ok x, t) := by
  have hhandle : handleOf (.int n) t = (.ok (.number n), t) := by
    unfold handleOf
    rw [Action.bind_ok (checkLive_apply h), Key.ofValue_int, Action.ofExcept_apply]
    rfl
  unfold loadAt
  rw [Action.bind_ok hhandle]
  exact load_apply h hx _

/-! ### Tables that grow -/

/-- The second table has all that the first one has, and more handles may have been given out. -/
structure Grows (t u : HandleTable) : Prop where
  owner_eq : u.owner = t.owner
  released_eq : u.released = t.released
  next_le : t.next ≤ u.next
  get?_eq : ∀ n < t.next, u.values.get? (.number n) = t.values.get? (.number n)

namespace Grows

theorem refl (t : HandleTable) : t.Grows t := ⟨rfl, rfl, le_refl _, fun _ _ => rfl⟩

theorem trans (h : t.Grows u) (h' : u.Grows v) : t.Grows v where
  owner_eq := h'.owner_eq.trans h.owner_eq
  released_eq := h'.released_eq.trans h.released_eq
  next_le := h.next_le.trans h'.next_le
  get?_eq n hn := by
    rw [h'.get?_eq n (by have := h.next_le; omega), h.get?_eq n hn]

end Grows

theorem get?_allocated (t : HandleTable) (x : Value) :
    (t.allocated x).values.get? (.number t.next) = some x := by
  rw [allocated, Table.get?_put, if_pos rfl]

theorem get?_stored (t : HandleTable) (k : Key) (x : Value) : (t.stored k x).values.get? k = some x := by
  rw [stored, Table.get?_put, if_pos rfl]

theorem get?_stored_ne {k k' : Key} (h : k' ≠ k) (t : HandleTable) (x : Value) :
    (t.stored k x).values.get? k' = t.values.get? k' := by
  rw [stored, Table.get?_put, if_neg h]

theorem grows_allocated (t : HandleTable) (x : Value) : t.Grows (t.allocated x) := by
  refine ⟨rfl, rfl, ?_, fun n hn => ?_⟩
  · change t.next ≤ t.next + 1
    omega
  · have hne : Key.number n ≠ .number t.next := by
      intro h
      have := Key.number.inj h
      omega
    rw [allocated, Table.get?_put, if_neg hne]

end HandleTable

/-! ### Rows -/

namespace CallValue.Host

open HandleTable

variable {t u : HandleTable} {row : Value} {x : Transfer}

/-- The row holds the nonce of the transfer and handles to its token and its amount. -/
structure Describes (t : HandleTable) (row : Value) (x : Transfer) (i j : Int) : Prop where
  row_eq : row = .tuple [.int i, .int x.nonce, .int j]
  token_pos : 0 < i
  token_lt : i < t.next
  token_eq : t.values.get? (.number i) = some (.token x.token)
  amount_pos : 0 < j
  amount_lt : j < t.next
  amount_eq : t.values.get? (.number j) = some (.int x.amount)

/-- The row describes the transfer by some handles of the table. -/
def RowOf (t : HandleTable) (row : Value) (x : Transfer) : Prop := ∃ i j, Describes t row x i j

theorem RowOf.mono (h : RowOf t row x) (hg : t.Grows u) : RowOf u row x := by
  obtain ⟨i, j, d⟩ := h
  have hnext := hg.next_le
  have hi := d.token_lt
  have hj := d.amount_lt
  refine ⟨i, j, d.row_eq, d.token_pos, by omega, ?_, d.amount_pos, by omega, ?_⟩
  · rw [hg.get?_eq i hi, d.token_eq]
  · rw [hg.get?_eq j hj, d.amount_eq]

/-- Handles below zero are never allocated, so what is stored there leaves all rows alone. -/
theorem RowOf.stored (h : RowOf t row x) {n : Int} (hn : n < 0) (y : Value) :
    RowOf (t.stored (.number n) y) row x := by
  obtain ⟨i, j, d⟩ := h
  have hne : ∀ k : Int, 0 < k → Key.number k ≠ .number n := by
    intro k hk he
    have := Key.number.inj he
    omega
  refine ⟨i, j, d.row_eq, d.token_pos, d.token_lt, ?_, d.amount_pos, d.amount_lt, ?_⟩
  · rw [get?_stored_ne (hne i d.token_pos), d.token_eq]
  · rw [get?_stored_ne (hne j d.amount_pos), d.amount_eq]

theorem allocateRows_apply (h : t.released = false) (hpos : 0 < t.next) (xs : List Transfer) :
    ∃ rows u, allocateRows xs t = (.ok rows, u) ∧ t.Grows u ∧ List.Forall₂ (RowOf u) rows xs := by
  induction xs generalizing t with
  | nil => exact ⟨[], t, rfl, .refl t, .nil⟩
  | cons x xs ih =>
    set t₁ := t.allocated (.token x.token) with ht₁
    set t₂ := t₁.allocated (.int x.amount) with ht₂
    have hg₁ : t.Grows t₁ := grows_allocated _ _
    have hg₂ : t₁.Grows t₂ := grows_allocated _ _
    have hnext₁ : t₁.next = t.next + 1 := rfl
    have hnext₂ : t₂.next = t₁.next + 1 := rfl
    obtain ⟨rows, u, hrun, hg, hrows⟩ := ih (t := t₂) h (by omega)
    have hrow : RowOf t₂ (.tuple [.int t.next, .int x.nonce, .int t₁.next]) x := by
      refine ⟨t.next, t₁.next, rfl, hpos, by omega, ?_, by omega, by omega, get?_allocated _ _⟩
      rw [hg₂.get?_eq t.next (by omega)]
      exact get?_allocated _ _
    refine ⟨_ :: rows, u, ?_, (hg₁.trans hg₂).trans hg, .cons (hrow.mono hg) hrows⟩
    unfold allocateRows
    rw [Action.bind_ok (new_apply h _), ← ht₁, Action.bind_ok (new_apply (t := t₁) h _), ← ht₂,
      Action.bind_ok hrun]
    rfl

/-- Rows for all transfers of a call end up under a handle below zero. -/
theorem loadAll_apply (h : t.released = false) (hpos : 0 < t.next) (c : Call) {n : Int} (hn : n < 0) :
    ∃ rows u, loadAll c (.number n) t = (.ok (), u.stored (.number n) (.list rows)) ∧
      (t.stored (.number n) (.list [])).Grows u ∧ List.Forall₂ (RowOf u) rows c.transfers := by
  set t₁ := t.stored (.number n) (.list []) with ht₁
  have hlive : t₁.released = false := h
  obtain ⟨rows, u, hrun, hg, hrows⟩ := allocateRows_apply hlive hpos c.transfers
  refine ⟨rows, u, ?_, hg, hrows⟩
  have hfree : isAllocated t₁ u (.number n) = false := by
    have hnext : t₁.next = t.next := rfl
    have hlt : ¬ t.next ≤ n := by omega
    simp [isAllocated, hnext, hlt]
  have hstore := store_apply (hg.released_eq.trans hlive) (.number n) (.list rows)
  unfold loadAll
  rw [Action.bind_ok (store_apply h _ _), ← ht₁]
  change (allocateRows c.transfers >>= fun rows => Action.get >>= fun after =>
    if isAllocated t₁ after (.number n) then pure () else store (.number n) (.list rows)) t₁ = _
  rw [Action.bind_ok hrun]
  change (if isAllocated t₁ u (.number n) then pure () else store (.number n) (.list rows) :
    Action HandleTable Unit) u = _
  rw [hfree]
  exact hstore

end CallValue.Host

end TrialLedger
