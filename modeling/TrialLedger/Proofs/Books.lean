import TrialLedger.Proofs.Journal

/-! The books of a transaction. Read from its end a journal tells, for every moment, what the meters hold
that are live then and what the calls hold that wait. When every event moves gas that is there, nothing
falls below zero, and all that is held together with all that was charged stays within the gas limit. -/

namespace TrialLedger

/-- A frame that has not ended: what its meter holds, and the budgets of the calls that it has queued. -/
structure OpenFrame where
  meter : Int
  queued : List Int

structure Books where
  /-- The meter of the transaction itself, beside those of its frames. -/
  purse : Int := 0
  /-- Taken off a meter or left by one, and not handed on so far. -/
  aside : Int := 0
  /-- The frames that have not ended, innermost first. -/
  frames : List OpenFrame := []
  /-- The budgets of deferred calls that have not run, of frames that are committed. -/
  backlog : List Int := []

namespace Books

/-! ### Entries -/

/-- The innermost meter holds so much more. -/
def shift (n : Int) (t : Books) : Books :=
  match t.frames with
  | [] => t
  | f :: r => { t with frames := { f with meter := f.meter + n } :: r }

def setAside (n : Int) (t : Books) : Books := { t with aside := n }

/-- Queued calls are taken over by the innermost frame, or by the transaction when no frame is open. -/
def take (queued : List Int) (t : Books) : Books :=
  match t.frames with
  | [] => { t with backlog := t.backlog ++ queued }
  | f :: r => { t with frames := { f with queued := f.queued ++ queued } :: r }

/-- What is set aside when a call is about to begin. For a deferred call that is its budget; what the one
before it has left over then belongs to the transaction. -/
def settle (c : Call) (t : Books) : Books :=
  match t.frames, t.backlog with
  | [], n :: r => if c.kind = .async then { t with purse := t.purse + t.aside, aside := n, backlog := r } else t
  | _, _ => t

/-- A frame is open on what was set aside before. -/
def within (frame : OpenFrame) (aside : Int) (t : Books) : Books :=
  { t with aside, frames := frame :: t.frames }

/-- The innermost frame has ended and left so much gas. -/
def close (committed : Bool) (left : Int) (t : Books) : Books :=
  match t.frames with
  | [] => t
  | f :: r =>
    let rest := { t with frames := r }.setAside left
    if committed then rest.take f.queued else rest

def after (t : Books) : Event → Books
  | .entered c b _ _ => (t.settle c).within ⟨b.int, []⟩ 0
  | .charged a => t.shift (-a.int)
  | .reserved a => (t.shift (-a.int)).setAside a.int
  | .refunded a => (t.shift a.int).setAside 0
  | .queued a => (t.take [a.budget.int]).setAside 0
  | .left committed a => t.close committed a.int
  | .started | .stored _ | .logged _ => t

/-- The books at a moment of a transaction with the given gas limit, which is set aside for its own call. -/
def of (limit : Nat) (journal : List Event) : Books := journal.foldr (fun e t => t.after e) { aside := limit }

@[simp] theorem of_cons (limit : Nat) (e : Event) (journal : List Event) :
    of limit (e :: journal) = (of limit journal).after e := rfl

@[simp] theorem take_nil (t : Books) : t.take [] = t := by
  obtain ⟨purse, aside, frames, backlog⟩ := t
  cases frames <;> simp [take]

/-! ### Gas that is there -/

/-- An event that moves gas which is there. A frame begins on a meter that holds the whole gas limit of its call,
and what a meter is said to hold when its frame ends is what it holds in the books. -/
def Affords (t : Books) : Event → Prop
  | .entered c b _ _ => b = .whole c.gasLimit ∧ (t.settle c).aside = c.gasLimit
  | .charged a | .reserved a => ∃ f r n, t.frames = f :: r ∧ a = .whole n ∧ 0 ≤ n ∧ n ≤ f.meter
  | .refunded a => a = .whole t.aside ∧ t.frames ≠ []
  | .queued a => a.budget = .whole a.call.gasLimit ∧ t.aside = a.call.gasLimit ∧ t.frames ≠ []
  | .left _ a => ∃ f r, t.frames = f :: r ∧ a = .whole f.meter
  | .started | .stored _ | .logged _ => True

/-- Nothing is below zero. -/
structure Solvent (t : Books) : Prop where
  purse : 0 ≤ t.purse
  aside : 0 ≤ t.aside
  frames : ∀ f ∈ t.frames, 0 ≤ f.meter ∧ ∀ n ∈ f.queued, 0 ≤ n
  backlog : ∀ n ∈ t.backlog, 0 ≤ n

/-- All that is held. -/
def total (t : Books) : Int :=
  t.purse + t.aside + (t.frames.map fun f => f.meter + f.queued.sum).sum + t.backlog.sum

variable {t : Books}

theorem aside_shift (n : Int) : (t.shift n).aside = t.aside := by
  unfold shift
  split <;> rfl

theorem aside_take (queued : List Int) : (t.take queued).aside = t.aside := by
  unfold take
  split <;> rfl

theorem total_setAside (n : Int) : (t.setAside n).total + t.aside = t.total + n := by
  simp only [total, setAside]
  omega

theorem total_within (frame : OpenFrame) (aside : Int) :
    (t.within frame aside).total + t.aside = t.total + frame.meter + frame.queued.sum + aside := by
  simp only [total, within, List.map_cons, List.sum_cons]
  omega

theorem total_shift {f : OpenFrame} {r : List OpenFrame} (h : t.frames = f :: r) (n : Int) :
    (t.shift n).total = t.total + n := by
  simp only [total, shift, h, List.map_cons, List.sum_cons]
  omega

/-- The innermost meter changes while something is set aside in place of what was. -/
theorem total_shift_setAside {f : OpenFrame} {r : List OpenFrame} (h : t.frames = f :: r) (n m : Int) :
    ((t.shift n).setAside m).total + t.aside = t.total + n + m := by
  have hshift := total_shift h n
  have hset := (t.shift n).total_setAside m
  rw [aside_shift] at hset
  omega

theorem total_take (queued : List Int) : (t.take queued).total = t.total + queued.sum := by
  unfold take total
  cases h : t.frames with
  | nil =>
    simp only [List.map_nil, List.sum_nil, List.sum_append]
    omega
  | cons f r =>
    simp only [List.map_cons, List.sum_cons, List.sum_append]
    omega

/-- What a frame that ends has left stays, and so do its queued calls unless it is undone. -/
theorem total_close_le {f : OpenFrame} {r : List OpenFrame} (h : t.frames = f :: r) (haside : 0 ≤ t.aside)
    (hqueued : 0 ≤ f.queued.sum) (committed : Bool) : (t.close committed f.meter).total ≤ t.total := by
  have hs : ({ t with frames := r }.setAside f.meter).total + f.queued.sum + t.aside = t.total := by
    simp only [total, setAside, h, List.map_cons, List.sum_cons]
    omega
  simp only [close, h]
  cases committed with
  | true =>
    rw [if_pos rfl, total_take]
    omega
  | false =>
    rw [if_neg Bool.false_ne_true]
    omega

theorem total_settle (c : Call) : (t.settle c).total = t.total := by
  unfold settle total
  split
  · split
    · simp_all
      omega
    · rfl
  · rfl

theorem Solvent.settle (h : t.Solvent) (c : Call) : (t.settle c).Solvent := by
  unfold Books.settle
  split
  · rename_i n r hf hb
    split
    · have hn := h.backlog n (hb ▸ List.mem_cons_self)
      have hpurse := Int.add_nonneg h.purse h.aside
      exact ⟨hpurse, hn, h.frames, fun m hm => h.backlog m (hb ▸ List.mem_cons_of_mem _ hm)⟩
    · exact h
  · exact h

theorem Solvent.take (h : t.Solvent) {queued : List Int} (hq : ∀ n ∈ queued, 0 ≤ n) :
    (t.take queued).Solvent := by
  unfold Books.take
  split
  · refine ⟨h.purse, h.aside, h.frames, fun n hn => ?_⟩
    exact (List.mem_append.1 hn).elim (h.backlog n) (hq n)
  · rename_i f r hf
    have hframes := h.frames
    rw [hf, List.forall_mem_cons] at hframes
    refine ⟨h.purse, h.aside, List.forall_mem_cons.2 ⟨⟨hframes.1.1, fun n hn => ?_⟩, hframes.2⟩, h.backlog⟩
    exact (List.mem_append.1 hn).elim (hframes.1.2 n) (hq n)

theorem Solvent.shift (h : t.Solvent) {f : OpenFrame} {r : List OpenFrame} (hf : t.frames = f :: r) {n : Int}
    (hn : 0 ≤ f.meter + n) : (t.shift n).Solvent := by
  have hframes := h.frames
  rw [hf, List.forall_mem_cons] at hframes
  rw [Books.shift, hf]
  exact ⟨h.purse, h.aside, List.forall_mem_cons.2 ⟨⟨hn, hframes.1.2⟩, hframes.2⟩, h.backlog⟩

/-- Gas that is moved where it is there falls nowhere below zero. -/
theorem Solvent.after (h : t.Solvent) {e : Event} (he : t.Affords e) : (t.after e).Solvent := by
  cases e with
  | entered c b d a =>
    obtain ⟨rfl, -⟩ := he
    have hs := h.settle c
    exact ⟨hs.purse, Int.le_refl 0, List.forall_mem_cons.2 ⟨⟨Int.natCast_nonneg _, nofun⟩, hs.frames⟩, hs.backlog⟩
  | charged a =>
    obtain ⟨f, r, n, hf, rfl, -, hn⟩ := he
    exact h.shift hf (by rw [Amount.int_whole]; omega)
  | reserved a =>
    obtain ⟨f, r, n, hf, rfl, hpos, hn⟩ := he
    have hs := h.shift hf (n := -n) (by omega)
    exact ⟨hs.purse, hpos, hs.frames, hs.backlog⟩
  | refunded a =>
    obtain ⟨rfl, hne⟩ := he
    obtain ⟨f, r, hf⟩ := List.exists_cons_of_ne_nil hne
    have hmeter := (h.frames f (hf ▸ List.mem_cons_self)).1
    have hs := h.shift hf (Int.add_nonneg hmeter h.aside)
    exact ⟨hs.purse, Int.le_refl 0, hs.frames, hs.backlog⟩
  | queued a =>
    obtain ⟨hb, -, -⟩ := he
    have hbudget : 0 ≤ a.budget.int := by
      rw [hb, Amount.int_whole]
      exact Int.natCast_nonneg _
    have hs := h.take (List.forall_mem_singleton.2 hbudget)
    exact ⟨hs.purse, Int.le_refl 0, hs.frames, hs.backlog⟩
  | left committed a =>
    obtain ⟨f, r, hf, rfl⟩ := he
    have hframes := h.frames
    rw [hf, List.forall_mem_cons] at hframes
    have hs : ({ t with frames := r }.setAside f.meter).Solvent :=
      ⟨h.purse, hframes.1.1, hframes.2, h.backlog⟩
    simp only [Books.after, close, hf]
    cases committed with
    | true => exact hs.take hframes.1.2
    | false => exact hs
  | started => exact h
  | stored key => exact h
  | logged l => exact h

/-- Gas is moved or given up, and what is charged has gone. -/
theorem total_after_le (h : t.Solvent) {e : Event} (he : t.Affords e) : (t.after e).total + e.charge ≤ t.total := by
  have haside := h.aside
  cases e with
  | entered c b d a =>
    obtain ⟨rfl, hb⟩ := he
    have hopened := (t.settle c).total_within ⟨c.gasLimit, []⟩ 0
    simp only [total_settle, hb, List.sum_nil] at hopened
    simp only [Books.after, Event.charge, Amount.int_whole]
    omega
  | charged a =>
    obtain ⟨f, r, n, hf, rfl, -⟩ := he
    simp only [Books.after, total_shift hf, Event.charge]
    omega
  | reserved a =>
    obtain ⟨f, r, n, hf, rfl, -⟩ := he
    have hmove := total_shift_setAside hf (-n) n
    simp only [Books.after, Event.charge, Amount.int_whole]
    omega
  | refunded a =>
    obtain ⟨rfl, hne⟩ := he
    obtain ⟨f, r, hf⟩ := List.exists_cons_of_ne_nil hne
    have hmove := total_shift_setAside hf t.aside 0
    simp only [Books.after, Event.charge, Amount.int_whole]
    omega
  | queued a =>
    obtain ⟨hb, ha, -⟩ := he
    have htake := total_take (t := t) [a.budget.int]
    have hset := (t.take [a.budget.int]).total_setAside 0
    rw [List.sum_singleton, hb, Amount.int_whole] at htake
    rw [aside_take, hb, Amount.int_whole] at hset
    simp only [Books.after, Event.charge, hb, Amount.int_whole]
    omega
  | left committed a =>
    obtain ⟨f, r, hf, rfl⟩ := he
    have hqueued := List.sum_nonneg (h.frames f (hf ▸ List.mem_cons_self)).2
    have hclose := total_close_le hf haside hqueued committed
    simp only [Books.after, Event.charge, Amount.int_whole]
    omega
  | started => exact Int.le_of_eq (Int.add_zero _)
  | stored key => exact Int.le_of_eq (Int.add_zero _)
  | logged l => exact Int.le_of_eq (Int.add_zero _)

/-! ### Moments -/

/-- Every event of the journal moves gas that is there when it happens. -/
def Fits (limit : Nat) : List Event → Prop
  | [] => True
  | e :: journal => Fits limit journal ∧ (of limit journal).Affords e

variable {limit : Nat} {journal : List Event}

theorem Fits.of_suffix {moment : List Event} (h : Fits limit journal) (hm : moment <:+ journal) :
    Fits limit moment := by
  induction journal with
  | nil => rwa [List.suffix_nil.1 hm]
  | cons e r ih =>
    rcases List.suffix_cons_iff.1 hm with rfl | hm
    · exact h
    · exact ih h.1 hm

/-- Whatever has happened has moved gas that was there. -/
theorem Fits.affords_of_mem (h : Fits limit journal) {e : Event} (he : e ∈ journal) :
    ∃ moment, e :: moment <:+ journal ∧ (of limit moment).Affords e := by
  obtain ⟨later, moment, hjournal⟩ := List.append_of_mem he
  have hsuffix : e :: moment <:+ journal := ⟨later, hjournal.symm⟩
  exact ⟨moment, hsuffix, (h.of_suffix hsuffix).2⟩

theorem Fits.solvent (h : Fits limit journal) : (of limit journal).Solvent := by
  induction journal with
  | nil => exact ⟨Int.le_refl 0, Int.natCast_nonneg _, nofun, nofun⟩
  | cons e r ih => exact (ih h.1).after h.2

theorem Affords.charge_nonneg {e : Event} (he : t.Affords e) : 0 ≤ e.charge := by
  cases e with
  | charged a =>
    obtain ⟨_, _, n, -, rfl, hn, -⟩ := he
    exact hn
  | _ => exact Int.le_refl 0

theorem Fits.charged_nonneg (h : Fits limit journal) : 0 ≤ charged journal := by
  induction journal with
  | nil => exact Int.le_refl 0
  | cons e r ih =>
    rw [charged_cons]
    exact Int.add_nonneg h.2.charge_nonneg (ih h.1)

/-- What is held and what was charged stay within the gas limit. -/
theorem Fits.total_le (h : Fits limit journal) : (of limit journal).total + charged journal ≤ limit := by
  induction journal with
  | nil => simp [of, total, charged]
  | cons e r ih =>
    have hafter := total_after_le h.1.solvent h.2
    have hbefore := ih h.1
    rw [of_cons, charged_cons]
    omega

end Books

end TrialLedger
