import Mathlib
import TrialLedger.Proofs.Survivors

/-! Frames that are under way, as a journal tells. Read from its end it says which frames have begun and not
ended, for which calls they are and whether their code has begun to run; the innermost one is where an event
belongs. What comes after a place tells how the frames end that are open there. -/

namespace TrialLedger

/-- A frame that has begun and not ended. -/
structure Visit where
  call : Call
  /-- Whether the code of the frame's endpoint has begun to run. -/
  started : Bool

namespace Visit

/-- The frames that are open after an event, by those before it, innermost first. -/
def after (l : List Visit) : Event → List Visit
  | .entered c .. => ⟨c, false⟩ :: l
  | .started => l.modifyHead fun v => { v with started := true }
  | .left .. => l.tail
  | _ => l

/-- The frames that have not ended, innermost first. -/
def opened (journal : List Event) : List Visit := journal.foldr (fun e l => after l e) []

/-- Open frames all of which will be committed. -/
def committed (l : List Visit) : List Bool := l.map fun _ => true

@[simp] theorem opened_cons (e : Event) (journal : List Event) :
    opened (e :: journal) = after (opened journal) e := rfl

end Visit

open Visit (after opened committed)

/-! ### Parts of journals -/

/-- A journal goes on from an earlier one. Of the frames that have begun since, the given ones are open, and
all that has happened lies between their beginnings and ends. -/
structure Since (start : List Event) (l : List Visit) (journal : List Event) : Prop where
  opened_eq : opened journal = l ++ opened start
  events : ∃ events, journal = events ++ start ∧
    ∀ own fates : List Bool, own.length = l.length → fatesBefore (own ++ fates) events = fates

namespace Since

variable {start journal journal' : List Event} {l : List Visit} {e : Event}

theorem refl (start : List Event) : Since start [] start where
  opened_eq := rfl
  events := by
    refine ⟨[], rfl, fun own fates h => ?_⟩
    rw [List.length_eq_zero_iff.1 h]
    rfl

/-- One more event. Only where one of the frames is open, events other than a beginning belong to them. -/
theorem cons (h : Since start l journal) (e : Event) (hl : l ≠ [] ∨ ∃ c b d a, e = .entered c b d a) :
    Since start (after l e) (e :: journal) := by
  obtain ⟨hopened, events, rfl, hfates⟩ := h
  have hstep : ∀ own fates : List Bool, own.length = (after l e).length →
      ∃ own' : List Bool, own'.length = l.length ∧ e.fatesBefore (own ++ fates) = own' ++ fates := by
    intro own fates hown
    cases e with
    | entered c b d a =>
      obtain ⟨fate, own', rfl⟩ := List.exists_cons_of_length_eq_add_one hown
      exact ⟨own', by simpa [after] using hown, rfl⟩
    | left done left =>
      obtain hl | ⟨_, _, _, _, hl⟩ := hl
      · have hpos := List.length_pos_of_ne_nil hl
        refine ⟨done :: own, ?_, rfl⟩
        rw [List.length_cons, hown, after, List.length_tail]
        omega
      · cases hl
    | started => exact ⟨own, by simpa [after] using hown, rfl⟩
    | charged | reserved | refunded | stored | logged | queued => exact ⟨own, hown, rfl⟩
  refine ⟨?_, e :: events, rfl, fun own fates hown => ?_⟩
  · rw [Visit.opened_cons, hopened]
    cases l with
    | cons v l => cases e <;> rfl
    | nil =>
      obtain hl | ⟨_, _, _, _, rfl⟩ := hl
      · exact absurd rfl hl
      · rfl
  · obtain ⟨own', hown', hbefore⟩ := hstep own fates hown
    have hfold : fatesBefore (own ++ fates) (e :: events) = fatesBefore (e.fatesBefore (own ++ fates)) events := rfl
    rw [hfold, hbefore, hfates own' fates hown']

/-- A nested part that is over belongs to the part around it. -/
theorem trans (h : Since start l journal) (h' : Since journal [] journal') : Since start l journal' := by
  obtain ⟨hopened, events, rfl, hfates⟩ := h
  obtain ⟨hopened', events', rfl, hfates'⟩ := h'
  refine ⟨hopened'.trans hopened, events' ++ events, (List.append_assoc _ _ _).symm, fun own fates hown => ?_⟩
  have hfold : fatesBefore (own ++ fates) (events' ++ events) =
      fatesBefore (fatesBefore (own ++ fates) events') events := List.foldl_append
  have hinner : fatesBefore (own ++ fates) events' = own ++ fates := hfates' [] (own ++ fates) rfl
  rw [hfold, hinner, hfates own fates hown]

end Since

/-! ### Writes -/

/-- A key was written in a frame, and that frame is committed with all frames around it, when the frames that
are open in the end have the given fates. -/
def Stored (fates : List Bool) (journal : List Event) (key : Bytes) (v : Visit) : Prop :=
  ∃ later earlier outer, journal = later ++ .stored key :: earlier ∧ opened earlier = v :: outer ∧
    fatesBefore fates later = committed (v :: outer)

namespace Stored

variable {fates : List Bool} {journal : List Event} {key : Bytes} {v : Visit}

theorem append (events : List Event) (h : Stored (fatesBefore fates events) journal key v) :
    Stored fates (events ++ journal) key v := by
  obtain ⟨later, earlier, outer, rfl, hopened, hfates⟩ := h
  have hfold : fatesBefore fates (events ++ later) = fatesBefore (fatesBefore fates events) later :=
    List.foldl_append
  exact ⟨events ++ later, earlier, outer, (List.append_assoc _ _ _).symm, hopened, hfold.trans hfates⟩

/-- A write of the innermost frame, if all open frames are committed. -/
theorem here {outer : List Visit} (h : opened journal = v :: outer) :
    Stored (committed (v :: outer)) (.stored key :: journal) key v :=
  ⟨[], journal, outer, rfl, h, rfl⟩

end Stored

/-- If the frames that are open in the end are committed, a part that is over does not undo earlier writes. -/
theorem Since.stored {start journal : List Event} {key : Bytes} {v : Visit} (h : Since start [] journal)
    (hs : Stored (committed (opened start)) start key v) : Stored (committed (opened journal)) journal key v := by
  obtain ⟨hopened, events, rfl, hfates⟩ := h
  have houter : fatesBefore (committed (opened start)) events = committed (opened start) :=
    hfates [] (committed (opened start)) rfl
  rw [hopened, List.nil_append]
  refine .append events ?_
  rwa [houter]

end TrialLedger
