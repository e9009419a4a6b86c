import TrialLedger.Journal

/-! What a journal tells about the frames that survive: those that were committed and stand in none
that was undone. How a frame ends is known when the journal is read backwards, for then its end
comes before all that happened in it. -/

namespace TrialLedger

/-! ### Fates -/

namespace Event

/-- How the frames around a place in the journal end, innermost first: those before an event, by those
after it. -/
def fatesBefore (fates : List Bool) : Event → List Bool
  | .left committed _ => committed :: fates
  | .entered .. => fates.tail
  | _ => fates

def log? : Event → Option Log
  | .logged l => some l
  | _ => none

def call? : Event → Option AsyncCall
  | .queued a => some a
  | _ => none

/-- The call of a frame that begins with the event and stands in no other one. -/
def root? : Event → (fates : List Bool) → Option Call
  | .entered c .., [_] => some c
  | _, _ => none

end Event

def fatesBefore (fates : List Bool) (events : List Event) : List Bool :=
  events.foldl Event.fatesBefore fates

/-- The events of frames that survive, oldest first. -/
def survivorsIn : (fates : List Bool) → List Event → List Event
  | _, [] => []
  | fates, e :: earlier => survivorsIn (e.fatesBefore fates) earlier ++ if fates.all id then [e] else []

/-- The calls of the frames that stand in no other one, oldest first. -/
def rootsIn : (fates : List Bool) → List Event → List Call
  | _, [] => []
  | fates, e :: earlier => rootsIn (e.fatesBefore fates) earlier ++ (e.root? fates).toList

theorem survivorsIn_append (events earlier : List Event) (fates : List Bool) :
    survivorsIn fates (events ++ earlier) =
      survivorsIn (fatesBefore fates events) earlier ++ survivorsIn fates events := by
  induction events generalizing fates with
  | nil => exact (List.append_nil _).symm
  | cons e events ih =>
    rw [List.cons_append, survivorsIn, survivorsIn, ih, List.append_assoc]
    rfl

theorem rootsIn_append (events earlier : List Event) (fates : List Bool) :
    rootsIn fates (events ++ earlier) =
      rootsIn (fatesBefore fates events) earlier ++ rootsIn fates events := by
  induction events generalizing fates with
  | nil => exact (List.append_nil _).symm
  | cons e events ih =>
    rw [List.cons_append, rootsIn, rootsIn, ih, List.append_assoc]
    rfl

/-- Where beginnings and ends of frames tell nothing, a frame tells what the events in it tell. -/
theorem filterMap_survivorsIn_frame {α : Type} {g : Event → Option α} {e : Event}
    (he : g e = none) (hl : ∀ committed left, g (.left committed left) = none) (fates : List Bool)
    (events : List Event) (committed : Bool) (left : Amount) :
    (survivorsIn fates (.left committed left :: (events ++ [e]))).filterMap g =
      (survivorsIn (committed :: fates) events).filterMap g := by
  have hidle : ∀ (p : Prop) [Decidable p] (e : Event), g e = none →
      (if p then [e] else []).filterMap g = [] := by
    intro p _ e he
    split
    · rw [List.filterMap_cons_none he]
      rfl
    · rfl
  rw [survivorsIn, survivorsIn_append, List.filterMap_append, List.filterMap_append]
  rw [hidle _ _ (hl committed left), List.append_nil]
  change ((if _ then [e] else []).filterMap g) ++ _ = _
  rw [hidle _ _ he]
  rfl

/-! ### Whole journals -/

/-- The entries that surviving frames emitted, in the order in which they did. -/
def survivingLogs (journal : List Event) : List Log := (survivorsIn [] journal).filterMap Event.log?

/-- The calls that surviving frames queued, in the order in which they did. -/
def survivingCalls (journal : List Event) : List AsyncCall :=
  (survivorsIn [] journal).filterMap Event.call?

/-- The calls of all frames that stand in no other one, in the order in which they began. -/
def roots (journal : List Event) : List Call := rootsIn [] journal

/-! ### Parts of journals -/

/-- The events are of frames that both begin and end with them, or of the frame around them. When
that frame survives, so do the given entries and queued calls. -/
structure Brings (events : List Event) (logs : List Log) (queued : List AsyncCall) (calls : List Call) :
    Prop where
  fates_eq : ∀ fates, fatesBefore fates events = fates
  logs_eq : ∀ fates, (survivorsIn fates events).filterMap Event.log? = if fates.all id then logs else []
  queued_eq : ∀ fates,
    (survivorsIn fates events).filterMap Event.call? = if fates.all id then queued else []
  roots_eq : ∀ fates, rootsIn fates events = if fates = [] then calls else []

namespace Brings

variable {events events' : List Event} {logs logs' : List Log} {queued queued' : List AsyncCall}
  {calls calls' : List Call}

theorem nil : Brings [] [] [] [] where
  fates_eq _ := rfl
  logs_eq fates := by split <;> rfl
  queued_eq fates := by split <;> rfl
  roots_eq fates := by split <;> rfl

/-- An event within a frame. -/
theorem single {e : Event} (h : ∀ fates, e.fatesBefore fates = fates) (hr : ∀ fates, e.root? fates = none) :
    Brings [e] e.log?.toList e.call?.toList [] where
  fates_eq := h
  logs_eq fates := by
    change (if fates.all id then [e] else []).filterMap Event.log? = _
    split
    · cases hl : e.log? <;> simp [hl]
    · rfl
  queued_eq fates := by
    change (if fates.all id then [e] else []).filterMap Event.call? = _
    split
    · cases hc : e.call? <;> simp [hc]
    · rfl
  roots_eq fates := by
    change (e.root? fates).toList = _
    rw [hr, ite_self]
    rfl

/-- Later events come on top of earlier ones. -/
theorem append (h : Brings events logs queued calls) (h' : Brings events' logs' queued' calls') :
    Brings (events' ++ events) (logs ++ logs') (queued ++ queued') (calls ++ calls') where
  fates_eq fates := by
    have hfold : fatesBefore fates (events' ++ events) = fatesBefore (fatesBefore fates events') events :=
      List.foldl_append
    rw [hfold, h'.fates_eq, h.fates_eq]
  logs_eq fates := by
    rw [survivorsIn_append, h'.fates_eq, List.filterMap_append, h.logs_eq, h'.logs_eq]
    split <;> rfl
  queued_eq fates := by
    rw [survivorsIn_append, h'.fates_eq, List.filterMap_append, h.queued_eq, h'.queued_eq]
    split <;> rfl
  roots_eq fates := by
    rw [rootsIn_append, h'.fates_eq, h.roots_eq, h'.roots_eq]
    split <;> rfl

/-- A frame hands over what it brought about when it is committed, and else nothing. -/
theorem frame (h : Brings events logs queued calls) (c : Call) (budget : Amount) (depth asyncDepth : Nat)
    (committed : Bool) (left : Amount) :
    Brings (.left committed left :: (events ++ [.entered c budget depth asyncDepth]))
      (if committed then logs else []) (if committed then queued else []) [c] where
  fates_eq fates := by
    have hfold : fatesBefore fates (.left committed left :: (events ++ [.entered c budget depth asyncDepth])) =
        (fatesBefore (committed :: fates) events).tail := List.foldl_append
    rw [hfold, h.fates_eq]
    rfl
  logs_eq fates := by
    rw [filterMap_survivorsIn_frame rfl (fun _ _ => rfl), h.logs_eq]
    cases committed <;> simp
  queued_eq fates := by
    rw [filterMap_survivorsIn_frame rfl (fun _ _ => rfl), h.queued_eq]
    cases committed <;> simp
  roots_eq fates := by
    rw [rootsIn, rootsIn_append, Event.fatesBefore, h.fates_eq, h.roots_eq]
    cases fates <;> rfl

end Brings

/-! ### Whole journals, part by part -/

variable {events journal : List Event} {logs : List Log} {queued : List AsyncCall} {calls : List Call}

theorem Brings.survivingLogs_append (h : Brings events logs queued calls) (journal : List Event) :
    survivingLogs (events ++ journal) = survivingLogs journal ++ logs := by
  unfold survivingLogs
  rw [survivorsIn_append, h.fates_eq, List.filterMap_append, h.logs_eq]
  rfl

theorem Brings.survivingCalls_append (h : Brings events logs queued calls) (journal : List Event) :
    survivingCalls (events ++ journal) = survivingCalls journal ++ queued := by
  unfold survivingCalls
  rw [survivorsIn_append, h.fates_eq, List.filterMap_append, h.queued_eq]
  rfl

theorem Brings.roots_append (h : Brings events logs queued calls) (journal : List Event) :
    roots (events ++ journal) = roots journal ++ calls := by
  unfold roots
  rw [rootsIn_append, h.fates_eq, h.roots_eq]
  rfl

end TrialLedger
