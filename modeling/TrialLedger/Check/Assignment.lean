/-! Assigning positions to claimants. Every claimant has a list of positions that suit it,
and no position may be assigned twice. Claimants are served in order. One that finds all
its positions taken asks their holders to move on, and they may ask others in turn; during
one such search no position is looked at twice. -/

namespace TrialLedger.Check.Assignment

/-- The holders of positions, as pairs of a position and its holder. -/
abbrev Holders := List (Nat × Nat)

/-- Gives a position to a holder, whoever had it before. -/
def assign (position holder : Nat) (h : Holders) : Holders :=
  (position, holder) :: h.filter (·.1 ≠ position)

/-- Tries the positions in turn for a claimant, where `move` makes a holder move on. Without
success the answer is the positions seen so far. -/
def tryPositions (move : Nat → List Nat → Except (List Nat) Holders) (h : Holders) (claimant : Nat) :
    List Nat → List Nat → Except (List Nat) Holders
  | [], seen => .error seen
  | p :: ps, seen =>
    if seen.contains p then tryPositions move h claimant ps seen
    else match h.lookup p with
      | none => .ok (assign p claimant h)
      | some holder =>
        match move holder (p :: seen) with
        | .ok h' => .ok (assign p claimant h')
        | .error seen' => tryPositions move h claimant ps seen'

/-- Finds a position for a claimant. Each search in another one has seen a position more, so the
depth is at most one more than the number of positions. -/
def serve (suits : Nat → List Nat) (h : Holders) : (depth : Nat) → Nat → List Nat → Except (List Nat) Holders
  | 0, _, seen => .error seen
  | depth + 1, claimant, seen => tryPositions (serve suits h depth) h claimant (suits claimant) seen

/-- Serves claimants in order and finds the first that gets no position. -/
def firstUnserved (suits : Nat → List Nat) (positions : Nat) (h : Holders) : List Nat → Option Nat
  | [] => none
  | c :: cs =>
    match serve suits h (positions + 1) c [] with
    | .ok h' => firstUnserved suits positions h' cs
    | .error _ => some c

end TrialLedger.Check.Assignment
