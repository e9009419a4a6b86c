import TrialLedger.Check.Logs
import TrialLedger.Proofs.Check.Search

/-! Unordered patterns match a list of logs exactly when each can have a log of its own. -/

namespace TrialLedger.Check

open Assignment

namespace LogsPattern

variable {patterns : List LogPattern} {logs : List Log}

/-- Every pattern can be given a log of its own that it accepts. -/
def Assignable (patterns : List LogPattern) (logs : List Log) : Prop :=
  ∃ f : Fin patterns.length → Fin logs.length,
    Function.Injective f ∧ ∀ i : Fin patterns.length, patterns[i].accepts logs[f i]

/-- The positions of the logs that the pattern at a position accepts. -/
def suits (patterns : List LogPattern) (logs : List Log) (i : Nat) : List Nat :=
  (patterns.map fun p => candidates p logs).getD i []

theorem mem_candidates {p : LogPattern} {j : Nat} :
    j ∈ candidates p logs ↔ ∃ hj : j < logs.length, p.accepts logs[j] = true := by
  unfold candidates
  rw [List.mem_filter, List.mem_range]
  constructor
  · rintro ⟨hj, ha⟩
    rw [List.getElem?_eq_getElem hj] at ha
    exact ⟨hj, ha⟩
  · rintro ⟨hj, ha⟩
    rw [List.getElem?_eq_getElem hj]
    exact ⟨hj, ha⟩

theorem suits_eq {i : Nat} (hi : i < patterns.length) :
    suits patterns logs i = candidates patterns[i] logs := by
  rw [suits, List.getD_eq_getElem?_getD, List.getElem?_map, List.getElem?_eq_getElem hi]
  rfl

theorem lt_of_mem_suits {i j : Nat} (h : j ∈ suits patterns logs i) : j < logs.length := by
  by_cases hi : i < patterns.length
  · rw [suits_eq hi] at h
    exact (mem_candidates.1 h).1
  · rw [suits, List.getD_eq_getElem?_getD, List.getElem?_map, List.getElem?_eq_none (by omega)] at h
    cases h

/-- The first patterns can have logs of their own exactly when they can be served. -/
theorem assignable_take_iff {k : Nat} (hk : k ≤ patterns.length) :
    Assignable (patterns.take k) logs ↔ Servable (suits patterns logs) k := by
  have hlen : (patterns.take k).length = k := by rw [List.length_take]; omega
  constructor
  · rintro ⟨f, hf, ha⟩
    refine ⟨fun i => if hi : i < (patterns.take k).length then f ⟨i, hi⟩ else 0,
      fun i hi => ?_, fun i hi j hj he => ?_⟩
    · have hi' : i < (patterns.take k).length := by omega
      dsimp only
      rw [dif_pos hi', suits_eq (by omega)]
      have h := ha ⟨i, hi'⟩
      rw [Fin.getElem_fin, List.getElem_take] at h
      exact mem_candidates.2 ⟨_, h⟩
    · have hi' : i < (patterns.take k).length := hlen.symm ▸ hi
      have hj' : j < (patterns.take k).length := hlen.symm ▸ hj
      dsimp only at he
      rw [dif_pos hi', dif_pos hj'] at he
      exact congrArg Fin.val (hf (Fin.ext he))
  · rintro ⟨f, hf, hi⟩
    have hs : ∀ i : Fin (patterns.take k).length, f i ∈ suits patterns logs i := fun i => hf i (by omega)
    refine ⟨fun i => ⟨f i, lt_of_mem_suits (hs i)⟩, fun i j he => ?_, fun i => ?_⟩
    · exact Fin.ext (hi (by omega : i.val < k) (by omega : j.val < k) (congrArg Fin.val he))
    · have h := hs i
      rw [suits_eq (by omega)] at h
      rw [Fin.getElem_fin, List.getElem_take]
      exact (mem_candidates.1 h).2

theorem assignable_iff : Assignable patterns logs ↔ Servable (suits patterns logs) patterns.length := by
  have h : Assignable (patterns.take patterns.length) logs ↔ _ := assignable_take_iff (Nat.le_refl _)
  rwa [List.take_length] at h

/-- When the search is over all patterns have been served, or it has found the first that cannot be. -/
theorem firstUnclaimed_cases (patterns : List LogPattern) (logs : List Log) :
    firstUnclaimed patterns logs = none ∧ Assignable patterns logs ∨
      ∃ i, firstUnclaimed patterns logs = some i ∧ ¬ Assignable patterns logs ∧
        IsLeast {i | i < patterns.length ∧ ¬ Assignable (patterns.take (i + 1)) logs} i := by
  have hlt : ∀ i, ∀ j ∈ suits patterns logs i, j < logs.length := fun _ _ => lt_of_mem_suits
  obtain ⟨hnone, hsome⟩ :=
    firstUnserved_spec (h := []) hlt (k := 0) patterns.length ⟨List.nodup_nil, nofun⟩ (.refl _)
  rw [← List.range_eq_range', Nat.zero_add] at hnone hsome
  change firstUnclaimed patterns logs = none → _ at hnone
  change ∀ i, firstUnclaimed patterns logs = some i → _ at hsome
  rw [assignable_iff]
  cases hu : firstUnclaimed patterns logs with
  | none => exact .inl ⟨rfl, hnone hu⟩
  | some i =>
    obtain ⟨hi, hserved, hunserved⟩ := hsome i hu
    refine .inr ⟨i, rfl, fun h => hunserved (h.mono hi), ⟨hi, ?_⟩, fun j hj => ?_⟩
    · rwa [assignable_take_iff hi]
    · obtain ⟨hj, hunassigned⟩ := hj
      rw [assignable_take_iff hj] at hunassigned
      by_contra hlt
      exact hunassigned (hserved.mono (by omega))

theorem firstUnclaimed_eq_none : firstUnclaimed patterns logs = none ↔ Assignable patterns logs := by
  obtain ⟨hnone, h⟩ | ⟨i, hsome, h, -⟩ := firstUnclaimed_cases patterns logs
  · exact iff_of_true hnone h
  · exact iff_of_false (by rw [hsome]; nofun) h

theorem firstUnclaimed_eq_some {i : Nat} : firstUnclaimed patterns logs = some i ↔
    IsLeast {i | i < patterns.length ∧ ¬ Assignable (patterns.take (i + 1)) logs} i := by
  obtain ⟨hnone, h⟩ | ⟨j, hsome, -, h⟩ := firstUnclaimed_cases patterns logs
  · rw [hnone]
    refine iff_of_false nofun fun hi => hi.1.2 ?_
    exact (assignable_take_iff hi.1.1).2 ((assignable_iff.1 h).mono hi.1.1)
  · rw [hsome, Option.some.injEq]
    constructor
    · rintro rfl
      exact h
    · exact h.unique

/-- Unordered patterns match a list of logs exactly when each can have a log of its own. A mismatch
names the first pattern that can have none beside those before it. The search for a pattern's
log comes to one end, and it is the one that the check finds. -/
theorem unordered_mismatch (patterns : List LogPattern) (logs : List Log) :
    ((unordered patterns).mismatch logs = none ↔ Assignable patterns logs) ∧
    (∀ m, (unordered patterns).mismatch logs = some m →
      ∃ i, m = ⟨logPath i, .text "a matching log", .text (unclaimedText logs.length)⟩ ∧
        IsLeast {i | i < patterns.length ∧ ¬ Assignable (patterns.take (i + 1)) logs} i) ∧
    ∀ holders i seen,
      let search := Tries (suits patterns logs) holders i (suits patterns logs i) seen
      search (serve (suits patterns logs) holders (logs.length + 1) i seen) ∧ ∃! r, search r := by
  refine ⟨?_, fun m hm => ?_, fun holders i seen => ?_⟩
  · rw [mismatch, Option.map_eq_none_iff, firstUnclaimed_eq_none]
  · rw [mismatch, Option.map_eq_some_iff] at hm
    obtain ⟨i, hu, rfl⟩ := hm
    exact ⟨i, rfl, firstUnclaimed_eq_some.1 hu⟩
  · have hlt : ∀ i, ∀ j ∈ suits patterns logs i, j < logs.length := fun _ _ => lt_of_mem_suits
    have h := tries_serve (h := holders) hlt (Nat.lt_succ_of_le (unseen_le logs.length seen)) i
    exact ⟨h, _, h, fun _ h' => h'.deterministic h⟩

/-- A pattern that any log will do for gives way to one that only the first log will do for. -/
example : (unordered [{}, { endpoint := .exact [1] .null }]).mismatch
    [⟨[], [1], [], []⟩, ⟨[], [2], [], []⟩] = none := rfl

end LogsPattern

end TrialLedger.Check
