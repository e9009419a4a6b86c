import Mathlib
import TrialLedger.Json.Parser
import TrialLedger.Proofs.Json.Parts
import TrialLedger.Proofs.Table
import TrialLedger.Proofs.Text.Integer

/-! What is read from a JSON text can be written again: no number that is read has more digits than a number
may have. -/

namespace TrialLedger.Json

/-! ### Numbers -/

theorem digitsValue_lt {cs : List Char} (h : ∀ c ∈ cs, isDigit c = true) : digitsValue cs < 10 ^ cs.length := by
  have hfrom : ∀ n, cs.foldl (fun n c => 10 * n + (c.toNat - 48)) n < (n + 1) * 10 ^ cs.length := by
    induction cs with
    | nil => simp
    | cons c r ih =>
      obtain ⟨hc, hr⟩ := List.forall_mem_cons.1 h
      have hdigit : c.toNat - 48 ≤ 9 := by
        obtain ⟨-, hhigh⟩ := Bool.and_eq_true_iff.1 hc
        have hle : c.toNat ≤ '9'.toNat := of_decide_eq_true hhigh
        have hnine : '9'.toNat = 57 := rfl
        omega
      intro n
      calc r.foldl (fun n c => 10 * n + (c.toNat - 48)) (10 * n + (c.toNat - 48))
          < (10 * n + (c.toNat - 48) + 1) * 10 ^ r.length := ih hr _
        _ ≤ ((n + 1) * 10) * 10 ^ r.length := Nat.mul_le_mul_right _ (by omega)
        _ = (n + 1) * 10 ^ (c :: r).length := by rw [Nat.mul_assoc, List.length_cons, Nat.pow_succ']
  simpa [digitsValue] using hfrom 0

/-- What is read has the property. -/
def Reads {α : Type} (P : α → Prop) (x : Except Error α) : Prop := ∀ a, x = .ok a → P a

section

variable {α β : Type} {P : α → Prop} {Q : β → Prop} {x : Except Error α}

theorem Reads.ok {a : α} (h : P a) : Reads P (.ok a) := by
  rintro _ ⟨⟩
  exact h

theorem Reads.any (x : Except Error α) : Reads (fun _ => True) x := fun _ _ => trivial

theorem Reads.error (e : Error) : Reads P (.error e) := nofun

theorem Reads.bind {f : α → Except Error β} (hx : Reads P x) (hf : ∀ a, P a → Reads Q (f a)) : Reads Q (x >>= f) := by
  cases x with
  | error e => exact .error e
  | ok a => exact hf a (hx a rfl)

theorem Reads.map {f : α → β} (hx : Reads P x) (hf : ∀ a, P a → Q (f a)) : Reads Q (x.map f) := by
  cases x with
  | error e => exact .error e
  | ok a => exact .ok (hf a (hx a rfl))

end

theorem readNumber_reads (negative : Bool) (cs : List Char) :
    Reads (fun p => p.1.isWritable = true) (readNumber negative cs) := by
  unfold readNumber
  extract_lets whole
  have hdigits : ∀ c ∈ whole, isDigit c = true := by
    unfold whole
    split
    · exact List.forall_mem_singleton.2 rfl
    · exact fun _ => List.mem_takeWhile_imp
  clear_value whole
  split
  · exact .error _
  · dsimp only
    split
    · split
      · exact .error _
      · rename_i hlength
        have habs : (if negative then -(digitsValue whole : Int) else digitsValue whole).natAbs = digitsValue whole := by
          split <;> omega
        exact .ok (Text.isWritable_of_lt_pow (habs ▸ digitsValue_lt hdigits) (Nat.not_lt.1 hlength))
    · exact .ok rfl

theorem isWritable_of_readWord? {j : Json} {cs r : List Char} (h : readWord? cs = some (j, r)) : j.isWritable = true := by
  obtain ⟨⟨word, k⟩, hk, h⟩ := List.exists_of_findSome?_eq_some h
  obtain ⟨_, -, hj⟩ := Option.map_eq_some_iff.1 h
  cases hj
  have hwords : ∀ w ∈ words, w.2.isWritable = true := by simp [words, isWritable]
  exact hwords _ hk

/-! ### Values -/

theorem mem_of_mem_distinct {members : List (Text × Json)} {m : Text × Json} (h : m ∈ distinct members) :
    m ∈ members :=
  (Table.mem_foldl_putEntry h).resolve_left List.not_mem_nil

/-- What is read with so much fuel can be written. -/
structure Writes (fuel : Nat) : Prop where
  value : ∀ cs, Reads (fun p => p.1.isWritable = true) (readValue fuel cs)
  items : ∀ cs, Reads (fun p => areWritable p.1 = true) (readItems fuel cs)
  members : ∀ cs, Reads (fun p => membersAreWritable p.1 = true) (readMembers fuel cs)

theorem Writes.readValue_succ {fuel : Nat} (h : Writes fuel) (cs : List Char) :
    Reads (fun p => p.1.isWritable = true) (readValue (fuel + 1) cs) := by
  unfold readValue
  split
  · exact (Reads.any _).map fun _ _ => rfl
  · split
    · exact .ok rfl
    · exact (h.items _).map fun _ hitems => hitems
  · split
    · exact .ok rfl
    · refine (h.members _).map fun _ hmembers => membersAreWritable_iff.2 fun m hm => ?_
      exact membersAreWritable_iff.1 hmembers m (mem_of_mem_distinct hm)
  · split
    · exact .ok (isWritable_of_readWord? ‹_›)
    · split <;> exact readNumber_reads _ _

theorem Writes.readItems_succ {fuel : Nat} (h : Writes fuel) (cs : List Char) :
    Reads (fun p => areWritable p.1 = true) (readItems (fuel + 1) cs) := by
  unfold readItems
  refine (h.value cs).bind ?_
  rintro ⟨j, r⟩ hj
  dsimp only
  split
  · exact .ok (areWritable_iff.2 (List.forall_mem_singleton.2 hj))
  · refine (h.items _).bind fun l hl => .ok ?_
    exact areWritable_iff.2 (List.forall_mem_cons.2 ⟨hj, areWritable_iff.1 hl⟩)
  · exact .error _

theorem Writes.readMembers_succ {fuel : Nat} (h : Writes fuel) (cs : List Char) :
    Reads (fun p => membersAreWritable p.1 = true) (readMembers (fuel + 1) cs) := by
  unfold readMembers
  split
  · refine (Reads.any _).bind ?_
    rintro ⟨name, r⟩ -
    dsimp only
    split
    · refine (h.value _).bind ?_
      rintro ⟨j, r⟩ hj
      dsimp only
      split
      · exact .ok (membersAreWritable_iff.2 (List.forall_mem_singleton.2 hj))
      · refine (h.members _).bind fun l hl => .ok ?_
        exact membersAreWritable_iff.2 (List.forall_mem_cons.2 ⟨hj, membersAreWritable_iff.1 hl⟩)
      · exact .error _
    · exact .error _
  · exact .error _

theorem writes (fuel : Nat) : Writes fuel := by
  -- each of the readers calls the others with less fuel, so one induction carries all three
  induction fuel with
  | zero => exact ⟨fun _ => .error _, fun _ => .error _, fun _ => .error _⟩
  | succ fuel ih => exact ⟨ih.readValue_succ, ih.readItems_succ, ih.readMembers_succ⟩

/-- All numbers of a text are short enough to be written. -/
theorem isWritable_of_parse {s : String} {j : Json} (h : parse s = .ok j) : j.isWritable = true := by
  have hreads : Reads (fun j => j.isWritable = true) (parse s) := by
    refine ((writes _).value _).bind ?_
    rintro ⟨j, r⟩ hj
    dsimp only
    split
    · exact .ok hj
    · exact .error _
  exact hreads j h

end TrialLedger.Json
