import Mathlib
import TrialLedger.Codec
import TrialLedger.Proofs.Bytes

/-! Values one after the other, each with its length in front. The lengths tell where a value ends, so the bytes
hold one list of values only, and the values that are read from them encode to the same bytes. -/

namespace TrialLedger.Codec

open Bytes

/-- The length that the four bytes at an offset tell. -/
def announced (d : Bytes) (o : Nat) : Nat := toNat ((d.drop o).take 4)

/-! ### One value -/

theorem length_encodeNested (v : Bytes) : (encodeNested v).length = 4 + v.length := by
  rw [encodeNested, List.length_append, length_ofNat]

theorem announced_append (a b : Bytes) {v : Bytes} (hv : v.length < 2 ^ 32) :
    announced (a ++ (encodeNested v ++ b)) a.length = v.length := by
  have htake : (ofNat 4 v.length ++ (v ++ b)).take 4 = ofNat 4 v.length := List.take_left' (length_ofNat 4 _)
  rw [announced, List.drop_left, encodeNested, List.append_assoc, htake, toNat_ofNat]
  exact Nat.mod_eq_of_lt hv

/-- There is no value when fewer than four bytes are left, or fewer than they tell. -/
theorem decodeNested_eq (d : Bytes) (o : Nat) : decodeNested d o =
    if d.length < o + 4 then .error .shortPrefix
    else if d.length < o + 4 + announced d o then .error .shortValue
    else .ok ((d.drop (o + 4)).take (announced d o), o + 4 + announced d o) := rfl

theorem decodeNested_append (a b : Bytes) {v : Bytes} (hv : v.length < 2 ^ 32) :
    decodeNested (a ++ (encodeNested v ++ b)) a.length = .ok (v, a.length + (encodeNested v).length) := by
  have hlength : (a ++ (encodeNested v ++ b)).length = a.length + (4 + v.length + b.length) := by
    rw [List.length_append, List.length_append, length_encodeNested]
  have hvalue : (a ++ (encodeNested v ++ b)).drop (a.length + 4) = v ++ b := by
    rw [← List.drop_drop, List.drop_left, encodeNested, List.append_assoc, List.drop_left' (length_ofNat 4 _)]
  rw [decodeNested_eq, announced_append a b hv, hvalue, List.take_left, length_encodeNested, if_neg (by omega),
    if_neg (by omega), Nat.add_assoc]

/-- What has been read at an offset is encoded by the bytes up to the next one. -/
theorem encodeNested_of_decodeNested {d v : Bytes} {o n : Nat} (h : decodeNested d o = .ok (v, n)) :
    (d.take n).drop o = encodeNested v := by
  rw [decodeNested_eq] at h
  split at h
  · cases h
  · split at h
    · cases h
    · obtain ⟨rfl, rfl⟩ := Prod.mk.inj (Except.ok.inj h)
      have hlength : ((d.drop o).take 4).length = 4 := by
        rw [List.length_take, List.length_drop]
        omega
      have hvalue : ((d.drop (o + 4)).take (announced d o)).length = announced d o := by
        rw [List.length_take, List.length_drop]
        omega
      have hdigits := ofNat_toNat ((d.drop o).take 4)
      rw [hlength] at hdigits
      rw [encodeNested, hvalue, announced, hdigits, List.drop_take, Nat.add_assoc, Nat.add_sub_cancel_left,
        ← List.drop_drop, List.take_add]

/-! ### Values one after the other -/

/-- The values that are read one after the other from an offset on, and the offset after the last one. -/
inductive Holds (d : Bytes) : (offset : Nat) → List Bytes → (stop : Nat) → Prop where
  | stop {o : Nat} : Holds d o [] o
  | value {o n stop : Nat} {v : Bytes} {vs : List Bytes} (h : decodeNested d o = .ok (v, n))
    (hrest : Holds d n vs stop) : Holds d o (v :: vs) stop

theorem holds_append (a : Bytes) {vs : List Bytes} (hvs : ∀ v ∈ vs, v.length < 2 ^ 32) :
    Holds (a ++ vs.flatMap encodeNested) a.length vs (a ++ vs.flatMap encodeNested).length := by
  induction vs generalizing a with
  | nil =>
    rw [List.flatMap_nil, List.append_nil]
    exact .stop
  | cons v vs ih =>
    have hrest := ih (a ++ encodeNested v) fun w hw => hvs w (List.mem_cons_of_mem _ hw)
    rw [List.append_assoc, List.length_append] at hrest
    exact .value (decodeNested_append a _ (hvs v List.mem_cons_self)) hrest

namespace Holds

variable {d : Bytes} {o stop : Nat} {vs : List Bytes}

theorem le (h : Holds d o vs stop) : o ≤ stop := by
  induction h with
  | stop => exact Nat.le_refl _
  | value h _ ih =>
    have hbounds := decodeNested_bounds h
    omega

/-- The values encode to the bytes that they were read from. -/
theorem flatMap_encodeNested (h : Holds d o vs stop) : vs.flatMap encodeNested = (d.take stop).drop o := by
  induction h with
  | stop => simp
  | @value o n stop v vs h hrest ih =>
    have hbounds := decodeNested_bounds h
    have hle := hrest.le
    have hsize : stop - o = (n - o) + (stop - n) := by omega
    rw [List.flatMap_cons, ih, ← encodeNested_of_decodeNested h, List.drop_take, List.drop_take, List.drop_take, hsize,
      List.take_add, List.drop_drop, Nat.add_sub_cancel' (by omega)]

theorem decodeAllNested_eq (h : Holds d o vs stop) :
    decodeAllNested d o = (decodeAllNested d stop).map (vs ++ ·) := by
  induction h with
  | stop => cases decodeAllNested d _ <;> rfl
  | @value o n stop v vs h _ ih =>
    have hbounds := decodeNested_bounds h
    have hfirst : decodeAllNested d o = (decodeAllNested d n).map (v :: ·) := by
      rw [decodeAllNested, if_neg (by omega)]
      split
      case h_1 e he =>
        rw [h] at he
        cases he
      case h_2 w m hw =>
        rw [h] at hw
        obtain ⟨rfl, rfl⟩ := Prod.mk.inj (Except.ok.inj hw)
        rfl
    rw [hfirst, ih]
    cases decodeAllNested d stop <;> rfl

end Holds

/-- Reading ends: at the end of the bytes, or where there is no value. -/
theorem exists_holds (d : Bytes) (o : Nat) : ∃ vs stop, Holds d o vs stop ∧
    (d.length ≤ stop ∧ decodeAllNested d o = .ok vs ∨
      stop < d.length ∧ ∃ e, decodeNested d stop = .error e ∧ decodeAllNested d o = .error e) := by
  fun_induction decodeAllNested d o with
  | case1 o hend => exact ⟨[], o, .stop, .inl ⟨hend, rfl⟩⟩
  | case2 o hend e he => exact ⟨[], o, .stop, .inr ⟨by omega, e, he, rfl⟩⟩
  | case3 o hend v n hv ih =>
    obtain ⟨vs, stop, hholds, hall⟩ := ih
    refine ⟨v :: vs, stop, .value hv hholds, hall.imp (fun h => ⟨h.1, ?_⟩) fun h => ⟨h.1, ?_⟩⟩
    · rw [h.2]
      rfl
    · obtain ⟨e, he, hrest⟩ := h.2
      exact ⟨e, he, by rw [hrest]; rfl⟩

/-- Values that are encoded one after the other are what is read from the bytes, up to their end. Reading fails
exactly where fewer than four bytes are left, or fewer than they tell; otherwise it moves on, over bytes that the
value encodes to. So it ends on all bytes, and when it gets to their end they are what the values encode to. -/
theorem nested_unique :
    (∀ vs : List Bytes, (∀ v ∈ vs, v.length < 2 ^ 32) →
      Holds (vs.flatMap encodeNested) 0 vs (vs.flatMap encodeNested).length ∧
        decodeAllNested (vs.flatMap encodeNested) 0 = .ok vs) ∧
    (∀ (d : Bytes) (o : Nat),
      (decodeNested d o = .error .shortPrefix ↔ d.length < o + 4) ∧
      (decodeNested d o = .error .shortValue ↔ o + 4 ≤ d.length ∧ d.length < o + 4 + announced d o) ∧
      ((∃ v n, decodeNested d o = .ok (v, n)) ↔ o + 4 + announced d o ≤ d.length) ∧
      ∀ v n, decodeNested d o = .ok (v, n) →
        o + 4 ≤ n ∧ n ≤ d.length ∧ (d.take n).drop o = encodeNested v) ∧
    (∀ (d : Bytes) (o : Nat), ∃ vs stop, Holds d o vs stop ∧
      (d.length ≤ stop ∧ decodeAllNested d o = .ok vs ∨
        stop < d.length ∧ ∃ e, decodeNested d stop = .error e ∧ decodeAllNested d o = .error e)) ∧
    (∀ (d : Bytes) (vs : List Bytes), Holds d 0 vs d.length → vs.flatMap encodeNested = d) ∧
    ∀ t : Token, encodeNestedToken t = encodeNested t.name := by
  refine ⟨fun vs hvs => ?_, fun d o => ⟨?_, ?_, ?_, fun v n h => ?_⟩, exists_holds, fun d vs h => ?_, fun t => rfl⟩
  · have h : Holds (vs.flatMap encodeNested) 0 vs (vs.flatMap encodeNested).length := holds_append [] hvs
    refine ⟨h, ?_⟩
    rw [h.decodeAllNested_eq, decodeAllNested, if_pos (Nat.le_refl _)]
    exact congrArg Except.ok (List.append_nil vs)
  · rw [decodeNested_eq]
    split_ifs <;> simp_all
  · rw [decodeNested_eq]
    split_ifs <;> simp_all
  · rw [decodeNested_eq]
    split_ifs <;> simp <;> omega
  · exact ⟨(decodeNested_bounds h).1, (decodeNested_bounds h).2, encodeNested_of_decodeNested h⟩
  · rw [h.flatMap_encodeNested, List.take_length, List.drop_zero]

end TrialLedger.Codec
