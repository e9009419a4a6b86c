import Mathlib
import TrialLedger.Table

/-! Tables by what is found in them. Putting and erasing change what is found under their own
key alone, and a sum over the values of a table changes by the difference of the two values of
that key. Tables in which the same is found have the same entries, in one order or another. -/

namespace TrialLedger.Table

variable {κ ν : Type} [DecidableEq κ]

/-! ### Looking up -/

theorem lookup_cons_eq (k : κ) (e : κ × ν) (r : List (κ × ν)) :
    (e :: r).lookup k = if k = e.1 then some e.2 else r.lookup k := by
  rw [List.lookup_cons]
  by_cases h : k = e.1
  · rw [if_pos h, beq_iff_eq.2 h]
  · rw [if_neg h, beq_false_of_ne h]

theorem lookup_putEntry (k k' : κ) (v : ν) (l : List (κ × ν)) :
    (putEntry k v l).lookup k' = if k' = k then some v else l.lookup k' := by
  induction l with
  | nil => simp [putEntry, lookup_cons_eq]
  | cons e r ih =>
    unfold putEntry
    by_cases he : e.1 = k
    · subst he
      by_cases h : k' = e.1 <;> simp [lookup_cons_eq, h]
    · rw [if_neg he, lookup_cons_eq, lookup_cons_eq, ih]
      by_cases h : k' = e.1
      · simp [h, he]
      · simp [h]

theorem get?_put (t : Table κ ν) (k k' : κ) (v : ν) :
    (t.put k v).get? k' = if k' = k then some v else t.get? k' :=
  lookup_putEntry k k' v t.entries

theorem lookup_filter_ne (k k' : κ) (l : List (κ × ν)) :
    (l.filter fun e => !decide (e.1 = k)).lookup k' = if k' = k then none else l.lookup k' := by
  induction l with
  | nil => simp
  | cons e r ih =>
    by_cases he : e.1 = k
    · subst he
      rw [List.filter_cons_of_neg (by simp), ih, lookup_cons_eq]
      by_cases h : k' = e.1 <;> simp [h]
    · rw [List.filter_cons_of_pos (by simpa using he), lookup_cons_eq, lookup_cons_eq, ih]
      by_cases h : k' = e.1
      · simp [h, he]
      · simp [h]

theorem get?_erase (t : Table κ ν) (k k' : κ) :
    (t.erase k).get? k' = if k' = k then none else t.get? k' :=
  lookup_filter_ne k k' t.entries

theorem lookup_map {μ : Type} (f : ν → μ) (k : κ) (l : List (κ × ν)) :
    (l.map fun e => (e.1, f e.2)).lookup k = (l.lookup k).map f := by
  induction l with
  | nil => rfl
  | cons e r ih =>
    rw [List.map_cons, lookup_cons_eq, lookup_cons_eq, ih]
    by_cases h : k = e.1 <;> simp [h]

/-- The table with other values under the same keys. -/
def map {μ : Type} (f : ν → μ) (t : Table κ ν) : Table κ μ :=
  ⟨t.entries.map fun e => (e.1, f e.2), by rw [List.map_map]; exact t.nodup⟩

theorem get?_map {μ : Type} (f : ν → μ) (t : Table κ ν) (k : κ) : (t.map f).get? k = (t.get? k).map f :=
  lookup_map f k t.entries

/-- An entry with the only occurrence of its key stands beside all entries with other keys. -/
theorem perm_cons_filter_ne {k : κ} {v : ν} {l : List (κ × ν)} (hn : (l.map Prod.fst).Nodup)
    (h : l.lookup k = some v) : l.Perm ((k, v) :: l.filter fun e => !decide (e.1 = k)) := by
  induction l with
  | nil => simp at h
  | cons e r ih =>
    rw [List.map_cons, List.nodup_cons] at hn
    rw [lookup_cons_eq] at h
    by_cases he : k = e.1
    · rw [if_pos he] at h
      obtain rfl : e.2 = v := Option.some.inj h
      have hr : (r.filter fun e => !decide (e.1 = k)) = r := by
        refine List.filter_eq_self.2 fun e' hmem => ?_
        have hne : e'.1 ≠ k := fun hk => hn.1 (he ▸ hk ▸ List.mem_map_of_mem hmem)
        simpa using hne
      rw [List.filter_cons_of_neg (by simp [he]), hr, he]
    · rw [if_neg he] at h
      rw [List.filter_cons_of_pos (by simpa using Ne.symm he)]
      exact ((ih hn.2 h).cons e).trans (.swap _ _ _)

theorem mem_putEntry {k : κ} {v : ν} {l : List (κ × ν)} {e : κ × ν} (h : e ∈ putEntry k v l) :
    e = (k, v) ∨ e ∈ l := by
  induction l with
  | nil => exact .inl (by simpa [putEntry] using h)
  | cons e' r ih =>
    unfold putEntry at h
    split at h
    · rcases List.mem_cons.1 h with rfl | h
      · exact .inl rfl
      · exact .inr (List.mem_cons_of_mem _ h)
    · rcases List.mem_cons.1 h with rfl | h
      · exact .inr List.mem_cons_self
      · exact (ih h).imp_right (List.mem_cons_of_mem _)

theorem mem_foldl_putEntry {l init : List (κ × ν)} {e : κ × ν}
    (h : e ∈ l.foldl (fun r e => putEntry e.1 e.2 r) init) : e ∈ init ∨ e ∈ l := by
  induction l generalizing init with
  | nil => exact .inl h
  | cons e' r ih =>
    rcases ih h with hput | hr
    · rcases mem_putEntry hput with rfl | hold
      · exact .inr List.mem_cons_self
      · exact .inl hold
    · exact .inr (List.mem_cons_of_mem _ hr)

theorem mem_of_lookup_eq_some {k : κ} {v : ν} {l : List (κ × ν)} (h : l.lookup k = some v) :
    (k, v) ∈ l := by
  induction l with
  | nil => simp at h
  | cons e r ih =>
    rw [lookup_cons_eq] at h
    split at h
    · rename_i hk
      obtain rfl : e.2 = v := by simpa using h
      simp [hk]
    · exact List.mem_cons_of_mem _ (ih h)

/-! ### Entries -/

theorem lookup_eq_some_of_mem {k : κ} {v : ν} {l : List (κ × ν)} (hn : (l.map Prod.fst).Nodup)
    (h : (k, v) ∈ l) : l.lookup k = some v := by
  induction l with
  | nil => cases h
  | cons e r ih =>
    rw [List.map_cons, List.nodup_cons] at hn
    rw [lookup_cons_eq]
    rcases List.mem_cons.1 h with rfl | h
    · exact if_pos rfl
    · have hne : k ≠ e.1 := fun hk => hn.1 (hk ▸ List.mem_map_of_mem h)
      rw [if_neg hne, ih hn.2 h]

theorem mem_entries_iff {t : Table κ ν} {e : κ × ν} : e ∈ t.entries ↔ t.get? e.1 = some e.2 :=
  ⟨lookup_eq_some_of_mem t.nodup, mem_of_lookup_eq_some⟩

theorem entries_eq_nil_iff {t : Table κ ν} : t.entries = [] ↔ ∀ k, t.get? k = none := by
  rw [List.eq_nil_iff_forall_not_mem]
  constructor
  · intro h k
    exact Option.eq_none_iff_forall_ne_some.2 fun v hv => h (k, v) (mem_entries_iff.2 hv)
  · intro h e he
    rw [mem_entries_iff, h] at he
    cases he

omit [DecidableEq κ] in
theorem nodup_entries (t : Table κ ν) : t.entries.Nodup := t.nodup.of_map

/-- What is found in a table are its entries, whatever their order. -/
theorem get?_eq_iff_perm {t t' : Table κ ν} : (∀ k, t.get? k = t'.get? k) ↔ t.entries.Perm t'.entries := by
  rw [List.perm_ext_iff_of_nodup t.nodup_entries t'.nodup_entries]
  constructor
  · intro h e
    rw [mem_entries_iff, mem_entries_iff, h]
  · intro h k
    ext v
    exact mem_entries_iff.symm.trans ((h (k, v)).trans mem_entries_iff)

theorem putEntry_of_notMem {k : κ} {v : ν} {l : List (κ × ν)} (h : k ∉ l.map Prod.fst) :
    putEntry k v l = l ++ [(k, v)] := by
  induction l with
  | nil => rfl
  | cons e r ih =>
    rw [List.map_cons, List.mem_cons, not_or] at h
    rw [putEntry, if_neg (Ne.symm h.1), ih h.2]
    rfl

/-- A list without two entries of one key is the table that it makes. -/
theorem entries_ofList {l : List (κ × ν)} (h : (l.map Prod.fst).Nodup) : (ofList l).entries = l := by
  have hfold : ∀ (r : List (κ × ν)) (t : Table κ ν), (t.keys ++ r.map Prod.fst).Nodup →
      (r.foldl (fun t e => t.put e.1 e.2) t).entries = t.entries ++ r := by
    intro r
    induction r with
    | nil => exact fun t _ => (List.append_nil _).symm
    | cons e r ih =>
      intro t ht
      have hput : (t.put e.1 e.2).entries = t.entries ++ [e] :=
        putEntry_of_notMem fun hmem => (List.nodup_append.1 ht).2.2 _ hmem _ List.mem_cons_self rfl
      have hkeys : (t.put e.1 e.2).keys = t.keys ++ [e.1] := by
        simp only [keys, hput, List.map_append, List.map_cons, List.map_nil]
      rw [List.foldl_cons, ih _ (by simpa [hkeys] using ht), hput, List.append_assoc]
      rfl
  exact hfold l empty (by simpa [keys, empty] using h)

theorem mem_of_mem_ofList {l : List (κ × ν)} {e : κ × ν} (h : e ∈ (ofList l).entries) : e ∈ l := by
  have hfold : (ofList l).entries = l.foldl (fun r e => putEntry e.1 e.2 r) [] :=
    (List.foldl_hom entries fun _ _ => rfl).symm
  rw [hfold] at h
  exact (mem_foldl_putEntry h).resolve_left List.not_mem_nil

theorem ofList_entries (t : Table κ ν) : ofList t.entries = t := by
  have hext : ∀ {t t' : Table κ ν}, t.entries = t'.entries → t = t' := by
    rintro ⟨l, hl⟩ ⟨l', hl'⟩ rfl
    rfl
  exact hext (entries_ofList t.nodup)

/-! ### Sums -/

/-- The sum of a number over all values. -/
def sum (g : ν → Int) (t : Table κ ν) : Int := (t.entries.map fun e => g e.2).sum

theorem sum_putEntry (g : ν → Int) (k : κ) (v : ν) (l : List (κ × ν)) :
    ((putEntry k v l).map fun e => g e.2).sum =
      (l.map fun e => g e.2).sum + g v - ((l.lookup k).map g).getD 0 := by
  induction l with
  | nil => simp [putEntry]
  | cons e r ih =>
    unfold putEntry
    by_cases he : e.1 = k
    · subst he
      rw [if_pos rfl, lookup_cons_eq, if_pos rfl]
      simp only [List.map_cons, List.sum_cons, Option.map_some, Option.getD_some]
      omega
    · rw [if_neg he, lookup_cons_eq, if_neg (Ne.symm he)]
      simp only [List.map_cons, List.sum_cons, ih]
      omega

theorem sum_put (g : ν → Int) (t : Table κ ν) (k : κ) (v : ν) :
    (t.put k v).sum g = t.sum g + g v - ((t.get? k).map g).getD 0 :=
  sum_putEntry g k v t.entries

end TrialLedger.Table
