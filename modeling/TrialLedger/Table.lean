/-! Finite maps that remember the order in which their keys were first put. No key
occurs twice. Putting a known key changes its value in place, and a key that was
erased goes to the end when it is put again. -/

namespace TrialLedger

structure Table (κ ν : Type) where
  entries : List (κ × ν)
  nodup : (entries.map Prod.fst).Nodup

namespace Table

variable {κ ν : Type} [DecidableEq κ]

def empty : Table κ ν := ⟨[], List.nodup_nil⟩

instance : EmptyCollection (Table κ ν) := ⟨empty⟩

instance : Inhabited (Table κ ν) := ⟨empty⟩

def keys (t : Table κ ν) : List κ := t.entries.map Prod.fst

def get? (t : Table κ ν) (k : κ) : Option ν := t.entries.lookup k

def getD (t : Table κ ν) (k : κ) (v : ν) : ν := (t.get? k).getD v

def contains (t : Table κ ν) (k : κ) : Bool := (t.get? k).isSome

def isEmpty (t : Table κ ν) : Bool := t.entries.isEmpty

/-- Replaces the value of the key where it stands, or adds the pair at the end. -/
def putEntry (k : κ) (v : ν) : List (κ × ν) → List (κ × ν)
  | [] => [(k, v)]
  | e :: r => if e.1 = k then (k, v) :: r else e :: putEntry k v r

theorem mem_keys_putEntry {k : κ} {v : ν} {l : List (κ × ν)} {x : κ} :
    x ∈ (putEntry k v l).map Prod.fst ↔ x = k ∨ x ∈ l.map Prod.fst := by
  induction l with
  | nil => simp [putEntry]
  | cons e r ih =>
    unfold putEntry
    by_cases h : e.1 = k
    · simp [h]
    · simp only [h, if_false, List.map_cons, List.mem_cons, ih]
      constructor
      · rintro (h | h | h) <;> simp [h]
      · rintro (h | h | h) <;> simp [h]

theorem nodup_putEntry {k : κ} {v : ν} {l : List (κ × ν)} (h : (l.map Prod.fst).Nodup) :
    ((putEntry k v l).map Prod.fst).Nodup := by
  induction l with
  | nil => simp [putEntry]
  | cons e r ih =>
    simp only [List.map_cons, List.nodup_cons] at h
    unfold putEntry
    by_cases hk : e.1 = k
    · rw [if_pos hk]
      subst hk
      simpa using h
    · rw [if_neg hk, List.map_cons, List.nodup_cons, mem_keys_putEntry]
      refine ⟨?_, ih h.2⟩
      rintro (rfl | hm)
      · exact hk rfl
      · exact h.1 hm

def put (t : Table κ ν) (k : κ) (v : ν) : Table κ ν :=
  ⟨putEntry k v t.entries, nodup_putEntry t.nodup⟩

omit [DecidableEq κ] in
theorem nodup_filter {p : κ × ν → Bool} {l : List (κ × ν)} (h : (l.map Prod.fst).Nodup) :
    ((l.filter p).map Prod.fst).Nodup :=
  h.sublist (List.filter_sublist.map _)

def erase (t : Table κ ν) (k : κ) : Table κ ν :=
  ⟨t.entries.filter (fun e => !decide (e.1 = k)), nodup_filter t.nodup⟩

/-- Puts the pairs one after the other, so the last value of a key counts. -/
def ofList (l : List (κ × ν)) : Table κ ν := l.foldl (fun t e => t.put e.1 e.2) empty

end Table

end TrialLedger
