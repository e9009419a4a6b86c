import TrialLedger.Fixture.Pattern
import TrialLedger.Proofs.Check.Accounts
import TrialLedger.Proofs.Fixture.Place

/-! Accounts of a fixture, as they are set and as they are expected. Both readings go through the same
entries, in the same order. Where no two entries have one key, what is set is as expected. -/

namespace TrialLedger

/-- Everything in one of two lists that match item by item has its match in the other one. -/
theorem exists_mem_of_forall₂ {α β : Type} {R : α → β → Prop} {l : List α} {l' : List β} (h : List.Forall₂ R l l')
    {a : α} (ha : a ∈ l) : ∃ b ∈ l', R a b := by
  induction h with
  | nil => cases ha
  | cons hab _ ih =>
    rcases List.mem_cons.1 ha with rfl | ha
    · exact ⟨_, List.mem_cons_self, hab⟩
    · obtain ⟨b, hb, hR⟩ := ih ha
      exact ⟨b, List.mem_cons_of_mem _ hb, hR⟩

/-! ### Maps of entries -/

namespace Check.MapPattern

variable {κ ι α β : Type} [DecidableEq ι] {v : View κ ι α β}

/-- Puts entries one after the other, but for those that are empty. -/
def putAll (v : View κ ι α β) (t : Table ι β) (l : List (κ × β)) : Table ι β :=
  l.foldl (fun t e => if v.isEmpty e.2 then t else t.put (v.locate e.1) e.2) t

theorem putAll_append (t : Table ι β) (l l' : List (κ × β)) : putAll v t (l ++ l') = putAll v (putAll v t l) l' :=
  List.foldl_append

/-- What has been put is found, but for empty entries. -/
theorem get?_putAll {l : List (κ × β)} (hn : (l.map fun x => v.locate x.1).Nodup) {i : ι} {b : β} :
    (putAll v Table.empty l).get? i = some b ↔ ∃ x ∈ l, v.locate x.1 = i ∧ x.2 = b ∧ v.isEmpty b = false := by
  have hfold : putAll v Table.empty l =
      Table.ofList ((l.filter fun x => !v.isEmpty x.2).map fun x => (v.locate x.1, x.2)) := by
    rw [putAll, Table.ofList, List.foldl_map, List.foldl_filter]
    congr 1
    funext t x
    cases v.isEmpty x.2 <;> rfl
  have hkeys : (((l.filter fun x => !v.isEmpty x.2).map fun x => (v.locate x.1, x.2)).map Prod.fst).Nodup := by
    rw [List.map_map]
    exact hn.sublist (List.filter_sublist.map _)
  rw [← Table.mem_entries_iff (e := (i, b)), hfold, Table.entries_ofList hkeys, List.mem_map]
  constructor
  · rintro ⟨x, hx, heq⟩
    obtain ⟨rfl, rfl⟩ := Prod.mk.inj heq
    obtain ⟨hmem, hfull⟩ := List.mem_filter.1 hx
    exact ⟨x, hmem, rfl, rfl, by simpa using hfull⟩
  · rintro ⟨x, hmem, rfl, rfl, hfull⟩
    exact ⟨x, List.mem_filter.2 ⟨hmem, by simpa using hfull⟩, rfl⟩

/-- An entry of a pattern that expects what an entry of a map holds, and nothing in place of an empty one. -/
def Expects (v : View κ ι α β) (e : κ × Pattern α) (x : κ × β) : Prop :=
  e.1 = x.1 ∧ ∀ a ∈ e.2.asked, v.same a (if v.isEmpty x.2 then v.empty else x.2) = true

/-- A map is as expected by its own entries. -/
theorem accepts_putAll {l : List (κ × β)} {entries : List (κ × Pattern α)} (allowMore : Bool)
    (hempty : v.isEmpty v.empty = true) (hn : (l.map fun x => v.locate x.1).Nodup)
    (h : List.Forall₂ (Expects v) entries l) :
    (exact entries allowMore).Accepts v (putAll v Table.empty l) := by
  have hget : ∀ x ∈ l, (putAll v Table.empty l).getD (v.locate x.1) v.empty =
      if v.isEmpty x.2 then v.empty else x.2 := by
    intro x hx
    rw [Table.getD]
    cases hfull : v.isEmpty x.2 with
    | true =>
      have hnone : (putAll v Table.empty l).get? (v.locate x.1) = none := by
        refine Option.eq_none_iff_forall_ne_some.2 fun b hb => ?_
        obtain ⟨y, hy, hkey, rfl, hfull'⟩ := (get?_putAll hn).1 hb
        obtain rfl := List.inj_on_of_nodup_map hn hy hx hkey
        rw [hfull] at hfull'
        cases hfull'
      rw [hnone]
      rfl
    | false =>
      rw [(get?_putAll hn).2 ⟨x, hx, rfl, rfl, hfull⟩]
      rfl
  refine ⟨fun e he a ha => ?_, fun _ i hi => ?_⟩
  · obtain ⟨x, hx, hkey, hsame⟩ := exists_mem_of_forall₂ h he
    rw [hkey, hget x hx]
    exact hsame a ha
  · rw [Table.getD]
    cases hb : (putAll v Table.empty l).get? i with
    | none => exact hempty
    | some b =>
      obtain ⟨x, hx, rfl, -⟩ := (get?_putAll hn).1 hb
      obtain ⟨e, he, hkey, -⟩ := exists_mem_of_forall₂ h.flip hx
      exact absurd (congrArg v.locate hkey) (hi e he)

end Check.MapPattern

namespace Fixture

open Check

variable {ctx : Context}

/-! ### What maps list -/

/-- The holdings that the members of a map of tokens list. -/
def dctListing (ctx : Context) : List (Text × Json) → Option (List ((Bytes × Int) × Holding))
  | [] => some []
  | (k, j) :: r => do
    let id ← (readBytes ctx "" (.text k)).toOption
    let held ← (readHoldings ctx "" j).toOption
    return held.map (fun (nonce, amount) => ((id, (nonce : Int)), ⟨.int nonce, amount⟩)) ++ (← dctListing ctx r)

/-- The stored values that the members of a map list. -/
def storageListing (ctx : Context) : List (Text × Json) → Option (List (Bytes × Bytes))
  | [] => some []
  | (k, j) :: r => do
    let key ← (readBytes ctx "" (.text k)).toOption
    let value ← (readBytes ctx "" j).toOption
    return (key, value) :: (← storageListing ctx r)

open AccountPattern (dctView storageView)
open MapPattern (putAll putAll_append)

theorem putHoldings_eq (id : Bytes) (t : Holdings) (held : List (Nat × Nat)) :
    putHoldings id t held =
      putAll dctView t (held.map fun (nonce, amount) => ((id, (nonce : Int)), (⟨.int nonce, amount⟩ : Holding))) := by
  have hzero : ∀ amount : Nat, (Amount.whole amount).isZero = decide (amount = 0) := by
    intro amount
    simp
  rw [putHoldings, putAll, List.foldl_map]
  congr 1
  funext t x
  simp [dctView, hzero]

theorem toOption_readDct (ctx : Context) (path : Text) (t : Holdings) (members : List (Text × Json)) :
    (readDct ctx path t members).toOption = (dctListing ctx members).map (putAll dctView t) := by
  induction members generalizing t with
  | nil => rfl
  | cons m r ih =>
    obtain ⟨k, j⟩ := m
    simp only [readDct, dctListing, toOption_bind, toOption_congr (unplaced_readBytes ctx path "" _),
      toOption_congr (unplaced_readHoldings ctx _ "" _), ih,
      putHoldings_eq]
    cases (readBytes ctx "" (.text k)).toOption with
    | none => rfl
    | some id =>
      cases (readHoldings ctx "" j).toOption with
      | none => rfl
      | some held =>
        cases dctListing ctx r with
        | none => rfl
        | some l => exact congrArg some (putAll_append t _ l).symm

theorem toOption_readStorage (ctx : Context) (path : Text) (t : Table Bytes Bytes) (members : List (Text × Json)) :
    (readStorage ctx path t members).toOption = (storageListing ctx members).map (putAll storageView t) := by
  induction members generalizing t with
  | nil => rfl
  | cons m r ih =>
    obtain ⟨k, j⟩ := m
    simp only [readStorage, storageListing, toOption_bind, toOption_congr (unplaced_readBytes ctx _ "" _), ih]
    cases (readBytes ctx "" (.text k)).toOption with
    | none => rfl
    | some key =>
      cases (readBytes ctx "" j).toOption with
      | none => rfl
      | some value => cases storageListing ctx r <;> rfl

/-! ### What maps are expected to hold -/

theorem eq_text_of_isText {j : Json} {s : String} (h : j.isText s = true) : j = .text s := by
  cases j <;> simp_all [Json.isText]

/-- What is no literal as a sign is not read where the sign stands. -/
theorem isText_eq_false {α : Type} {read : Json → Read α} {s : String} (hs : (read (.text s)).toOption = none)
    {j : Json} {a : α} (h : read j = .ok a) : j.isText s = false := by
  refine Bool.eq_false_iff.2 fun hj => ?_
  rw [eq_text_of_isText hj] at h
  rw [h] at hs
  cases hs

/-- A pattern of what can be read asks for nothing else. -/
theorem readPattern_ok {α : Type} {read : Json → Read α} {j : Json} {a : α} (h : read j = .ok a)
    (hstar : j.isText "*" = false) : ∃ p, readPattern read j = .ok p ∧ ∀ b ∈ p.asked, b = a := by
  rw [readPattern, hstar, h]
  cases j.isNull with
  | true => exact ⟨.unspecified, rfl, nofun⟩
  | false => exact ⟨.exact a j, rfl, fun b hb => (Option.some.inj hb).symm⟩

theorem ne_plus_of_readBytes {path k : Text} {b : Bytes} (h : readBytes ctx path (.text k) = .ok b) :
    k ≠ .plain "+" := by
  rintro rfl
  have hplus : (readBytes ctx path (.text "+")).toOption = none := rfl
  rw [h] at hplus
  cases hplus

theorem splitPlus_eq {α : Type} {members : List (Text × α)} (h : ∀ m ∈ members, m.1 ≠ .plain "+") :
    splitPlus members = (members, false) := by
  refine Prod.ext (List.filter_eq_self.2 fun m hm => by simpa using h m hm) ?_
  rw [splitPlus, List.any_eq_false]
  exact fun m hm => by simpa using h m hm

/-- What is expected of one holding. -/
def holdingEntry (id : Bytes) (j : Json) (x : Nat × Nat) : (Bytes × Int) × Pattern Int :=
  ((id, (x.1 : Int)), .exact (x.2 : Int) (writtenHolding j x.2))

/-- The entries that are expected of a map of tokens are those that it lists. -/
theorem readDctEntries_of_listing (path : Text) {members : List (Text × Json)}
    {l : List ((Bytes × Int) × Holding)} (h : dctListing ctx members = some l) :
    (∀ m ∈ members, m.1 ≠ .plain "+") ∧ ∃ entries, readDctEntries ctx path members = .ok entries ∧
      List.Forall₂ (MapPattern.Expects dctView) entries l := by
  induction members generalizing l with
  | nil =>
    obtain rfl := Option.some.inj h
    exact ⟨nofun, [], rfl, .nil⟩
  | cons m r ih =>
    obtain ⟨k, j⟩ := m
    simp only [dctListing, Option.bind_eq_bind, Option.bind_eq_some_iff, Option.pure_def, Option.some.injEq,
      toOption_eq_some] at h
    obtain ⟨id, hid, held, hheld, rest, hrest, rfl⟩ := h
    obtain ⟨hplus, entries, hentries, hexpects⟩ := ih hrest
    have hid' := ok_of_unplaced_eq (unplaced_readBytes ctx "" path _) hid
    have hheld' := ok_of_unplaced_eq (unplaced_readHoldings ctx "" (keyed path k) _) hheld
    have hstar := isText_eq_false (s := "*") rfl hheld
    refine ⟨List.forall_mem_cons.2 ⟨ne_plus_of_readBytes hid, hplus⟩, held.map (holdingEntry id j) ++ entries, ?_, ?_⟩
    · simp only [readDctEntries, hid', hstar, hheld', hentries]
      rfl
    · refine List.rel_append ?_ hexpects
      rw [List.forall₂_map_left_iff, List.forall₂_map_right_iff, List.forall₂_same]
      rintro ⟨nonce, amount⟩ -
      refine ⟨rfl, ?_⟩
      rintro n ⟨rfl⟩
      by_cases hzero : amount = 0
      · subst hzero
        exact sameAmount_whole 0 0
      · simp [dctView, hzero, sameAmount_whole]

theorem readStorageEntries_of_listing (path : Text) {members : List (Text × Json)} {l : List (Bytes × Bytes)}
    (h : storageListing ctx members = some l) :
    (∀ m ∈ members, m.1 ≠ .plain "+") ∧ ∃ entries, readStorageEntries ctx path members = .ok entries ∧
      List.Forall₂ (MapPattern.Expects storageView) entries l := by
  induction members generalizing l with
  | nil =>
    obtain rfl := Option.some.inj h
    exact ⟨nofun, [], rfl, .nil⟩
  | cons m r ih =>
    obtain ⟨k, j⟩ := m
    simp only [storageListing, Option.bind_eq_bind, Option.bind_eq_some_iff, Option.pure_def, Option.some.injEq,
      toOption_eq_some] at h
    obtain ⟨key, hkey, value, hvalue, rest, hrest, rfl⟩ := h
    obtain ⟨hplus, entries, hentries, hexpects⟩ := ih hrest
    have hkey' := ok_of_unplaced_eq (unplaced_readBytes ctx "" path _) hkey
    have hvalue' := ok_of_unplaced_eq (unplaced_readBytes ctx "" (keyed path k) _) hvalue
    have hstar := isText_eq_false (s := "*") rfl hvalue
    obtain ⟨p, hp, hasked⟩ := readPattern_ok hvalue' hstar
    refine ⟨List.forall_mem_cons.2 ⟨ne_plus_of_readBytes hkey, hplus⟩, (key, p) :: entries, ?_,
      .cons ⟨rfl, ?_⟩ hexpects⟩
    · simp only [readStorageEntries, readBytesPattern, hkey', hp, hentries]
      rfl
    · intro b hb
      obtain rfl := hasked b hb
      cases b <;> simp [storageView]

theorem readMapPattern_ok {κ α : Type} {read : List (Text × Json) → Read (List (κ × Pattern α))} {path : Text}
    (path' : Text) {j : Json} {members : List (Text × Json)} {entries : List (κ × Pattern α)}
    (hj : objectMembers path j = .ok members) (hplus : ∀ m ∈ members, m.1 ≠ .plain "+")
    (hentries : read members = .ok entries) :
    ∃ p, readMapPattern read path' j = .ok p ∧ (p = .unspecified ∨ p = .exact entries false) := by
  cases j with
  | null => exact ⟨.unspecified, rfl, .inl rfl⟩
  | object ms =>
    obtain rfl : ms = members := Except.ok.inj hj
    have hobject : objectMembers path' (.object ms) = .ok ms := rfl
    refine ⟨.exact entries false, ?_, .inr rfl⟩
    rw [readMapPattern, hobject]
    simp only [Json.isNull, Json.isText, bind, Except.bind, splitPlus_eq hplus, hentries]
    rfl
  | _ => cases hj

/-! ### Accounts -/

theorem readAmount_of_readU64 {path : Text} {j : Json} {n : Nat} (h : readU64 ctx path j = .ok n) :
    readAmount ctx path j = .ok n := by
  obtain ⟨m, hm, hfits⟩ := bind_eq_ok.1 h
  rw [hm]
  split at hfits
  · exact hfits
  · split at hfits <;> cases hfits

theorem readBytes_of_readAddress {path : Text} {j : Json} {b : Bytes} (h : readAddress ctx path j = .ok b) :
    readBytes ctx path j = .ok b := by
  rw [readAddress] at h
  split at h
  · cases h
  · obtain ⟨c, hc, hlength⟩ := bind_eq_ok.1 h
    rw [hc]
    split at hlength
    · exact hlength
    · cases hlength

/-- A pattern of what is read where it is present asks for nothing else. -/
theorem readPattern_of_readPresent {α : Type} {read read' : Json → Read α} {j : Json} {o : Option α}
    (h : readPresent read j = .ok o) (hread : ∀ {a}, read j = .ok a → read' j = .ok a) :
    ∃ p, readPattern read' j = .ok p ∧ ∀ a ∈ p.asked, some a = o := by
  rw [readPresent] at h
  rw [readPattern]
  cases hnull : j.isNull with
  | true => exact ⟨.unspecified, rfl, nofun⟩
  | false =>
    rw [hnull] at h
    obtain ⟨a, ha, ho⟩ := bind_eq_ok.1 h
    cases j.isText "*" with
    | true => exact ⟨.star, rfl, nofun⟩
    | false =>
      refine ⟨.exact a j, by rw [hread ha]; rfl, fun b hb => ?_⟩
      rw [← Option.some.inj hb]
      exact Except.ok.inj ho

theorem readNumberPattern_ok {path : Text} (path' : Text) {j : Json} {n : Nat} (h : readAmount ctx path j = .ok n) :
    ∃ p, readNumberPattern ctx path' j = .ok p ∧ ∀ m ∈ p.asked, m = n := by
  have h' := ok_of_unplaced_eq (unplaced_readAmount ctx path path' j) h
  exact readPattern_ok (by rw [h']; rfl) (isText_eq_false rfl h)

theorem asked_map {α β : Type} (f : α → β) (p : Pattern α) : (p.map f).asked = p.asked.map f := by
  cases p <;> rfl

end Fixture

/-- The members of an object. -/
def Json.members : Json → List (Text × Json)
  | .object members => members
  | _ => []

namespace Fixture

open Check
open AccountPattern (dctView storageView)
open MapPattern (putAll)

variable {ctx : Context}

/-- No two entries of an account have one key. -/
structure AccountRecord.HasDistinctKeys (ctx : Context) (r : AccountRecord) : Prop where
  dct : ∀ l ∈ dctListing ctx r.dct.members, (l.map Prod.fst).Nodup
  storage : ∀ l ∈ storageListing ctx r.storage.members, (l.map Prod.fst).Nodup

theorem members_of_objectMembers {path : Text} {j : Json} {members : List (Text × Json)}
    (h : objectMembers path j = .ok members) : j.members = members := by
  cases j with
  | null => exact Except.ok.inj h
  | object ms => exact Except.ok.inj h
  | _ => cases h

/-- What is expected of a map is there when the same map has been set. Both ways of reading it list the same entries. -/
theorem readMapPattern_accepts {κ ι α β : Type} [DecidableEq ι] {v : MapPattern.View κ ι α β}
    {set : List (Text × Json) → Read (Table ι β)} {read : List (Text × Json) → Read (List (κ × Pattern α))}
    {listing : List (Text × Json) → Option (List (κ × β))} {path : Text} (path' : Text) {j : Json}
    {members : List (Text × Json)} {t : Table ι β} (hempty : v.isEmpty v.empty = true)
    (hlocate : Function.Injective v.locate)
    (hset : (set members).toOption = (listing members).map (putAll v Table.empty))
    (hread : ∀ {l}, listing members = some l → (∀ m ∈ members, m.1 ≠ .plain "+") ∧
      ∃ entries, read members = .ok entries ∧ List.Forall₂ (MapPattern.Expects v) entries l)
    (hj : objectMembers path j = .ok members) (ht : set members = .ok t)
    (hn : ∀ l ∈ listing j.members, (l.map Prod.fst).Nodup) :
    ∃ p, readMapPattern read path' j = .ok p ∧ p.Accepts v t := by
  rw [ht, toOption_ok, eq_comm, Option.map_eq_some_iff] at hset
  obtain ⟨l, hl, rfl⟩ := hset
  obtain ⟨hplus, entries, hentries, hexpects⟩ := hread hl
  obtain ⟨p, hp, rfl | rfl⟩ := readMapPattern_ok path' hj hplus hentries
  · exact ⟨_, hp, nofun, nofun⟩
  · have hnodup := (hn l (members_of_objectMembers hj ▸ hl)).map hlocate
    rw [List.map_map] at hnodup
    exact ⟨_, hp, MapPattern.accepts_putAll false hempty hnodup hexpects⟩

theorem dctView_locate_injective : Function.Injective dctView.locate := by
  rintro ⟨id, n⟩ ⟨id', n'⟩ h
  simpa [dctView] using h

/-- An account that has been set is as the same record expects it. -/
theorem readAccountPattern_accepts {path : Text} (path' : Text) {j : Json} {r : AccountRecord} {a : Account}
    (hr : AccountRecord.ofJson j = .ok r) (ha : readAccount ctx path r = .ok a) (hn : r.HasDistinctKeys ctx) :
    ∃ p, readAccountPattern ctx path' j = .ok p ∧ p.Accepts a := by
  simp only [readAccount, bind_eq_ok] at ha
  obtain ⟨nonce, hnonce, balance, hbalance, held, hheld, dct, hdct, stored, hstored, storage, hstorage, code, hcode,
    owner, howner, ha⟩ := ha
  obtain rfl := Except.ok.inj ha
  obtain ⟨pn, hpn, hasksNonce⟩ := readNumberPattern_ok (member path' "nonce") (readAmount_of_readU64 hnonce)
  obtain ⟨pb, hpb, hasksBalance⟩ := readNumberPattern_ok (member path' "balance") hbalance
  obtain ⟨pc, hpc, hasksCode⟩ := readPattern_of_readPresent hcode fun h =>
    ok_of_unplaced_eq (unplaced_readCode ctx _ (member path' "code") _) h
  obtain ⟨po, hpo, hasksOwner⟩ := readPattern_of_readPresent howner fun h =>
    ok_of_unplaced_eq (unplaced_readBytes ctx _ (member path' "owner") _) (readBytes_of_readAddress h)
  obtain ⟨pd, hpd, hacceptsDct⟩ := readMapPattern_accepts (member path' "dct") (Amount.isZero_whole 0)
    dctView_locate_injective (toOption_readDct ctx _ _ held) (readDctEntries_of_listing (member path' "dct")) hheld
    hdct hn.dct
  obtain ⟨ps, hps, hacceptsStorage⟩ := readMapPattern_accepts (member path' "storage") rfl
    Function.injective_id (toOption_readStorage ctx _ _ stored)
    (readStorageEntries_of_listing (member path' "storage")) hstored hstorage hn.storage
  have hstar : j.isText "*" = false := by
    refine Bool.eq_false_iff.2 fun hj => ?_
    rw [eq_text_of_isText hj] at hr
    cases hr
  have hrecord : readRecord path' AccountRecord.model (AccountRecord.ofJson j) = .ok r := by
    rw [hr]
    rfl
  refine ⟨{ nonce := pn, balance := pb, dct := pd, storage := ps, code := pc.map some, owner := po.map some }, ?_, ?_⟩
  · rw [readAccountPattern, hstar]
    simp only [hrecord, readBytesPattern, hpc, hpn, hpb, hpd, hps, hpo, bind, Except.bind]
    rfl
  · obtain ⟨hlistedDct, hotherDct⟩ := (AccountPattern.accepts_dct_iff (p := { dct := pd }) (a := { dct })).1 hacceptsDct
    obtain ⟨hlistedStorage, hotherStorage⟩ :=
      (AccountPattern.accepts_storage_iff (p := { storage := ps }) (a := { storage })).1 hacceptsStorage
    refine ⟨?_, ?_, ?_, ?_, hlistedDct, hotherDct, hlistedStorage, hotherStorage⟩
    · exact hasksNonce
    · intro n h
      rw [hasksBalance n h]
      exact (sameAmount_whole _ _).trans (decide_eq_true rfl)
    · intro c h
      rw [asked_map] at h
      obtain ⟨c', hc', rfl⟩ := Option.map_eq_some_iff.1 h
      exact hasksCode c' hc'
    · intro b h
      rw [asked_map] at h
      obtain ⟨b', hb', rfl⟩ := Option.map_eq_some_iff.1 h
      exact hasksOwner b' hb'

end Fixture

end TrialLedger
