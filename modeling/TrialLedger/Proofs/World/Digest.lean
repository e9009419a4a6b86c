import TrialLedger.Proofs.Amount
import TrialLedger.Proofs.Json.Printer
import TrialLedger.Proofs.World.Same
import TrialLedger.World.Digest

/-! The text that the digest of a world is made from. It is written from what the world holds, each list
in the order of its names, so it is one for all orders in which a world may have come about; and
all that the world holds can be found in it again. -/

namespace TrialLedger

open World (sorted)

/-! ### Members in order -/

theorem mem_sorted {m : String × Json} {l : List (String × Json)} : m ∈ sorted l ↔ m ∈ l :=
  List.mem_mergeSort

theorem pairwise_sorted (l : List (String × Json)) : (sorted l).Pairwise fun a b => a.1 ≤ b.1 := by
  have hsorted : (sorted l).Pairwise fun a b => decide (a.1 ≤ b.1) = true := by
    refine List.pairwise_mergeSort (fun a b c hab hbc => ?_) (fun a b => ?_) l
    · rw [decide_eq_true_eq] at hab hbc ⊢
      exact String.le_trans hab hbc
    · simpa using String.le_total a.1 b.1
  exact hsorted.imp fun h => of_decide_eq_true h

/-- Members with different names have one order. -/
theorem sorted_eq_iff {l l' : List (String × Json)} (hn : (l.map Prod.fst).Nodup) :
    sorted l = sorted l' ↔ l.Perm l' := by
  refine ⟨fun h => ?_, fun h => ?_⟩
  · exact (List.mergeSort_perm l _).symm.trans ((List.Perm.of_eq h).trans (List.mergeSort_perm l' _))
  · have hperm : (sorted l).Perm (sorted l') :=
      (List.mergeSort_perm l _).trans (h.trans (List.mergeSort_perm l' _).symm)
    refine hperm.eq_of_pairwise (fun a b ha hb hab hba => ?_) (pairwise_sorted l) (pairwise_sorted l')
    exact List.inj_on_of_nodup_map hn (mem_sorted.1 ha) (h.mem_iff.2 (mem_sorted.1 hb))
      (String.le_antisymm hab hba)

/-- Lists that are written alike are one list in two orders, when different items are written differently. -/
theorem perm_map_iff {α β : Type} {f : α → β} {l l' : List α} (hn : l.Nodup) (hn' : l'.Nodup)
    (hf : ∀ a, a ∈ l ∨ a ∈ l' → ∀ b, b ∈ l ∨ b ∈ l' → f a = f b → a = b) :
    (l.map f).Perm (l'.map f) ↔ l.Perm l' := by
  refine ⟨fun h => (List.perm_ext_iff_of_nodup hn hn').2 fun a => ⟨fun ha => ?_, fun ha => ?_⟩, fun h => h.map f⟩
  · obtain ⟨b, hb, hab⟩ := List.mem_map.1 (h.mem_iff.1 (List.mem_map_of_mem ha))
    rwa [hf a (.inl ha) b (.inr hb) hab.symm]
  · obtain ⟨b, hb, hab⟩ := List.mem_map.1 (h.mem_iff.2 (List.mem_map_of_mem ha))
    rwa [hf a (.inr ha) b (.inl hb) hab.symm]

/-! ### Accounts -/

/-- Balances, amounts and nonces are whole numbers, what is held is kept under its nonce, and the name of the
code is made of characters. -/
structure Account.IsPlain (a : Account) : Prop where
  balance : a.balance.IsWhole
  code : ∀ t ∈ a.code, ∃ s : String, t = s
  dct : ∀ e ∈ a.dct.entries, ∃ n m : Int, e.1.2 = .number n ∧ e.2 = ⟨.int n, .whole m⟩

namespace World

/-- All accounts lie at addresses and are written in whole numbers. -/
structure IsPlain (w : World) : Prop where
  accounts : ∀ e ∈ w.accounts.entries, e.2.IsPlain
  strays : w.strays.entries = []

/-! ### Numbers and names -/

theorem toString_inj {m n : Int} (h : toString m = toString n) : m = n := by
  rwa [Int.toString_eq_repr, Int.toString_eq_repr, Int.repr_inj] at h

theorem amountText_inj {x y : Amount} (hx : x.IsWhole) (hy : y.IsWhole) (h : x.text = y.text) : x = y := by
  obtain ⟨m, rfl⟩ := hx
  obtain ⟨n, rfl⟩ := hy
  exact congrArg Amount.whole (toString_inj h)

theorem colon_notMem_hexChars (b : Bytes) : ':' ∉ b.hexChars := by
  intro h
  obtain ⟨n, hn, heq⟩ := Bytes.mem_hexChars h
  interval_cases n <;> cases heq

theorem colon_notMem_toString (n : Int) : ':' ∉ (toString n).toList := by
  have hdigits : ':' ∉ Nat.toDigits 10 n.natAbs := fun h =>
    absurd (Nat.isDigit_of_mem_toDigits (by decide) (by decide) h) (by decide)
  rw [Json.toList_toString]
  split
  · exact hdigits
  · exact fun h => hdigits ((List.mem_cons.1 h).resolve_left (by decide))

/-- The name of a holding tells the token and the nonce. -/
theorem holdingName_inj {e e' : (Bytes × Key) × Holding} {m n : Int} (hm : e.2.nonce = .int m)
    (hn : e'.2.nonce = .int n) (h : holdingName e = holdingName e') : e.1.1 = e'.1.1 ∧ m = n := by
  have hname : ∀ {e : (Bytes × Key) × Holding} {k : Int}, e.2.nonce = .int k →
      (holdingName e).toList = e.1.1.hexChars ++ ':' :: (toString k).toList := by
    intro e k hk
    simp [holdingName, hk, Bytes.hex, Value.display, Value.shown]
  have hlist := congrArg String.toList h
  rw [hname hm, hname hn] at hlist
  obtain ⟨hid, -, hnonce⟩ :=
    (List.append_cons_inj_of_notMem (colon_notMem_hexChars _) (colon_notMem_toString m)).1 hlist
  exact ⟨Bytes.hex_inj (congrArg String.ofList hid), toString_inj (String.toList_inj.1 hnonce)⟩

theorem prefixedHex_inj {a b : Bytes} (h : prefixedHex a = prefixedHex b) : a = b := by
  have hlist := congrArg String.toList h
  simp only [prefixedHex, String.toList_append] at hlist
  exact Bytes.hex_inj (String.toList_inj.1 (List.append_cancel_left hlist))

/-! ### Accounts in text -/

theorem record_inj {l l' : List (String × Json)} : Json.record l = Json.record l' ↔ l = l' := by
  refine ⟨fun h => List.map_injective_iff.2 (fun m m' h => ?_) (Json.object.inj h), fun h => h ▸ rfl⟩
  obtain ⟨hname, hvalue⟩ := Prod.mk.inj h
  exact Prod.ext (Text.plain.inj hname) hvalue

theorem isExact_record {l : List (String × Json)} (h : ∀ m ∈ l, m.2.IsExact) : (Json.record l).IsExact := by
  refine Json.membersExact_iff.2 fun m hm => ?_
  obtain ⟨m, hmem, rfl⟩ := List.mem_map.1 hm
  exact ⟨⟨m.1, rfl⟩, h m hmem⟩

section

variable {a b : Account}

/-- What is held, as a member. -/
def holdingMember (e : (Bytes × Key) × Holding) : String × Json := (holdingName e, .text e.2.amount.text)

theorem holdingMember_inj (ha : a.IsPlain) (hb : b.IsPlain) {e e' : (Bytes × Key) × Holding}
    (he : e ∈ a.dct.entries) (he' : e' ∈ b.dct.entries) (h : holdingName e = holdingName e') :
    e.1 = e'.1 ∧ (e.2.amount.text = e'.2.amount.text → e = e') := by
  obtain ⟨n, m, hk, hv⟩ := ha.dct e he
  obtain ⟨n', m', hk', hv'⟩ := hb.dct e' he'
  obtain ⟨hid, rfl⟩ := holdingName_inj (by rw [hv]) (by rw [hv']) h
  have hkey : e.1 = e'.1 := Prod.ext hid (hk.trans hk'.symm)
  refine ⟨hkey, fun htext => Prod.ext hkey ?_⟩
  have hm : m = m' := by
    rw [hv, hv'] at htext
    exact toString_inj htext
  rw [hv, hv', hm]

theorem nodup_holdingName (ha : a.IsPlain) : (a.dct.entries.map holdingName).Nodup :=
  a.dct.nodup_entries.map_on fun _ he _ he' h =>
    List.inj_on_of_nodup_map a.dct.nodup he he' (holdingMember_inj ha ha he he' h).1

theorem holdings_eq (ha : a.IsPlain) : holdings a = a.dct.entries.map holdingMember := by
  refine Table.entries_ofList ?_
  rw [List.map_map]
  exact nodup_holdingName ha

/-- The holdings of accounts are written alike exactly when they are the same. -/
theorem sorted_holdings_iff (ha : a.IsPlain) (hb : b.IsPlain) :
    sorted (holdings a) = sorted (holdings b) ↔ ∀ k, a.dct.get? k = b.dct.get? k := by
  have hnames : ((a.dct.entries.map holdingMember).map Prod.fst).Nodup := by
    rw [List.map_map]
    exact nodup_holdingName ha
  have hinj : ∀ e, e ∈ a.dct.entries ∨ e ∈ b.dct.entries → ∀ e', e' ∈ a.dct.entries ∨ e' ∈ b.dct.entries →
      holdingMember e = holdingMember e' → e = e' := by
    intro e he e' he' h
    have hname : holdingName e = holdingName e' := congrArg Prod.fst h
    have htext : e.2.amount.text = e'.2.amount.text := Text.plain.inj (Json.text.inj (congrArg Prod.snd h))
    rcases he with he | he <;> rcases he' with he' | he'
    · exact (holdingMember_inj ha ha he he' hname).2 htext
    · exact (holdingMember_inj ha hb he he' hname).2 htext
    · exact (holdingMember_inj hb ha he he' hname).2 htext
    · exact (holdingMember_inj hb hb he he' hname).2 htext
  rw [holdings_eq ha, holdings_eq hb, sorted_eq_iff hnames,
    perm_map_iff a.dct.nodup_entries b.dct.nodup_entries hinj, Table.get?_eq_iff_perm]

theorem storageMember_inj {e e' : Bytes × Bytes} (h : storageMember e = storageMember e') : e = e' :=
  Prod.ext (Bytes.hex_inj (congrArg Prod.fst h)) (Bytes.hex_inj (Text.plain.inj (Json.text.inj (congrArg Prod.snd h))))

/-- The storage of accounts is written alike exactly when it is the same. -/
theorem sorted_storage_iff :
    sorted (a.storage.entries.map storageMember) = sorted (b.storage.entries.map storageMember) ↔
      ∀ k, a.storage.get? k = b.storage.get? k := by
  have hnames : ((a.storage.entries.map storageMember).map Prod.fst).Nodup := by
    rw [List.map_map]
    refine a.storage.nodup_entries.map_on fun _ he _ he' h => ?_
    exact List.inj_on_of_nodup_map a.storage.nodup he he' (Bytes.hex_inj h)
  rw [sorted_eq_iff hnames, perm_map_iff a.storage.nodup_entries b.storage.nodup_entries
    fun _ _ _ _ => storageMember_inj, Table.get?_eq_iff_perm]

/-- A text that may be missing. -/
def textOrNull (t : Option Text) : Json := (t.map Json.text).getD .null

theorem textOrNull_inj {s t : Option Text} : textOrNull s = textOrNull t ↔ s = t := by
  cases s <;> cases t <;> simp [textOrNull]

theorem isExact_textOrNull {t : Option Text} (h : ∀ u ∈ t, ∃ s : String, u = s) : (textOrNull t).IsExact := by
  cases t with
  | none => trivial
  | some u => exact h u rfl

/-- The owner as it is written. -/
def ownerText (a : Account) : Option Text := a.owner.map fun b => prefixedHex b

theorem ownerText_eq_iff : ownerText a = ownerText b ↔ a.owner = b.owner :=
  (Option.map_injective fun _ _ h => prefixedHex_inj (Text.plain.inj h)).eq_iff

theorem accountDigest_eq (a : Account) : accountDigest a = .record [
    ("balance", .text a.balance.text),
    ("code", textOrNull a.code),
    ("dct", .record (sorted (holdings a))),
    ("nonce", .int a.nonce),
    ("owner", textOrNull (ownerText a)),
    ("storage", .record (sorted (a.storage.entries.map storageMember)))] := by
  unfold accountDigest ownerText
  cases a.code <;> cases a.owner <;> rfl

theorem accountDigest_eq_iff (ha : a.IsPlain) (hb : b.IsPlain) :
    accountDigest a = accountDigest b ↔ a.Same b := by
  have hbalance : a.balance.text = b.balance.text ↔ a.balance = b.balance :=
    ⟨amountText_inj ha.balance hb.balance, congrArg _⟩
  simp only [accountDigest_eq, record_inj, List.cons.injEq, Prod.mk.injEq, Json.text.injEq, Json.int.injEq,
    Text.plain.injEq, true_and, and_true, hbalance, textOrNull_inj, ownerText_eq_iff, sorted_holdings_iff ha hb,
    sorted_storage_iff]
  constructor
  · rintro ⟨hbalance, hcode, hdct, hnonce, howner, hstorage⟩
    exact ⟨hnonce, hbalance, hdct, hstorage, hcode, howner⟩
  · exact fun h => ⟨h.balance, h.code, h.dct, h.nonce, h.owner, h.storage⟩

end

/-! ### Worlds in text -/

variable {w w' : World}

/-- An account under its address, as a member. -/
def accountMember (e : Bytes × Account) : String × Json := (e.1.hex, accountDigest e.2)

theorem nodup_accountMember (w : World) : ((w.accounts.entries.map accountMember).map Prod.fst).Nodup := by
  rw [List.map_map]
  exact w.accounts.nodup_entries.map_on fun _ he _ he' h =>
    List.inj_on_of_nodup_map w.accounts.nodup he he' (Bytes.hex_inj h)

theorem named_eq (hw : w.strays.entries = []) :
    (w.named.map fun (name, a) => (name, accountDigest a)) = w.accounts.entries.map accountMember := by
  rw [named, hw, List.filterMap_nil, List.append_nil, List.map_map]
  rfl

theorem isExact_accountDigest {a : Account} (ha : a.IsPlain) : (accountDigest a).IsExact := by
  have hdct : (Json.record (sorted (holdings a))).IsExact := by
    refine isExact_record fun m hm => ?_
    rw [mem_sorted, holdings_eq ha] at hm
    obtain ⟨e, -, rfl⟩ := List.mem_map.1 hm
    exact ⟨_, rfl⟩
  have hstorage : (Json.record (sorted (a.storage.entries.map storageMember))).IsExact := by
    refine isExact_record fun m hm => ?_
    obtain ⟨e, -, rfl⟩ := List.mem_map.1 (mem_sorted.1 hm)
    exact ⟨_, rfl⟩
  have howner : ∀ t ∈ ownerText a, ∃ s : String, t = s := by
    intro t ht
    obtain ⟨b, -, rfl⟩ := Option.mem_map.1 ht
    exact ⟨_, rfl⟩
  rw [accountDigest_eq]
  refine isExact_record ?_
  simp only [List.forall_mem_cons, List.not_mem_nil, false_imp_iff, implies_true, and_true]
  exact ⟨⟨_, rfl⟩, isExact_textOrNull ha.code, hdct, trivial, isExact_textOrNull howner, hstorage⟩

/-- The texts of worlds are equal exactly when they have the same members. -/
theorem digestText_eq_iff_perm (hw : w.IsPlain) (hw' : w'.IsPlain) :
    w.digestText = w'.digestText ↔
      (w.accounts.entries.map accountMember).Perm (w'.accounts.entries.map accountMember) := by
  have hexact : ∀ {w : World}, w.IsPlain → (Json.record (sorted (w.accounts.entries.map accountMember))).IsExact := by
    refine fun hw => isExact_record fun m hm => ?_
    obtain ⟨e, he, rfl⟩ := List.mem_map.1 (mem_sorted.1 hm)
    exact isExact_accountDigest (hw.accounts e he)
  unfold digestText
  rw [named_eq hw.strays, named_eq hw'.strays, ← sorted_eq_iff (nodup_accountMember w)]
  exact ⟨fun h => record_inj.1 (Json.print_inj (hexact hw) (hexact hw') h), fun h => by rw [h]⟩

/-- A world has an account exactly when its member is among those of the world. -/
theorem accountMember_mem_iff {b : Bytes} {d : Json} :
    (b.hex, d) ∈ w.accounts.entries.map accountMember ↔
      ∃ a, w.accounts.get? b = some a ∧ d = accountDigest a := by
  constructor
  · intro h
    obtain ⟨e, he, heq⟩ := List.mem_map.1 h
    rw [accountMember, Prod.mk.injEq] at heq
    obtain rfl := Bytes.hex_inj heq.1
    exact ⟨e.2, Table.mem_entries_iff.1 he, heq.2.symm⟩
  · rintro ⟨a, ha, rfl⟩
    exact List.mem_map_of_mem (Table.mem_entries_iff (e := (b, a)) |>.2 ha)

/-- Of worlds with the same members, each has the accounts of the other. -/
theorem exists_same_of_perm (hw : w.IsPlain) (hw' : w'.IsPlain)
    (h : (w.accounts.entries.map accountMember).Perm (w'.accounts.entries.map accountMember)) {b : Bytes}
    {a : Account} (ha : w.accounts.get? b = some a) : ∃ a', w'.accounts.get? b = some a' ∧ a.Same a' := by
  obtain ⟨a', ha', hd⟩ := accountMember_mem_iff.1 (h.mem_iff.1 (accountMember_mem_iff.2 ⟨a, ha, rfl⟩))
  have hplain := hw.accounts (b, a) (Table.mem_entries_iff.2 ha)
  have hplain' := hw'.accounts (b, a') (Table.mem_entries_iff.2 ha')
  exact ⟨a', ha', (accountDigest_eq_iff hplain hplain').1 hd⟩

theorem accountMember_mem_of_same (hw : w.IsPlain) (hw' : w'.IsPlain) (h : w.Same w') {m : String × Json}
    (hm : m ∈ w.accounts.entries.map accountMember) : m ∈ w'.accounts.entries.map accountMember := by
  obtain ⟨e, he, rfl⟩ := List.mem_map.1 hm
  obtain ⟨a', ha', hsame⟩ := h.accounts.exists_of_get? (Table.mem_entries_iff.1 he)
  have hplain' := hw'.accounts (e.1, a') (Table.mem_entries_iff.2 ha')
  exact accountMember_mem_iff.2 ⟨a', ha', (accountDigest_eq_iff (hw.accounts e he) hplain').2 hsame⟩

/-- Two worlds are written alike exactly when they hold the same. -/
theorem digestText_eq_iff (hw : w.IsPlain) (hw' : w'.IsPlain) : w.digestText = w'.digestText ↔ w.Same w' := by
  rw [digestText_eq_iff_perm hw hw']
  constructor
  · intro h
    refine ⟨⟨fun b => ?_, fun {b a a'} ha ha' => ?_⟩, ⟨fun v => ?_, fun {v s s'} hs => ?_⟩⟩
    · rw [Bool.eq_iff_iff, Table.contains, Table.contains, Option.isSome_iff_exists, Option.isSome_iff_exists]
      constructor
      · rintro ⟨a, ha⟩
        obtain ⟨a', ha', -⟩ := exists_same_of_perm hw hw' h ha
        exact ⟨a', ha'⟩
      · rintro ⟨a, ha⟩
        obtain ⟨a', ha', -⟩ := exists_same_of_perm hw' hw h.symm ha
        exact ⟨a', ha'⟩
    · obtain ⟨a'', ha'', hsame⟩ := exists_same_of_perm hw hw' h ha
      rw [ha'] at ha''
      obtain rfl := Option.some.inj ha''
      exact hsame
    · rw [Table.contains, Table.contains, Table.get?, Table.get?, hw.strays, hw'.strays]
    · rw [Table.get?, hw.strays] at hs
      cases hs
  · intro h
    refine (List.perm_ext_iff_of_nodup (nodup_accountMember w).of_map (nodup_accountMember w').of_map).2 fun m => ?_
    exact ⟨accountMember_mem_of_same hw hw' h, accountMember_mem_of_same hw' hw h.symm⟩

/-- A contract with its holdings and storage in a given order, beside an empty account. -/
def stall (owner : Option Bytes) (dct : List ((Bytes × Key) × Holding)) (storage : List (Bytes × Bytes)) : World where
  accounts := Table.ofList
    [([1], { balance := 40, dct := Table.ofList dct, storage := Table.ofList storage,
             code := some (.plain "stall"), owner }),
      ([2], {})]

def stallHoldings : List ((Bytes × Key) × Holding) :=
  [(([9], .number 0), ⟨.int 0, .whole 5⟩), (([9], .number 12), ⟨.int 12, .whole 7⟩)]

def stallStorage : List (Bytes × Bytes) := [([], [1, 2]), ([3], [])]

theorem isPlain_stall (owner : Option Bytes) {dct : List ((Bytes × Key) × Holding)}
    (storage : List (Bytes × Bytes)) (hdct : dct.Perm stallHoldings) : (stall owner dct storage).IsPlain := by
  have hkeys : (dct.map Prod.fst).Nodup := (hdct.map Prod.fst).nodup_iff.2 (by decide)
  have hempty : ({} : Account).IsPlain := ⟨⟨0, rfl⟩, nofun, fun e he => absurd he List.not_mem_nil⟩
  refine ⟨?_, rfl⟩
  rw [show (stall owner dct storage).accounts.entries = [([1], _), ([2], {})] from rfl, List.forall_mem_cons,
    List.forall_mem_singleton]
  refine ⟨⟨⟨40, rfl⟩, fun t ht => ⟨"stall", (Option.some.inj ht).symm⟩, fun e he => ?_⟩, hempty⟩
  rw [Table.entries_ofList hkeys, hdct.mem_iff] at he
  obtain rfl | he := List.mem_cons.1 he
  · exact ⟨0, 5, rfl, rfl⟩
  · obtain rfl := List.mem_singleton.1 he
    exact ⟨12, 7, rfl, rfl⟩

theorem same_stall {owner : Option Bytes} : (stall owner stallHoldings stallStorage).Same
    (stall owner stallHoldings.reverse stallStorage.reverse) := by
  have hdct : ∀ k, (Table.ofList stallHoldings).get? k = (Table.ofList stallHoldings.reverse).get? k := by
    rw [Table.get?_eq_iff_perm, Table.entries_ofList (by decide), Table.entries_ofList (by decide)]
    exact stallHoldings.reverse_perm.symm
  have hstorage : ∀ k, (Table.ofList stallStorage).get? k = (Table.ofList stallStorage.reverse).get? k := by
    rw [Table.get?_eq_iff_perm, Table.entries_ofList (by decide), Table.entries_ofList (by decide)]
    exact stallStorage.reverse_perm.symm
  have hempty : Account.Same {} {} := ⟨rfl, rfl, fun _ => rfl, fun _ => rfl, rfl, rfl⟩
  exact ⟨(Table.Alike.empty.put ⟨rfl, rfl, hdct, hstorage, rfl, rfl⟩).put hempty, Table.Alike.empty⟩

theorem digestText_stall :
    (stall none stallHoldings stallStorage).IsPlain ∧
      (stall none stallHoldings.reverse stallStorage.reverse).IsPlain ∧
      (stall (some []) stallHoldings stallStorage).IsPlain ∧
      (stall none stallHoldings stallStorage).digestText =
        (stall none stallHoldings.reverse stallStorage.reverse).digestText ∧
      (stall none stallHoldings stallStorage).digestText ≠ (stall (some []) stallHoldings stallStorage).digestText := by
  have hplain := isPlain_stall none stallStorage (List.Perm.refl stallHoldings)
  have hback := isPlain_stall none stallStorage.reverse stallHoldings.reverse_perm
  have howned := isPlain_stall (some []) stallStorage (List.Perm.refl stallHoldings)
  refine ⟨hplain, hback, howned, (digestText_eq_iff hplain hback).2 ?_, fun h => ?_⟩
  · exact same_stall
  · have hsame := (digestText_eq_iff hplain howned).1 h
    have := (hsame.accounts.related (k := [1]) rfl rfl).owner
    cases this

end World

end TrialLedger
