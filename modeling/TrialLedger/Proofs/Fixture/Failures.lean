import Mathlib
import TrialLedger.Proofs.Fixture.Account
import TrialLedger.Proofs.Fixture.Parts
import TrialLedger.Scenario.Basic

/-! How a scenario fails to be read. What is wrong with it is told with its place, except for four things: holdings
whose instances cannot be gone through, numbers that are too long to be written, texts that have no bytes, and
literals with more bytes than a length of four bytes can tell. One of them stands somewhere in the scenario when its
reading fails in such a way. -/

namespace TrialLedger.Fixture

open Json (Part)

/-! ### What is not told with its place -/

/-- A value that is made of nothing that could be gone through. -/
def Itemless : Json → Prop
  | .null | .bool _ | .int _ | .float _ => True
  | .text _ | .list _ | .object _ => False

/-- Holdings with nothing but instances, which are no list. -/
def LooseHoldings : Json → Prop
  | .object members => (∀ m ∈ members, m.1 = .plain "instances") ∧
    ∃ j ∈ Json.member? members "instances", Itemless j
  | _ => False

/-- A number with more than eight bytes, and too long to be written. -/
def Overlong (ctx : Context) (j : Json) : Prop :=
  ∃ n, readAmount ctx "" j = .ok n ∧ 2 ^ 64 ≤ n ∧ Text.isWritable n = false

/-- The error does not tell its place, and is due to a text in the source: one that is ragged, or one whose literals
have too many bytes. -/
def BlamesText (ctx : Context) (src : Json) : ReadError → Prop
  | .unencodable => ∃ t, src.Part (.text t) ∧ t.plain? = none
  | .oversized => ∃ path t, src.Part (.text t) ∧ readBytes ctx path (.text t) = .error .oversized
  | _ => False

/-- The error does not tell its place, and is due to a text or a number in the source, or to one of the given holdings
or numbers. -/
def Blames (ctx : Context) (src : Json) (holdings numbers : List Json) : ReadError → Prop
  | .notIterable => ∃ j ∈ holdings, LooseHoldings j
  | .unwritable => (∃ j ∈ numbers, Overlong ctx j) ∨ src.isWritable = false
  | e => BlamesText ctx src e

theorem BlamesText.blames {ctx : Context} {src : Json} (holdings numbers : List Json) {e : ReadError}
    (h : BlamesText ctx src e) : Blames ctx src holdings numbers e := by
  cases e with
  | notIterable | unwritable => exact h.elim
  | _ => exact h

/-- A reading that fails with a place, or else for the given reasons. -/
def FailsFor {α : Type} (P : ReadError → Prop) (x : Read α) : Prop :=
  ∀ e, x = .error e → (∃ place flaw, e = .misread place flaw) ∨ P e

namespace FailsFor

variable {α β ε : Type} {P P' : ReadError → Prop} {x : Read α}

theorem ok (a : α) : FailsFor P (.ok a : Read α) := nofun

theorem misread (path : Text) (flaw : Flaw) : FailsFor P (misread path flaw : Read α) := by
  rintro _ ⟨⟩
  exact .inl ⟨path, flaw, rfl⟩

theorem error {e : ReadError} (h : P e) : FailsFor P (.error e : Read α) := by
  rintro _ ⟨⟩
  exact .inr h

theorem bind {f : α → Read β} (hx : FailsFor P x) (hf : ∀ a, x = .ok a → FailsFor P (f a)) :
    FailsFor P (x >>= f) := by
  cases x with
  | ok a => exact hf a rfl
  | error e =>
    rintro _ ⟨⟩
    exact hx e rfl

theorem map {f : α → β} (hx : FailsFor P x) : FailsFor P (x.map f) := by
  cases x with
  | ok a => exact nofun
  | error e =>
    rintro _ ⟨⟩
    exact hx e rfl

theorem ite {p : Prop} [Decidable p] {y : Read α} (hx : FailsFor P x) (hy : FailsFor P y) :
    FailsFor P (if p then x else y) := by
  split
  · exact hx
  · exact hy

theorem mapError {r : Except ε α} {path : ε → Text} {flaw : ε → Flaw} :
    FailsFor P (r.mapError fun e => .misread (path e) (flaw e)) := by
  cases r with
  | ok a => exact nofun
  | error e =>
    rintro _ ⟨⟩
    exact .inl ⟨_, _, rfl⟩

theorem mono (hx : FailsFor P x) (h : ∀ e, P e → P' e) : FailsFor P' x := fun e he => (hx e he).imp_right (h e)

theorem readItems {read : Text → α → Read β} {l : List α}
    (h : ∀ path, ∀ a ∈ l, FailsFor P (read path a)) (path : Text) (i : Nat) :
    FailsFor P (readItems read path i l) := by
  induction l generalizing i with
  | nil => exact .ok _
  | cons a r ih =>
    have hrest := ih (fun path a ha => h path a (List.mem_cons_of_mem _ ha)) (i + 1)
    exact .bind (h _ a List.mem_cons_self) fun b _ => .bind hrest fun _ _ => .ok _

end FailsFor

/-! ### Literals -/

section

variable {ctx : Context} {P : ReadError → Prop}

/-- What is wrong with a literal and is not told with its place: a surrogate in it, or too many bytes. -/
def LiteralFault (ps : List Point) (e : ReadError) : Prop :=
  e = .oversized ∨ e = .unencodable ∧ ∃ p ∈ ps, p.isSurrogate = true

theorem LiteralFault.mono {ps qs : List Point} (h : ps ⊆ qs) (e : ReadError) (he : LiteralFault ps e) :
    LiteralFault qs e :=
  he.imp_right fun ⟨he, p, hp, hsurrogate⟩ => ⟨he, p, h hp, hsurrogate⟩

theorem surrogate_of_ragged {t : Text} (h : t.plain? = none) : ∃ p ∈ t.points, p.isSurrogate = true := by
  cases t with
  | plain s => cases h
  | ragged t => exact List.any_eq_true.1 t.isRagged

theorem ragged_of_surrogate {t : Text} {p : Point} (hp : p ∈ t.points) (h : p.isSurrogate = true) :
    t.plain? = none := by
  cases t with
  | plain s =>
    obtain ⟨c, -, rfl⟩ := List.mem_map.1 hp
    cases h
  | ragged t => rfl

theorem textBytes_eq_error {t : Text} {e : ReadError} (h : textBytes t = .error e) :
    e = .unencodable ∧ t.plain? = none := by
  cases t with
  | plain s => cases h
  | ragged t => exact ⟨(Except.error.inj h).symm, rfl⟩

theorem textBytes_fails (t : Text) : FailsFor (LiteralFault t.points) (textBytes t) := by
  intro e he
  obtain ⟨rfl, hragged⟩ := textBytes_eq_error he
  exact .inr (.inr ⟨rfl, surrogate_of_ragged hragged⟩)

theorem number_fails (path t : Text) : FailsFor P (number path t) := by
  unfold number
  split
  · exact .ok _
  · exact .misread _ _

theorem paddedName_fails (path : Text) (room : Nat) (t : Text) :
    FailsFor (LiteralFault t.points) (paddedName path room t) :=
  .bind (textBytes_fails t) fun _ _ => .ite (.misread _ _) (.ok _)

theorem fixedNumber_fails (path : Text) (encode : Int → Except Codec.Error Bytes) (t : Text) :
    FailsFor P (fixedNumber path encode t) := .bind (number_fails _ _) fun _ _ => .mapError

theorem hexBytes_fails (path whole t : Text) : FailsFor P (hexBytes path whole t) := by
  unfold hexBytes
  split
  · exact .ok _
  · exact .misread _ _

/-- The name of code is ragged for a ragged literal only. -/
theorem codeName_fails (t : Text) : FailsFor (LiteralFault t.points) (textBytes (codeName ctx t)) := by
  cases t with
  | plain s => exact .ok _
  | ragged t =>
    intro e he
    exact .inr (.inr ⟨(textBytes_eq_error he).1, List.any_eq_true.1 t.isRagged⟩)

theorem opening_fails (path whole : Text) (o : Opening) (t : Text) :
    FailsFor (LiteralFault t.points) (o.read ctx path whole t) := by
  cases o with
  | text => exact textBytes_fails t
  | name zeros room => exact .map (paddedName_fails path room t)
  | file => exact codeName_fails t
  | fixed encode => exact fixedNumber_fails path encode t
  | hex => exact hexBytes_fails path whole t

theorem bareLiteral_fails (path t : Text) : FailsFor P (bareLiteral path t) := by
  cases t with
  | plain s => exact .ite (.ok _) (.ite (.ok _) (.ite (number_fails _ _).map (.misread _ _)))
  | ragged t => exact .misread _ _

/-- What follows the word that opens a literal is a part of it. -/
theorem opened?_subset {ps : List Point} {o : Opening × Text} (h : opened? ps = some o) : o.2.points ⊆ ps := by
  obtain ⟨⟨word, o'⟩, -, hrest⟩ := List.exists_of_findSome?_eq_some h
  obtain ⟨r, hr, rfl⟩ := Option.map_eq_some_iff.1 hrest
  rw [Text.rest?] at hr
  split at hr
  · obtain rfl := Option.some.inj hr
    rw [Text.points_ofPoints]
    exact List.drop_subset _ ps
  · cases hr

theorem simpleLiteral_fails (path : Text) (ps : List Point) :
    FailsFor (LiteralFault ps) (simpleLiteral ctx path ps) := by
  unfold simpleLiteral
  split
  · exact (opening_fails path _ _ _).mono (LiteralFault.mono (opened?_subset ‹_›))
  · exact bareLiteral_fails path _

theorem textAmount_fails (path t : Text) {b : Read Bytes} (hb : FailsFor P b) : FailsFor P (textAmount path t b) := by
  unfold textAmount
  split
  · exact .bind (number_fails _ _) fun _ _ => .ite (.misread _ _) (.ok _)
  · exact hb.map

theorem nested_fails (ps : List Point) (b : Bytes) : FailsFor (LiteralFault ps) (nested b) :=
  .ite (.ok _) (.error (.inl rfl))

theorem literal_fails (path : Text) (ps : List Point) : FailsFor (LiteralFault ps) (literal ctx path ps) := by
  have hdrop : ∀ word r : List Point, r ⊆ word ++ r := fun word r => List.subset_append_right word r
  fun_induction literal ctx path ps with
  | case1 r ih =>
    have hr := ih.mono (LiteralFault.mono (hdrop (("nested:" : Text).points) r))
    exact hr.bind fun _ _ => nested_fails _ _
  | case2 r ih =>
    have hr := ih.mono (LiteralFault.mono (hdrop (("biguint:" : Text).points) r))
    exact (textAmount_fails path _ hr).bind fun _ _ => nested_fails _ _
  | case3 ps hnested hbiguint => exact simpleLiteral_fails path ps

theorem joined_fails (path : Text) {ps : List Point} {l : List (List Point)} (h : ∀ qs ∈ l, qs ⊆ ps) :
    FailsFor (LiteralFault ps) (joined ctx path l) := by
  induction l with
  | nil => exact .ok _
  | cons qs r ih =>
    obtain ⟨hqs, hr⟩ := List.forall_mem_cons.1 h
    exact .bind ((literal_fails path qs).mono (LiteralFault.mono hqs)) fun _ _ => .bind (ih hr) fun _ _ => .ok _

theorem subset_of_mem_fields {separator : Point} {ps qs : List Point} (h : qs ∈ Text.fields separator ps) :
    qs ⊆ ps := by
  induction ps generalizing qs with
  | nil =>
    obtain rfl := List.mem_singleton.1 h
    exact List.Subset.refl []
  | cons p r ih =>
    rw [Text.fields] at h
    split at h
    · rcases List.mem_cons.1 h with rfl | h
      · exact List.nil_subset _
      · exact List.subset_cons_of_subset p (ih h)
    · generalize Text.fields separator r = l at h ih
      cases l with
      | nil =>
        obtain rfl := List.mem_singleton.1 h
        exact List.cons_subset_cons p (List.nil_subset r)
      | cons f l =>
        rcases List.mem_cons.1 h with rfl | h
        · exact List.cons_subset_cons p (ih List.mem_cons_self)
        · exact List.subset_cons_of_subset p (ih (List.mem_cons_of_mem f h))

/-- What is wrong with the literals of a text and is not told with its place: that it has no bytes, or too many. -/
theorem readBytes_text_fails (path t : Text) :
    FailsFor (LiteralFault t.points) (readBytes ctx path (.text t)) :=
  joined_fails path fun _ => subset_of_mem_fields

end

variable {ctx : Context} {src : Json} {hs ns : List Json}

/-! ### Values -/

theorem text_fails (path : Text) {t : Text} (ht : src.Part (.text t)) :
    FailsFor (BlamesText ctx src) (readBytes ctx path (.text t)) := by
  intro e he
  refine (readBytes_text_fails path t e he).imp_right ?_
  rintro (rfl | ⟨rfl, p, hp, hsurrogate⟩)
  · exact ⟨path, t, ht, he⟩
  · exact ⟨t, ht, ragged_of_surrogate hp hsurrogate⟩

mutual

theorem bytes_fail (path : Text) : ∀ {j}, src.Part j → FailsFor (BlamesText ctx src) (readBytes ctx path j)
  | .null, _ | .bool _, _ | .int _, _ => .ok _
  | .float _, _ | .object _, _ => .misread _ _
  | .text _, h => text_fails path h
  | .list _, h => listBytes_fail path 0 fun i hi => h.trans (.item hi (.here i))

theorem listBytes_fail (path : Text) (i : Nat) :
    ∀ {items}, (∀ j ∈ items, src.Part j) → FailsFor (BlamesText ctx src) (readListBytes ctx path i items)
  | [], _ => .ok _
  | _ :: _, h => .bind (bytes_fail _ (h _ List.mem_cons_self)) fun _ _ =>
    .bind (listBytes_fail path (i + 1) fun j hj => h j (List.mem_cons_of_mem _ hj)) fun _ _ => .ok _

end

theorem readBytes_fails (path : Text) {j : Json} (hj : src.Part j) :
    FailsFor (Blames ctx src hs ns) (readBytes ctx path j) :=
  (bytes_fail path hj).mono fun _ h => h.blames hs ns

/-- A message that would hold a number too long to be written. -/
theorem unwritable_fails {α : Type} {j : Json} (hj : src.Part j) (h : j.isWritable = false) :
    FailsFor (Blames ctx src hs ns) (.error .unwritable : Read α) :=
  .error (.inr (Bool.eq_false_iff.2 fun hsrc => Bool.eq_false_iff.1 h (hj.isWritable hsrc)))

theorem readAmount_fails (path : Text) {j : Json} (hj : src.Part j) :
    FailsFor (Blames ctx src hs ns) (readAmount ctx path j) := by
  cases j with
  | null => exact .ok _
  | int n =>
    rw [readAmount]
    split
    · exact .ok _
    · split
      · exact .misread _ _
      · rename_i hlong
        refine unwritable_fails hj ?_
        rw [Json.isWritable]
        exact Bool.eq_false_iff.2 hlong
  | text t => exact textAmount_fails path t (readBytes_fails path hj)
  | bool b => exact .ok _
  | list items => exact .map (readBytes_fails path hj)
  | float x => exact .misread _ _
  | object members => exact .misread _ _

theorem readAddress_fails (path : Text) {j : Json} (hj : src.Part j) :
    FailsFor (Blames ctx src hs ns) (readAddress ctx path j) :=
  .ite (.misread _ _) (.bind (readBytes_fails _ hj) fun _ _ => .ite (.ok _) (.misread _ _))

theorem readCode_fails {P : ReadError → Prop} (path : Text) (j : Json) : FailsFor P (readCode ctx path j) := by
  unfold readCode
  split
  · exact .ite (.misread _ _) (.ok _)
  · exact .misread _ _

/-- An amount that was read, if it has no more than eight bytes. -/
def fitted (path : Text) (n : Nat) : Read Nat :=
  if n < 2 ^ 64 then .ok n else if Text.isWritable n then misread path (.beyondU64 n) else .error .unwritable

theorem readU64_eq (path : Text) (j : Json) :
    readU64 ctx path j = readAmount ctx path j >>= fitted path := rfl

theorem readU64_fails (path : Text) {j : Json} (hj : src.Part j) (hn : j ∈ ns) :
    FailsFor (Blames ctx src hs ns) (readU64 ctx path j) := by
  rw [readU64_eq]
  refine .bind (readAmount_fails path hj) fun n hread => ?_
  unfold fitted
  split
  · exact .ok _
  · split
    · exact .misread _ _
    · have hread' := ok_of_unplaced_eq (unplaced_readAmount ctx path "" j) hread
      exact .error (.inl ⟨j, hn, n, hread', by omega, by simpa using ‹¬Text.isWritable n = true›⟩)

/-! ### Accounts -/

theorem objectMembers_fails {P : ReadError → Prop} (path : Text) (j : Json) : FailsFor P (objectMembers path j) := by
  unfold objectMembers
  split
  · exact .ok _
  · exact .ok _
  · exact .misread _ _

/-- The names and values of an object that is a part of the source are parts of it. -/
theorem parts_of_members {j : Json} (h : src.Part j) :
    ∀ m ∈ j.members, src.Part (.text m.1) ∧ src.Part m.2 := by
  intro m hm
  cases j with
  | object members => exact ⟨h.trans (.name hm), h.trans (.value hm (.here m.2))⟩
  | _ => cases hm

theorem parts_of_objectMembers {path : Text} {j : Json} {members : List (Text × Json)} (hj : src.Part j)
    (h : objectMembers path j = .ok members) : ∀ m ∈ members, src.Part (.text m.1) ∧ src.Part m.2 :=
  members_of_objectMembers h ▸ parts_of_members hj

/-- What stands for the nonce of an instance. -/
def instanceNonce : Json → Json
  | .object members => (Json.member? members "nonce").getD .null
  | _ => .null

/-- What stands for the nonces of holdings. -/
def heldNonces : Json → List Json
  | .object members =>
    match instanceItems ((Json.member? members "instances").getD (.list [])) with
    | .ok items => items.map instanceNonce
    | .error _ => []
  | _ => []

theorem readInstance_fails (path : Text) {j : Json} (hj : ∀ members, j = .object members → src.Part j)
    (hn : instanceNonce j ∈ ns) : FailsFor (Blames ctx src hs ns) (readInstance ctx path j) := by
  cases j with
  | object members =>
    have hmembers := hj members rfl
    exact .bind (readU64_fails _ (hmembers.getD_member "nonce") hn) fun _ _ =>
      .bind (readAmount_fails _ (hmembers.getD_member "balance")) fun _ _ => .ok _
  | _ => exact .misread _ _

theorem instanceItems_eq_error {j : Json} {e : ReadError} :
    instanceItems j = .error e ↔ Itemless j ∧ e = .notIterable := by
  cases j <;> simp [instanceItems, Itemless, eq_comm]

/-- Instances that are objects are items of a list. -/
theorem part_of_instanceItems {j : Json} {items : List Json} (hj : j = .list [] ∨ src.Part j)
    (h : instanceItems j = .ok items) {members : List (Text × Json)} (hi : .object members ∈ items) :
    src.Part (.object members) := by
  cases j with
  | list l =>
    obtain rfl := Except.ok.inj h
    rcases hj with hnil | hj
    · cases hnil
      cases hi
    · exact hj.trans (.item hi (.here _))
  | text t =>
    obtain rfl := Except.ok.inj h
    obtain ⟨_, -, heq⟩ := List.mem_map.1 hi
    cases heq
  | object ms =>
    obtain rfl := Except.ok.inj h
    obtain ⟨_, -, heq⟩ := List.mem_map.1 hi
    cases heq
  | _ => cases h

theorem looseHoldings_iff {members : List (Text × Json)} :
    LooseHoldings (.object members) ↔ (members.map Prod.fst).filter (· != .plain "instances") = [] ∧
      Itemless ((Json.member? members "instances").getD (.list [])) := by
  have hnames : (members.map Prod.fst).filter (· != .plain "instances") = [] ↔
      ∀ m ∈ members, m.1 = .plain "instances" := by
    simp [List.filter_eq_nil_iff]
  rw [hnames, LooseHoldings]
  cases Json.member? members "instances" <;> simp [Itemless]

theorem readHoldings_fails (path : Text) {j : Json} (hpart : src.Part j) (hj : j ∈ hs) (hnonces : heldNonces j ⊆ ns) :
    FailsFor (Blames ctx src hs ns) (readHoldings ctx path j) := by
  cases j with
  | object members =>
    unfold readHoldings
    dsimp only
    have hinstances : (Json.member? members "instances").getD (.list []) = .list [] ∨
        src.Part ((Json.member? members "instances").getD (.list [])) := by
      cases hm : Json.member? members "instances" with
      | none => exact .inl rfl
      | some v => exact .inr (hpart.member hm)
    split
    · rename_i hnames
      refine .bind (fun e he => ?_) fun items hitems => .readItems (fun path i hi => readInstance_fails path ?_ ?_) _ _
      · obtain ⟨hitemless, rfl⟩ := instanceItems_eq_error.1 he
        exact .inr ⟨_, hj, looseHoldings_iff.2 ⟨hnames, hitemless⟩⟩
      · rintro ms rfl
        exact part_of_instanceItems hinstances hitems hi
      · refine hnonces ?_
        rw [heldNonces, hitems]
        exact List.mem_map_of_mem hi
    · exact .misread _ _
  | _ => exact .bind (readAmount_fails _ hpart) fun _ _ => .ok _

/-- The holdings that are listed in a map of tokens. -/
def listedHoldings (members : List (Text × Json)) : List Json := (splitPlus members).1.map Prod.snd

/-- The holdings of an account, but for what stands under `+`. -/
def AccountRecord.holdings (r : AccountRecord) : List Json := listedHoldings r.dct.members

theorem readDct_fails (path : Text) (t : Holdings) {members : List (Text × Json)}
    (hparts : ∀ m ∈ members, src.Part (.text m.1) ∧ src.Part m.2) (h : listedHoldings members ⊆ hs)
    (hnonces : ∀ j ∈ hs, heldNonces j ⊆ ns) : FailsFor (Blames ctx src hs ns) (readDct ctx path t members) := by
  induction members generalizing t with
  | nil => exact .ok _
  | cons m r ih =>
    obtain ⟨k, j⟩ := m
    obtain ⟨⟨hk, hpart⟩, hr⟩ := List.forall_mem_cons.1 hparts
    refine .bind (readBytes_fails _ hk) fun id hid => ?_
    -- `+` is no literal, so the token of what comes to be read is listed
    have hlisted : listedHoldings ((k, j) :: r) = j :: listedHoldings r := by
      simp [listedHoldings, splitPlus, ne_plus_of_readBytes hid]
    rw [hlisted] at h
    have hj := h List.mem_cons_self
    exact .bind (readHoldings_fails _ hpart hj (hnonces j hj)) fun _ _ =>
      ih _ hr fun _ hx => h (List.mem_cons_of_mem _ hx)

theorem readStorage_fails (path : Text) (t : Table Bytes Bytes) {members : List (Text × Json)}
    (hparts : ∀ m ∈ members, src.Part (.text m.1) ∧ src.Part m.2) :
    FailsFor (Blames ctx src hs ns) (readStorage ctx path t members) := by
  induction members generalizing t with
  | nil => exact .ok _
  | cons m r ih =>
    obtain ⟨⟨hk, hpart⟩, hr⟩ := List.forall_mem_cons.1 hparts
    exact .bind (readBytes_fails _ hk) fun _ _ => .bind (readBytes_fails _ hpart) fun _ _ => ih _ hr

theorem readPresent_fails {α : Type} {P : ReadError → Prop} {read : Json → Read α} {j : Json}
    (h : FailsFor P (read j)) : FailsFor P (readPresent read j) := .ite (.ok _) (.bind h fun _ _ => .ok _)

theorem readAccount_fails (path : Text) {r : AccountRecord} (hr : r.In src) (hnonce : r.nonce ∈ ns)
    (h : r.holdings ⊆ hs) (hnonces : ∀ j ∈ hs, heldNonces j ⊆ ns) :
    FailsFor (Blames ctx src hs ns) (readAccount ctx path r) := by
  refine .bind (readU64_fails _ hr.nonce hnonce) fun _ _ => .bind (readAmount_fails _ hr.balance) fun _ _ =>
    .bind (objectMembers_fails _ _) fun held hheld => ?_
  rw [AccountRecord.holdings, members_of_objectMembers hheld] at h
  exact .bind (readDct_fails _ _ (parts_of_objectMembers hr.dct hheld) h hnonces) fun _ _ =>
    .bind (objectMembers_fails _ _) fun _ hstored =>
    .bind (readStorage_fails _ _ (parts_of_objectMembers hr.storage hstored)) fun _ _ =>
    .bind (readPresent_fails (readCode_fails _ _)) fun _ _ =>
    .bind (readPresent_fails (readAddress_fails _ hr.owner)) fun _ _ => .ok _

/-! ### Patterns -/

theorem readPattern_fails {α : Type} {P : ReadError → Prop} {read : Json → Read α} {j : Json}
    (h : FailsFor P (read j)) : FailsFor P (readPattern read j) :=
  .ite (.ok _) (.ite (.ok _) (.bind h fun _ _ => .ok _))

theorem readNumberPattern_fails (path : Text) {j : Json} (hj : src.Part j) :
    FailsFor (Blames ctx src hs ns) (readNumberPattern ctx path j) :=
  readPattern_fails (.bind (readAmount_fails _ hj) fun _ _ => .ok _)

theorem readBytesPattern_fails (path : Text) {j : Json} (hj : src.Part j) :
    FailsFor (Blames ctx src hs ns) (readBytesPattern ctx path j) :=
  readPattern_fails (readBytes_fails _ hj)

theorem readListPattern_fails (path : Text) {j : Json} (hj : src.Part j) :
    FailsFor (Blames ctx src hs ns) (readListPattern ctx path j) := by
  refine .ite (.ok _) ?_
  split
  · exact .ok _
  · exact .bind (.readItems (fun path i hi => readBytesPattern_fails path (hj.trans (.item hi (.here i)))) _ _)
      fun _ _ => .ok _
  · exact .misread _ _

theorem readRecord_fails {α : Type} {P : ReadError → Prop} (path : Text) (model : String) (r : Checked α) :
    FailsFor P (readRecord path model r) := .mapError

theorem eq_ok_of_readRecord {α : Type} {path : Text} {model : String} {x : Checked α} {r : α}
    (h : readRecord path model x = .ok r) : x = .ok r := by
  cases x with
  | ok a =>
    obtain rfl : a = r := Except.ok.inj h
    rfl
  | error issues => cases h

theorem readLogPattern_fails (path : Text) {j : Json} (hj : src.Part j) :
    FailsFor (Blames ctx src hs ns) (readLogPattern ctx path j) := by
  refine .ite (.ok _) (.bind (readRecord_fails _ _ _) fun r hread => ?_)
  have hr := LogRecord.keeps_ofJson hj (eq_ok_of_readRecord hread)
  exact .bind (readBytesPattern_fails _ hr.address) fun _ _ => .bind (readBytesPattern_fails _ hr.endpoint) fun _ _ =>
    .bind (readListPattern_fails _ hr.topics) fun _ _ => .bind (readBytesPattern_fails _ hr.data) fun _ _ => .ok _

theorem readLogsPattern_fails (path : Text) {j : Json} (hj : src.Part j) :
    FailsFor (Blames ctx src hs ns) (readLogsPattern ctx path j) := by
  refine .ite (.ok _) ?_
  split
  · exact .ok _
  · rename_i items
    have hitems : ∀ l ⊆ items, FailsFor (Blames ctx src hs ns) (readItems (readLogPattern ctx) path 0 l) := fun _ hl =>
      .readItems (fun path i hi => readLogPattern_fails path (hj.trans (.item (hl hi) (.here i)))) _ _
    exact .ite (.bind (hitems _ (List.dropLast_subset items)) fun _ _ => .ok _)
      (.bind (hitems _ (List.Subset.refl items)) fun _ _ => .ok _)
  · exact .misread _ _

theorem readExpectation_fails (path : Text) {r : ExpectationRecord} (hr : r.In src) :
    FailsFor (Blames ctx src hs ns) (readExpectation ctx path r) :=
  .bind (readListPattern_fails _ hr.out) fun _ _ => .bind (readNumberPattern_fails _ hr.status) fun _ _ =>
    .bind (readBytesPattern_fails _ hr.message) fun _ _ => .bind (readLogsPattern_fails _ hr.logs) fun _ _ =>
    .bind (readNumberPattern_fails _ hr.gas) fun _ _ => .ok _

theorem readDctEntries_fails (path : Text) {members : List (Text × Json)}
    (hparts : ∀ m ∈ members, src.Part (.text m.1) ∧ src.Part m.2) (h : members.map Prod.snd ⊆ hs)
    (hnonces : ∀ j ∈ hs, heldNonces j ⊆ ns) : FailsFor (Blames ctx src hs ns) (readDctEntries ctx path members) := by
  induction members with
  | nil => exact .ok _
  | cons m r ih =>
    obtain ⟨k, j⟩ := m
    obtain ⟨⟨hk, hpart⟩, hr⟩ := List.forall_mem_cons.1 hparts
    have hj : j ∈ hs := h List.mem_cons_self
    have hrest := ih hr fun _ hx => h (List.mem_cons_of_mem _ hx)
    exact .bind (readBytes_fails _ hk) fun _ _ => .ite (.misread _ _) <|
      .bind (readHoldings_fails _ hpart hj (hnonces j hj)) fun _ _ => .bind hrest fun _ _ => .ok _

theorem readStorageEntries_fails (path : Text) {members : List (Text × Json)}
    (hparts : ∀ m ∈ members, src.Part (.text m.1) ∧ src.Part m.2) :
    FailsFor (Blames ctx src hs ns) (readStorageEntries ctx path members) := by
  induction members with
  | nil => exact .ok _
  | cons m r ih =>
    obtain ⟨⟨hk, hpart⟩, hr⟩ := List.forall_mem_cons.1 hparts
    exact .bind (readBytes_fails _ hk) fun _ _ => .bind (readBytesPattern_fails _ hpart) fun _ _ =>
      .bind (ih hr) fun _ _ => .ok _

theorem readMapPattern_fails {κ α : Type} {P : ReadError → Prop}
    {entries : List (Text × Json) → Read (List (κ × Check.Pattern α))} (path : Text) {j : Json}
    (h : FailsFor P (entries (splitPlus j.members).1)) : FailsFor P (readMapPattern entries path j) := by
  refine .ite (.ok _) (.ite (.ok _) (.bind (objectMembers_fails _ _) fun members hmembers => ?_))
  rw [members_of_objectMembers hmembers] at h
  exact .bind h fun _ _ => .ok _

/-- The holdings of an account that is expected. -/
def expectedHoldings (j : Json) : List Json :=
  match AccountRecord.ofJson j with
  | .ok r => r.holdings
  | .error _ => []

/-- What is listed beside `+` is a part of the source where the map is. -/
theorem parts_of_splitPlus {members : List (Text × Json)}
    (h : ∀ m ∈ members, src.Part (.text m.1) ∧ src.Part m.2) :
    ∀ m ∈ (splitPlus members).1, src.Part (.text m.1) ∧ src.Part m.2 := fun m hm => h m (List.mem_filter.1 hm).1

theorem readAccountPattern_fails (path : Text) {j : Json} (hj : src.Part j) (h : expectedHoldings j ⊆ hs)
    (hnonces : ∀ j ∈ hs, heldNonces j ⊆ ns) : FailsFor (Blames ctx src hs ns) (readAccountPattern ctx path j) := by
  refine .ite (.ok _) (.bind (readRecord_fails _ _ _) fun r hread => ?_)
  have hofJson := eq_ok_of_readRecord hread
  have hr := AccountRecord.keeps_ofJson hj hofJson
  have hholdings : expectedHoldings j = r.holdings := by
    unfold expectedHoldings
    rw [hofJson]
    rfl
  rw [hholdings] at h
  have hdct := parts_of_splitPlus (parts_of_members hr.dct)
  have hstorage := parts_of_splitPlus (parts_of_members hr.storage)
  exact .bind (readPattern_fails (readCode_fails _ _)) fun _ _ => .bind (readNumberPattern_fails _ hr.nonce) fun _ _ =>
    .bind (readNumberPattern_fails _ hr.balance) fun _ _ =>
    .bind (readMapPattern_fails _ (readDctEntries_fails _ hdct h hnonces)) fun _ _ =>
    .bind (readMapPattern_fails _ (readStorageEntries_fails _ hstorage)) fun _ _ =>
    .bind (readBytesPattern_fails _ hr.owner) fun _ _ => .ok _

theorem readAccountEntries_fails (path : Text) {members : List (Text × Json)}
    (hparts : ∀ m ∈ members, src.Part (.text m.1) ∧ src.Part m.2)
    (h : members.flatMap (fun m => expectedHoldings m.2) ⊆ hs) (hnonces : ∀ j ∈ hs, heldNonces j ⊆ ns) :
    FailsFor (Blames ctx src hs ns) (readAccountEntries ctx path members) := by
  induction members with
  | nil => exact .ok _
  | cons m r ih =>
    obtain ⟨k, j⟩ := m
    obtain ⟨⟨hk, hpart⟩, hr⟩ := List.forall_mem_cons.1 hparts
    rw [List.flatMap_cons, List.append_subset] at h
    exact .bind (readAddress_fails _ hk) fun _ _ => .bind (readAccountPattern_fails _ hpart h.1 hnonces) fun _ _ =>
      .bind (ih hr h.2) fun _ _ => .ok _

/-! ### Calls -/

theorem conflicting_fails (path : Text) (used : String) {ignored raw : Json} (hignored : src.Part ignored)
    (hraw : src.Part raw) : FailsFor (Blames ctx src hs ns) (conflicting path used ignored raw) := by
  unfold conflicting
  split
  · exact FailsFor.misread _ _
  · rename_i hlong
    rw [Bool.not_eq_true, Bool.and_eq_false_iff] at hlong
    rcases hlong with hlong | hlong
    · exact unwritable_fails hignored hlong
    · exact unwritable_fails hraw hlong

theorem readIgnored_fails (path : Text) (used : String) {raw : Json} (hraw : src.Part raw) (n : Nat)
    {spellings : List (String × Json)} (h : ∀ s ∈ spellings, src.Part s.2) :
    FailsFor (Blames ctx src hs ns) (readIgnored ctx path used raw n spellings) := by
  induction spellings with
  | nil => exact .ok _
  | cons s r ih =>
    obtain ⟨hs, hr⟩ := List.forall_mem_cons.1 h
    exact .bind (readAmount_fails _ hs) fun _ _ => .ite (conflicting_fails _ _ hs hraw) (ih hr)

theorem readSpelled_fails (path : Text) {spellings : List (String × Json)} (h : ∀ s ∈ spellings, src.Part s.2) :
    FailsFor (Blames ctx src hs ns) (readSpelled ctx path spellings) := by
  have hpresent : ∀ s ∈ present spellings, src.Part s.2 := fun s hs => h s (List.mem_filter.1 hs).1
  unfold readSpelled
  split
  · exact .ok _
  · rename_i heq
    rw [heq] at hpresent
    obtain ⟨hfirst, hrest⟩ := List.forall_mem_cons.1 hpresent
    exact .bind (readAmount_fails _ hfirst) fun _ _ => .bind (readIgnored_fails _ _ hfirst _ hrest) fun _ _ => .ok _

theorem TransferRecord.In.spellings {r : TransferRecord} (hr : r.In src) : ∀ s ∈ r.spellings, src.Part s.2 := by
  simp only [TransferRecord.spellings, List.forall_mem_cons, List.not_mem_nil, false_imp_iff, implies_true, and_true]
  exact ⟨hr.amount, hr.value⟩

theorem CallRecord.In.spellings {r : CallRecord} (hr : r.In src) : ∀ s ∈ r.spellings, src.Part s.2 := by
  simp only [CallRecord.spellings, List.forall_mem_cons, List.not_mem_nil, false_imp_iff, implies_true, and_true]
  exact ⟨hr.nativeAmount, hr.moaxValue, hr.value⟩

theorem readTransfer_fails (path : Text) {r : TransferRecord} (hr : r.In src) (hnonce : r.nonce ∈ ns) :
    FailsFor (Blames ctx src hs ns) (readTransfer ctx path r) := by
  refine .bind (readBytes_fails _ hr.token) fun _ _ => .bind (readSpelled_fails _ hr.spellings) fun amount _ => ?_
  cases amount with
  | none => exact .misread _ _
  | some amount => exact .bind (readU64_fails _ hr.nonce hnonce) fun _ _ => .ok _

theorem readGasLimit_fails (path : Text) {j : Json} (hj : src.Part j) (hn : j ∈ ns) :
    FailsFor (Blames ctx src hs ns) (readGasLimit ctx path j) :=
  .ite (.ok _) (.bind (readU64_fails _ hj hn) fun _ _ => .ok _)

/-- What stands for the numbers of eight bytes of a call. -/
def CallRecord.numbers (r : CallRecord) : List Json := r.gasLimit :: r.gasPrice :: r.transfers.map TransferRecord.nonce

theorem readCall_fails (path : Text) (txHash : Bytes) {r : CallRecord} (hr : r.In src) (h : r.numbers ⊆ ns) :
    FailsFor (Blames ctx src hs ns) (readCall ctx path txHash r) := by
  have hnonces : ∀ t ∈ r.transfers, t.nonce ∈ ns := fun t ht =>
    h (List.mem_cons_of_mem _ (List.mem_cons_of_mem _ (List.mem_map_of_mem ht)))
  exact .bind (readSpelled_fails _ hr.spellings) fun _ _ =>
    .bind (.readItems (fun path t ht => readTransfer_fails path (hr.transfers t ht) (hnonces t ht)) _ _) fun _ _ =>
    .bind (.readItems (fun path j hj => readBytes_fails path (hr.arguments j hj)) _ _) fun _ _ =>
    .bind (readGasLimit_fails _ hr.gasLimit (h List.mem_cons_self)) fun _ _ =>
    .bind (readAddress_fails _ hr.sender) fun _ _ => .bind (readAddress_fails _ hr.receiver) fun _ _ =>
    .bind (readU64_fails _ hr.gasPrice (h (List.mem_cons_of_mem _ List.mem_cons_self))) fun _ _ => .mapError

/-! ### Steps -/

/-- The holdings that a step lists. -/
def StepRecord.holdings : StepRecord → List Json
  | .setState r => r.accounts.flatMap fun a => a.2.holdings
  | .transaction .. => []
  | .checkState r => (splitPlus r.accounts).1.flatMap fun a => expectedHoldings a.2

/-- What stands for the numbers of eight bytes of a step, but for those in its holdings. -/
def StepRecord.plainNumbers : StepRecord → List Json
  | .setState r => r.accounts.map fun a => a.2.nonce
  | .transaction _ r => r.call.numbers
  | .checkState _ => []

def StepRecord.numbers (r : StepRecord) : List Json := r.plainNumbers ++ r.holdings.flatMap heldNonces

theorem readAccounts_fails (path : Text) (t : Table Bytes Account) {accounts : List (Text × AccountRecord)}
    (hin : ∀ a ∈ accounts, src.Part (.text a.1) ∧ a.2.In src)
    (h : ∀ a ∈ accounts, a.2.nonce ∈ ns ∧ a.2.holdings ⊆ hs) (hnonces : ∀ j ∈ hs, heldNonces j ⊆ ns) :
    FailsFor (Blames ctx src hs ns) (Step.readAccounts ctx path t accounts) := by
  induction accounts generalizing t with
  | nil => exact .ok _
  | cons a r ih =>
    obtain ⟨⟨hk, ha⟩, hrest⟩ := List.forall_mem_cons.1 hin
    obtain ⟨hnonce, hholdings⟩ := h a List.mem_cons_self
    exact .bind (readAddress_fails _ hk) fun _ _ => .bind (readAccount_fails _ ha hnonce hholdings hnonces) fun _ _ =>
      ih _ hrest fun a ha => h a (List.mem_cons_of_mem _ ha)

/-- A transaction has a hash unless its name is ragged. -/
theorem txHash_fails (index : Nat) {id : Text} (hid : id = .plain "" ∨ src.Part (.text id)) :
    FailsFor (Blames ctx src hs ns) (Step.txHash index id) := by
  refine .map fun e he => ?_
  obtain ⟨rfl, hragged⟩ := textBytes_eq_error he
  cases id with
  | plain s => cases hragged
  | ragged t => exact .inr ⟨.ragged t, hid.resolve_left nofun, rfl⟩

theorem readTransaction_fails (path : Text) (index : Nat) (kind : TransactionKind) {r : TransactionRecord}
    (hr : r.In src) (h : r.call.numbers ⊆ ns) :
    FailsFor (Blames ctx src hs ns) (Step.readTransaction ctx path index kind r) := by
  refine .ite (.misread _ _) (.bind (txHash_fails index hr.id) fun _ _ => .bind (readCall_fails _ _ hr.call h)
    fun call _ => ?_)
  cases hexpect : r.expectation with
  | none => exact .ok _
  | some e => exact .bind (.map (readExpectation_fails _ (hr.expectation e hexpect))) fun _ _ => .ok _

theorem readStep_fails (index : Nat) {r : StepRecord} (hr : r.In src) (hholdings : r.holdings ⊆ hs)
    (hplain : r.plainNumbers ⊆ ns) (hnonces : ∀ j ∈ hs, heldNonces j ⊆ ns) :
    FailsFor (Blames ctx src hs ns) (Step.read ctx index r) := by
  cases r with
  | setState r =>
    refine .bind (readAccounts_fails _ _ hr (fun a ha => ⟨?_, fun j hj => ?_⟩) hnonces) fun _ _ => .ok _
    · exact hplain (List.mem_map_of_mem ha)
    · exact hholdings (List.mem_flatMap_of_mem ha hj)
  | transaction kind r => exact readTransaction_fails _ _ _ hr hplain
  | checkState r =>
    have hparts := parts_of_splitPlus hr
    exact .bind (.bind (readAccountEntries_fails _ hparts hholdings hnonces) fun _ _ => .ok _) fun _ _ => .ok _

end TrialLedger.Fixture
