import TrialLedger.CallValue.Basic
import TrialLedger.Proofs.CallValue.Handles

/-! Call value after any history. What an accessor tells is settled by the payments of the call,
however often and in whatever order accessors were used before. The amount of the only
transfer is the exception: it counts as fetched even when there are several transfers and the fetch
fails, so whoever asks for it again is told of a handle that does not exist. -/

namespace TrialLedger

namespace CallValue

/-! ### What a call tells -/

theorem single?_cases (c : Call) : (∃ t, c.single? = .ok t ∧ c.transfers.length ≤ 1) ∨
    c.single? = .error .cardinality ∧ 1 < c.transfers.length := by
  unfold Call.single?
  match c.transfers with
  | [] => exact .inl ⟨none, rfl, by simp⟩
  | [t] => exact .inl ⟨some t, rfl, by simp⟩
  | _ :: _ :: _ => exact .inr ⟨rfl, by simp⟩

/-- The transfers of a call, of which there have to be so many. -/
def counted (c : Call) (n : Int) : Except Stop (List Transfer) :=
  if (c.transfers.length : Int) ≠ n then .error (.failure .cardinality) else .ok c.transfers

/-- The only transfer, if any. -/
def atMostOne (c : Call) : Except Stop (Option Transfer) := c.single?.mapError .failure

def exactlyOne : List Transfer → Except Stop Transfer
  | [t] => .ok t
  | _ => .error (.failure .cardinality)

/-- The native payment or the only transfer. -/
def payment (native : Nat) : List Transfer → Except Stop Transfer
  | [] => .ok ⟨.native, 0, native⟩
  | [t] => .ok t
  | _ => .error (.failure .cardinality)

def fungible (t : Transfer) : Except Stop (Token × Nat) :=
  if t.isFungible then .ok (t.token, t.amount) else .error (.failure .fungibility)

def indexed (c : Call) (i : Int) : Except Stop Transfer := (c.transferAt i).mapError .fault

/-- What an accessor tells of a call, read off its payments. -/
def outcome (c : Call) : (q : Query) → Except Stop q.Answer
  | .checkNotPayable => c.checkNotPayable.mapError .failure
  | .nativeAmount => .ok c.nativePaid
  | .dctAmount => (atMostOne c).map fun t => (t.elim 0 Transfer.amount : Nat)
  | .token => (atMostOne c).map fun t => t.elim .native Transfer.token
  | .tokenNonce => (atMostOne c).map fun t => t.elim 0 Transfer.nonce
  | .tokenType => (atMostOne c).map fun t => t.elim .fungible Transfer.tokenType
  | .tokenTypeAt i => (indexed c i).map Transfer.tokenType
  | .transfers => .ok c.transfers
  | .transferCount => .ok c.transfers.length
  | .transferAt i => (indexed c i).map fun t => (t.token, t.nonce, (t.amount : Int))
  | .fixedCount n => counted c n
  | .single => exactlyOne c.transfers
  | .singleFungible => exactlyOne c.transfers >>= fungible
  | .nativeOrSingle => payment c.nativePaid c.transfers
  | .nativeOrSingleFungible => payment c.nativePaid c.transfers >>= fungible

/-- Accessors for calls with at most one transfer. -/
def Query.IsSingle : Query → Prop
  | .dctAmount | .token | .tokenNonce | .tokenType | .single | .singleFungible | .nativeOrSingle
  | .nativeOrSingleFungible => True
  | .fixedCount n => n = 1
  | _ => False

/-- Several transfers are one too many for all of them. -/
theorem outcome_of_isSingle {c : Call} (hc : 1 < c.transfers.length) {q : Query} (hq : q.IsSingle) :
    outcome c q = .error (.failure .cardinality) := by
  obtain ⟨t, u, r, ht⟩ : ∃ t u r, c.transfers = t :: u :: r := by
    match h : c.transfers with
    | [] => simp [h] at hc
    | [_] => simp [h] at hc
    | t :: u :: r => exact ⟨t, u, r, rfl⟩
  have hatMost : atMostOne c = .error (.failure .cardinality) := by
    simp [atMostOne, Call.single?, ht, Except.mapError]
  have hexactly : exactlyOne c.transfers = .error (.failure .cardinality) := by simp [exactlyOne, ht]
  have hpayment : payment c.nativePaid c.transfers = .error (.failure .cardinality) := by
    simp [payment, ht]
  cases q with
  | dctAmount => rw [outcome, hatMost]; rfl
  | token => rw [outcome, hatMost]; rfl
  | tokenNonce => rw [outcome, hatMost]; rfl
  | tokenType => rw [outcome, hatMost]; rfl
  | fixedCount n =>
    obtain rfl : n = 1 := hq
    have hne : (c.transfers.length : Int) ≠ 1 := by omega
    rw [outcome, counted, if_pos hne]
  | single => exact hexactly
  | singleFungible => rw [outcome, hexactly]; rfl
  | nativeOrSingle => exact hpayment
  | nativeOrSingleFungible => rw [outcome, hpayment]; rfl
  | _ => cases hq

/-! ### States with the fetched values in place -/

open HandleTable

variable {c : Call} {owner : String} {asked : Bool} {s : CallValue} {α β : Type}

/-- A call value of the given frame, the handles of which hold what was fetched. The amount of the
only transfer has been asked for or not. -/
structure Consistent (c : Call) (owner : String) (asked : Bool) (s : CallValue) : Prop where
  call_eq : s.call = c
  owner_eq : s.handles.owner = owner
  live : s.handles.released = false
  next_pos : 0 < s.handles.next
  native : s.nativeFetched = true →
    s.handles.values.get? (.number nativeHandle) = some (.int c.nativePaid)
  all : s.allFetched = true → ∃ rows, s.handles.values.get? (.number allHandle) = some (.list rows) ∧
    List.Forall₂ (Host.RowOf s.handles) rows c.transfers
  asked_eq : s.singleFetched = asked
  single : asked = true → ∀ t, c.single? = .ok t →
    s.handles.values.get? (.number singleHandle) = some (.int (t.elim 0 Transfer.amount : Nat))
  absent : ∀ e, c.single? = .error e → s.handles.values.get? (.number singleHandle) = none

theorem onHandles_apply {x : Action HandleTable α} {r : Except Stop α} {t : HandleTable}
    (h : x s.handles = (r, t)) : onHandles x s = (r, { s with handles := t }) := by
  unfold onHandles Action.zoom
  rw [h]

theorem Consistent.ask_apply (h : Consistent c owner asked s) {x : Call → Action HandleTable α}
    {r : Except Stop α} {t : HandleTable} (hx : x c s.handles = (r, t)) :
    ask x s = (r, { s with handles := t }) := by
  refine onHandles_apply ?_
  rw [h.call_eq, hx]

theorem Consistent.get_apply (h : Consistent c owner asked s) {n : Int} {x : Value}
    (hx : s.handles.values.get? (.number n) = some x) : onHandles (HandleTable.get n) s = (.ok x, s) :=
  onHandles_apply (HandleTable.get_apply h.live hx)

theorem enter_consistent (c : Call) (owner : String) : Consistent c owner false (enter c owner) where
  call_eq := rfl
  owner_eq := rfl
  live := rfl
  next_pos := by change (0 : Int) < 1; omega
  native := nofun
  all := nofun
  asked_eq := rfl
  single := nofun
  absent _ _ := rfl

/-- Handles that are given out later do not touch the reserved ones. -/
theorem Consistent.grow {t : HandleTable} (h : Consistent c owner asked s) (hg : s.handles.Grows t) :
    Consistent c owner asked { s with handles := t } := by
  have hpos := h.next_pos
  have hsame : ∀ n ≤ 0, t.values.get? (.number n) = s.handles.values.get? (.number n) :=
    fun n hn => hg.get?_eq n (by omega)
  refine ⟨h.call_eq, hg.owner_eq.trans h.owner_eq, hg.released_eq.trans h.live,
    lt_of_lt_of_le hpos hg.next_le, fun hf => ?_, fun hf => ?_, h.asked_eq, fun ha t ht => ?_,
    fun e he => ?_⟩
  · rw [hsame _ (by decide), h.native hf]
  · obtain ⟨rows, hrows, hdescribes⟩ := h.all hf
    exact ⟨rows, by rw [hsame _ (by decide), hrows], hdescribes.imp fun _ _ hd => hd.mono hg⟩
  · rw [hsame _ (by decide), h.single ha t ht]
  · rw [hsame _ (by decide), h.absent e he]

/-- What is stored under a reserved handle has to be what is fetched there. -/
theorem Consistent.store (h : Consistent c owner asked s) {n : Int} {y : Value} (hn : n < 0)
    (hnative : n = nativeHandle → y = .int c.nativePaid) (hall : n = allHandle → s.allFetched = false)
    (hsingle : n = singleHandle →
      ∃ t, c.single? = .ok t ∧ y = .int (t.elim 0 Transfer.amount : Nat)) :
    Consistent c owner asked { s with handles := s.handles.stored (.number n) y } := by
  have hget : ∀ m : Int, (s.handles.stored (.number n) y).values.get? (.number m) =
      if m = n then some y else s.handles.values.get? (.number m) := by
    intro m
    by_cases hm : m = n
    · rw [hm, if_pos rfl, get?_stored]
    · rw [if_neg hm, get?_stored_ne fun hk => hm (Key.number.inj hk)]
  refine ⟨h.call_eq, h.owner_eq, h.live, h.next_pos, fun hf => ?_, fun hf => ?_, h.asked_eq,
    fun ha t ht => ?_, fun e he => ?_⟩
  · rw [hget]
    split
    · rw [hnative (Eq.symm ‹_›)]
    · exact h.native hf
  · obtain ⟨rows, hrows, hdescribes⟩ := h.all hf
    have hne : allHandle ≠ n := by
      rintro rfl
      exact absurd hf (by rw [hall rfl]; decide)
    exact ⟨rows, by rw [hget, if_neg hne, hrows], hdescribes.imp fun _ _ hd => hd.stored hn y⟩
  · rw [hget]
    split
    · obtain ⟨t', ht', rfl⟩ := hsingle (Eq.symm ‹_›)
      rw [Except.ok.inj (ht.symm.trans ht')]
    · exact h.single ha t ht
  · have hne : singleHandle ≠ n := by
      intro hs
      obtain ⟨t, ht, -⟩ := hsingle hs.symm
      rw [he] at ht
      cases ht
    rw [hget, if_neg hne, h.absent e he]

/-! ### Actions with a settled outcome -/

variable (c owner asked) in
/-- The action has the outcome in all consistent states, and leaves a consistent one. -/
def Tells (x : Action CallValue α) (r : Except Stop α) : Prop :=
  ∀ s, Consistent c owner asked s → (x s).1 = r ∧ Consistent c owner asked (x s).2

namespace Tells

theorem pure (a : α) : Tells c owner asked (pure a) (.ok a) := fun _ h => ⟨rfl, h⟩

theorem stop (e : Stop) : Tells c owner asked (Action.stop e : Action CallValue α) (.error e) :=
  fun _ h => ⟨rfl, h⟩

/-- An action that goes on with the answer of another one. -/
theorem bind {x : Action CallValue α} {f : α → Action CallValue β} {r : Except Stop α}
    {g : α → Except Stop β} (hx : Tells c owner asked x r)
    (hf : ∀ a, r = .ok a → Tells c owner asked (f a) (g a)) :
    Tells c owner asked (x >>= f) (r >>= g) := by
  intro s h
  obtain ⟨hr, hs⟩ := hx s h
  rw [Action.bind_apply]
  rcases hxs : x s with ⟨e | a, s'⟩
  · rw [hxs] at hr hs
    subst hr
    exact ⟨rfl, hs⟩
  · rw [hxs] at hr hs
    subst hr
    exact hf a rfl s' hs

theorem ite {p : Prop} [Decidable p] {x y : Action CallValue α} {r r' : Except Stop α}
    (hx : Tells c owner asked x r) (hy : Tells c owner asked y r') :
    Tells c owner asked (if p then x else y) (if p then r else r') := by
  split
  · exact hx
  · exact hy

/-- The host answers from the call alone. -/
theorem fromCall (r : Call → Except Stop α) :
    Tells c owner asked (ask fun c => Action.ofExcept (r c)) (r c) := by
  intro s h
  rw [h.ask_apply (Action.ofExcept_apply _ _)]
  exact ⟨rfl, h⟩

/-- The host answers with a part of what it takes from the call. -/
theorem part {r : Call → Except Stop β} {f : β → Action HandleTable α} {g : β → α}
    (hf : ∀ b t, f b t = (.ok (g b), t)) :
    Tells c owner asked (ask fun c => Action.ofExcept (r c) >>= f) ((r c).map g) := by
  intro s h
  have hask : ask (fun c => Action.ofExcept (r c) >>= f) s = ((r c).map g, s) := by
    refine h.ask_apply ?_
    rw [Action.bind_apply, Action.ofExcept_apply]
    cases r c with
    | error e => rfl
    | ok b => exact hf b s.handles
  rw [hask]
  exact ⟨rfl, h⟩

/-- A value that the host allocates is read back through its handle. -/
theorem allocated {r : Call → Except Stop Transfer} {g : Transfer → Value} {f : Value → Action CallValue α}
    {k : Transfer → Except Stop α} (hf : ∀ t, Tells c owner asked (f (g t)) (k t)) :
    Tells c owner asked
      (do
        let handle ← ask fun c => do
          let t ← Action.ofExcept (r c)
          HandleTable.new (g t)
        f (← onHandles (HandleTable.get handle)))
      (r c >>= k) := by
  intro s h
  cases hr : r c with
  | error e =>
    have hask := h.ask_apply (x := fun c => Action.ofExcept (r c) >>= fun t => HandleTable.new (g t))
      (Action.bind_error (by rw [Action.ofExcept_apply, hr]))
    rw [Action.bind_error hask]
    exact ⟨rfl, h⟩
  | ok t =>
    have hask := h.ask_apply (x := fun c => Action.ofExcept (r c) >>= fun t => HandleTable.new (g t))
      ((Action.bind_ok (by rw [Action.ofExcept_apply, hr])).trans (new_apply h.live _))
    have hstate := h.grow (grows_allocated s.handles (g t))
    have hget := hstate.get_apply (get?_allocated s.handles (g t))
    rw [Action.bind_ok hask, Action.bind_ok hget]
    exact hf t _ hstate

end Tells

/-! ### Fetches -/

/-- Fetches a value unless that was done before, and reads it. -/
def fetch (isFetched : CallValue → Bool) (mark : CallValue → CallValue)
    (load : Call → Action HandleTable Unit) (handle : Int) : Action CallValue Value := do
  if !isFetched (← Action.get) then
    Action.modify mark
    ask load
  onHandles (HandleTable.get handle)

section

variable {isFetched : CallValue → Bool} {mark : CallValue → CallValue}
  {load : Call → Action HandleTable Unit} {handle : Int} {t : HandleTable}

theorem fetch_again (hf : isFetched s = true) :
    fetch isFetched mark load handle s = onHandles (HandleTable.get handle) s := by
  change (if !isFetched s then _ else onHandles (HandleTable.get handle) : Action CallValue Value) s = _
  rw [hf]
  rfl

theorem fetch_first {r : Except Stop Unit} (hf : isFetched s = false)
    (hl : load (mark s).call (mark s).handles = (r, t)) :
    fetch isFetched mark load handle s =
      (Action.ofExcept r >>= fun _ => onHandles (HandleTable.get handle)) { mark s with handles := t } := by
  have hask : ask load (mark s) = (r, { mark s with handles := t }) := onHandles_apply hl
  change (if !isFetched s then Action.modify mark >>= fun _ => ask load >>= fun _ =>
    onHandles (HandleTable.get handle) else _ : Action CallValue Value) s = _
  rw [hf]
  change (ask load >>= fun _ => onHandles (HandleTable.get handle)) (mark s) = _
  rw [Action.bind_apply, Action.bind_apply, hask, Action.ofExcept_apply]

end

theorem nativeValue_tells : Tells c owner asked nativeValue (.ok (.int c.nativePaid)) := by
  intro s h
  have hfetch : nativeValue = fetch nativeFetched (fun s => { s with nativeFetched := true })
    (fun c => Host.loadNative c (.number nativeHandle)) nativeHandle := rfl
  rw [hfetch]
  cases hf : s.nativeFetched with
  | true =>
    rw [fetch_again hf, h.get_apply (h.native hf)]
    exact ⟨rfl, h⟩
  | false =>
    have hload : Host.loadNative s.call (.number nativeHandle) s.handles =
        (.ok (), s.handles.stored (.number nativeHandle) (.int c.nativePaid)) := by
      rw [h.call_eq]
      exact store_apply h.live _ _
    have hstored := h.store (n := nativeHandle) (y := .int c.nativePaid) (by decide) (fun _ => rfl)
      (fun hn => absurd hn (by decide)) fun hn => absurd hn (by decide)
    have hdone : Consistent c owner asked { s with
        nativeFetched := true
        handles := s.handles.stored (.number nativeHandle) (.int c.nativePaid) } :=
      { hstored with native := fun _ => get?_stored _ _ _ }
    have hget := hdone.get_apply (get?_stored _ _ _)
    rw [fetch_first hf hload, Action.bind_ok (Action.ofExcept_apply _ _), hget]
    exact ⟨rfl, hdone⟩

/-- The rows that are read describe the transfers, now and as long as the frame runs. -/
theorem allRows_apply (h : Consistent c owner asked s) :
    ∃ rows s', allRows s = (.ok (.list rows), s') ∧ Consistent c owner asked s' ∧
      List.Forall₂ (Host.RowOf s'.handles) rows c.transfers := by
  have hfetch : allRows = fetch allFetched (fun s => { s with allFetched := true })
    (fun c => Host.loadAll c (.number allHandle)) allHandle := rfl
  rw [hfetch]
  cases hf : s.allFetched with
  | true =>
    obtain ⟨rows, hrows, hdescribes⟩ := h.all hf
    exact ⟨rows, s, by rw [fetch_again hf, h.get_apply hrows], h, hdescribes⟩
  | false =>
    obtain ⟨rows, u, hload, hg, hdescribes⟩ :=
      Host.loadAll_apply h.live h.next_pos c (n := allHandle) (by decide)
    have hneg : ∀ y, ∀ {s : CallValue}, Consistent c owner asked s → s.allFetched = false →
        Consistent c owner asked { s with handles := s.handles.stored (.number allHandle) y } :=
      fun y s h hf => h.store (by decide) (fun hn => absurd hn (by decide)) (fun _ => hf)
        fun hn => absurd hn (by decide)
    have hrows : List.Forall₂ (Host.RowOf (u.stored (.number allHandle) (.list rows))) rows c.transfers :=
      hdescribes.imp fun _ _ hd => hd.stored (by decide) _
    have hstored := hneg (.list rows) ((hneg (.list []) h hf).grow hg) hf
    have hdone : Consistent c owner asked { s with
        allFetched := true
        handles := u.stored (.number allHandle) (.list rows) } :=
      { hstored with all := fun _ => ⟨rows, get?_stored _ _ _, hrows⟩ }
    have hget := hdone.get_apply (get?_stored _ _ _)
    rw [← h.call_eq] at hload
    refine ⟨rows, _, ?_, hdone, hrows⟩
    rw [fetch_first hf hload, Action.bind_ok (Action.ofExcept_apply _ _), hget]

/-- The only amount is fetched once. When there are several transfers the first request fails, and
each later one finds nothing under the handle. -/
theorem dctValue_apply (h : Consistent c owner asked s) :
    (dctValue s).1 = (if asked = true ∧ 1 < c.transfers.length
      then .error (.fault (.unknownHandle "-12" owner))
      else (atMostOne c).map fun t => .int (t.elim 0 Transfer.amount : Nat)) ∧
    Consistent c owner true (dctValue s).2 := by
  have hfetch : dctValue = fetch singleFetched (fun s => { s with singleFetched := true })
    (fun c => Host.loadSingle c (.number singleHandle)) singleHandle := rfl
  rw [hfetch]
  -- The state after the first request, on whatever stands under the handle then.
  have hafter : ∀ {s : CallValue}, Consistent c owner asked s →
      (∀ t, c.single? = .ok t →
        s.handles.values.get? (.number singleHandle) = some (.int (t.elim 0 Transfer.amount : Nat))) →
      Consistent c owner true { s with singleFetched := true } :=
    fun h hs => ⟨h.call_eq, h.owner_eq, h.live, h.next_pos, h.native, h.all, rfl, fun _ => hs, h.absent⟩
  rcases single?_cases c with ⟨t, ht, hlen⟩ | ⟨he, hlen⟩
  · have hcond : ¬(asked = true ∧ 1 < c.transfers.length) := fun hc => absurd hc.2 (by omega)
    rw [if_neg hcond, atMostOne, ht]
    cases hf : s.singleFetched with
    | true =>
      obtain rfl : true = asked := hf.symm.trans h.asked_eq
      rw [fetch_again hf, h.get_apply (h.single rfl t ht)]
      exact ⟨rfl, h⟩
    | false =>
      have hload : Host.loadSingle s.call (.number singleHandle) s.handles =
          (.ok (), s.handles.stored (.number singleHandle) (.int (t.elim 0 Transfer.amount : Nat))) := by
        rw [h.call_eq]
        have hplain : Host.plain c.single? s.handles = (.ok t, s.handles) := by
          rw [Host.plain, ht]
          exact Action.ofExcept_apply _ _
        refine (Action.bind_ok hplain).trans ?_
        cases t <;> exact store_apply h.live _ _
      have hstored := h.store (n := singleHandle) (y := .int (t.elim 0 Transfer.amount : Nat)) (by decide)
        (fun hn => absurd hn (by decide)) (fun hn => absurd hn (by decide)) fun _ => ⟨t, ht, rfl⟩
      have hdone := hafter hstored fun t' ht' => by
        rw [Except.ok.inj (ht'.symm.trans ht)]
        exact get?_stored _ _ _
      have hget := hdone.get_apply (get?_stored _ _ _)
      rw [fetch_first hf hload, Action.bind_ok (Action.ofExcept_apply _ _), hget]
      exact ⟨rfl, hdone⟩
  · rw [atMostOne, he]
    cases hf : s.singleFetched with
    | true =>
      obtain rfl : true = asked := hf.symm.trans h.asked_eq
      have hget := onHandles_apply (HandleTable.get_absent h.live (h.absent _ he))
      rw [h.owner_eq] at hget
      rw [fetch_again hf, if_pos ⟨rfl, hlen⟩, hget]
      exact ⟨rfl, h⟩
    | false =>
      have hcond : ¬(asked = true ∧ 1 < c.transfers.length) := by
        rw [← h.asked_eq, hf]
        simp
      have hload : Host.loadSingle s.call (.number singleHandle) s.handles =
          (.error (.failure .cardinality), s.handles) := by
        rw [h.call_eq]
        refine Action.bind_error ?_
        rw [Host.plain, he]
        exact Action.ofExcept_apply _ _
      have hdone := hafter h fun t ht => by rw [he] at ht; cases ht
      rw [fetch_first hf hload, if_neg hcond, Action.bind_error (Action.ofExcept_apply _ _)]
      exact ⟨rfl, hdone⟩

/-! ### Transfers -/

/-- The members of a transfer are read back as they are. -/
theorem makeTransfer_apply (x : Transfer) (s : CallValue) :
    makeTransfer (.token x.token) (.int x.nonce) (.int x.amount) s = (.ok x, s) := by
  have hnatural : ∀ n : Nat, (Value.int n).asNatural = .ok (n : Int) := by
    intro n
    have hn : ¬((n : Int) < 0) := by omega
    simp [Value.asNatural, Value.asInteger, bind, Except.bind, hn]
  have hmake : Value.makeTransfer (.token x.token) (.int x.nonce) (.int x.amount) = .ok x := by
    simp [Value.makeTransfer, Value.asToken, hnatural]
  unfold makeTransfer
  rw [hmake]
  exact Action.ofExcept_apply _ _

theorem readRow_apply {row : Value} {x : Transfer} (h : Consistent c owner asked s)
    (hrow : Host.RowOf s.handles row x) : readRow row s = (.ok x, s) := by
  obtain ⟨i, j, d⟩ := hrow
  have hthree : (pureFault row.three : Action CallValue _) s = (.ok (.int i, .int x.nonce, .int j), s) := by
    rw [d.row_eq]
    exact Action.ofExcept_apply _ _
  have htoken := onHandles_apply (loadAt_int h.live d.token_eq)
  have hamount := onHandles_apply (loadAt_int h.live d.amount_eq)
  unfold readRow
  rw [Action.bind_ok hthree]
  dsimp only
  rw [Action.bind_ok htoken, Action.bind_ok hamount]
  exact makeTransfer_apply x s

theorem readRows_apply {rows : List Value} {xs : List Transfer} (h : Consistent c owner asked s)
    (hrows : List.Forall₂ (Host.RowOf s.handles) rows xs) : readRows rows s = (.ok xs, s) := by
  induction hrows with
  | nil => rfl
  | cons hrow _ ih =>
    unfold readRows
    rw [Action.bind_ok (readRow_apply h hrow), Action.bind_ok ih]
    rfl

theorem transfers_tells : Tells c owner asked transfers (.ok c.transfers) := by
  intro s h
  obtain ⟨rows, s', hall, h', hrows⟩ := allRows_apply h
  have hitems : (pureFault (Value.list rows).items : Action CallValue _) s' = (.ok rows, s') :=
    Action.ofExcept_apply _ _
  unfold transfers
  rw [Action.bind_ok hall, Action.bind_ok hitems, readRows_apply h' hrows]
  exact ⟨rfl, h'⟩

theorem fixedCount_tells (n : Int) : Tells c owner asked (fixedCount n) (counted c n) := by
  have hcount : counted c n = (.ok c.transfers >>= fun ts =>
      if (ts.length : Int) ≠ n then .error (.failure .cardinality) else .ok ts) := rfl
  rw [hcount]
  exact transfers_tells.bind fun ts _ => .ite (.stop _) (.pure _)

theorem single_tells : Tells c owner asked single (exactlyOne c.transfers) := by
  have hone : exactlyOne c.transfers = counted c 1 >>= exactlyOne := by
    unfold counted
    match c.transfers with
    | [] => rfl
    | [_] => rfl
    | _ :: _ :: r =>
      have hne : ((r.length + 1 + 1 : Nat) : Int) ≠ 1 := by omega
      rw [List.length_cons, List.length_cons, if_pos hne]
      rfl
  rw [hone]
  refine (fixedCount_tells 1).bind fun ts _ => ?_
  match ts with
  | [] => exact .stop _
  | [t] => exact .pure t
  | _ :: _ :: _ => exact .stop _

theorem nativeOrSingle_tells : Tells c owner asked nativeOrSingle (payment c.nativePaid c.transfers) := by
  have hpayment : payment c.nativePaid c.transfers = (.ok c.transfers >>= payment c.nativePaid) := rfl
  rw [hpayment]
  refine transfers_tells.bind fun ts _ => ?_
  match ts with
  | [] =>
    intro s h
    obtain ⟨hvalue, h'⟩ := nativeValue_tells s h
    have hvalue := Action.apply_of_fst hvalue
    have hmake := makeTransfer_apply ⟨.native, 0, c.nativePaid⟩ (nativeValue s).2
    change ((nativeValue >>= makeTransfer (.token .native) (.int 0)) s).1 = _ ∧
      Consistent c owner asked ((nativeValue >>= makeTransfer (.token .native) (.int 0)) s).2
    rw [Action.bind_ok hvalue, show makeTransfer (.token .native) (.int 0) (.int c.nativePaid)
      (nativeValue s).2 = _ from hmake]
    exact ⟨rfl, h'⟩
  | [t] => exact .pure t
  | _ :: _ :: _ => exact .stop _

theorem requireFungible_tells (t : Transfer) : Tells c owner asked (requireFungible t) (fungible t) :=
  .ite (.pure _) (.stop _)

/-! ### Tokens by handle -/

theorem token_tells : Tells c owner asked token (outcome c .token) := by
  intro s h
  have hplain : Host.plain c.single? s.handles = (atMostOne c, s.handles) := Action.ofExcept_apply _ _
  rw [outcome]
  rcases ht : atMostOne c with e | (_ | t)
  · have hask : ask Host.token s = (.error e, s) := h.ask_apply (Action.bind_error (ht ▸ hplain))
    unfold token
    rw [Action.bind_error hask]
    exact ⟨rfl, h⟩
  · have hask : ask Host.token s = (.ok none, s) := h.ask_apply (Action.bind_ok (ht ▸ hplain))
    unfold token
    rw [Action.bind_ok hask]
    exact ⟨rfl, h⟩
  · have hnew := new_apply h.live (.token t.token)
    have hask : ask Host.token s = (.ok (some s.handles.next),
        { s with handles := s.handles.allocated (.token t.token) }) :=
      h.ask_apply ((Action.bind_ok (ht ▸ hplain)).trans (Action.bind_ok hnew))
    have hstate := h.grow (grows_allocated s.handles (.token t.token))
    have hget := hstate.get_apply (get?_allocated s.handles (.token t.token))
    unfold token
    rw [Action.bind_ok hask]
    dsimp only
    rw [Action.bind_ok hget]
    exact ⟨rfl, hstate⟩

theorem transferAt_tells (i : Int) : Tells c owner asked (transferAt i) (outcome c (.transferAt i)) := by
  have houtcome : outcome c (.transferAt i) = (indexed c i >>= fun t =>
      (indexed c i).map Transfer.nonce >>= fun nonce => indexed c i >>= fun t' =>
        .ok (t.token, nonce, (t'.amount : Int))) := by
    rw [outcome]
    cases indexed c i <;> rfl
  rw [houtcome]
  refine Tells.allocated (r := fun c => indexed c i) (g := fun t => .token t.token) fun t => ?_
  refine Tells.bind (.part fun _ _ => rfl) fun nonce _ => ?_
  exact Tells.allocated (r := fun c => indexed c i) (g := fun t => .int t.amount) fun _ => .pure _

/-! ### All accessors -/

/-- An accessor tells what the call says, in whatever consistent state it is used. The exception is
the only amount of several, once it was asked for. -/
theorem answer_apply (h : Consistent c owner asked s) (q : Query) :
    (answer q s).1 = (if q = .dctAmount ∧ asked = true ∧ 1 < c.transfers.length
      then .error (.fault (.unknownHandle "-12" owner)) else outcome c q) ∧
    Consistent c owner (asked || decide (q = .dctAmount)) (answer q s).2 := by
  have hplain : ∀ {q : Query}, q ≠ .dctAmount → Tells c owner asked (answer q) (outcome c q) →
      (answer q s).1 = (if q = .dctAmount ∧ asked = true ∧ 1 < c.transfers.length
        then .error (.fault (.unknownHandle "-12" owner)) else outcome c q) ∧
      Consistent c owner (asked || decide (q = .dctAmount)) (answer q s).2 := by
    intro q hq ht
    rw [if_neg fun hc => hq hc.1, decide_eq_false hq, Bool.or_false]
    exact ht s h
  cases q with
  | checkNotPayable => exact hplain nofun (.fromCall fun c => c.checkNotPayable.mapError .failure)
  | nativeAmount =>
    refine hplain nofun (nativeValue_tells.bind (g := fun _ => .ok (c.nativePaid : Int)) fun v hv => ?_)
    obtain rfl := Except.ok.inj hv
    exact .pure _
  | dctAmount =>
    obtain ⟨hvalue, h'⟩ := dctValue_apply h
    change ((dctValue >>= asInt) s).1 = _ ∧
      Consistent c owner (asked || decide (Query.dctAmount = .dctAmount)) ((dctValue >>= asInt) s).2
    rw [decide_eq_true rfl, Bool.or_true, outcome]
    by_cases hc : asked = true ∧ 1 < c.transfers.length
    · rw [if_pos hc] at hvalue
      rw [Action.bind_error (Action.apply_of_fst hvalue), if_pos ⟨rfl, hc⟩]
      exact ⟨rfl, h'⟩
    · rw [if_neg hc] at hvalue
      rw [if_neg fun h => hc h.2]
      cases ht : atMostOne c with
      | error e =>
        rw [ht] at hvalue
        rw [Action.bind_error (Action.apply_of_fst hvalue)]
        exact ⟨rfl, h'⟩
      | ok t =>
        rw [ht] at hvalue
        rw [Action.bind_ok (Action.apply_of_fst hvalue)]
        exact ⟨rfl, h'⟩
  | token => exact hplain nofun token_tells
  | tokenNonce => exact hplain nofun (.part fun t _ => by cases t <;> rfl)
  | tokenType => exact hplain nofun (.part fun t _ => by cases t <;> rfl)
  | tokenTypeAt i => exact hplain nofun (.part fun _ _ => rfl)
  | transfers => exact hplain nofun transfers_tells
  | transferCount =>
    refine hplain nofun fun s h => ⟨?_, h⟩
    rw [outcome, ← h.call_eq]
    rfl
  | transferAt i => exact hplain nofun (transferAt_tells i)
  | fixedCount n => exact hplain nofun (fixedCount_tells n)
  | single => exact hplain nofun single_tells
  | singleFungible => exact hplain nofun (single_tells.bind fun t _ => requireFungible_tells t)
  | nativeOrSingle => exact hplain nofun nativeOrSingle_tells
  | nativeOrSingleFungible =>
    exact hplain nofun (nativeOrSingle_tells.bind fun t _ => requireFungible_tells t)

/-! ### Histories -/

/-- The call value after an accessor was used, whatever it told. -/
def after (s : CallValue) (q : Query) : CallValue := (answer q s).2

theorem foldl_after_consistent (qs : List Query) (h : Consistent c owner asked s) :
    Consistent c owner (asked || decide (.dctAmount ∈ qs)) (qs.foldl after s) := by
  induction qs generalizing asked s with
  | nil => simpa using h
  | cons q qs ih =>
    have hstep := ih (answer_apply h q).2
    have hmem : (asked || decide (q = .dctAmount) || decide (Query.dctAmount ∈ qs)) =
        (asked || decide (Query.dctAmount ∈ q :: qs)) := by
      simp only [List.mem_cons, Bool.decide_or, Bool.or_assoc, eq_comm]
    rwa [hmem] at hstep

/-- What an accessor tells after any history. -/
theorem answer_foldl_after (c : Call) (owner : String) (qs : List Query) (q : Query) :
    (answer q (qs.foldl after (enter c owner))).1 =
      if q = .dctAmount ∧ .dctAmount ∈ qs ∧ 1 < c.transfers.length
      then .error (.fault (.unknownHandle "-12" owner)) else outcome c q := by
  have h := (answer_apply (foldl_after_consistent qs (enter_consistent c owner)) q).1
  simpa only [Bool.false_or, decide_eq_true_eq] using h

theorem answer_enter (c : Call) (owner : String) (q : Query) :
    (answer q (enter c owner)).1 = outcome c q := by
  have h := answer_foldl_after c owner [] q
  rwa [if_neg fun hc => absurd hc.2.1 List.not_mem_nil] at h

/-- An accessor tells after any history what it tells at first, unless it is asked once more for the
amount of the only transfer where there are several. In that case it tells of an unknown handle, while
all others of its kind keep failing as they do at first. -/
theorem answer_history (c : Call) (owner : String) (qs : List Query) (q : Query) :
    ((answer q (qs.foldl after (enter c owner))).1 = (answer q (enter c owner)).1 ↔
      ¬(q = .dctAmount ∧ .dctAmount ∈ qs ∧ 1 < c.transfers.length)) ∧
    (q = .dctAmount ∧ .dctAmount ∈ qs ∧ 1 < c.transfers.length →
      (answer q (qs.foldl after (enter c owner))).1 = .error (.fault (.unknownHandle "-12" owner))) ∧
    (1 < c.transfers.length → q.IsSingle → ¬(q = .dctAmount ∧ .dctAmount ∈ qs) →
      (answer q (qs.foldl after (enter c owner))).1 = .error (.failure .cardinality)) := by
  rw [answer_foldl_after, answer_enter]
  refine ⟨?_, fun hc => if_pos hc, fun hlen hq hc => ?_⟩
  · by_cases hc : q = .dctAmount ∧ .dctAmount ∈ qs ∧ 1 < c.transfers.length
    · have houtcome : outcome c q = .error (.failure .cardinality) :=
        outcome_of_isSingle hc.2.2 (hc.1 ▸ trivial)
      rw [if_pos hc, houtcome]
      exact ⟨fun h => (nomatch h), fun h => absurd hc h⟩
    · rw [if_neg hc]
      exact ⟨fun _ => hc, fun _ => rfl⟩
  · rw [if_neg fun h => hc ⟨h.1, h.2.1⟩]
    exact outcome_of_isSingle hlen hq

/-! ### Two transfers -/

/-- A call that pays in two tokens. -/
def twoTokens : Call where
  sender := [1]
  receiver := [2]
  native := 0
  transfers := [⟨.issued [84], 0, 3⟩, ⟨.issued [85], 0, 1⟩]
  function := "pay"
  arguments := []
  gasLimit := 10000
  gasPrice := 0
  txHash := Call.zeroHash
  kind := .direct
  amount_ne_zero := by decide
  native_eq_zero _ := rfl

/-- Asked for twice, the only amount is missing in another way than at first. -/
theorem dctAmount_twoTokens :
    (answer .dctAmount (enter twoTokens "pay")).1 = .error (.failure .cardinality) ∧
      (answer .dctAmount (after (enter twoTokens "pay") .dctAmount)).1 =
        .error (.fault (.unknownHandle "-12" "pay")) :=
  ⟨rfl, rfl⟩

/-- The token of the only transfer fails the same way before and after. -/
theorem answer_history_twoTokens :
    (answer .token ([Query.dctAmount, .token].foldl after (enter twoTokens "pay"))).1 =
      .error (.failure .cardinality) ∧
    (answer .dctAmount ([Query.dctAmount, .token].foldl after (enter twoTokens "pay"))).1 =
      .error (.fault (.unknownHandle "-12" "pay")) :=
  ⟨(answer_history twoTokens "pay" [.dctAmount, .token] .token).2.2 (by decide) trivial (by decide),
    (answer_history twoTokens "pay" [.dctAmount, .token] .dctAmount).2.1 (by decide)⟩

end CallValue

end TrialLedger
