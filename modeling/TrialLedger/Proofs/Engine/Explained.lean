import TrialLedger.Proofs.Engine.Stable
import TrialLedger.Proofs.Visits
import TrialLedger.Proofs.World.Rest

/-! How the accounts of a world come to differ. Frames open accounts and move amounts anywhere, and nothing
else of an account changes but its storage. That is written by code of the account's own contract alone, so
the journal names the frame of every write; a frame that is undone takes its writes back. -/

namespace TrialLedger

/-! ### Accounts that stay -/

/-- What makes an account what it is, apart from what it holds and has stored. -/
def Account.identity (a : Account) : Int × Option Text × Option Bytes := (a.nonce, a.code, a.owner)

namespace Account

variable {a a' : Account}

theorem identity_of_rest (h : a'.rest = a.rest) : a'.identity = a.identity := by
  have hrest : ∀ a : Account, a.rest.identity = a.identity := fun _ => rfl
  rw [← hrest, h, hrest]

theorem code_of_rest (h : a'.rest = a.rest) : a'.code = a.code := congrArg (fun i => i.2.1) (identity_of_rest h)

theorem storage_of_rest (h : a'.rest = a.rest) : a'.storage = a.storage := by
  have hrest : ∀ a : Account, a.rest.storage = a.storage := fun _ => rfl
  rw [← hrest, h, hrest]

end Account

/-- Accounts may have been opened, but none has disappeared or become another one. Those under what is no
address have not changed but for their amounts. -/
structure World.Extends (w w' : World) : Prop where
  isSome : ∀ b, (w.account? b).isSome → (w'.account? b).isSome
  identity_eq : ∀ b, (w'.account b).identity = (w.account b).identity
  isSome_stray : ∀ k, (w.strays.get? k).isSome → (w'.strays.get? k).isSome
  stray_eq : ∀ k, (w'.stray k).rest = (w.stray k).rest

namespace World.Extends

variable {w w' : World}

theorem refl (w : World) : w.Extends w := ⟨fun _ h => h, fun _ => rfl, fun _ h => h, fun _ => rfl⟩

theorem setAccount (h : w.Extends w') {b : Bytes} {a : Account}
    (ha : a.identity = (w'.account b).identity) : w.Extends (w'.setAccount b a) where
  isSome b' hb := by
    rw [account?, World.setAccount, Table.get?_put]
    split
    · rfl
    · exact h.isSome b' hb
  identity_eq b' := by
    rw [account_setAccount]
    split
    · subst b'
      rw [ha, h.identity_eq]
    · exact h.identity_eq b'
  isSome_stray := h.isSome_stray
  stray_eq := h.stray_eq

theorem putStray (h : w.Extends w') {k : Key} {s : Stray} (hs : s.account.rest = (w'.stray k).rest) :
    w.Extends { w' with strays := w'.strays.put k s } where
  isSome := h.isSome
  identity_eq := h.identity_eq
  isSome_stray k' hk := by
    rw [Table.get?_put]
    split
    · rfl
    · exact h.isSome_stray k' hk
  stray_eq k' := by
    rw [stray_put]
    split
    · subst k'
      rw [hs, h.stray_eq]
    · exact h.stray_eq k'

theorem code_account (w : World) (b : Bytes) : (w.account? b).bind Account.code = (w.account b).code := by
  unfold account
  cases w.account? b <;> rfl

/-- Calls run the same code throughout. -/
theorem resolve_eq (h : w.Extends w') (host : Host) (c : Call) :
    Frame.resolve host c w' = Frame.resolve host c w := by
  have hcode : (w'.account c.receiver).code = (w.account c.receiver).code :=
    congrArg (fun i => i.2.1) (h.identity_eq c.receiver)
  rw [Frame.resolve, Frame.resolve, code_account, code_account, hcode]

end World.Extends

/-! ### Differences that the journal explains -/

/-- A key of an account was written by an endpoint of its contract, in a frame that is committed with all
frames around it when those that are open in the end have the given fates. -/
def Wrote (host : Host) (w : World) (fates : List Bool) (journal : List Event) (b key : Bytes) : Prop :=
  ∃ v, Stored fates journal key v ∧ v.started = true ∧ v.call.receiver = b ∧
    ∃ endpoint, Frame.resolve host v.call w = .ok (some endpoint)

open Visit (after opened committed)

/-- The second world extends the first one, and where they differ in what is stored the journal tells which
frame has written it. -/
structure Explained (host : Host) (w w' : World) (journal : List Event) : Prop where
  accounts : w.Extends w'
  storage : ∀ b, (w'.account b).storage ≠ (w.account b).storage →
    ∃ key, Wrote host w (committed (opened journal)) journal b key
  keys : ∀ b key, (w'.account b).storage.get? key ≠ (w.account b).storage.get? key →
    Wrote host w (committed (opened journal)) journal b key

namespace Explained

variable {host : Host} {w w' : World} {journal journal' : List Event}

theorem refl (host : Host) (w : World) (journal : List Event) : Explained host w w journal :=
  ⟨.refl w, fun _ h => absurd rfl h, fun _ _ h => absurd rfl h⟩

/-- The writes that are told by a journal have to be told by a later one. -/
theorem weaken (h : Explained host w w' journal)
    (hs : ∀ key v, Stored (committed (opened journal)) journal key v →
      Stored (committed (opened journal')) journal' key v) : Explained host w w' journal' where
  accounts := h.accounts
  storage b hb := by
    obtain ⟨key, v, hv, hrest⟩ := h.storage b hb
    exact ⟨key, v, hs key v hv, hrest⟩
  keys b key hkey := by
    obtain ⟨v, hv, hrest⟩ := h.keys b key hkey
    exact ⟨v, hs key v hv, hrest⟩

/-- An event that does not undo a frame. -/
theorem cons (h : Explained host w w' journal) {e : Event}
    (he : e.fatesBefore (committed (after (opened journal) e)) = committed (opened journal)) :
    Explained host w w' (e :: journal) := by
  refine h.weaken fun key v hv => .append [e] ?_
  have hfold : fatesBefore (committed (opened (e :: journal))) [e] = committed (opened journal) := he
  rwa [hfold]

/-- Amounts explain themselves. -/
theorem setAccount (h : Explained host w w' journal) {b : Bytes} {a : Account}
    (ha : a.rest = (w'.account b).rest) : Explained host w (w'.setAccount b a) journal := by
  have hstorage : ∀ b', ((w'.setAccount b a).account b').storage = (w'.account b').storage := by
    intro b'
    rw [World.account_setAccount]
    split
    · subst b'
      exact Account.storage_of_rest ha
    · rfl
  refine ⟨h.accounts.setAccount (Account.identity_of_rest ha), fun b' hb => ?_, fun b' key hkey => ?_⟩
  · rw [hstorage] at hb
    exact h.storage b' hb
  · rw [hstorage] at hkey
    exact h.keys b' key hkey

theorem putStray (h : Explained host w w' journal) {k : Key} {s : Stray}
    (hs : s.account.rest = (w'.stray k).rest) :
    Explained host w { w' with strays := w'.strays.put k s } journal :=
  ⟨h.accounts.putStray hs, h.storage, h.keys⟩

theorem transfer (sender : Bytes) (receiver : Place) (token : Token) (nonce : Nonce) (n : Amount) :
    Action.Preserves (fun w' => Explained host w w' journal) (World.transfer sender receiver token nonce n) :=
  World.transfer_of_rest (fun ha h => h.setAccount ha) (fun hs h => h.putStray hs) sender receiver token nonce n

/-- A write to the storage of its account by a frame whose code runs. -/
theorem store (h : Explained host w w' journal) {c : Call} {outer : List Visit} {key data : Bytes}
    (hopened : opened journal = ⟨c, true⟩ :: outer)
    (hruns : ∃ endpoint, Frame.resolve host c w = .ok (some endpoint)) :
    Explained host w (w'.storageSet c.receiver key data) (.stored key :: journal) := by
  have hnoted : Explained host w w' (.stored key :: journal) := h.cons rfl
  have hwrote : Wrote host w (committed (opened (.stored key :: journal))) (.stored key :: journal) c.receiver key := by
    have hopen : opened (.stored key :: journal) = ⟨c, true⟩ :: outer := hopened
    rw [hopen]
    exact ⟨⟨c, true⟩, .here hopened, rfl, rfl, hruns⟩
  have haccount : ∀ b, (w'.storageSet c.receiver key data).account b =
      if b = c.receiver then { w'.account c.receiver with
        storage := if data.isEmpty then (w'.account c.receiver).storage.erase key
          else (w'.account c.receiver).storage.put key data }
      else w'.account b := fun b => World.account_setAccount w' c.receiver b _
  refine ⟨h.accounts.setAccount rfl, fun b hb => ?_, fun b key' hkey => ?_⟩
  · by_cases hc : b = c.receiver
    · rw [hc]
      exact ⟨key, hwrote⟩
    · rw [haccount, if_neg hc] at hb
      exact hnoted.storage b hb
  · by_cases hc : b = c.receiver
    · by_cases hk : key' = key
      · rw [hc, hk]
        exact hwrote
      · refine hnoted.keys b key' ?_
        rw [haccount, if_pos hc] at hkey
        dsimp only at hkey
        rw [hc] at hkey ⊢
        split at hkey
        · rwa [Table.get?_erase, if_neg hk] at hkey
        · rwa [Table.get?_put, if_neg hk] at hkey
    · rw [haccount, if_neg hc] at hkey
      exact hnoted.keys b key' hkey

end Explained

/-! ### Frames -/

/-- A frame runs that has begun with the given visit, and all is explained so far. -/
structure Stage.Kept (host : Host) (w : World) (start : List Event) (v : Visit) (stage : Stage) : Prop where
  since : Since start [v] stage.journal
  explained : Explained host w stage.world stage.journal

/-- A frame that finds all explained leaves all explained. -/
def Launch.Explains (host : Host) (w : World) (launch : Launch) : Prop :=
  ∀ f movesValue stage, Explained host w stage.world stage.journal →
    Since stage.journal [] (launch f movesValue stage).stage.journal ∧
      Explained host w (launch f movesValue stage).stage.world (launch f movesValue stage).stage.journal

namespace Frame

open TrialLedger.Action (Preserves)

variable {host : Host} {launch : Launch} {w : World} {f : Frame} {start : List Event} {v : Visit}

abbrev Explaining (host : Host) (w : World) (start : List Event) (v : Visit) (s : Running) : Prop :=
  s.stage.Kept host w start v

/-- A frame for a call, whether or not its code has begun to run. -/
abbrev Underway (host : Host) (w : World) (start : List Event) (c : Call) (s : Running) : Prop :=
  ∃ b, Explaining host w start ⟨c, b⟩ s

/-! #### Steps -/

theorem note_explaining {e : Event} (ho : ∀ l, after l e = l) (hf : ∀ fates, e.fatesBefore fates = fates) :
    Preserves (Explaining host w start v) (note e) := by
  refine .modify fun s h => ⟨?_, ?_⟩
  · have hsince := h.since.cons e (.inl (List.cons_ne_nil _ _))
    rwa [ho] at hsince
  · exact h.explained.cons (by rw [ho, hf])

theorem metered_explaining : Metered (Explaining host w start v) where
  gas _ _ h := h
  charged _ := note_explaining (fun _ => rfl) fun _ => rfl
  reserved _ := note_explaining (fun _ => rfl) fun _ => rfl
  refunded _ := note_explaining (fun _ => rfl) fun _ => rfl

theorem onWorld_explaining {α : Type} {x : Action World α}
    (hx : ∀ journal, Preserves (fun w' => Explained host w w' journal) x) :
    Preserves (Explaining host w start v) (onWorld x) :=
  .zoom fun s h => ⟨h.since, hx s.stage.journal s.stage.world h.explained⟩

theorem moveValue_explaining (c : Call) : Preserves (Explaining host w start v) (onWorld (World.moveValue c)) :=
  onWorld_explaining fun _ => World.moveValue_preserves_of fun _ _ _ => Explained.transfer _ _ _ _ _

/-! #### Nested calls -/

/-- A nested frame is over when its caller goes on. -/
theorem runChild_explaining (hl : launch.Explains host w) (c : Call) (b : Amount) (movesValue : Bool) :
    Preserves (Explaining host w start v) (runChild launch f c b movesValue) := by
  intro s h
  obtain ⟨hsince, hexplained⟩ := hl ⟨c, b, f.asyncDepth, none⟩ movesValue s.stage h.explained
  have hchild : Explaining host w start v
      (s.onStage (launch ⟨c, b, f.asyncDepth, none⟩ movesValue s.stage).stage) :=
    ⟨h.since.trans hsince, hexplained⟩
  refine Preserves.bind (I := Explaining host w start v) (metered_explaining.refund _) (fun _ => ?_) _ hchild
  split
  · exact .bind (.modify fun _ h => h) fun _ => .pure _
  · exact .stop _

theorem keepsCalls_explaining (hl : launch.Explains host w) (r : CallRequest) :
    KeepsCalls f r launch (Explaining host w start v) (fun _ _ => Explaining host w start v) where
  prepare kind := .of_preserves (metered_explaining.prepare r kind) fun _ h => h
  move c _ := moveValue_explaining c
  child c b movesValue := .of_preserves (runChild_explaining hl c b movesValue) fun _ h => h
  refund _ b := .of_preserves (metered_explaining.refund (Meter.full b)) fun _ h => h
  weaken h := h

/-! #### Endpoints -/

/-- From here on the code of the endpoint runs. -/
theorem started_explaining {b : Bool} {s : Running} (h : Explaining host w start ⟨f.call, b⟩ s) :
    Explaining host w start ⟨f.call, true⟩ (s.noted .started) := by
  refine ⟨h.since.cons .started (.inl (List.cons_ne_nil _ _)), h.explained.cons ?_⟩
  have hopened : opened s.stage.journal = ⟨f.call, b⟩ :: opened start := h.since.opened_eq
  rw [hopened]
  rfl

theorem store_explaining (hruns : ∃ endpoint, resolve host f.call w = .ok (some endpoint)) (key data : Bytes) :
    Preserves (Explaining host w start ⟨f.call, true⟩) (do
      onWorld (Action.modify fun w => w.storageSet f.call.receiver key data)
      note (.stored key)) := by
  intro s h
  have hopened : opened s.stage.journal = ⟨f.call, true⟩ :: opened start := h.since.opened_eq
  exact ⟨h.since.cons (.stored key) (.inl (List.cons_ne_nil _ _)), h.explained.store hopened hruns⟩

theorem keeps_explaining (hl : launch.Explains host w)
    (hruns : ∃ endpoint, resolve host f.call w = .ok (some endpoint)) :
    Keeps (Explaining host w start ⟨f.call, true⟩) (fun _ => True) host launch f where
  payments _ _ h := h
  started := .modify fun _ h => started_explaining h
  charge _ := metered_explaining.charge _
  store := store_explaining hruns
  log _ := .bind (.modify fun _ h => h) fun _ => note_explaining (fun _ => rfl) fun _ => rfl
  send _ _ _ _ := onWorld_explaining fun _ => Explained.transfer _ _ _ _ _
  call mode _ _ := (keepsCalls_explaining hl _).makeCall mode
  callAsync _ := (keepsCalls_explaining hl _).callAsync _ _ fun _ _ _ _ _ _ h =>
    note_explaining (fun _ => rfl) (fun _ => rfl) _ h

/-- Whether or not the code begins to run, the frame keeps all explained. -/
theorem runEndpoint_explaining (hl : launch.Explains host w)
    (hruns : ∃ endpoint, resolve host f.call w = .ok (some endpoint)) (e : Endpoint) :
    Preserves (Underway host w start f.call) (runEndpoint host launch f e) := by
  have hrun : Preserves (Explaining host w start ⟨f.call, true⟩) (do
      let v ← run host launch f (e.body ⟨f.call, f.asyncResult⟩)
      Action.ofExcept ((Codec.encodeResults v).mapError fun e => .fault (.unencodable e))) :=
    .bind (run_preserves (keeps_explaining hl hruns).answer _ (Program.asks_true _)) fun _ => .ofExcept _
  rintro s ⟨b, h⟩
  unfold runEndpoint
  split
  · exact ⟨b, h⟩
  · exact ⟨true, hrun (s.noted .started) (started_explaining h)⟩

theorem body_explaining (hl : launch.Explains host w) (movesValue : Bool) :
    Preserves (Underway host w start f.call) (body host launch f movesValue) := by
  have hany : ∀ {α : Type} {x : Action Running α},
      (∀ b, Preserves (Explaining host w start ⟨f.call, b⟩) x) → Preserves (Underway host w start f.call) x :=
    fun hx s ⟨b, h⟩ => ⟨b, hx b s h⟩
  rintro s ⟨b, h⟩
  refine body_apply_preserves (I := Underway host w start f.call) ⟨b, h⟩
    (fun _ _ => hany fun _ => metered_explaining.charge _) (hany fun _ => moveValue_explaining _) (fun he => ?_)
    movesValue
  rw [h.explained.accounts.resolve_eq] at he
  exact runEndpoint_explaining hl ⟨_, he⟩ _

/-! #### Ends of frames -/

theorem entered_explaining {stage : Stage} (h : Explained host w stage.world stage.journal) :
    Explaining host w stage.journal ⟨f.call, false⟩ (f.entered stage) :=
  ⟨(Since.refl stage.journal).cons _ (.inr ⟨_, _, _, _, rfl⟩), h.cons rfl⟩

theorem launchBody_explains {run : Frame → Bool → Action Running (List Bytes)}
    (hb : ∀ f movesValue start, Preserves (Underway host w start f.call) (run f movesValue)) :
    (launchBody run).Explains host w := by
  intro f movesValue stage h
  obtain ⟨b, hend⟩ := hb f movesValue stage.journal (f.entered stage) ⟨false, entered_explaining h⟩
  have hover : ∀ done left,
      Since stage.journal [] (.left done left :: (run f movesValue (f.entered stage)).2.stage.journal) :=
    fun done left => hend.since.cons (.left done left) (.inl (List.cons_ne_nil _ _))
  rcases hr : run f movesValue (f.entered stage) with ⟨e | data, t⟩
  · rw [hr] at hover
    rw [launchBody_of_error hr]
    exact ⟨hover _ _, h.weaken fun _ _ => (hover _ _).stored⟩
  · rw [hr] at hend hover
    rw [launchBody_of_ok hr]
    refine ⟨hover _ _, hend.explained.cons ?_⟩
    have hopened : opened t.stage.journal = ⟨f.call, b⟩ :: opened stage.journal := hend.since.opened_eq
    rw [hopened]
    rfl

/-- Every frame leaves all explained, whatever it nests and however it ends. -/
theorem launch_explains (host : Host) (w : World) : ∀ room, (Frame.launch host room).Explains host w
  | 0 => launchBody_explains fun _ _ _ => .stop _
  | room + 1 => launchBody_explains fun _ movesValue _ => body_explaining (launch_explains host w room) movesValue

end Frame

end TrialLedger
