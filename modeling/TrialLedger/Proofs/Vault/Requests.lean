import TrialLedger.Contracts.Basic
import TrialLedger.Proofs.PaymentTold
import TrialLedger.Proofs.Token

/-! What the standard contracts ask for. They send natural amounts to addresses, and the tokens that they pass on
are those that they have been paid with. Which these are a program is told by the answers to its requests, so what
it asks for is looked at under the assumption that the answers are right. -/

namespace TrialLedger

/-! ### Tokens that have been read -/

/-- The token has been read from its wire name. No issued token then goes under the name of the native coin. -/
def Token.IsParsed (t : Token) : Prop := ∃ name, t = parse name

theorem Token.IsParsed.eq_native {t : Token} (h : t.IsParsed) (hname : t.name = nativeName) : t = native := by
  obtain ⟨name, rfl⟩ := h
  rw [name_parse] at hname
  rw [hname]
  rfl

def Transfer.IsParsed (t : Transfer) : Prop := t.token.IsParsed

/-- A call of the kind that scenarios are made of. -/
structure Call.IsPlain (c : Call) : Prop where
  length_sender : c.sender.length = 32
  length_receiver : c.receiver.length = 32
  transfers : ∀ t ∈ c.transfers, t.IsParsed
  kind_eq : c.kind = .direct

/-! ### Requests -/

/-- All tokens that the requested call would transfer have been read from their names. -/
def CallRequest.IsParsed (r : CallRequest) : Prop :=
  ∀ vs ts, r.transfers.items = .ok vs → vs.mapM Value.asTransfer = .ok ts → ∀ t ∈ ts, t.IsParsed

/-- What is sent goes to an address and is no less than nothing, and what is passed on has been read. -/
def Request.IsPlain : Request → Prop
  | .send receiver _ _ amount => ∃ (b : Bytes) (n : Nat), receiver = .bytes b ∧ amount = .int n
  | .call _ r => r.IsParsed
  | .callAsync r _ _ => r.IsParsed
  | _ => True

/-- The answers that a program may be given in the frame of a call: what is told of payments is what the call
says. -/
def Call.Tells (c : Call) : (r : Request) → Except Stop r.Answer → Prop
  | .payment query, a => query ≠ .dctAmount → a = CallValue.outcome c query
  | _, _ => True

/-- All that the program asks for is plain in the frame of the call. -/
def Program.IsPlain {α : Type} (p : Program α) (c : Call) : Prop := p.AsksGiven c.Tells Request.IsPlain

/-- All that the endpoint asks for is plain when it is entered by a call whose tokens have been read. -/
def Endpoint.IsPlain (e : Endpoint) : Prop :=
  ∀ entry, (∀ t ∈ entry.call.transfers, t.IsParsed) → (e.body entry).IsPlain entry.call

theorem CallRequest.isParsed_of_nil {r : CallRequest} (h : r.transfers = .tuple []) : r.IsParsed := by
  intro vs ts hvs hts
  rw [h] at hvs
  obtain rfl := Except.ok.inj hvs
  obtain rfl := Except.ok.inj hts
  exact List.forall_mem_nil _

theorem Value.mapM_asTransfer (ts : List Transfer) : (ts.map transfer).mapM asTransfer = .ok ts := by
  induction ts with
  | nil => rfl
  | cons t ts ih =>
    rw [List.map_cons, List.mapM_cons, ih]
    rfl

/-- The endpoints of a contract are among those that it is made of. -/
theorem Contract.forall_of_ofEndpoints {p : Endpoint → Prop} {es : List Endpoint} (h : ∀ e ∈ es, p e) :
    ∀ e ∈ (ofEndpoints es).endpoints.entries, p e.2 := by
  intro e he
  obtain ⟨e', he', rfl⟩ := List.mem_map.1 (Table.mem_of_mem_ofList he)
  exact h e' (List.mem_mergeSort.1 he')

namespace Contracts

open TrialLedger.Program (AsksGiven)

variable {c : Call} {α : Type}

namespace Forwarder

theorem isParsed_of_transferList {r : CallRequest} {ts : List Transfer} (h : r.transfers = transferList ts)
    (hts : ∀ t ∈ ts, t.IsParsed) : r.IsParsed := by
  intro vs us hvs hus
  rw [h] at hvs
  obtain rfl := Except.ok.inj hvs
  rw [Value.mapM_asTransfer] at hus
  obtain rfl := Except.ok.inj hus
  exact hts

theorem payment_plain {k : Int × List Transfer → Program α} (hk : ∀ native, (k (native, c.transfers)).IsPlain c) :
    (payment >>= k).IsPlain c := by
  unfold payment
  simp only [Program.bind_assoc, Program.pure_bind]
  refine AsksGiven.request_bind trivial fun ts hts => AsksGiven.request_bind trivial fun native _ => ?_
  obtain rfl : ts = c.transfers := Except.ok.inj (hts nofun)
  exact hk native

theorem decode_plain (b : Bytes) : (decode b).IsPlain c := by
  unfold decode
  split <;> trivial

theorem passOn_plain {receiver function : Bytes} {arguments : List Bytes} {native : Int} {ts : List Transfer}
    {k : CallRequest → Program α} (hk : ∀ r : CallRequest, r.transfers = transferList ts → (k r).IsPlain c) :
    (passOn receiver function arguments native ts >>= k).IsPlain c := by
  unfold passOn
  rw [Program.bind_assoc]
  exact .bind (decode_plain function) fun _ => hk _ rfl

theorem set_plain (key : String) (v : Value) : (set key v).IsPlain c := .request trivial

theorem log_plain (endpoint : String) (topics : List Value) (data : Value) : (log endpoint topics data).IsPlain c :=
  .request trivial

section

variable (hc : ∀ t ∈ c.transfers, t.IsParsed) (target function : Bytes) (arguments : List Bytes)

include hc

theorem forwardSync_plain : (forwardSync target function arguments).IsPlain c :=
  payment_plain fun _ => .bind (set_plain _ _) fun _ => passOn_plain fun _ hr =>
    .bind (.request (isParsed_of_transferList hr hc)) fun _ => trivial

theorem forwardSyncTry_plain : (forwardSyncTry target function arguments).IsPlain c :=
  payment_plain fun _ => passOn_plain fun _ hr => .bind (.request (isParsed_of_transferList hr hc)) fun _ =>
    .bind (set_plain _ _) fun _ => .bind (log_plain _ _ _) fun _ => trivial

theorem forwardTransferExecute_plain : (forwardTransferExecute target function arguments).IsPlain c :=
  payment_plain fun _ => passOn_plain fun _ hr => .bind (.request (isParsed_of_transferList hr hc)) fun _ =>
    .bind (set_plain _ _) fun _ => trivial

theorem forwardAsync_plain : (forwardAsync target function arguments).IsPlain c :=
  payment_plain fun _ => passOn_plain fun _ hr => .bind (.request (isParsed_of_transferList hr hc)) fun _ =>
    .bind (set_plain _ _) fun _ => trivial

theorem forwardAsyncNoCallback_plain : (forwardAsyncNoCallback target function arguments).IsPlain c :=
  payment_plain fun _ => passOn_plain fun _ hr => .bind (.request (isParsed_of_transferList hr hc)) fun _ => trivial

theorem forwardMixed_plain (nativeRaw : Bytes) : (forwardMixed target nativeRaw).IsPlain c := by
  refine AsksGiven.request_bind trivial fun ts hts => ?_
  obtain rfl : ts = c.transfers := Except.ok.inj (hts nofun)
  refine .bind (.orElse ?_ fun _ => set_plain _ _) fun _ => trivial
  exact .bind (.request (isParsed_of_transferList rfl hc)) fun _ => trivial

end

theorem forwardSyncTryGas_plain (target function gasRaw : Bytes) :
    (forwardSyncTryGas target function gasRaw).IsPlain c := by
  refine .bind (.orElse ?_ fun _ => .bind (set_plain _ _) fun _ => trivial) fun r => ?_
  · exact .bind (decode_plain function) fun _ =>
      .bind (.request (CallRequest.isParsed_of_nil rfl)) fun _ => trivial
  · cases r with
    | some r => exact .bind (set_plain _ _) fun _ => trivial
    | none => trivial

theorem forwardAsyncThenFail_plain (target function : Bytes) : (forwardAsyncThenFail target function).IsPlain c :=
  .bind (decode_plain function) fun _ => .bind (.request (CallRequest.isParsed_of_nil rfl)) fun _ => trivial

theorem asyncChain_plain (self remainingRaw : Bytes) : (asyncChain self remainingRaw).IsPlain c := by
  refine .bind (.request trivial) fun _ => ?_
  split
  · exact .bind (.request (CallRequest.isParsed_of_nil rfl)) fun _ => trivial
  · trivial

theorem recurse_plain (self depthRaw : Bytes) : (recurse self depthRaw).IsPlain c := by
  unfold recurse
  dsimp only
  split
  · trivial
  · exact .bind (.request (CallRequest.isParsed_of_nil rfl)) fun _ => trivial

theorem sendNative_plain (target amountRaw : Bytes) : (sendNative target amountRaw).IsPlain c :=
  .bind (.request ⟨target, Codec.decodeUnsigned amountRaw, rfl, rfl⟩) fun _ => trivial

theorem onResult_plain (e : Entry) : (onResult e).IsPlain c := by
  unfold onResult
  split
  · trivial
  · refine .bind (set_plain _ _) fun _ => ?_
    dsimp only
    split
    all_goals
      refine .bind (set_plain _ _) fun _ => ?_
      split
      · exact .bind (log_plain _ _ _) fun _ => trivial
      · trivial

theorem withOne_plain {f : Bytes → Bytes → Program Value} {e : Entry}
    (h : ∀ a, (f e.call.receiver a).IsPlain c) : (withOne f e).IsPlain c := by
  unfold withOne
  split
  · exact h _
  · trivial

theorem withTwo_plain {f : Bytes → Bytes → List Bytes → Program Value} {e : Entry}
    (h : ∀ a b r, (f a b r).IsPlain c) : (withTwo f e).IsPlain c := by
  unfold withTwo
  split
  · exact h _ _ _
  · trivial

theorem withThree_plain {f : Bytes → Bytes → Bytes → Program Value} {e : Entry}
    (h : ∀ a b d, (f a b d).IsPlain c) : (withThree f e).IsPlain c := by
  unfold withThree
  split
  · exact h _ _ _
  · trivial

theorem contract_plain : ∀ e ∈ contract.endpoints.entries, e.2.IsPlain := by
  refine Contract.forall_of_ofEndpoints ?_
  simp only [List.forall_mem_cons]
  exact ⟨fun _ hc => withTwo_plain (forwardSync_plain hc),
    fun _ hc => withTwo_plain (forwardSyncTry_plain hc),
    fun _ hc => withTwo_plain (forwardTransferExecute_plain hc),
    fun _ _ => withThree_plain forwardSyncTryGas_plain,
    fun _ hc => withTwo_plain fun _ _ _ => forwardMixed_plain hc _ _,
    fun _ hc => withTwo_plain (forwardAsync_plain hc),
    fun _ _ => withTwo_plain fun _ _ _ => forwardAsyncThenFail_plain _ _,
    fun _ hc => withTwo_plain (forwardAsyncNoCallback_plain hc),
    fun _ _ => withOne_plain (asyncChain_plain _),
    fun _ _ => withOne_plain (recurse_plain _),
    fun _ _ => withTwo_plain fun _ _ _ => sendNative_plain _ _,
    fun e _ => onResult_plain e,
    List.forall_mem_nil _⟩

end Forwarder

namespace Vault

theorem get_plain (key : Bytes) : (get key).IsPlain c := .request trivial

theorem getUint_plain (key : Bytes) : (getUint key).IsPlain c := .bind (get_plain key) fun _ => trivial

theorem set_plain (key : Bytes) (v : Value) : (set key v).IsPlain c := .request trivial

theorem log_plain (endpoint : String) (topics : List Value) (data : Value) : (log endpoint topics data).IsPlain c :=
  .request trivial

theorem require_plain (condition : Bool) (message : String) : (Program.require condition message).IsPlain c := by
  unfold Program.require
  split <;> trivial

theorem deposit_plain (caller : Bytes) : (deposit caller).IsPlain c :=
  .bind (.request trivial) fun _ => .bind (require_plain _ _) fun _ => .bind (getUint_plain _) fun _ =>
    .bind (set_plain _ _) fun _ => .bind (log_plain _ _ _) fun _ => trivial

theorem withdraw_plain (caller amountRaw : Bytes) : (withdraw caller amountRaw).IsPlain c := by
  have hrest : ∀ amount : Nat, Program.IsPlain (do
      Program.request (.send (.bytes caller) .native (.int 0) (.int amount))
      log "withdraw" [.bytes caller] (.int amount)
      return .nothing : Program Value) c :=
    fun amount => .bind (.request ⟨caller, amount, rfl, rfl⟩) fun _ => .bind (log_plain _ _ _) fun _ => trivial
  refine .bind (get_plain _) fun _ => .bind (require_plain _ _) fun _ => .bind (getUint_plain _) fun _ =>
    .bind (require_plain _ _) fun _ => ?_
  dsimp only
  split
  · exact .bind (set_plain _ _) fun _ => hrest _
  · exact .bind (set_plain _ _) fun _ => hrest _

theorem storeThenFail_plain (value : Bytes) : (storeThenFail value).IsPlain c :=
  .bind (set_plain _ _) fun _ => .bind (log_plain _ _ _) fun _ => trivial

theorem info_plain (c' : Call) : (info c').IsPlain c :=
  .bind (.request trivial) fun _ => .bind (.request trivial) fun _ => trivial

theorem withOne_plain {f : Bytes → Program Value} {c' : Call} (h : ∀ a, (f a).IsPlain c) :
    (withOne f c').IsPlain c := by
  unfold withOne
  split
  · exact h _
  · trivial

theorem contract_plain : ∀ e ∈ contract.endpoints.entries, e.2.IsPlain := by
  refine Contract.forall_of_ofEndpoints ?_
  simp only [List.forall_mem_cons]
  exact ⟨fun _ _ => deposit_plain _, fun _ _ => withOne_plain (withdraw_plain _),
    fun _ _ => withOne_plain storeThenFail_plain, fun _ _ => trivial, fun _ _ => info_plain _, fun _ _ => trivial,
    fun _ _ => trivial, List.forall_mem_nil _⟩

end Vault

namespace PaymentFeatures

theorem pay_plain (q : CallValue.Query) : (pay q).IsPlain c := .request trivial

theorem details_plain : ∀ l, (details l).IsPlain c
  | [] => trivial
  | _ :: r => .bind (pay_plain _) fun _ => .bind (details_plain r) fun _ => trivial

theorem acceptTwo_plain : acceptTwo.IsPlain c := by
  refine .bind (pay_plain _) fun ts => ?_
  split <;> trivial

theorem contract_plain : ∀ e ∈ contract.endpoints.entries, e.2.IsPlain := by
  refine Contract.forall_of_ofEndpoints ?_
  simp only [List.forall_mem_cons]
  exact ⟨fun _ _ => .bind (pay_plain _) fun _ => trivial,
    fun _ _ => .bind (pay_plain _) fun _ => trivial,
    fun _ _ => .bind (pay_plain _) fun _ => trivial,
    fun _ _ => acceptTwo_plain,
    fun _ _ => .bind (pay_plain _) fun _ => trivial,
    fun _ _ => .bind (pay_plain _) fun _ => trivial,
    fun _ _ => .bind (pay_plain _) fun _ => .bind (pay_plain _) fun _ => .bind (details_plain _) fun _ => trivial,
    fun _ _ => .bind (pay_plain _) fun _ => .bind (pay_plain _) fun _ => trivial,
    List.forall_mem_nil _⟩

end PaymentFeatures

/-- All that the standard contracts ask for is plain. -/
theorem registry_plain : registry.All Endpoint.IsPlain := by
  refine .of_entries fun entry hentry => ?_
  rcases List.mem_cons.1 (Table.mem_of_mem_ofList hentry) with rfl | h
  · exact PaymentFeatures.contract_plain
  rcases List.mem_cons.1 h with rfl | h
  · exact Vault.contract_plain
  · obtain rfl := List.mem_singleton.1 h
    exact Forwarder.contract_plain

end Contracts

end TrialLedger
