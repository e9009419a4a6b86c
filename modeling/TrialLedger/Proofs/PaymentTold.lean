import TrialLedger.Proofs.CallValue.History
import TrialLedger.Proofs.Engine.Parts
import TrialLedger.Proofs.World.WellFormed

/-! What a callee is told of its payment, and what the ledger has moved. Contract code may ask at any
time while it runs, and is told of what its call lists. The ledger moves each listed transfer as its
token says. The two agree unless the native coin is listed among the transfers: it is moved as native
coin, of which a call with transfers tells nothing. -/

namespace TrialLedger

/-! ### What is told -/

namespace CallValue

/-- The gain that an account is told of: so much native coin, and of an issued token at a nonce what the
transfers under its name and nonce add up to. -/
def toldGain (native : Int) (ts : List Transfer) : Asset → Int
  | .native => native
  | .issued id nonce =>
    (ts.map fun t => if t.token.name = id ∧ Key.number t.nonce = nonce then (t.amount : Int) else 0).sum

end CallValue

/-- The account has gained what it was told of, and it was not paid in both kinds. -/
structure Account.PaidAsTold (native : Int) (ts : List Transfer) (a a' : Account) : Prop where
  gains : a.Gains (CallValue.toldGain native ts) a'
  one_kind : a'.balance = a.balance ∨ ∀ id nonce, a'.held id nonce = a.held id nonce

namespace Call

theorem nativePaid_eq (c : Call) : c.nativePaid = c.native := by
  unfold nativePaid
  split
  · rfl
  · rename_i h
    exact (c.native_eq_zero fun hnil => h (List.isEmpty_iff.2 hnil)).symm

/-- Without native coin among the transfers, what is told is what is paid. -/
theorem told_eq_pays {c : Call} (h : ∀ t ∈ c.transfers, t.token ≠ .native) :
    CallValue.toldGain c.native c.transfers = c.pays := by
  have hterm : ∀ t ∈ c.transfers, ∀ id nonce,
      (if t.token.name = id ∧ Key.number t.nonce = nonce then (t.amount : Int) else 0) =
        Asset.only t.asset t.amount (.issued id nonce) := by
    intro t ht id nonce
    cases htoken : t.token with
    | native => exact absurd htoken (h t ht)
    | issued id' => simp [Asset.only, Transfer.asset, Token.name, htoken, eq_comm]
  have hnone : ∀ t ∈ c.transfers, Asset.only t.asset t.amount .native = 0 := by
    intro t ht
    cases htoken : t.token with
    | native => exact absurd htoken (h t ht)
    | issued id => simp [Asset.only, Transfer.asset, htoken]
  funext x
  unfold pays
  cases x with
  | native =>
    rw [List.map_congr_left hnone]
    simp [CallValue.toldGain, Asset.only]
  | issued id nonce =>
    rw [CallValue.toldGain, List.map_congr_left fun t ht => hterm t ht id nonce]
    simp [Asset.only]

/-- Native coin among the transfers is paid on top of the native amount. -/
theorem lt_pays_native {c : Call} {t : Transfer} (ht : t ∈ c.transfers) (hn : t.token = .native) :
    (c.native : Int) < c.pays .native := by
  have hnonneg : ∀ n ∈ c.transfers.map fun t => Asset.only t.asset t.amount .native, (0 : Int) ≤ n := by
    intro n hmem
    obtain ⟨u, -, rfl⟩ := List.mem_map.1 hmem
    unfold Asset.only
    split <;> omega
  have hmem : (t.amount : Int) ∈ c.transfers.map fun t => Asset.only t.asset t.amount .native := by
    refine List.mem_map.2 ⟨t, ht, ?_⟩
    simp [Asset.only, Transfer.asset, hn]
  have hle := List.single_le_sum hnonneg _ hmem
  have hpos := c.amount_ne_zero t ht
  have hself : Asset.only .native c.native .native = (c.native : Int) := if_pos rfl
  unfold pays
  rw [hself]
  omega

end Call

namespace Account

theorem Gains.unique {a a' : Account} {d d' : Asset → Int} (h : a.Gains d a') (h' : a.Gains d' a') :
    d = d' := by
  funext x
  have heq := (h.amount_eq x).symm.trans (h'.amount_eq x)
  have hint := Amount.whole.inj heq
  omega

/-- Nothing is gained of what a change says nothing about. -/
theorem Gains.amount_of_zero {a a' : Account} {d : Asset → Int} (h : a.Gains d a') (ha : a.IsWhole)
    {x : Asset} (hx : d x = 0) : a'.amount x = a.amount x := by
  rw [h.amount_eq, hx, add_zero]
  exact (ha x).eq.symm

end Account

/-- Who receives what a call pays has been paid what it is told of, unless the call lists native coin. -/
theorem World.Shifts.paidAsTold_iff {w w' : World} {c : Call}
    (h : w.Shifts (Asset.between c.sender c.receiver c.pays) w') (hw : w.IsWhole)
    (hne : c.sender ≠ c.receiver) :
    Account.PaidAsTold c.nativePaid c.transfers (w.account c.receiver) (w'.account c.receiver) ↔
      ∀ t ∈ c.transfers, t.token ≠ .native := by
  have hgains : (w.account c.receiver).Gains c.pays (w'.account c.receiver) := by
    have hreceiver := h.gains c.receiver
    have hpays : Asset.between c.sender c.receiver c.pays c.receiver = c.pays := by
      funext x
      rw [Asset.between, if_pos rfl, if_neg hne.symm, sub_zero]
    rwa [hpays] at hreceiver
  rw [c.nativePaid_eq]
  constructor
  · intro htold t ht hn
    have hpays := congrFun (htold.gains.unique hgains) .native
    rw [CallValue.toldGain] at hpays
    exact absurd (Call.lt_pays_native ht hn) (by omega)
  · intro hlisted
    rw [← Call.told_eq_pays hlisted] at hgains
    refine ⟨hgains, ?_⟩
    have hwhole := hw.account c.receiver
    by_cases hnil : c.transfers = []
    · refine .inr fun id nonce => hgains.amount_of_zero hwhole (x := .issued id nonce) ?_
      simp [CallValue.toldGain, hnil]
    · refine .inl (hgains.amount_of_zero hwhole (x := .native) ?_)
      simp [CallValue.toldGain, c.native_eq_zero hnil]

namespace Frame

open TrialLedger.Action (Preserves)

/-! ### Frames that have arrived -/

/-- What happens in a frame before its endpoint runs. -/
def arrive (host : Host) (f : Frame) (movesValue : Bool) : Action Running (Option Endpoint) := do
  let e ← Action.ofExcept ((resolve host f.call (← world)).mapError .failure)
  charge (← gasAmount (entryCost host e))
  if movesValue then onWorld (World.moveValue f.call)
  return e

/-- A body is an arrival and the run of the endpoint that was found. -/
theorem body_eq_arrive (host : Host) (launch : Launch) (f : Frame) (movesValue : Bool) :
    body host launch f movesValue = arrive host f movesValue >>= runFound host launch f := by
  rw [body_eq, arrive]
  cases movesValue with
  | false =>
    simp only [Action.bind_assoc, Bool.false_eq_true, if_false]
    rfl
  | true =>
    simp only [Action.bind_assoc, if_true]
    rfl

/-- The frame that runs a call on so much gas for another frame. -/
def child (g : Frame) (c : Call) (budget : Amount) : Frame := ⟨c, budget, g.asyncDepth, none⟩

/-- The endpoint of a frame, if any, is about to run, and what its call pays was moved in the world `w`:
when the frame was entered, or ahead of that in the frame that makes the call. -/
inductive Arrives (host : Host) : Frame → World → Option Endpoint → Running → Prop where
  | paidAtEntry {f : Frame} {stage : Stage} {e : Option Endpoint} {s : Running} :
    arrive host f true (f.entered stage) = (.ok e, s) → Arrives host f stage.world e s
  | paidAhead {g : Frame} {r : CallRequest} {c : Call} {budget : Amount} {e : Option Endpoint}
      {s₀ s₁ s₂ s : Running} :
    prepare g r .transferExecute s₀ = (.ok (c, budget), s₁) → moveAhead c budget s₁ = (.ok (), s₂) →
      arrive host (g.child c budget) false ((g.child c budget).entered s₂.stage) = (.ok e, s) →
      Arrives host (g.child c budget) s₀.stage.world e s

/-- A program that runs in a frame gets from one point to another, whatever it asks for on the way. -/
inductive Reaches (host : Host) (launch : Launch) (f : Frame) (p : Program Value) (s : Running) :
    Program Value → Running → Prop where
  | start : Reaches host launch f p s p s
  | ask {r : Request} {next : Except Stop r.Answer → Program Value} {t : Running} :
    Reaches host launch f p s (.ask r next) t →
      Reaches host launch f p s (next (answer host launch f r t).1) (answer host launch f r t).2

/-- A frame that has arrived is there: before any code runs, or at a point of its endpoint's program. -/
inductive Stays (host : Host) (launch : Launch) (f : Frame) (s : Running) :
    Option Endpoint → Running → Prop where
  | arrived {e : Option Endpoint} : Stays host launch f s e s
  | running {e : Endpoint} {p : Program Value} {t : Running} :
    Reaches host launch f (e.body ⟨f.call, f.asyncResult⟩) (s.noted .started) p t →
      Stays host launch f s (some e) t

variable {host : Host} {launch : Launch} {f : Frame} {e : Option Endpoint} {s t : Running} {w : World}

/-- An arrival leaves the call value as it was, and the world but for the value that it moves. -/
theorem arrive_eq_ok {movesValue : Bool} (h : arrive host f movesValue s = (.ok e, t)) :
    t.payments = s.payments ∧ (movesValue = true → World.moveValue f.call s.stage.world =
      (.ok (), t.stage.world)) ∧ (movesValue = false → t.stage.world = s.stage.world) := by
  obtain ⟨_, _, hworld, h₁⟩ := Action.bind_eq_ok.1 h
  cases hworld
  obtain ⟨found, s₁, hresolve, h₂⟩ := Action.bind_eq_ok.1 h₁
  rw [Action.ofExcept_apply] at hresolve
  obtain ⟨-, rfl⟩ := Prod.mk.inj hresolve
  obtain ⟨cost, s₂, hcost, h₃⟩ := Action.bind_eq_ok.1 h₂
  obtain ⟨rfl, -⟩ := gasAmount_eq_ok hcost
  obtain ⟨_, s₃, hcharge, h₄⟩ := Action.bind_eq_ok.1 h₃
  obtain rfl : (charge cost s₂).2 = s₃ := congrArg Prod.snd hcharge
  cases movesValue with
  | false =>
    cases h₄
    exact ⟨rfl, nofun, fun _ => rfl⟩
  | true =>
    obtain ⟨_, s₄, hmove, h₅⟩ := Action.bind_eq_ok.1 h₄
    obtain ⟨w', hmoved, rfl⟩ := onWorld_eq.1 hmove
    cases h₅
    exact ⟨rfl, fun _ => hmoved, nofun⟩

/-- By the time that a frame has arrived its payment was moved, and its call value is as it was when the
frame was entered. -/
theorem Arrives.paid (h : Arrives host f w e s) :
    World.moveValue f.call w = (.ok (), s.stage.world) ∧
      ∃ owner, s.payments = CallValue.enter f.call owner := by
  cases h with
  | paidAtEntry h =>
    obtain ⟨hpayments, hmove, -⟩ := arrive_eq_ok h
    exact ⟨hmove rfl, _, hpayments⟩
  | paidAhead hprepare hahead h =>
    obtain ⟨hpayments, -, hworld⟩ := arrive_eq_ok h
    obtain ⟨-, -, left, -, rfl⟩ := prepare_eq_ok hprepare
    obtain ⟨w', hmove, rfl⟩ := moveAhead_eq_ok hahead
    rw [hworld rfl]
    exact ⟨hmove, _, hpayments⟩

/-! ### Frames that run -/

theorem Reaches.preserves {p p' : Program Value} {I : Running → Prop}
    (hI : ∀ r, Preserves I (answer host launch f r)) (h : Reaches host launch f p s p' t) (hs : I s) :
    I t := by
  induction h with
  | start => exact hs
  | ask _ ih => exact hI _ _ ih

/-- The handles of a running frame hold what its call pays. -/
def Informed (c : Call) (s : Running) : Prop :=
  ∃ owner asked, CallValue.Consistent c owner asked s.payments

variable {c : Call}

/-- Only accessors touch the call value, and they leave it consistent. -/
theorem informed_withstands : Withstands (Informed c) launch where
  gas _ h := h
  payments query := fun ⟨owner, _, h⟩ => ⟨owner, _, (CallValue.answer_apply h query).2⟩
  pending _ _ h := h
  world _ h := h
  noted _ h := h
  nested _ _ h := h

/-- At every point of a frame that has arrived, its contract is told what its call lists. -/
theorem Stays.answers (h : Stays host launch f s e t) (hs : Informed c s) :
    (answer host launch f (.payment .nativeAmount) t).1 = .ok (c.nativePaid : Int) ∧
      (answer host launch f (.payment .transfers) t).1 = .ok c.transfers := by
  obtain ⟨owner, asked, ht⟩ : Informed c t := by
    cases h with
    | arrived => exact hs
    | running h => exact h.preserves informed_withstands.answer hs
  exact ⟨(CallValue.answer_apply ht .nativeAmount).1, (CallValue.answer_apply ht .transfers).1⟩

/-- Whenever a contract asks what it was paid, it is told a native amount and a list of transfers. These
are what its account has gained, in one kind alone, unless its call lists the native coin among the
transfers. -/
theorem payment_told (h : Arrives host f w e s) (hw : w.IsWhole)
    (hne : f.call.sender ≠ f.call.receiver) (ht : Stays host launch f s e t) :
    ∃ native ts, (answer host launch f (.payment .nativeAmount) t).1 = .ok native ∧
      (answer host launch f (.payment .transfers) t).1 = .ok ts ∧
      (Account.PaidAsTold native ts (w.account f.call.receiver)
        (s.stage.world.account f.call.receiver) ↔ ∀ x ∈ f.call.transfers, x.token ≠ .native) := by
  obtain ⟨hmove, owner, hpayments⟩ := h.paid
  obtain ⟨hnative, htransfers⟩ :=
    ht.answers (c := f.call) ⟨owner, false, hpayments ▸ CallValue.enter_consistent f.call owner⟩
  exact ⟨_, _, hnative, htransfers, (World.moveValue_shifts hw hmove).paidAsTold_iff hw hne⟩

/-! ### A payment in a token and one in listed native coin -/

/-- Answers how much native coin came with the call. -/
def tell (_ : Entry) : Program Value := do
  let n ← Program.request (.payment .nativeAmount)
  return .int n

def tellEndpoint : Endpoint := { name := "tell", method := "tell", body := tell }

def tellHost : Host where
  registry := ⟨Table.ofList [("sample", ⟨Table.ofList [("tell", tellEndpoint)]⟩)]⟩
  settings := {}

/-- A contract, and an account with five coins and three of a token. -/
def tellWorld : World where
  accounts := Table.ofList [([1], { code := some "sample" }),
    ([2], { balance := 5, dct := Table.ofList [(([84], .number 0), ⟨.int 0, 3⟩)] })]

/-- A call to the contract that pays one transfer. -/
def tellCall (x : Transfer) (hx : x.amount ≠ 0) : Call where
  sender := [2]
  receiver := [1]
  native := 0
  transfers := [x]
  function := "tell"
  arguments := []
  gasLimit := 10000
  gasPrice := 0
  txHash := Call.zeroHash
  kind := .direct
  amount_ne_zero t ht := by
    obtain rfl := List.mem_singleton.1 ht
    exact hx
  native_eq_zero _ := rfl

def tellFrame (x : Transfer) (hx : x.amount ≠ 0) : Frame := ⟨tellCall x hx, 10000, 0, none⟩

/-- Pays three of the token. -/
def tokenFrame : Frame := tellFrame ⟨.issued [84], 0, 3⟩ (by decide)

/-- Pays five coins that are listed as a transfer. -/
def coinFrame : Frame := tellFrame ⟨.native, 0, 5⟩ (by decide)

def tellStage : Stage := ⟨tellWorld, [], []⟩

/-- The frame once its value was moved. -/
def tellArrived (f : Frame) : Running := (arrive tellHost f true (f.entered tellStage)).2

theorem tellWorld_isWhole : tellWorld.IsWhole := by
  refine ⟨fun e he => ?_, nofun⟩
  rcases List.mem_cons.1 he with rfl | he
  · exact Account.wellFormed_empty.isWhole
  · obtain rfl := List.mem_singleton.1 he
    refine Account.WellFormed.isWhole ⟨⟨5, rfl⟩, fun e he => ?_, nofun⟩
    obtain rfl := List.mem_singleton.1 he
    exact ⟨3, by decide, rfl⟩

/-- Three of a token: the contract is told so, also after it has asked for something else. -/
theorem payment_told_token :
    let launch := Frame.launch tellHost 0
    let s := tellArrived tokenFrame
    let t := (answer tellHost launch tokenFrame (.payment .nativeAmount) (s.noted .started)).2
    ∃ native ts, (answer tellHost launch tokenFrame (.payment .nativeAmount) t).1 = .ok native ∧
      (answer tellHost launch tokenFrame (.payment .transfers) t).1 = .ok ts ∧
      Account.PaidAsTold native ts (tellWorld.account [1]) (s.stage.world.account [1]) := by
  intro launch s t
  have harrive : arrive tellHost tokenFrame true (tokenFrame.entered tellStage) =
      (.ok (some tellEndpoint), s) := rfl
  have hstays : Stays tellHost launch tokenFrame s (some tellEndpoint) t := .running (.ask .start)
  obtain ⟨native, ts, hnative, hts, hpaid⟩ :=
    payment_told (.paidAtEntry harrive) tellWorld_isWhole (by decide) hstays
  exact ⟨native, ts, hnative, hts, hpaid.2 (by decide)⟩

/-- Five coins that are listed as a transfer: the contract is told that no native coin came, and its
balance has grown by five. -/
theorem coin_untold :
    let s := tellArrived coinFrame
    arrive tellHost coinFrame true (coinFrame.entered tellStage) = (.ok (some tellEndpoint), s) ∧
      (answer tellHost (Frame.launch tellHost 0) coinFrame (.payment .nativeAmount) s).1 = .ok (0 : Int) ∧
      tellWorld.balance [1] = 0 ∧ s.stage.world.balance [1] = 5 ∧
      let after := Engine.execute coinFrame.call { host := tellHost, world := tellWorld }
      (∃ result, after.1 = .ok result ∧ result.isSuccess = true ∧ result.data = [[]]) ∧
        after.2.world.balance [1] = 5 :=
  ⟨rfl, rfl, rfl, rfl, ⟨_, rfl, rfl, rfl⟩, rfl⟩

end Frame

end TrialLedger
