import TrialLedger.Proofs.Action
import TrialLedger.Engine.Frame
import TrialLedger.Proofs.Table

/-! What contract code asks for and how it stops. Both are properties of a program at every
point that it can reach, and of a registry when all its endpoints have them on every entry. -/

namespace TrialLedger

namespace Program

variable {α β : Type}

theorem pure_bind (a : α) (f : α → Program β) : pure a >>= f = f a := rfl

theorem ask_bind (r : Request) (next : Except Stop r.Answer → Program α) (f : α → Program β) :
    ask r next >>= f = ask r fun a => next a >>= f := rfl

theorem bind_assoc {γ : Type} (p : Program α) (f : α → Program β) (g : β → Program γ) :
    p >>= f >>= g = p >>= fun a => f a >>= g := by
  induction p with
  | done | stop => rfl
  | ask r next ih => exact congrArg (ask r) (funext ih)

/-- All that the program asks for has the property, whatever it is answered. -/
def Asks (asks : Request → Prop) : Program α → Prop
  | done _ | stop _ => True
  | ask r next => asks r ∧ ∀ a, (next a).Asks asks

/-- All that the program asks for has the property, as long as it is answered what it may be told. -/
def AsksGiven (told : (r : Request) → Except Stop r.Answer → Prop) (asks : Request → Prop) : Program α → Prop
  | done _ | stop _ => True
  | ask r next => asks r ∧ ∀ a, told r a → (next a).AsksGiven told asks

/-- The programs do the same as long as they are answered what they may be told. -/
def Alike (told : (r : Request) → Except Stop r.Answer → Prop) : Program α → Program α → Prop
  | done a, q => q = done a
  | stop e, q => q = stop e
  | ask r next, q => ∃ next', q = ask r next' ∧ ∀ a, told r a → (next a).Alike told (next' a)

/-- Every stop of the program has the property as long as those that it is told of have it. -/
def Raises (stops : Stop → Prop) : Program α → Prop
  | done _ => True
  | stop e => stops e
  | ask _ next => ∀ a, (∀ e, a = .error e → stops e) → (next a).Raises stops

/-- Every stop of the program has the property as long as those that it is told of have it, and it is answered
what it may be told. -/
def RaisesGiven (told : (r : Request) → Except Stop r.Answer → Prop) (stops : Stop → Prop) : Program α → Prop
  | done _ => True
  | stop e => stops e
  | ask r next => ∀ a, told r a → (∀ e, a = .error e → stops e) → (next a).RaisesGiven told stops

variable {asks : Request → Prop} {stops : Stop → Prop}

theorem asks_true (p : Program α) : p.Asks fun _ => True := by
  induction p with
  | done | stop => trivial
  | ask r next ih => exact ⟨trivial, ih⟩

theorem Asks.request {r : Request} (h : asks r) : (request r).Asks asks := by
  refine ⟨h, fun a => ?_⟩
  cases a <;> trivial

section

variable {told : (r : Request) → Except Stop r.Answer → Prop}

theorem Alike.refl (p : Program α) : p.Alike told p := by
  induction p with
  | done | stop => rfl
  | ask r next ih => exact ⟨next, rfl, fun a _ => ih a⟩

/-- What is asked for in any case is asked for whatever may be told. -/
theorem Asks.given {p : Program α} (hp : p.Asks asks) : p.AsksGiven told asks := by
  induction p with
  | done | stop => trivial
  | ask r next ih => exact ⟨hp.1, fun a _ => ih a (hp.2 a)⟩

theorem AsksGiven.mono {asks' : Request → Prop} {p : Program α} (hp : p.AsksGiven told asks)
    (h : ∀ r, asks r → asks' r) : p.AsksGiven told asks' := by
  induction p with
  | done | stop => trivial
  | ask r next ih => exact ⟨h r hp.1, fun a ha => ih a (hp.2 a ha)⟩

theorem AsksGiven.bind {p : Program α} {f : α → Program β} (hp : p.AsksGiven told asks)
    (hf : ∀ a, (f a).AsksGiven told asks) : (p >>= f).AsksGiven told asks := by
  induction p with
  | done a => exact hf a
  | stop e => trivial
  | ask r next ih => exact ⟨hp.1, fun a ha => ih a (hp.2 a ha)⟩

/-- What follows a request knows the answer. -/
theorem AsksGiven.request_bind {r : Request} {f : r.Answer → Program β} (hr : asks r)
    (hf : ∀ a, told r (.ok a) → (f a).AsksGiven told asks) : (request r >>= f).AsksGiven told asks := by
  refine ⟨hr, fun a ha => ?_⟩
  cases a with
  | ok a => exact hf a ha
  | error e => trivial

theorem AsksGiven.request {r : Request} (hr : asks r) : (request r).AsksGiven told asks := (Asks.request hr).given

theorem AsksGiven.orElse {p : Program α} {h : Failure → Program α} (hp : p.AsksGiven told asks)
    (hh : ∀ f, (h f).AsksGiven told asks) : (p.orElse h).AsksGiven told asks := by
  induction p with
  | done a => trivial
  | stop e =>
    cases e with
    | failure f => exact hh f
    | fault f => trivial
  | ask r next ih => exact ⟨hp.1, fun a ha => ih a (hp.2 a ha)⟩

end

/-- What is raised in any case is raised whatever may be told. -/
theorem Raises.given {told : (r : Request) → Except Stop r.Answer → Prop} {p : Program α} (hp : p.Raises stops) :
    p.RaisesGiven told stops := by
  induction p with
  | done => trivial
  | stop e => exact hp
  | ask r next ih => exact fun a _ ha => ih a (hp a ha)

theorem Raises.bind {p : Program α} {f : α → Program β} (hp : p.Raises stops)
    (hf : ∀ a, (f a).Raises stops) : (p >>= f).Raises stops := by
  induction p with
  | done a => exact hf a
  | stop e => exact hp
  | ask r next ih => exact fun a ha => ih a (hp a ha)

theorem Raises.request (r : Request) : (request r).Raises stops := by
  intro a ha
  cases a with
  | ok a => trivial
  | error e => exact ha e rfl

end Program

theorem Contract.exists_mem_of_find? {c : Contract} {name : Text} {e : Endpoint} (h : c.find? name = some e) :
    ∃ s, (s, e) ∈ c.endpoints.entries := by
  obtain ⟨s, -, he⟩ := Option.bind_eq_some_iff.1 h
  exact ⟨s, Table.mem_of_lookup_eq_some he⟩

namespace Registry

/-- All endpoints have the property. -/
def All (p : Endpoint → Prop) (r : Registry) : Prop :=
  ∀ ⦃code contract name endpoint⦄, r.get? code = some contract →
    contract.find? name = some endpoint → p endpoint

def Asks (asks : Request → Prop) : Registry → Prop := All fun e => ∀ entry, (e.body entry).Asks asks

/-- All that endpoints ask for has the property, as long as they are answered what may be told in the frame of
the call that enters them. -/
def AsksGiven (told : Call → (r : Request) → Except Stop r.Answer → Prop) (asks : Request → Prop) : Registry → Prop :=
  All fun e => ∀ entry, (e.body entry).AsksGiven (told entry.call) asks

def Raises (stops : Stop → Prop) : Registry → Prop := All fun e => ∀ entry, (e.body entry).Raises stops

def RaisesGiven (told : Call → (r : Request) → Except Stop r.Answer → Prop) (stops : Stop → Prop) : Registry → Prop :=
  All fun e => ∀ entry, (e.body entry).RaisesGiven (told entry.call) stops

theorem All.mono {p q : Endpoint → Prop} {r : Registry} (h : r.All p) (hpq : ∀ e, p e → q e) : r.All q :=
  fun _ _ _ _ hc he => hpq _ (h hc he)

theorem AsksGiven.mono {told : Call → (r : Request) → Except Stop r.Answer → Prop} {asks asks' : Request → Prop}
    {r : Registry} (hr : r.AsksGiven told asks) (h : ∀ r, asks r → asks' r) : r.AsksGiven told asks' :=
  All.mono hr fun _ he entry => (he entry).mono h

/-- It is enough to look at every endpoint of every contract. -/
theorem All.of_entries {p : Endpoint → Prop} {r : Registry}
    (h : ∀ c ∈ r.contracts.entries, ∀ e ∈ c.2.endpoints.entries, p e.2) : r.All p := by
  intro _ _ _ _ hc he
  obtain ⟨_, -, hc⟩ := Option.bind_eq_some_iff.1 hc
  obtain ⟨_, he⟩ := Contract.exists_mem_of_find? he
  exact h _ (Table.mem_of_lookup_eq_some hc) _ he

end Registry

namespace Frame

variable {host : Host} {launch : Launch} {f : Frame}

/-- The endpoint of a call is one of the registry, under the code of the account that is called. -/
theorem resolve_eq_some {c : Call} {w : World} {e : Endpoint} (h : resolve host c w = .ok (some e)) :
    ∃ code contract, (w.account? c.receiver).bind Account.code = some code ∧
      host.registry.get? code = some contract ∧ contract.find? c.function = some e := by
  unfold resolve at h
  split at h
  · simp at h
  · rename_i code hcode
    split at h
    · simp at h
    · split at h
      · simp at h
      · rename_i contract hc
        split at h
        · simp at h
        · rename_i e' he
          split at h
          · obtain rfl : e' = e := by simpa using h
            exact ⟨code, contract, hcode, hc, he⟩
          · simp at h

/-- The endpoint that a frame runs has what all endpoints of its registry have. -/
theorem of_resolve {p : Endpoint → Prop} (hr : host.registry.All p) {c : Call} {w : World} {e : Endpoint}
    (h : resolve host c w = .ok (some e)) : p e := by
  obtain ⟨code, contract, -, hc, he⟩ := resolve_eq_some h
  exact hr hc he

/-- A program keeps what the answers to its requests keep, as long as these are what it may be told. -/
theorem run_preserves_given {I : Running → Prop} {told : (r : Request) → Except Stop r.Answer → Prop}
    {asks : Request → Prop} (ha : ∀ r, asks r → Action.Preserves I (answer host launch f r))
    (ht : ∀ r s, I s → told r (answer host launch f r s).1) (p : Program Value) (hp : p.AsksGiven told asks) :
    Action.Preserves I (run host launch f p) := by
  induction p with
  | done v => exact .pure v
  | stop e => exact .stop e
  | ask r next ih =>
    intro s hs
    exact ih _ (hp.2 _ (ht r s hs)) _ (ha r hp.1 s hs)

/-- A program keeps what the answers to all its requests keep. -/
theorem run_preserves {I : Running → Prop} {asks : Request → Prop}
    (ha : ∀ r, asks r → Action.Preserves I (answer host launch f r)) (p : Program Value)
    (hp : p.Asks asks) : Action.Preserves I (run host launch f p) := by
  have hgiven : p.AsksGiven (fun _ _ => True) asks := hp.given
  exact run_preserves_given ha (fun _ _ _ => trivial) p hgiven

theorem run_ask (r : Request) (next : Except Stop r.Answer → Program Value) (s : Running) :
    run host launch f (.ask r next) s =
      run host launch f (next (answer host launch f r s).1) (answer host launch f r s).2 := rfl

/-- A program that starts with a request runs the request first. -/
theorem run_request_bind (r : Request) (k : r.Answer → Program Value) :
    run host launch f (Program.request r >>= k) = answer host launch f r >>= fun a => run host launch f (k a) := by
  funext s
  unfold Program.request
  rw [Program.ask_bind, run_ask, Action.bind_apply]
  rcases answer host launch f r s with ⟨e | a, t⟩ <;> rfl

/-- What follows a requirement can rely on it. -/
theorem run_require_leads {P R : Running → Prop} {Q : Value → Running → Prop} {condition : Bool} {message : String}
    {k : Unit → Program Value} (hr : ∀ s, P s → R s)
    (hk : condition = true → Action.Leads P Q R (run host launch f (k ()))) :
    Action.Leads P Q R (run host launch f (Program.require condition message >>= k)) := by
  cases condition with
  | true => exact hk rfl
  | false => exact .stop hr

/-- A program stops as its requests do or for a reason of its own. -/
theorem run_raises {stops : Stop → Prop} (ha : ∀ r, Action.Raises stops (answer host launch f r))
    (p : Program Value) (hp : p.Raises stops) : Action.Raises stops (run host launch f p) := by
  induction p with
  | done v => exact .pure v
  | stop e => exact .stop hp
  | ask r next ih =>
    intro s e h
    exact ih _ (hp _ fun e' he => ha r s e' he) _ e h

end Frame

end TrialLedger
