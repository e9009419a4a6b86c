import TrialLedger.Proofs.Action
import TrialLedger.Proofs.Table
import TrialLedger.World.Basic

/-! Transfers in one form for the native coin and for issued tokens: an amount of an asset is taken
from the sender and given to the receiver. -/

namespace TrialLedger

/-- What accounts hold: native coin, and issued tokens by identifier and nonce. -/
inductive Asset where
  | native
  | issued (id : Bytes) (nonce : Key)
  deriving DecidableEq

/-- The asset that a token at a nonce is. -/
def Token.asset (token : Token) (nonce : Key) : Asset :=
  match token with
  | .native => .native
  | .issued id => .issued id nonce

namespace Account

def amount (a : Account) : Asset → Amount
  | .native => a.balance
  | .issued id nonce => a.held id nonce

def take (token : Token) (nonce : Nonce) (n : Amount) : Account → Except Fault Account :=
  match token with
  | .native => withdraw n
  | .issued id => debit id nonce n

def give (token : Token) (nonce : Nonce) (n : Amount) : Account → Except Fault Account :=
  match token with
  | .native => deposit n
  | .issued id => credit id nonce n

end Account

namespace World

open TrialLedger.Action (Preserves)

/-! ### All accounts -/

/-- All accounts have the property, also those under what is no address. -/
def All (p : Account → Prop) (w : World) : Prop :=
  (∀ e ∈ w.accounts.entries, p e.2) ∧ ∀ e ∈ w.strays.entries, p e.2.account

section

variable {p : Account → Prop} {w : World}

theorem All.find? (h : w.All p) {place : Place} {a : Account} (ha : w.find? place = .ok (some a)) : p a := by
  cases place with
  | address b => exact h.1 _ (Table.mem_of_lookup_eq_some (Except.ok.inj ha))
  | astray name =>
    change (Key.ofValue name).map _ = _ at ha
    cases hk : Key.ofValue name with
    | error e =>
      rw [hk] at ha
      cases ha
    | ok k =>
      rw [hk] at ha
      obtain ⟨s, hs, rfl⟩ := Option.map_eq_some_iff.1 (Except.ok.inj ha)
      exact h.2 _ (Table.mem_of_lookup_eq_some hs)

variable (hempty : p {})

include hempty

theorem All.account (h : w.All p) (b : Bytes) : p (w.account b) := by
  unfold World.account account?
  cases hb : w.accounts.get? b with
  | none => exact hempty
  | some a => exact h.1 _ (Table.mem_of_lookup_eq_some hb)

theorem All.stray (h : w.All p) (k : Key) (name : Value) : p ((w.strays.get? k).getD ⟨name, {}⟩).account := by
  cases hs : w.strays.get? k with
  | none => exact hempty
  | some s => exact h.2 _ (Table.mem_of_lookup_eq_some hs)

omit hempty in
theorem All.setAccount (h : w.All p) (b : Bytes) {a : Account} (ha : p a) : (w.setAccount b a).All p := by
  refine ⟨fun e he => ?_, h.2⟩
  rcases Table.mem_putEntry he with rfl | he
  · exact ha
  · exact h.1 e he

theorem All.touch (h : w.All p) (b : Bytes) : (w.touch b).All p := by
  unfold World.touch
  split
  · exact h
  · exact h.setAccount b hempty

/-- A change keeps what it keeps of every account, also one that is refused. -/
theorem change_all {f : Account → Except Fault Account} (hf : ∀ {a a' : Account}, p a → f a = .ok a' → p a')
    (place : Place) : Preserves (All p) (change place f) := by
  intro w h
  unfold change
  split
  · rename_i b
    split
    · exact h.setAccount b (hf (h.account hempty b) ‹_›)
    · exact h
  · rename_i name
    split
    · exact h
    · rename_i k _
      dsimp only
      split
      · refine ⟨h.1, fun e he => ?_⟩
        rcases Table.mem_putEntry he with rfl | he
        · exact hf (h.stray hempty k name) ‹_›
        · exact h.2 e he
      · exact h

end

theorem transfer_apply (sender : Bytes) (receiver : Place) (token : Token) (nonce : Nonce) (n : Amount)
    (w : World) :
    transfer sender receiver token nonce n w =
      if n.isZero then (.ok (), w)
      else if (((w.touch sender).account sender).amount (token.asset nonce.key)).lt n then
        (.error (.failure .insufficientFunds), w.touch sender)
      else (do
        change sender (Account.take token nonce n)
        change receiver (Account.give token nonce n) : Action World Unit) (w.touch sender) := by
  cases token <;> rfl

/-! ### Payments -/

section

variable {J : World → Prop} {sender receiver : Bytes}

/-- What single transfers keep, a list of them keeps. -/
theorem transferAll_preserves
    (h : ∀ token (nonce n : Nat), Preserves J (transfer sender receiver token (nonce : Int) n)) :
    ∀ ts, Preserves J (transferAll sender receiver ts)
  | [] => .pure _
  | t :: ts => .bind (h t.token t.nonce t.amount) fun _ => transferAll_preserves h ts

theorem moveValue_preserves_of {c : Call}
    (h : ∀ token (nonce n : Nat), Preserves J (transfer c.sender c.receiver token (nonce : Int) n)) :
    Preserves J (moveValue c) := by
  unfold moveValue
  split
  · exact .bind (h .native 0 c.native) fun _ => transferAll_preserves h _
  · exact .pure _

end

end World

end TrialLedger
