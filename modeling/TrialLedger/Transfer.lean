import TrialLedger.Token
import TrialLedger.Issue

/-! One payment of a call: a token, a nonce and an amount. A nonce of zero marks a
fungible token; anything else is a single, non-fungible one. -/

namespace TrialLedger

/-- The kind of a token as contracts are told it; the native coin counts as fungible. -/
inductive TokenType where
  | fungible
  | nonFungible
  deriving DecidableEq, Repr

def TokenType.code : TokenType → Nat
  | fungible => 0
  | nonFungible => 1

structure Transfer where
  token : Token
  nonce : Nat
  amount : Nat
  deriving DecidableEq, Repr

namespace Transfer

def model : String := "TokenTransfer"

/-- An issue for a number below zero. -/
def negative (member : String) (v : Int) : List Issue := if v < 0 then [⟨[member], .belowZero⟩] else []

def make (token : Token) (nonce amount : Int) : Except (List Issue) Transfer :=
  match negative "nonce" nonce ++ negative "amount" amount with
  | [] => .ok ⟨token, nonce.toNat, amount.toNat⟩
  | issues => .error issues

def isFungible (t : Transfer) : Bool := t.nonce == 0

def tokenType (t : Transfer) : TokenType := if t.nonce = 0 then .fungible else .nonFungible

def shownTuple (t : Transfer) : String :=
  "(" ++ t.token.shown ++ ", " ++ toString t.nonce ++ ", " ++ toString t.amount ++ ")"

end Transfer

end TrialLedger
