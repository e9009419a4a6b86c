import TrialLedger.Check.Pattern
import TrialLedger.Value.Compare
import TrialLedger.World.Basic

/-! What is expected of the accounts of a world. Listed accounts are compared first, in the
order in which they are listed; then no other account may be there, unless more is
allowed. -/

namespace TrialLedger.Check

structure AccountPattern where
  nonce : Pattern Int := .unspecified
  balance : Pattern Int := .unspecified
  dct : MapPattern (Bytes × Int) Int := .unspecified
  storage : MapPattern Bytes Bytes := .unspecified
  code : Pattern (Option Text) := .unspecified
  owner : Pattern (Option Bytes) := .unspecified

namespace AccountPattern

mutual

/-- A nonce in a path. The parts of a tuple stand between colons. -/
def nonceText : Value → String
  | .bytes b => keyText b
  | .tuple vs => ":".intercalate (nonceTexts vs)
  | v => v.display

def nonceTexts : List Value → List String
  | [] => []
  | v :: r => nonceText v :: nonceTexts r

end

def dctView : MapPattern.View (Bytes × Int) (Bytes × Key) Int Holding where
  locate k := (k.1, .number k.2)
  listed k := keyText k.1 ++ ":" ++ toString k.2
  stored k h := keyText k.1 ++ ":" ++ nonceText h.nonce
  same n h := sameAmount n h.amount
  value h := h.amount.value
  empty := ⟨.nothing, 0⟩
  isEmpty h := h.amount.isZero

def storageView : MapPattern.View Bytes Bytes Bytes Bytes where
  locate := id
  listed := keyText
  stored k _ := keyText k
  same a b := a = b
  value := .bytes
  empty := []
  isEmpty := List.isEmpty

/-- A value that may be missing. -/
def shownOption {α : Type} (shown : α → Exhibit) : Option α → Exhibit
  | some a => shown a
  | none => .nothing

/-- The first part of an account that is not as expected. -/
def mismatch (p : AccountPattern) (path : String) (a : Account) : Option Mismatch :=
  (p.nonce.mismatch (path ++ ".nonce") a.nonce .int).or <|
    (p.balance.mismatchBy sameAmount (path ++ ".balance") a.balance fun b => b.value).or <|
      (p.code.mismatch (path ++ ".code") a.code (shownOption .text)).or <|
        (p.owner.mismatch (path ++ ".owner") a.owner (shownOption .bytes)).or <|
          (p.dct.mismatch dctView (path ++ ".dct") a.dct).or
            (p.storage.mismatch storageView (path ++ ".storage") a.storage)

end AccountPattern

structure AccountsPattern where
  accounts : List (Bytes × AccountPattern)
  allowMore : Bool

namespace AccountsPattern

def accountPath (address : Bytes) : String := "accounts[" ++ keyText address ++ "]"

/-- The first listed account that is missing or not as expected. -/
def listedMismatch (w : World) : List (Bytes × AccountPattern) → Option Mismatch
  | [] => none
  | (address, p) :: r =>
    match w.account? address with
    | none => some ⟨accountPath address, .text "existing account", .text "missing"⟩
    | some a => (p.mismatch (accountPath address) a).or (listedMismatch w r)

/-- The first account that is not listed, in the order of the addresses. -/
def strangerMismatch (w : World) (listed : List Bytes) : Option Mismatch :=
  ((w.accounts.keys.mergeSort Bytes.le).find? fun address => !listed.contains address).map fun address =>
    ⟨accountPath address, .text "absent", .text "unexpected account"⟩

/-- Stray accounts have no place in the order of the addresses. -/
def checkOrder (w : World) : Except Fault Unit :=
  match w.strays.entries with
  | [] => .ok ()
  | (_, s) :: _ => .error (Value.unordered "<" s.name (.bytes []))

def mismatch (p : AccountsPattern) (w : World) : Except Fault (Option Mismatch) :=
  match listedMismatch w p.accounts with
  | some m => .ok (some m)
  | none =>
    if p.allowMore then .ok none
    else do
      checkOrder w
      return strangerMismatch w (p.accounts.map Prod.fst)

end AccountsPattern

end TrialLedger.Check
