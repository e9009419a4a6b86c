import TrialLedger.Contract

/-! A contract with one endpoint for each way to ask what a call was paid with. -/

namespace TrialLedger.Contracts.PaymentFeatures

def pay (q : CallValue.Query) : Program q.Answer := Program.request (.payment q)

/-- Native coin or one transfer: token, nonce and amount. -/
def foo : Program Value := do
  let t ← pay .nativeOrSingle
  return .list [.token t.token, .int t.nonce, .int t.amount]

def nativeValue : Program Value := do return .int (← pay .nativeAmount)

def notPayable : Program Value := do
  pay .checkNotPayable
  return .text "ok"

/-- Exactly two transfers: both tokens and the sum of the amounts. -/
def acceptTwo : Program Value := do
  match ← pay (.fixedCount 2) with
  | [s, t] => return .list [.token s.token, .token t.token, .int (s.amount + t.amount)]
  | _ => Program.fail .cardinality

def singleFungible : Program Value := do
  let (token, amount) ← pay .singleFungible
  return .list [.token token, .int amount]

def nativeOrFungible : Program Value := do
  let (token, amount) ← pay .nativeOrSingleFungible
  return .list [.token token, .int amount]

/-- Token, nonce and amount of the transfers at the given positions. -/
def details : List Nat → Program (List Value)
  | [] => pure []
  | i :: r => do
    let (token, nonce, amount) ← pay (.transferAt i)
    return .token token :: .int nonce :: .int amount :: (← details r)

def transferDetails : Program Value := do
  let count ← pay .transferCount
  let count' ← pay .transferCount
  return .list (.int count :: (← details (List.range count')))

/-- Asks for a transfer after the last one. -/
def transferOutOfRange : Program Value := do
  let count ← pay .transferCount
  let (token, nonce, amount) ← pay (.transferAt count)
  return .tuple [.token token, .int nonce, .int amount]

/-- An endpoint without arguments. -/
def plain (name : String) (body : Program Value) : Endpoint where
  name := name
  method := name
  maxArguments := some 0
  body := fun _ => body

def contract : Contract := Contract.ofEndpoints [
  plain "foo" foo,
  plain "native_value" nativeValue,
  plain "not_payable" notPayable,
  plain "accept_two" acceptTwo,
  plain "single_fungible" singleFungible,
  plain "native_or_fungible" nativeOrFungible,
  plain "transfer_details" transferDetails,
  plain "transfer_out_of_range" transferOutOfRange]

end TrialLedger.Contracts.PaymentFeatures
