import TrialLedger.Program
import TrialLedger.Value.Member

/-! What becomes of a call that a contract asks for. Its members are read as the members of a
record are; those that cannot be read are reported all together, and a call whose members can be
read may still be refused as a whole. -/

namespace TrialLedger.CallRequest

/-- What is wrong with the members of a call, in their order. -/
def issues (r : CallRequest) (transfers : List Value) (budget : Value) : List Issue :=
  Value.issueOf "to_address" r.receiver.asBytes ++ Value.issueOf "native_amount" r.native.asNatural ++
    transfers.flatMap (fun v => Value.issueOf "token_transfers" v.asTransfer) ++
    Value.issueOf "function" r.function.asText ++ Value.issueOf "gas_limit" budget.asNatural

/-- The call that a request of the contract behind another call comes to, on the given budget. -/
def call (r : CallRequest) (caller : Call) (transfers : List Value) (arguments : List Bytes) (budget : Value)
    (kind : CallKind) : Except (List Issue) Call :=
  match r.receiver.asBytes, r.native.asNatural, transfers.mapM Value.asTransfer, r.function.asText,
    budget.asNatural with
  | .ok receiver, .ok native, .ok transfers, .ok function, .ok gasLimit =>
    Call.Draft.validate {
      sender := caller.receiver
      receiver
      native
      transfers
      function
      arguments
      gasLimit
      gasPrice := 0
      txHash := caller.txHash
      kind }
  | _, _, _, _, _ => .error (r.issues transfers budget)

/-- What goes wrong when a receiver has to be told in base sixteen: a text has no such form. -/
def checkReceiver (r : CallRequest) : Except Fault Unit :=
  match r.receiver with
  | .bytes _ => .ok ()
  | v => .error (.noAttribute v.typeName "hex")

end TrialLedger.CallRequest
