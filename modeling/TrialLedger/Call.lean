import TrialLedger.Text.Basic
import TrialLedger.Transfer

/-! One call: who calls whom, what is paid, which function runs and on how much gas.
A call pays in the native coin or in tokens, never in both, and it lists no transfer of
nothing. -/

namespace TrialLedger

/-- How a call came about. -/
inductive CallKind where
  | direct
  | sync
  | async
  | asyncCallback
  | transferExecute
  deriving DecidableEq, Repr, Inhabited

def CallKind.label : CallKind → String
  | direct => "DIRECT"
  | sync => "SYNC"
  | async => "ASYNC"
  | asyncCallback => "ASYNC_CALLBACK"
  | transferExecute => "TRANSFER_EXECUTE"

def CallKind.all : List CallKind := [.direct, .sync, .async, .asyncCallback, .transferExecute]

/-- The kind with the given label, or what is said of a label that no kind has. -/
def CallKind.ofLabel (s : String) : Except String CallKind :=
  match CallKind.all.find? fun k => k.label == s with
  | some k => .ok k
  | none => .error (Text.quote s ++ " is not a valid CallType")

structure Call where
  sender : Bytes
  receiver : Bytes
  native : Nat
  transfers : List Transfer
  function : Text
  arguments : List Bytes
  gasLimit : Nat
  gasPrice : Nat
  txHash : Bytes
  kind : CallKind
  amount_ne_zero : ∀ t ∈ transfers, t.amount ≠ 0
  native_eq_zero : transfers ≠ [] → native = 0

namespace Call

/-- The hash of a call that has no other one. -/
def zeroHash : Bytes := List.replicate 32 0

/-- A call as it is asked for: numbers may be negative and payments may clash. -/
structure Draft where
  sender : Bytes
  receiver : Bytes
  native : Int
  transfers : List Transfer
  function : Text
  arguments : List Bytes
  gasLimit : Int
  gasPrice : Int
  txHash : Bytes
  kind : CallKind

/-- Numbers below zero, in the order of the members. -/
def Draft.negatives (d : Draft) : List Issue :=
  Transfer.negative "native_amount" d.native ++ Transfer.negative "gas_limit" d.gasLimit ++
    Transfer.negative "gas_price" d.gasPrice

def Draft.rejection (reason : String) : List Issue := [⟨[], .rejected reason⟩]

/-- The call that a draft describes. Negative numbers are reported all together, then the
first transfer of nothing, then a payment in both kinds. -/
def Draft.validate (d : Draft) : Except (List Issue) Call :=
  match d.negatives with
  | [] =>
    match h : d.transfers.findIdx? fun t => t.amount == 0 with
    | some i => .error (Draft.rejection ("token transfer " ++ toString i ++ " has zero amount"))
    | none =>
      if hn : d.transfers ≠ [] ∧ d.native.toNat ≠ 0 then
        .error (Draft.rejection "cannot send MOAX and DCT tokens in the same call")
      else .ok {
        sender := d.sender
        receiver := d.receiver
        native := d.native.toNat
        transfers := d.transfers
        function := d.function
        arguments := d.arguments
        gasLimit := d.gasLimit.toNat
        gasPrice := d.gasPrice.toNat
        txHash := d.txHash
        kind := d.kind
        amount_ne_zero := by
          intro t ht h0
          rw [List.findIdx?_eq_none_iff] at h
          simpa [h0] using h t ht
        native_eq_zero := by
          intro ht
          by_cases h0 : d.native.toNat = 0
          · exact h0
          · exact absurd ⟨ht, h0⟩ hn }
  | issues => .error issues

def hasValue (c : Call) : Bool := 0 < c.native || !c.transfers.isEmpty

/-- One line that tells a call's function, arguments, payments and ends. -/
def text (c : Call) : Text :=
  "TransactionDescriptor \x7b func: " ++ c.function ++
    ", args: [" ++ ", ".intercalate (c.arguments.map fun a => Text.quote a.hex) ++
    "], call_value: " ++ toString c.native ++
    ", dct_value: [" ++ ", ".intercalate (c.transfers.map Transfer.shownTuple) ++
    "], from: 0x" ++ c.sender.hex ++ ", to: 0x" ++ c.receiver.hex ++ " \x7d"

end Call

end TrialLedger
