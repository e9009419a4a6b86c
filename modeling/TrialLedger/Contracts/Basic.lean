import TrialLedger.Contracts.PaymentFeatures
import TrialLedger.Contracts.Vault
import TrialLedger.Contracts.Forwarder

/-! The contracts that scenarios can name without further ado. -/

namespace TrialLedger.Contracts

def standard : List (String × Contract) := [
  ("payment-features", PaymentFeatures.contract),
  ("vault", Vault.contract),
  ("forwarder", Forwarder.contract)]

def registry : Registry := ⟨Table.ofList standard⟩

end TrialLedger.Contracts
