import Mathlib
import TrialLedger.Proofs.Fixture.Place
import TrialLedger.Scenario.Basic

/-! Reading under a strict context. Literals, accounts and patterns are read without a look at the flag, so
they read the same under any context with the same directory and gas limit. The amounts of calls and of
their transfers are where it counts: a strict reading of them gives what a lenient one gives, or else it
fails at a spelling that says another number than the one that counts. -/

namespace TrialLedger.Fixture

variable {α β : Type} (ctx : Context) (s : Bool)

def Context.withStrict (ctx : Context) (s : Bool) : Context := { ctx with strict := s }

@[simp] theorem Context.withStrict_defaultGasLimit :
    (ctx.withStrict s).defaultGasLimit = ctx.defaultGasLimit := rfl

/-! ### Readers that do not look at the flag -/

theorem simpleLiteral_withStrict (path : Text) (ps : List Point) :
    simpleLiteral (ctx.withStrict s) path ps = simpleLiteral ctx path ps := by
  have hread : ∀ whole o t, Opening.read (ctx.withStrict s) path whole o t = Opening.read ctx path whole o t := by
    intro whole o t
    cases o with
    | file => cases t <;> rfl
    | _ => rfl
  unfold simpleLiteral
  simp only [hread]

@[simp] theorem literal_withStrict (path : Text) : literal (ctx.withStrict s) path = literal ctx path := by
  funext ps
  fun_induction literal ctx path ps with
  | case1 r ih => rw [literal, ih]
  | case2 r ih => rw [literal, ih]
  | case3 ps hnested hbiguint => rw [literal.eq_3 _ path ps hnested hbiguint, simpleLiteral_withStrict]

@[simp] theorem joined_withStrict (path : Text) : joined (ctx.withStrict s) path = joined ctx path := by
  funext l
  induction l with
  | nil => rfl
  | cons cs r ih => simp only [joined, literal_withStrict, ih]

mutual

theorem readBytes_of_withStrict (path : Text) :
    ∀ j, readBytes (ctx.withStrict s) path j = readBytes ctx path j
  | .null | .bool _ | .int _ | .float _ | .object _ => rfl
  | .text _ => by simp only [readBytes, joined_withStrict]
  | .list items => readListBytes_of_withStrict path 0 items

theorem readListBytes_of_withStrict (path : Text) (i : Nat) :
    ∀ items, readListBytes (ctx.withStrict s) path i items = readListBytes ctx path i items
  | [] => rfl
  | j :: r => by
    have hj := readBytes_of_withStrict (item path i) j
    have hr := readListBytes_of_withStrict path (i + 1) r
    simp only [readListBytes, hj, hr]

end

@[simp] theorem readBytes_withStrict : readBytes (ctx.withStrict s) = readBytes ctx := by
  funext path j
  exact readBytes_of_withStrict ctx s path j

@[simp] theorem readAmount_withStrict : readAmount (ctx.withStrict s) = readAmount ctx := by
  funext path j
  cases j <;> simp only [readAmount, readBytes_withStrict]

@[simp] theorem readU64_withStrict : readU64 (ctx.withStrict s) = readU64 ctx := by
  funext path j
  simp only [readU64, readAmount_withStrict]

@[simp] theorem readAddress_withStrict : readAddress (ctx.withStrict s) = readAddress ctx := by
  funext path j
  simp only [readAddress, readBytes_withStrict]

@[simp] theorem readCode_withStrict : readCode (ctx.withStrict s) = readCode ctx := rfl

/-! ### Accounts -/

@[simp] theorem readHoldings_withStrict : readHoldings (ctx.withStrict s) = readHoldings ctx := by
  have hinstance : readInstance (ctx.withStrict s) = readInstance ctx := by
    funext path j
    cases j <;> simp only [readInstance, readU64_withStrict, readAmount_withStrict]
  funext path j
  cases j <;> simp only [readHoldings, hinstance, readAmount_withStrict]

@[simp] theorem readAccount_withStrict : readAccount (ctx.withStrict s) = readAccount ctx := by
  have hdct : ∀ path t l, readDct (ctx.withStrict s) path t l = readDct ctx path t l := by
    intro path t l
    induction l generalizing t with
    | nil => rfl
    | cons m r ih => simp only [readDct, readBytes_withStrict, readHoldings_withStrict, ih]
  have hstorage : ∀ path t l, readStorage (ctx.withStrict s) path t l = readStorage ctx path t l := by
    intro path t l
    induction l generalizing t with
    | nil => rfl
    | cons m r ih => simp only [readStorage, readBytes_withStrict, ih]
  funext path r
  simp only [readAccount, readU64_withStrict, readAmount_withStrict, hdct, hstorage, readCode_withStrict,
    readAddress_withStrict]

theorem readAccounts_withStrict (path : Text) (t : Table Bytes Account) (l : List (Text × AccountRecord)) :
    Step.readAccounts (ctx.withStrict s) path t l = Step.readAccounts ctx path t l := by
  induction l generalizing t with
  | nil => rfl
  | cons a r ih => simp only [Step.readAccounts, readAddress_withStrict, readAccount_withStrict, ih]

/-! ### Patterns -/

@[simp] theorem readNumberPattern_withStrict : readNumberPattern (ctx.withStrict s) = readNumberPattern ctx := by
  funext path j
  simp only [readNumberPattern, readAmount_withStrict]

@[simp] theorem readBytesPattern_withStrict : readBytesPattern (ctx.withStrict s) = readBytesPattern ctx := by
  funext path j
  simp only [readBytesPattern, readBytes_withStrict]

@[simp] theorem readListPattern_withStrict : readListPattern (ctx.withStrict s) = readListPattern ctx := by
  funext path j
  simp only [readListPattern, readBytesPattern_withStrict]

@[simp] theorem readExpectation_withStrict : readExpectation (ctx.withStrict s) = readExpectation ctx := by
  have hlog : readLogPattern (ctx.withStrict s) = readLogPattern ctx := by
    funext path j
    simp only [readLogPattern, readBytesPattern_withStrict, readListPattern_withStrict]
  have hlogs : readLogsPattern (ctx.withStrict s) = readLogsPattern ctx := by
    funext path j
    simp only [readLogsPattern, hlog]
  funext path r
  simp only [readExpectation, readListPattern_withStrict, readNumberPattern_withStrict,
    readBytesPattern_withStrict, hlogs]

@[simp] theorem readAccountPattern_withStrict : readAccountPattern (ctx.withStrict s) = readAccountPattern ctx := by
  have hdct : ∀ path, readDctEntries (ctx.withStrict s) path = readDctEntries ctx path := by
    intro path
    funext l
    induction l with
    | nil => rfl
    | cons m r ih => simp only [readDctEntries, readBytes_withStrict, readHoldings_withStrict, ih]
  have hstorage : ∀ path, readStorageEntries (ctx.withStrict s) path = readStorageEntries ctx path := by
    intro path
    funext l
    induction l with
    | nil => rfl
    | cons m r ih => simp only [readStorageEntries, readBytes_withStrict, readBytesPattern_withStrict, ih]
  funext path j
  simp only [readAccountPattern, readCode_withStrict, readNumberPattern_withStrict, hdct, hstorage,
    readBytesPattern_withStrict]

@[simp] theorem readAccountsPattern_withStrict : readAccountsPattern (ctx.withStrict s) = readAccountsPattern ctx := by
  have hentries : ∀ path, readAccountEntries (ctx.withStrict s) path = readAccountEntries ctx path := by
    intro path
    funext l
    induction l with
    | nil => rfl
    | cons m r ih => simp only [readAccountEntries, readAddress_withStrict, readAccountPattern_withStrict, ih]
  funext path members
  simp only [readAccountsPattern, hentries]

end TrialLedger.Fixture
