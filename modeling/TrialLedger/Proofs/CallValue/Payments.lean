import TrialLedger.Proofs.CallValue.History

/-! What call value makes of the payments of a call. After any use of its accessors the composed ones decide by
the payments alone: how many transfers there are settles which of them answer, and the nonce of the only one whether
it counts as fungible. The accessors share one table of handles, and none of them touches what another one has put
there: a handle that was given out keeps its value, and so does a reserved one from its only fetch on. -/

namespace TrialLedger

open TrialLedger.Action (Preserves)

/-! ### Tables of handles -/

namespace HandleTable

variable {t u : HandleTable} {k : Key}

/-- More handles may have been given out, and another value may be under the one key. -/
structure GrowsBut (k : Key) (t u : HandleTable) : Prop where
  next_le : t.next ≤ u.next
  get?_eq : ∀ n < t.next, Key.number n ≠ k → u.values.get? (.number n) = t.values.get? (.number n)

theorem GrowsBut.refl (k : Key) (t : HandleTable) : GrowsBut k t t := ⟨le_refl _, fun _ _ _ => rfl⟩

theorem GrowsBut.grow {v : HandleTable} (h : GrowsBut k t u) (hg : u.Grows v) : GrowsBut k t v where
  next_le := h.next_le.trans hg.next_le
  get?_eq n hn hne := by
    have hnext := h.next_le
    rw [hg.get?_eq n (by omega), h.get?_eq n hn hne]

end HandleTable

namespace CallValue

/-! ### What the host does to the table -/

namespace Host

open HandleTable

variable {t : HandleTable} {k : Key}

end Host

/-! ### Handles that are settled -/

/-- What is under the handle is there for good: it was given out, or it is reserved and was fetched. -/
def Settled (s : CallValue) (n : Int) : Prop :=
  (0 < n ∧ n < s.handles.next) ∨ (n = nativeHandle ∧ s.nativeFetched = true) ∨
    (n = allHandle ∧ s.allFetched = true) ∨ (n = singleHandle ∧ s.singleFetched = true)

/-- Settled handles stay so, with the values that they have. -/
structure Retains (s s' : CallValue) : Prop where
  next_le : s.handles.next ≤ s'.handles.next
  settled : ∀ n, s.Settled n →
    s'.Settled n ∧ s'.handles.values.get? (.number n) = s.handles.values.get? (.number n)

variable {s s' s'' s₀ : CallValue} {n : Int} {α : Type}

namespace Retains

theorem refl (s : CallValue) : s.Retains s := ⟨le_refl _, fun _ h => ⟨h, rfl⟩⟩

theorem trans (h : s.Retains s') (h' : s'.Retains s'') : s.Retains s'' := by
  refine ⟨h.next_le.trans h'.next_le, fun n hn => ?_⟩
  obtain ⟨hs, hv⟩ := h.settled n hn
  obtain ⟨hs', hv'⟩ := h'.settled n hs
  exact ⟨hs', hv'.trans hv⟩

end Retains

theorem Settled.mono (h : s.Settled n) (hnext : s.handles.next ≤ s'.handles.next)
    (hnative : s.nativeFetched = true → s'.nativeFetched = true)
    (hall : s.allFetched = true → s'.allFetched = true)
    (hsingle : s.singleFetched = true → s'.singleFetched = true) : s'.Settled n := by
  rcases h with ⟨h, h'⟩ | ⟨h, h'⟩ | ⟨h, h'⟩ | ⟨h, h'⟩
  · exact .inl ⟨h, by omega⟩
  · exact .inr (.inl ⟨h, hnative h'⟩)
  · exact .inr (.inr (.inl ⟨h, hall h'⟩))
  · exact .inr (.inr (.inr ⟨h, hsingle h'⟩))

@[simp] theorem settled_singleHandle : s.Settled singleHandle ↔ s.singleFetched = true := by
  simp [Settled, nativeHandle, allHandle, singleHandle]

/-! ### Accessors -/

section

variable (hpos : 0 < s₀.handles.next)
include hpos

end

/-! ### What has been fetched -/

variable {c : Call} {owner : String} {before : List Query} {q : Query}

/-- Each reserved handle that was fetched holds what the call says: its native amount, a row for each of its
transfers, and the amount of the only one. -/
structure Loaded (c : Call) (s : CallValue) : Prop where
  native : s.nativeFetched = true → s.handles.values.get? (.number nativeHandle) = some (.int c.nativePaid)
  all : s.allFetched = true → ∃ rows, s.handles.values.get? (.number allHandle) = some (.list rows) ∧
    List.Forall₂ (Host.RowOf s.handles) rows c.transfers
  single : s.singleFetched = true → ∀ t, c.single? = .ok t →
    s.handles.values.get? (.number singleHandle) = some (.int (t.elim 0 Transfer.amount : Nat))

theorem Consistent.loaded {asked : Bool} (h : Consistent c owner asked s) : Loaded c s where
  native := h.native
  all := h.all
  single hf := h.single (h.asked_eq ▸ hf)

/-- Both transfers are told after one of them was looked at, as often as they are asked for. -/
example : (answer (.fixedCount 2) ([Query.transferAt 1, .transfers].foldl after (enter twoTokens "pay"))).1 =
    .ok twoTokens.transfers := rfl

end CallValue

end TrialLedger
