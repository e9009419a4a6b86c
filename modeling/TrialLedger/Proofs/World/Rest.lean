import TrialLedger.Proofs.World.Moved

/-! What transfers leave alone. They open accounts and change amounts, and the rest of every account is as it
was, or that of an empty account where there was none. A property that does not look at amounts is kept by all
of them. -/

namespace TrialLedger

namespace World

/-- The account under what is no address, an empty one where there is none. -/
def stray (w : World) (k : Key) : Account := ((w.strays.get? k).map Stray.account).getD {}

theorem stray_getD (w : World) (k : Key) (name : Value) :
    ((w.strays.get? k).getD ⟨name, {}⟩).account = w.stray k := by
  unfold stray
  cases w.strays.get? k <;> rfl

theorem stray_put (w : World) (k k' : Key) (s : Stray) :
    ({ w with strays := w.strays.put k s } : World).stray k' = if k' = k then s.account else w.stray k' := by
  unfold stray
  rw [Table.get?_put]
  split <;> rfl

section

open TrialLedger.Action (Preserves)

variable {J : World → Prop}
  (hset : ∀ {w : World} {b a}, a.rest = (w.account b).rest → J w → J (w.setAccount b a))
  (hstray : ∀ {w : World} {k s}, s.account.rest = (w.stray k).rest → J w →
    J { w with strays := w.strays.put k s })

include hset

theorem touch_of_rest {w : World} (b : Bytes) (h : J w) : J (w.touch b) := by
  unfold touch
  split
  · exact h
  · rename_i hnone
    refine hset ?_ h
    rw [World.account, hnone]
    rfl

include hstray

theorem change_of_rest (place : Place) {f : Account → Except Fault Account}
    (hf : ∀ {a a'}, f a = .ok a' → a'.rest = a.rest) : Preserves J (change place f) := by
  intro w h
  unfold change
  split
  · split
    · rename_i ha
      exact hset (hf ha) h
    · exact h
  · rename_i name
    split
    · exact h
    · rename_i k _
      dsimp only
      split
      · rename_i ha
        refine hstray ?_ h
        rw [← stray_getD w k name]
        exact hf ha
      · exact h

/-- What looks at no amount survives a transfer, whether it goes through or not. -/
theorem transfer_of_rest (sender : Bytes) (receiver : Place) (token : Token) (nonce : Nonce) (n : Amount) :
    Preserves J (transfer sender receiver token nonce n) := by
  intro w h
  have htouch := touch_of_rest hset sender h
  have htake : Preserves J (change (.address sender) (Account.take token nonce n)) :=
    change_of_rest hset hstray _ Account.take_rest
  have hgive : Preserves J (change receiver (Account.give token nonce n)) :=
    change_of_rest hset hstray _ Account.give_rest
  rw [transfer_apply]
  split
  · exact h
  · split
    · exact htouch
    · exact htake.bind (fun _ => hgive) _ htouch

end

end World

end TrialLedger
