import Mathlib
import TrialLedger.Check.Assignment
import TrialLedger.Proofs.Table

/-! Searches for a position. A search is a recursion that nothing bounds from outside; it ends
because every search in another one has seen a position more. One that succeeds moves holders about
and adds the claimant to them. One that fails has seen positions that are all held, by holders that
none but these positions suit. -/

namespace TrialLedger.Check.Assignment

/-- The search as it is meant, without a bound on its depth: what becomes of a claimant that tries the
given positions after others have been seen. -/
inductive Tries (suits : Nat → List Nat) (h : Holders) :
    (claimant : Nat) → (positions seen : List Nat) → Except (List Nat) Holders → Prop where
  | none_left {c : Nat} {seen : List Nat} : Tries suits h c [] seen (.error seen)
  | skip {c p : Nat} {ps seen : List Nat} {r : Except (List Nat) Holders} (hp : p ∈ seen)
    (hr : Tries suits h c ps seen r) : Tries suits h c (p :: ps) seen r
  | free {c p : Nat} {ps seen : List Nat} (hp : p ∉ seen) (hq : h.lookup p = none) :
    Tries suits h c (p :: ps) seen (.ok (assign p c h))
  | moved {c p q : Nat} {ps seen : List Nat} {h' : Holders} (hp : p ∉ seen) (hq : h.lookup p = some q)
    (hmove : Tries suits h q (suits q) (p :: seen) (.ok h')) :
      Tries suits h c (p :: ps) seen (.ok (assign p c h'))
  | stuck {c p q : Nat} {ps seen seen' : List Nat} {r : Except (List Nat) Holders} (hp : p ∉ seen)
    (hq : h.lookup p = some q) (hmove : Tries suits h q (suits q) (p :: seen) (.error seen'))
    (hr : Tries suits h c ps seen' r) : Tries suits h c (p :: ps) seen r

variable {suits : Nat → List Nat} {h h' : Holders} {c p q n : Nat} {ps seen seen' : List Nat}
  {r r' : Except (List Nat) Holders}

namespace Tries

theorem deterministic (ht : Tries suits h c ps seen r) (ht' : Tries suits h c ps seen r') : r = r' := by
  induction ht generalizing r' with
  | none_left =>
    cases ht'
    rfl
  | skip hp _ ih =>
    cases ht' with
    | skip _ hr => exact ih hr
    | free hp' | moved hp' | stuck hp' => exact absurd hp hp'
  | free hp hq =>
    cases ht' with
    | skip hp' => exact absurd hp' hp
    | free => rfl
    | moved _ hq' | stuck _ hq' => rw [hq] at hq'; cases hq'
  | moved hp hq _ ih =>
    cases ht' with
    | skip hp' => exact absurd hp' hp
    | free _ hq' => rw [hq] at hq'; cases hq'
    | moved _ hq' hm =>
      obtain rfl := Option.some.inj (hq.symm.trans hq')
      obtain rfl := Except.ok.inj (ih hm)
      rfl
    | stuck _ hq' hm =>
      obtain rfl := Option.some.inj (hq.symm.trans hq')
      cases ih hm
  | stuck hp hq _ _ ihm ihr =>
    cases ht' with
    | skip hp' => exact absurd hp' hp
    | free _ hq' => rw [hq] at hq'; cases hq'
    | moved _ hq' hm =>
      obtain rfl := Option.some.inj (hq.symm.trans hq')
      cases ihm hm
    | stuck _ hq' hm hr =>
      obtain rfl := Option.some.inj (hq.symm.trans hq')
      obtain rfl := Except.error.inj (ihm hm)
      exact ihr hr

/-- What a search has seen that fails: all positions that it tried, and of those that are new every
holder, with all positions that suit the holder. -/
structure Trapped (suits : Nat → List Nat) (h : Holders) (ps seen seen' : List Nat) : Prop where
  seen_subset : seen ⊆ seen'
  tried_subset : ps ⊆ seen'
  held : ∀ p ∈ seen', p ∉ seen → ∃ q, h.lookup p = some q ∧ suits q ⊆ seen'

theorem trapped (ht : Tries suits h c ps seen r) :
    ∀ {seen'}, r = .error seen' → Trapped suits h ps seen seen' := by
  induction ht with
  | none_left =>
    rintro _ ⟨⟩
    exact ⟨List.Subset.refl _, List.nil_subset _, fun p hp hn => absurd hp hn⟩
  | skip hp _ ih =>
    intro seen' he
    have h := ih he
    exact ⟨h.seen_subset, List.cons_subset.2 ⟨h.seen_subset hp, h.tried_subset⟩, h.held⟩
  | free => exact nofun
  | moved => exact nofun
  | @stuck c p q ps seen seen₁ r hp hq _ _ ihm ihr =>
    intro seen' he
    have hmove := ihm rfl
    have hrest := ihr he
    have hseen := List.cons_subset.1 hmove.seen_subset
    refine ⟨fun x hx => hrest.seen_subset (hseen.2 hx), ?_, fun x hx hn => ?_⟩
    · exact List.cons_subset.2 ⟨hrest.seen_subset hseen.1, hrest.tried_subset⟩
    by_cases hx₁ : x ∈ seen₁
    · have hheld : ∃ q, h.lookup x = some q ∧ suits q ⊆ seen₁ := by
        by_cases hxp : x = p
        · exact ⟨q, hxp ▸ hq, hmove.tried_subset⟩
        · exact hmove.held x hx₁ (by simp [hxp, hn])
      obtain ⟨q', hq', hs⟩ := hheld
      exact ⟨q', hq', fun y hy => hrest.seen_subset (hs hy)⟩
    · exact hrest.held x hx hx₁

end Tries

/-! ### The search ends -/

/-- How many positions have not been seen. -/
def unseen (n : Nat) (seen : List Nat) : Nat := (Finset.range n \ seen.toFinset).card

theorem unseen_cons_lt (hn : p < n) (hp : p ∉ seen) : unseen n (p :: seen) < unseen n seen := by
  refine Finset.card_lt_card ⟨Finset.sdiff_subset_sdiff (Finset.Subset.refl _) ?_, fun hs => ?_⟩
  · simp
  · have hmem := hs (Finset.mem_sdiff.2 ⟨Finset.mem_range.2 hn, by simpa using hp⟩)
    simp at hmem

theorem unseen_mono (hs : seen ⊆ seen') : unseen n seen' ≤ unseen n seen :=
  Finset.card_le_card (Finset.sdiff_subset_sdiff (Finset.Subset.refl _) fun _ hx =>
    List.mem_toFinset.2 (hs (List.mem_toFinset.1 hx)))

theorem unseen_le (n : Nat) (seen : List Nat) : unseen n seen ≤ n :=
  (Finset.card_le_card Finset.sdiff_subset).trans (Finset.card_range n).le

/-- A bound on the depth that exceeds the number of positions not seen is never reached. -/
theorem tries_serve (hn : ∀ c, ∀ p ∈ suits c, p < n) {depth : Nat} (hd : unseen n seen < depth)
    (c : Nat) : Tries suits h c (suits c) seen (serve suits h depth c seen) := by
  induction depth generalizing c seen with
  | zero => omega
  | succ depth ih =>
    have hall : ∀ ps seen, (∀ p ∈ ps, p < n) → unseen n seen ≤ depth →
        Tries suits h c ps seen (tryPositions (serve suits h depth) h c ps seen) := by
      intro ps
      induction ps with
      | nil => exact fun _ _ _ => .none_left
      | cons p ps ihps =>
        intro seen hps hle
        have hrest := fun seen' => ihps seen' fun x hx => hps x (List.mem_cons_of_mem _ hx)
        unfold tryPositions
        by_cases hp : p ∈ seen
        · rw [if_pos (List.contains_iff_mem.2 hp)]
          exact .skip hp (hrest seen hle)
        · rw [if_neg (by simpa using hp)]
          have hlt := unseen_cons_lt (hps p List.mem_cons_self) hp
          cases hq : h.lookup p with
          | none => exact .free hp hq
          | some q =>
            have hmove : Tries suits h q (suits q) (p :: seen) (serve suits h depth q (p :: seen)) :=
              ih (by omega) q
            dsimp only
            cases hs : serve suits h depth q (p :: seen) with
            | ok h' => exact .moved hp hq (hs ▸ hmove)
            | error seen' =>
              rw [hs] at hmove
              have hmono := unseen_mono (n := n) (hmove.trapped rfl).seen_subset
              exact .stuck hp hq hmove (hrest seen' (by omega))
    exact hall _ _ (hn c) (by omega)

/-! ### What a search achieves -/

/-- No position is held twice, and all holders suit. -/
structure Holders.Valid (suits : Nat → List Nat) (h : Holders) : Prop where
  nodup : (h.map Prod.fst).Nodup
  suits : ∀ e ∈ h, e.1 ∈ suits e.2

theorem assign_eq (p c : Nat) (h : Holders) :
    assign p c h = (p, c) :: h.filter fun e => !decide (e.1 = p) := by
  simp [assign]

theorem lookup_assign (p c x : Nat) (h : Holders) :
    (assign p c h).lookup x = if x = p then some c else h.lookup x := by
  rw [assign_eq, Table.lookup_cons_eq, Table.lookup_filter_ne]
  split <;> rfl

theorem Holders.Valid.assign (hv : h.Valid suits) (hp : p ∈ suits c) : (assign p c h).Valid suits := by
  rw [assign_eq]
  refine ⟨?_, fun e he => ?_⟩
  · rw [List.map_cons, List.nodup_cons]
    refine ⟨fun hm => ?_, Table.nodup_filter hv.nodup⟩
    obtain ⟨e, he, hpe⟩ := List.mem_map.1 hm
    simpa [hpe] using (List.mem_filter.1 he).2
  · rcases List.mem_cons.1 he with rfl | he
    · exact hp
    · exact hv.suits e (List.mem_filter.1 he).1

/-- A successful search leaves the positions alone that had been seen, and it adds the claimant to the
holders. -/
structure Placed (suits : Nat → List Nat) (h : Holders) (c : Nat) (seen : List Nat) (h' : Holders) :
    Prop where
  valid : h'.Valid suits
  holders : (h'.map Prod.snd).Perm (c :: h.map Prod.snd)
  lookup_eq : ∀ p ∈ seen, h'.lookup p = h.lookup p

theorem Tries.placed (hv : h.Valid suits) (ht : Tries suits h c ps seen r) :
    (∀ p ∈ ps, p ∈ suits c) → ∀ {h'}, r = .ok h' → Placed suits h c seen h' := by
  induction ht with
  | none_left => exact fun _ => nofun
  | skip _ _ ih => exact fun hs => ih fun p hp => hs p (List.mem_cons_of_mem _ hp)
  | @free c p ps seen hp hq =>
    rintro hs _ ⟨⟩
    refine ⟨hv.assign (hs p List.mem_cons_self), ?_, fun x hx => ?_⟩
    · have hr : (h.filter fun e => !decide (e.1 = p)) = h := by
        refine List.filter_eq_self.2 fun e he => ?_
        have hne : e.1 ≠ p := fun hep => by simpa [hep] using List.lookup_eq_none_iff.1 hq e he
        simpa using hne
      rw [assign_eq, hr, List.map_cons]
    · rw [lookup_assign, if_neg (fun he : x = p => hp (he ▸ hx))]
  | @moved c p q ps seen h' hp hq _ ih =>
    rintro hs _ ⟨⟩
    have hmove := ih (fun _ hx => hx) rfl
    refine ⟨hmove.valid.assign (hs p List.mem_cons_self), ?_, fun x hx => ?_⟩
    · -- The mover has its old position and its new one until the claimant takes the old one.
      have hold : h'.lookup p = some q := (hmove.lookup_eq p List.mem_cons_self).trans hq
      have hperm :=
        ((Table.perm_cons_filter_ne hmove.valid.nodup hold).map Prod.snd).symm.trans hmove.holders
      rw [List.map_cons] at hperm
      rw [assign_eq, List.map_cons]
      exact (hperm.cons_inv).cons c
    · rw [lookup_assign, if_neg (fun he : x = p => hp (he ▸ hx))]
      exact hmove.lookup_eq x (List.mem_cons_of_mem _ hx)
  | stuck _ _ hm _ _ ihr =>
    intro hs h' he
    have hrest := ihr (fun p hp => hs p (List.mem_cons_of_mem _ hp)) he
    have hseen := (List.cons_subset.1 (hm.trapped rfl).seen_subset).2
    exact ⟨hrest.valid, hrest.holders, fun x hx => hrest.lookup_eq x (hseen hx)⟩

/-! ### Serving in order -/

/-- The first claimants can each be given a position of their own. -/
def Servable (suits : Nat → List Nat) (k : Nat) : Prop :=
  ∃ f : Nat → Nat, (∀ c < k, f c ∈ suits c) ∧ Set.InjOn f {c | c < k}

theorem Servable.mono {k k' : Nat} (hk : k ≤ k') : Servable suits k' → Servable suits k
  | ⟨f, hf, hi⟩ => ⟨f, fun c hc => hf c (by omega), hi.mono fun c (hc : c < k) => (by omega : c < k')⟩

/-- Holders that suit are a way to serve them. -/
theorem servable_of_valid {k : Nat} (hv : h.Valid suits) (hh : (h.map Prod.snd).Perm (List.range k)) :
    Servable suits k := by
  have hpos : ∀ c, ∃ p, c < k → (p, c) ∈ h := by
    intro c
    by_cases hc : c < k
    · obtain ⟨e, he, rfl⟩ := List.mem_map.1 (hh.mem_iff.2 (List.mem_range.2 hc))
      exact ⟨e.1, fun _ => he⟩
    · exact ⟨0, fun h => absurd h hc⟩
  choose f hf using hpos
  refine ⟨f, fun c hc => hv.suits _ (hf c hc), fun c hc c' hc' he => ?_⟩
  have hmem' : (f c, c') ∈ h := he ▸ hf c' hc'
  have heq := List.inj_on_of_nodup_map hv.nodup (hf c hc) hmem' rfl
  exact congrArg Prod.snd heq

/-- Of the positions that a failed search has seen there are too few: they are all that suit the claimant
and their own holders, who are one more. -/
theorem not_servable_of_trapped {k : Nat} (hh : (h.map Prod.snd).Perm (List.range k))
    (ht : Tries.Trapped suits h (suits k) [] seen') : ¬ Servable suits (k + 1) := by
  rintro ⟨f, hf, hi⟩
  have hheld : ∀ p, ∃ q, p ∈ seen' → h.lookup p = some q ∧ suits q ⊆ seen' := by
    intro p
    by_cases hp : p ∈ seen'
    · obtain ⟨q, hq⟩ := ht.held p hp List.not_mem_nil
      exact ⟨q, fun _ => hq⟩
    · exact ⟨0, fun h => absurd h hp⟩
  choose holder hholder using hheld
  have hmem : ∀ p ∈ seen', (p, holder p) ∈ h := fun p hp => Table.mem_of_lookup_eq_some (hholder p hp).1
  have hlt : ∀ p ∈ seen', holder p < k := fun p hp =>
    List.mem_range.1 (hh.mem_iff.1 (List.mem_map_of_mem (hmem p hp)))
  have hinj : Set.InjOn holder (seen'.toFinset : Set Nat) := by
    intro p hp p' hp' he
    rw [Finset.mem_coe, List.mem_toFinset] at hp hp'
    have hnodup : (h.map Prod.snd).Nodup := hh.nodup_iff.2 List.nodup_range
    exact congrArg Prod.fst (List.inj_on_of_nodup_map hnodup (hmem p hp) (hmem p' hp') he)
  have hcard : (insert k (seen'.toFinset.image holder)).card = seen'.toFinset.card + 1 := by
    rw [Finset.card_insert_of_notMem, Finset.card_image_of_injOn hinj]
    intro hk
    obtain ⟨p, hp, rfl⟩ := Finset.mem_image.1 hk
    exact absurd (hlt p (List.mem_toFinset.1 hp)) (Nat.lt_irrefl _)
  have hle : (insert k (seen'.toFinset.image holder)).card ≤ seen'.toFinset.card := by
    refine Finset.card_le_card_of_injOn f (fun c hc => ?_) (hi.mono fun c hc => ?_)
    · rcases Finset.mem_insert.1 hc with rfl | hc
      · exact List.mem_toFinset.2 (ht.tried_subset (hf c (by omega)))
      · obtain ⟨p, hp, rfl⟩ := Finset.mem_image.1 hc
        have hp := List.mem_toFinset.1 hp
        have := hlt p hp
        exact List.mem_toFinset.2 ((hholder p hp).2 (hf _ (by omega)))
    · rcases Finset.mem_insert.1 hc with rfl | hc
      · exact Nat.lt_succ_self c
      · obtain ⟨p, hp, rfl⟩ := Finset.mem_image.1 hc
        exact Nat.lt_succ_of_lt (hlt p (List.mem_toFinset.1 hp))
  omega

/-- Claimants are served in order up to the first that cannot be served beside those before it. -/
theorem firstUnserved_spec (hn : ∀ c, ∀ p ∈ suits c, p < n) {k : Nat} (m : Nat) {h : Holders}
    (hv : h.Valid suits) (hh : (h.map Prod.snd).Perm (List.range k)) :
    (firstUnserved suits n h (List.range' k m) = none → Servable suits (k + m)) ∧
      ∀ i, firstUnserved suits n h (List.range' k m) = some i →
        i < k + m ∧ Servable suits i ∧ ¬ Servable suits (i + 1) := by
  induction m generalizing k h with
  | zero => exact ⟨fun _ => servable_of_valid hv hh, nofun⟩
  | succ m ih =>
    have ht := tries_serve (h := h) hn (Nat.lt_succ_of_le (unseen_le n [])) k
    rw [List.range'_succ, firstUnserved]
    cases hs : serve suits h (n + 1) k [] with
    | ok h' =>
      have hp := (hs ▸ ht).placed hv (fun _ hx => hx) rfl
      have hh' : (h'.map Prod.snd).Perm (List.range (k + 1)) := by
        rw [List.range_succ]
        exact hp.holders.trans ((hh.cons k).trans (List.perm_append_singleton k _).symm)
      have := ih hp.valid hh'
      rwa [Nat.add_right_comm, Nat.add_assoc] at this
    | error seen =>
      refine ⟨nofun, fun i hi => ?_⟩
      obtain rfl := Option.some.inj hi
      exact ⟨by omega, servable_of_valid hv hh, not_servable_of_trapped hh ((hs ▸ ht).trapped rfl)⟩

end TrialLedger.Check.Assignment
