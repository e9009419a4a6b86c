import TrialLedger.Action

/-! Actions step by step, and the properties that they keep. A sequence that goes through has gone
through step by step, and one that stops has stopped at one of its steps. An action keeps a
property of its state when the property holds after it, whether it went through or stopped.
Sequences, branches and actions on a part of the state keep what their parts keep. -/

namespace TrialLedger.Action

variable {σ τ α β : Type}

theorem bind_apply (x : Action σ α) (f : α → Action σ β) (s : σ) :
    (x >>= f) s = match x s with
      | (.ok a, s') => f a s'
      | (.error e, s') => (.error e, s') := rfl

theorem ofExcept_apply (r : Except Stop α) (s : σ) : ofExcept r s = (r, s) := by
  cases r <;> rfl

theorem attempt_apply (x : Action σ α) (s : σ) : attempt x s = (.ok (x s).1, (x s).2) := rfl

theorem apply_of_fst {x : Action σ α} {s : σ} {r : Except Stop α} (h : (x s).1 = r) :
    x s = (r, (x s).2) := Prod.ext h rfl

theorem bind_eq_ok {x : Action σ α} {f : α → Action σ β} {s s' : σ} {b : β} :
    (x >>= f) s = (.ok b, s') ↔ ∃ a t, x s = (.ok a, t) ∧ f a t = (.ok b, s') := by
  rw [bind_apply]
  rcases x s with ⟨_ | a, t⟩ <;> simp [and_assoc]

theorem bind_eq_error {x : Action σ α} {f : α → Action σ β} {s s' : σ} {e : Stop} :
    (x >>= f) s = (.error e, s') ↔
      x s = (.error e, s') ∨ ∃ a t, x s = (.ok a, t) ∧ f a t = (.error e, s') := by
  rw [bind_apply]
  rcases x s with ⟨_ | a, t⟩ <;> simp [and_assoc]

theorem zoom_eq {part : τ → σ} {replace : τ → σ → τ} {x : Action σ α} {t t' : τ} {r : Except Stop α} :
    zoom part replace x t = (r, t') ↔ ∃ p, x (part t) = (r, p) ∧ t' = replace t p := by
  unfold zoom
  rcases x (part t) with ⟨r', p⟩
  simp only [Prod.mk.injEq]
  constructor
  · rintro ⟨rfl, rfl⟩
    exact ⟨p, ⟨rfl, rfl⟩, rfl⟩
  · rintro ⟨_, ⟨rfl, rfl⟩, rfl⟩
    exact ⟨rfl, rfl⟩

theorem bind_assoc {γ : Type} (x : Action σ α) (f : α → Action σ β) (g : β → Action σ γ) :
    x >>= f >>= g = x >>= fun a => f a >>= g := by
  funext s
  simp only [bind_apply]
  rcases x s with ⟨_ | a, t⟩ <;> rfl

theorem stop_bind (e : Stop) (f : α → Action σ β) : (stop e >>= f) = stop e := rfl

theorem mapError_eq_ok {ε ε' : Type} {f : ε → ε'} {r : Except ε α} {a : α} :
    r.mapError f = .ok a ↔ r = .ok a := by
  cases r with
  | ok b => exact ⟨fun h => congrArg _ (Except.ok.inj h), fun h => congrArg _ (Except.ok.inj h)⟩
  | error e => exact ⟨nofun, nofun⟩

/-- The property holds after the action whenever it holds before it. -/
def Preserves (I : σ → Prop) (x : Action σ α) : Prop := ∀ s, I s → I (x s).2

namespace Preserves

variable {I : σ → Prop}

theorem pure (a : α) : Preserves I (pure a : Action σ α) := fun _ h => h

theorem stop (e : Stop) : Preserves I (stop e : Action σ α) := fun _ h => h

theorem ofExcept (r : Except Stop α) : Preserves I (ofExcept r) := by
  cases r <;> exact fun _ h => h

theorem get : Preserves I (get : Action σ σ) := fun _ h => h

theorem modify {f : σ → σ} (hf : ∀ s, I s → I (f s)) : Preserves I (modify f) := hf

theorem bind {x : Action σ α} {f : α → Action σ β} (hx : Preserves I x) (hf : ∀ a, Preserves I (f a)) :
    Preserves I (x >>= f) := by
  intro s hs
  have h := hx s hs
  rw [bind_apply]
  rcases hr : x s with ⟨_ | a, s'⟩
  · simpa [hr] using h
  · exact hf a s' (by simpa [hr] using h)

theorem ofExcept_bind {r : Except Stop α} {f : α → Action σ β}
    (hf : ∀ a, r = .ok a → Preserves I (f a)) : Preserves I (Action.ofExcept r >>= f) := by
  cases r with
  | ok a => exact fun s h => hf a rfl s h
  | error e => exact fun _ h => h

theorem ite {c : Prop} [Decidable c] {x y : Action σ α} (hx : Preserves I x) (hy : Preserves I y) :
    Preserves I (if c then x else y) := by
  split
  · exact hx
  · exact hy

theorem attempt {x : Action σ α} (hx : Preserves I x) : Preserves I (attempt x) := hx

theorem and {A : σ → Prop} {x : Action σ α} (hx : Preserves I x) (ha : Preserves A x) :
    Preserves (fun s => I s ∧ A s) x := fun s h => ⟨hx s h.1, ha s h.2⟩

theorem zoom {J : τ → Prop} {part : τ → σ} {replace : τ → σ → τ} {x : Action σ α}
    (hx : ∀ t, J t → J (replace t (x (part t)).2)) : Preserves J (zoom part replace x) := hx

end Preserves

/-- From a state with the first property the action goes through to an answer and a state with the
second, or it stops in a state with the third. -/
def Leads (P : σ → Prop) (Q : α → σ → Prop) (R : σ → Prop) (x : Action σ α) : Prop :=
  ∀ s, P s → (∀ a t, x s = (.ok a, t) → Q a t) ∧ ∀ e t, x s = (.error e, t) → R t

namespace Leads

variable {P P' R : σ → Prop} {Q : α → σ → Prop} {Q' : β → σ → Prop}

/-- An action that leads from more leads to less. -/
theorem mono {R' : σ → Prop} {Q₁ : α → σ → Prop} {x : Action σ α} (hx : Leads P Q R x) (hp : ∀ s, P' s → P s)
    (hq : ∀ a s, Q a s → Q₁ a s) (hr : ∀ s, R s → R' s) : Leads P' Q₁ R' x :=
  fun s hs => ⟨fun a t h => hq a t ((hx s (hp s hs)).1 a t h), fun e t h => hr t ((hx s (hp s hs)).2 e t h)⟩

/-- What does not look at the state may be assumed. -/
theorem given {p : Prop} {x : Action σ α} (hx : p → Leads P Q R x) : Leads (fun s => P s ∧ p) Q R x :=
  fun s hs => hx hs.2 s hs.1

theorem bind {x : Action σ α} {f : α → Action σ β} (hx : Leads P Q R x)
    (hf : ∀ a, Leads (Q a) Q' R (f a)) : Leads P Q' R (x >>= f) := by
  intro s hs
  refine ⟨fun b t h => ?_, fun e t h => ?_⟩
  · obtain ⟨a, u, h₁, h₂⟩ := bind_eq_ok.1 h
    exact (hf a u ((hx s hs).1 a u h₁)).1 b t h₂
  · rcases bind_eq_error.1 h with h₁ | ⟨a, u, h₁, h₂⟩
    · exact (hx s hs).2 e t h₁
    · exact (hf a u ((hx s hs).1 a u h₁)).2 e t h₂

/-- Where an action leads that is known to go through. -/
theorem of_eq_ok {x : Action σ α} {s t : σ} {a : α} (hx : x s = (.ok a, t)) (h : Q a t) :
    (∀ a t, x s = (.ok a, t) → Q a t) ∧ ∀ e t, x s = (.error e, t) → R t := by
  rw [hx]
  constructor
  · rintro _ _ ⟨⟩
    exact h
  · rintro _ _ ⟨⟩

/-- Where an action leads that is known to stop. -/
theorem of_eq_error {x : Action σ α} {s t : σ} {e : Stop} (hx : x s = (.error e, t)) (h : R t) :
    (∀ a t, x s = (.ok a, t) → Q a t) ∧ ∀ e t, x s = (.error e, t) → R t := by
  rw [hx]
  constructor
  · rintro _ _ ⟨⟩
  · rintro _ _ ⟨⟩
    exact h

theorem ofExcept_bind {r : Except Stop α} {f : α → Action σ β} (hr : ∀ s, P s → R s)
    (hf : ∀ a, r = .ok a → Leads P Q' R (f a)) : Leads P Q' R (Action.ofExcept r >>= f) := by
  cases r with
  | ok a => exact hf a rfl
  | error e => exact fun s hs => of_eq_error rfl (hr s hs)

theorem pure {a : α} (h : ∀ s, P s → Q a s) : Leads P Q R (pure a : Action σ α) :=
  fun s hs => of_eq_ok rfl (h s hs)

theorem of_apply {x : Action σ α} {a : α} {g : σ → σ} (hx : ∀ s, x s = (.ok a, g s))
    (h : ∀ s, P s → Q a (g s)) : Leads P Q R x := fun s hs => of_eq_ok (hx s) (h s hs)

theorem trivial (x : Action σ α) : Leads P (fun _ _ => True) (fun _ => True) x :=
  fun _ _ => ⟨fun _ _ _ => True.intro, fun _ _ _ => True.intro⟩

theorem stop {e : Stop} (h : ∀ s, P s → R s) : Leads P Q R (stop e : Action σ α) :=
  fun s hs => of_eq_error rfl (h s hs)

theorem ite {c : Prop} [Decidable c] {x y : Action σ α} (hx : Leads P Q R x) (hy : Leads P Q R y) :
    Leads P Q R (if c then x else y) := by
  split
  · exact hx
  · exact hy

/-- What an attempt comes to tells where the action has led. -/
theorem attempt_cases {R' : σ → Prop} {x : Action σ α} (hx : Leads P Q R x) :
    Leads P (fun o s => (∀ a, o = .ok a → Q a s) ∧ ∀ e, o = .error e → R s) R' (attempt x) := by
  intro s hs
  refine of_eq_ok (attempt_apply x s) ?_
  exact ⟨fun a ha => (hx s hs).1 a _ (apply_of_fst ha), fun e he => (hx s hs).2 e _ (apply_of_fst he)⟩

theorem attempt {I : σ → Prop} {x : Action σ α} (hx : Leads P (fun _ => I) I x) :
    Leads P (fun _ => I) R (attempt x) := by
  refine hx.attempt_cases.mono (fun _ h => h) (fun o s h => ?_) fun _ h => h
  cases o with
  | ok a => exact h.1 a rfl
  | error e => exact h.2 e rfl

/-- What an action keeps it leads to and from. -/
theorem of_preserves {x : Action σ α} (hx : Preserves P x) (hr : ∀ s, P s → R s) :
    Leads P (fun _ => P) R x := by
  intro s hs
  have h := hx s hs
  refine ⟨fun a t hxs => ?_, fun e t hxs => ?_⟩
  · rwa [hxs] at h
  · rw [hxs] at h
    exact hr _ h

/-- What holds before the action and is kept where it leads from holds after it too. -/
theorem and {A : σ → Prop} {x : Action σ α} (hx : Leads P Q R x)
    (ha : ∀ s, P s → A s → A (x s).2) :
    Leads (fun s => P s ∧ A s) (fun a s => Q a s ∧ A s) (fun s => R s ∧ A s) x := by
  intro s hs
  have h := ha s hs.1 hs.2
  refine ⟨fun a t hxs => ?_, fun e t hxs => ?_⟩
  · rw [hxs] at h
    exact ⟨(hx s hs.1).1 a t hxs, h⟩
  · rw [hxs] at h
    exact ⟨(hx s hs.1).2 e t hxs, h⟩

theorem preserves {x : Action σ α} (hx : Leads P (fun _ => P) P x) : Preserves P x := by
  intro s hs
  rcases h : x s with ⟨_ | a, t⟩
  · exact (hx s hs).2 _ _ h
  · exact (hx s hs).1 _ _ h

end Leads

/-- Every stop of the action has the property. -/
def Raises (P : Stop → Prop) (x : Action σ α) : Prop := ∀ s e, (x s).1 = .error e → P e

namespace Raises

variable {P : Stop → Prop}

theorem pure (a : α) : Raises P (pure a : Action σ α) := fun _ _ h => by cases h

theorem stop {e : Stop} (he : P e) : Raises P (stop e : Action σ α) := by
  rintro s _ ⟨⟩
  exact he

theorem ofExcept {r : Except Stop α} (hr : ∀ e, r = .error e → P e) :
    Raises P (ofExcept r : Action σ α) := by
  intro s e h
  rw [ofExcept_apply] at h
  exact hr e h

theorem get : Raises P (get : Action σ σ) := fun _ _ h => by cases h

theorem modify (f : σ → σ) : Raises P (modify f) := fun _ _ h => by cases h

theorem bind {x : Action σ α} {f : α → Action σ β} (hx : Raises P x) (hf : ∀ a, Raises P (f a)) :
    Raises P (x >>= f) := by
  intro s e h
  have h : (x >>= f) s = (.error e, ((x >>= f) s).2) := Prod.ext h rfl
  rcases bind_eq_error.1 h with hr | ⟨a, t, -, hr⟩
  · exact hx s e (by rw [hr])
  · exact hf a t e (by rw [hr])

theorem ofExcept_bind {r : Except Stop α} {f : α → Action σ β} (hr : ∀ e, r = .error e → P e)
    (hf : ∀ a, r = .ok a → Raises P (f a)) : Raises P (Action.ofExcept r >>= f) := by
  cases r with
  | ok a => exact fun s e h => hf a rfl s e h
  | error e =>
    rintro s _ ⟨⟩
    exact hr e rfl

theorem ite {c : Prop} [Decidable c] {x y : Action σ α} (hx : Raises P x) (hy : Raises P y) :
    Raises P (if c then x else y) := by
  split
  · exact hx
  · exact hy

theorem attempt (x : Action σ α) : Raises P (attempt x) := fun _ _ h => by cases h

theorem zoom {part : τ → σ} {replace : τ → σ → τ} {x : Action σ α} (hx : Raises P x) :
    Raises P (zoom part replace x) := fun t e h => hx (part t) e h

end Raises

end TrialLedger.Action
