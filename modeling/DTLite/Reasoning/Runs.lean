import Mathlib.Logic.Basic

/-! Runs of a step function over a list of events: what holds in every state or at every step. -/

namespace DTLite.Reasoning

section Runs

variable {σ ε : Type*} (step : σ → ε → σ)

/-- `inv` holds in the start state and after each event. -/
def AllStates (inv : σ → Prop) : σ → List ε → Prop
  | s, [] => inv s
  | s, e :: es => inv s ∧ AllStates inv (step s e) es

/-- `guard` holds of each event in the state that the event meets. -/
def AllSteps (guard : σ → ε → Prop) : σ → List ε → Prop
  | _, [] => True
  | s, e :: es => guard s e ∧ AllSteps guard (step s e) es

instance decidableAllSteps (guard : σ → ε → Prop) [∀ s e, Decidable (guard s e)] :
    (s : σ) → (es : List ε) → Decidable (AllSteps step guard s es)
  | _, [] => isTrue trivial
  | s, e :: es =>
      have : Decidable (AllSteps step guard (step s e) es) := decidableAllSteps guard (step s e) es
      inferInstanceAs (Decidable (guard s e ∧ AllSteps step guard (step s e) es))

variable {step} {inv : σ → Prop} {guard : σ → ε → Prop}

variable {guard' : σ → ε → Prop} {s : σ} {es : List ε}

section

variable (h : AllStates step inv s es)
include h

theorem AllStates.head : inv s := by
  cases es with
  | nil => exact h
  | cons e es => exact h.1

theorem AllStates.last : inv (es.foldl step s) := by
  induction es generalizing s with
  | nil => exact h
  | cons e es ih => exact ih h.2

theorem AllStates.allSteps : AllSteps step (fun s _ => inv s) s es := by
  induction es generalizing s with
  | nil => trivial
  | cons e es ih => exact ⟨h.1, ih h.2⟩

end

theorem AllStates.mono {inv' : σ → Prop} (himp : ∀ s, inv s → inv' s)
    (h : AllStates step inv s es) : AllStates step inv' s es := by
  induction es generalizing s with
  | nil => exact himp s h
  | cons e es ih => exact ⟨himp s h.1, ih h.2⟩

theorem AllSteps.mono (himp : ∀ s e, guard s e → guard' s e) (h : AllSteps step guard s es) :
    AllSteps step guard' s es := by
  induction es generalizing s with
  | nil => trivial
  | cons e es ih => exact ⟨himp s e h.1, ih h.2⟩

theorem AllSteps.and (h : AllSteps step guard s es) (h' : AllSteps step guard' s es) :
    AllSteps step (fun s e => guard s e ∧ guard' s e) s es := by
  induction es generalizing s with
  | nil => trivial
  | cons e es ih => exact ⟨⟨h.1, h'.1⟩, ih h.2 h'.2⟩

theorem AllStates.of_last (hback : ∀ s e, inv (step s e) → inv s) (h : inv (es.foldl step s)) :
    AllStates step inv s es := by
  induction es generalizing s with
  | nil => exact h
  | cons e es ih => exact ⟨hback s e (ih h).head, ih h⟩

/-- A step that keeps the invariant whenever its guard holds keeps it along every guarded run. -/
theorem allStates_of_allSteps (hstep : ∀ s e, inv s → guard s e → inv (step s e)) (hinv : inv s)
    (hguard : AllSteps step guard s es) : AllStates step inv s es := by
  induction es generalizing s with
  | nil => exact hinv
  | cons e es ih => exact ⟨hinv, ih (hstep s e hinv hguard.1) hguard.2⟩

/-- Where the guard is exactly what one step needs, in the states that `aux` describes, it is
exactly what a whole run needs. -/
theorem allStates_iff_allSteps_of_aux {aux : σ → Prop} (haux : ∀ s e, aux s → aux (step s e))
    (hstep : ∀ s e, aux s → inv s → (inv (step s e) ↔ guard s e))
    {s : σ} {es : List ε} (ha : aux s) (hinv : inv s) :
    AllStates step inv s es ↔ AllSteps step guard s es := by
  induction es generalizing s with
  | nil => exact iff_of_true hinv trivial
  | cons e es ih =>
    constructor
    · intro h
      have hnext : inv (step s e) := h.2.head
      exact ⟨(hstep s e ha hinv).mp hnext, (ih (haux s e ha) hnext).mp h.2⟩
    · intro h
      have hnext : inv (step s e) := (hstep s e ha hinv).mpr h.1
      exact ⟨hinv, (ih (haux s e ha) hnext).mpr h.2⟩

theorem allStates_iff_allSteps (hstep : ∀ s e, inv s → (inv (step s e) ↔ guard s e))
    (hinv : inv s) : AllStates step inv s es ↔ AllSteps step guard s es :=
  @allStates_iff_allSteps_of_aux _ _ step inv guard (fun _ => True) (fun _ _ h => h)
    (fun s e _ => hstep s e) s es trivial hinv

theorem allSteps_true (s : σ) (es : List ε) : AllSteps step (fun _ _ => True) s es := by
  induction es generalizing s with
  | nil => trivial
  | cons e es ih => exact ⟨trivial, ih _⟩

/-- An invariant that every step keeps holds along every run. -/
theorem allStates_of_step (hstep : ∀ s e, inv s → inv (step s e)) (es : List ε) (hinv : inv s) :
    AllStates step inv s es :=
  allStates_of_allSteps (fun s e hs _ => hstep s e hs) hinv (allSteps_true s es)

end Runs

end DTLite.Reasoning
