import Mathlib.Data.List.Basic
import Mathlib.Tactic.Common

/-!
# Runs of a partial step function

A system is a step function that answers `none` where an event is not
possible. Runs may be restricted to steps that meet a condition on the state
before the step and the event taken.
-/
namespace Runs
variable {σ ε : Type}

/-- States reached from `start` by steps that all meet `ok`. -/
inductive Reaches (step : σ → ε → Option σ) (ok : σ → ε → Prop) (start : σ → Prop) : σ → Prop
  | start {s : σ} : start s → Reaches step ok start s
  | next {s s' : σ} {e : ε} : Reaches step ok start s → ok s e → step s e = some s' →
      Reaches step ok start s'

/-- The induction of a conditioned run: what holds at the start and is kept by
every step that meets the condition holds in every state reached. -/
theorem Reaches.invariant {step : σ → ε → Option σ} {ok : σ → ε → Prop} {start : σ → Prop}
    {I : σ → Prop} (base : ∀ s, start s → I s)
    (keep : ∀ s e s', I s → ok s e → step s e = some s' → I s') {s : σ}
    (h : Reaches step ok start s) : I s := by
  induction h with
  | start hs => exact base _ hs
  | next _ hok hstep ih => exact keep _ _ _ ih hok hstep

/-- A run under one condition is a run under a weaker one. -/
theorem Reaches.imp {step : σ → ε → Option σ} {ok ok' : σ → ε → Prop} {start : σ → Prop}
    (weaker : ∀ s e, ok s e → ok' s e) {s : σ} (h : Reaches step ok start s) :
    Reaches step ok' start s := by
  induction h with
  | start hs => exact .start hs
  | next _ hok hstep ih => exact .next ih (weaker _ _ hok) hstep

/-- The state after a list of events. -/
def runList (step : σ → ε → Option σ) : σ → List ε → Option σ
  | s, [] => some s
  | s, e :: es => (step s e).bind (fun s' => runList step s' es)

/-- Every step of the run on this list meets the condition. -/
def Meets (step : σ → ε → Option σ) (ok : σ → ε → Prop) : σ → List ε → Prop
  | _, [] => True
  | s, e :: es => ok s e ∧ ∀ s', step s e = some s' → Meets step ok s' es

/-- A condition that can be decided at every step can be decided on a run. -/
instance Meets.decidable (step : σ → ε → Option σ) (ok : σ → ε → Prop)
    [∀ s e, Decidable (ok s e)] : ∀ s es, Decidable (Meets step ok s es)
  | _, [] => .isTrue trivial
  | s, e :: es =>
      match h : step s e with
      | none => decidable_of_iff (ok s e) ⟨fun hok => ⟨hok, fun s' hs => by
          rw [h] at hs
          cases hs⟩, And.left⟩
      | some s' =>
          let _ := Meets.decidable step ok s' es
          decidable_of_iff (ok s e ∧ Meets step ok s' es)
            ⟨fun both => ⟨both.1, fun t ht => by
              rw [h] at ht
              cases ht
              exact both.2⟩, fun both => ⟨both.1, both.2 s' h⟩⟩

theorem Reaches.append {step : σ → ε → Option σ} {ok : σ → ε → Prop} {start : σ → Prop}
    {es : List ε} {s s' : σ} (h : Reaches step ok start s) (hok : Meets step ok s es)
    (hrun : runList step s es = some s') : Reaches step ok start s' := by
  induction es generalizing s with
  | nil =>
      cases hrun
      exact h
  | cons e es ih =>
      cases hstep : step s e with
      | none => simp [runList, hstep] at hrun
      | some t =>
          have hrest : runList step t es = some s' := by simpa [runList, hstep] using hrun
          exact ih (h.next hok.1 hstep) (hok.2 t hstep) hrest

/-- A run on a list of events reaches its last state. -/
theorem reaches_of_runList {step : σ → ε → Option σ} {ok : σ → ε → Prop} {start : σ → Prop}
    {es : List ε} {s s' : σ} (hs : start s) (hok : Meets step ok s es)
    (hrun : runList step s es = some s') : Reaches step ok start s' :=
  (Reaches.start hs).append hok hrun

theorem meets_true (step : σ → ε → Option σ) (s : σ) (es : List ε) :
    Meets step (fun _ _ => True) s es := by
  induction es generalizing s with
  | nil => trivial
  | cons e es ih => exact ⟨trivial, fun s' _ => ih s'⟩

/-- A run on a list of events that meets a condition and whose last state passes
a check. -/
theorem exists_reaches_of_meets {step : σ → ε → Option σ} {ok : σ → ε → Prop} {start : σ → Prop}
    {es : List ε} {s : σ} {check : σ → Bool} (hs : start s) (hok : Meets step ok s es)
    (h : (runList step s es).any check = true) : ∃ s', Reaches step ok start s' ∧ check s' = true := by
  cases run : runList step s es with
  | none =>
      rw [run] at h
      cases h
  | some s' =>
      rw [run] at h
      exact ⟨s', reaches_of_runList hs hok run, h⟩

/-- A run on a list of events whose last state passes a check. -/
theorem exists_reaches {step : σ → ε → Option σ} {start : σ → Prop} {es : List ε} {s : σ}
    {check : σ → Bool} (hs : start s) (h : (runList step s es).any check = true) :
    ∃ s', Reaches step (fun _ _ => True) start s' ∧ check s' = true :=
  exists_reaches_of_meets hs (meets_true step s es) h

end Runs
