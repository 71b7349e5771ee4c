import Battleship.Lib.Runs

/-!
# What is seen of a run

Some steps are seen and the others are not. Where the unseen ones leave the view of a
state as it is, and the seen ones lead from equal views to equal views, the last view of
a run depends on the first and on what has been seen.
-/
namespace Runs
variable {σ ε β V : Type} {step : σ → ε → Option σ} {seen : σ → ε → Option β}

/-- What is seen of a run, up to the first step that is not possible. -/
def sightings (step : σ → ε → Option σ) (seen : σ → ε → Option β) : σ → List ε → List β
  | _, [] => []
  | s, e :: es =>
      match step s e with
      | none => []
      | some s' => (seen s e).toList ++ sightings step seen s' es

theorem runList_cons (seen : σ → ε → Option β) {s t : σ} {e : ε} {es : List ε}
    (h : runList step s (e :: es) = some t) :
    ∃ s', step s e = some s' ∧ runList step s' es = some t ∧
      sightings step seen s (e :: es) = (seen s e).toList ++ sightings step seen s' es := by
  obtain ⟨s', stepped, rest⟩ := Option.bind_eq_some_iff.mp h
  exact ⟨s', stepped, rest, by rw [sightings, stepped]⟩

/-- What every step keeps, together with what is seen of it, a run keeps. -/
theorem runList_sightings {P : List β → σ → Prop}
    (keep : ∀ bs s e s', P bs s → step s e = some s' → P (bs ++ (seen s e).toList) s')
    {bs : List β} {s t : σ} {es : List ε} (start : P bs s) (h : runList step s es = some t) :
    P (bs ++ sightings step seen s es) t := by
  induction es generalizing bs s with
  | nil =>
      cases h
      simpa [sightings] using start
  | cons e es ih =>
      obtain ⟨s', stepped, rest, eq⟩ := runList_cons seen h
      rw [eq, ← List.append_assoc]
      exact ih (keep bs s e s' start stepped) rest

/-- The view depends on what is seen. -/
structure Sees (step : σ → ε → Option σ) (seen : σ → ε → Option β) (inv : σ → Prop)
    (view : σ → V) : Prop where
  kept : ∀ s e s', inv s → step s e = some s' → inv s'
  unseen : ∀ s e s', inv s → step s e = some s' → seen s e = none → view s' = view s
  alike : ∀ s₁ s₂ e₁ e₂ s₁' s₂' b, inv s₁ → inv s₂ → view s₁ = view s₂ →
    step s₁ e₁ = some s₁' → step s₂ e₂ = some s₂' → seen s₁ e₁ = some b → seen s₂ e₂ = some b →
      view s₁' = view s₂'

section Sees
variable {inv : σ → Prop} {view : σ → V} (h : Sees step seen inv view)
include h

theorem Sees.nothing {s t : σ} {es : List ε} (start : inv s) (run : runList step s es = some t)
    (blank : sightings step seen s es = []) : view t = view s := by
  induction es generalizing s with
  | nil =>
      cases run
      rfl
  | cons e es ih =>
      obtain ⟨s', stepped, rest, eq⟩ := runList_cons seen run
      rw [eq] at blank
      obtain ⟨none, blank⟩ := List.append_eq_nil_iff.mp blank
      exact (ih (h.kept s e s' start stepped) rest blank).trans
        (h.unseen s e s' start stepped (Option.toList_eq_nil_iff.mp none))

/-- Up to the first step that is seen the view stays. -/
theorem Sees.first {s t : σ} {es : List ε} {b : β} {bs : List β} (start : inv s)
    (run : runList step s es = some t) (sight : sightings step seen s es = b :: bs) :
    ∃ u e u' es', inv u ∧ view u = view s ∧ seen u e = some b ∧ step u e = some u' ∧
      runList step u' es' = some t ∧ sightings step seen u' es' = bs := by
  induction es generalizing s with
  | nil => cases sight
  | cons e es ih =>
      obtain ⟨s', stepped, rest, eq⟩ := runList_cons seen run
      rw [eq] at sight
      cases sighted : seen s e with
      | none =>
          rw [sighted] at sight
          obtain ⟨u, e', u', es', fits, same, later⟩ :=
            ih (h.kept s e s' start stepped) rest sight
          exact ⟨u, e', u', es', fits, same.trans (h.unseen s e s' start stepped sighted), later⟩
      | some b' =>
          rw [sighted] at sight
          obtain ⟨rfl, rfl⟩ := List.cons.inj sight
          exact ⟨s, e, s', es, start, rfl, sighted, stepped, rest, rfl⟩

/-- Two runs of which the same is seen lead from equal views to equal views. -/
theorem Sees.run {s₁ s₂ t₁ t₂ : σ} {es₁ es₂ : List ε} (inv₁ : inv s₁) (inv₂ : inv s₂)
    (same : view s₁ = view s₂) (run₁ : runList step s₁ es₁ = some t₁)
    (run₂ : runList step s₂ es₂ = some t₂)
    (sight : sightings step seen s₁ es₁ = sightings step seen s₂ es₂) : view t₁ = view t₂ := by
  generalize sight₁ : sightings step seen s₁ es₁ = bs at sight
  have sight₂ := sight.symm
  clear sight
  induction bs generalizing s₁ s₂ es₁ es₂ with
  | nil => exact (h.nothing inv₁ run₁ sight₁).trans (same.trans (h.nothing inv₂ run₂ sight₂).symm)
  | cons b bs ih =>
      obtain ⟨u₁, e₁, u₁', later₁, fits₁, view₁, seen₁, step₁, rest₁, eq₁⟩ :=
        h.first inv₁ run₁ sight₁
      obtain ⟨u₂, e₂, u₂', later₂, fits₂, view₂, seen₂, step₂, rest₂, eq₂⟩ :=
        h.first inv₂ run₂ sight₂
      have level : view u₁ = view u₂ := view₁.trans (same.trans view₂.symm)
      exact ih (h.kept _ _ _ fits₁ step₁) (h.kept _ _ _ fits₂ step₂)
        (h.alike _ _ _ _ _ _ b fits₁ fits₂ level step₁ step₂ seen₁ seen₂) rest₁ rest₂ eq₁ eq₂

end Sees

/-- Both of two states take the same step. -/
def both (step : σ → ε → Option σ) (p : σ × σ) (e : ε) : Option (σ × σ) :=
  (step p.1 e).bind fun s₁ => (step p.2 e).map (s₁, ·)

/-- Of two runs in step the same is seen if every step is seen alike. -/
theorem sightings_both {s₁ s₂ : σ} {es : List ε}
    (alike : Meets (both step) (fun p e => seen p.1 e = seen p.2 e) (s₁, s₂) es)
    (run : (runList (both step) (s₁, s₂) es).isSome) :
    sightings step seen s₁ es = sightings step seen s₂ es := by
  induction es generalizing s₁ s₂ with
  | nil => rfl
  | cons e es ih =>
      obtain ⟨t, run⟩ := Option.isSome_iff_exists.mp run
      obtain ⟨⟨s₁', s₂'⟩, stepped, rest⟩ := Option.bind_eq_some_iff.mp run
      obtain ⟨u, step₁, step₂⟩ := Option.bind_eq_some_iff.mp stepped
      obtain ⟨u', step₂, eq⟩ := Option.map_eq_some_iff.mp step₂
      cases eq
      rw [sightings, sightings, step₁, step₂, alike.1]
      exact congrArg _ (ih (alike.2 _ stepped) (Option.isSome_iff_exists.mpr ⟨t, rest⟩))

theorem runList_both {s₁ s₂ t₁ t₂ : σ} {es : List ε}
    (h : runList (both step) (s₁, s₂) es = some (t₁, t₂)) :
    runList step s₁ es = some t₁ ∧ runList step s₂ es = some t₂ := by
  induction es generalizing s₁ s₂ with
  | nil =>
      cases h
      exact ⟨rfl, rfl⟩
  | cons e es ih =>
      obtain ⟨⟨s₁', s₂'⟩, stepped, rest⟩ := Option.bind_eq_some_iff.mp h
      obtain ⟨u, step₁, stepped⟩ := Option.bind_eq_some_iff.mp stepped
      obtain ⟨u', step₂, eq⟩ := Option.map_eq_some_iff.mp stepped
      cases eq
      obtain ⟨rest₁, rest₂⟩ := ih rest
      rw [runList, runList, step₁, step₂]
      exact ⟨rest₁, rest₂⟩

end Runs
