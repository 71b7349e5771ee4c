import Battleship.Lib.Runs
import Mathlib.Data.List.Induction

/-!
# Histories

What the events of a run so far say about the state it has reached.
-/
namespace Runs
variable {σ ε : Type}

/-- An event that meets `p` has happened, and none that meets `q` after it. -/
def Since (p q : ε → Prop) (es : List ε) : Prop :=
  ∃ before e after, es = before ++ e :: after ∧ p e ∧ ∀ x ∈ after, ¬q x

theorem not_since_nil (p q : ε → Prop) : ¬Since p q [] := by
  rintro ⟨before, e, after, eq, -⟩
  simp at eq

/-- The last event makes it true, or leaves it so. -/
theorem since_concat {p q : ε → Prop} {es : List ε} {e : ε} :
    Since p q (es ++ [e]) ↔ p e ∨ Since p q es ∧ ¬q e := by
  constructor
  · rintro ⟨before, x, after, eq, holds, quiet⟩
    rcases List.eq_nil_or_concat' after with rfl | ⟨after, y, rfl⟩
    · obtain ⟨-, same⟩ := List.append_inj' eq rfl
      cases same
      exact .inl holds
    · rw [← List.cons_append, ← List.append_assoc] at eq
      obtain ⟨rfl, same⟩ := List.append_inj' eq rfl
      cases same
      exact .inr ⟨⟨before, x, after, rfl, holds, fun z member =>
        quiet z (List.mem_append_left _ member)⟩, quiet e (by simp)⟩
  · rintro (holds | ⟨⟨before, x, after, rfl, holds, quiet⟩, last⟩)
    · exact ⟨es, e, [], rfl, holds, by simp⟩
    · refine ⟨before, x, after ++ [e], by simp, holds, fun z member => ?_⟩
      rcases List.mem_append.mp member with member | member
      · exact quiet z member
      · rwa [List.mem_singleton.mp member]

/-- Where nothing of the second kind happens, once is enough. -/
theorem since_of_never {p q : ε → Prop} {es : List ε} (never : ∀ e ∈ es, ¬q e) :
    Since p q es ↔ ∃ e ∈ es, p e := by
  constructor
  · rintro ⟨before, e, after, rfl, holds, -⟩
    exact ⟨e, by simp, holds⟩
  · rintro ⟨e, member, holds⟩
    obtain ⟨before, after, rfl⟩ := List.append_of_mem member
    exact ⟨before, e, after, rfl, holds, fun x later => never x (by simp [later])⟩

/-- Events of neither kind may be left out. -/
theorem since_filter {p q : ε → Prop} {f : ε → Bool} (counts : ∀ e, p e ∨ q e → f e = true)
    (es : List ε) : Since p q (es.filter f) ↔ Since p q es := by
  induction es using List.reverseRecOn with
  | nil => rfl
  | append_singleton es e ih =>
      rw [List.filter_append, since_concat]
      cases kept : f e with
      | true => rw [List.filter_cons_of_pos kept, List.filter_nil, since_concat, ih]
      | false =>
          have neither : ¬(p e ∨ q e) := fun either => by
            rw [counts e either] at kept
            cases kept
          rw [not_or] at neither
          rw [List.filter_cons_of_neg (by simp [kept]), List.filter_nil, List.append_nil, ih]
          simp [neither]

theorem runList_append (step : σ → ε → Option σ) (s : σ) (es es' : List ε) :
    runList step s (es ++ es') = (runList step s es).bind (fun t => runList step t es') := by
  induction es generalizing s with
  | nil => rfl
  | cons e es ih =>
      cases h : step s e with
      | none => simp [runList, h]
      | some t => simpa [runList, h] using ih t

/-- A condition on the events alone. -/
theorem meets_of_forall (step : σ → ε → Option σ) {ok : ε → Prop} {s : σ} {es : List ε}
    (all : ∀ e ∈ es, ok e) : Meets step (fun _ e => ok e) s es := by
  induction es generalizing s with
  | nil => trivial
  | cons e es ih =>
      exact ⟨all e List.mem_cons_self, fun _ _ => ih fun x member => all x (List.mem_cons_of_mem e member)⟩

theorem runList_concat (step : σ → ε → Option σ) (s : σ) (es : List ε) (e : ε) :
    runList step s (es ++ [e]) = (runList step s es).bind (fun s' => step s' e) := by
  induction es generalizing s with
  | nil =>
      cases h : step s e <;> simp [runList, h]
  | cons x es ih =>
      cases h : step s x with
      | none => simp [runList, h]
      | some t => simpa [runList, h] using ih t

/-- A run with a last event: the run before it, and its step. -/
theorem runList_concat_eq_some {step : σ → ε → Option σ} {s s' : σ} {es : List ε} {e : ε} :
    runList step s (es ++ [e]) = some s' ↔
      ∃ t, runList step s es = some t ∧ step t e = some s' := by
  rw [runList_concat, Option.bind_eq_some_iff]

theorem meets_concat {step : σ → ε → Option σ} {ok : σ → ε → Prop} {s : σ} {es : List ε} {e : ε} :
    Meets step ok s (es ++ [e]) ↔
      Meets step ok s es ∧ ∀ t, runList step s es = some t → ok t e := by
  induction es generalizing s with
  | nil => simp [Meets, runList]
  | cons x es ih =>
      cases h : step s x with
      | none => simp [Meets, runList, h]
      | some t => simp [Meets, runList, h, ih, and_assoc]

theorem Meets.of_prefix {step : σ → ε → Option σ} {ok : σ → ε → Prop} {s : σ} {past es : List ε}
    (h : Meets step ok s es) (start : past <+: es) : Meets step ok s past := by
  obtain ⟨rest, rfl⟩ := start
  induction rest using List.reverseRecOn with
  | nil => simpa using h
  | append_singleton rest e ih =>
      rw [← List.append_assoc] at h
      exact ih (meets_concat.mp h).1

/-- What an empty history says of the start and every step that meets the
condition carries on holds of each history and the state it leads to. -/
theorem Meets.history {step : σ → ε → Option σ} {ok : σ → ε → Prop} {I : List ε → σ → Prop}
    {s : σ} (base : I [] s)
    (keep : ∀ es t e t', I es t → ok t e → step t e = some t' → I (es ++ [e]) t') {es : List ε}
    {s' : σ} (h : Meets step ok s es) (run : runList step s es = some s') : I es s' := by
  induction es using List.reverseRecOn generalizing s' with
  | nil =>
      cases run
      exact base
  | append_singleton es e ih =>
      obtain ⟨t, before, last⟩ := runList_concat_eq_some.mp run
      obtain ⟨earlier, now⟩ := meets_concat.mp h
      exact keep es t e s' (ih earlier before) (now t before) last

end Runs
