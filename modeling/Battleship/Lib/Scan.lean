import Mathlib.Data.List.Basic
import Mathlib.Order.Lattice
import Mathlib.Tactic.Common

/-!
# Scans of a list

Nested loops as one loop over the list of their steps, and what a scan for the
greatest element keeps.
-/
namespace Scan

/-- An inner loop for each element is one loop over all inner elements. -/
theorem foldlM_flatMap {m : Type → Type} [Monad m] [LawfulMonad m] {α β σ : Type}
    (f : σ → β → m σ) (g : α → List β) (l : List α) (s : σ) :
    (l.flatMap g).foldlM f s = l.foldlM (fun s a => (g a).foldlM f s) s := by
  induction l generalizing s with
  | nil => rfl
  | cons a l ih => simp only [List.flatMap_cons, List.foldlM_append, List.foldlM_cons, ih]

theorem foldlM_congr {m : Type → Type} [Monad m] {α σ : Type} {f g : σ → α → m σ} {l : List α}
    (h : ∀ a ∈ l, ∀ s, f s a = g s a) (s : σ) : l.foldlM f s = l.foldlM g s := by
  induction l generalizing s with
  | nil => rfl
  | cons a l ih =>
      rw [List.foldlM_cons, List.foldlM_cons, h a List.mem_cons_self s]
      congr 1
      funext s'
      exact ih (fun b hb => h b (List.mem_cons_of_mem a hb)) s'

section FirstMax
variable {α κ : Type} [LinearOrder κ] {p : α → Prop} {key : α → κ} {l : List α} {a x : α}

/-- `a` passes, beats what passes before it and is not beaten after it. -/
def FirstMax (p : α → Prop) (key : α → κ) (l : List α) (a : α) : Prop :=
  ∃ pre post, l = pre ++ a :: post ∧ p a ∧ (∀ x ∈ pre, p x → key x < key a) ∧
    ∀ x ∈ post, p x → key x ≤ key a

theorem FirstMax.passes (h : FirstMax p key l a) : p a := by
  obtain ⟨_, _, -, passes, -⟩ := h
  exact passes

theorem FirstMax.le (h : FirstMax p key l a) (hx : x ∈ l) (px : p x) : key x ≤ key a := by
  obtain ⟨pre, post, rfl, -, before, after⟩ := h
  rcases List.mem_append.mp hx with early | late
  · exact (before x early px).le
  · rcases List.mem_cons.mp late with rfl | late
    · exact le_rfl
    · exact after x late px

/-- An element that does not beat the best so far leaves it. -/
theorem FirstMax.stay (h : FirstMax p key l a) (hx : p x → key x ≤ key a) :
    FirstMax p key (l ++ [x]) a := by
  obtain ⟨pre, post, rfl, passes, before, after⟩ := h
  refine ⟨pre, post ++ [x], by simp, passes, before, fun y hy py => ?_⟩
  rcases List.mem_append.mp hy with old | new
  · exact after y old py
  · rw [List.mem_singleton.mp new] at py ⊢
    exact hx py

/-- An element that beats all before it is the best. -/
theorem FirstMax.move (px : p x) (hx : ∀ y ∈ l, p y → key y < key x) :
    FirstMax p key (l ++ [x]) x :=
  ⟨l, [], rfl, px, hx, fun _ hy => absurd hy List.not_mem_nil⟩

/-- Among the greatest elements of a list in order it is the first. -/
theorem FirstMax.first {r : α → α → Prop} (h : FirstMax p key l a) (sorted : l.Pairwise r)
    (hx : x ∈ l) (px : p x) : key x < key a ∨ key x = key a ∧ (x = a ∨ r a x) := by
  obtain ⟨pre, post, rfl, -, before, after⟩ := h
  rcases List.mem_append.mp hx with early | late
  · exact .inl (before x early px)
  · rcases List.mem_cons.mp late with rfl | late
    · exact .inr ⟨rfl, .inl rfl⟩
    · have later := (List.pairwise_cons.mp (List.pairwise_append.mp sorted).2.1).1 x late
      exact (after x late px).lt_or_eq.imp_right fun eq => ⟨eq, .inr later⟩

end FirstMax
end Scan
