import Battleship.Lib.Rely

/-!
# Programs seen half way

A program that has come from one point to another in small steps, its calls
answered on the way: what it does from the first point on is what it has done,
and what it does from the second.
-/
namespace Cooperative
namespace Prog
variable {σ ω Call : Type} {Ans : Call → Type} {α : Type} {ans : ∀ c, Ans c}
  {t u : Prog σ ω Call Ans α} {s s' : σ} {l : List (ω ⊕ Call)}

/-- `t` in `s` comes to this point, with this trace. -/
inductive Passage (ans : ∀ c, Ans c) (t : Prog σ ω Call Ans α) (s : σ) :
    List (ω ⊕ Call) → Prog σ ω Call Ans α → σ → Prop
  | refl : Passage ans t s [] t s
  | step {l : List (ω ⊕ Call)} {f : σ → σ × List ω} {k : σ → Prog σ ω Call Ans α} {s' : σ} :
      Passage ans t s l (.step f k) s' →
      Passage ans t s (l ++ (f s').2.map .inl) (k s') (f s').1
  | call {l : List (ω ⊕ Call)} {c : Call} {k : Ans c → Prog σ ω Call Ans α} {s' : σ} :
      Passage ans t s l (.call c k) s' → Passage ans t s (l ++ [.inr c]) (k (ans c)) s'

theorem Passage.exec (h : Passage ans t s l u s') : Prog.exec ans t s = Prog.exec ans u s' := by
  induction h with
  | refl => rfl
  | step _ ih => exact ih
  | call _ ih => exact ih

theorem Passage.trace (h : Passage ans t s l u s') :
    Prog.trace ans t s = l ++ Prog.trace ans u s' := by
  induction h with
  | refl => rfl
  | step _ ih =>
      rw [ih, List.append_assoc]
      rfl
  | call _ ih =>
      rw [ih, List.append_assoc]
      rfl

/-- And on to the next call. -/
theorem Passage.settle (h : Passage ans t s l u s') : Passage ans t s
    (l ++ (u.settle s').2.2.map .inl) (u.settle s').1 (u.settle s').2.1 := by
  induction u generalizing s' l with
  | ret a => simpa [Prog.settle] using h
  | undefined => simpa [Prog.settle] using h
  | starved => simpa [Prog.settle] using h
  | step f k ih =>
      have later := ih s' h.step
      rw [List.append_assoc, ← List.map_append] at later
      exact later
  | call c k ih => simpa [Prog.settle] using h

/-- At its end the program has run as a whole. -/
theorem Passage.ended {a : α} (h : Passage ans t s l (.ret a) s') :
    Prog.exec ans t s = .done (a, s') ∧ Prog.trace ans t s = l :=
  ⟨h.exec, by rw [h.trace, trace_ret, List.append_nil]⟩

/-- While a call waits nothing moves, and this is its answer. -/
def Unmoved (ans : ∀ c, Ans c) : Env σ Call Ans := fun c s a s' => a = ans c ∧ s' = s

/-- What a program guarantees from the first point on it guarantees from the second. -/
theorem Passage.wlp {guar : Guar σ ω Call} {Q : α → σ → List (ω ⊕ Call) → Prop}
    (h : Passage ans t s l u s') (start : Prog.wlp (Unmoved ans) guar t Q s []) :
    Prog.wlp (Unmoved ans) guar u Q s' l := by
  induction h with
  | refl => exact start
  | step _ ih => exact ih
  | call _ ih => exact ih.2 _ _ ⟨rfl, rfl⟩

end Prog
end Cooperative
