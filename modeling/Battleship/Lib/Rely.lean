import Battleship.Lib.Prog

/-!
# Tasks among other tasks

A task runs alone between two calls; while it waits, the others may change the
memory. `wlp` runs it with its trace so far: at every call a guarantee must
hold, then the environment answers and moves. What is undefined or starved
promises nothing.
-/
namespace Cooperative
namespace Prog
variable {σ ω Call : Type} {Ans : Call → Type} {α β : Type}

/-- `env c s a s'`: while the call `c` waits in `s`, the others may take the
memory to `s'` and answer `a`. -/
abbrev Env (σ Call : Type) (Ans : Call → Type) := (c : Call) → σ → Ans c → σ → Prop

abbrev Guar (σ ω Call : Type) := Call → σ → List (ω ⊕ Call) → Prop

def wlp (env : Env σ Call Ans) (guar : Guar σ ω Call) :
    Prog σ ω Call Ans α → (α → σ → List (ω ⊕ Call) → Prop) → σ → List (ω ⊕ Call) → Prop
  | .ret a, Q, s, l => Q a s l
  | .undefined, _, _, _ => True
  | .starved, _, _, _ => True
  | .step f k, Q, s, l => wlp env guar (k s) Q (f s).1 (l ++ (f s).2.map .inl)
  | .call c k, Q, s, l =>
      guar c s l ∧ ∀ a s', env c s a s' → wlp env guar (k a) Q s' (l ++ [.inr c])

section Wlp
variable {env : Env σ Call Ans} {guar : Guar σ ω Call}

theorem wlp_bind {t : Prog σ ω Call Ans α} {g : α → Prog σ ω Call Ans β}
    {Q : β → σ → List (ω ⊕ Call) → Prop} {s : σ} {l : List (ω ⊕ Call)} :
    wlp env guar (t >>= g) Q s l ↔
      wlp env guar t (fun a s' l' => wlp env guar (g a) Q s' l') s l := by
  induction t generalizing s l with
  | ret a => rfl
  | undefined => rfl
  | starved => rfl
  | step f k ih => exact ih s
  | call c k ih => exact and_congr_right fun _ => forall₃_congr fun a _ _ => ih a

theorem wlp_mono {t : Prog σ ω Call Ans α} {Q Q' : α → σ → List (ω ⊕ Call) → Prop}
    (imp : ∀ a s l, Q a s l → Q' a s l) {s : σ} {l : List (ω ⊕ Call)}
    (h : wlp env guar t Q s l) : wlp env guar t Q' s l := by
  induction t generalizing s l with
  | ret a => exact imp a s l h
  | undefined => trivial
  | starved => trivial
  | step f k ih => exact ih s h
  | call c k ih => exact ⟨h.1, fun a s' moved => ih a (h.2 a s' moved)⟩

theorem wlp_ite {p : Prop} [Decidable p] {t u : Prog σ ω Call Ans α}
    {Q : α → σ → List (ω ⊕ Call) → Prop} {s : σ} {l : List (ω ⊕ Call)}
    (ht : p → wlp env guar t Q s l) (hu : ¬p → wlp env guar u Q s l) :
    wlp env guar (if p then t else u) Q s l := by
  split
  · exact ht ‹p›
  · exact hu ‹¬p›

@[simp] theorem wlp_ret (a : α) (Q : α → σ → List (ω ⊕ Call) → Prop) (s : σ)
    (l : List (ω ⊕ Call)) : wlp env guar (.ret a) Q s l ↔ Q a s l := .rfl

@[simp] theorem wlp_get (Q : σ → σ → List (ω ⊕ Call) → Prop) (s : σ) (l : List (ω ⊕ Call)) :
    wlp env guar get Q s l ↔ Q s s l := by
  simp [get, wlp]

@[simp] theorem wlp_write (f : σ → σ) (log : List ω) (Q : Unit → σ → List (ω ⊕ Call) → Prop)
    (s : σ) (l : List (ω ⊕ Call)) :
    wlp env guar (write f log) Q s l ↔ Q () (f s) (l ++ log.map .inl) := .rfl

@[simp] theorem wlp_modify (f : σ → σ) (Q : Unit → σ → List (ω ⊕ Call) → Prop) (s : σ)
    (l : List (ω ⊕ Call)) : wlp env guar (modify f) Q s l ↔ Q () (f s) l := by
  simp [modify]

@[simp] theorem wlp_emit (o : ω) (Q : Unit → σ → List (ω ⊕ Call) → Prop) (s : σ)
    (l : List (ω ⊕ Call)) : wlp env guar (emit o) Q s l ↔ Q () s (l ++ [.inl o]) := .rfl

@[simp] theorem wlp_sys (c : Call) (Q : Ans c → σ → List (ω ⊕ Call) → Prop) (s : σ)
    (l : List (ω ⊕ Call)) : wlp env guar (sys c) Q s l ↔
      guar c s l ∧ ∀ a s', env c s a s' → Q a s' (l ++ [.inr c]) := .rfl

theorem wlp_attempt {f : σ → Outcome (α × σ)} {Q : α → σ → List (ω ⊕ Call) → Prop} {s : σ}
    {l : List (ω ⊕ Call)} (h : ∀ a s', f s = .done (a, s') → Q a s' l) :
    wlp env guar (attempt f) Q s l := by
  cases eq : f s with
  | done r => simpa [attempt, wlp, eq] using h r.1 r.2 eq
  | undefined => simp [attempt, wlp, eq]
  | starved => simp [attempt, wlp, eq]

theorem wlp_tryModify {f : σ → Option (α × σ)} {Q : α → σ → List (ω ⊕ Call) → Prop} {s : σ}
    {l : List (ω ⊕ Call)} (h : ∀ a s', f s = some (a, s') → Q a s' l) :
    wlp env guar (tryModify f) Q s l :=
  wlp_attempt fun a s' eq => h a s' (Outcome.ofOption_eq_done eq)

theorem wlp_ofOption {o : Option α} {Q : α → σ → List (ω ⊕ Call) → Prop} {s : σ}
    {l : List (ω ⊕ Call)} (h : ∀ a, o = some a → Q a s l) : wlp env guar (ofOption o) Q s l := by
  cases o with
  | none => trivial
  | some a => exact h a rfl

/-- A guarantee that depends on the call alone. -/
theorem Asks.wlp {P : Call → Prop} {t : Prog σ ω Call Ans α} (asks : Asks P t)
    (wait : ∀ c s l, P c → guar c s l) (s : σ) (l : List (ω ⊕ Call)) :
    Prog.wlp env guar t (fun _ _ _ => True) s l := by
  induction t generalizing s l with
  | ret a => trivial
  | undefined => trivial
  | starved => trivial
  | step f k ih => exact ih s (asks s) _ _
  | call c k ih => exact ⟨wait c s l asks.1, fun a s' _ => ih a (asks.2 a) s' _⟩

/-- Nothing is asked of this task. -/
theorem wlp_true (t : Prog σ ω Call Ans α) (s : σ) (l : List (ω ⊕ Call)) :
    wlp env (fun _ _ _ => True) t (fun _ _ _ => True) s l :=
  (asks_any t).wlp (fun _ _ _ _ => trivial) s l

/-- What every action keeps, and the environment at every call the task makes,
holds throughout. -/
theorem Always.wlp_asks {R : σ → σ × List ω → Prop} {P : Call → Prop}
    {J : σ → List (ω ⊕ Call) → Prop} {t : Prog σ ω Call Ans α} (always : Always R t)
    (asks : Asks P t) (step : ∀ s r l, R s r → J s l → J r.1 (l ++ r.2.map .inl))
    (wait : ∀ c s l, P c → J s l → guar c s l)
    (moved : ∀ c s a s' l, P c → J s l → env c s a s' → J s' (l ++ [.inr c]))
    {s : σ} {l : List (ω ⊕ Call)} (start : J s l) :
    Prog.wlp env guar t (fun _ s' l' => J s' l') s l := by
  induction t generalizing s l with
  | ret a => exact start
  | undefined => trivial
  | starved => trivial
  | step f k ih => exact ih s (always s).2 (asks s) (step _ _ _ (always s).1 start)
  | call c k ih =>
      exact ⟨wait c s l asks.1 start, fun a s' env =>
        ih a (always a) (asks.2 a) (moved c s a s' l asks.1 start env)⟩

/-- What every action keeps, and the environment too, holds throughout. -/
theorem Always.wlp {R : σ → σ × List ω → Prop} {J : σ → List (ω ⊕ Call) → Prop}
    {t : Prog σ ω Call Ans α} (always : Always R t)
    (step : ∀ s r l, R s r → J s l → J r.1 (l ++ r.2.map .inl))
    (wait : ∀ c s l, J s l → guar c s l)
    (moved : ∀ c s a s' l, J s l → env c s a s' → J s' (l ++ [.inr c]))
    {s : σ} {l : List (ω ⊕ Call)} (start : J s l) :
    Prog.wlp env guar t (fun _ s' l' => J s' l') s l :=
  always.wlp_asks (asks_any t) step (fun c s l _ => wait c s l)
    (fun c s a s' l _ => moved c s a s' l) start

/-- Running to the next call keeps the condition, with the longer trace. -/
theorem wlp_settle {t : Prog σ ω Call Ans α} {Q : α → σ → List (ω ⊕ Call) → Prop} {s : σ}
    {l : List (ω ⊕ Call)} (h : wlp env guar t Q s l) :
    wlp env guar (t.settle s).1 Q (t.settle s).2.1 (l ++ (t.settle s).2.2.map .inl) := by
  induction t generalizing s l with
  | ret a => simpa [settle] using h
  | undefined => trivial
  | starved => trivial
  | step f k ih =>
      have rest := ih s h
      simpa only [settle, List.map_append, List.append_assoc] using rest
  | call c k ih => simpa [settle] using h

/-- A waiting task stands a move of the others that the environment allows. -/
theorem wlp_waiting {c : Call} {k : Ans c → Prog σ ω Call Ans α}
    {Q : α → σ → List (ω ⊕ Call) → Prop} {s s' : σ} {l : List (ω ⊕ Call)}
    (guarded : guar c s l → guar c s' l) (before : ∀ a t, env c s' a t → env c s a t)
    (h : wlp env guar (.call c k) Q s l) : wlp env guar (.call c k) Q s' l :=
  ⟨guarded h.1, fun a t moved => h.2 a t (before a t moved)⟩

end Wlp

end Prog
end Cooperative
