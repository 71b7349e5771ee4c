import Battleship.Lib.Twin

/-!
# Two runs that keep pace

A task that comes to the same calls from related memories. Unlike a blind task it
may take other steps on the way and log other things, as long as both runs come to
the same rest and what is seen of their logs is the same.
-/
namespace Cooperative
namespace Prog
variable {σ ω Call : Type} {Ans : Call → Type} {α β : Type}

/-- Two segments that end at the same place of the program, and look the same. -/
structure InStep (E : σ → σ → Prop) (seen : ω → Bool)
    (r₁ r₂ : Prog σ ω Call Ans α × σ × List ω) : Prop where
  rest : r₁.1 = r₂.1
  mem : E r₁.2.1 r₂.2.1
  log : r₁.2.2.filter seen = r₂.2.2.filter seen

/-- A first segment from memories related by `E` leads to memories related by `E'`,
and so does every later one from such memories. -/
inductive KeepsPace (E' : σ → σ → Prop) (seen : ω → Bool) :
    (σ → σ → Prop) → Prog σ ω Call Ans α → Prop
  | intro {E : σ → σ → Prop} {t : Prog σ ω Call Ans α}
      (now : ∀ s₁ s₂, E s₁ s₂ → InStep E' seen (t.settle s₁) (t.settle s₂))
      (later : ∀ s c k, (t.settle s).1 = .call c k → ∀ a, KeepsPace E' seen E' (k a)) :
      KeepsPace E' seen E t

section KeepsPace
variable {E E' : σ → σ → Prop} {seen : ω → Bool} {t : Prog σ ω Call Ans α}

theorem KeepsPace.now (h : KeepsPace E' seen E t) {s₁ s₂ : σ} (related : E s₁ s₂) :
    InStep E' seen (t.settle s₁) (t.settle s₂) := by
  cases h with
  | intro now later => exact now s₁ s₂ related

theorem KeepsPace.later (h : KeepsPace E' seen E t) {s : σ} {c : Call}
    {k : Ans c → Prog σ ω Call Ans α} (waits : (t.settle s).1 = .call c k) (a : Ans c) :
    KeepsPace E' seen E' (k a) := by
  cases h with
  | intro now later => exact later s c k waits a

theorem keepsPace_ret (a : α) : KeepsPace E seen E (.ret a : Prog σ ω Call Ans α) :=
  .intro (fun _ _ related => ⟨rfl, related, rfl⟩) fun _ _ _ waits => by cases waits

theorem keepsPace_undefined : KeepsPace E seen E (.undefined : Prog σ ω Call Ans α) :=
  .intro (fun _ _ related => ⟨rfl, related, rfl⟩) fun _ _ _ waits => by cases waits

theorem keepsPace_starved : KeepsPace E seen E (.starved : Prog σ ω Call Ans α) :=
  .intro (fun _ _ related => ⟨rfl, related, rfl⟩) fun _ _ _ waits => by cases waits

theorem keepsPace_call {c : Call} {k : Ans c → Prog σ ω Call Ans α}
    (hk : ∀ a, KeepsPace E seen E (k a)) : KeepsPace E seen E (.call c k) := by
  refine .intro (fun _ _ related => ⟨rfl, related, rfl⟩) fun _ _ _ waits => ?_
  cases waits
  exact hk

theorem KeepsPace.weaken {E₀ : σ → σ → Prop} (h : KeepsPace E' seen E t)
    (weak : ∀ s₁ s₂, E₀ s₁ s₂ → E s₁ s₂) : KeepsPace E' seen E₀ t :=
  .intro (fun s₁ s₂ related => h.now (weak s₁ s₂ related)) fun _ _ _ => h.later

/-- What is left after a segment goes on as before. -/
theorem KeepsPace.rest (h : KeepsPace E' seen E t) (s : σ) :
    KeepsPace E' seen E' (t.settle s).1 := by
  have later := fun c k => h.later (s := s) (c := c) (k := k)
  have ended := settle_ne_step t s
  generalize (t.settle s).1 = u at later ended
  cases u with
  | ret a => exact keepsPace_ret a
  | undefined => exact keepsPace_undefined
  | starved => exact keepsPace_starved
  | step f k => exact absurd rfl (ended f k)
  | call c k => exact keepsPace_call (later c k rfl)

/-- A blind task keeps pace. -/
theorem Blind.keepsPace (h : Blind E t) : KeepsPace E seen E t := by
  have now : ∀ {u : Prog σ ω Call Ans α}, Blind E u → ∀ s₁ s₂, E s₁ s₂ →
      InStep E seen (u.settle s₁) (u.settle s₂) := fun blind s₁ s₂ related =>
    have ends := blind.settle related
    ⟨ends.rest, ends.mem, congrArg (List.filter seen) ends.log⟩
  have later : ∀ s c k, (t.settle s).1 = .call c k → ∀ a, KeepsPace E seen E (k a) := by
    induction t with
    | step f k ih => exact fun s => ih s (h.2 s) (f s).1
    | call c k ih =>
        intro s c' k' waits a
        cases waits
        exact .intro (now (h a)) fun s c' k' waits => ih a (h a) s c' k' waits
    | _ =>
        intro s c k waits
        cases waits
  exact .intro (now h) later

/-- A sequence runs on from where its first part has come to. -/
theorem settle_bind (t : Prog σ ω Call Ans α) (g : α → Prog σ ω Call Ans β) (s : σ) :
    (t >>= g).settle s = (((t.settle s).1 >>= g).settle (t.settle s).2.1 |>.1,
      ((t.settle s).1 >>= g).settle (t.settle s).2.1 |>.2.1,
      (t.settle s).2.2 ++ (((t.settle s).1 >>= g).settle (t.settle s).2.1).2.2) := by
  induction t generalizing s with
  | step f k ih => simp only [step_bind, settle, ih, List.append_assoc]
  | _ => rfl

theorem KeepsPace.bind {g : α → Prog σ ω Call Ans β} (ht : KeepsPace E' seen E t)
    (hg : ∀ a, KeepsPace E' seen E' (g a)) : KeepsPace E' seen E (t >>= g) := by
  induction ht with
  | @intro E t now later ih =>
      -- what is left of `t`, with `g` after it
      have rest : ∀ s, KeepsPace E' seen E' ((t.settle s).1 >>= g) := by
        intro s
        have waits := ih s
        have ended := settle_ne_step t s
        generalize (t.settle s).1 = u at waits ended
        cases u with
        | ret a => exact hg a
        | undefined => exact keepsPace_undefined
        | starved => exact keepsPace_starved
        | step f k => exact absurd rfl (ended f k)
        | call c k => exact keepsPace_call (waits c k rfl)
      refine .intro (fun s₁ s₂ related => ?_) fun s c k waits => ?_
      · have first := now s₁ s₂ related
        have next := (rest s₁).now first.mem
        rw [settle_bind t g s₁, settle_bind t g s₂, ← first.rest]
        refine ⟨next.rest, next.mem, ?_⟩
        rw [List.filter_append, List.filter_append, first.log, next.log]
      · rw [settle_bind t g s] at waits
        exact (rest s).later waits

theorem KeepsPace.ite {p : Prop} [Decidable p] {u : Prog σ ω Call Ans α}
    (ht : KeepsPace E' seen E t) (hu : KeepsPace E' seen E u) :
    KeepsPace E' seen E (if p then t else u) := by
  split
  · exact ht
  · exact hu

/-- What is read may be used as long as it leads on alike. -/
theorem KeepsPace.get {g : σ → Prog σ ω Call Ans α} (same : ∀ s₁ s₂, E s₁ s₂ → g s₁ = g s₂)
    (hg : ∀ s, KeepsPace E' seen E (g s)) : KeepsPace E' seen E (Prog.get >>= g) := by
  refine .intro (fun s₁ s₂ related => ?_) fun s c k waits a => (hg s).later waits a
  have start : ∀ s, (Prog.get >>= g).settle s = (g s).settle s := fun s => rfl
  rw [start, start, same s₁ s₂ related]
  exact (hg s₂).now related

/-- And a task that ends at once, and logs what is not seen, may use it as it likes. -/
theorem keepsPace_unseen {g : σ → Prog σ ω Call Ans α} {a : α}
    (ends : ∀ s, ∃ log, (g s).settle s = (.ret a, s, log) ∧ log.filter seen = []) :
    KeepsPace E seen E (Prog.get >>= g) := by
  have start : ∀ s, (Prog.get >>= g).settle s = (g s).settle s := fun s => rfl
  refine .intro (fun s₁ s₂ related => ?_) fun s c k waits => ?_
  · obtain ⟨l₁, ended₁, unseen₁⟩ := ends s₁
    obtain ⟨l₂, ended₂, unseen₂⟩ := ends s₂
    rw [start, start, ended₁, ended₂]
    exact ⟨rfl, related, unseen₁.trans unseen₂.symm⟩
  · obtain ⟨l, ended, -⟩ := ends s
    rw [start, ended] at waits
    cases waits

theorem keepsPace_attempt {f : σ → Outcome (α × σ)} (weak : ∀ s₁ s₂, E s₁ s₂ → E' s₁ s₂)
    (keep : ∀ s₁ s₂, E s₁ s₂ → (f s₁).Rel (fun r₁ r₂ => r₁.1 = r₂.1 ∧ E' r₁.2 r₂.2) (f s₂)) :
    KeepsPace E' seen E (attempt f : Prog σ ω Call Ans α) := by
  refine .intro (fun s₁ s₂ related => ?_) fun s c k waits => ?_
  · have kept := keep s₁ s₂ related
    simp only [attempt, settle]
    generalize f s₁ = o₁ at kept
    generalize f s₂ = o₂ at kept
    cases kept with
    | done same => exact ⟨congrArg Prog.ret same.1, same.2, rfl⟩
    | undefined => exact ⟨rfl, weak s₁ s₂ related, rfl⟩
    | starved => exact ⟨rfl, weak s₁ s₂ related, rfl⟩
  · simp only [attempt, settle] at waits
    cases tried : f s <;> rw [tried] at waits <;> cases waits

end KeepsPace

end Prog
end Cooperative
