import Battleship.Lib.Prog

/-!
# Two runs of one task

A task is blind to a relation on memories when, from related memories, each of
its actions logs the same, leads on alike and ends in related memories. It may
also be blind up to a condition on the memories at the next call: then the two
runs may part between two calls, and meet again where the condition holds.
-/
namespace Cooperative

/-- Both computations give a result in the relation, or both stop alike. -/
inductive Outcome.Rel {α β : Type} (R : α → β → Prop) : Outcome α → Outcome β → Prop
  | done {a : α} {b : β} : R a b → Rel R (.done a) (.done b)
  | undefined : Rel R .undefined .undefined
  | starved : Rel R .starved .starved

theorem Outcome.Rel.ofOption {α β : Type} {R : α → β → Prop} {o : Option α} {o' : Option β}
    (h : Option.Rel R o o') : Rel R (.ofOption o) (.ofOption o') := by
  cases h with
  | some related => exact .done related
  | none => exact .undefined

namespace Prog
variable {σ ω Call : Type} {Ans : Call → Type} {α β : Type}

def Blind (E : σ → σ → Prop) : Prog σ ω Call Ans α → Prop
  | .ret _ => True
  | .undefined => True
  | .starved => True
  | .step f k => (∀ s₁ s₂, E s₁ s₂ → k s₁ = k s₂ ∧ E (f s₁).1 (f s₂).1 ∧ (f s₁).2 = (f s₂).2) ∧
      ∀ s, Blind E (k s)
  | .call _ k => ∀ a, Blind E (k a)

section Blind
variable {E : σ → σ → Prop}

theorem Blind.bind {t : Prog σ ω Call Ans α} {g : α → Prog σ ω Call Ans β} (ht : Blind E t)
    (hg : ∀ a, Blind E (g a)) : Blind E (t >>= g) := by
  induction t with
  | ret a => exact hg a
  | undefined => trivial
  | starved => trivial
  | step f k ih =>
      refine ⟨fun s₁ s₂ related => ?_, fun s => ih s (ht.2 s)⟩
      obtain ⟨rest, after, said⟩ := ht.1 s₁ s₂ related
      exact ⟨congrArg (· >>= g) rest, after, said⟩
  | call c k ih => exact fun a => ih a (ht a)

theorem Blind.ite {p : Prop} [Decidable p] {t u : Prog σ ω Call Ans α} (ht : Blind E t)
    (hu : Blind E u) : Blind E (if p then t else u) := by
  split
  · exact ht
  · exact hu

theorem blind_ret (a : α) : Blind E (.ret a : Prog σ ω Call Ans α) := trivial

theorem blind_undefined : Blind E (.undefined : Prog σ ω Call Ans α) := trivial

theorem blind_write {f : σ → σ} (log : List ω) (keep : ∀ s₁ s₂, E s₁ s₂ → E (f s₁) (f s₂)) :
    Blind E (write f log : Prog σ ω Call Ans Unit) :=
  ⟨fun s₁ s₂ related => ⟨rfl, keep s₁ s₂ related, rfl⟩, fun _ => trivial⟩

/-- What is read from related memories may be used as long as it leads on alike. -/
theorem Blind.get {g : σ → Prog σ ω Call Ans α} (same : ∀ s₁ s₂, E s₁ s₂ → g s₁ = g s₂)
    (hg : ∀ s, Blind E (g s)) : Blind E (get >>= g) :=
  ⟨fun s₁ s₂ related => ⟨same s₁ s₂ related, related, rfl⟩, hg⟩

theorem blind_sys (c : Call) : Blind E (sys c : Prog σ ω Call Ans (Ans c)) := fun _ => trivial

theorem blind_ofOption (o : Option α) : Blind E (ofOption o : Prog σ ω Call Ans α) := by
  cases o with
  | none => exact blind_undefined
  | some a => exact blind_ret a

theorem blind_attempt {f : σ → Outcome (α × σ)}
    (keep : ∀ s₁ s₂, E s₁ s₂ → (f s₁).Rel (fun r₁ r₂ => r₁.1 = r₂.1 ∧ E r₁.2 r₂.2) (f s₂)) :
    Blind E (attempt f : Prog σ ω Call Ans α) := by
  constructor
  · intro s₁ s₂ related
    have kept := keep s₁ s₂ related
    beta_reduce
    generalize f s₁ = o₁ at kept
    generalize f s₂ = o₂ at kept
    cases kept with
    | done same => exact ⟨congrArg Prog.ret same.1, same.2, rfl⟩
    | undefined => exact ⟨rfl, related, rfl⟩
    | starved => exact ⟨rfl, related, rfl⟩
  · intro s
    beta_reduce
    cases f s <;> trivial

theorem blind_tryModify {f : σ → Option (α × σ)}
    (keep : ∀ s₁ s₂, E s₁ s₂ → Option.Rel (fun r₁ r₂ => r₁.1 = r₂.1 ∧ E r₁.2 r₂.2) (f s₁) (f s₂)) :
    Blind E (tryModify f : Prog σ ω Call Ans α) :=
  blind_attempt fun s₁ s₂ related => .ofOption (keep s₁ s₂ related)

end Blind

/-- Two segments that end at the same place of the program with the same log. -/
structure Matched (E : σ → σ → Prop) (r₁ r₂ : Prog σ ω Call Ans α × σ × List ω) : Prop where
  rest : r₁.1 = r₂.1
  mem : E r₁.2.1 r₂.2.1
  log : r₁.2.2 = r₂.2.2

theorem Blind.settle {E : σ → σ → Prop} {t : Prog σ ω Call Ans α} (h : Blind E t) {s₁ s₂ : σ}
    (related : E s₁ s₂) : Matched E (t.settle s₁) (t.settle s₂) := by
  induction t generalizing s₁ s₂ with
  | ret a => exact ⟨rfl, related, rfl⟩
  | undefined => exact ⟨rfl, related, rfl⟩
  | starved => exact ⟨rfl, related, rfl⟩
  | step f k ih =>
      obtain ⟨same, after, said⟩ := h.1 s₁ s₂ related
      have later := ih s₂ (h.2 s₂) after
      simp only [Prog.settle, same, said]
      exact ⟨later.rest, later.mem, congrArg ((f s₂).2 ++ ·) later.log⟩
  | call c k ih => exact ⟨rfl, related, rfl⟩

theorem Blind.rest {E : σ → σ → Prop} {t : Prog σ ω Call Ans α} (h : Blind E t) (s : σ) :
    Blind E (t.settle s).1 := by
  induction t generalizing s with
  | ret a => trivial
  | undefined => trivial
  | starved => trivial
  | step f k ih => exact ih s (h.2 s) (f s).1
  | call c k ih => exact h

/-- `E` holds where a segment starts. If `H` holds where it ends, the ends match
with `E'`. -/
inductive BlindUpTo (E E' H : σ → σ → Prop) : Prog σ ω Call Ans α → Prop
  | intro {t : Prog σ ω Call Ans α}
      (now : ∀ s₁ s₂, E s₁ s₂ → H (t.settle s₁).2.1 (t.settle s₂).2.1 →
        Matched E' (t.settle s₁) (t.settle s₂))
      (later : ∀ s₁ s₂ c k, E s₁ s₂ → (t.settle s₁).1 = .call c k →
        ∀ a, BlindUpTo E E' H (k a)) : BlindUpTo E E' H t

section BlindUpTo
variable {E E' H : σ → σ → Prop} {t : Prog σ ω Call Ans α}

theorem BlindUpTo.now (h : BlindUpTo E E' H t) {s₁ s₂ : σ} (related : E s₁ s₂)
    (shown : H (t.settle s₁).2.1 (t.settle s₂).2.1) :
    Matched E' (t.settle s₁) (t.settle s₂) := by
  cases h with
  | intro now later => exact now s₁ s₂ related shown

theorem BlindUpTo.later (h : BlindUpTo E E' H t) {s₁ s₂ : σ} (related : E s₁ s₂) {c : Call}
    {k : Ans c → Prog σ ω Call Ans α} (waits : (t.settle s₁).1 = .call c k) (a : Ans c) :
    BlindUpTo E E' H (k a) := by
  cases h with
  | intro now later => exact later s₁ s₂ c k related waits a

theorem BlindUpTo.rest (weak : ∀ s₁ s₂, E s₁ s₂ → E' s₁ s₂) (h : BlindUpTo E E' H t) {s₁ s₂ : σ}
    (related : E s₁ s₂) : BlindUpTo E E' H (t.settle s₁).1 := by
  have later := fun c k => h.later related (c := c) (k := k)
  have ended := settle_ne_step t s₁
  generalize (t.settle s₁).1 = u at later ended
  cases u with
  | step f k => exact absurd rfl (ended f k)
  | call c k =>
      refine .intro (fun s₁ s₂ related _ => ⟨rfl, weak s₁ s₂ related, rfl⟩)
        fun s₁ s₂ c' k' _ waits => ?_
      cases waits
      exact later c k rfl
  | _ =>
      exact .intro (fun s₁ s₂ related _ => ⟨rfl, weak s₁ s₂ related, rfl⟩)
        fun _ _ _ _ _ waits => by cases waits

theorem BlindUpTo.ite {p : Prop} [Decidable p] {u : Prog σ ω Call Ans α}
    (ht : BlindUpTo E E' H t) (hu : BlindUpTo E E' H u) :
    BlindUpTo E E' H (if p then t else u) := by
  split
  · exact ht
  · exact hu

/-- What goes before is blind. -/
theorem BlindUpTo.after (weak : ∀ s₁ s₂, E s₁ s₂ → E' s₁ s₂) {g : α → Prog σ ω Call Ans β}
    (ht : Blind E t) (hg : ∀ a, BlindUpTo E E' H (g a)) : BlindUpTo E E' H (t >>= g) := by
  induction t with
  | ret a => exact hg a
  | undefined =>
      exact .intro (fun s₁ s₂ related _ => ⟨rfl, weak s₁ s₂ related, rfl⟩)
        fun _ _ _ _ _ waits => by cases waits
  | starved =>
      exact .intro (fun s₁ s₂ related _ => ⟨rfl, weak s₁ s₂ related, rfl⟩)
        fun _ _ _ _ _ waits => by cases waits
  | step f k ih =>
      refine .intro (fun s₁ s₂ related shown => ?_) fun s₁ s₂ c k' related waits => ?_
      · obtain ⟨same, after, said⟩ := ht.1 s₁ s₂ related
        simp only [step_bind, Prog.settle, same, said] at shown ⊢
        have later := (ih s₂ (ht.2 s₂)).now after shown
        exact ⟨later.rest, later.mem, congrArg ((f s₂).2 ++ ·) later.log⟩
      · exact (ih s₁ (ht.2 s₁)).later (ht.1 s₁ s₂ related).2.1 waits
  | call c k ih =>
      refine .intro (fun s₁ s₂ related _ => ⟨rfl, weak s₁ s₂ related, rfl⟩)
        fun s₁ s₂ c' k' related waits => ?_
      cases waits
      exact fun a => ih a (ht a)

theorem BlindUpTo.get {g : σ → Prog σ ω Call Ans α} (same : ∀ s₁ s₂, E s₁ s₂ → g s₁ = g s₂)
    (hg : ∀ s, BlindUpTo E E' H (g s)) : BlindUpTo E E' H (get >>= g) := by
  refine .intro (fun s₁ s₂ related shown => ?_) fun s₁ s₂ c k related waits => ?_
  · have start : ∀ s, (Prog.get >>= g).settle s = (g s).settle s := fun s => rfl
    rw [start, start, same s₁ s₂ related] at *
    exact (hg s₂).now related shown
  · exact (hg s₁).later related waits

end BlindUpTo

/-- A blind task needs no condition. -/
theorem Blind.upTo {E F E' H : σ → σ → Prop} {t : Prog σ ω Call Ans α} (h : Blind F t)
    (before : ∀ s₁ s₂, E s₁ s₂ → F s₁ s₂) (after : ∀ s₁ s₂, F s₁ s₂ → E' s₁ s₂) :
    BlindUpTo E E' H t := by
  have now : ∀ {u : Prog σ ω Call Ans α}, Blind F u → ∀ s₁ s₂, E s₁ s₂ →
      Matched E' (u.settle s₁) (u.settle s₂) := by
    intro u blind s₁ s₂ related
    have ends := blind.settle (before s₁ s₂ related)
    exact ⟨ends.rest, after _ _ ends.mem, ends.log⟩
  have later : ∀ s c k, (t.settle s).1 = .call c k → ∀ a, BlindUpTo E E' H (k a) := by
    induction t with
    | step f k ih => exact fun s => ih s (h.2 s) (f s).1
    | call c k ih =>
        intro s c' k' waits a
        cases waits
        exact .intro (fun s₁ s₂ related _ => now (h a) s₁ s₂ related)
          fun s₁ s₂ c' k' _ waits => ih a (h a) s₁ c' k' waits
    | _ =>
        intro s c k waits
        cases waits
  exact .intro (fun s₁ s₂ related _ => now h s₁ s₂ related)
    fun s₁ s₂ c k _ waits => later s₁ c k waits

/-- How a part without calls may end in two runs: both in undefined behaviour, or
both at their end, and there alike if `H` holds. -/
inductive Parts (E' H : σ → σ → Prop) :
    Prog σ ω Call Ans α × σ × List ω → Prog σ ω Call Ans α × σ × List ω → Prop
  | undefined {s₁ s₂ : σ} {log : List ω} : E' s₁ s₂ →
      Parts E' H (.undefined, s₁, log) (.undefined, s₂, log)
  | ret {a₁ a₂ : α} {s₁ s₂ : σ} {l₁ l₂ : List ω} :
      (H s₁ s₂ → a₁ = a₂ ∧ E' s₁ s₂ ∧ l₁ = l₂) → Parts E' H (.ret a₁, s₁, l₁) (.ret a₂, s₂, l₂)

/-- The runs part in `t`; the rest of the segment keeps what `H` looks at. -/
theorem BlindUpTo.bind {E E' H : σ → σ → Prop} {t : Prog σ ω Call Ans α}
    {g : α → Prog σ ω Call Ans β} (weak : ∀ s₁ s₂, E s₁ s₂ → E' s₁ s₂)
    (ht : ∀ s₁ s₂, E s₁ s₂ → Parts E' H (t.settle s₁) (t.settle s₂))
    (hg : ∀ a, Blind E' (g a))
    (keep : ∀ a₁ a₂ s₁ s₂, H ((g a₁).settle s₁).2.1 ((g a₂).settle s₂).2.1 → H s₁ s₂) :
    BlindUpTo E E' H (t >>= g) := by
  refine .intro (fun s₁ s₂ related shown => ?_) fun s₁ s₂ c k related waits b => ?_
  · have parts := ht s₁ s₂ related
    generalize first₁ : t.settle s₁ = r₁ at parts
    generalize first₂ : t.settle s₂ = r₂ at parts
    cases parts with
    | undefined after =>
        rw [settle_bind_of_undefined first₁, settle_bind_of_undefined first₂]
        exact ⟨rfl, after, rfl⟩
    | @ret a₁ _ m₁ _ log _ alike =>
        rw [settle_bind_of_ret first₁, settle_bind_of_ret first₂] at shown ⊢
        obtain ⟨rfl, after, rfl⟩ := alike (keep _ _ _ _ shown)
        have later := (hg a₁).settle after
        exact ⟨later.rest, later.mem, congrArg (log ++ ·) later.log⟩
  · have parts := ht s₁ s₂ related
    generalize first₁ : t.settle s₁ = r₁ at parts
    generalize first₂ : t.settle s₂ = r₂ at parts
    cases parts with
    | undefined after =>
        rw [settle_bind_of_undefined first₁] at waits
        cases waits
    | @ret a₁ _ m₁ _ _ _ alike =>
        rw [settle_bind_of_ret first₁] at waits
        have rest := (hg a₁).rest m₁
        rw [waits] at rest
        exact (rest b).upTo weak fun _ _ h => h

end Prog
end Cooperative
