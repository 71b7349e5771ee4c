import Mathlib.Data.List.Basic
import Mathlib.Tactic.Common

/-!
# Tasks over a shared memory

A program is a tree of atomic memory actions and system calls. The same tree has
two readings: `exec` runs it to its end with every call answered at once, and
`settle` runs it to its next call, which is where a scheduler may switch.
Undefined behaviour and an exhausted search are separate ways to stop.
-/
namespace Cooperative

/-- How a computation ends: with a value, in undefined behaviour, or with its
search budget spent. -/
inductive Outcome (α : Type) where
  | done (a : α)
  | undefined
  | starved
  deriving DecidableEq

namespace Outcome
variable {α β : Type}

def bind : Outcome α → (α → Outcome β) → Outcome β
  | .done a, f => f a
  | .undefined, _ => .undefined
  | .starved, _ => .starved

/-- A missing value of a checked memory access is undefined behaviour. -/
def ofOption : Option α → Outcome α
  | some a => .done a
  | none => .undefined

@[simp] theorem bind_done (a : α) (f : α → Outcome β) : (Outcome.done a).bind f = f a := rfl

@[simp] theorem bind_undefined (f : α → Outcome β) : Outcome.undefined.bind f = .undefined := rfl

@[simp] theorem bind_starved (f : α → Outcome β) : Outcome.starved.bind f = .starved := rfl

@[simp] theorem ofOption_some (a : α) : ofOption (some a) = .done a := rfl

@[simp] theorem ofOption_none : ofOption (none : Option α) = .undefined := rfl

theorem bind_eq_done {o : Outcome α} {f : α → Outcome β} {b : β} (h : o.bind f = .done b) :
    ∃ a, o = .done a ∧ f a = .done b := by
  cases o with
  | done a => exact ⟨a, rfl, h⟩
  | undefined => cases h
  | starved => cases h

theorem ofOption_eq_done {o : Option α} {a : α} (h : ofOption o = .done a) : o = some a := by
  cases o with
  | none => cases h
  | some b =>
      cases h
      rfl

theorem bind_assoc {γ : Type} (o : Outcome α) (f : α → Outcome β) (g : β → Outcome γ) :
    (o.bind f).bind g = o.bind (fun a => (f a).bind g) := by
  cases o <;> rfl

end Outcome

/-- `step f k` is one atomic action: `f` gives the new memory and what is
logged with it, `k` reads the old memory to choose the rest. -/
inductive Prog (σ ω Call : Type) (Ans : Call → Type) (α : Type) where
  | ret (a : α)
  | undefined
  | starved
  | step (f : σ → σ × List ω) (k : σ → Prog σ ω Call Ans α)
  | call (c : Call) (k : Ans c → Prog σ ω Call Ans α)

namespace Prog
variable {σ ω Call : Type} {Ans : Call → Type} {α β γ : Type}

def bind : Prog σ ω Call Ans α → (α → Prog σ ω Call Ans β) → Prog σ ω Call Ans β
  | .ret a, g => g a
  | .undefined, _ => .undefined
  | .starved, _ => .starved
  | .step f k, g => .step f (fun s => (k s).bind g)
  | .call c k, g => .call c (fun a => (k a).bind g)

instance : Monad (Prog σ ω Call Ans) where
  pure := .ret
  bind := Prog.bind

@[simp] theorem pure_eq (a : α) : (pure a : Prog σ ω Call Ans α) = .ret a := rfl

@[simp] theorem ret_bind (a : α) (g : α → Prog σ ω Call Ans β) :
    (Prog.ret a >>= g) = g a := rfl

@[simp] theorem undefined_bind (g : α → Prog σ ω Call Ans β) :
    ((Prog.undefined : Prog σ ω Call Ans α) >>= g) = .undefined := rfl

@[simp] theorem starved_bind (g : α → Prog σ ω Call Ans β) :
    ((Prog.starved : Prog σ ω Call Ans α) >>= g) = .starved := rfl

@[simp] theorem step_bind (f : σ → σ × List ω) (k : σ → Prog σ ω Call Ans α)
    (g : α → Prog σ ω Call Ans β) :
    (Prog.step f k >>= g) = .step f (fun s => k s >>= g) := rfl

@[simp] theorem call_bind (c : Call) (k : Ans c → Prog σ ω Call Ans α)
    (g : α → Prog σ ω Call Ans β) :
    (Prog.call c k >>= g) = .call c (fun a => k a >>= g) := rfl

theorem bind_assoc (t : Prog σ ω Call Ans α) (f : α → Prog σ ω Call Ans β)
    (g : β → Prog σ ω Call Ans γ) : (t >>= f) >>= g = t >>= fun a => f a >>= g := by
  induction t with
  | ret a => rfl
  | undefined => rfl
  | starved => rfl
  | step f' k ih => exact congrArg (Prog.step f') (funext ih)
  | call c k ih => exact congrArg (Prog.call c) (funext ih)

theorem bind_ret (t : Prog σ ω Call Ans α) : t >>= .ret = t := by
  induction t with
  | ret a => rfl
  | undefined => rfl
  | starved => rfl
  | step f k ih => exact congrArg (Prog.step f) (funext ih)
  | call c k ih => exact congrArg (Prog.call c) (funext ih)

theorem ite_bind (p : Prop) [Decidable p] (t u : Prog σ ω Call Ans α)
    (g : α → Prog σ ω Call Ans β) :
    ((if p then t else u) >>= g) = if p then t >>= g else u >>= g := by
  split <;> rfl

/-- Read the memory. -/
def get : Prog σ ω Call Ans σ := .step (fun s => (s, [])) .ret

/-- One write, atomic with what it logs. -/
def write (f : σ → σ) (log : List ω) : Prog σ ω Call Ans Unit :=
  .step (fun s => (f s, log)) (fun _ => .ret ())

def modify (f : σ → σ) : Prog σ ω Call Ans Unit := write f []

def emit (o : ω) : Prog σ ω Call Ans Unit := write id [o]

/-- An atomic action that may stop. -/
def attempt (f : σ → Outcome (α × σ)) : Prog σ ω Call Ans α :=
  .step
    (fun s => (match f s with
      | .done r => r.2
      | .undefined => s
      | .starved => s, []))
    (fun s => match f s with
      | .done r => .ret r.1
      | .undefined => .undefined
      | .starved => .starved)

/-- An atomic action that may be undefined behaviour. -/
def tryModify (f : σ → Option (α × σ)) : Prog σ ω Call Ans α :=
  attempt (fun s => .ofOption (f s))

def sys (c : Call) : Prog σ ω Call Ans (Ans c) := .call c .ret

def ofOption : Option α → Prog σ ω Call Ans α
  | some a => .ret a
  | none => .undefined

/-- The call a program is waiting at. -/
def pending : Prog σ ω Call Ans α → Option Call
  | .call c _ => some c
  | _ => none

@[simp] theorem pending_call (c : Call) (k : Ans c → Prog σ ω Call Ans α) :
    (Prog.call c k).pending = some c := rfl

theorem pending_eq_some {t : Prog σ ω Call Ans α} {c : Call} (h : t.pending = some c) :
    ∃ k, t = .call c k := by
  cases t with
  | call c' k =>
      cases h
      exact ⟨k, rfl⟩
  | ret a => cases h
  | undefined => cases h
  | starved => cases h
  | step f k => cases h

/-- Runs the whole task; `ans` answers every call at once. -/
def exec (ans : ∀ c, Ans c) : Prog σ ω Call Ans α → σ → Outcome (α × σ)
  | .ret a, s => .done (a, s)
  | .undefined, _ => .undefined
  | .starved, _ => .starved
  | .step f k, s => exec ans (k s) (f s).1
  | .call c k, s => exec ans (k (ans c)) s

/-- Everything the task logs and every call it makes, in order, also when it
does not end with a value. -/
def trace (ans : ∀ c, Ans c) : Prog σ ω Call Ans α → σ → List (ω ⊕ Call)
  | .ret _, _ => []
  | .undefined, _ => []
  | .starved, _ => []
  | .step f k, s => (f s).2.map .inl ++ trace ans (k s) (f s).1
  | .call c k, s => .inr c :: trace ans (k (ans c)) s

section Exec
variable (ans : ∀ c, Ans c)

@[simp] theorem exec_ret (a : α) (s : σ) :
    exec ans (.ret a : Prog σ ω Call Ans α) s = .done (a, s) := rfl

@[simp] theorem exec_undefined (s : σ) :
    exec ans (.undefined : Prog σ ω Call Ans α) s = .undefined := rfl

@[simp] theorem exec_starved (s : σ) :
    exec ans (.starved : Prog σ ω Call Ans α) s = .starved := rfl

@[simp] theorem exec_bind (t : Prog σ ω Call Ans α) (g : α → Prog σ ω Call Ans β) (s : σ) :
    exec ans (t >>= g) s = (exec ans t s).bind (fun r => exec ans (g r.1) r.2) := by
  induction t generalizing s with
  | ret a => rfl
  | undefined => rfl
  | starved => rfl
  | step f k ih => exact ih s (f s).1
  | call c k ih => exact ih (ans c) s

@[simp] theorem exec_get (s : σ) :
    exec ans (get : Prog σ ω Call Ans σ) s = .done (s, s) := rfl

@[simp] theorem exec_write (f : σ → σ) (log : List ω) (s : σ) :
    exec ans (write f log : Prog σ ω Call Ans Unit) s = .done ((), f s) := rfl

@[simp] theorem exec_modify (f : σ → σ) (s : σ) :
    exec ans (modify f : Prog σ ω Call Ans Unit) s = .done ((), f s) := rfl

@[simp] theorem exec_emit (o : ω) (s : σ) :
    exec ans (emit o : Prog σ ω Call Ans Unit) s = .done ((), s) := rfl

@[simp] theorem exec_attempt (f : σ → Outcome (α × σ)) (s : σ) :
    exec ans (attempt f : Prog σ ω Call Ans α) s = f s := by
  simp only [attempt, exec]
  cases f s <;> rfl

@[simp] theorem exec_tryModify (f : σ → Option (α × σ)) (s : σ) :
    exec ans (tryModify f : Prog σ ω Call Ans α) s = .ofOption (f s) :=
  exec_attempt ans _ s

@[simp] theorem exec_sys (c : Call) (s : σ) :
    exec ans (sys c : Prog σ ω Call Ans (Ans c)) s = .done (ans c, s) := rfl

@[simp] theorem exec_ofOption (o : Option α) (s : σ) :
    exec ans (ofOption o : Prog σ ω Call Ans α) s = .ofOption (o.map (fun a => (a, s))) := by
  cases o <;> rfl

@[simp] theorem trace_ret (a : α) (s : σ) :
    trace ans (.ret a : Prog σ ω Call Ans α) s = [] := rfl

@[simp] theorem trace_undefined (s : σ) :
    trace ans (.undefined : Prog σ ω Call Ans α) s = [] := rfl

/-- What the rest of a sequence logs after its first part. -/
def traceAfter (g : α → Prog σ ω Call Ans β) : Outcome (α × σ) → List (ω ⊕ Call)
  | .done r => trace ans (g r.1) r.2
  | .undefined => []
  | .starved => []

@[simp] theorem traceAfter_done (g : α → Prog σ ω Call Ans β) (r : α × σ) :
    traceAfter ans g (.done r) = trace ans (g r.1) r.2 := rfl

@[simp] theorem traceAfter_undefined (g : α → Prog σ ω Call Ans β) :
    traceAfter ans g (.undefined : Outcome (α × σ)) = [] := rfl

@[simp] theorem traceAfter_starved (g : α → Prog σ ω Call Ans β) :
    traceAfter ans g (.starved : Outcome (α × σ)) = [] := rfl

@[simp] theorem trace_bind (t : Prog σ ω Call Ans α) (g : α → Prog σ ω Call Ans β) (s : σ) :
    trace ans (t >>= g) s = trace ans t s ++ traceAfter ans g (exec ans t s) := by
  induction t generalizing s with
  | ret a => rfl
  | undefined => rfl
  | starved => rfl
  | step f k ih =>
      simp only [step_bind, trace, exec, ih, List.append_assoc]
  | call c k ih =>
      simp only [call_bind, trace, exec, ih, List.cons_append]

@[simp] theorem trace_get (s : σ) : trace ans (get : Prog σ ω Call Ans σ) s = [] := rfl

@[simp] theorem trace_write (f : σ → σ) (log : List ω) (s : σ) :
    trace ans (write f log : Prog σ ω Call Ans Unit) s = log.map .inl := by
  simp only [write, trace, List.append_nil]

@[simp] theorem trace_modify (f : σ → σ) (s : σ) :
    trace ans (modify f : Prog σ ω Call Ans Unit) s = [] := rfl

@[simp] theorem trace_emit (o : ω) (s : σ) :
    trace ans (emit o : Prog σ ω Call Ans Unit) s = [.inl o] := rfl

@[simp] theorem trace_sys (c : Call) (s : σ) :
    trace ans (sys c : Prog σ ω Call Ans (Ans c)) s = [.inr c] := rfl

@[simp] theorem trace_attempt (f : σ → Outcome (α × σ)) (s : σ) :
    trace ans (attempt f : Prog σ ω Call Ans α) s = [] := by
  simp only [attempt, trace, List.map_nil, List.nil_append]
  cases f s <;> rfl

@[simp] theorem trace_tryModify (f : σ → Option (α × σ)) (s : σ) :
    trace ans (tryModify f : Prog σ ω Call Ans α) s = [] :=
  trace_attempt ans _ s

@[simp] theorem trace_ofOption (o : Option α) (s : σ) :
    trace ans (ofOption o : Prog σ ω Call Ans α) s = [] := by
  cases o <;> rfl

end Exec

/-- Runs to the next call (or the end): the rest, the memory, and the log. -/
def settle : Prog σ ω Call Ans α → σ → Prog σ ω Call Ans α × σ × List ω
  | .ret a, s => (.ret a, s, [])
  | .undefined, s => (.undefined, s, [])
  | .starved, s => (.starved, s, [])
  | .step f k, s =>
      let r := settle (k s) (f s).1
      (r.1, r.2.1, (f s).2 ++ r.2.2)
  | .call c k, s => (.call c k, s, [])

/-- A part that runs to its end hands over to the rest in the same segment. -/
theorem settle_bind_of_ret {t : Prog σ ω Call Ans α} {g : α → Prog σ ω Call Ans β} {s s' : σ}
    {a : α} {log : List ω} (h : t.settle s = (.ret a, s', log)) :
    (t >>= g).settle s =
      (((g a).settle s').1, ((g a).settle s').2.1, log ++ ((g a).settle s').2.2) := by
  induction t generalizing s log with
  | ret b =>
      cases h
      rfl
  | undefined => cases h
  | starved => cases h
  | step f k ih =>
      simp only [settle, Prod.mk.injEq] at h
      obtain ⟨rest, mem, rfl⟩ := h
      have later := ih s (s := (f s).1) (Prod.ext rest (Prod.ext mem rfl))
      simp only [step_bind, settle, later, List.append_assoc]
  | call c k ih => cases h

theorem settle_bind_of_undefined {t : Prog σ ω Call Ans α} {g : α → Prog σ ω Call Ans β}
    {s s' : σ} {log : List ω} (h : t.settle s = (.undefined, s', log)) :
    (t >>= g).settle s = (.undefined, s', log) := by
  induction t generalizing s log with
  | ret b => cases h
  | undefined =>
      cases h
      rfl
  | starved => cases h
  | step f k ih =>
      simp only [settle, Prod.mk.injEq] at h
      obtain ⟨rest, mem, rfl⟩ := h
      have later := ih s (s := (f s).1) (Prod.ext rest (Prod.ext mem rfl))
      simp only [step_bind, settle, later]
  | call c k ih => cases h

/-- A part that makes no call runs to its end in one segment. -/
theorem settle_of_exec {ans : ∀ c, Ans c} {t : Prog σ ω Call Ans α} {s s' : σ} {a : α}
    {log : List ω} (ran : exec ans t s = .done (a, s')) (said : trace ans t s = log.map .inl) :
    t.settle s = (.ret a, s', log) := by
  induction t generalizing s log with
  | ret b =>
      cases ran
      rw [List.map_eq_nil_iff.mp said.symm]
      rfl
  | undefined => cases ran
  | starved => cases ran
  | step f k ih =>
      obtain ⟨first, later, rfl, firsts, laters⟩ := List.map_eq_append_iff.mp said.symm
      obtain rfl := List.map_injective_iff.mpr (fun _ _ => Sum.inl.inj) firsts
      rw [settle, ih s ran laters.symm]
  | call c k ih =>
      cases log with
      | nil => cases said
      | cons o log => cases said

theorem settle_ne_step (t : Prog σ ω Call Ans α) (s : σ) (f : σ → σ × List ω)
    (k : σ → Prog σ ω Call Ans α) : (t.settle s).1 ≠ .step f k := by
  induction t generalizing s with
  | ret a => simp [settle]
  | undefined => simp [settle]
  | starved => simp [settle]
  | step f' k' ih => exact ih s (f' s).1
  | call c k' ih => simp [settle]

/-- Every action takes each memory to a result in `R`, whatever is answered. -/
def Always (R : σ → σ × List ω → Prop) : Prog σ ω Call Ans α → Prop
  | .ret _ => True
  | .undefined => True
  | .starved => True
  | .step f k => ∀ s, R s (f s) ∧ Always R (k s)
  | .call _ k => ∀ a, Always R (k a)

section Always
variable {R R' : σ → σ × List ω → Prop}

theorem Always.bind {t : Prog σ ω Call Ans α} {g : α → Prog σ ω Call Ans β}
    (ht : Always R t) (hg : ∀ a, Always R (g a)) : Always R (t >>= g) := by
  induction t with
  | ret a => exact hg a
  | undefined => trivial
  | starved => trivial
  | step f k ih => exact fun s => ⟨(ht s).1, ih s (ht s).2⟩
  | call c k ih => exact fun a => ih a (ht a)

theorem Always.mono {t : Prog σ ω Call Ans α} (imp : ∀ s r, R s r → R' s r)
    (ht : Always R t) : Always R' t := by
  induction t with
  | ret a => trivial
  | undefined => trivial
  | starved => trivial
  | step f k ih => exact fun s => ⟨imp _ _ (ht s).1, ih s (ht s).2⟩
  | call c k ih => exact fun a => ih a (ht a)

theorem Always.ite {p : Prop} [Decidable p] {t u : Prog σ ω Call Ans α}
    (ht : Always R t) (hu : Always R u) : Always R (if p then t else u) := by
  split
  · exact ht
  · exact hu

theorem always_write {f : σ → σ} {log : List ω} (h : ∀ s, R s (f s, log)) :
    Always R (write f log : Prog σ ω Call Ans Unit) := fun s => ⟨h s, trivial⟩

theorem always_get (h : ∀ s, R s (s, [])) : Always R (get : Prog σ ω Call Ans σ) :=
  fun s => ⟨h s, trivial⟩

theorem always_sys (c : Call) : Always R (sys c : Prog σ ω Call Ans (Ans c)) := fun _ => trivial

theorem always_ofOption (o : Option α) : Always R (ofOption o : Prog σ ω Call Ans α) := by
  cases o <;> trivial

theorem always_attempt {f : σ → Outcome (α × σ)} (stay : ∀ s, R s (s, []))
    (h : ∀ s r, f s = .done r → R s (r.2, [])) :
    Always R (attempt f : Prog σ ω Call Ans α) := by
  intro s
  cases eq : f s with
  | done r =>
      simp only [eq]
      exact ⟨h s r eq, trivial⟩
  | undefined =>
      simp only [eq]
      exact ⟨stay s, trivial⟩
  | starved =>
      simp only [eq]
      exact ⟨stay s, trivial⟩

theorem always_tryModify {f : σ → Option (α × σ)} (stay : ∀ s, R s (s, []))
    (h : ∀ s r, f s = some r → R s (r.2, [])) :
    Always R (tryModify f : Prog σ ω Call Ans α) := by
  apply always_attempt stay
  intro s r eq
  apply h
  cases hf : f s with
  | none =>
      rw [hf] at eq
      cases eq
  | some r' =>
      rw [hf] at eq
      cases eq
      rfl

/-- Every action taken in a memory with `C` gives a result in `R`. -/
def AlwaysIn (C : σ → Prop) (R : σ → σ × List ω → Prop) : Prog σ ω Call Ans α → Prop
  | .ret _ => True
  | .undefined => True
  | .starved => True
  | .step f k => ∀ s, C s → R s (f s) ∧ AlwaysIn C R (k s)
  | .call _ k => ∀ a, AlwaysIn C R (k a)

theorem Always.inside {C : σ → Prop} {t : Prog σ ω Call Ans α} (ht : Always R t) :
    AlwaysIn C R t := by
  induction t with
  | ret a => trivial
  | undefined => trivial
  | starved => trivial
  | step f k ih => exact fun s _ => ⟨(ht s).1, ih s (ht s).2⟩
  | call c k ih => exact fun a => ih a (ht a)

theorem AlwaysIn.mono {C : σ → Prop} {t : Prog σ ω Call Ans α} (imp : ∀ s r, R s r → R' s r)
    (ht : AlwaysIn C R t) : AlwaysIn C R' t := by
  induction t with
  | ret a => trivial
  | undefined => trivial
  | starved => trivial
  | step f k ih => exact fun s inside => ⟨imp _ _ (ht s inside).1, ih s (ht s inside).2⟩
  | call c k ih => exact fun a => ih a (ht a)

/-- What every action does inside `C`, without leaving it, the whole run does. -/
theorem AlwaysIn.exec {C : σ → Prop} {P : σ → σ → Prop} {ans : ∀ c, Ans c} {a : α} {s s' : σ}
    {t : Prog σ ω Call Ans α} (ht : AlwaysIn C (fun s r => P s r.1) t) (refl : ∀ s, P s s)
    (trans : ∀ s₁ s₂ s₃, P s₁ s₂ → P s₂ s₃ → P s₁ s₃) (keep : ∀ s s', C s → P s s' → C s')
    (inside : C s) (ran : exec ans t s = .done (a, s')) : P s s' := by
  induction t generalizing s with
  | ret b =>
      cases ran
      exact refl _
  | undefined => cases ran
  | starved => cases ran
  | step f k ih =>
      obtain ⟨did, later⟩ := ht s inside
      exact trans _ _ _ did (ih s later (keep _ _ inside did) ran)
  | call c k ih => exact ih (ans c) (ht (ans c)) inside ran

theorem Always.settle {t : Prog σ ω Call Ans α} (ht : Always R t) (s : σ) :
    Always R (t.settle s).1 := by
  induction t generalizing s with
  | ret a => trivial
  | undefined => trivial
  | starved => trivial
  | step f k ih => exact ih s (ht s).2 (f s).1
  | call c k ih => exact ht

/-- A field that no action changes is the same at the next call. -/
theorem Always.settle_field {φ : Type} (field : σ → φ) {t : Prog σ ω Call Ans α}
    (ht : Always (fun s r => field r.1 = field s) t) (s : σ) :
    field (t.settle s).2.1 = field s := by
  induction t generalizing s with
  | ret a => rfl
  | undefined => rfl
  | starved => rfl
  | step f k ih => exact (ih s (ht s).2 (f s).1).trans (ht s).1
  | call c k ih => rfl

theorem Always.settle_log {P : ω → Prop} {t : Prog σ ω Call Ans α}
    (ht : Always (fun _ r => ∀ o ∈ r.2, P o) t) (s : σ) : ∀ o ∈ (t.settle s).2.2, P o := by
  induction t generalizing s with
  | ret a => exact fun o ho => absurd ho List.not_mem_nil
  | undefined => exact fun o ho => absurd ho List.not_mem_nil
  | starved => exact fun o ho => absurd ho List.not_mem_nil
  | step f k ih =>
      intro o ho
      rcases List.mem_append.mp ho with first | later
      · exact (ht s).1 o first
      · exact ih s (ht s).2 (f s).1 o later
  | call c k ih => exact fun o ho => absurd ho List.not_mem_nil

/-- The entries of a whole run, also when it does not end with a value. -/
theorem Always.trace_log {P : ω → Prop} {t : Prog σ ω Call Ans α}
    (ht : Always (fun _ r => ∀ o ∈ r.2, P o) t) (ans : ∀ c, Ans c) (s : σ) :
    ∀ o, .inl o ∈ trace ans t s → P o := by
  induction t generalizing s with
  | ret a => exact fun o ho => absurd ho List.not_mem_nil
  | undefined => exact fun o ho => absurd ho List.not_mem_nil
  | starved => exact fun o ho => absurd ho List.not_mem_nil
  | step f k ih =>
      intro o ho
      rcases List.mem_append.mp ho with first | later
      · obtain ⟨o', ho', eq⟩ := List.mem_map.mp first
        cases eq
        exact (ht s).1 o ho'
      · exact ih s (ht s).2 (f s).1 o later
  | call c k ih =>
      intro o ho
      rcases List.mem_cons.mp ho with eq | later
      · cases eq
      · exact ih (ans c) (ht (ans c)) s o later

end Always

/-- Every call the program can come to is one of these, whatever is answered. -/
def Asks (P : Call → Prop) : Prog σ ω Call Ans α → Prop
  | .ret _ => True
  | .undefined => True
  | .starved => True
  | .step _ k => ∀ s, Asks P (k s)
  | .call c k => P c ∧ ∀ a, Asks P (k a)

section Asks
variable {P : Call → Prop}

theorem asks_any (t : Prog σ ω Call Ans α) : Asks (fun _ => True) t := by
  induction t with
  | ret a => trivial
  | undefined => trivial
  | starved => trivial
  | step f k ih => exact ih
  | call c k ih => exact ⟨trivial, ih⟩

theorem Asks.bind {t : Prog σ ω Call Ans α} {g : α → Prog σ ω Call Ans β}
    (ht : Asks P t) (hg : ∀ a, Asks P (g a)) : Asks P (t >>= g) := by
  induction t with
  | ret a => exact hg a
  | undefined => trivial
  | starved => trivial
  | step f k ih => exact fun s => ih s (ht s)
  | call c k ih => exact ⟨ht.1, fun a => ih a (ht.2 a)⟩

theorem Asks.ite {p : Prop} [Decidable p] {t u : Prog σ ω Call Ans α}
    (ht : Asks P t) (hu : Asks P u) : Asks P (if p then t else u) := by
  split
  · exact ht
  · exact hu

theorem asks_ofOption (o : Option α) : Asks P (ofOption o : Prog σ ω Call Ans α) := by
  cases o <;> trivial

theorem asks_attempt (f : σ → Outcome (α × σ)) : Asks P (attempt f : Prog σ ω Call Ans α) := by
  intro s
  cases eq : f s with
  | done r =>
      simp only [eq]
      trivial
  | undefined =>
      simp only [eq]
      trivial
  | starved =>
      simp only [eq]
      trivial

theorem Asks.settle {t : Prog σ ω Call Ans α} (ht : Asks P t) (s : σ) : Asks P (t.settle s).1 := by
  induction t generalizing s with
  | ret a => trivial
  | undefined => trivial
  | starved => trivial
  | step f k ih => exact ih s (ht s) (f s).1
  | call c k ih => exact ht

/-- The call a program waits at is one of them. -/
theorem Asks.pending {t : Prog σ ω Call Ans α} (ht : Asks P t) {c : Call}
    (waits : t.pending = some c) : P c := by
  obtain ⟨k, rfl⟩ := pending_eq_some waits
  exact ht.1

/-- Only these calls are in the trace of a run. -/
theorem Asks.trace_call {t : Prog σ ω Call Ans α} (ht : Asks P t) (ans : ∀ c, Ans c) (s : σ) :
    ∀ c, .inr c ∈ trace ans t s → P c := by
  induction t generalizing s with
  | ret a => exact fun c hc => absurd hc List.not_mem_nil
  | undefined => exact fun c hc => absurd hc List.not_mem_nil
  | starved => exact fun c hc => absurd hc List.not_mem_nil
  | step f k ih =>
      intro c hc
      rcases List.mem_append.mp hc with first | later
      · obtain ⟨o, -, eq⟩ := List.mem_map.mp first
        cases eq
      · exact ih s (ht s) (f s).1 c later
  | call c k ih =>
      intro c' hc
      rcases List.mem_cons.mp hc with eq | later
      · cases eq
        exact ht.1
      · exact ih (ans c) (ht.2 (ans c)) s c' later

end Asks

/-- `call c s K` says what must hold for the call `c` to be made in `s` and its
answer handled by `K`; `τ` is state of the environment. -/
abbrev CallSpec (σ τ Call : Type) (Ans : Call → Type) :=
  (c : Call) → σ × τ → (Ans c → σ × τ → Prop) → Prop

/-- The program may be run in this state: every log entry is in `out`, every
call meets its specification, and a result satisfies `Q`. -/
def wp {τ : Type} (spec : CallSpec σ τ Call Ans) (out : ω → Prop) :
    Prog σ ω Call Ans α → (α → σ × τ → Prop) → σ × τ → Prop
  | .ret a, Q, s => Q a s
  | .undefined, _, _ => False
  | .starved, _, _ => True
  | .step f k, Q, s => (∀ o ∈ (f s.1).2, out o) ∧ wp spec out (k s.1) Q ((f s.1).1, s.2)
  | .call c k, Q, s => spec c s (fun a s' => wp spec out (k a) Q s')

section Wp
variable {τ : Type} {spec : CallSpec σ τ Call Ans} {out : ω → Prop}

/-- A specification is monotone when a weaker continuation is also met. -/
def CallSpec.Mono (spec : CallSpec σ τ Call Ans) : Prop :=
  ∀ c s (K K' : Ans c → σ × τ → Prop), (∀ a s', K a s' → K' a s') → spec c s K → spec c s K'

theorem wp_bind (mono : CallSpec.Mono spec) (t : Prog σ ω Call Ans α)
    (g : α → Prog σ ω Call Ans β) (Q : β → σ × τ → Prop) (s : σ × τ)
    (h : wp spec out t (fun a s' => wp spec out (g a) Q s') s) : wp spec out (t >>= g) Q s := by
  induction t generalizing s with
  | ret a => exact h
  | undefined => exact h
  | starved => trivial
  | step f k ih => exact ⟨h.1, ih s.1 _ h.2⟩
  | call c k ih => exact mono c s _ _ (fun a s' h' => ih a s' h') h

theorem wp_mono (mono : CallSpec.Mono spec) (t : Prog σ ω Call Ans α)
    {Q Q' : α → σ × τ → Prop} (imp : ∀ a s, Q a s → Q' a s) (s : σ × τ)
    (h : wp spec out t Q s) : wp spec out t Q' s := by
  induction t generalizing s with
  | ret a => exact imp a s h
  | undefined => exact h
  | starved => trivial
  | step f k ih => exact ⟨h.1, ih s.1 _ h.2⟩
  | call c k ih => exact mono c s _ _ (fun a s' h' => ih a s' h') h

theorem wp_settle (t : Prog σ ω Call Ans α) (Q : α → σ × τ → Prop) (s : σ) (e : τ)
    (h : wp spec out t Q (s, e)) :
    wp spec out (t.settle s).1 Q ((t.settle s).2.1, e) ∧ ∀ o ∈ (t.settle s).2.2, out o := by
  induction t generalizing s with
  | ret a => exact ⟨h, fun o ho => absurd ho List.not_mem_nil⟩
  | undefined => exact ⟨h, fun o ho => absurd ho List.not_mem_nil⟩
  | starved => exact ⟨h, fun o ho => absurd ho List.not_mem_nil⟩
  | step f k ih =>
      obtain ⟨rest, log⟩ := ih s (f s).1 h.2
      refine ⟨rest, fun o ho => ?_⟩
      rcases List.mem_append.mp ho with first | later
      · exact h.1 o first
      · exact log o later
  | call c k ih => exact ⟨h, fun o ho => absurd ho List.not_mem_nil⟩

/-- Between two calls others may change the memory along `R`, when neither the
calls nor the result look at what they change. -/
theorem wp_settle_stable {R : σ → σ → Prop} {Q : α → σ × τ → Prop}
    (stable : ∀ c s s' e K, R s s' → spec c (s, e) K → spec c (s', e) K)
    (result : ∀ a s s' e, R s s' → Q a (s, e) → Q a (s', e)) (t : Prog σ ω Call Ans α)
    {s s' : σ} {e : τ} (h : wp spec out t Q (s, e)) (changed : R (t.settle s).2.1 s') :
    wp spec out (t.settle s).1 Q (s', e) := by
  have rest := (wp_settle t Q s e h).1
  cases shape : (t.settle s).1 with
  | ret a =>
      rw [shape] at rest
      exact result a _ _ e changed rest
  | undefined =>
      rw [shape] at rest
      exact rest
  | starved => trivial
  | step f k => exact absurd shape (settle_ne_step t s f k)
  | call c k =>
      rw [shape] at rest
      exact stable c _ _ e _ changed rest

end Wp

end Prog
end Cooperative
