import Battleship.Lib.Prog

/-!
# Programs that drive a device

A program that has a device to itself: every call is a transaction, which the
device answers as it goes on to its next state.
-/
namespace Cooperative
namespace Prog
variable {σ ω Call τ : Type} {Ans : Call → Type} {α β : Type}

/-- `dev c d` is the answer of a device in `d` to the call, and its state after it. -/
abbrev Device (Call : Type) (Ans : Call → Type) (τ : Type) := (c : Call) → τ → Ans c × τ

def drive (dev : Device Call Ans τ) : Prog σ ω Call Ans α → σ → τ → Outcome (α × σ × τ)
  | .ret a, s, d => .done (a, s, d)
  | .undefined, _, _ => .undefined
  | .starved, _, _ => .starved
  | .step f k, s, d => drive dev (k s) (f s).1 d
  | .call c k, s, d => drive dev (k (dev c d).1) s (dev c d).2

section Drive
variable (dev : Device Call Ans τ)

@[simp] theorem drive_ret (a : α) (s : σ) (d : τ) :
    drive dev (.ret a : Prog σ ω Call Ans α) s d = .done (a, s, d) := rfl

@[simp] theorem drive_bind (t : Prog σ ω Call Ans α) (g : α → Prog σ ω Call Ans β) (s : σ) (d : τ) :
    drive dev (t >>= g) s d =
      (drive dev t s d).bind (fun r => drive dev (g r.1) r.2.1 r.2.2) := by
  induction t generalizing s d with
  | ret a => rfl
  | undefined => rfl
  | starved => rfl
  | step f k ih => exact ih s (f s).1 d
  | call c k ih => exact ih (dev c d).1 s (dev c d).2

@[simp] theorem drive_get (s : σ) (d : τ) :
    drive dev (get : Prog σ ω Call Ans σ) s d = .done (s, s, d) := rfl

@[simp] theorem drive_modify (f : σ → σ) (s : σ) (d : τ) :
    drive dev (modify f : Prog σ ω Call Ans Unit) s d = .done ((), f s, d) := rfl

@[simp] theorem drive_sys (c : Call) (s : σ) (d : τ) :
    drive dev (sys c : Prog σ ω Call Ans (Ans c)) s d = .done ((dev c d).1, s, (dev c d).2) := rfl

end Drive

end Prog
end Cooperative
