import Battleship.Lib.Prog

/-!
# Programs that pass on what they are answered

Some answers oblige a program to log something. A program pays when each such
entry is logged, once and in order, before its next call and before it stops.
-/
namespace Cooperative
namespace Prog
variable {σ ω Call χ : Type} {Ans : Call → Type} {α β : Type}

/-- `see` reads an entry of the log, `owe` what an answer obliges to, and `due`
is what has not been logged yet. -/
def Pays (see : ω → Option χ) (owe : ∀ c, Ans c → List χ) :
    List χ → Prog σ ω Call Ans α → Prop
  | due, .ret _ => due = []
  | due, .undefined => due = []
  | due, .starved => due = []
  | due, .step f k => ∀ s, ∃ rest, due = (f s).2.filterMap see ++ rest ∧ Pays see owe rest (k s)
  | due, .call c k => due = [] ∧ ∀ a, Pays see owe (owe c a) (k a)

section Pays
variable {see : ω → Option χ} {owe : ∀ c, Ans c → List χ} {due : List χ}

theorem Pays.bind {t : Prog σ ω Call Ans α} {g : α → Prog σ ω Call Ans β}
    (ht : Pays see owe due t) (hg : ∀ a, Pays see owe [] (g a)) : Pays see owe due (t >>= g) := by
  induction t generalizing due with
  | ret a =>
      cases ht
      exact hg a
  | undefined => exact ht
  | starved => exact ht
  | step f k ih =>
      intro s
      obtain ⟨rest, eq, later⟩ := ht s
      exact ⟨rest, eq, ih s later⟩
  | call c k ih => exact ⟨ht.1, fun a => ih a (ht.2 a)⟩

/-- A program that logs nothing of the kind and asks for nothing that obliges. -/
theorem pays_nil {t : Prog σ ω Call Ans α} (quiet : Always (fun _ r => ∀ o ∈ r.2, see o = none) t)
    (free : Asks (fun c => ∀ a, owe c a = []) t) : Pays see owe [] t := by
  induction t with
  | ret a => rfl
  | undefined => rfl
  | starved => rfl
  | step f k ih =>
      intro s
      have none := List.filterMap_eq_nil_iff.mpr (quiet s).1
      exact ⟨[], by rw [none, List.append_nil], ih s (quiet s).2 (free s)⟩
  | call c k ih =>
      refine ⟨rfl, fun a => ?_⟩
      rw [free.1 a]
      exact ih a (quiet a) (free.2 a)

/-- One entry settles one debt. -/
theorem pays_emit {o : ω} {x : χ} (sees : see o = some x) :
    Pays see owe [x] (emit o : Prog σ ω Call Ans Unit) :=
  fun _ => ⟨[], by simp [sees], rfl⟩

/-- At the next call everything due has been logged. -/
theorem Pays.settle {t : Prog σ ω Call Ans α} (h : Pays see owe due t) (s : σ) :
    (t.settle s).2.2.filterMap see = due ∧ Pays see owe [] (t.settle s).1 := by
  induction t generalizing s due with
  | ret a =>
      cases h
      exact ⟨rfl, rfl⟩
  | undefined =>
      cases h
      exact ⟨rfl, rfl⟩
  | starved =>
      cases h
      exact ⟨rfl, rfl⟩
  | step f k ih =>
      obtain ⟨rest, rfl, later⟩ := h s
      obtain ⟨logged, after⟩ := ih s later (f s).1
      refine ⟨?_, after⟩
      rw [← logged]
      exact List.filterMap_append
  | call c k ih =>
      cases h.1
      exact ⟨rfl, h⟩

end Pays
end Prog
end Cooperative
