import Battleship.Interleaving
import Battleship.Lib.Rely

/-!
# The game task among the other tasks

A condition in `wlp` on the program the game task is at: every step of the game
task keeps it, with the longer trace of the iteration, and so does what the
others do while the task waits.
-/
namespace Battleship
open Cooperative

section Programs
variable {env : Prog.Env Mem Call Call.Ans} {guar : Prog.Guar Mem Out Call} {m : Mem}
  {l : List (Out ⊕ Call)}

theorem wlp_allSunk {Q : Bool → Mem → List (Out ⊕ Call) → Prop} (side : Side)
    (h : ∀ gone, Q gone m l) : Prog.wlp env guar (allSunk side) Q m l := by
  rw [allSunk, Prog.wlp_bind, Prog.wlp_get]
  exact Prog.wlp_ofOption fun gone _ => h gone

/-- The end of a move: the boards are drawn, the turn changes, and the game is over
or goes on in the other state. -/
theorem wlp_moveEnds {J Q : Mem → List (Out ⊕ Call) → Prop} {turn : Bool} {side : Side}
    {next : GameState} {won : GameTask Unit} (drawn : Prog.wlp env guar renderBoards (fun _ => J) m l)
    (ended : ∀ m l, J m l → Prog.wlp env guar won (fun _ => Q)
      { m with game := { m.game with turn := turn, state := .gameOver } } l)
    (goes : ∀ m l, J m l → Prog.wlp env guar (sendWsGameUpdate false) (fun _ => Q)
      { m with game := { m.game with turn := turn, state := next } } l) :
    Prog.wlp env guar (do
      renderBoards
      setTurn turn
      if ← allSunk side then
        setState .gameOver
        won
      else
        setState next
        sendWsGameUpdate false) (fun _ => Q) m l := by
  rw [Prog.wlp_bind]
  refine Prog.wlp_mono (fun _ m₁ l₁ kept => ?_) drawn
  rw [Prog.wlp_bind, setTurn, Prog.wlp_modify, Prog.wlp_bind]
  refine wlp_allSunk side fun gone => Prog.wlp_ite (fun _ => ?_) fun _ => ?_
  · rw [Prog.wlp_bind, setState, Prog.wlp_modify]
    exact ended m₁ l₁ kept
  · rw [Prog.wlp_bind, setState, Prog.wlp_modify]
    exact goes m₁ l₁ kept

end Programs

namespace Firmware
variable {env : Prog.Env Mem Call Call.Ans} {guar : Prog.Guar Mem Out Call}
  {Q : Mem → List (Out ⊕ Call) → Prop} {lim : Limits} {s s' : Firmware}
  {l : List (Out ⊕ Call)}

/-- What is left of the iteration, from here and with this trace, ends in `Q`. -/
def Left (env : Prog.Env Mem Call Call.Ans) (guar : Prog.Guar Mem Out Call)
    (Q : Mem → List (Out ⊕ Call) → Prop) (m : Mem) (l : List (Out ⊕ Call)) : Phase → Prop
  | .inSwitch t => Prog.wlp env guar t
      (fun _ m' l' => Prog.wlp env guar loopTail (fun _ => Q) m' l') m l
  | .inTail t => Prog.wlp env guar t (fun _ => Q) m l

def rest (s : Firmware) : GameTask Unit :=
  match s.game with
  | .inSwitch t => t
  | .inTail t => t

/-- The call that this step of the game task or of the HTTP server answers. -/
def answered (s : Firmware) : Act → Option Call
  | .game => s.rest.pending
  | .httpd => s.httpd.bind Prog.pending
  | _ => none

/-- The task stands at the head of its loop. -/
def AtHead (s : Firmware) : Prop := s.game = .inTail (.ret ())

def atHead : Phase → Bool
  | .inTail (.ret _) => true
  | _ => false

theorem atHead_iff {s : Firmware} : atHead s.game = true ↔ s.AtHead := by
  constructor
  · intro head
    unfold atHead at head
    split at head
    · assumption
    · cases head
  · intro head
    rw [head]
    rfl

/-- The task waits at a call or stands at the head of its loop. -/
def Running (s : Firmware) : Prop := s.AtHead ∨ ∃ c, s.rest.pending = some c

/-- The program has run to a call or to its end; the switch is left at its end. -/
def Settled : Phase → Prop
  | .inSwitch t => (∀ f k, t ≠ .step f k) ∧ ∀ u, t ≠ .ret u
  | .inTail t => ∀ f k, t ≠ .step f k

structure Holds (env : Prog.Env Mem Call Call.Ans) (guar : Prog.Guar Mem Out Call)
    (Q : Mem → List (Out ⊕ Call) → Prop) (s : Firmware) (l : List (Out ⊕ Call)) : Prop where
  settled : Settled s.game
  left : Left env guar Q s.mem l s.game

theorem inTail_holds {t : GameTask Unit} (h : Prog.wlp env guar t (fun _ => Q) s.mem l) :
    ∃ new, (s.inTail t).Holds env guar Q (l ++ new.map .inl) ∧
      (s.inTail t).log = s.log ++ new :=
  ⟨(t.settle s.mem).2.2, ⟨Prog.settle_ne_step t s.mem, Prog.wlp_settle h⟩, rfl⟩

/-- The switch ends in the tail, or waits at a call of its own. -/
theorem inSwitch_cases (s : Firmware) (t : GameTask Unit) :
    (t.settle s.mem).1 = .ret () ∧ s.inSwitch t = Firmware.inTail
        { s with mem := (t.settle s.mem).2.1, log := s.log ++ (t.settle s.mem).2.2 } loopTail ∨
      (∀ u, (t.settle s.mem).1 ≠ .ret u) ∧ s.inSwitch t = { s with
        mem := (t.settle s.mem).2.1
        log := s.log ++ (t.settle s.mem).2.2
        game := .inSwitch (t.settle s.mem).1 } := by
  simp only [inSwitch, settleGame]
  split
  · rename_i ended
    exact .inl ⟨ended, rfl⟩
  · rename_i waits
    exact .inr ⟨waits, rfl⟩

theorem inSwitch_holds {t : GameTask Unit} (h : Prog.wlp env guar t
      (fun _ m l => Prog.wlp env guar loopTail (fun _ => Q) m l) s.mem l) :
    ∃ new, (s.inSwitch t).Holds env guar Q (l ++ new.map .inl) ∧
      (s.inSwitch t).log = s.log ++ new := by
  have rest := Prog.wlp_settle h
  rcases inSwitch_cases s t with ⟨ended, shape⟩ | ⟨waits, shape⟩
  · rw [ended] at rest
    have tail : Prog.wlp env guar loopTail (fun _ => Q) (t.settle s.mem).2.1
        (l ++ (t.settle s.mem).2.2.map .inl) := rest
    obtain ⟨new, holds, log⟩ := inTail_holds (t := loopTail)
      (s := { s with mem := (t.settle s.mem).2.1, log := s.log ++ (t.settle s.mem).2.2 }) tail
    rw [shape]
    refine ⟨(t.settle s.mem).2.2 ++ new, ?_, ?_⟩
    · rw [List.map_append, ← List.append_assoc]
      exact holds
    · rw [log, List.append_assoc]
  · rw [shape]
    exact ⟨(t.settle s.mem).2.2, ⟨⟨Prog.settle_ne_step t s.mem, waits⟩, rest⟩, rfl⟩

/-- A dispatch starts an iteration with an empty trace. -/
theorem dispatch_holds (h : Prog.wlp env guar (gameSwitch lim s.mem.game.state)
      (fun _ m l => Prog.wlp env guar loopTail (fun _ => Q) m l) s.mem []) :
    ∃ new, (s.dispatch lim).Holds env guar Q (new.map .inl) ∧
      (s.dispatch lim).log = s.log ++ .dispatch s.mem.game.state :: new := by
  obtain ⟨new, holds, log⟩ := inSwitch_holds
    (s := { s with log := s.log ++ [.dispatch s.mem.game.state] }) h
  exact ⟨new, holds, by simpa [dispatch] using log⟩

/-- The game task's step: a dispatch, or an answered call and a segment more. -/
theorem Holds.stepGame (h : s.Holds env guar Q l) (hstep : s.stepGame lim = some s')
    (allowed : ∀ c a s₁, s.answerGame c = some (a, s₁) → env c s.mem a s.mem) :
    s.AtHead ∧ s' = s.dispatch lim ∨ ∃ c new, s.rest.pending = some c ∧
      s'.Holds env guar Q (l ++ .inr c :: new.map .inl) ∧ s'.log = s.log ++ new := by
  have left := h.left
  unfold Firmware.stepGame at hstep
  split at hstep
  · rename_i head
    cases hstep
    exact .inl ⟨head, rfl⟩
  · rename_i c k tail
    obtain ⟨⟨a, s₁⟩, answered, rfl⟩ := Option.map_eq_some_iff.mp hstep
    have keeps := answerGame_keeps answered
    rw [tail] at left
    have rest := left.2 a s.mem (allowed c a s₁ answered)
    rw [← keeps.mem] at rest
    obtain ⟨new, holds, log⟩ := inTail_holds rest
    have waits : s.rest.pending = some c := by simp [Firmware.rest, tail]
    exact .inr ⟨c, new, waits, by simpa using holds, by rw [log, keeps.log]⟩
  · rename_i c k case
    obtain ⟨⟨a, s₁⟩, answered, rfl⟩ := Option.map_eq_some_iff.mp hstep
    have keeps := answerGame_keeps answered
    rw [case] at left
    have rest := left.2 a s.mem (allowed c a s₁ answered)
    rw [← keeps.mem] at rest
    obtain ⟨new, holds, log⟩ := inSwitch_holds rest
    have waits : s.rest.pending = some c := by simp [Firmware.rest, case]
    exact .inr ⟨c, new, waits, by simpa using holds, by rw [log, keeps.log]⟩
  · cases hstep

theorem inSwitch_httpd (s : Firmware) (t : GameTask Unit) : (s.inSwitch t).httpd = s.httpd := by
  rcases inSwitch_cases s t with ⟨-, shape⟩ | ⟨-, shape⟩
  · rw [shape]
    rfl
  · rw [shape]

theorem stepGame_httpd (h : s.stepGame lim = some s') : s'.httpd = s.httpd := by
  unfold stepGame at h
  split at h
  · cases h
    exact inSwitch_httpd _ _
  · obtain ⟨r, answered, rfl⟩ := Option.map_eq_some_iff.mp h
    exact (answerGame_keeps answered).httpd
  · obtain ⟨r, answered, rfl⟩ := Option.map_eq_some_iff.mp h
    rw [inSwitch_httpd]
    exact (answerGame_keeps answered).httpd
  · cases h

theorem rest_of_game (game : s'.game = s.game) : s'.rest = s.rest := by
  rw [rest, rest, game]

theorem stepHttpd_game (h : s.stepHttpd = some s') : s'.game = s.game := by
  unfold stepHttpd at h
  split at h
  · cases h
    rfl
  · cases h
    rfl
  · obtain ⟨⟨a, s₁⟩, answered, rfl⟩ := Option.map_eq_some_iff.mp h
    exact (answerGame_keeps answered).game
  · cases h

theorem Holds.head (h : s.Holds env guar Q l) (head : s.AtHead) : Q s.mem l := by
  have left := h.left
  rw [head] at left
  exact left

theorem Holds.at_call (h : s.Holds env guar Q l) {c : Call} (at_call : s.rest.pending = some c) :
    guar c s.mem l := by
  have left := h.left
  obtain ⟨k, rest_eq⟩ := Prog.pending_eq_some at_call
  cases phase : s.game with
  | inSwitch t =>
      rw [phase] at left
      rw [rest, phase] at rest_eq
      cases rest_eq
      exact left.1
  | inTail t =>
      rw [phase] at left
      rw [rest, phase] at rest_eq
      cases rest_eq
      exact left.1

/-- At a call the guarantee holds, and at the head of the loop the end does. -/
theorem Holds.running (h : s.Holds env guar Q l) (running : s.Running) :
    (s.AtHead ∧ Q s.mem l) ∨ ∃ c, guar c s.mem l := by
  rcases running with head | ⟨c, at_call⟩
  · exact .inl ⟨head, h.head head⟩
  · exact .inr ⟨c, h.at_call at_call⟩

/-- A move of the others that the environment allows changes nothing. -/
theorem Holds.moved (h : s.Holds env guar Q l) (game : s'.game = s.game)
    (guarded : ∀ c, guar c s.mem l → guar c s'.mem l) (ended : Q s.mem l → Q s'.mem l)
    (before : ∀ c a m, env c s'.mem a m → env c s.mem a m) : s'.Holds env guar Q l := by
  obtain ⟨settled, left⟩ := h
  refine ⟨game ▸ settled, ?_⟩
  rw [game]
  cases phase : s.game with
  | inSwitch t =>
      rw [phase] at left settled
      cases t with
      | ret u => exact absurd rfl (settled.2 u)
      | undefined => trivial
      | starved => trivial
      | step f k => exact absurd rfl (settled.1 f k)
      | call c k => exact Prog.wlp_waiting (guarded c) (before c) left
  | inTail t =>
      rw [phase] at left settled
      cases t with
      | ret u => exact ended left
      | undefined => trivial
      | starved => trivial
      | step f k => exact absurd rfl (settled f k)
      | call c k => exact Prog.wlp_waiting (guarded c) (before c) left

end Firmware
end Battleship
