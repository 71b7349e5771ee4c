import Battleship.GameTask
import Battleship.Lib.Runs

/-!
# Requests and iterations run to completion

The system in which every request and every loop iteration of the game task
runs to its end before the next begins.
-/
namespace Battleship
open Cooperative

inductive Event where
  | request (r : Request)
  | iteration (msg : Option IoMessage)

/-- Every call returns; the receive returns the message of this iteration. -/
def answer (msg : Option IoMessage) : ∀ c : Call, c.Ans
  | .queueSend _ => ()
  | .queueReceive => msg
  | .delay _ => ()

def Outcome.memory {α : Type} : Outcome (α × Mem) → Option Mem
  | .done r => some r.2
  | .undefined => none
  | .starved => none

theorem Outcome.memory_some {α : Type} {o : Outcome (α × Mem)} {m : Mem}
    (h : Outcome.memory o = some m) : ∃ a, o = .done (a, m) := by
  cases o with
  | done r =>
      cases h
      exact ⟨r.1, rfl⟩
  | undefined => cases h
  | starved => cases h

/-- A step that is undefined, or whose random search does not return, has no
state after it. -/
def seqStep (lim : Limits) (m : Mem) : Event → Option Mem
  | .request r => Outcome.memory (Prog.exec (answer none) (handle r) m)
  | .iteration msg => Outcome.memory (Prog.exec (answer msg) (gameIteration lim) m)

/-- What a request or an iteration logs and calls. -/
def seqTrace (lim : Limits) (m : Mem) : Event → List (Out ⊕ Call)
  | .request r => Prog.trace (answer none) (handle r) m
  | .iteration msg => Prog.trace (answer msg) (gameIteration lim) m

/-- The state `Game_Init` leaves when the game task first runs. -/
def Booted (m : Mem) : Prop :=
  ∃ m₀ lim, m₀.game.state = .init ∧ seqStep lim m₀ (.iteration none) = some m

/-- The memory before the game task first runs, with a random source stuck at 0. -/
def powerOn : Mem :=
  ⟨clearedGame, false, aiResetSmart, initBoard true, ledMatrixInit, false, ⟨fun _ => 0, 0⟩⟩

def bootMem : Mem := { powerOn.setState .webInit with currentGame := true }

theorem bootMem_booted : Booted bootMem := ⟨powerOn, ⟨0, none⟩, rfl, rfl⟩

end Battleship
