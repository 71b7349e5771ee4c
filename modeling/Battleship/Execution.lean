import Battleship.Effects
import Battleship.Seating
import Battleship.Sequential

/-!
# The game task run to completion

What each part of `game_task` does to the memory when every call returns, in
closed form, and what it logs about the play: the answers of `apply_guess` and
the calls of `send_ws_result`.
-/
namespace Battleship
open Cooperative

def Mem.setSide (m : Mem) (side : Side) (p : Player) : Mem :=
  { m with game := m.game.setSide side p }

@[simp] theorem setSide_side (g : Game) (side : Side) (p : Player) :
    (g.setSide side p).side side = p := by
  cases side <;> rfl

@[simp] theorem setSide_twice (g : Game) (side : Side) (p q : Player) :
    (g.setSide side p).setSide side q = g.setSide side q := by
  cases side <;> rfl

@[simp] theorem setSide_self (g : Game) (side : Side) : g.setSide side (g.side side) = g := by
  cases side <;> rfl

def Out.isPlay : Out → Bool
  | .guessed _ _ => true
  | .wsResult _ => true
  | _ => false

def plays (run : List (Out ⊕ Call)) : List Out :=
  run.filterMap (Sum.elim (fun o => if o.isPlay then some o else none) (fun _ => none))

@[simp] theorem plays_nil : plays [] = [] := rfl

@[simp] theorem plays_append (a b : List (Out ⊕ Call)) : plays (a ++ b) = plays a ++ plays b :=
  List.filterMap_append

theorem plays_steady {α : Type} {t : GameTask α} (h : Prog.Always Steady t)
    (ans : ∀ c : Call, c.Ans) (m : Mem) : plays (Prog.trace ans t m) = [] := by
  apply List.filterMap_eq_nil_iff.mpr
  intro e he
  match e with
  | .inl (.frame f) => rfl
  | .inl (.guess target row col) => rfl
  | .inl (.command v) => rfl
  | .inl (.dispatch v) => rfl
  | .inl (.guessed target result) => exact ((h.mono fun _ _ (steady : Steady _ _) => steady.2).trace_log ans m _ he).elim
  | .inl (.wsResult winner) => exact ((h.mono fun _ _ (steady : Steady _ _) => steady.2).trace_log ans m _ he).elim
  | .inr c => rfl

section Run
variable (ans : ∀ c : Call, c.Ans)

@[simp] theorem exec_ioEnqueueSend (msg : IoMessage) (m : Mem) :
    Prog.exec ans (ioEnqueueSend msg) m = .done ((), m) := by
  unfold ioEnqueueSend
  split <;> rfl

@[simp] theorem exec_sendRobotCommand (shipId row col notVertical notPlace : Int) (m : Mem) :
    Prog.exec ans (sendRobotCommand shipId row col notVertical notPlace) m = .done ((), m) :=
  exec_ioEnqueueSend ans _ m

@[simp] theorem exec_sendSoundCommand (slaveId soundId : Int) (m : Mem) :
    Prog.exec ans (sendSoundCommand slaveId soundId) m = .done ((), m) :=
  exec_ioEnqueueSend ans _ m

@[simp] theorem exec_vTaskDelay (ms : Nat) (m : Mem) :
    Prog.exec ans (vTaskDelay ms) m = .done ((), m) := rfl

@[simp] theorem exec_sendLedMatrixUpdate (slaveId : Int) (m : Mem) :
    Prog.exec ans (sendLedMatrixUpdate slaveId) m = .done ((), m) := by
  simp [sendLedMatrixUpdate]

@[simp] theorem exec_sendWsGameUpdate (isInit : Bool) (m : Mem) :
    Prog.exec ans (sendWsGameUpdate isInit) m = .done ((), m) := by
  cases conn : m.wsConnected <;> simp [sendWsGameUpdate, conn]

@[simp] theorem exec_sendWsResult (winner : Side) (m : Mem) :
    Prog.exec ans (sendWsResult winner) m = .done ((), m) := by
  cases conn : m.wsConnected <;> simp [sendWsResult, conn]

@[simp] theorem plays_sendWsResult (winner : Side) (m : Mem) :
    plays (Prog.trace ans (sendWsResult winner) m) = [.wsResult winner] := by
  cases conn : m.wsConnected
  · simp [sendWsResult, Prog.emit, Prog.write, Prog.get, Prog.trace, conn]
    rfl
  · simp [sendWsResult, Prog.emit, Prog.write, Prog.get, Prog.trace, conn]
    rfl

@[simp] theorem exec_setState (v : GameState) (m : Mem) :
    Prog.exec ans (setState v) m = .done ((), m.setState v) := rfl

@[simp] theorem exec_setTurn (v : Bool) (m : Mem) :
    Prog.exec ans (setTurn v) m = .done ((), { m with game := { m.game with turn := v } }) := rfl

@[simp] theorem exec_loopTail (m : Mem) : Prog.exec ans loopTail m = .done ((), m) := by
  simp [loopTail]

@[simp] theorem exec_removeCommand (boat : Boat) (m : Mem) :
    Prog.exec ans (removeCommand boat) m = .done ((), m) := by
  unfold removeCommand
  split <;> simp

@[simp] theorem exec_placeCommand (shipId : Int) (d : Draw) (length : Int) (m : Mem) :
    Prog.exec ans (placeCommand shipId d length) m = .done ((), m) := by
  unfold placeCommand
  split <;> simp

@[simp] theorem exec_removeBoat (boat : Boat) (m : Mem) :
    Prog.exec ans (removeBoat boat) m = .done ((), m) := by
  unfold removeBoat
  split <;> simp

@[simp] theorem plays_sendSoundCommand (slaveId soundId : Int) (m : Mem) :
    plays (Prog.trace ans (sendSoundCommand slaveId soundId) m) = [] :=
  plays_steady (ioEnqueueSend_steady _) ans m

@[simp] theorem plays_sendLedMatrixUpdate (slaveId : Int) (m : Mem) :
    plays (Prog.trace ans (sendLedMatrixUpdate slaveId) m) = [] :=
  plays_steady (sendLedMatrixUpdate_steady slaveId) ans m

@[simp] theorem plays_sendWsGameUpdate (isInit : Bool) (m : Mem) :
    plays (Prog.trace ans (sendWsGameUpdate isInit) m) = [] :=
  plays_steady (sendWsGameUpdate_steady isInit) ans m

@[simp] theorem plays_renderBoards (m : Mem) : plays (Prog.trace ans renderBoards m) = [] :=
  plays_steady renderBoards_steady ans m

@[simp] theorem plays_setTurn (v : Bool) (m : Mem) :
    plays (Prog.trace ans (setTurn v) m) = [] := rfl

@[simp] theorem plays_setState (v : GameState) (m : Mem) :
    plays (Prog.trace ans (setState v) m) = [] := rfl

@[simp] theorem plays_allSunk (side : Side) (m : Mem) :
    plays (Prog.trace ans (allSunk side) m) = [] :=
  plays_steady (allSunk_steady side) ans m

@[simp] theorem plays_loopTail (m : Mem) : plays (Prog.trace ans loopTail m) = [] :=
  plays_steady loopTail_steady ans m

theorem exec_removeLoop {is : List Nat} (inside : ∀ i ∈ is, i < maxShips) (m : Mem) :
    Prog.exec ans (removeLoop is) m = .done ((), m) := by
  induction is with
  | nil => rfl
  | cons i is ih =>
      have slot : m.game.player.boatAt i =
          some (m.game.player.boats ⟨i, inside i List.mem_cons_self⟩) :=
        dif_pos (inside i List.mem_cons_self)
      simp [removeLoop, slot, ih fun j hj => inside j (List.mem_cons_of_mem i hj)]

def Game.leds (g : Game) (leds : Leds) : Leds :=
  renderBoardToMatrix (renderBoardToMatrix leds g.player.board playerMatrix true)
    g.opponent.board opponentMatrix false

/-- Both matrices drawn again. -/
def Mem.rendered (m : Mem) : Mem := { m with leds := m.game.leds m.leds }

@[simp] theorem exec_renderBoards (m : Mem) :
    Prog.exec ans renderBoards m = .done ((), m.rendered) := by
  simp only [renderBoards, renderBoard, Prog.exec_bind, Prog.exec_modify, Outcome.bind_done]
  simp only [Mem.rendered, Game.leds, Game.side]

@[simp] theorem rendered_game (m : Mem) : m.rendered.game = m.game := by
  simp only [Mem.rendered]

@[simp] theorem exec_allSunk (side : Side) (m : Mem) : Prog.exec ans (allSunk side) m =
    .ofOption ((allShipsSunk (m.game.side side)).map (fun sunk => (sunk, m))) := by
  simp [allSunk]

theorem exec_showSunk (target : Side) (sunk : Option Nat) (slot : ∀ b, sunk = some b → b < maxShips)
    (m : Mem) : Prog.exec ans (showSunk target sunk) m = .done ((), m) := by
  cases sunk with
  | none => rfl
  | some b =>
      have boat : (m.game.side target).boatAt b =
          some ((m.game.side target).boats ⟨b, slot b rfl⟩) := dif_pos (slot b rfl)
      by_cases own : (m.game.side target).board.isOpp = false
      · simp [showSunk, own, boat]
      · simp [showSunk, own]

/-- The middle of `applyGuess`: the memory, the answer and the boat sunk. -/
def strike (target : Side) (row col : Int) (m : Mem) : Option ((GuessResult × Option Nat) × Mem) :=
  (guessCell (m.game.side target) row col).map (fun e => (e.2, m.setSide target e.1))

theorem applyGuess_strike (target : Side) (row col : Int) : applyGuess target row col =
    (do Prog.emit (.guess target row col)
        let r ← Prog.tryModify (strike target row col)
        showSunk target r.2
        Prog.emit (.guessed target r.1)
        return r.1) := by
  unfold applyGuess
  congr 1
  funext _
  congr 1
  congr 1
  funext m
  unfold strike
  cases guessCell (m.game.side target) row col <;> rfl

theorem exec_applyGuess (target : Side) (row col : Int) (m : Mem) :
    Prog.exec ans (applyGuess target row col) m =
      .ofOption ((guessCell (m.game.side target) row col).map
        (fun e => (e.2.1, m.setSide target e.1))) := by
  rw [applyGuess_strike]
  cases guess : guessCell (m.game.side target) row col with
  | none => simp [strike, guess]
  | some e =>
      have shown := exec_showSunk ans target e.2.2 fun b eq => guessCell_slot guess eq
      simp [strike, guess, shown]

theorem strike_steady (target : Side) (row col : Int) :
    Prog.Always Steady (Prog.tryModify (strike target row col) :
      GameTask (GuessResult × Option Nat)) := by
  apply steady_tryModify
  intro m r eq
  obtain ⟨e, -, rfl⟩ := Option.map_eq_some_iff.mp eq
  exact setSide_state _ _ _

theorem plays_applyGuess (target : Side) {row col : Int} (m : Mem)
    {e : Player × GuessResult × Option Nat}
    (guess : guessCell (m.game.side target) row col = some e) :
    plays (Prog.trace ans (applyGuess target row col) m) = [.guessed target e.2.1] := by
  have shown := exec_showSunk ans target e.2.2 fun b eq => guessCell_slot guess eq
  have quiet := plays_steady (showSunk_steady target e.2.2) ans (m.setSide target e.1)
  have silent := plays_steady (strike_steady target row col) ans m
  have struck : strike target row col m = some (e.2, m.setSide target e.1) := by
    rw [strike, guess]
    rfl
  rw [applyGuess_strike]
  simp only [Prog.trace_bind, Prog.exec_emit, Prog.exec_tryModify, plays_append,
    Prog.traceAfter_done, silent, struck, Outcome.ofOption_some, shown, quiet]
  rfl

end Run

end Battleship
