import Battleship.Execution

/-!
# Frames in WAITING_FOR_PLAYER

The two payload bytes of a button message become a row and a mirrored column.
Nothing between the radio and `apply_guess` compares them with the grid.
-/
namespace Battleship
open Cooperative

/-- The coordinates passed to `apply_guess`. -/
def guesses (run : List (Out ⊕ Call)) : List (Int × Int) :=
  run.filterMap (fun e => match e with
    | .inl (.guess _ row col) => some (row, col)
    | _ => none)

def OnBoard (c : Int × Int) : Prop :=
  0 ≤ c.1 ∧ c.1 < (gridSize : Int) ∧ 0 ≤ c.2 ∧ c.2 < (gridSize : Int)

/-- The iteration that takes this message guesses on the board, or guesses
nothing and leaves the `Game` as it is. -/
def HandledInside (lim : Limits) (m : Mem) (msg : IoMessage) : Prop :=
  let run := Prog.trace (answer (some msg)) (gameIteration lim) m
  guesses run ≠ [] ∧ (∀ c ∈ guesses run, OnBoard c) ∨
    guesses run = [] ∧ ∃ m', Prog.exec (answer (some msg)) (gameIteration lim) m = .done ((), m') ∧
      m'.game = m.game

def Out.NotGuess : Out → Prop
  | .guess _ _ _ => False
  | _ => True

theorem Out.Shown.notGuess {o : Out} (h : o.Shown) : o.NotGuess := by
  cases o with
  | guess target row col => exact h
  | _ => trivial

/-- `apply_guess` after it has been called. -/
def judgeGuess (target : Side) (row col : Int) : GameTask GuessResult := do
  let (result, sunk) ← Prog.tryModify (fun m => do
    let (p, result, sunk) ← guessCell (m.game.side target) row col
    return ((result, sunk), { m with game := m.game.setSide target p }))
  showSunk target sunk
  Prog.emit (.guessed target result)
  return result

section NotGuess
variable {α : Type}

theorem shown_notGuess {t : GameTask α} (h : Prog.Always (Logs Out.Shown) t) :
    Prog.Always (Logs Out.NotGuess) t := h.mono fun _ _ shown o ho => (shown o ho).notGuess

theorem judgeGuess_notGuess (target : Side) (row col : Int) :
    Prog.Always (Logs Out.NotGuess) (judgeGuess target row col) := by
  apply Prog.Always.bind
  · exact Prog.always_tryModify (fun _ => logs_nil _ _) fun _ _ _ => logs_nil _ _
  rintro ⟨result, sunk⟩
  apply Prog.Always.bind (shown_notGuess (steady_shown (showSunk_steady target sunk)))
  exact fun _ => .bind (Prog.always_write fun _ => by simp [Logs, Out.NotGuess]) fun _ => trivial

theorem guesses_of_notGuess {t : GameTask α} (h : Prog.Always (Logs Out.NotGuess) t)
    (ans : ∀ c : Call, c.Ans) (m : Mem) : guesses (Prog.trace ans t m) = [] := by
  apply List.filterMap_eq_nil_iff.mpr
  intro e he
  match e with
  | .inl (.guess target row col) => exact (h.trace_log ans m _ he).elim
  | .inl (.guessed target result) => rfl
  | .inl (.wsResult winner) => rfl
  | .inl (.frame f) => rfl
  | .inl (.command v) => rfl
  | .inl (.dispatch v) => rfl
  | .inr c => rfl

end NotGuess

/-- The iteration that takes a button message guesses once, where the message says. -/
theorem guesses_of_button (lim : Limits) {m : Mem} {msg : IoMessage}
    (h : m.game.state = .waitingForPlayer) (button : msg.isType "BUTTON" = true) :
    guesses (Prog.trace (answer (some msg)) (gameIteration lim) m) =
      [((buttonCoordinate msg).row, (buttonCoordinate msg).col)] := by
  let coord := buttonCoordinate msg
  let rest : GameTask Unit := do
    let result ← judgeGuess .opponent coord.row coord.col
    if result = .rejected then .ret () else playerMoved result
  have quiet : Prog.Always (Logs Out.NotGuess) (rest >>= fun _ => loopTail) := by
    apply Prog.Always.bind
    · apply Prog.Always.bind (judgeGuess_notGuess _ _ _)
      exact fun result => .ite trivial (shown_notGuess (playerMoved_shown result))
    · exact fun _ => shown_notGuess (steady_shown loopTail_steady)
  have opened : Prog.trace (answer (some msg)) (gameIteration lim) m =
      Prog.trace (answer (some msg)) (gameSwitch lim m.game.state >>= fun _ => loopTail) m := rfl
  have taken : Prog.trace (answer (some msg)) (waitingForPlayerCase >>= fun _ => loopTail) m =
      .inr .queueReceive :: Prog.trace (answer (some msg))
        ((if msg.isType "BUTTON" = true then
          (do Prog.emit (.guess .opponent coord.row coord.col); rest)
        else .ret ()) >>= fun _ => loopTail) m := rfl
  rw [opened, h, gameSwitch, taken, if_pos button]
  exact congrArg (_ :: ·) (guesses_of_notGuess quiet _ m)

/-- The iteration that takes any other message only ends. -/
theorem iteration_of_other (lim : Limits) {m : Mem} {msg : IoMessage}
    (h : m.game.state = .waitingForPlayer) (other : ¬msg.isType "BUTTON" = true) :
    guesses (Prog.trace (answer (some msg)) (gameIteration lim) m) = [] ∧
      Prog.exec (answer (some msg)) (gameIteration lim) m = .done ((), m) := by
  have opened : Prog.trace (answer (some msg)) (gameIteration lim) m =
      Prog.trace (answer (some msg)) (gameSwitch lim m.game.state >>= fun _ => loopTail) m := rfl
  have taken : Prog.trace (answer (some msg)) (waitingForPlayerCase >>= fun _ => loopTail) m =
      .inr .queueReceive :: Prog.trace (answer (some msg))
        ((if msg.isType "BUTTON" = true then _ else .ret ()) >>= fun _ => loopTail) m := rfl
  constructor
  · rw [opened, h, gameSwitch, taken, if_neg other]
    exact guesses_of_notGuess (shown_notGuess (steady_shown loopTail_steady))
      (answer (some msg)) m
  · have run : Prog.exec (answer (some msg)) (gameIteration lim) m =
        Prog.exec (answer (some msg)) (gameSwitch lim m.game.state >>= fun _ => loopTail) m := rfl
    have ended : Prog.exec (answer (some msg)) (waitingForPlayerCase >>= fun _ => loopTail) m =
        Prog.exec (answer (some msg))
          ((if msg.isType "BUTTON" = true then _ else .ret ()) >>= fun _ => loopTail) m := rfl
    rw [run, h, gameSwitch, ended, if_neg other]
    exact exec_loopTail _ m

theorem buttonCoordinate_onBoard (raw : Frame) (pipe : UInt8) :
    OnBoard ((buttonCoordinate (messageOf raw pipe)).row,
      (buttonCoordinate (messageOf raw pipe)).col) ↔
      (raw 9).toNat < gridSize ∧ (raw 8).toNat < gridSize := by
  have row : (buttonCoordinate (messageOf raw pipe)).row = ((raw 9).toNat : Int) := rfl
  have col : (buttonCoordinate (messageOf raw pipe)).col = 4 - ((raw 8).toNat : Int) := rfl
  rw [row, col]
  simp only [OnBoard, gridSize]
  omega

/-- A frame is handled inside the board exactly when it is no button message or
both its payload bytes are cells of the grid. -/
theorem handledInside_iff {lim : Limits} {m : Mem} (raw : Frame) (pipe : UInt8)
    (h : m.game.state = .waitingForPlayer) : HandledInside lim m (messageOf raw pipe) ↔
      ((messageOf raw pipe).isType "BUTTON" = true →
        (raw 9).toNat < gridSize ∧ (raw 8).toNat < gridSize) := by
  by_cases button : (messageOf raw pipe).isType "BUTTON" = true
  · have all := guesses_of_button lim h button
    rw [← buttonCoordinate_onBoard raw pipe]
    simp [HandledInside, all, button]
  · obtain ⟨none, ended⟩ := iteration_of_other lim h button
    constructor
    · exact fun _ is_button => absurd is_button button
    · exact fun _ => .inr ⟨none, m, ended, rfl⟩

/-- A game in WAITING_FOR_PLAYER on two empty boards. -/
def waitingMem : Mem :=
  ⟨{ clearedGame with state := .waitingForPlayer }, true, aiResetSmart, initBoard true,
    ledMatrixInit, false, fun _ => 0, 0⟩

def buttonFrame (col row : UInt8) : Frame :=
  frameOf ⟨4, messageTypeOf "BUTTON", payloadOf [col, row], 24⟩

theorem handledInside_corner :
    HandledInside ⟨0, none⟩ waitingMem (messageOf (buttonFrame 0 4) 4) :=
  (handledInside_iff (buttonFrame 0 4) 4 rfl).mpr fun _ => by decide

/-- Row 200 of the board is guessed. -/
theorem frame_off_board : ¬HandledInside ⟨0, none⟩ waitingMem (messageOf (buttonFrame 0 200) 4) := by
  have all : guesses (Prog.trace (answer (some (messageOf (buttonFrame 0 200) 4)))
      (gameIteration ⟨0, none⟩) waitingMem) = [(200, 4)] :=
    guesses_of_button _ rfl (by decide)
  simp [HandledInside, all, OnBoard, gridSize]

end Battleship
