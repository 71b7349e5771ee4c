import Battleship.Iteration
import Battleship.Outgoing

/-!
# What an iteration tells the robot

Only a sunk ship of the player, a random setup and a restart send the robot
anything.
-/
namespace Battleship
open Cooperative

/-- The command of `place_random_ships` for a ship. -/
def randomOrder (ship : ShipRequest) : IoMessage :=
  robotCommand 4 (4 - ship.length) ship.row
    (if ship.horizontal then ship.col + (ship.length - 1) else ship.col)
    (if ship.horizontal then 0 else 1) 0

/-- Still to be taken off at a restart. -/
def Boat.Afloat (boat : Boat) : Prop := boat.hitCount < boat.length

instance (boat : Boat) : Decidable boat.Afloat := inferInstanceAs (Decidable (_ < _))

/-- Which of the two boards is the opponent's. -/
structure Mem.Sided (m : Mem) : Prop where
  own : m.game.player.board.isOpp = false
  opp : m.game.opponent.board.isOpp = true

theorem removeCommand_sys (boat : Boat) :
    removeCommand boat = Prog.sys (Call.queueSend boat.removal) := by
  rw [removeCommand, Boat.removal]
  cases boat.horizontal with
  | false => exact sendRobotCommand_sys ..
  | true => exact sendRobotCommand_sys ..

theorem removal_order (boat : Boat) : (Call.queueSend boat.removal).order = some boat.removal :=
  robotCommand_order ..

theorem placeCommand_sys (d : Draw) (length : Int) : placeCommand (4 - length) d length =
    Prog.sys (Call.queueSend (randomOrder (d.request length))) := by
  rw [placeCommand, randomOrder, Draw.request]
  cases d.horizontal with
  | false => exact sendRobotCommand_sys ..
  | true => exact sendRobotCommand_sys ..

theorem randomOrder_order (ship : ShipRequest) :
    (Call.queueSend (randomOrder ship)).order = some (randomOrder ship) := robotCommand_order ..

section Run
variable (ans : ∀ c : Call, c.Ans)

theorem orders_removeCommand (boat : Boat) (m : Mem) :
    orders (Prog.trace ans (removeCommand boat) m) = [boat.removal] := by
  rw [removeCommand_sys, Prog.trace_sys, orders_call, removal_order]
  rfl

theorem orders_removeBoat (boat : Boat) (m : Mem) :
    orders (Prog.trace ans (removeBoat boat) m) = if boat.Afloat then [boat.removal] else [] := by
  by_cases afloat : boat.hitCount < boat.length
  · rw [removeBoat, if_pos afloat, orders_bind_mute ans (fun _ => mute_vTaskDelay 12500),
      orders_removeCommand, if_pos (show boat.Afloat from afloat)]
  · rw [removeBoat, if_neg afloat, if_neg (show ¬boat.Afloat from afloat)]
    rfl

theorem orders_removeLoop (slots : List (Fin maxShips)) (m : Mem) :
    orders (Prog.trace ans (removeLoop (slots.map Fin.val)) m) =
      (slots.filter (fun b => (m.game.player.boats b).Afloat)).map
        (fun b => (m.game.player.boats b).removal) := by
  induction slots with
  | nil => rfl
  | cons b slots ih =>
      have slot : m.game.player.boatAt b.val = some (m.game.player.boats b) := dif_pos b.isLt
      simp only [List.map_cons, removeLoop, Prog.trace_bind, Prog.trace_get, Prog.exec_get,
        Prog.traceAfter_done, slot, Prog.trace_ofOption, Prog.exec_ofOption, Option.map_some,
        Outcome.ofOption_some, exec_removeBoat, orders_append, orders_removeBoat, ih,
        List.nil_append]
      by_cases afloat : (m.game.player.boats b).Afloat
      · rw [List.filter_cons_of_pos (by simpa using afloat), if_pos afloat]
        rfl
      · rw [List.filter_cons_of_neg (by simpa using afloat), if_neg afloat]
        rfl

theorem orders_showSunk (target : Side) (b : Fin maxShips) (m : Mem) :
    orders (Prog.trace ans (showSunk target (some b.val)) m) =
      if (m.game.side target).board.isOpp = false then
        [((m.game.side target).boats b).removal] else [] := by
  have slot : (m.game.side target).boatAt b.val = some ((m.game.side target).boats b) :=
    dif_pos b.isLt
  simp only [showSunk, Prog.trace_bind, Prog.trace_get, Prog.exec_get, Prog.traceAfter_done,
    List.nil_append]
  split
  · simp only [Prog.trace_bind, Prog.trace_get, Prog.exec_get, Prog.traceAfter_done,
      exec_sendSoundCommand, exec_vTaskDelay, slot, Prog.trace_ofOption, Prog.exec_ofOption,
      Option.map_some, Outcome.ofOption_some, exec_removeCommand, orders_append,
      (mute_sendSoundCommand _ _).silent ans m, orders_vTaskDelay, orders_removeCommand,
      List.nil_append, List.append_nil]
  · rfl

theorem orders_applyGuess (target : Side) (row col : Int) {m : Mem}
    {e : Player × GuessResult × Option Nat}
    (guess : guessCell (m.game.side target) row col = some e) :
    orders (Prog.trace ans (applyGuess target row col) m) =
      orders (Prog.trace ans (showSunk target e.2.2) (m.setSide target e.1)) := by
  have struck : strike target row col m = some (e.2, m.setSide target e.1) := by
    rw [strike, guess]
    rfl
  rw [applyGuess_strike, Prog.trace_bind, Prog.exec_emit, Prog.traceAfter_done, Prog.trace_bind,
    Prog.trace_tryModify, Prog.exec_tryModify, struck, Outcome.ofOption_some, Prog.traceAfter_done,
    orders_append, List.nil_append, orders_bind_mute ans]
  · rfl
  · exact fun _ => (mute_write _ _).bind fun _ => mute_ret _

end Run

theorem mute_playerMoved (result : GuessResult) : Mute (playerMoved result) :=
  (mute_sendSoundCommand _ _).bind fun _ => mute_renderBoards.bind fun _ =>
    (mute_setTurn _).bind fun _ => (mute_allSunk _).bind fun _ =>
      .ite ((mute_setState _).bind fun _ => mute_sendWsResult _)
        ((mute_setState _).bind fun _ => mute_sendWsGameUpdate _)

theorem mute_opponentMoved : Mute opponentMoved :=
  mute_renderBoards.bind fun _ => (mute_setTurn _).bind fun _ => (mute_allSunk _).bind fun _ =>
    .ite ((mute_setState _).bind fun _ => (mute_sendLedMatrixUpdate 3).bind fun _ =>
        mute_sendWsResult _)
      ((mute_setState _).bind fun _ => mute_sendWsGameUpdate _)

theorem mute_initCase : Mute initCase :=
  Mute.bind ((mute_write _ _).bind fun _ => (mute_sendLedMatrixUpdate 3).bind fun _ =>
    mute_vTaskDelay 1000) fun _ => mute_setState _

theorem mute_gameOverCase : Mute gameOverCase :=
  (mute_vTaskDelay 500).bind fun _ => mute_setState _

theorem sinkCells_isOpp {boat : Boat} {js : List Nat} {b b' : Board}
    (h : sinkCells boat js b = some b') : b'.isOpp = b.isOpp := by
  induction js generalizing b with
  | nil =>
      cases h
      rfl
  | cons j js ih =>
      obtain ⟨c, -, h⟩ := Option.bind_eq_some_iff.mp h
      obtain ⟨b₁, written, h⟩ := Option.bind_eq_some_iff.mp h
      obtain ⟨r, -, written⟩ := Option.bind_eq_some_iff.mp written
      obtain ⟨c, -, eq⟩ := Option.bind_eq_some_iff.mp written
      cases eq
      have kept := ih h
      exact kept

/-- What a guess does to the boats: nothing, or one more hit on one of them. -/
theorem guessCell_boats {p : Player} {row col : Int} {e : Player × GuessResult × Option Nat}
    (h : guessCell p row col = some e) : e.1.board.isOpp = p.board.isOpp ∧
      (e.1.boats = p.boats ∧ e.2.2 = none ∨
      ∃ b : Fin maxShips, e.1.boats = (p.countHit b).boats ∧
        ((p.boats b).hitCount + 1 ≠ (p.boats b).length ∧ e.2.2 = none ∨
        (p.boats b).hitCount + 1 = (p.boats b).length ∧ e.2.2 = some b.val)) := by
  obtain ⟨i, j, -, -, ⟨-, rfl⟩ | ⟨-, -, rfl⟩ | ⟨b, -, -, hit⟩ | ⟨-, -, rfl⟩⟩ := guessCell_cases h
  · exact ⟨rfl, .inl ⟨rfl, rfl⟩⟩
  · exact ⟨rfl, .inl ⟨rfl, rfl⟩⟩
  · obtain ⟨b', rfl, ⟨more, rfl⟩ | ⟨last, board, sunk, rfl⟩⟩ := hitBoat_cases hit
    · exact ⟨rfl, .inr ⟨b', rfl, .inl ⟨more, rfl⟩⟩⟩
    · have kept := sinkCells_isOpp sunk
      exact ⟨kept, .inr ⟨b', rfl, .inr ⟨last, rfl⟩⟩⟩
  · exact ⟨rfl, .inl ⟨rfl, rfl⟩⟩

theorem guessCell_boatCount {p : Player} {row col : Int} {e : Player × GuessResult × Option Nat}
    (h : guessCell p row col = some e) : e.1.boatCount = p.boatCount := by
  obtain ⟨i, j, -, -, ⟨-, rfl⟩ | ⟨-, -, rfl⟩ | ⟨b, -, -, hit⟩ | ⟨-, -, rfl⟩⟩ := guessCell_cases h
  · rfl
  · rfl
  · obtain ⟨b', -, ⟨-, rfl⟩ | ⟨-, board, -, rfl⟩⟩ := hitBoat_cases hit
    · rfl
    · rfl
  · rfl

theorem filter_sunk : ∀ slot : Fin maxShips, (List.finRange maxShips).filter
    (fun b => some slot.val = some b.val) = [slot] := by decide

/-- A guess sends a command for the player's boat it has sunk, if any. -/
theorem orders_guess (ans : ∀ c : Call, c.Ans) {target : Side} {row col : Int} {m : Mem}
    {e : Player × GuessResult × Option Nat}
    (guess : guessCell (m.game.side target) row col = some e) :
    orders (Prog.trace ans (applyGuess target row col) m) =
      if (m.game.side target).board.isOpp = false then
        ((List.finRange maxShips).filter (fun b => e.2.2 = some b.val)).map
          (fun b => (e.1.boats b).removal) else [] := by
  obtain ⟨faces, -⟩ := guessCell_boats guess
  have side : (m.setSide target e.1).game.side target = e.1 := setSide_side m.game target e.1
  rw [orders_applyGuess ans target row col guess]
  cases sunk : e.2.2 with
  | none => simp [showSunk, Prog.trace_ret]
  | some b =>
      obtain ⟨slot, rfl⟩ : ∃ slot : Fin maxShips, b = slot.val :=
        ⟨⟨b, guessCell_slot guess sunk⟩, rfl⟩
      rw [orders_showSunk, side, faces, filter_sunk]
      rfl

/-- The robot is told of a ship of the player, not of one of the opponent. -/
theorem orders_finishRandomShip (ans : ∀ c : Call, c.Ans) (side : Side) (length : Int) (d : Draw)
    (m : Mem) : orders (Prog.trace ans (finishRandomShip side length d) m) =
      if (m.game.side side).board.isOpp = false then [randomOrder (d.request length)] else [] := by
  have placed : orders (Prog.trace ans (placeCommand (4 - length) d length) m) =
      [randomOrder (d.request length)] := by
    rw [placeCommand_sys, Prog.trace_sys, orders_call, randomOrder_order]
    rfl
  have after : Mute (sendWsGameUpdate false >>= fun _ => vTaskDelay 10000 >>= fun _ =>
      countRandomShip side) :=
    (mute_sendWsGameUpdate false).bind fun _ => (mute_vTaskDelay 10000).bind fun _ => mute_write _ _
  rw [finishRandomShip, Prog.trace_bind, Prog.trace_get, Prog.exec_get, Prog.traceAfter_done,
    List.nil_append]
  by_cases own : (m.game.side side).board.isOpp = false
  · rw [if_pos own, if_pos own, ← placed]
    exact orders_bind_mute ans (fun _ => after) m
  · rw [if_neg own, if_neg own]
    exact (mute_write _ _).silent ans m

theorem orders_placeRandomLoop (ans : ∀ c : Call, c.Ans) {side : Side} {lengths : List Int}
    {m : Mem} {r : Player × Rng} (h : randomLoop lengths (m.game.side side) m.rng = some r) :
    ∃ ships, Rounds (m.game.side side) m.rng lengths ships r.1 r.2 ∧
      orders (Prog.trace ans (placeRandomLoop side lengths) m) =
        if (m.game.side side).board.isOpp = false then ships.map randomOrder else [] := by
  induction lengths generalizing m with
  | nil =>
      cases h
      exact ⟨[], .nil _ _, by split <;> rfl⟩
  | cons length rest ih =>
      obtain ⟨⟨found, p', rng'⟩, round, later⟩ := Option.bind_eq_some_iff.mp h
      let m₁ : Mem := { m.setSide side p' with rng := rng' }
      have side₁ : m₁.game.side side = p' := setSide_side m.game side p'
      simp only [placeRandomLoop, Prog.trace_bind, Prog.trace_tryModify, Prog.exec_tryModify,
        round, Option.bind_eq_bind, Option.bind_some, Option.pure_def, Outcome.ofOption_some,
        Prog.traceAfter_done, List.nil_append]
      rcases placeRandomShip_cases round with ⟨rfl, rfl⟩ | ⟨d, room, rfl, fits, eq⟩
      · obtain ⟨ships, rounds, sent⟩ := ih (m := m₁) (by rw [side₁]; exact later)
        rw [side₁] at rounds sent
        exact ⟨ships, placeRandomShip_round round rounds, sent⟩
      · let m₂ : Mem := m₁.setSide side p'.counted
        have side₂ : m₂.game.side side = (m.game.side side).seated room (d.request length) :=
          (setSide_side m₁.game side p'.counted).trans eq
        have faces : p'.counted.board.isOpp =
            ((m.game.side side).seated room (d.request length)).board.isOpp := by rw [eq]
        have faces : p'.board.isOpp = (m.game.side side).board.isOpp := faces
        have finished : Prog.exec ans (finishRandomShip side length d) m₁ = .done ((), m₂) := by
          rw [exec_finishRandomShip, side₁]
        obtain ⟨ships, rounds, sent⟩ := ih (m := m₂) (by rw [side₂, ← eq]; exact later)
        rw [side₂] at rounds sent
        refine ⟨d.request length :: ships, placeRandomShip_round round (eq ▸ rounds), ?_⟩
        change orders (Prog.trace ans (finishRandomShip side length d >>=
          fun _ => placeRandomLoop side rest) m₁) = _
        rw [Prog.trace_bind, finished, Prog.traceAfter_done, orders_append, sent,
          orders_finishRandomShip, side₁, faces]
        have same : ((m.game.side side).seated room (d.request length)).board.isOpp =
            (m.game.side side).board.isOpp := rfl
        rw [same]
        by_cases own : (m.game.side side).board.isOpp = false
        · rw [if_pos own, if_pos own, if_pos own]
          rfl
        · rw [if_neg own, if_neg own, if_neg own]
          rfl

/-- What `place_random_ships` does to its player and tells the robot. -/
theorem placeRandomShips_rounds {ans : ∀ c : Call, c.Ans} {side : Side} {lengths : List Int}
    {m : Mem} {r : Player × Rng}
    (h : randomLoop lengths (m.game.side side).uncounted m.rng = some r) :
    ∃ ships, Rounds (m.game.side side).uncounted m.rng lengths ships r.1 r.2 ∧
      orders (Prog.trace ans (placeRandomShips side lengths) m) =
        if (m.game.side side).board.isOpp = false then ships.map randomOrder else [] := by
  let reset : Mem := m.setSide side (m.game.side side).uncounted
  have side' : reset.game.side side = (m.game.side side).uncounted := setSide_side m.game side _
  obtain ⟨ships, rounds, sent⟩ := orders_placeRandomLoop ans (m := reset) (by rw [side']; exact h)
  rw [side'] at rounds sent
  refine ⟨ships, rounds, ?_⟩
  rw [placeRandomShips, Prog.trace_bind, Prog.exec_modify, Prog.traceAfter_done, orders_append]
  exact sent

theorem orders_placeRandomShips {ans : ∀ c : Call, c.Ans} {side : Side} {lengths : List Int}
    {m : Mem} {e : Unit × Mem} (h : Prog.exec ans (placeRandomShips side lengths) m = .done e) :
    ∃ ships p rng, Seats (m.game.side side).uncounted ships p ∧
      e.2 = { m.setSide side p with rng := rng } ∧
      orders (Prog.trace ans (placeRandomShips side lengths) m) =
        if (m.game.side side).board.isOpp = false then ships.map randomOrder else [] := by
  rw [exec_placeRandomShips] at h
  obtain ⟨r, loop, rfl⟩ := Option.map_eq_some_iff.mp (Outcome.ofOption_eq_done h)
  obtain ⟨ships, rounds, sent⟩ := placeRandomShips_rounds loop
  exact ⟨ships, r.1, r.2, rounds.seats, rfl, sent⟩

/-- What an iteration did to the boats of the player and told the robot. -/
inductive Handled (m m' : Mem) : List IoMessage → Prop
  | kept : m.game.state ≠ .gameRestart → m'.game.player = m.game.player → Handled m m' []
  | created : m.game.state = .init → m'.game.player = clearedGame.player → Handled m m' []
  | placed {ships : List ShipRequest} : m.game.state = .randomInit →
      Seats m.game.player.uncounted ships m'.game.player →
      Handled m m' (ships.map randomOrder)
  | guessed {row col : Int} {result : GuessResult} {sunk : Option Nat} :
      m.game.state = .waitingForOpponent →
      guessCell m.game.player row col = some (m'.game.player, result, sunk) →
      Handled m m' (((List.finRange maxShips).filter (fun b => sunk = some b.val)).map
        (fun b => (m'.game.player.boats b).removal))
  | cleared : m.game.state = .gameRestart → m'.game.player = m.game.player →
      Handled m m' (((List.finRange maxShips).filter (fun b => (m.game.player.boats b).Afloat)).map
        (fun b => (m.game.player.boats b).removal))

section Moves
variable {ans : ∀ c : Call, c.Ans} {m : Mem} {e : Unit × Mem}

theorem webInitCase_handled (sided : m.Sided) (state : m.game.state = .webInit)
    (h : Prog.exec ans webInitCase m = .done e) :
    Handled m e.2 (orders (Prog.trace ans webInitCase m)) := by
  have other : m.game.state ≠ .gameRestart := by
    rw [state]
    nofun
  simp only [webInitCase, Prog.exec_bind, Prog.exec_get, Outcome.bind_done] at h
  simp only [webInitCase, Prog.trace_bind, Prog.trace_get, Prog.exec_get, Prog.traceAfter_done,
    List.nil_append]
  cases ready : m.game.gameReady with
  | false =>
      rw [ready] at h
      cases h
      exact .kept other rfl
  | true =>
      rw [ready, if_pos rfl] at h
      simp only [Prog.exec_bind, exec_setState, Outcome.bind_done, renderBoard,
        Prog.exec_modify] at h
      obtain ⟨ships, p, rng, seats, eq, sent⟩ := orders_placeRandomShips h
      have silent := sent.trans (if_neg (by simp [Mem.setState, Game.side, sided.opp]))
      have kept : e.2.game.player = m.game.player := by
        rw [eq]
        rfl
      rw [if_pos rfl, (mute_setState _).first (exec_setState ans _ m),
        (mute_renderBoard _ _ _).first (Prog.exec_modify ans _ _), silent]
      exact .kept other kept

theorem randomInitCase_handled (sided : m.Sided) (state : m.game.state = .randomInit)
    (h : Prog.exec ans randomInitCase m = .done e) :
    Handled m e.2 (orders (Prog.trace ans randomInitCase m)) := by
  rw [randomInitCase_eq] at h ⊢
  rw [Prog.exec_bind] at h
  obtain ⟨r, first, h⟩ := Outcome.bind_eq_done h
  obtain ⟨ships, p, rng, seats, eq, sent⟩ := orders_placeRandomShips first
  rw [Prog.exec_bind] at h
  obtain ⟨r', second, h⟩ := Outcome.bind_eq_done h
  obtain ⟨ships', p', rng', seats', eq', sent'⟩ := orders_placeRandomShips second
  have opp : r.2.game.opponent.board.isOpp = true := by
    rw [eq]
    exact sided.opp
  simp only [renderBoard, Prog.exec_bind, Prog.exec_modify, exec_vTaskDelay, exec_setState,
    Outcome.bind_done] at h
  cases h
  have final : orders (Prog.trace ans (do
      placeRandomShips .player shipLengths
      placeRandomShips .opponent shipLengths
      renderBoard .player playerMatrix true
      vTaskDelay 1000
      setState .waitingForPlayer) m) = ships.map randomOrder := by
    rw [orders_bind_done first, sent.trans (if_pos sided.own), orders_bind_mute ans,
      sent'.trans (if_neg (by simp [Game.side, opp])), List.append_nil]
    · exact fun _ => (mute_renderBoard _ _ _).bind fun _ => (mute_vTaskDelay 1000).bind fun _ =>
        mute_setState _
  rw [final]
  refine .placed state ?_
  have kept : r'.2.game.player = p := by
    rw [eq', eq]
    rfl
  exact kept ▸ seats

theorem waitingForPlayerCase_handled {msg : Option IoMessage} (sided : m.Sided)
    (state : m.game.state = .waitingForPlayer)
    (h : Prog.exec (answer msg) waitingForPlayerCase m = .done e) :
    Handled m e.2 (orders (Prog.trace (answer msg) waitingForPlayerCase m)) := by
  have other : m.game.state ≠ .gameRestart := by
    rw [state]
    nofun
  rw [waitingForPlayerCase_received, Prog.exec_bind, Prog.exec_sys, Outcome.bind_done] at h
  rw [waitingForPlayerCase_received, Mute.first (mute_sys rfl) (Prog.exec_sys _ _ m)]
  cases msg with
  | none =>
      cases h
      exact .kept other rfl
  | some msg =>
      simp only [answer, received] at h ⊢
      by_cases button : msg.isType "BUTTON" = true
      · rw [if_pos button] at h ⊢
        rw [exec_guessAt] at h
        obtain ⟨g, guess, h⟩ := Outcome.bind_eq_done h
        have struck := Outcome.ofOption_eq_done guess
        have mute : orders (Prog.trace (answer (some msg)) (guessAt (buttonCoordinate msg)) m) = [] := by
          rw [guessAt, orders_bind_mute _ (fun result => .ite (mute_ret _) (mute_playerMoved _)),
            @orders_guess _ .opponent _ _ _ _ struck]
          exact if_neg (by simp [Game.side, sided.opp])
        rw [mute]
        refine .kept other ?_
        split at h
        · cases h
          rfl
        · obtain ⟨gone, -, eq⟩ := playerMoved_game h
          rw [eq]
          rfl
      · rw [if_neg button] at h ⊢
        cases h
        exact .kept other rfl

theorem opponentMove_handled {lim : Limits} (sided : m.Sided)
    (state : m.game.state = .waitingForOpponent)
    (h : Prog.exec ans (opponentMove lim) m = .done e) :
    Handled m e.2 (orders (Prog.trace ans (opponentMove lim) m)) := by
  have ran := h
  rw [exec_opponentMove] at ran
  obtain ⟨g, aim, ran⟩ := Outcome.bind_eq_done ran
  obtain ⟨r, guess, ran⟩ := Outcome.bind_eq_done ran
  obtain ⟨ai, -, ran⟩ := Outcome.bind_eq_done ran
  have struck := Outcome.ofOption_eq_done guess
  have kept : e.2.game.player = r.1 := by
    split at ran
    · cases ran
      rfl
    · obtain ⟨gone, -, eq⟩ := opponentMoved_game ran
      rw [eq]
      rfl
  let m₁ : Mem := { m with smartAiState := g.2.1, rng := g.2.2 }
  have aimed : Prog.exec ans (opponentGuess lim) m = .done (g.1, m₁) := by
    rw [opponentGuess, Prog.exec_attempt, aim]
    rfl
  have sent : orders (Prog.trace ans (opponentMove lim) m) =
      ((List.finRange maxShips).filter (fun b => r.2.2 = some b.val)).map
        (fun b => (r.1.boats b).removal) := by
    rw [opponentMove, Mute.first (t := opponentGuess lim) (mute_attempt _) aimed,
      orders_bind_mute ans, @orders_guess ans .player _ _ m₁ _ struck]
    · exact if_pos sided.own
    · exact fun result => Mute.bind (mute_tryModify _) fun _ =>
        .ite (mute_ret _) mute_opponentMoved
  have final : guessCell m.game.player g.1.row g.1.col =
      some (e.2.game.player, r.2.1, r.2.2) := by
    rw [kept]
    exact struck
  rw [sent, ← kept]
  exact .guessed state final

/-- An iteration handles the player's boats in one of these ways. -/
theorem iteration_handled {lim : Limits} {msg : Option IoMessage} (sided : m.Sided)
    (h : Prog.exec (answer msg) (gameIteration lim) m = .done e) :
    Handled m e.2 (orders (Prog.trace (answer msg) (gameIteration lim) m)) := by
  rw [exec_gameIteration] at h
  have sent : orders (Prog.trace (answer msg) (gameIteration lim) m) =
      orders (Prog.trace (answer msg) (gameSwitch lim m.game.state) m) := by
    rw [gameIteration, mute_get.first (Prog.exec_get _ m), orders_bind_mute _ fun _ => mute_loopTail]
  rw [sent]
  cases state : m.game.state with
  | init =>
      rw [state] at h
      rw [gameSwitch, mute_initCase.silent]
      simp only [gameSwitch, initCase, gameInit, Prog.exec_bind, Prog.exec_modify,
        Outcome.bind_done, exec_sendLedMatrixUpdate, exec_vTaskDelay, exec_setState] at h
      cases h
      exact .created state rfl
  | webInit =>
      rw [state] at h
      exact webInitCase_handled sided state h
  | randomInit =>
      rw [state] at h
      exact randomInitCase_handled sided state h
  | running =>
      rw [state] at h
      cases h
      exact .kept (by simp [state]) rfl
  | waitingForOpponent =>
      rw [state] at h
      rw [gameSwitch, waitingForOpponentCase, (mute_vTaskDelay 2000).first (Prog.exec_sys _ _ m)]
      exact opponentMove_handled sided state h
  | waitingForPlayer =>
      rw [state] at h
      exact waitingForPlayerCase_handled sided state h
  | gameOver =>
      rw [state] at h
      rw [gameSwitch, mute_gameOverCase.silent]
      cases h
      exact .kept (by simp [state]) rfl
  | gameRestart =>
      rw [state] at h
      rw [gameSwitch, exec_gameRestart] at h
      cases h
      have sent : orders (Prog.trace (answer msg) gameRestartCase m) =
          ((List.finRange maxShips).filter (fun b => (m.game.player.boats b).Afloat)).map
            (fun b => (m.game.player.boats b).removal) := by
        rw [gameRestartCase, (mute_write _ _).first (t := Prog.modify engineRestart)
            (Prog.exec_modify _ _ m), orders_bind_mute _ fun _ => mute_setState _]
        exact orders_removeLoop (answer msg) (List.finRange maxShips) (engineRestart m)
      rw [gameSwitch, sent]
      exact .cleared state rfl

end Moves

theorem GameMove.isOpp {g g' : Game} (h : GameMove g g') {side : Side}
    (faces : (g.side side).board.isOpp = decide (side = .opponent)) :
    (g'.side side).board.isOpp = decide (side = .opponent) := by
  cases h with
  | created => cases side <;> rfl
  | stayed => exact faces
  | started _ _ seats =>
      cases side with
      | player => exact faces
      | opponent => exact seats.isOpp.trans faces
  | randomized _ seats _ seats' =>
      cases side with
      | player => exact seats.isOpp.trans faces
      | opponent => exact seats'.isOpp.trans faces
  | @guessed side' row col e turn v guess =>
      obtain ⟨kept, -⟩ := guessCell_boats guess
      cases side <;> cases side' <;> first
        | exact faces
        | exact kept.trans faces
  | passed => exact faces

theorem Mem.Sided.move {m m' : Mem} (h : m.Sided) (move : GameMove m.game m'.game) : m'.Sided :=
  ⟨@GameMove.isOpp _ _ move .player h.own, @GameMove.isOpp _ _ move .opponent h.opp⟩

end Battleship
