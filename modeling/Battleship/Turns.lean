import Battleship.Aiming
import Battleship.Iteration
import Battleship.Shots

/-!
# Whole turns

A turn of either side on a represented board: the shot it fires, the memory it
leaves and the plays it logs.
-/
namespace Battleship
open Cooperative Salvo

theorem scanSunk_spec {p : Player} {bs : List Nat} (small : ∀ b ∈ bs, b < maxShips) :
    ∃ gone, scanSunk p bs = some gone ∧ (gone = true ↔ ∀ b : Fin maxShips, b.val ∈ bs →
      (p.boats b).length ≤ (p.boats b).hitCount) := by
  induction bs with
  | nil => exact ⟨true, rfl, by simp⟩
  | cons b bs ih =>
      have slot : p.boatAt b = some (p.boats ⟨b, small b List.mem_cons_self⟩) :=
        dif_pos (small b List.mem_cons_self)
      obtain ⟨gone, eq, iff⟩ := ih fun b' hb' => small b' (List.mem_cons_of_mem b hb')
      simp only [scanSunk, slot, Option.bind_eq_bind, Option.bind_some]
      by_cases afloat : (p.boats ⟨b, small b List.mem_cons_self⟩).hitCount <
          (p.boats ⟨b, small b List.mem_cons_self⟩).length
      · refine ⟨false, if_pos afloat, iff_of_false nofun fun all => ?_⟩
        exact absurd (all ⟨b, small b List.mem_cons_self⟩ List.mem_cons_self) (not_le.mpr afloat)
      · refine ⟨gone, by rw [if_neg afloat, eq], iff.trans ?_⟩
        constructor
        · intro all b' hb'
          rcases List.mem_cons.mp hb' with rfl | later
          · exact not_lt.mp afloat
          · exact all b' later
        · exact fun all b' hb' => all b' (List.mem_cons_of_mem b hb')

/-- No cell of the board shows a ship. -/
def Board.NoShip (b : Board) : Prop := ∀ c : Cell, b.cells c.1 c.2 ≠ .ship

/-- `all_ships_sunk` tells whether the board still shows a ship. -/
theorem allShipsSunk_iff {p : Player} {B : Battle (Fin maxShips) Cell} (h : p.Represents B) :
    ∃ gone, allShipsSunk p = some gone ∧ (gone = true ↔ p.board.NoShip) := by
  have slots : ∀ b ∈ List.range p.boatCount, b < maxShips := fun b hb =>
    lt_of_lt_of_le (List.mem_range.mp hb) h.count
  obtain ⟨gone, eq, iff⟩ := scanSunk_spec (p := p) slots
  refine ⟨gone, eq, iff.trans ?_⟩
  have shown : p.board.NoShip ↔ ¬∃ c, B.mark c = .ship := by
    rw [not_exists]
    exact forall_congr' fun c => not_congr (h.cell_iff c .ship)
  rw [shown, B.ship_mark_iff, not_exists]
  refine forall_congr' fun b => ?_
  by_cases used : b.val < p.boatCount
  · have le : (p.boats b).hitCount ≤ (p.boats b).length := by
      rw [h.hits b used, ← h.card_ships used]
      exact Int.ofNat_le.mpr (B.hits_le b)
    rw [not_not, ← h.sunk_iff used]
    constructor
    · exact fun all => le_antisymm le (all (List.mem_range.mpr used))
    · exact fun eq _ => eq.ge
  · have none : B.ships b = ∅ := by rw [h.ships b, if_neg used]
    refine iff_of_true (fun hb => absurd (List.mem_range.mp hb) used) ?_
    rw [not_not, Battle.Sunk, none]
    exact Finset.empty_subset _

section Plays
variable (ans : ∀ c : Call, c.Ans)

theorem plays_playerMoved (result : GuessResult) {m : Mem} {gone : Bool}
    (sunk : allShipsSunk m.game.opponent = some gone) :
    plays (Prog.trace ans (playerMoved result) m) = if gone then [.wsResult .player] else [] := by
  cases gone with
  | true => simp [playerMoved, Game.side, sunk]
  | false => simp [playerMoved, Game.side, sunk]

theorem plays_opponentMoved {m : Mem} {gone : Bool}
    (sunk : allShipsSunk m.game.player = some gone) :
    plays (Prog.trace ans opponentMoved m) = if gone then [.wsResult .opponent] else [] := by
  cases gone with
  | true => simp [opponentMoved, Game.side, sunk]
  | false => simp [opponentMoved, Game.side, sunk]

theorem plays_gameIteration (lim : Limits) (m : Mem) :
    plays (Prog.trace ans (gameIteration lim) m) =
      plays (Prog.trace ans (gameSwitch lim m.game.state) m) := by
  have opened : Prog.trace ans (gameIteration lim) m =
      Prog.trace ans (gameSwitch lim m.game.state >>= fun _ => loopTail) m := rfl
  rw [opened, Prog.trace_bind, plays_append]
  cases Prog.exec ans (gameSwitch lim m.game.state) m with
  | done r => simp
  | undefined => simp
  | starved => simp

theorem plays_guessAt {coord : Coordinate} {m : Mem} {e : Player × GuessResult × Option Nat}
    (guess : guessCell m.game.opponent coord.row coord.col = some e) :
    plays (Prog.trace ans (guessAt coord) m) =
      .guessed .opponent e.2.1 :: if e.2.1 = .rejected then []
        else plays (Prog.trace ans (playerMoved e.2.1) (m.setSide .opponent e.1)) := by
  have logged := plays_applyGuess ans .opponent m guess
  simp only [guessAt, Prog.trace_bind, plays_append, logged, exec_applyGuess, Game.side, guess,
    Option.map_some, Outcome.ofOption_some, Prog.traceAfter_done]
  split <;> rfl

theorem plays_opponentMove {lim : Limits} {m : Mem} {g : Coordinate × AiState × Rng}
    {e : Player × GuessResult × Option Nat} {ai : AiState × Board}
    (guess : engineGetGuess lim.fuel m.game.difficulty m.aiGuessBoard m.smartAiState m.rng = .done g)
    (struck : guessCell m.game.player g.1.row g.1.col = some e)
    (updated : engineUpdateSmartAi lim.hitsSize g.2.1 m.aiGuessBoard g.1.row g.1.col e.2.1 =
      some ai) :
    plays (Prog.trace ans (opponentMove lim) m) =
      .guessed .player e.2.1 :: if e.2.1 = .rejected then []
        else plays (Prog.trace ans opponentMoved (m.tracked e.1 g.2.2 ai)) := by
  let aimed : Mem := { m with smartAiState := g.2.1, rng := g.2.2 }
  have first : Prog.exec ans (opponentGuess lim) m = .done (g.1, aimed) := by
    rw [opponentGuess, Prog.exec_attempt, guess]
    rfl
  have second : Prog.exec ans (applyGuess .player g.1.row g.1.col) aimed =
      .done (e.2.1, aimed.setSide .player e.1) := by
    rw [exec_applyGuess, show aimed.game.side .player = m.game.player from rfl, struck]
    rfl
  have third : Prog.exec ans (updateSmartAi lim g.1 e.2.1) (aimed.setSide .player e.1) =
      .done ((), m.tracked e.1 g.2.2 ai) := by
    rw [updateSmartAi, Prog.exec_tryModify]
    have same : engineUpdateSmartAi lim.hitsSize (aimed.setSide .player e.1).smartAiState
        (aimed.setSide .player e.1).aiGuessBoard g.1.row g.1.col e.2.1 = some ai := updated
    simp only [same, Option.bind_eq_bind, Option.bind_some]
    rfl
  have logged := plays_applyGuess ans .player aimed struck
  simp only [opponentMove, Prog.trace_bind, plays_append, plays_steady (opponentGuess_steady lim),
    first, Prog.traceAfter_done, logged, second, plays_steady (updateSmartAi_steady lim _ _), third]
  split <;> rfl

end Plays

/-- The first two payload bytes of a button message are inside the grid. -/
def IoMessage.OnGrid (msg : IoMessage) : Prop :=
  msg.isType "BUTTON" = true → ∀ i : Fin 24, i.val < 2 → (msg.payload i).toNat < gridSize

theorem buttonCoordinate_coord {msg : IoMessage} (button : msg.isType "BUTTON" = true)
    (inside : msg.OnGrid) : ∃ c : Cell, buttonCoordinate msg = c.coord := by
  have col := inside button 0 (by decide)
  have row := inside button 1 (by decide)
  simp only [gridSize] at col row
  refine ⟨(⟨(msg.payload 1).toNat, row⟩, ⟨4 - (msg.payload 0).toNat, by simp only [gridSize]; omega⟩),
    ?_⟩
  simp only [buttonCoordinate, Cell.coord, gridSize, Coordinate.mk.injEq, true_and]
  omega

theorem exec_waitingForPlayer (lim : Limits) {m : Mem} (state : m.game.state = .waitingForPlayer)
    (msg : Option IoMessage) :
    Prog.exec (answer msg) (gameIteration lim) m = Prog.exec (answer msg) (received msg) m ∧
      plays (Prog.trace (answer msg) (gameIteration lim) m) =
        plays (Prog.trace (answer msg) (received msg) m) := by
  rw [exec_gameIteration, plays_gameIteration, state, gameSwitch, waitingForPlayerCase_received]
  exact ⟨rfl, rfl⟩

/-- A message that is no button press leaves everything. -/
theorem idleTurn (lim : Limits) {m : Mem} (state : m.game.state = .waitingForPlayer)
    {msg : Option IoMessage} (other : ∀ x, msg = some x → ¬x.isType "BUTTON" = true) :
    Prog.exec (answer msg) (gameIteration lim) m = .done ((), m) ∧
      plays (Prog.trace (answer msg) (gameIteration lim) m) = [] := by
  have idle : received msg = .ret () := by
    cases msg with
    | none => rfl
    | some x => exact if_neg (other x rfl)
  obtain ⟨exec, log⟩ := exec_waitingForPlayer lim state msg
  rw [exec, log, idle]
  exact ⟨rfl, rfl⟩

/-- The memory after an accepted guess of the player. -/
def Mem.playerShot (m : Mem) (p : Player) (gone : Bool) : Mem :=
  (m.setSide .opponent p).moved true (if gone then .gameOver else .waitingForOpponent)

/-- A button press fires at the opponent; a cell that was shot at before only
costs the press. -/
theorem playerTurn (lim : Limits) {m : Mem} (state : m.game.state = .waitingForPlayer)
    {B : Battle (Fin maxShips) Cell} (h : m.game.opponent.Represents B) {msg : IoMessage}
    (button : msg.isType "BUTTON" = true) (inside : msg.OnGrid) :
    ∃ c e gone, FiresAt m.game.opponent B c e ∧ (gone = true ↔ e.1.board.NoShip) ∧
      Prog.exec (answer (some msg)) (gameIteration lim) m = .done ((),
        if B.verdict c = .again then m.setSide .opponent e.1 else m.playerShot e.1 gone) ∧
      plays (Prog.trace (answer (some msg)) (gameIteration lim) m) = .guessed .opponent e.2.1 ::
        if B.verdict c = .again then [] else if gone then [.wsResult .player] else [] := by
  obtain ⟨c, at_c⟩ := buttonCoordinate_coord button inside
  obtain ⟨e, guess, fires⟩ := guessCell_fire h c
  obtain ⟨gone, sunk, ended⟩ := allShipsSunk_iff fires.represents
  refine ⟨c, e, gone, fires, ended, ?_⟩
  obtain ⟨exec, log⟩ := exec_waitingForPlayer lim state (some msg)
  have taken : received (some msg) = guessAt c.coord := by
    rw [← at_c]
    exact if_pos button
  have test : allShipsSunk (m.setSide .opponent e.1).game.opponent = some gone := sunk
  rw [exec, log, taken, exec_guessAt, plays_guessAt _ guess, guess, Outcome.ofOption_some,
    Outcome.bind_done]
  simp only [fires.rejected_iff]
  by_cases again : B.verdict c = .again
  · rw [if_pos again, if_pos again, if_pos again, if_pos again]
    exact ⟨rfl, rfl⟩
  · rw [if_neg again, if_neg again, if_neg again, if_neg again, exec_playerMoved, test,
      plays_playerMoved _ _ test]
    exact ⟨rfl, rfl⟩

/-- The guess board is empty exactly where no shot went, shows no ship, sunk or
not, and shows a miss only where none lies. -/
structure Couples (b : Board) (B : Battle (Fin maxShips) Cell) : Prop where
  water : ∀ c : Cell, b.cells c.1 c.2 = .empty ↔ c ∉ B.shots
  noShip : b.NoShip
  noneSunk : ∀ c : Cell, b.cells c.1 c.2 ≠ .sunk
  missed : ∀ (c : Cell) (i : Fin maxShips), b.cells c.1 c.2 = .miss → c ∉ B.ships i

theorem couples_start {b : Board} {B : Battle (Fin maxShips) Cell}
    (empty : ∀ c : Cell, b.cells c.1 c.2 = .empty) (unshot : B.shots = ∅) : Couples b B := by
  refine ⟨fun c => ?_, fun c => ?_, fun c => ?_, fun c i miss => ?_⟩
  · simp [empty c, unshot]
  · simp [empty c]
  · simp [empty c]
  · simp [empty c] at miss

theorem couples_set {b : Board} {B : Battle (Fin maxShips) Cell} (h : Couples b B) (c : Cell)
    {v : CellState} (shown : v = .hit ∨ v = .miss ∧ ∀ i, c ∉ B.ships i) :
    Couples (b.set c.1 c.2 v) (B.fire c) := by
  have cell : ∀ x : Cell, (b.set c.1 c.2 v).cells x.1 x.2 =
      if x = c then v else b.cells x.1 x.2 := by
    intro x
    rw [Board.set_cells]
    exact if_congr Prod.ext_iff.symm rfl rfl
  have other : v ≠ .empty ∧ v ≠ .ship ∧ v ≠ .sunk := by
    rcases shown with rfl | ⟨rfl, -⟩ <;> simp
  refine ⟨fun x => ?_, fun x => ?_, fun x => ?_, fun x i miss => ?_⟩
  · rw [cell, B.fire_shots, Finset.mem_insert, not_or, ← h.water x]
    by_cases same : x = c
    · simp [same, other]
    · simp [same]
  · rw [cell]
    split
    · exact other.2.1
    · exact h.noShip x
  · rw [cell]
    split
    · exact other.2.2
    · exact h.noneSunk x
  · rw [cell] at miss
    split at miss
    · rcases shown with rfl | ⟨-, none⟩
      · cases miss
      · subst x
        exact none i
    · exact h.missed x i miss

/-- The tracker without a bound takes any result, and the guess board follows. -/
theorem engineUpdate_couples {b : Board} {B : Battle (Fin maxShips) Cell} (h : Couples b B)
    {st : AiState} (aimed : st.Aimed) {c : Cell} (fresh : c ∉ B.shots) :
    ∃ ai, engineUpdateSmartAi none st b c.coord.row c.coord.col (.ofVerdict (B.verdict c)) =
      some ai ∧ Couples ai.2 (B.fire c) ∧ ai.1.Aimed := by
  cases verdict : B.verdict c with
  | again => exact absurd (B.verdict_again_iff.mp verdict) fresh
  | miss =>
      have none : ∀ i, c ∉ B.ships i := by
        intro i hi
        rw [B.verdict_of_mem fresh hi] at verdict
        split at verdict <;> cases verdict
      refine ⟨(st, b.set c.1 c.2 .miss), ?_, couples_set h c (.inr ⟨rfl, none⟩), aimed⟩
      simp [engineUpdateSmartAi, aiUpdateSmart, recordGuess, GuessResult.ofVerdict,
        Board.write_coord]
  | sunk =>
      refine ⟨(aiResetSmart, b.set c.1 c.2 .hit), ?_, couples_set h c (.inl rfl),
        aiResetSmart_aimed⟩
      simp [engineUpdateSmartAi, aiUpdateSmart, recordGuess, GuessResult.ofVerdict,
        Board.write_coord]
  | hit =>
      let grown : AiState := { st with hits := st.hits ++ [c.coord], hunting := false }
      have kept : grown.Aimed := aimed
      refine ⟨({ grown with targetDir := lineDir grown }, b.set c.1 c.2 .hit), ?_,
        couples_set h c (.inl rfl), lineDir_aimed kept⟩
      simp [engineUpdateSmartAi, aiUpdateSmart, hasRoom, recordGuess, GuessResult.ofVerdict,
        Board.write_coord, grown]

/-- The memory after a guess of the opponent. -/
def Mem.opponentShot (m : Mem) (p : Player) (rng : Rng) (ai : AiState × Board) (gone : Bool) : Mem :=
  (m.tracked p rng ai).moved false (if gone then .gameOver else .waitingForPlayer)

/-- The opponent fires at a cell it has not shot at, unless its random search
does not return. -/
theorem opponentTurn (fuel : Nat) {m : Mem} (state : m.game.state = .waitingForOpponent)
    {B : Battle (Fin maxShips) Cell} (h : m.game.player.Represents B)
    (couples : Couples m.aiGuessBoard B) (aimed : m.smartAiState.Aimed)
    (left : ∃ c, c ∉ B.shots) (msg : Option IoMessage) :
    Prog.exec (answer msg) (gameIteration ⟨fuel, none⟩) m = .starved ∧
        aiGuessRandom m.aiGuessBoard fuel m.rng = .starved ∨
      ∃ c e rng ai gone, FiresAt m.game.player B c e ∧ c ∉ B.shots ∧
        (gone = true ↔ e.1.board.NoShip) ∧ Couples ai.2 (B.fire c) ∧ ai.1.Aimed ∧
        Prog.exec (answer msg) (gameIteration ⟨fuel, none⟩) m =
          .done ((), m.opponentShot e.1 rng ai gone) ∧
        plays (Prog.trace (answer msg) (gameIteration ⟨fuel, none⟩) m) =
          .guessed .player e.2.1 :: if gone then [.wsResult .opponent] else [] := by
  have exec : Prog.exec (answer msg) (gameIteration ⟨fuel, none⟩) m =
      Prog.exec (answer msg) (opponentMove ⟨fuel, none⟩) m := by
    rw [exec_gameIteration, state]
    rfl
  have log : plays (Prog.trace (answer msg) (gameIteration ⟨fuel, none⟩) m) =
      plays (Prog.trace (answer msg) (opponentMove ⟨fuel, none⟩) m) := by
    rw [plays_gameIteration, state]
    rfl
  obtain ⟨c₀, fresh₀⟩ := left
  rcases engineGetGuess_open aimed ((couples.water c₀).mpr fresh₀) couples.noShip fuel
    m.game.difficulty m.rng with ⟨starved, random⟩ | ⟨_, st, rng, guess, ⟨c, rfl, empty⟩, kept⟩
  · exact .inl ⟨by rw [exec, exec_opponentMove, starved]; rfl, random⟩
  · have fresh := (couples.water c).mp empty
    have tracker : st.Aimed := by
      rcases kept with rfl | rfl
      · exact aimed
      · exact aiResetSmart_aimed
    obtain ⟨e, struck, fires⟩ := guessCell_fire h c
    obtain ⟨ai, updated, coupled, aims⟩ := engineUpdate_couples couples tracker fresh
    obtain ⟨gone, sunk, ended⟩ := allShipsSunk_iff fires.represents
    rw [← fires.result] at updated
    have accepted : e.2.1 ≠ .rejected := fun again =>
      fresh (B.verdict_again_iff.mp (fires.rejected_iff.mp again))
    have test : allShipsSunk (m.tracked e.1 rng ai).game.player = some gone := sunk
    refine .inr ⟨c, e, rng, ai, gone, fires, fresh, ended, coupled, aims, ?_, ?_⟩
    · rw [exec, exec_opponentMove, guess, Outcome.bind_done, struck, Outcome.ofOption_some,
        Outcome.bind_done, updated, Outcome.ofOption_some, Outcome.bind_done, if_neg accepted,
        exec_opponentMoved, test]
      rfl
    · rw [log, plays_opponentMove _ guess struck updated, if_neg accepted,
        plays_opponentMoved _ test]

end Battleship
