import Battleship.Turns
import Battleship.Lib.Runs
import Mathlib.Data.Fin.VecNotation

/-!
# A match

The game task from a fresh position to GAME_RESTART, one message an iteration.
The grid of each side and the guess board of the opponent are two battles that
grow by one shot with each accepted guess.
-/
namespace Battleship
open Cooperative Runs Salvo

def Side.other : Side → Side
  | .player => .opponent
  | .opponent => .player

/-- Who made the accepted guesses of a log. -/
def accepted (log : List Out) : List Side :=
  log.filterMap (fun o => match o with
    | .guessed target result => if result = .rejected then none else some target.other
    | _ => none)

/-- The winners that `send_ws_result` was called with. -/
def results (log : List Out) : List Side :=
  log.filterMap (fun o => match o with
    | .wsResult winner => some winner
    | _ => none)

theorem accepted_append (a b : List Out) : accepted (a ++ b) = accepted a ++ accepted b :=
  List.filterMap_append

theorem results_append (a b : List Out) : results (a ++ b) = results a ++ results b :=
  List.filterMap_append

/-- The player first, and then in turn. -/
def turnOrder (n : Nat) : List Side :=
  (List.range n).map (fun k => if k % 2 = 0 then .player else .opponent)

theorem turnOrder_succ (n : Nat) :
    turnOrder (n + 1) = turnOrder n ++ [if n % 2 = 0 then .player else .opponent] := by
  simp [turnOrder, List.range_succ]

instance (b : Board) : Decidable b.NoShip :=
  inferInstanceAs (Decidable (∀ c : Cell, b.cells c.1 c.2 ≠ .ship))

/-- The memory, the plays so far, and who made an accepted guess that left no
ship on the board it went to. -/
structure Match where
  mem : Mem
  log : List Out
  decisive : List Side

/-- One iteration, until GAME_RESTART ends the match. -/
def matchStep (fuel : Nat) (s : Match) (msg : Option IoMessage) : Option Match :=
  if s.mem.game.state = .gameRestart then none
  else
    let played := plays (Prog.trace (answer msg) (gameIteration ⟨fuel, none⟩) s.mem)
    (Outcome.memory (Prog.exec (answer msg) (gameIteration ⟨fuel, none⟩) s.mem)).map (fun m => {
      mem := m
      log := s.log ++ played
      decisive := s.decisive ++
        (accepted played).filter (fun side => (m.game.side side.other).board.NoShip) })

/-- Boats that do not touch each other's cells, none of them hit, and a grid that
shows them and nothing else. -/
structure Player.Fresh (p : Player) : Prop where
  count : p.boatCount ≤ maxShips
  sound : ∀ b : Fin maxShips, b.val < p.boatCount → (p.boats b).Sound
  apart : ∀ b b' : Fin maxShips, b.val < p.boatCount → b'.val < p.boatCount → b ≠ b' →
    Disjoint (p.boats b).cells (p.boats b').cells
  unhit : ∀ b : Fin maxShips, b.val < p.boatCount → (p.boats b).hitCount = 0
  ship : ∀ c : Cell, (∃ b : Fin maxShips, b.val < p.boatCount ∧ c ∈ (p.boats b).cells) →
    p.board.cells c.1 c.2 = .ship
  water : ∀ c : Cell, (¬∃ b : Fin maxShips, b.val < p.boatCount ∧ c ∈ (p.boats b).cells) →
    p.board.cells c.1 c.2 = .empty

/-- A match about to begin. -/
structure KickOff (s : Match) : Prop where
  state : s.mem.game.state = .waitingForPlayer
  player : s.mem.game.player.Fresh
  opponent : s.mem.game.opponent.Fresh
  guessBoard : ∀ c : Cell, s.mem.aiGuessBoard.cells c.1 c.2 = .empty
  tracker : s.mem.smartAiState = aiResetSmart
  log : s.log = []
  decisive : s.decisive = []

/-- Button messages have both payload bytes inside the grid. -/
def Playable (_ : Match) (msg : Option IoMessage) : Prop := ∀ x, msg = some x → x.OnGrid

/-- What the plays and the state of a match have to look like. -/
structure Match.Fair (s : Match) : Prop where
  alternates : accepted s.log = turnOrder (accepted s.log).length
  valid : Out.guessed .player .rejected ∉ s.log
  bounded : ∀ side, (accepted s.log).count side ≤ 25
  ends : (s.mem.game.state = .waitingForPlayer ∨ s.mem.game.state = .waitingForOpponent) ∧
      s.decisive = [] ∧ results s.log = [] ∨
    (s.mem.game.state = .gameOver ∨ s.mem.game.state = .gameRestart) ∧
      ∃ side, s.decisive = [side] ∧ results s.log = [side] ∧
        (accepted s.log).getLast? = some side

theorem Player.Fresh.represents {p : Player} (h : p.Fresh) :
    ∃ B, p.Represents B ∧ B.shots = ∅ := by
  let B := p.battle ∅ h.apart
  refine ⟨B, ⟨h.count, h.sound, fun b => rfl, fun b used => ?_, fun c => ?_⟩, rfl⟩
  · rw [h.unhit b used]
    simp [Battle.hits, B, Player.battle]
  · by_cases owned : ∃ b, c ∈ B.ships b
    · rw [B.mark_eq_ship.mpr ⟨owned, Finset.notMem_empty c⟩]
      exact h.ship c (owned.imp fun b => mem_battle.mp)
    · have none : ∀ b, c ∉ B.ships b := fun b hb => owned ⟨b, hb⟩
      rw [B.mark_eq_water.mpr ⟨none, Finset.notMem_empty c⟩]
      exact h.water c fun some_boat => owned (some_boat.imp fun b => mem_battle.mpr)

/-- Whose turn it is, or how it ended. -/
inductive Match.Phase (s : Match) (Bp : Battle (Fin maxShips) Cell) : Prop
  | player : s.mem.game.state = .waitingForPlayer → (accepted s.log).length % 2 = 0 →
      (∃ c, c ∉ Bp.shots) → s.decisive = [] → results s.log = [] → Match.Phase s Bp
  | opponent : s.mem.game.state = .waitingForOpponent → (accepted s.log).length % 2 = 1 →
      (∃ c, c ∉ Bp.shots) → s.decisive = [] → results s.log = [] → Match.Phase s Bp
  | finished {side : Side} : s.mem.game.state = .gameOver ∨ s.mem.game.state = .gameRestart →
      s.decisive = [side] → results s.log = [side] → (accepted s.log).getLast? = some side →
      Match.Phase s Bp

/-- Both boards, the guess board and the log tell the same shots. -/
structure Match.InPlay (s : Match) (Bp Bo : Battle (Fin maxShips) Cell) : Prop where
  player : s.mem.game.player.Represents Bp
  opponent : s.mem.game.opponent.Represents Bo
  couples : Couples s.mem.aiGuessBoard Bp
  aimed : s.mem.smartAiState.Aimed
  alternates : accepted s.log = turnOrder (accepted s.log).length
  valid : Out.guessed .player .rejected ∉ s.log
  opponentShots : (accepted s.log).count .opponent = Bp.shots.card
  playerShots : (accepted s.log).count .player = Bo.shots.card
  phase : s.Phase Bp

theorem kickOff_inPlay {s : Match} (h : KickOff s) : ∃ Bp Bo, s.InPlay Bp Bo := by
  obtain ⟨Bp, player, freshP⟩ := h.player.represents
  obtain ⟨Bo, opponent, freshO⟩ := h.opponent.represents
  refine ⟨Bp, Bo, player, opponent, couples_start h.guessBoard freshP, ?_, ?_, ?_, ?_, ?_, ?_⟩
  · rw [h.tracker]
    exact aiResetSmart_aimed
  · rw [h.log]
    rfl
  · rw [h.log]
    exact List.not_mem_nil
  · rw [h.log, freshP]
    rfl
  · rw [h.log, freshO]
    rfl
  · refine .player h.state ?_ ⟨(0, 0), ?_⟩ h.decisive ?_
    · rw [h.log]
      rfl
    · rw [freshP]
      exact Finset.notMem_empty _
    · rw [h.log]
      rfl

/-- A represented board never takes more shots than it has cells. -/
theorem shots_le (B : Battle (Fin maxShips) Cell) : B.shots.card ≤ 25 :=
  (Finset.card_le_univ B.shots).trans (by simp [gridSize])

theorem Match.InPlay.fair {s : Match} {Bp Bo : Battle (Fin maxShips) Cell} (h : s.InPlay Bp Bo) :
    s.Fair := by
  refine ⟨h.alternates, h.valid, fun side => ?_, ?_⟩
  · cases side with
    | player => exact h.playerShots ▸ shots_le Bo
    | opponent => exact h.opponentShots ▸ shots_le Bp
  · cases h.phase with
    | player state _ _ decisive results => exact .inl ⟨.inl state, decisive, results⟩
    | opponent state _ _ decisive results => exact .inl ⟨.inr state, decisive, results⟩
    | finished state decisive results last => exact .inr ⟨state, _, decisive, results, last⟩

/-- The log of one accepted guess. -/
theorem accepted_shot (target : Side) {result : GuessResult} (h : result ≠ .rejected) (gone : Bool)
    (winner : Side) :
    accepted (.guessed target result :: if gone then [.wsResult winner] else []) = [target.other] ∧
      results (.guessed target result :: if gone then [.wsResult winner] else []) =
        if gone then [winner] else [] := by
  cases gone <;> simp [accepted, results, h]

theorem matchStep_some {fuel : Nat} {s : Match} {msg : Option IoMessage} {m : Mem}
    (running : s.mem.game.state ≠ .gameRestart)
    (done : Prog.exec (answer msg) (gameIteration ⟨fuel, none⟩) s.mem = .done ((), m)) :
    matchStep fuel s msg = some {
      mem := m
      log := s.log ++ plays (Prog.trace (answer msg) (gameIteration ⟨fuel, none⟩) s.mem)
      decisive := s.decisive ++ (accepted (plays (Prog.trace (answer msg)
        (gameIteration ⟨fuel, none⟩) s.mem))).filter
          (fun side => (m.game.side side.other).board.NoShip) } := by
  rw [matchStep, if_neg running, done]
  rfl

/-- How one step of a match went on. -/
structure Match.Goes (s s' : Match) : Prop where
  inPlay : ∃ Bp Bo, s'.InPlay Bp Bo
  entered : s'.mem.game.state = .gameOver ↔ s.decisive = [] ∧ s'.decisive ≠ []
  sameFleet : s.mem.game.player.SameFleet s'.mem.game.player
  stands : s'.decisive = [] → s'.mem.game.player.board.NoShip → s.mem.game.player.board.NoShip

section Steps
variable {fuel : Nat} {s : Match} {Bp Bo : Battle (Fin maxShips) Cell} (h : s.InPlay Bp Bo)
include h

/-- A step that changes neither the memory nor the log. -/
theorem stays_goes (state : s.mem.game.state ≠ .gameOver) (decisive : s.decisive = []) :
    s.Goes s :=
  ⟨⟨Bp, Bo, h⟩, iff_of_false state fun both => both.2 decisive, .refl _, fun _ => id⟩

/-- A button press on a cell that was shot at before. -/
theorem pressAgain_goes {c : Cell} {e : Player × GuessResult × Option Nat}
    (fires : FiresAt s.mem.game.opponent Bo c e) (again : Bo.verdict c = .again)
    (state : s.mem.game.state = .waitingForPlayer) (even : (accepted s.log).length % 2 = 0)
    (left : ∃ c, c ∉ Bp.shots) (decisive : s.decisive = []) (none : results s.log = []) :
    s.Goes ⟨s.mem.setSide .opponent e.1, s.log ++ [.guessed .opponent e.2.1], s.decisive⟩ := by
  have result := fires.rejected_iff.mpr again
  have kept : accepted (s.log ++ [.guessed .opponent e.2.1]) = accepted s.log := by
    rw [accepted_append, result]
    simp [accepted]
  have quiet : results (s.log ++ [.guessed .opponent e.2.1]) = results s.log := by
    rw [results_append]
    simp [results]
  refine ⟨⟨Bp, Bo, h.player, ?_, h.couples, h.aimed, ?_, ?_, ?_, ?_, ?_⟩, ?_, .refl _, fun _ => id⟩
  · have same := fires.represents
    rwa [Bo.fire_again (Bo.verdict_again_iff.mp again)] at same
  · rw [kept]
    exact h.alternates
  · intro rejected
    rcases List.mem_append.mp rejected with old | new
    · exact h.valid old
    · simp at new
  · rw [kept]
    exact h.opponentShots
  · rw [kept]
    exact h.playerShots
  · exact .player state (by rw [kept]; exact even) left decisive (by rw [quiet]; exact none)
  · refine iff_of_false ?_ fun both => both.2 decisive
    change s.mem.game.state ≠ _
    rw [state]
    nofun

/-- An accepted guess of either side, in its turn. -/
theorem shot_goes (guesser : Side) {m : Mem} {Bp' Bo' : Battle (Fin maxShips) Cell}
    {result : GuessResult} {gone : Bool} (accepts : result ≠ .rejected)
    (player : m.game.player.Represents Bp') (opponent : m.game.opponent.Represents Bo')
    (couples : Couples m.aiGuessBoard Bp') (aimed : m.smartAiState.Aimed)
    (opponentShots : Bp'.shots.card = Bp.shots.card + [guesser].count .opponent)
    (playerShots : Bo'.shots.card = Bo.shots.card + [guesser].count .player)
    (turn : guesser = if (accepted s.log).length % 2 = 0 then .player else .opponent)
    (ended : gone = true ↔ (m.game.side guesser.other).board.NoShip)
    (state : m.game.state = if gone then .gameOver else
      if guesser = .player then .waitingForOpponent else .waitingForPlayer)
    (left : gone = false → ∃ c, c ∉ Bp'.shots)
    (sameFleet : s.mem.game.player.SameFleet m.game.player)
    (kept : guesser = .player → m.game.player = s.mem.game.player)
    (decisive : s.decisive = []) (none : results s.log = []) :
    s.Goes ⟨m, s.log ++ .guessed guesser.other result :: if gone then [.wsResult guesser] else [],
      s.decisive ++ [guesser].filter (fun side => (m.game.side side.other).board.NoShip)⟩ := by
  have back : guesser.other.other = guesser := by cases guesser <;> rfl
  obtain ⟨counted, winner⟩ := accepted_shot guesser.other accepts gone guesser
  rw [back] at counted
  have last : [guesser].filter (fun side => (m.game.side side.other).board.NoShip) =
      if gone then [guesser] else [] := by
    simp only [List.filter_cons, List.filter_nil, decide_eq_true_eq, ← ended]
  rw [last, decisive, List.nil_append]
  have grown : accepted (s.log ++ .guessed guesser.other result ::
      if gone then [.wsResult guesser] else []) = accepted s.log ++ [guesser] := by
    rw [accepted_append, counted]
  have won : results (s.log ++ .guessed guesser.other result ::
      if gone then [.wsResult guesser] else []) = if gone then [guesser] else [] := by
    rw [results_append, winner, none, List.nil_append]
  refine ⟨⟨Bp', Bo', player, opponent, couples, aimed, ?_, ?_, ?_, ?_, ?_⟩, ?_, sameFleet, ?_⟩
  · rw [grown, List.length_append, List.length_singleton, turnOrder_succ, ← turn]
    exact congrArg (· ++ [guesser]) h.alternates
  · intro rejected
    rcases List.mem_append.mp rejected with old | new
    · exact h.valid old
    · cases gone <;> simp [accepts.symm] at new
  · rw [grown, List.count_append, h.opponentShots, opponentShots]
  · rw [grown, List.count_append, h.playerShots, playerShots]
  · cases gone with
    | true =>
        refine .finished (.inl state) rfl won ?_
        rw [grown]
        exact List.getLast?_concat
    | false =>
        have parity : (accepted s.log ++ [guesser]).length = (accepted s.log).length + 1 := by simp
        cases guesser with
        | player =>
            have even : (accepted s.log).length % 2 = 0 := by
              by_contra odd
              rw [if_neg odd] at turn
              cases turn
            exact .opponent state (by rw [grown, parity]; omega) (left rfl) rfl won
        | opponent =>
            have odd : (accepted s.log).length % 2 ≠ 0 := by
              intro even
              rw [if_pos even] at turn
              cases turn
            exact .player state (by rw [grown, parity]; omega) (left rfl) rfl won
  · cases gone with
    | true => exact iff_of_true state ⟨decisive, nofun⟩
    | false =>
        refine iff_of_false ?_ fun both => both.2 rfl
        change m.game.state ≠ _
        rw [state]
        cases guesser <;> nofun
  · intro undecided sunk
    cases guesser with
    | player =>
        rw [← kept rfl]
        exact sunk
    | opponent =>
        have won : gone = true := ended.mpr sunk
        rw [won] at undecided
        cases undecided

theorem waitingForPlayer_goes (state : s.mem.game.state = .waitingForPlayer)
    (even : (accepted s.log).length % 2 = 0) (left : ∃ c, c ∉ Bp.shots) (decisive : s.decisive = [])
    (none : results s.log = []) {msg : Option IoMessage} (ok : Playable s msg) :
    ∃ s', matchStep fuel s msg = some s' ∧ s.Goes s' := by
  have running : s.mem.game.state ≠ .gameRestart := by simp [state]
  by_cases button : ∃ x, msg = some x ∧ x.isType "BUTTON" = true
  · obtain ⟨x, rfl, button⟩ := button
    obtain ⟨c, e, gone, fires, ended, done, played⟩ :=
      playerTurn ⟨fuel, Option.none⟩ state h.opponent button (ok x rfl)
    refine ⟨_, matchStep_some running done, ?_⟩
    rw [played]
    by_cases again : Bo.verdict c = .again
    · have kept := pressAgain_goes h fires again state even left decisive none
      have rejected := fires.rejected_iff.mpr again
      simpa [again, rejected, accepted] using kept
    · have accepts : e.2.1 ≠ .rejected := mt fires.rejected_iff.mp again
      have fresh : c ∉ Bo.shots := fun shot => again (Bo.verdict_again shot)
      have guesser := (accepted_shot .opponent accepts gone .player).1
      rw [if_neg again, if_neg again, guesser]
      exact shot_goes h .player accepts h.player fires.represents
        h.couples h.aimed rfl (Bo.fire_card fresh) (if_pos even).symm ended rfl (fun _ => left)
        (.refl _) (fun _ => rfl) decisive none
  · obtain ⟨done, played⟩ := idleTurn ⟨fuel, Option.none⟩ state
      fun x eq isButton => button ⟨x, eq, isButton⟩
    refine ⟨_, matchStep_some running done, ?_⟩
    have stays := stays_goes h (by simp [state]) decisive
    simpa [played, accepted] using stays

/-- The opponent goes on, unless its random search does not return. -/
theorem waitingForOpponent_goes (state : s.mem.game.state = .waitingForOpponent)
    (odd : (accepted s.log).length % 2 = 1) (left : ∃ c, c ∉ Bp.shots) (decisive : s.decisive = [])
    (none : results s.log = []) (msg : Option IoMessage) :
    matchStep fuel s msg = Option.none ∧
        aiGuessRandom s.mem.aiGuessBoard fuel s.mem.rng = .starved ∨
      ∃ s', matchStep fuel s msg = some s' ∧ s.Goes s' := by
  have running : s.mem.game.state ≠ .gameRestart := by
    rw [state]
    nofun
  rcases opponentTurn fuel state h.player h.couples h.aimed left msg with ⟨starved, random⟩ |
    ⟨c, e, rng, ai, gone, fires, fresh, ended, couples, aims, done, played⟩
  · refine .inl ⟨?_, random⟩
    rw [matchStep, if_neg running, starved]
    rfl
  · refine .inr ⟨_, matchStep_some running done, ?_⟩
    have accepts : e.2.1 ≠ .rejected := fun again =>
      fresh (Bp.verdict_again_iff.mp (fires.rejected_iff.mp again))
    have guesser := (accepted_shot .player accepts gone .opponent).1
    rw [played, guesser]
    have stands : gone = false → ∃ x, x ∉ (Bp.fire c).shots := by
      intro more
      have shown : ¬e.1.board.NoShip := fun all => by
        rw [ended.mpr all] at more
        cases more
      simp only [Board.NoShip, not_forall, not_not] at shown
      obtain ⟨x, ship⟩ := shown
      exact ⟨x, (fires.represents.ship_iff.mp ship).2⟩
    exact shot_goes h .opponent accepts fires.represents h.opponent
      couples aims (Bp.fire_card fresh) rfl (by rw [odd]; rfl) ended rfl stands fires.sameFleet nofun
      decisive none

/-- The result has been sent; GAME_OVER goes to GAME_RESTART. -/
theorem gameOver_goes (state : s.mem.game.state = .gameOver) {side : Side}
    (decisive : s.decisive = [side]) (result : results s.log = [side])
    (last : (accepted s.log).getLast? = some side) (msg : Option IoMessage) :
    ∃ s', matchStep fuel s msg = some s' ∧ s.Goes s' := by
  have done : Prog.exec (answer msg) (gameIteration ⟨fuel, none⟩) s.mem =
      .done ((), s.mem.setState .gameRestart) := by
    rw [exec_gameIteration, state]
    rfl
  have played : plays (Prog.trace (answer msg) (gameIteration ⟨fuel, none⟩) s.mem) = [] := by
    rw [plays_gameIteration, state]
    rfl
  refine ⟨_, matchStep_some (by rw [state]; nofun) done, ?_⟩
  rw [played, List.append_nil, show accepted [] = [] from rfl, List.filter_nil, List.append_nil]
  refine ⟨⟨Bp, Bo, h.player, h.opponent, h.couples, h.aimed, h.alternates, h.valid,
    h.opponentShots, h.playerShots, .finished (.inr rfl) decisive result last⟩, ?_, .refl _,
    fun _ => id⟩
  refine iff_of_false nofun fun both => ?_
  rw [decisive] at both
  cases both.1

/-- In every phase but the last the match goes on. -/
theorem match_goes {msg : Option IoMessage} (ok : Playable s msg)
    (running : s.mem.game.state ≠ .gameRestart) :
    matchStep fuel s msg = none ∧ s.mem.game.state = .waitingForOpponent ∧
        aiGuessRandom s.mem.aiGuessBoard fuel s.mem.rng = .starved ∨
      ∃ s', matchStep fuel s msg = some s' ∧ s.Goes s' := by
  cases h.phase with
  | player state even left decisive none =>
      exact .inr (waitingForPlayer_goes h state even left decisive none ok)
  | opponent state odd left decisive none =>
      have goes : matchStep fuel s msg = Option.none ∧ _ ∨ _ :=
        waitingForOpponent_goes h state odd left decisive none msg
      rcases goes with ⟨stuck, random⟩ | goes
      · exact .inl ⟨stuck, state, random⟩
      · exact .inr goes
  | finished state decisive result last =>
      rcases state with state | state
      · exact .inr (gameOver_goes h state decisive result last msg)
      · exact absurd state running

end Steps

theorem step_goes {fuel : Nat} {s s' : Match} {msg : Option IoMessage}
    {Bp Bo : Battle (Fin maxShips) Cell} (inPlay : s.InPlay Bp Bo) (ok : Playable s msg)
    (step : matchStep fuel s msg = some s') : s.Goes s' := by
  have running : s.mem.game.state ≠ .gameRestart := by
    intro state
    rw [matchStep, if_pos state] at step
    cases step
  rcases match_goes inPlay ok running with ⟨stuck, -⟩ | ⟨next, eq, goes⟩
  · rw [step] at stuck
    cases stuck
  · cases step.symm.trans eq
    exact goes

theorem match_inPlay {fuel : Nat} {s : Match} (h : Reaches (matchStep fuel) Playable KickOff s) :
    ∃ Bp Bo, s.InPlay Bp Bo :=
  h.invariant (fun _ => kickOff_inPlay) fun _ _ _ ⟨_, _, inPlay⟩ ok step =>
    (step_goes inPlay ok step).inPlay

/-- Whatever is pressed, whatever the difficulty and whatever is drawn: the
plays of a match are fair, it only ever waits for a random search, and it enters
GAME_OVER with the first accepted guess that leaves no ship. -/
theorem match_fair {fuel : Nat} {s : Match} (h : Reaches (matchStep fuel) Playable KickOff s) :
    s.Fair ∧
    ∀ msg, Playable s msg → s.mem.game.state ≠ .gameRestart →
      matchStep fuel s msg = none ∧ s.mem.game.state = .waitingForOpponent ∧
          aiGuessRandom s.mem.aiGuessBoard fuel s.mem.rng = .starved ∨
        ∃ s', matchStep fuel s msg = some s' ∧
          (s'.mem.game.state = .gameOver ↔ s.decisive = [] ∧ s'.decisive ≠ []) := by
  obtain ⟨Bp, Bo, inPlay⟩ := match_inPlay h
  refine ⟨inPlay.fair, fun msg ok running => ?_⟩
  rcases match_goes inPlay ok running with stuck | ⟨s', step, goes⟩
  · exact .inl stuck
  · exact .inr ⟨s', step, goes.entered⟩

/-- The ship of one cell lies next to the ship of two. -/
def crossedPlayer : Player where
  board := ⟨fun row col => if col.val = 4 ∧ row.val < 4 ∨ col.val = 0 ∧ row.val < 3 ∨
    row.val = 2 ∧ col.val < 3 ∨ row.val = 1 ∧ col.val = 2 then .ship else .empty, false⟩
  boats := ![
    ⟨4, fun i => ⟨i.val, 4⟩, 0, false⟩,
    ⟨3, fun i => ⟨i.val, 0⟩, 0, false⟩,
    ⟨2, fun i => ⟨2, 1 + i.val⟩, 0, true⟩,
    ⟨1, fun i => ⟨1, 2 + i.val⟩, 0, true⟩]
  boatCount := maxShips

/-- Both sides have their ships in rows, and the source draws one cell after the other. -/
def rowsMatch : Match where
  mem := {
    game := {
      player := rowsPlayer false
      opponent := rowsPlayer true
      difficulty := difficultySmart
      state := .waitingForPlayer
      gameReady := true
      turn := false }
    currentGame := true
    smartAiState := aiResetSmart
    aiGuessBoard := initBoard true
    leds := ledMatrixInit
    wsConnected := false
    rng := ⟨fun n => if n % 2 = 0 then UInt32.ofNat (n / 10) else UInt32.ofNat (n / 2), 0⟩ }
  log := []
  decisive := []

theorem rowsPlayer_fresh (isOpp : Bool) : (rowsPlayer isOpp).Fresh := by
  constructor <;> cases isOpp <;> decide +kernel

theorem rowsMatch_kickOff : KickOff rowsMatch :=
  ⟨rfl, rowsPlayer_fresh false, rowsPlayer_fresh true, fun _ => rfl, rfl, rfl, rfl⟩

/-- A press at this cell. -/
def press (col row : UInt8) : Option IoMessage :=
  some ⟨4, messageTypeOf "BUTTON", payloadOf [col, row], 24⟩

instance IoMessage.decidableOnGrid (msg : IoMessage) : Decidable msg.OnGrid :=
  inferInstanceAs (Decidable (msg.isType "BUTTON" = true →
    ∀ i : Fin 24, i.val < 2 → (msg.payload i).toNat < gridSize))

instance (s : Match) (msg : Option IoMessage) : Decidable (Playable s msg) :=
  inferInstanceAs (Decidable (∀ x ∈ msg, x.OnGrid))

/-- The player hits every cell of every ship, and presses one of them twice. -/
def rowsMoves : List (Option IoMessage) :=
  [press 4 4, none, press 4 4, press 3 4, none, press 2 4, none, press 1 4, none, press 4 3, none,
    press 3 3, none, press 2 3, none, press 4 2, none, press 3 2, none, press 4 1, none]

/-- A match played to its end. -/
theorem match_fair_rows : ∃ s : Match, s.Fair ∧ s.mem.game.state = .gameRestart ∧
    accepted s.log = turnOrder 19 ∧ results s.log = [.player] := by
  have meets : Meets (matchStep 1) Playable rowsMatch rowsMoves := by decide +kernel
  have run : (runList (matchStep 1) rowsMatch rowsMoves).any
      (fun s => s.mem.game.state = .gameRestart ∧ accepted s.log = turnOrder 19 ∧
        results s.log = [.player]) = true := by decide +kernel
  obtain ⟨s, reached, played⟩ := exists_reaches_of_meets rowsMatch_kickOff meets run
  exact ⟨s, (match_fair reached).1, of_decide_eq_true played⟩

end Battleship
