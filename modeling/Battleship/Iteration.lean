import Battleship.Execution

/-!
# One iteration

Each case of the switch run to completion, and what an iteration as a whole can
do to the `Game`.
-/
namespace Battleship
open Cooperative

/-- The loop of `place_random_ships` on the player and the random source. -/
def randomLoop : List Int → Player → Rng → Option (Player × Rng)
  | [], p, rng => some (p, rng)
  | length :: rest, p, rng => do
      let (found, p, rng) ← placeRandomShip p length rng
      match found with
      | some _ => randomLoop rest p.counted rng
      | none => randomLoop rest p rng

def Draw.request (d : Draw) (length : Int) : ShipRequest := ⟨d.row, d.col, length, d.horizontal⟩

/-- Attempt `k` of a search that starts at `rng`. -/
def Rng.attempt (rng : Rng) (k : Nat) : Draw := .ofRng (rng.skip (3 * k))

theorem Rng.skip_skip (rng : Rng) (j k : Nat) : (rng.skip j).skip k = rng.skip (j + k) := by
  simp only [Rng.skip, Nat.add_assoc]

theorem attempt_succ (rng : Rng) (k : Nat) : (rng.skip 3).attempt k = rng.attempt (k + 1) := by
  rw [Rng.attempt, Rng.attempt, Rng.skip_skip, show 3 + 3 * k = 3 * (k + 1) by omega]

/-- The search ends at the first attempt that fits, or after all of them. -/
theorem tryPlace_cases {b : Board} {length : Int} {n : Nat} {rng rng' : Rng} {found : Option Draw}
    (h : tryPlace b length n rng = some (found, rng')) :
    (∃ k < n, (∀ j < k, ¬b.Admits ((rng.attempt j).request length)) ∧
      b.Admits ((rng.attempt k).request length) ∧
      found = some (rng.attempt k) ∧ rng' = rng.skip (3 * (k + 1))) ∨
    (∀ j < n, ¬b.Admits ((rng.attempt j).request length)) ∧ found = none ∧
      rng' = rng.skip (3 * n) := by
  induction n generalizing rng with
  | zero =>
      cases h
      exact .inr ⟨fun j hj => absurd hj (Nat.not_lt_zero j), rfl, rfl⟩
  | succ n ih =>
      simp only [tryPlace] at h
      obtain ⟨fits, test, h⟩ := Option.bind_eq_some_iff.mp h
      cases fits with
      | true =>
          cases h
          exact .inl ⟨0, Nat.succ_pos n, fun j hj => absurd hj (Nat.not_lt_zero j),
            canPlaceShip_true.mp test, rfl, rfl⟩
      | false =>
          have first : ¬b.Admits ((rng.attempt 0).request length) := fun fits => by
            cases (canPlaceShip_true.mpr fits).symm.trans test
          have rejected : ∀ k, (∀ j < k, ¬b.Admits (((rng.skip 3).attempt j).request length)) →
              ∀ j < k + 1, ¬b.Admits ((rng.attempt j).request length) := by
            intro k later j hj
            cases j with
            | zero => exact first
            | succ j => exact attempt_succ rng j ▸ later j (Nat.lt_of_succ_lt_succ hj)
          rcases ih h with ⟨k, hk, later, fits, rfl, rfl⟩ | ⟨later, rfl, rfl⟩
          · rw [attempt_succ] at fits ⊢
            refine .inl ⟨k + 1, Nat.succ_lt_succ hk, rejected k later, fits, rfl, ?_⟩
            rw [Rng.skip_skip, show 3 + 3 * (k + 1) = 3 * (k + 1 + 1) by omega]
          · refine .inr ⟨rejected n later, rfl, ?_⟩
            rw [Rng.skip_skip, show 3 + 3 * n = 3 * (n + 1) by omega]

theorem tryPlace_fits {b : Board} {length : Int} {n : Nat} {rng rng' : Rng} {d : Draw}
    (h : tryPlace b length n rng = some (some d, rng')) : b.Admits (d.request length) := by
  rcases tryPlace_cases h with ⟨k, -, -, fits, eq, -⟩ | ⟨-, eq, -⟩
  · cases eq
    exact fits
  · cases eq

/-- A round of the loop seats a ship of this length, or leaves the player. -/
theorem placeRandomShip_cases {p p' : Player} {length : Int} {rng rng' : Rng} {found : Option Draw}
    (h : placeRandomShip p length rng = some (found, p', rng')) :
    found = none ∧ p' = p ∨ ∃ d room, found = some d ∧ p.board.Admits (d.request length) ∧
      p'.counted = p.seated room (d.request length) := by
  obtain ⟨⟨hit, rng₁⟩, search, h⟩ := Option.bind_eq_some_iff.mp h
  cases hit with
  | none =>
      cases h
      exact .inl ⟨rfl, rfl⟩
  | some d =>
      obtain ⟨p₁, placed, eq⟩ := Option.bind_eq_some_iff.mp h
      cases eq
      have fits : Fits p.board d.row d.col length d.horizontal := tryPlace_fits search
      have room := placeNext_room placed
      rw [placeNext_of_fits room fits] at placed
      cases placed
      exact .inr ⟨d, room, rfl, fits, rfl⟩

/-- For each length in turn the first attempt that fits is seated; the ship is
left out when none of its attempts does. -/
inductive Rounds : Player → Rng → List Int → List ShipRequest → Player → Rng → Prop
  | nil (p : Player) (rng : Rng) : Rounds p rng [] [] p rng
  | seated {p p' : Player} {rng rng' : Rng} {length : Int} {rest : List Int}
      {ships : List ShipRequest} (k : Nat) (room : p.boatCount < maxShips) : k < maxAttempts →
      (∀ j < k, ¬p.board.Admits ((rng.attempt j).request length)) →
      p.board.Admits ((rng.attempt k).request length) →
      Rounds (p.seated room ((rng.attempt k).request length)) (rng.skip (3 * (k + 1))) rest
        ships p' rng' →
      Rounds p rng (length :: rest) ((rng.attempt k).request length :: ships) p' rng'
  | skipped {p p' : Player} {rng rng' : Rng} {length : Int} {rest : List Int}
      {ships : List ShipRequest} :
      (∀ j < maxAttempts, ¬p.board.Admits ((rng.attempt j).request length)) →
      Rounds p (rng.skip (3 * maxAttempts)) rest ships p' rng' →
      Rounds p rng (length :: rest) ships p' rng'

/-- One round puts the seated ship in front of those of the rounds that follow. -/
theorem placeRandomShip_round {p p' : Player} {length : Int} {rng rng' : Rng} {found : Option Draw}
    (h : placeRandomShip p length rng = some (found, p', rng')) {rest : List Int}
    {ships : List ShipRequest} {q : Player} {rng'' : Rng}
    (later : Rounds (if found.isSome then p'.counted else p') rng' rest ships q rng'') :
    Rounds p rng (length :: rest) ((found.map (fun d => d.request length)).toList ++ ships)
      q rng'' := by
  obtain ⟨⟨hit, rng₁⟩, search, step⟩ := Option.bind_eq_some_iff.mp h
  rcases tryPlace_cases search with ⟨k, hk, before, fits, rfl, rfl⟩ | ⟨none, rfl, rfl⟩
  · rcases placeRandomShip_cases h with ⟨rfl, -⟩ | ⟨d, room, rfl, -, eq⟩
    · obtain ⟨p₁, -, eq⟩ := Option.bind_eq_some_iff.mp step
      cases eq
    · obtain ⟨p₁, -, same⟩ := Option.bind_eq_some_iff.mp step
      cases same
      simp only [Option.isSome_some, if_true, eq] at later
      exact .seated k room hk before fits later
  · cases step
    exact .skipped none later

theorem randomLoop_rounds {lengths : List Int} {p : Player} {rng : Rng} {r : Player × Rng}
    (h : randomLoop lengths p rng = some r) : ∃ ships, Rounds p rng lengths ships r.1 r.2 := by
  induction lengths generalizing p rng with
  | nil =>
      cases h
      exact ⟨[], .nil p rng⟩
  | cons length rest ih =>
      obtain ⟨⟨found, p', rng'⟩, round, later⟩ := Option.bind_eq_some_iff.mp h
      cases found with
      | none =>
          obtain ⟨ships, rounds⟩ := ih later
          exact ⟨_, placeRandomShip_round round rounds⟩
      | some d =>
          obtain ⟨ships, rounds⟩ := ih later
          exact ⟨_, placeRandomShip_round round rounds⟩

theorem Rounds.seats {p p' : Player} {rng rng' : Rng} {lengths : List Int}
    {ships : List ShipRequest} (h : Rounds p rng lengths ships p' rng') : Seats p ships p' := by
  induction h with
  | nil p rng => exact .nil p
  | seated k room _ _ fits _ ih => exact .cons room fits ih
  | skipped _ _ ih => exact ih

theorem Rounds.sublist {p p' : Player} {rng rng' : Rng} {lengths : List Int}
    {ships : List ShipRequest} (h : Rounds p rng lengths ships p' rng') :
    (ships.map ShipRequest.length).Sublist lengths := by
  induction h with
  | nil p rng => exact .slnil
  | seated k room _ _ _ _ ih => exact ih.cons_cons _
  | skipped _ _ ih => exact ih.cons _

theorem randomLoop_seats {lengths : List Int} {p : Player} {rng : Rng} {r : Player × Rng}
    (h : randomLoop lengths p rng = some r) :
    ∃ ships, Seats p ships r.1 ∧ (ships.map ShipRequest.length).Sublist lengths := by
  obtain ⟨ships, rounds⟩ := randomLoop_rounds h
  exact ⟨ships, rounds.seats, rounds.sublist⟩

theorem tryPlace_some (b : Board) {length : Int} (short : 0 ≤ length ∧ length ≤ gridSize)
    (n : Nat) (rng : Rng) : ∃ r, tryPlace b length n rng = some r := by
  induction n generalizing rng with
  | zero => exact ⟨_, rfl⟩
  | succ n ih =>
      let d := Draw.ofRng rng
      obtain ⟨fits, test⟩ := canPlaceShip_some b ⟨(rng.peek 0).toNat % gridSize,
        Nat.mod_lt _ (by decide)⟩ ⟨(rng.peek 1).toNat % gridSize, Nat.mod_lt _ (by decide)⟩
        short d.horizontal
      have drawn : canPlaceShip b d.row d.col length d.horizontal = some fits := test
      simp only [tryPlace]
      rw [drawn]
      cases fits with
      | true => exact ⟨_, rfl⟩
      | false => exact ih (rng.skip 3)

/-- Random placement has a result as long as there are slots. -/
theorem randomLoop_some {lengths : List Int}
    (short : ∀ length ∈ lengths, 0 ≤ length ∧ length ≤ gridSize) {p : Player}
    (room : p.boatCount + lengths.length ≤ maxShips) (rng : Rng) :
    ∃ r, randomLoop lengths p rng = some r := by
  induction lengths generalizing p rng with
  | nil => exact ⟨_, rfl⟩
  | cons length rest ih =>
      have shorter : ∀ l ∈ rest, 0 ≤ l ∧ l ≤ gridSize := fun l hl => short l (.tail _ hl)
      simp only [List.length_cons] at room
      obtain ⟨⟨found, rng'⟩, search⟩ :=
        tryPlace_some p.board (short length (.head _)) maxAttempts rng
      cases found with
      | none =>
          obtain ⟨r, later⟩ := ih shorter (p := p) (by omega) rng'
          refine ⟨r, ?_⟩
          simp [randomLoop, placeRandomShip, search, later]
      | some d =>
          have slot : p.boatCount < maxShips := by omega
          have fits : Fits p.board d.row d.col length d.horizontal := tryPlace_fits search
          obtain ⟨r, later⟩ := ih shorter
            (p := (p.withNext ⟨p.boatCount, slot⟩ d.row d.col length d.horizontal).counted)
            (by simp only [Player.counted, Player.withNext]; omega) rng'
          refine ⟨r, ?_⟩
          simp [randomLoop, placeRandomShip, search, placeNext_of_fits slot fits, later]

section Run
variable (ans : ∀ c : Call, c.Ans)

theorem exec_finishRandomShip (side : Side) (length : Int) (d : Draw) (m : Mem) :
    Prog.exec ans (finishRandomShip side length d) m =
      .done ((), m.setSide side (m.game.side side).counted) := by
  by_cases own : (m.game.side side).board.isOpp = false
  · simp [finishRandomShip, own, countRandomShip, Mem.setSide, Player.counted]
  · simp [finishRandomShip, own, countRandomShip, Mem.setSide, Player.counted]

theorem exec_placeRandomLoop (side : Side) (lengths : List Int) (m : Mem) :
    Prog.exec ans (placeRandomLoop side lengths) m =
      .ofOption ((randomLoop lengths (m.game.side side) m.rng).map
        (fun r => ((), { m.setSide side r.1 with rng := r.2 }))) := by
  induction lengths generalizing m with
  | nil => simp [placeRandomLoop, randomLoop, Mem.setSide]
  | cons length rest ih =>
      simp only [placeRandomLoop, randomLoop, Prog.exec_bind, Prog.exec_tryModify]
      cases round : placeRandomShip (m.game.side side) length m.rng with
      | none => rfl
      | some r =>
          obtain ⟨found, p, rng⟩ := r
          cases found with
          | none =>
              simp only [Option.bind_eq_bind, Option.bind_some, Option.pure_def,
                Outcome.ofOption_some, Outcome.bind_done, ih]
              simp [Mem.setSide]
          | some d =>
              simp only [Option.bind_eq_bind, Option.bind_some, Option.pure_def,
                Outcome.ofOption_some, Outcome.bind_done, Prog.exec_bind, exec_finishRandomShip, ih]
              simp [Mem.setSide]

theorem exec_placeRandomShips (side : Side) (lengths : List Int) (m : Mem) :
    Prog.exec ans (placeRandomShips side lengths) m =
      .ofOption ((randomLoop lengths (m.game.side side).uncounted m.rng).map
        (fun r => ((), { m.setSide side r.1 with rng := r.2 }))) := by
  simp only [placeRandomShips, Prog.exec_bind, Prog.exec_modify, Outcome.bind_done,
    exec_placeRandomLoop]
  simp [Mem.setSide, Player.uncounted]

/-- The memory after an accepted guess. -/
def Mem.moved (m : Mem) (turn : Bool) (v : GameState) : Mem :=
  { m.rendered with game := { m.game with turn := turn, state := v } }

theorem exec_playerMoved (result : GuessResult) (m : Mem) :
    Prog.exec ans (playerMoved result) m =
      .ofOption ((allShipsSunk m.game.opponent).map (fun gone =>
        ((), m.moved true (if gone then .gameOver else .waitingForOpponent)))) := by
  cases sunk : allShipsSunk m.game.opponent with
  | none => simp [playerMoved, Game.side, sunk]
  | some gone =>
      cases gone <;> simp [playerMoved, Game.side, sunk, Mem.moved, Mem.setState]

theorem exec_opponentMoved (m : Mem) :
    Prog.exec ans opponentMoved m =
      .ofOption ((allShipsSunk m.game.player).map (fun gone =>
        ((), m.moved false (if gone then .gameOver else .waitingForPlayer)))) := by
  cases sunk : allShipsSunk m.game.player with
  | none => simp [opponentMoved, Game.side, sunk]
  | some gone =>
      cases gone <;> simp [opponentMoved, Game.side, sunk, Mem.moved, Mem.setState]

/-- The player's guess, from the call of `apply_guess` on. -/
def guessAt (coord : Coordinate) : GameTask Unit := do
  let result ← applyGuess .opponent coord.row coord.col
  if result = .rejected then .ret () else playerMoved result

def received : Option IoMessage → GameTask Unit
  | none => .ret ()
  | some msg => if msg.isType "BUTTON" then guessAt (buttonCoordinate msg) else .ret ()

theorem waitingForPlayerCase_received :
    waitingForPlayerCase = Prog.sys Call.queueReceive >>= received := by
  have same : ∀ msg, (match msg with
      | none => .ret ()
      | some msg =>
          if msg.isType "BUTTON" then do
            let coord := buttonCoordinate msg
            let result ← applyGuess .opponent coord.row coord.col
            if result = .rejected then .ret () else playerMoved result
          else .ret () : GameTask Unit) = received msg := by
    intro msg
    cases msg <;> rfl
  exact congrArg (Prog.sys Call.queueReceive >>= ·) (funext same)

theorem exec_guessAt (coord : Coordinate) (m : Mem) : Prog.exec ans (guessAt coord) m =
      (Outcome.ofOption (guessCell m.game.opponent coord.row coord.col)).bind (fun e =>
        if e.2.1 = .rejected then .done ((), m.setSide .opponent e.1)
        else Prog.exec ans (playerMoved e.2.1) (m.setSide .opponent e.1)) := by
  rw [guessAt, Prog.exec_bind, exec_applyGuess]
  cases guess : guessCell m.game.opponent coord.row coord.col with
  | none => simp [Game.side, guess]
  | some e =>
      simp only [Game.side, guess, Option.map_some, Outcome.ofOption_some, Outcome.bind_done]
      split <;> rfl

/-- The memory after a guess of the opponent, before the turn is passed. -/
def Mem.tracked (m : Mem) (p : Player) (rng : Rng) (ai : AiState × Board) : Mem :=
  { m.setSide .player p with smartAiState := ai.1, aiGuessBoard := ai.2, rng := rng }

theorem exec_opponentMove (lim : Limits) (m : Mem) :
    Prog.exec ans (opponentMove lim) m =
      (engineGetGuess lim.fuel m.game.difficulty m.aiGuessBoard m.smartAiState m.rng).bind
        (fun g => (Outcome.ofOption (guessCell m.game.player g.1.row g.1.col)).bind (fun e =>
          (Outcome.ofOption (engineUpdateSmartAi lim.hitsSize g.2.1 m.aiGuessBoard
            g.1.row g.1.col e.2.1)).bind (fun ai =>
              if e.2.1 = .rejected then .done ((), m.tracked e.1 g.2.2 ai)
              else Prog.exec ans opponentMoved (m.tracked e.1 g.2.2 ai)))) := by
  simp only [opponentMove, opponentGuess, Prog.exec_bind, Prog.exec_attempt, Outcome.bind_assoc,
    Outcome.bind_done, exec_applyGuess, updateSmartAi, Prog.exec_tryModify, Game.side]
  congr 1
  funext g
  cases guessCell m.game.player g.1.row g.1.col with
  | none => rfl
  | some e =>
      simp only [Option.map_some, Outcome.ofOption_some, Outcome.bind_done, Mem.setSide]
      cases engineUpdateSmartAi lim.hitsSize g.2.1 m.aiGuessBoard g.1.row g.1.col e.2.1 with
      | none => rfl
      | some ai =>
          simp only [Option.bind_eq_bind, Option.bind_some, Option.pure_def,
            Outcome.ofOption_some, Outcome.bind_done]
          split <;> rfl

theorem exec_gameIteration (lim : Limits) (m : Mem) : Prog.exec ans (gameIteration lim) m =
    Prog.exec ans (gameSwitch lim m.game.state) m := by
  simp only [gameIteration, Prog.exec_bind, Prog.exec_get, Outcome.bind_done, exec_loopTail]
  cases Prog.exec ans (gameSwitch lim m.game.state) m <;> rfl

end Run

theorem exec_gameRestart (ans : ∀ c : Call, c.Ans) (m : Mem) : Prog.exec ans gameRestartCase m =
    .done ((), (engineRestart m).setState .init) := by
  have slots : ∀ i ∈ List.range maxShips, i < maxShips := fun i hi => List.mem_range.mp hi
  simp [gameRestartCase, exec_removeLoop ans slots]

/-- Everything an iteration can do to the `Game`. -/
inductive GameMove (g : Game) : Game → Prop
  | created : g.state = .init → GameMove g { clearedGame with state := .webInit }
  | stayed : GameMove g g
  | started {ships : List ShipRequest} {p : Player} : g.state = .webInit → g.gameReady = true →
      Seats g.opponent.uncounted ships p →
      (ships.map ShipRequest.length).Sublist shipLengths →
      GameMove g { g with state := .waitingForPlayer, opponent := p }
  | randomized {ships ships' : List ShipRequest} {p p' : Player} : g.state = .randomInit →
      Seats g.player.uncounted ships p →
      (ships.map ShipRequest.length).Sublist shipLengths →
      Seats g.opponent.uncounted ships' p' →
      (ships'.map ShipRequest.length).Sublist shipLengths →
      GameMove g { g with state := .waitingForPlayer, player := p, opponent := p' }
  | guessed {side : Side} {row col : Int} {e : Player × GuessResult × Option Nat} {turn : Bool}
      {v : GameState} : guessCell (g.side side) row col = some e → v ≠ .webInit →
      g.state ≠ .webInit → GameMove g { g.setSide side e.1 with turn := turn, state := v }
  | passed {v : GameState} : v ≠ .webInit → g.state ≠ .webInit → GameMove g { g with state := v }

/-- WEB_INIT is entered from `Game_Init` only. -/
theorem GameMove.to_webInit {g g' : Game} (h : GameMove g g') (state : g'.state = .webInit) :
    g' = g ∨ g' = { clearedGame with state := .webInit } := by
  cases h with
  | created => exact .inr rfl
  | stayed => exact .inl rfl
  | started => cases state
  | randomized => cases state
  | guessed _ other => exact absurd state other
  | passed other => exact absurd state other

section Moves
variable {ans : ∀ c : Call, c.Ans} {m : Mem} {e : Unit × Mem}

theorem playerMoved_game {result : GuessResult}
    (h : Prog.exec ans (playerMoved result) m = .done e) : ∃ gone, allShipsSunk m.game.opponent =
      some gone ∧ e.2 = m.moved true (if gone then .gameOver else .waitingForOpponent) := by
  rw [exec_playerMoved] at h
  obtain ⟨gone, sunk, rfl⟩ := Option.map_eq_some_iff.mp (Outcome.ofOption_eq_done h)
  exact ⟨gone, sunk, rfl⟩

theorem opponentMoved_game (h : Prog.exec ans opponentMoved m = .done e) : ∃ gone,
    allShipsSunk m.game.player = some gone ∧
      e.2 = m.moved false (if gone then .gameOver else .waitingForPlayer) := by
  rw [exec_opponentMoved] at h
  obtain ⟨gone, sunk, rfl⟩ := Option.map_eq_some_iff.mp (Outcome.ofOption_eq_done h)
  exact ⟨gone, sunk, rfl⟩

theorem opponentMove_moves {lim : Limits} (h : Prog.exec ans (opponentMove lim) m = .done e) :
    ∃ g r ai, engineGetGuess lim.fuel m.game.difficulty m.aiGuessBoard m.smartAiState m.rng =
        .done g ∧ guessCell m.game.player g.1.row g.1.col = some r ∧
      engineUpdateSmartAi lim.hitsSize g.2.1 m.aiGuessBoard g.1.row g.1.col r.2.1 = some ai ∧
      e.2.game.player = r.1 ∧ e.2.smartAiState = ai.1 ∧ e.2.aiGuessBoard = ai.2 := by
  rw [exec_opponentMove] at h
  obtain ⟨g, guess, h⟩ := Outcome.bind_eq_done h
  obtain ⟨r, struck, h⟩ := Outcome.bind_eq_done h
  obtain ⟨ai, updated, h⟩ := Outcome.bind_eq_done h
  refine ⟨g, r, ai, guess, Outcome.ofOption_eq_done struck, Outcome.ofOption_eq_done updated, ?_⟩
  split at h
  · cases h
    exact ⟨rfl, rfl, rfl⟩
  · obtain ⟨gone, -, eq⟩ := opponentMoved_game h
    rw [eq]
    exact ⟨rfl, rfl, rfl⟩

theorem placeRandomShips_game {side : Side} {lengths : List Int}
    (h : Prog.exec ans (placeRandomShips side lengths) m = .done e) :
    ∃ ships p rng, Seats (m.game.side side).uncounted ships p ∧
      (ships.map ShipRequest.length).Sublist lengths ∧
      e.2 = { m.setSide side p with rng := rng } := by
  rw [exec_placeRandomShips] at h
  obtain ⟨r, loop, rfl⟩ := Option.map_eq_some_iff.mp (Outcome.ofOption_eq_done h)
  obtain ⟨ships, seats, sub⟩ := randomLoop_seats loop
  exact ⟨ships, r.1, r.2, seats, sub, rfl⟩

theorem webInitCase_move (state : m.game.state = .webInit)
    (h : Prog.exec ans webInitCase m = .done e) : GameMove m.game e.2.game := by
  simp only [webInitCase, Prog.exec_bind, Prog.exec_get, Outcome.bind_done] at h
  cases ready : m.game.gameReady with
  | false =>
      rw [ready] at h
      cases h
      exact .stayed
  | true =>
      rw [ready, if_pos rfl] at h
      simp only [Prog.exec_bind, exec_setState, Outcome.bind_done, renderBoard,
        Prog.exec_modify] at h
      obtain ⟨ships, p, rng, seats, sub, eq⟩ := placeRandomShips_game h
      rw [eq]
      exact .started state ready seats sub

theorem randomInitCase_move (state : m.game.state = .randomInit)
    (h : Prog.exec ans randomInitCase m = .done e) : GameMove m.game e.2.game := by
  simp only [randomInitCase, setupGameRandomly, Prog.exec_bind, Outcome.bind_assoc] at h
  obtain ⟨r, first, h⟩ := Outcome.bind_eq_done h
  obtain ⟨ships, p, rng, seats, sub, eq⟩ := placeRandomShips_game first
  obtain ⟨r', second, h⟩ := Outcome.bind_eq_done h
  obtain ⟨ships', p', rng', seats', sub', eq'⟩ := placeRandomShips_game second
  rw [eq] at seats' eq'
  simp only [eq', renderBoard, Prog.exec_modify, exec_vTaskDelay, exec_setState,
    Outcome.bind_done] at h
  cases h
  exact .randomized state seats sub seats' sub'

/-- The player's case: nothing happens, or a guess, and after one that counts the
turn is passed. -/
theorem waitingForPlayer_cases {msg : Option IoMessage}
    (h : Prog.exec (answer msg) waitingForPlayerCase m = .done e) :
    e.2 = m ∨ ∃ (c : Coordinate) (g : Player × GuessResult × Option Nat),
      guessCell m.game.opponent c.row c.col = some g ∧ (e.2 = m.setSide .opponent g.1 ∨
        ∃ gone : Bool, e.2 = (m.setSide .opponent g.1).moved true
          (if gone then .gameOver else .waitingForOpponent)) := by
  rw [waitingForPlayerCase_received, Prog.exec_bind, Prog.exec_sys, Outcome.bind_done] at h
  cases msg with
  | none =>
      cases h
      exact .inl rfl
  | some msg =>
      simp only [answer, received] at h
      split at h
      · rw [exec_guessAt] at h
        obtain ⟨g, guess, h⟩ := Outcome.bind_eq_done h
        refine .inr ⟨_, g, Outcome.ofOption_eq_done guess, ?_⟩
        split at h
        · cases h
          exact .inl rfl
        · obtain ⟨gone, -, eq⟩ := playerMoved_game h
          exact .inr ⟨gone, eq⟩
      · cases h
        exact .inl rfl

theorem waitingForPlayerCase_move {msg : Option IoMessage}
    (state : m.game.state = .waitingForPlayer)
    (h : Prog.exec (answer msg) waitingForPlayerCase m = .done e) : GameMove m.game e.2.game := by
  have other : m.game.state ≠ .webInit := by
    rw [state]
    nofun
  rcases waitingForPlayer_cases h with idle | ⟨c, g, struck, rejected | ⟨gone, passed⟩⟩
  · rw [idle]
    exact .stayed
  · have same : GameMove m.game { m.game.setSide .opponent g.1 with
        turn := m.game.turn, state := m.game.state } := .guessed struck other other
    rw [rejected]
    exact same
  · rw [passed]
    exact .guessed struck (by cases gone <;> nofun) other

theorem opponentMove_move (lim : Limits) (other : m.game.state ≠ .webInit)
    (h : Prog.exec ans (opponentMove lim) m = .done e) : GameMove m.game e.2.game := by
  rw [exec_opponentMove] at h
  obtain ⟨g, -, h⟩ := Outcome.bind_eq_done h
  obtain ⟨r, guess, h⟩ := Outcome.bind_eq_done h
  obtain ⟨ai, -, h⟩ := Outcome.bind_eq_done h
  have struck := Outcome.ofOption_eq_done guess
  split at h
  · cases h
    have same : GameMove m.game { m.game.setSide .player r.1 with
        turn := m.game.turn, state := m.game.state } := .guessed struck other other
    exact same
  · obtain ⟨gone, -, eq⟩ := opponentMoved_game h
    rw [eq]
    exact .guessed struck (by cases gone <;> nofun) other

/-- An iteration moves the game as one of these. -/
theorem iteration_move {lim : Limits} {msg : Option IoMessage}
    (h : Prog.exec (answer msg) (gameIteration lim) m = .done e) : GameMove m.game e.2.game := by
  rw [exec_gameIteration] at h
  cases state : m.game.state with
  | init =>
      rw [state] at h
      simp only [gameSwitch, initCase, gameInit, Prog.exec_bind, Prog.exec_modify,
        Outcome.bind_done, exec_sendLedMatrixUpdate, exec_vTaskDelay, exec_setState] at h
      cases h
      exact .created state
  | webInit =>
      rw [state] at h
      exact webInitCase_move state h
  | randomInit =>
      rw [state] at h
      exact randomInitCase_move state h
  | running =>
      rw [state] at h
      cases h
      exact .stayed
  | waitingForOpponent =>
      have other : m.game.state ≠ .webInit := by
        rw [state]
        nofun
      rw [state] at h
      exact opponentMove_move lim other h
  | waitingForPlayer =>
      rw [state] at h
      exact waitingForPlayerCase_move state h
  | gameOver =>
      have other : m.game.state ≠ .webInit := by
        rw [state]
        nofun
      rw [state] at h
      cases h
      exact .passed nofun other
  | gameRestart =>
      have other : m.game.state ≠ .webInit := by
        rw [state]
        nofun
      rw [state] at h
      rw [gameSwitch, exec_gameRestart] at h
      cases h
      exact .passed nofun other

end Moves

theorem seqStep_restart {lim : Limits} {m : Mem} (state : m.game.state = .gameRestart) (msg : Option IoMessage) :
    seqStep lim m (.iteration msg) = some ((engineRestart m).setState .init) := by
  rw [seqStep, exec_gameIteration, state, gameSwitch, exec_gameRestart]
  rfl

/-- The memory `Game_Init` leaves, in the state that follows. -/
def Mem.created (m : Mem) : Mem :=
  { engineRestart m with
    game := { clearedGame with state := .webInit }
    currentGame := true
    leds := ledMatrixInit }

theorem seqStep_create {lim : Limits} {m : Mem} (state : m.game.state = .init) (msg : Option IoMessage) :
    seqStep lim m (.iteration msg) = some m.created := by
  rw [seqStep, exec_gameIteration, state]
  rfl

theorem seqTrace_create {lim : Limits} {m : Mem} (state : m.game.state = .init) (msg : Option IoMessage) :
    seqTrace lim m (.iteration msg) = [.inr (.queueSend (ledMessage 3 ledMatrixInit)),
      .inr (.delay 1000), .inr (.queueSend (ledMessage 3 ledMatrixInit)), .inr (.delay 250)] := by
  have opened : seqTrace lim m (.iteration msg) =
      Prog.trace (answer msg) (gameSwitch lim m.game.state >>= fun _ => loopTail) m := rfl
  rw [opened, state]
  rfl

end Battleship
