import Battleship.Calls
import Battleship.Contract
import Battleship.Iteration
import Battleship.Rendering
import Battleship.Requests
import Battleship.Shots

/-!
# What the LED slave shows

Matrix 1 shows the opponent's board with its ships hidden, matrix 2 the player's
with its ships revealed. A guess that `apply_guess` rejects is not drawn, and it
may have marked a ship cell that no boat claims.
-/
namespace Battleship
open Cooperative Runs

/-- Marked as hit, though no boat that counts lies there. -/
def Player.Stray (p : Player) (c : Cell) : Prop :=
  p.board.cells c.1 c.2 = .hit ∧ ∀ b : Fin maxShips, b.val < p.boatCount → c ∉ (p.boats b).cells

/-- Every cell is seen in the colour of its state; a stray hit may still be seen as
the ship it was. -/
def Player.Seen (p : Player) (revealShips : Bool) (seen : Cell → Option Color) : Prop :=
  ∀ c, seen c = some (cellColor revealShips (p.board.cells c.1 c.2)) ∨
    p.Stray c ∧ seen c = some (cellColor revealShips .ship)

/-- The colour that the bits of a cell light. -/
def Leds.seen (leds : Leds) (m : MatrixId) (c : Cell) : Option Color := Color.ofCode (leds.code m c)

theorem seen_render (leds : Leds) (p : Player) (n : Nat) (revealShips : Bool) :
    p.Seen revealShips ((renderBoardToMatrix leds p.board n revealShips).seen (.ofNum n)) := by
  intro c
  rw [Leds.seen, render_code, ofCode_code]
  exact .inl rfl

theorem seen_other (leds : Leds) (b : Board) (n : Nat) (revealShips : Bool) {m : MatrixId}
    (h : m ≠ .ofNum n) : (renderBoardToMatrix leds b n revealShips).seen m = leds.seen m := by
  funext c
  rw [Leds.seen, Leds.seen, Leds.code, Leds.code, render_other leds b n revealShips h]

theorem seen_init (m : MatrixId) (p : Player) (revealShips : Bool)
    (bare : ∀ c : Cell, p.board.cells c.1 c.2 = .empty) :
    p.Seen revealShips (ledMatrixInit.seen m) := by
  intro c
  have blue : ledMatrixInit.code m c = Color.blue.code := init_shows.code m c
  rw [Leds.seen, blue, ofCode_code, bare c]
  exact .inl rfl

/-- The slave that takes the frame sees the rows that were sent. -/
theorem seen_frame (slaveId : Int) (leds : Leds) (pipe : UInt8) (m : MatrixId) :
    decodeCell (messageOf (frameOf (ledMessage slaveId leds)) pipe).payload m = leds.seen m := by
  funext c
  rw [decodeCell, payloadRow_frame]
  rfl

namespace Player.Seen
variable {p : Player} {revealShips : Bool} {seen : Cell → Option Color}

/-- A guess that is answered with 0 leaves the picture of the board, but for a hit
that no boat takes. -/
theorem rejected (h : p.Seen revealShips seen) {row col : Int}
    {r : Player × GuessResult × Option Nat} (guess : guessCell p row col = some r)
    (answer : r.2.1 = .rejected) : r.1.Seen revealShips seen := by
  obtain ⟨i, j, rfl, rfl, cases⟩ := guessCell_cases guess
  rcases cases with ⟨-, rfl⟩ | ⟨ship, search, rfl⟩ | ⟨b, -, -, hit⟩ | ⟨-, -, rfl⟩
  · cases answer
  · have unclaimed := (findBoat_found (c := (i, j)) search).1 rfl
    intro c
    by_cases here : c = (i, j)
    · subst here
      rcases h (i, j) with shown | ⟨stray, -⟩
      · refine .inr ⟨⟨if_pos ⟨rfl, rfl⟩, fun b used => ?_⟩, ship ▸ shown⟩
        exact unclaimed b (List.mem_range.mpr used)
      · cases ship.symm.trans stray.1
    · have same : (p.mark i j .hit).board.cells c.1 c.2 = p.board.cells c.1 c.2 :=
        if_neg fun both => here (Prod.ext both.1 both.2)
      refine (h c).imp (fun shown => ?_) fun ⟨stray, shown⟩ => ⟨⟨?_, stray.2⟩, shown⟩
      · rw [same]
        exact shown
      · rw [same]
        exact stray.1
  · obtain ⟨b', -, ⟨-, rfl⟩ | ⟨-, board, -, rfl⟩⟩ := hitBoat_cases hit
    · cases answer
    · cases answer
  · exact h

theorem uncounted (h : p.Seen revealShips seen) : p.uncounted.Seen revealShips seen := fun c =>
  (h c).imp_right fun ⟨stray, shown⟩ =>
    ⟨⟨stray.1, fun _ used => absurd used (Nat.not_lt_zero _)⟩, shown⟩

/-- A ship that is seated where its cells were empty does not show. -/
theorem seated (h : p.Seen false seen) (room : p.boatCount < maxShips) {ship : ShipRequest}
    (fits : p.board.Admits ship) : (p.seated room ship).Seen false seen := by
  intro c
  rw [seated_board, Board.withRequest_cells]
  by_cases inside : c ∈ shipCells ship.row ship.col ship.horizontal ship.length.toNat
  · have empty := fits.empty_of_mem inside
    rw [if_pos inside]
    rcases h c with shown | ⟨stray, -⟩
    · rw [empty] at shown
      exact .inl shown
    · cases empty.symm.trans stray.1
  · rw [if_neg inside]
    refine (h c).imp_right fun ⟨stray, shown⟩ => ⟨⟨?_, fun b used => ?_⟩, shown⟩
    · rw [seated_board, Board.withRequest_cells, if_neg inside]
      exact stray.1
    · rw [seated_boatCount] at used
      by_cases new : b.val = p.boatCount
      · obtain rfl : b = ⟨p.boatCount, room⟩ := Fin.ext new
        rw [seated_cells room ship fits]
        exact inside
      · rw [seated_boat_of_ne p room ship new]
        exact stray.2 b (by omega)

end Player.Seen

def Mem.Playing (m : Mem) : Prop :=
  m.game.state ∈ [GameState.waitingForPlayer, .waitingForOpponent, .gameOver]

/-- What is seen are the boards, from the first INIT on. `own` says that the player's
matrix counts too: while a game is on. -/
structure Mem.Displays (own : Prop) (m : Mem) (seen : MatrixId → Cell → Option Color) : Prop where
  opponent : m.currentGame = true → m.game.opponent.Seen false (seen .first)
  player : own → m.Playing → m.game.player.Seen true (seen .second)

/-- What the others leave alone; with `own` the player changes in WEB_INIT only. -/
structure Mem.Spared (own : Prop) (m m' : Mem) : Prop where
  pointer : m'.currentGame = m.currentGame
  leds : m'.leds = m.leds
  opponent : m'.game.opponent = m.game.opponent
  state : m'.game.state ∈ [m.game.state, .gameRestart, .randomInit]
  player : own → m'.game.player = m.game.player ∨ m.game.state = .webInit

/-- The LED slave is sent what the boards are. -/
def displays (own : Prop) : Contract where
  rely := Mem.Spared own
  serve := Mem.Spared False
  counts _ := false
  guar _ c m := ∀ msg, c = .queueSend msg → msg.slaveId = 3 → ∀ pipe,
    m.Displays own (decodeCell (messageOf (frameOf msg) pipe).payload)
  home _ m := m.Displays own m.leds.seen

namespace Mem.Spared
variable {own : Prop} {m m' m'' : Mem}

theorem refl (m : Mem) : m.Spared own m := ⟨rfl, rfl, rfl, List.mem_cons_self, fun _ => .inl rfl⟩

theorem state_eq (h : m.Spared own m') {v : GameState} (state : m'.game.state = v)
    (other : v ∉ [GameState.gameRestart, .randomInit]) : m.game.state = v := by
  rcases List.mem_cons.mp h.state with same | asked
  · exact same.symm.trans state
  · exact absurd (state ▸ asked) other

theorem trans (h : m.Spared own m') (h' : m'.Spared own m'') : m.Spared own m'' where
  pointer := h'.pointer.trans h.pointer
  leds := h'.leds.trans h.leds
  opponent := h'.opponent.trans h.opponent
  state := by
    rcases List.mem_cons.mp h'.state with same | asked
    · rw [same]
      exact h.state
    · exact List.mem_cons_of_mem _ asked
  player mine := by
    rcases h'.player mine with same | waits
    · rw [same]
      exact h.player mine
    · exact .inr (h.state_eq waits (by simp))

/-- Nobody but the task starts a game. -/
theorem playing (h : m.Spared own m') (playing : m'.Playing) :
    m.Playing ∧ m.game.state ≠ .webInit := by
  rw [Mem.Playing, List.mem_cons, List.mem_cons, List.mem_singleton] at playing
  rcases playing with state | state | state
  · have same := h.state_eq state (by simp)
    simp [Mem.Playing, same]
  · have same := h.state_eq state (by simp)
    simp [Mem.Playing, same]
  · have same := h.state_eq state (by simp)
    simp [Mem.Playing, same]

theorem displays (h : m.Spared own m') {seen : MatrixId → Cell → Option Color}
    (before : m.Displays own seen) : m'.Displays own seen := by
  constructor
  · intro created
    rw [h.opponent]
    exact before.opponent (h.pointer ▸ created)
  · intro mine playing
    obtain ⟨was, away⟩ := h.playing playing
    rw [(h.player mine).resolve_right away]
    exact before.player mine was

theorem home (h : m.Spared own m') (before : m.Displays own m.leds.seen) :
    m'.Displays own m'.leds.seen := by
  rw [h.leds]
  exact h.displays before

end Mem.Spared

theorem spared_writes : ServerWrites (fun m r => m.Spared False r.1 ∧ ∀ o ∈ r.2, false = false) where
  none m := ⟨.refl m, fun _ _ => rfl⟩
  difficulty m _ := ⟨{ Mem.Spared.refl m with }, fun _ _ => rfl⟩
  connected m := ⟨{ Mem.Spared.refl m with }, fun _ _ => rfl⟩
  command m _ asked :=
    ⟨{ Mem.Spared.refl m with state := List.mem_cons_of_mem _ asked }, fun _ _ => rfl⟩
  frame m _ := ⟨.refl m, fun _ _ => rfl⟩
  player _ _ := ⟨⟨rfl, rfl, rfl, List.mem_cons_self, False.elim⟩, fun _ _ => rfl⟩
  ready m := ⟨{ Mem.Spared.refl m with }, fun _ _ => rfl⟩

/-- What an iteration keeps between its calls: the pictures, `mine` that of the player
too, away from WEB_INIT. -/
structure Mem.Tracked (mine : Prop) (m : Mem) : Prop where
  opponent : m.currentGame = true → m.game.opponent.Seen false (m.leds.seen .first)
  player : mine → m.game.player.Seen true (m.leds.seen .second)
  away : m.game.state ≠ .webInit

/-- A call that sends nothing to the LED slave. -/
def Call.Unlit (c : Call) : Prop := ∀ msg, c = .queueSend msg → msg.slaveId ≠ 3

theorem robot_apart : UInt8.ofInt 4 ≠ 3 := by decide

theorem unlit_calls : RobotCalls Call.Unlit where
  delay _ _ _ eq := by cases eq
  sound _ msg eq := by
    cases eq
    exact robot_apart
  robot _ _ _ _ _ msg eq := by
    cases eq
    exact robot_apart

section Programs
variable {own mine : Prop} {past : List Out} {m : Mem} {l : List (Out ⊕ Call)}

theorem Mem.Tracked.displays (h : m.Tracked own) : m.Displays own m.leds.seen :=
  ⟨h.opponent, fun mine _ => h.player mine⟩

theorem Mem.Tracked.spared (h : m.Tracked mine) (sub : mine → own) {m' : Mem}
    (spared : m.Spared own m') : m'.Tracked mine where
  opponent created := by
    rw [spared.opponent, spared.leds]
    exact h.opponent (spared.pointer ▸ created)
  player is_mine := by
    rw [(spared.player (sub is_mine)).resolve_right h.away, spared.leds]
    exact h.player is_mine
  away state := h.away (spared.state_eq state (by simp))

/-- A program that leaves the LED slave alone keeps what its writes and the others
keep. -/
theorem runs_unlit {J : Mem → Prop} {R : Mem → Mem × List Out → Prop} {t : GameTask α}
    (always : Prog.Always R t) (unlit : Prog.Asks Call.Unlit t)
    (step : ∀ m r, R m r → J m → J r.1) (stable : ∀ {m m'}, J m → m.Spared own m' → J m')
    (start : J m) : (displays own).runs past t (fun _ m _ => J m) m l :=
  always.wlp_asks (J := fun m _ => J m) unlit (fun _ _ _ => step _ _)
    (fun _ _ _ unlit _ msg eq slave => absurd slave (unlit msg eq))
    (fun _ _ _ _ _ _ before spared => stable before spared) start

/-- A program that writes nothing to the memory. -/
abbrev Idle (t : GameTask α) : Prop := Prog.Always (fun m r => r.1 = m) t

theorem runs_idle {J : Mem → Prop} {t : GameTask α} (idle : Idle t)
    (unlit : Prog.Asks Call.Unlit t) (stable : ∀ {m m'}, J m → m.Spared own m' → J m')
    (start : J m) : (displays own).runs past t (fun _ m _ => J m) m l :=
  runs_unlit idle unlit (fun _ _ same before => same ▸ before) stable start

theorem runs_vTaskDelay {J : Mem → Prop} (ms : Nat)
    (stable : ∀ {m m'}, J m → m.Spared own m' → J m') (start : J m) :
    (displays own).runs past (vTaskDelay ms) (fun _ m _ => J m) m l :=
  runs_idle (Prog.always_sys _) ⟨fun _ eq => (by cases eq), fun _ => trivial⟩ stable start

theorem sendWsGameUpdate_idle (isInit : Bool) : Idle (sendWsGameUpdate isInit) :=
  sendWsGameUpdate_shows (R := fun m r => r.1 = m) (fun _ => rfl) (fun _ _ => rfl) isInit

theorem sendWsResult_idle (winner : Side) : Idle (sendWsResult winner) :=
  .bind (Prog.always_write fun _ => rfl) fun _ =>
    .bind (Prog.always_get fun _ => rfl) fun _ => .ite (Prog.always_write fun _ => rfl) trivial

theorem runs_sendLed {J : Mem → Prop} (shown : ∀ {m}, J m → m.Displays own m.leds.seen)
    (stable : ∀ {m m'}, J m → m.Spared own m' → J m') (start : J m) :
    (displays own).runs past (sendLedMatrixUpdate 3) (fun _ m _ => J m) m l := by
  rw [Contract.runs, sendLedMatrixUpdate, Prog.wlp_bind, Prog.wlp_get]
  refine Prog.wlp_ite (fun _ => ?_) fun _ => start
  rw [Prog.wlp_sys]
  refine ⟨fun msg eq _ pipe => ?_, fun _ m' spared => stable start spared⟩
  cases eq
  have seen : decodeCell (messageOf (frameOf (ledMessage 3 m.leds)) pipe).payload = m.leds.seen :=
    funext fun k => seen_frame 3 m.leds pipe k
  rw [seen]
  exact shown start

theorem drawn_player (opponent : m.currentGame = true →
      m.game.opponent.Seen false (m.leds.seen .first)) (away : m.game.state ≠ .webInit) :
    Mem.Tracked own
      { m with leds := renderBoardToMatrix m.leds m.game.player.board playerMatrix true } := by
  refine ⟨fun created => ?_, fun _ => seen_render _ m.game.player playerMatrix true, away⟩
  have first : MatrixId.first ≠ .ofNum playerMatrix := by decide
  simp only
  rw [seen_other _ _ _ _ first]
  exact opponent created

/-- Both boards drawn, whatever was seen before. -/
theorem runs_renderBoards (away : m.game.state ≠ .webInit) :
    (displays own).runs past renderBoards (fun _ m _ => m.Tracked own) m l := by
  rw [Contract.runs, renderBoards, Prog.wlp_bind, renderBoard, Prog.wlp_modify, renderBoard,
    Prog.wlp_modify]
  refine ⟨fun _ => seen_render _ m.game.opponent opponentMatrix false, fun _ => ?_, away⟩
  have second : MatrixId.second ≠ .ofNum opponentMatrix := by decide
  have kept := seen_other (renderBoardToMatrix m.leds m.game.player.board playerMatrix true)
    m.game.opponent.board opponentMatrix false second
  simp only [Game.side]
  rw [kept]
  exact seen_render m.leds m.game.player playerMatrix true

/-- After a guess: only one that was rejected leaves the boards as they are drawn. -/
structure Mem.Landed (own : Prop) (result : GuessResult) (m : Mem) : Prop where
  away : m.game.state ≠ .webInit
  rejected : result = .rejected → m.Tracked own

theorem Mem.Landed.spared {result : GuessResult} (h : m.Landed own result) {m' : Mem}
    (spared : m.Spared own m') : m'.Landed own result :=
  ⟨fun state => h.away (spared.state_eq state (by simp)),
    fun rejected => (h.rejected rejected).spared id spared⟩

theorem Mem.Tracked.guessed (h : m.Tracked own) {target : Side} {row col : Int}
    {e : Player × GuessResult × Option Nat}
    (guess : guessCell (m.game.side target) row col = some e) (answer : e.2.1 = .rejected) :
    Mem.Tracked own { m with game := m.game.setSide target e.1 } := by
  cases target with
  | player => exact ⟨h.opponent, fun mine => (h.player mine).rejected guess answer, h.away⟩
  | opponent => exact ⟨fun created => (h.opponent created).rejected guess answer, h.player, h.away⟩

theorem runs_applyGuess (target : Side) (row col : Int) (h : m.Tracked own) :
    (displays own).runs past (applyGuess target row col)
      (fun result m _ => m.Landed own result) m l := by
  rw [Contract.runs, applyGuess, Prog.wlp_bind, Prog.wlp_emit, Prog.wlp_bind]
  apply Prog.wlp_tryModify
  rintro ⟨result, sunk⟩ m' eq
  simp only [Option.bind_eq_bind, Option.bind_eq_some_iff, Option.pure_def, Option.some.injEq,
    Prod.mk.injEq] at eq
  obtain ⟨e, guess, ⟨rfl, rfl⟩, rfl⟩ := eq
  have after : Mem.Landed own e.2.1 { m with game := m.game.setSide target e.1 } := by
    refine ⟨?_, h.guessed guess⟩
    rw [setSide_state]
    exact h.away
  rw [Prog.wlp_bind]
  refine Prog.wlp_mono (fun _ m₂ l₂ shown => ?_) (runs_idle (J := Mem.Landed own e.2.1)
    (showSunk_idle (R := fun m r => r.1 = m) (fun _ => rfl) _ _) (showSunk_asks unlit_calls _ _)
    (fun before spared => before.spared spared) after)
  rw [Prog.wlp_bind, Prog.wlp_emit]
  exact shown

/-- What follows a guess, up to the end of the switch. -/
theorem runs_answered {t : GuessResult → GameTask Unit} {result : GuessResult}
    (moved : ∀ m l, m.game.state ≠ .webInit →
      (displays own).runs past (t result) (fun _ m _ => m.Tracked own) m l)
    (h : m.Landed own result) : (displays own).runs past
      (if result = .rejected then .ret () else t result) (fun _ m _ => m.Tracked own) m l :=
  Prog.wlp_ite (fun rejected => h.rejected rejected) fun _ => moved m l h.away

/-- The end of a move draws both boards. -/
theorem runs_moveEnds {turn : Bool} {side : Side} {next : GameState} {won : GameTask Unit}
    (away : m.game.state ≠ .webInit) (goes_on : next ≠ .webInit)
    (ended : ∀ m l, m.Tracked own →
      (displays own).runs past won (fun _ m _ => m.Tracked own) m l) : (displays own).runs past (do
      renderBoards
      setTurn turn
      if ← allSunk side then
        setState .gameOver
        won
      else
        setState next
        sendWsGameUpdate false) (fun _ m _ => m.Tracked own) m l := by
  refine wlp_moveEnds (J := fun m _ => m.Tracked own) (Q := fun m _ => m.Tracked own)
    (runs_renderBoards away) (fun m l drawn => ?_) fun m l drawn => ?_
  · exact ended _ l ⟨drawn.opponent, drawn.player, by simp⟩
  · exact runs_idle (sendWsGameUpdate_idle _) (sendWsGameUpdate_asks _) (.spared · id)
      ⟨drawn.opponent, drawn.player, goes_on⟩

theorem runs_playerMoved (result : GuessResult) (away : m.game.state ≠ .webInit) :
    (displays own).runs past (playerMoved result) (fun _ m _ => m.Tracked own) m l := by
  rw [Contract.runs, playerMoved, Prog.wlp_bind]
  have stable : ∀ {m m' : Mem}, m.game.state ≠ .webInit → m.Spared own m' →
      m'.game.state ≠ .webInit := fun away spared state => away (spared.state_eq state (by simp))
  refine Prog.wlp_mono (fun _ m₁ l₁ told => ?_) (runs_idle (ioEnqueueSend_always _)
    (sendSoundCommand_asks unlit_calls _) stable away)
  exact runs_moveEnds told (by simp) fun m l drawn =>
    runs_idle (sendWsResult_idle _) (sendWsResult_asks _) (.spared · id) drawn

theorem runs_opponentMoved (away : m.game.state ≠ .webInit) :
    (displays own).runs past opponentMoved (fun _ m _ => m.Tracked own) m l := by
  refine runs_moveEnds away (by simp) fun m l drawn => ?_
  rw [Contract.runs, Prog.wlp_bind]
  refine Prog.wlp_mono (fun _ m₁ l₁ sent => ?_)
    (runs_sendLed Mem.Tracked.displays (.spared · id) drawn)
  exact runs_idle (sendWsResult_idle _) (sendWsResult_asks _) (.spared · id) sent

theorem runs_placePlayer (lengths : List Int) (h : m.Tracked False) :
    (displays own).runs past (placeRandomShips .player lengths) (fun _ m _ => m.Tracked False) m l := by
  refine runs_unlit (R := fun m r => r.1.currentGame = m.currentGame ∧ r.1.leds = m.leds ∧
      r.1.game.opponent = m.game.opponent ∧ r.1.game.state = m.game.state)
    (placeRandomShips_writes ⟨fun _ => ⟨rfl, rfl, rfl, rfl⟩, fun _ _ => ⟨rfl, rfl, rfl, rfl⟩,
      fun _ _ _ _ _ _ => ⟨rfl, rfl, rfl, rfl⟩, fun _ _ => ⟨rfl, rfl, rfl, rfl⟩⟩ lengths)
    (placeRandomShips_asks unlit_calls.places _ _) ?_ (.spared · False.elim) h
  rintro m r ⟨pointer, leds, opponent, state⟩ before
  refine ⟨fun created => ?_, False.elim, state ▸ before.away⟩
  rw [opponent, leds]
  exact before.opponent (pointer ▸ created)

/-- The opponent with a ship that is seated but not yet counted. -/
structure Mem.Seating (mine : Prop) (q : Player) (m : Mem) : Prop where
  seated : m.game.opponent = q
  counted : Mem.Tracked mine { m with game := { m.game with opponent := q.counted } }

theorem Mem.Seating.spared {q : Player} (h : m.Seating mine q) (sub : mine → own) {m' : Mem}
    (spared : m.Spared own m') : m'.Seating mine q := by
  refine ⟨spared.opponent.trans h.seated, h.counted.spared sub ?_⟩
  exact { spared with opponent := rfl }

theorem runs_finishRandomShip {q : Player} (length : Int) (d : Draw) (sub : mine → own)
    (h : m.Seating mine q) : (displays own).runs past (finishRandomShip .opponent length d)
      (fun _ m _ => m.Tracked mine) m l := by
  have count : ∀ {m : Mem} {l : List (Out ⊕ Call)}, m.Seating mine q →
      (displays own).runs past (countRandomShip .opponent) (fun _ m _ => m.Tracked mine) m l := by
    intro m l here
    rw [Contract.runs, countRandomShip, Prog.wlp_modify]
    have counted := here.counted
    rw [← here.seated] at counted
    exact counted
  rw [Contract.runs, finishRandomShip, Prog.wlp_bind, Prog.wlp_get]
  refine Prog.wlp_ite (fun _ => ?_) fun _ => count h
  rw [Prog.wlp_bind]
  refine Prog.wlp_mono (fun _ m₁ l₁ sent => ?_) (runs_idle (placeCommand_always _ _ _) ?_
    (fun here => here.spared sub) h)
  · rw [Prog.wlp_bind]
    refine Prog.wlp_mono (fun _ m₂ l₂ told => ?_) (runs_idle (sendWsGameUpdate_idle _)
      (sendWsGameUpdate_asks _) (fun here => here.spared sub) sent)
    rw [Prog.wlp_bind]
    exact Prog.wlp_mono (fun _ _ _ waited => count waited)
      (runs_vTaskDelay _ (fun here => here.spared sub) told)
  · exact .ite (sendRobotCommand_asks unlit_calls _ _ _ _ _)
      (sendRobotCommand_asks unlit_calls _ _ _ _ _)

/-- A round of the opponent's placement seats a ship unseen, or no ship. -/
theorem runs_placeOpponentLoop (lengths : List Int) (sub : mine → own) (h : m.Tracked mine) :
    (displays own).runs past (placeRandomLoop .opponent lengths) (fun _ m _ => m.Tracked mine) m l := by
  induction lengths generalizing m l with
  | nil => exact h
  | cons length rest ih =>
      rw [Contract.runs, placeRandomLoop, Prog.wlp_bind]
      apply Prog.wlp_tryModify
      intro found m₁ eq
      obtain ⟨⟨found', p, rng⟩, round, eq⟩ := Option.bind_eq_some_iff.mp eq
      cases eq
      rcases placeRandomShip_cases round with ⟨rfl, rfl⟩ | ⟨d, room, rfl, fits, counted⟩
      · exact ih ⟨h.opponent, h.player, h.away⟩
      · have seating : Mem.Seating mine p
            { m with game := m.game.setSide .opponent p, rng := rng } := by
          refine ⟨rfl, fun created => ?_, h.player, h.away⟩
          rw [counted]
          exact (h.opponent created).seated room fits
        rw [Prog.wlp_bind]
        exact Prog.wlp_mono (fun _ _ _ placed => ih placed)
          (runs_finishRandomShip length d sub seating)

theorem runs_placeOpponent (lengths : List Int) (sub : mine → own) (h : m.Tracked mine) :
    (displays own).runs past (placeRandomShips .opponent lengths) (fun _ m _ => m.Tracked mine) m l := by
  rw [Contract.runs, placeRandomShips, Prog.wlp_bind, Prog.wlp_modify]
  exact runs_placeOpponentLoop lengths sub
    ⟨fun created => (h.opponent created).uncounted, h.player, h.away⟩

theorem runs_setState {v : GameState} (h : m.Tracked own) :
    (displays own).runs past (setState v) (fun _ m _ => m.Displays own m.leds.seen) m l := by
  rw [Contract.runs, setState, Prog.wlp_modify]
  exact ⟨h.opponent, fun mine _ => h.player mine⟩

/-- Both matrices and both boards are cleared together. -/
theorem runs_initCase :
    (displays own).runs past initCase (fun _ m _ => m.Displays own m.leds.seen) m l := by
  have cleared : Mem.Tracked own
      { engineRestart m with game := clearedGame, currentGame := true, leds := ledMatrixInit } :=
    ⟨fun _ => seen_init .first _ false fun _ => rfl, fun _ => seen_init .second _ true fun _ => rfl,
      by simp [clearedGame]⟩
  rw [Contract.runs, initCase, Prog.wlp_bind, gameInit, Prog.wlp_bind, Prog.wlp_modify,
    Prog.wlp_bind]
  refine Prog.wlp_mono (fun _ m₁ l₁ sent => ?_)
    (runs_sendLed Mem.Tracked.displays (.spared · id) cleared)
  exact Prog.wlp_mono (fun _ _ _ waited => runs_setState waited)
    (runs_vTaskDelay _ (.spared · id) sent)

theorem runs_webInitCase (h : m.Displays own m.leds.seen) :
    (displays own).runs past webInitCase (fun _ m _ => m.Displays own m.leds.seen) m l := by
  rw [Contract.runs, webInitCase, Prog.wlp_bind, Prog.wlp_get]
  refine Prog.wlp_ite (fun _ => ?_) fun _ => h
  rw [Prog.wlp_bind, setState, Prog.wlp_modify, Prog.wlp_bind, renderBoard, Prog.wlp_modify]
  refine Prog.wlp_mono (fun _ _ _ placed => placed.displays) (runs_placeOpponent shipLengths id ?_)
  exact drawn_player h.opponent (by simp [Mem.setState])

theorem runs_randomInitCase (opponent : m.currentGame = true →
      m.game.opponent.Seen false (m.leds.seen .first)) (away : m.game.state ≠ .webInit) :
    (displays own).runs past randomInitCase (fun _ m _ => m.Displays own m.leds.seen) m l := by
  rw [Contract.runs, randomInitCase_eq, Prog.wlp_bind]
  refine Prog.wlp_mono (fun _ m₁ l₁ player => ?_)
    (runs_placePlayer shipLengths ⟨opponent, False.elim, away⟩)
  rw [Prog.wlp_bind]
  refine Prog.wlp_mono (fun _ m₂ l₂ placed => ?_) (runs_placeOpponent shipLengths False.elim player)
  rw [Prog.wlp_bind, renderBoard, Prog.wlp_modify, Prog.wlp_bind]
  exact Prog.wlp_mono (fun _ _ _ waited => runs_setState waited)
    (runs_vTaskDelay _ (.spared · id) (drawn_player placed.opponent placed.away))

theorem runs_waitingForPlayerCase (h : m.Tracked own) :
    (displays own).runs past waitingForPlayerCase (fun _ m _ => m.Tracked own) m l := by
  rw [Contract.runs, waitingForPlayerCase, Prog.wlp_bind, Prog.wlp_sys]
  refine ⟨fun msg eq => (by cases eq), fun msg m' spared => ?_⟩
  have later := h.spared id spared
  cases msg with
  | none => exact later
  | some msg =>
      refine Prog.wlp_ite (fun _ => ?_) fun _ => later
      rw [Prog.wlp_bind]
      exact Prog.wlp_mono (fun result _ _ => runs_answered fun _ _ => runs_playerMoved result)
        (runs_applyGuess _ _ _ later)

theorem runs_waitingForOpponentCase (lim : Limits) (h : m.Tracked own) :
    (displays own).runs past (waitingForOpponentCase lim) (fun _ m _ => m.Tracked own) m l := by
  rw [Contract.runs, waitingForOpponentCase, Prog.wlp_bind]
  refine Prog.wlp_mono (fun _ m₁ l₁ waited => ?_) (runs_vTaskDelay _ (.spared · id) h)
  rw [opponentMove, Prog.wlp_bind]
  apply Prog.wlp_attempt
  intro coord m₂ eq
  obtain ⟨g, -, eq⟩ := Outcome.bind_eq_done eq
  cases eq
  rw [Prog.wlp_bind]
  refine Prog.wlp_mono (fun result m₃ l₃ guessed => ?_)
    (runs_applyGuess _ _ _ ⟨waited.opponent, waited.player, waited.away⟩)
  rw [Prog.wlp_bind]
  apply Prog.wlp_tryModify
  intro _ m₄ eq
  obtain ⟨ai, -, eq⟩ := Option.bind_eq_some_iff.mp eq
  cases eq
  refine runs_answered (t := fun _ => opponentMoved) (fun _ _ => runs_opponentMoved)
    ⟨guessed.away, fun rejected => ?_⟩
  have tracked := guessed.rejected rejected
  exact ⟨tracked.opponent, tracked.player, tracked.away⟩

theorem runs_gameSwitch (lim : Limits) (h : m.Displays own m.leds.seen) :
    (displays own).runs past (gameSwitch lim m.game.state)
      (fun _ m _ => m.Displays own m.leds.seen) m l := by
  have playing : m.Playing → m.Tracked own := by
    refine fun playing => ⟨h.opponent, fun mine => h.player mine playing, fun state => ?_⟩
    simp [Mem.Playing, state] at playing
  cases state : m.game.state with
  | init => exact runs_initCase
  | webInit => exact runs_webInitCase h
  | randomInit => exact runs_randomInitCase h.opponent (by simp [state])
  | running => exact h
  | waitingForOpponent =>
      exact Prog.wlp_mono (fun _ _ _ moved => moved.displays)
        (runs_waitingForOpponentCase lim (playing (by simp [Mem.Playing, state])))
  | waitingForPlayer =>
      exact Prog.wlp_mono (fun _ _ _ moved => moved.displays)
        (runs_waitingForPlayerCase (playing (by simp [Mem.Playing, state])))
  | gameOver =>
      rw [gameSwitch, gameOverCase, Contract.runs, Prog.wlp_bind]
      exact Prog.wlp_mono (fun _ _ _ waited => runs_setState waited)
        (runs_vTaskDelay _ (.spared · id) (playing (by simp [Mem.Playing, state])))
  | gameRestart =>
      rw [gameSwitch, gameRestartCase, Contract.runs, Prog.wlp_bind, Prog.wlp_modify, Prog.wlp_bind]
      refine Prog.wlp_mono (fun _ m₁ l₁ removed => ?_) (runs_idle (J := Mem.Tracked False)
        (removeLoop_idle (R := fun m r => r.1 = m) (fun _ => rfl) _)
        (removeLoop_asks unlit_calls _) (.spared · False.elim) ?_)
      · rw [setState, Prog.wlp_modify]
        exact ⟨removed.opponent, fun _ playing => by simp [Mem.Playing, Mem.setState] at playing⟩
      · exact ⟨h.opponent, False.elim, by simp [engineRestart, state]⟩

theorem runs_loopTail (h : m.Displays own m.leds.seen) :
    (displays own).runs past loopTail (fun _ m _ => m.Displays own m.leds.seen) m l := by
  have stable : ∀ {m m' : Mem}, m.Displays own m.leds.seen → m.Spared own m' →
      m'.Displays own m'.leds.seen := fun before spared => spared.home before
  rw [Contract.runs, loopTail, Prog.wlp_bind]
  refine Prog.wlp_mono (fun _ _ _ sent => runs_vTaskDelay 250 stable sent) ?_
  exact runs_sendLed (J := fun m => m.Displays own m.leds.seen) id stable h

end Programs

namespace Firmware
variable {lim : Limits} {s : Firmware}

theorem displays_kept {own : Prop} {Meets : Firmware → Act → Prop}
    (meets : ∀ {s s' : Firmware}, own → Meets s .httpd → s.step lim .httpd = some s' →
      s'.mem.game.player = s.mem.game.player ∨ s.mem.game.state = .webInit) :
    (displays own).Kept lim Meets where
  refl := .refl
  trans := .trans
  guar _ spared before msg eq slave pipe := spared.displays (before msg eq slave pipe)
  home spared before := spared.home before
  handles := handle_always spared_writes
  serves ok hstep served := { served with player := fun mine => meets mine ok hstep }
  start start := by
    refine ⟨fun created => ?_, fun _ playing => ?_⟩
    · cases start.pointer.symm.trans created
    · simp [Mem.Playing, start.state] at playing
  iteration _ _ before := Prog.wlp_mono (fun _ _ _ => runs_loopTail) (runs_gameSwitch lim before)

/-- Whatever the browser asks for and whenever, the buttons and the opponent: from the
first INIT on matrix 1 is the opponent's board at the head of the loop, and so is what the
slave reads off every LED message that game_task is about to send. No ship of it is lit
before it is hit. -/
theorem opponent_on_display
    (h : Reaches (Firmware.step lim) (fun _ _ => True) (Start lim) s)
    (created : s.mem.currentGame = true) :
    (s.AtHead → s.mem.game.opponent.Seen false (s.mem.leds.seen .first)) ∧
    ∀ msg, s.rest.pending = some (.queueSend msg) → msg.slaveId = 3 → ∀ pipe,
      s.mem.game.opponent.Seen false
        (decodeCell (messageOf (frameOf msg) pipe).payload .first) := by
  obtain ⟨home, guar⟩ := (displays_kept (fun mine => False.elim mine)).holds h
  refine ⟨fun head => (home head).opponent created, fun msg at_call slave pipe => ?_⟩
  exact (guar _ at_call msg rfl slave pipe).opponent created

def isHttpd : Act → Bool
  | .httpd => true
  | _ => false

/-- A ship is set up in WEB_INIT, and the game begins. -/
def placedRun : List Act :=
  List.replicate 5 .game ++ [.request (setupList [shipItem 2 2 2])] ++
    List.replicate 9 .httpd ++ [.game]

/-- The message for the LED slave that the task is about to send. -/
def ledPending (s : Firmware) : Option IoMessage :=
  match s.rest.pending with
  | some (.queueSend msg) => if msg.slaveId = 3 then some msg else none
  | _ => none

theorem ledPending_some {msg : IoMessage} (h : s.ledPending = some msg) :
    s.rest.pending = some (.queueSend msg) ∧ msg.slaveId = 3 := by
  unfold ledPending at h
  split at h
  · rename_i sent at_call
    split at h
    · rename_i slave
      cases h
      exact ⟨at_call, slave⟩
    · cases h
  · cases h

/-- The first message of the game: a ship of the opponent is not lit. -/
theorem opponent_on_display_placed : ∃ (s : Firmware) (msg : IoMessage),
    s.ledPending = some msg ∧ s.mem.game.opponent.board.cells 0 0 = .ship ∧ ∀ pipe,
      s.mem.game.opponent.Seen false
        (decodeCell (messageOf (frameOf msg) pipe).payload .first) := by
  have run : (runList (Firmware.step ⟨0, none⟩) (boot ⟨0, none⟩) placedRun).any (fun s =>
      s.mem.currentGame = true ∧ s.ledPending.isSome = true ∧
        s.mem.game.opponent.board.cells 0 0 = .ship) = true := by decide +kernel
  obtain ⟨s, reached, check⟩ := exists_reaches (boot_start _) run
  obtain ⟨created, sends, ship⟩ := of_decide_eq_true check
  obtain ⟨msg, led⟩ := Option.isSome_iff_exists.mp sends
  obtain ⟨at_call, slave⟩ := ledPending_some led
  exact ⟨s, msg, led, ship, (opponent_on_display reached created).2 msg at_call slave⟩

/-- A handler writes the player's boats and board in WEB_INIT only. -/
def PlacesInWebInit (lim : Limits) (s : Firmware) (a : Act) : Prop :=
  a = .httpd → ∀ s', s.step lim a = some s' →
    s'.mem.game.player = s.mem.game.player ∨ s.mem.game.state = .webInit

/-- While the browser places ships in WEB_INIT only, matrix 2 is the player's board, ships
and all, as long as a game is on. -/
theorem player_on_display
    (h : Reaches (Firmware.step lim) (PlacesInWebInit lim) (Start lim) s)
    (playing : s.mem.Playing) :
    (s.AtHead → s.mem.game.player.Seen true (s.mem.leds.seen .second)) ∧
    ∀ msg, s.rest.pending = some (.queueSend msg) → msg.slaveId = 3 → ∀ pipe,
      s.mem.game.player.Seen true
        (decodeCell (messageOf (frameOf msg) pipe).payload .second) := by
  obtain ⟨home, guar⟩ := (displays_kept (fun (_ : True) ok hstep => ok rfl _ hstep)).holds h
  refine ⟨fun head => (home head).player trivial playing, fun msg at_call slave pipe => ?_⟩
  exact (guar _ at_call msg rfl slave pipe).player trivial playing

theorem player_on_display_placed : ∃ (s : Firmware) (msg : IoMessage),
    s.ledPending = some msg ∧ s.mem.game.player.board.cells 2 2 = .ship ∧ ∀ pipe,
      s.mem.game.player.Seen true
        (decodeCell (messageOf (frameOf msg) pipe).payload .second) := by
  have run : (runList (Firmware.step ⟨0, none⟩) (boot ⟨0, none⟩) placedRun).any (fun s =>
      s.mem.game.state = .waitingForPlayer ∧ s.ledPending.isSome = true ∧
        s.mem.game.player.board.cells 2 2 = .ship) = true := by decide +kernel
  have meets : Meets (Firmware.step ⟨0, none⟩)
      (fun s a => isHttpd a = true → s.mem.game.state = .webInit)
      (boot ⟨0, none⟩) placedRun := by decide +kernel
  obtain ⟨s, reached, check⟩ := exists_reaches_of_meets (boot_start _) meets run
  obtain ⟨state, sends, ship⟩ := of_decide_eq_true check
  obtain ⟨msg, led⟩ := Option.isSome_iff_exists.mp sends
  obtain ⟨at_call, slave⟩ := ledPending_some led
  have placed : Reaches (Firmware.step ⟨0, none⟩) (PlacesInWebInit ⟨0, none⟩)
      (Start ⟨0, none⟩) s :=
    reached.imp fun _ _ waits httpd _ _ => .inr (waits (by rw [httpd, isHttpd]))
  have playing : s.mem.Playing := by simp [Mem.Playing, state]
  exact ⟨s, msg, led, ship, (player_on_display placed playing).2 msg at_call slave⟩

end Firmware
end Battleship
