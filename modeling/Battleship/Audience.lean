import Battleship.Iteration
import Battleship.Sharing
import Battleship.Lib.Pace

/-!
# Whether a browser listens

The connection of the browser decides which frames are sent to it and nothing
else, and the difficulty and the state are read where a case begins: the game task
goes on alike in memories that differ in these.
-/
namespace Battleship
open Cooperative Prog

/-- Related memories share the opponent and the random source too. -/
structure SharingGame (E : Mem → Mem → Prop) : Prop extends Sharing E where
  opponent : ∀ m₁ m₂, E m₁ m₂ → m₁.game.opponent = m₂.game.opponent
  rng : ∀ m₁ m₂, E m₁ m₂ → m₁.rng = m₂.rng
  rival : ∀ m₁ m₂ q, E m₁ m₂ → E (m₁.setSide .opponent q) (m₂.setSide .opponent q)
  draw : ∀ m₁ m₂ r, E m₁ m₂ → E { m₁ with rng := r } { m₂ with rng := r }
  create : ∀ m₁ m₂, E m₁ m₂ → E { m₁ with currentGame := true } { m₂ with currentGame := true }

section SharingGame
variable {E : Mem → Mem → Prop} {α : Type} (h : SharingGame E)
include h

theorem SharingGame.player {m₁ m₂ : Mem} (related : E m₁ m₂) : m₁.game.player = m₂.game.player :=
  congrArg Shared.player (h.same m₁ m₂ related)

theorem SharingGame.side {m₁ m₂ : Mem} (related : E m₁ m₂) (side : Side) :
    m₁.game.side side = m₂.game.side side := by
  cases side with
  | player => exact h.player related
  | opponent => exact h.opponent m₁ m₂ related

theorem SharingGame.put_side {m₁ m₂ : Mem} (related : E m₁ m₂) (side : Side) (p : Player) :
    E (m₁.setSide side p) (m₂.setSide side p) := by
  cases side with
  | opponent => exact h.rival m₁ m₂ p related
  | player =>
      have shared := h.put m₁ m₂ { m₁.shared with player := p } related
      have at₂ : m₂.share { m₁.shared with player := p } = m₂.setSide .player p := by
        rw [h.same m₁ m₂ related]
        rfl
      rw [at₂] at shared
      exact shared

theorem blind_renderSide (side : Side) (matrixNum : Nat) (revealShips : Bool) :
    Blind E (renderBoard side matrixNum revealShips) := by
  refine blind_write [] fun m₁ m₂ related => ?_
  have leds : m₁.leds = m₂.leds := congrArg Shared.leds (h.same m₁ m₂ related)
  have shared := h.put m₁ m₂ { m₁.shared with
    leds := renderBoardToMatrix m₁.leds (m₁.game.side side).board matrixNum revealShips } related
  have at₂ : m₂.share { m₁.shared with
        leds := renderBoardToMatrix m₁.leds (m₁.game.side side).board matrixNum revealShips } =
      { m₂ with
        leds := renderBoardToMatrix m₂.leds (m₂.game.side side).board matrixNum revealShips } := by
    rw [h.same m₁ m₂ related, leds, h.side related]
    rfl
  rw [at₂] at shared
  exact shared

theorem blind_renderSides : Blind E renderBoards :=
  (blind_renderSide h _ _ _).bind fun _ => blind_renderSide h _ _ _

theorem blind_anySunk (side : Side) : Blind E (allSunk side) :=
  .get (fun _ _ related => by rw [h.side related]) fun _ => blind_ofOption _

theorem blind_showSide (target : Side) (sunk : Option Nat) : Blind E (showSunk target sunk) := by
  cases sunk with
  | none => exact blind_ret ()
  | some b =>
      exact .get (fun _ _ related => by rw [h.side related]) fun m =>
        .ite ((blind_ioEnqueueSend _).bind fun _ => (blind_vTaskDelay _).bind fun _ =>
          .get (fun _ _ related => by rw [h.side related]) fun m =>
            (blind_ofOption _).bind fun _ => (blind_removeCommand _).bind fun _ =>
              blind_vTaskDelay _) (blind_ret ())

theorem blind_strike (target : Side) (row col : Int) :
    Blind E (Prog.tryModify (strike target row col) : GameTask (GuessResult × Option Nat)) := by
  refine blind_tryModify fun m₁ m₂ related => ?_
  simp only [strike, h.side related]
  cases guessCell (m₂.game.side target) row col with
  | none => exact .none
  | some e => exact .some ⟨rfl, h.put_side related target e.1⟩

theorem blind_guess (target : Side) (row col : Int) : Blind E (applyGuess target row col) := by
  rw [applyGuess_strike]
  exact (blind_emit _).bind fun _ => (blind_strike h target row col).bind fun e =>
    (blind_showSide h target e.2).bind fun _ => (blind_emit _).bind fun _ => blind_ret _

theorem blind_countRandomShip (side : Side) : Blind E (countRandomShip side) := by
  refine blind_write [] fun m₁ m₂ related => ?_
  have counted := h.put_side related side (m₁.game.side side).counted
  have at₂ : m₂.setSide side (m₁.game.side side).counted =
      m₂.setSide side (m₂.game.side side).counted := by rw [h.side related]
  rw [at₂] at counted
  exact counted

theorem blind_create : Blind E (Prog.modify (fun m : Mem => { engineRestart m with
    game := clearedGame, currentGame := true, leds := ledMatrixInit }) : GameTask Unit) := by
  refine blind_write [] fun m₁ m₂ related => ?_
  let fresh : Shared :=
    ⟨clearedGame.player, false, false, aiResetSmart, initBoard true, ledMatrixInit⟩
  have created := h.level _ _ clearedGame.difficulty (h.enter _ _ .init (h.create m₁ m₂ related))
  exact h.rival _ _ clearedGame.opponent (h.put _ _ fresh created)

theorem blind_creation : Blind E initCase :=
  .bind (.bind (blind_create h) fun _ => (blind_sendLedMatrixUpdate h.toSharing 3).bind fun _ =>
    blind_vTaskDelay _) fun _ => blind_setState h.toSharing _

section Pace
variable {seen : Out → Bool} (unheard : ∀ f, seen (.frame f) = false)
include unheard

omit h in
/-- A frame is sent if somebody listens, and is not seen. -/
theorem pace_sendFrame (f : Mem → WsFrame) : KeepsPace E seen E (Prog.get >>= fun m =>
    if m.wsConnected then Prog.emit (.frame (f m)) else .ret () : GameTask Unit) := by
  refine keepsPace_unseen (a := ()) fun m => ?_
  cases connected : m.wsConnected with
  | true => exact ⟨[.frame (f m)], rfl, by simp [unheard]⟩
  | false => exact ⟨[], rfl, rfl⟩

omit h in
theorem pace_sendWsGameUpdate (isInit : Bool) : KeepsPace E seen E (sendWsGameUpdate isInit) :=
  pace_sendFrame unheard fun m => .update isInit (boardToJson m.game.player.board true)
    (boardToJson m.game.opponent.board false) (if m.game.turn then .opponent else .player)

omit h in
theorem pace_sendWsResult (winner : Side) : KeepsPace E seen E (sendWsResult winner) :=
  (blind_emit _).keepsPace.bind fun _ => pace_sendFrame unheard fun _ => .result winner

theorem pace_playerMoved (result : GuessResult) : KeepsPace E seen E (playerMoved result) :=
  have set : ∀ v, KeepsPace E seen E (setState v) :=
    fun v => (blind_setState h.toSharing v).keepsPace
  (blind_ioEnqueueSend _).keepsPace.bind fun _ => (blind_renderSides h).keepsPace.bind fun _ =>
    (blind_setTurn h.toSharing _).keepsPace.bind fun _ =>
      (blind_anySunk h _).keepsPace.bind fun _ =>
        .ite ((set _).bind fun _ => pace_sendWsResult unheard _)
          ((set _).bind fun _ => pace_sendWsGameUpdate unheard _)

theorem pace_opponentMoved : KeepsPace E seen E opponentMoved :=
  have set : ∀ v, KeepsPace E seen E (setState v) :=
    fun v => (blind_setState h.toSharing v).keepsPace
  (blind_renderSides h).keepsPace.bind fun _ =>
    (blind_setTurn h.toSharing _).keepsPace.bind fun _ =>
      (blind_anySunk h _).keepsPace.bind fun _ => .ite
        ((set _).bind fun _ => (blind_sendLedMatrixUpdate h.toSharing 3).keepsPace.bind fun _ =>
          pace_sendWsResult unheard _)
        ((set _).bind fun _ => pace_sendWsGameUpdate unheard _)

theorem pace_finishRandomShip (side : Side) (length : Int) (d : Draw) :
    KeepsPace E seen E (finishRandomShip side length d) :=
  have placed : Blind E (placeCommand (4 - length) d length) :=
    .ite (blind_ioEnqueueSend _) (blind_ioEnqueueSend _)
  have counted := (blind_countRandomShip h side).keepsPace
  .get (fun _ _ related => by rw [h.side related]) fun m => .ite
    (placed.keepsPace.bind fun _ => (pace_sendWsGameUpdate unheard _).bind fun _ =>
      (blind_vTaskDelay _).keepsPace.bind fun _ => counted) counted

theorem pace_placeRandomLoop (side : Side) (lengths : List Int) :
    KeepsPace E seen E (placeRandomLoop side lengths) := by
  induction lengths with
  | nil => exact keepsPace_ret ()
  | cons length rest ih =>
      refine KeepsPace.bind (Blind.keepsPace (blind_tryModify fun m₁ m₂ related => ?_))
        fun found => ?_
      · rw [h.side related, h.rng m₁ m₂ related]
        cases placeRandomShip (m₂.game.side side) length m₂.rng with
        | none => exact .none
        | some e => exact .some ⟨rfl, h.draw _ _ e.2.2 (h.put_side related side e.2.1)⟩
      · cases found with
        | none => exact ih
        | some d => exact (pace_finishRandomShip h unheard side length d).bind fun _ => ih

theorem pace_placeRandomShips (side : Side) (lengths : List Int) :
    KeepsPace E seen E (placeRandomShips side lengths) := by
  have uncounted : Blind E (Prog.modify (fun m : Mem => m.setSide side
      (m.game.side side).uncounted) : GameTask Unit) := by
    refine blind_write [] fun m₁ m₂ related => ?_
    rw [h.side related]
    exact h.put_side related side _
  exact uncounted.keepsPace.bind fun _ => pace_placeRandomLoop h unheard side lengths

theorem pace_webInitCase : KeepsPace E seen E webInitCase := by
  refine .get (fun m₁ m₂ related => ?_) fun m => .ite
    ((blind_setState h.toSharing _).keepsPace.bind fun _ =>
      (blind_renderPlayer h.toSharing).keepsPace.bind fun _ => pace_placeRandomShips h unheard _ _)
    (keepsPace_ret ())
  have ready : m₁.game.gameReady = m₂.game.gameReady :=
    congrArg Shared.gameReady (h.same m₁ m₂ related)
  rw [ready]

theorem pace_randomInitCase : KeepsPace E seen E randomInitCase :=
  .bind ((pace_placeRandomShips h unheard _ _).bind fun _ =>
    (pace_placeRandomShips h unheard _ _).bind fun _ =>
      (blind_renderPlayer h.toSharing).keepsPace.bind fun _ => (blind_vTaskDelay _).keepsPace)
    fun _ => (blind_setState h.toSharing _).keepsPace

theorem pace_received (msg : Option IoMessage) : KeepsPace E seen E (received msg) := by
  cases msg with
  | none => exact keepsPace_ret ()
  | some msg =>
      simp only [received]
      exact .ite ((blind_guess h _ _ _).keepsPace.bind fun result =>
        .ite (keepsPace_ret ()) (pace_playerMoved h unheard result)) (keepsPace_ret ())

/-- The difficulty is read by the move of the opponent, before its first call. -/
theorem pace_opponentMove {E₀ : Mem → Mem → Prop} (lim : Limits)
    (weak : ∀ m₁ m₂, E₀ m₁ m₂ → E m₁ m₂)
    (level : ∀ m₁ m₂, E₀ m₁ m₂ → m₁.game.difficulty = m₂.game.difficulty) :
    KeepsPace E seen E₀ (opponentMove lim) := by
  have aimed : KeepsPace E seen E₀ (opponentGuess lim) := by
    refine keepsPace_attempt weak fun m₁ m₂ related => ?_
    have related' := weak m₁ m₂ related
    have tracker : m₁.smartAiState = m₂.smartAiState :=
      congrArg Shared.smartAiState (h.same m₁ m₂ related')
    have board : m₁.aiGuessBoard = m₂.aiGuessBoard :=
      congrArg Shared.aiGuessBoard (h.same m₁ m₂ related')
    have same : engineGetGuess lim.fuel m₁.game.difficulty m₁.aiGuessBoard m₁.smartAiState m₁.rng =
        engineGetGuess lim.fuel m₂.game.difficulty m₂.aiGuessBoard m₂.smartAiState m₂.rng := by
      rw [level m₁ m₂ related, tracker, board, h.rng m₁ m₂ related']
    rw [same]
    cases engineGetGuess lim.fuel m₂.game.difficulty m₂.aiGuessBoard m₂.smartAiState m₂.rng with
    | undefined => exact .undefined
    | starved => exact .starved
    | done e =>
        have put := h.put m₁ m₂ { m₁.shared with smartAiState := e.2.1 } related'
        have at₂ : m₂.share { m₁.shared with smartAiState := e.2.1 } =
            { m₂ with smartAiState := e.2.1 } := by
          rw [h.same m₁ m₂ related']
          rfl
        rw [at₂] at put
        exact .done ⟨rfl, h.draw _ _ e.2.2 put⟩
  exact aimed.bind fun coord => (blind_guess h _ _ _).keepsPace.bind fun result =>
    (blind_updateSmartAi h.toSharing lim coord result).keepsPace.bind fun _ =>
      .ite (keepsPace_ret ()) (pace_opponentMoved h unheard)

/-- A case goes on alike; the opponent's only if the difficulty is the same. -/
theorem pace_gameSwitch (lim : Limits) {v : GameState} (level : v = .waitingForOpponent →
    ∀ m₁ m₂, E m₁ m₂ → m₁.game.difficulty = m₂.game.difficulty) :
    KeepsPace E seen E (gameSwitch lim v) := by
  cases v with
  | init => exact (blind_creation h).keepsPace
  | webInit => exact pace_webInitCase h unheard
  | randomInit => exact pace_randomInitCase h unheard
  | running => exact keepsPace_ret ()
  | waitingForOpponent =>
      exact (blind_vTaskDelay _).keepsPace.bind fun _ =>
        pace_opponentMove h unheard lim (fun _ _ related => related) (level rfl)
  | waitingForPlayer =>
      rw [gameSwitch, waitingForPlayerCase_received]
      exact (blind_sys _).keepsPace.bind (pace_received h unheard)
  | gameOver => exact (blind_gameOverCase h.toSharing).keepsPace
  | gameRestart => exact (blind_gameRestartCase h.toSharing).keepsPace

end Pace

end SharingGame

/-- The memory with or without a browser. -/
def Mem.heard (m : Mem) (w : Bool) : Mem := { m with wsConnected := w }

/-- The memories of a created game that differ in the connection at most. -/
inductive Peers : Mem → Mem → Prop
  | heard {m : Mem} (w : Bool) : m.currentGame = true → Peers m (m.heard w)

/-- All that is logged but the frames to the browser. -/
def unframed : Out → Bool
  | .frame _ => false
  | _ => true

theorem peers_sharing : SharingGame Peers where
  same := by
    rintro _ _ ⟨-, -⟩
    rfl
  created := by
    rintro _ _ ⟨-, -⟩
    rfl
  put := by
    rintro m _ x ⟨w, created⟩
    exact .heard (m := m.share x) w created
  enter := by
    rintro m _ v ⟨w, created⟩
    exact .heard (m := m.setState v) w created
  level := by
    rintro m _ d ⟨w, created⟩
    exact .heard (m := m.setLevel d) w created
  opponent := by
    rintro _ _ ⟨-, -⟩
    rfl
  rng := by
    rintro _ _ ⟨-, -⟩
    rfl
  rival := by
    rintro m _ q ⟨w, created⟩
    exact .heard (m := m.setSide .opponent q) w created
  draw := by
    rintro m _ r ⟨w, created⟩
    exact .heard (m := { m with rng := r }) w created
  create := by
    rintro m _ ⟨w, -⟩
    exact .heard (m := { m with currentGame := true }) w rfl

theorem Peers.created {m₁ m₂ : Mem} (h : Peers m₁ m₂) : m₁.currentGame = true := by
  cases h with
  | heard w created => exact created

theorem Peers.game {m₁ m₂ : Mem} (h : Peers m₁ m₂) : m₁.game = m₂.game := by
  cases h with
  | heard w created => rfl

/-- A request does the same to the game with and without a browser; a page that loads
only asks to be shown it. -/
theorem peers_handle {r : Request} (other : r ≠ .wsMessage .init) : Blind Peers (handle r) := by
  have shares := peers_sharing.toSharing
  cases r with
  | setDifficulty body => exact blind_postSetDifficultyHandler shares body
  | placeShips body => exact blind_postPlaceShipsHandler shares body
  | setupGame body => exact blind_postSetupGameHandler shares body
  | wsConnect =>
      refine Blind.bind (blind_write [] ?_) fun _ => blind_ret _
      rintro m _ ⟨w, created⟩
      exact .heard (m := { m with wsConnected := true }) true created
  | wsMessage text =>
      cases text with
      | init => exact absurd rfl other
      | other => exact blind_ret _
      | restart =>
          refine .get ?_ fun m => .ite ((blind_command shares _).bind fun _ => blind_ret _)
            blind_undefined
          rintro _ _ ⟨-, -⟩
          rfl

end Battleship
