import Battleship.Execution
import Battleship.Lib.Twin

/-!
# What related memories share

Most of the firmware uses neither the opponent, nor the random source, nor the
state, nor whether a browser listens. It is blind to any relation on memories that
fixes the rest.
-/
namespace Battleship
open Cooperative Prog

structure Shared where
  player : Player
  gameReady : Bool
  turn : Bool
  smartAiState : AiState
  aiGuessBoard : Board
  leds : Leds

def Mem.shared (m : Mem) : Shared where
  player := m.game.player
  gameReady := m.game.gameReady
  turn := m.game.turn
  smartAiState := m.smartAiState
  aiGuessBoard := m.aiGuessBoard
  leds := m.leds

def Mem.share (m : Mem) (x : Shared) : Mem :=
  { m with
    game := { m.game with player := x.player, gameReady := x.gameReady, turn := x.turn }
    smartAiState := x.smartAiState
    aiGuessBoard := x.aiGuessBoard
    leds := x.leds }

def Mem.setLevel (m : Mem) (d : Difficulty) : Mem :=
  { m with game := { m.game with difficulty := d } }

/-- Related memories share all this, and stay related when it is replaced in both, and
when the state or the difficulty is. -/
structure Sharing (E : Mem → Mem → Prop) : Prop where
  same : ∀ m₁ m₂, E m₁ m₂ → m₁.shared = m₂.shared
  created : ∀ m₁ m₂, E m₁ m₂ → m₁.currentGame = m₂.currentGame
  put : ∀ m₁ m₂ x, E m₁ m₂ → E (m₁.share x) (m₂.share x)
  enter : ∀ m₁ m₂ v, E m₁ m₂ → E (m₁.setState v) (m₂.setState v)
  level : ∀ m₁ m₂ d, E m₁ m₂ → E (m₁.setLevel d) (m₂.setLevel d)

section Sharing
variable {E : Mem → Mem → Prop} {α : Type}

theorem blind_emit (o : Out) : Blind E (Prog.emit o : GameTask Unit) :=
  blind_write [o] fun _ _ related => related

theorem blind_ioEnqueueSend (msg : IoMessage) : Blind E (ioEnqueueSend msg) :=
  .ite (blind_sys _) (blind_ret ())

theorem blind_vTaskDelay (ms : Nat) : Blind E (vTaskDelay ms) := blind_sys _

theorem blind_removeCommand (boat : Boat) : Blind E (removeCommand boat) :=
  .ite (blind_ioEnqueueSend _) (blind_ioEnqueueSend _)

variable (h : Sharing E)
include h

theorem Sharing.write (f : Shared → Shared) {g : Mem → Mem} (log : List Out)
    (eq : ∀ m, g m = m.share (f m.shared)) : Blind E (Prog.write g log : GameTask Unit) := by
  refine blind_write log fun m₁ m₂ related => ?_
  rw [eq, eq, h.same m₁ m₂ related]
  exact h.put m₁ m₂ _ related

theorem Sharing.tryModify (f : Shared → Option (α × Shared)) {g : Mem → Option (α × Mem)}
    (eq : ∀ m, g m = (f m.shared).map (fun e => (e.1, m.share e.2))) :
    Blind E (Prog.tryModify g : GameTask α) := by
  refine blind_tryModify fun m₁ m₂ related => ?_
  rw [eq, eq, h.same m₁ m₂ related]
  cases f m₂.shared with
  | none => exact .none
  | some e => exact .some ⟨rfl, h.put m₁ m₂ e.2 related⟩

theorem Sharing.get (f : Shared → GameTask α) {g : Mem → GameTask α}
    (eq : ∀ m, g m = f m.shared) (hg : ∀ m, Blind E (g m)) : Blind E (Prog.get >>= g) :=
  .get (fun m₁ m₂ related => by rw [eq, eq, h.same m₁ m₂ related]) hg

theorem blind_setState (v : GameState) : Blind E (setState v) :=
  blind_write [] fun m₁ m₂ => h.enter m₁ m₂ v

theorem blind_setTurn (v : Bool) : Blind E (setTurn v) :=
  h.write (fun x => { x with turn := v }) [] fun _ => rfl

theorem blind_sendLedMatrixUpdate (slaveId : Int) : Blind E (sendLedMatrixUpdate slaveId) :=
  h.get (fun x => ioEnqueueSend (ledMessage slaveId x.leds)) (fun _ => rfl)
    fun _ => blind_ioEnqueueSend _

theorem blind_renderPlayer : Blind E (renderBoard .player playerMatrix true) :=
  h.write (fun x => { x with leds := renderBoardToMatrix x.leds x.player.board playerMatrix true })
    [] fun _ => rfl

theorem blind_loopTail : Blind E loopTail :=
  (blind_sendLedMatrixUpdate h 3).bind fun _ => blind_vTaskDelay 250

theorem blind_showSunk (sunk : Option Nat) : Blind E (showSunk .player sunk) := by
  cases sunk with
  | none => exact blind_ret ()
  | some b =>
      let rest : Shared → GameTask Unit := fun x => do
        let boat ← Prog.ofOption (x.player.boatAt b)
        removeCommand boat
        vTaskDelay 10000
      let announce : Shared → GameTask Unit := fun x =>
        if x.player.board.isOpp = false then do
          sendSoundCommand 4 0
          vTaskDelay 100
          let m ← Prog.get
          rest m.shared
        else .ret ()
      exact h.get announce (fun _ => rfl) fun m => .ite ((blind_ioEnqueueSend _).bind fun _ =>
        (blind_vTaskDelay _).bind fun _ => h.get rest (fun _ => rfl) fun m =>
          (blind_ofOption _).bind fun _ => (blind_removeCommand _).bind fun _ =>
            blind_vTaskDelay _) (blind_ret ())

theorem blind_applyGuess (row col : Int) : Blind E (applyGuess .player row col) := by
  rw [applyGuess_strike]
  have struck : Blind E (Prog.tryModify (strike .player row col) :
      GameTask (GuessResult × Option Nat)) := by
    refine h.tryModify (fun x => (guessCell x.player row col).map
      (fun e => (e.2, { x with player := e.1 }))) fun m => ?_
    rw [Option.map_map]
    rfl
  exact (blind_emit _).bind fun _ => struck.bind fun e => (blind_showSunk h e.2).bind fun _ =>
    (blind_emit _).bind fun _ => blind_ret _

theorem blind_updateSmartAi (lim : Limits) (coord : Coordinate) (result : GuessResult) :
    Blind E (updateSmartAi lim coord result) := by
  refine h.tryModify (fun x => (engineUpdateSmartAi lim.hitsSize x.smartAiState x.aiGuessBoard
    coord.row coord.col result).map
      (fun e => ((), { x with smartAiState := e.1, aiGuessBoard := e.2 }))) fun m => ?_
  change (engineUpdateSmartAi lim.hitsSize m.smartAiState m.aiGuessBoard coord.row coord.col
    result).bind _ = Option.map _ (Option.map _ (engineUpdateSmartAi lim.hitsSize m.smartAiState
      m.aiGuessBoard coord.row coord.col result))
  cases engineUpdateSmartAi lim.hitsSize m.smartAiState m.aiGuessBoard coord.row coord.col result
    <;> rfl

theorem blind_removeLoop (is : List Nat) : Blind E (removeLoop is) := by
  induction is with
  | nil => exact blind_ret ()
  | cons i is ih =>
      exact h.get (fun x => Prog.ofOption (x.player.boatAt i) >>= fun boat =>
        removeBoat boat >>= fun _ => removeLoop is) (fun _ => rfl) fun m =>
        (blind_ofOption _).bind fun boat => Blind.bind
          (.ite ((blind_removeCommand boat).bind fun _ => blind_vTaskDelay _) (blind_ret ()))
          fun _ => ih

theorem blind_gameRestartCase : Blind E gameRestartCase :=
  have restart : Blind E (Prog.modify engineRestart : GameTask Unit) :=
    h.write (fun x => { x with smartAiState := aiResetSmart, aiGuessBoard := initBoard true }) []
      fun _ => rfl
  restart.bind fun _ => (blind_removeLoop h _).bind fun _ => blind_setState h _

theorem blind_gameOverCase : Blind E gameOverCase :=
  (blind_vTaskDelay _).bind fun _ => blind_setState h _

theorem Sharing.withGame (f : Shared → Option (α × Shared)) {g : Game → Option (α × Game)}
    (eq : ∀ m : Mem, (g m.game).map (fun e => (e.1, { m with game := e.2 })) =
      (f m.shared).map (fun e => (e.1, m.share e.2))) :
    Blind E (Prog.tryModify (withGame g) : GameTask α) := by
  refine blind_tryModify fun m₁ m₂ related => ?_
  have created := h.created m₁ m₂ related
  unfold Battleship.withGame
  by_cases open₁ : m₁.currentGame = true
  · rw [if_pos open₁, if_pos (created.symm.trans open₁), eq, eq, h.same m₁ m₂ related]
    cases f m₂.shared with
    | none => exact .none
    | some e => exact .some ⟨rfl, h.put m₁ m₂ e.2 related⟩
  · rw [if_neg open₁, if_neg fun open₂ => open₁ (created.trans open₂)]
    exact .none

theorem blind_countBoat : Blind E countBoat :=
  h.write (fun x => { x with player := x.player.counted }) [] fun _ => rfl

theorem blind_finishPlaceShip (ship : ShipRequest) (slot : Nat) : Blind E (finishPlaceShip ship slot) :=
  (blind_ofOption _).bind fun _ => (blind_ioEnqueueSend _).bind fun _ =>
    (blind_countBoat h).bind fun _ => blind_vTaskDelay _

theorem blind_finishSetupShip (ship : ShipRequest) (slot : Nat) : Blind E (finishSetupShip ship slot) :=
  Blind.bind (.ite ((blind_ofOption _).bind fun _ => blind_ioEnqueueSend _) (blind_ioEnqueueSend _))
    fun _ => (blind_vTaskDelay _).bind fun _ => blind_countBoat h

theorem blind_placeRequest (ship : ShipRequest) :
    Blind E (Prog.tryModify (withGame (placeRequest ship)) : GameTask (Option Nat)) := by
  refine h.withGame (fun x => (x.player.seat ship).map (fun seated =>
    seated.elim (none, x) fun p => (some x.player.boatCount, { x with player := p }))) fun m => ?_
  change Option.map _ ((m.game.player.seat ship).bind _) = Option.map _ (Option.map _
    (m.game.player.seat ship))
  cases m.game.player.seat ship with
  | none => rfl
  | some seated => cases seated <;> rfl

theorem blind_placeLoop {decode : Json → Option ShipRequest}
    {finish : ShipRequest → Nat → GameTask Unit} (hf : ∀ ship slot, Blind E (finish ship slot))
    (items : List Json) : Blind E (placeLoop decode finish items) := by
  induction items with
  | nil => exact blind_ret _
  | cons item rest ih =>
      refine (blind_ofOption _).bind fun ship => h.get (fun x =>
        if maxShips ≤ x.player.boatCount then .ret true
        else Prog.tryModify (withGame (placeRequest ship)) >>= fun seated =>
          seated.elim (.ret false) fun slot => finish ship slot >>= fun _ =>
            placeLoop decode finish rest) (fun m => ?_) fun m => .ite (blind_ret _)
        ((blind_placeRequest h ship).bind fun slot => ?_)
      · refine congrArg (ite _ _) (congrArg _ ?_)
        funext seated
        cases seated with
        | none => rfl
        | some slot => rfl
      · cases slot with
        | none => exact blind_ret _
        | some slot => exact (hf ship slot).bind fun _ => ih

theorem blind_resetBoatCount : Blind E resetBoatCount :=
  h.withGame (fun x => some ((), { x with player := x.player.uncounted })) fun _ => rfl

theorem blind_finished (placed : Bool) (bad : Response) : Blind E
    (if placed then (do setReady; return .ok) else return bad : GameTask Response) :=
  have ready : Blind E setReady := h.write (fun x => { x with gameReady := true }) [] fun _ => rfl
  .ite (ready.bind fun _ => blind_ret _) (blind_ret _)

theorem blind_setDifficulty (d : Difficulty) : Blind E
    (Prog.tryModify (withGame (fun g => some ((), { g with difficulty := d }))) : GameTask Unit) := by
  refine blind_tryModify fun m₁ m₂ related => ?_
  have created := h.created m₁ m₂ related
  unfold Battleship.withGame
  by_cases open₁ : m₁.currentGame = true
  · rw [if_pos open₁, if_pos (created.symm.trans open₁)]
    exact .some ⟨rfl, h.level m₁ m₂ d related⟩
  · rw [if_neg open₁, if_neg fun open₂ => open₁ (created.trans open₂)]
    exact .none

/-- A web command is written whatever the memories hide. -/
theorem blind_command (v : GameState) : Blind E
    (Prog.write (fun m => m.setState v) [.command v] : GameTask Unit) :=
  blind_write _ fun m₁ m₂ => h.enter m₁ m₂ v

theorem blind_postSetDifficultyHandler (body : Body) : Blind E (postSetDifficultyHandler body) := by
  cases body with
  | closed => exact blind_ret _
  | invalid => exact blind_ret _
  | json j =>
      simp only [postSetDifficultyHandler]
      split
      · exact blind_ret _
      · exact .ite ((blind_setDifficulty h _).bind fun _ => blind_ret _) (blind_ret _)

theorem blind_postPlaceShipsHandler (body : Body) : Blind E (postPlaceShipsHandler body) := by
  cases body with
  | closed => exact blind_ret _
  | invalid => exact blind_ret _
  | json j =>
      simp only [postPlaceShipsHandler]
      split
      · exact blind_ret _
      · exact .ite ((blind_resetBoatCount h).bind fun _ =>
          (blind_placeLoop h (blind_finishPlaceShip h) _).bind fun placed =>
            blind_finished h placed _) (blind_ret _)

theorem blind_postSetupGameHandler (body : Body) : Blind E (postSetupGameHandler body) := by
  cases body with
  | closed => exact blind_ret _
  | invalid => exact blind_ret _
  | json j =>
      exact (blind_ofOption _).bind fun level => (blind_setDifficulty h _).bind fun _ =>
        .ite ((blind_command h _).bind fun _ => blind_ret _)
          ((blind_resetBoatCount h).bind fun _ =>
            (blind_placeLoop h (blind_finishSetupShip h) _).bind fun placed =>
              blind_finished h placed _)

end Sharing

end Battleship
