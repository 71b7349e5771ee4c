import Battleship.Commands
import Battleship.Sharing
import Battleship.Veil

/-!
# Unhit ships of the opponent stay secret

Two runs with the same inputs, against opponents that show the same board after
every step, send the same messages.
-/
namespace Battleship
open Cooperative Prog

/-- The memory with another opponent and another random source. -/
def Mem.swap (m : Mem) (q : Player) (r : Rng) : Mem :=
  { m with game := { m.game with opponent := q }, rng := r }

/-- Memories that differ in what is hidden only, and in the random source
unless `even` holds. -/
inductive Alike (even : Prop) : Mem → Mem → Prop
  | swap {m : Mem} {q : Player} {r : Rng} : (even → r = m.rng) → Rivals m.game.opponent q →
      Alike even m (m.swap q r)

theorem alike_sharing (even : Prop) : Sharing (Alike even) where
  same := by
    rintro _ _ ⟨-, -⟩
    rfl
  created := by
    rintro _ _ ⟨-, -⟩
    rfl
  put := by
    rintro m _ x ⟨draws, rivals⟩
    exact .swap (m := m.share x) draws rivals
  enter := by
    rintro m _ v ⟨draws, rivals⟩
    exact .swap (m := m.setState v) draws rivals
  level := by
    rintro m _ d ⟨draws, rivals⟩
    exact .swap (m := m.setLevel d) draws rivals

section Tasks
variable {even : Prop} {α : Type}

theorem blind_sendWsGameUpdate (isInit : Bool) : Blind (Alike even) (sendWsGameUpdate isInit) := by
  refine .get ?_ fun m => .ite (blind_emit _) (blind_ret ())
  rintro m _ ⟨-, rivals⟩
  simp only [Mem.swap, rivals.json]
  rfl

theorem blind_sendWsResult (winner : Side) : Blind (Alike even) (sendWsResult winner) := by
  refine (blind_emit _).bind fun _ => .get ?_ fun m => .ite (blind_emit _) (blind_ret ())
  rintro _ _ ⟨-, -⟩
  rfl

/-- The opponent's board is drawn without its unhit ships. -/
theorem blind_renderOpponent : Blind (Alike even) (renderBoard .opponent opponentMatrix false) := by
  refine blind_write [] ?_
  rintro m _ ⟨draws, rivals⟩
  simp only [Mem.swap, Game.side, rivals.render]
  exact .swap draws rivals

theorem blind_renderBoards : Blind (Alike even) renderBoards :=
  (blind_renderPlayer (alike_sharing even)).bind fun _ => blind_renderOpponent

/-- Whether all ships are sunk does not depend on where the unhit ones are. -/
theorem blind_allSunk (side : Side) : Blind (Alike even) (allSunk side) := by
  refine .get ?_ fun m => blind_ofOption _
  rintro m _ ⟨-, rivals⟩
  cases side with
  | player => rfl
  | opponent => exact congrArg Prog.ofOption rivals.allShipsSunk.symm

theorem blind_playerMoved (result : GuessResult) : Blind (Alike even) (playerMoved result) :=
  have shares := alike_sharing even
  (blind_ioEnqueueSend _).bind fun _ => blind_renderBoards.bind fun _ =>
    (blind_setTurn shares _).bind fun _ => (blind_allSunk _).bind fun _ =>
      .ite ((blind_setState shares _).bind fun _ => blind_sendWsResult _)
        ((blind_setState shares _).bind fun _ => blind_sendWsGameUpdate _)

theorem blind_opponentMoved : Blind (Alike even) opponentMoved :=
  have shares := alike_sharing even
  blind_renderBoards.bind fun _ => (blind_setTurn shares _).bind fun _ =>
    (blind_allSunk _).bind fun _ => .ite
      ((blind_setState shares _).bind fun _ => (blind_sendLedMatrixUpdate shares 3).bind fun _ =>
        blind_sendWsResult _)
      ((blind_setState shares _).bind fun _ => blind_sendWsGameUpdate _)

/-- The opponent aims by the player's board and the draws. -/
theorem blind_opponentGuess (lim : Limits) : Blind (Alike True) (opponentGuess lim) := by
  refine blind_attempt ?_
  rintro m _ ⟨draws, rivals⟩
  obtain rfl := draws trivial
  simp only [Mem.swap]
  cases engineGetGuess lim.fuel m.game.difficulty m.aiGuessBoard m.smartAiState m.rng with
  | done r => exact .done ⟨rfl, .swap (m := { m with smartAiState := r.2.1, rng := r.2.2 })
      (fun _ => rfl) rivals⟩
  | undefined => exact .undefined
  | starved => exact .starved

theorem blind_opponentMove (lim : Limits) : Blind (Alike True) (opponentMove lim) :=
  have shares := alike_sharing True
  (blind_opponentGuess lim).bind fun _ => (blind_applyGuess shares _ _).bind fun _ =>
    (blind_updateSmartAi shares lim _ _).bind fun _ => .ite (blind_ret ()) blind_opponentMoved

/-- After `Game_Init` the opponents are the same. -/
theorem blind_initCase : Blind (Alike even) initCase := by
  have cleared : Rivals clearedGame.opponent clearedGame.opponent := ⟨rfl, rfl, .inl rfl⟩
  refine Blind.bind (.bind (blind_write [] ?_) fun _ =>
    (blind_sendLedMatrixUpdate (alike_sharing even) 3).bind fun _ => blind_vTaskDelay _) fun _ => blind_setState (alike_sharing even) _
  rintro m _ ⟨draws, -⟩
  exact .swap draws cleared

theorem blind_finishRandomShip (length : Int) (d : Draw) :
    Blind (Alike even) (finishRandomShip .player length d) := by
  have counted : Blind (Alike even) (countRandomShip .player) :=
    (alike_sharing even).write (fun x => { x with player := x.player.counted }) [] fun _ => rfl
  refine .get ?_ fun m => .ite (Blind.bind (.ite (blind_ioEnqueueSend _) (blind_ioEnqueueSend _))
    fun _ => (blind_sendWsGameUpdate _).bind fun _ => (blind_vTaskDelay _).bind fun _ => counted)
    counted
  rintro _ _ ⟨-, -⟩
  rfl

theorem blind_placeRandomLoop (lengths : List Int) :
    Blind (Alike True) (placeRandomLoop .player lengths) := by
  induction lengths with
  | nil => exact blind_ret ()
  | cons length rest ih =>
      refine (blind_tryModify ?_).bind fun found => ?_
      · rintro m _ ⟨draws, rivals⟩
        obtain rfl := draws trivial
        simp only [Mem.swap, Game.side]
        cases placeRandomShip m.game.player length m.rng with
        | none => exact .none
        | some r => exact .some ⟨rfl, .swap (m := { m.setSide .player r.2.1 with rng := r.2.2 })
            (fun _ => rfl) rivals⟩
      · cases found with
        | none => exact ih
        | some d => exact (blind_finishRandomShip length d).bind fun _ => ih

theorem blind_placePlayer (lengths : List Int) :
    Blind (Alike True) (placeRandomShips .player lengths) :=
  .bind ((alike_sharing True).write (fun x => { x with player := x.player.uncounted }) []
    fun _ => rfl) fun _ => blind_placeRandomLoop lengths

/-- Ships of the opponent are put down without a message. -/
theorem trace_placeOpponent (ans : ∀ c : Call, c.Ans) (lengths : List Int) {m : Mem}
    (opp : m.game.opponent.board.isOpp = true) :
    Prog.trace ans (placeRandomLoop .opponent lengths) m = [] := by
  induction lengths generalizing m with
  | nil => rfl
  | cons length rest ih =>
      cases round : placeRandomShip m.game.opponent length m.rng with
      | none => simp [placeRandomLoop, Game.side, round]
      | some r =>
          obtain ⟨found, p, rng⟩ := r
          have faces : p.board.isOpp = true := by
            rcases placeRandomShip_cases round with ⟨-, rfl⟩ | ⟨d, room, -, -, eq⟩
            · exact opp
            · have seated := congrArg (fun p : Player => p.board.isOpp) eq
              exact seated.trans opp
          let m₁ : Mem := { m.setSide .opponent p with rng := rng }
          cases found with
          | none =>
              have later := ih (m := m₁) faces
              simp only [placeRandomLoop, Prog.trace_bind, Prog.trace_tryModify,
                Prog.exec_tryModify, Game.side, round]
              exact later
          | some d =>
              have later := ih (m := m₁.setSide .opponent p.counted) faces
              have finished : Prog.exec ans (finishRandomShip .opponent length d) m₁ =
                  .done ((), m₁.setSide .opponent p.counted) := exec_finishRandomShip ans _ _ _ m₁
              have silent : Prog.trace ans (finishRandomShip .opponent length d) m₁ = [] := by
                rw [finishRandomShip, Prog.trace_bind, Prog.trace_get, Prog.exec_get,
                  Prog.traceAfter_done, List.nil_append]
                exact congrArg (Prog.trace ans · m₁) (if_neg (by simp [faces, m₁, Mem.setSide]))
              simp only [placeRandomLoop, Prog.trace_bind, Prog.trace_tryModify,
                Prog.exec_tryModify, Game.side, round]
              change Prog.trace ans (finishRandomShip .opponent length d >>= fun _ =>
                placeRandomLoop .opponent rest) m₁ = []
              rw [Prog.trace_bind, silent, finished, Prog.traceAfter_done, later]
              rfl

end Tasks

/-- The opponents show the same board and, where ships have been placed, are
again the same or fleets of the standard lengths. -/
structure ShownAlike (placing : Prop) (p q : Player) : Prop where
  shown : p.board.masked = q.board.masked
  whole : placing → p = q ∨ p.Whole ∧ q.Whole

/-- Blind, with the same draws in each segment, as long as the opponents show the
same board at each call. -/
abbrev Discreet {α : Type} (placing : Prop) (t : GameTask α) : Prop :=
  BlindUpTo (Alike True) (Alike False)
    (fun m₁ m₂ => ShownAlike placing m₁.game.opponent m₂.game.opponent) t

theorem Alike.forget {even : Prop} {m₁ m₂ : Mem} (h : Alike even m₁ m₂) : Alike False m₁ m₂ := by
  obtain ⟨-, rivals⟩ := h
  exact .swap False.elim rivals

/-- No action writes the opponent. -/
def SparesOpponent {α : Type} (t : GameTask α) : Prop :=
  Prog.Always (fun m r => r.1.game.opponent = m.game.opponent) t

section Discreet
variable {placing : Prop} {α β : Type}

theorem discreet_of_blind {even : Prop} {t : GameTask α} (h : Blind (Alike even) t)
    (weak : ∀ m₁ m₂, Alike True m₁ m₂ → Alike even m₁ m₂) : Discreet placing t :=
  h.upTo weak fun _ _ => Alike.forget

theorem Discreet.after {t : GameTask α} {g : α → GameTask β} (ht : Blind (Alike True) t)
    (hg : ∀ a, Discreet placing (g a)) : Discreet placing (t >>= g) :=
  BlindUpTo.after (fun _ _ => Alike.forget) ht hg

/-- What comes after reads the draws no more, and leaves the opponents alone. -/
theorem Discreet.bind {t : GameTask α} {g : α → GameTask β}
    (ht : ∀ m₁ m₂, Alike True m₁ m₂ → Parts (Alike False)
      (fun m₁ m₂ => ShownAlike placing m₁.game.opponent m₂.game.opponent)
      (t.settle m₁) (t.settle m₂))
    (hg : ∀ a, Blind (Alike False) (g a)) (spares : ∀ a, SparesOpponent (g a)) :
    Discreet placing (t >>= g) := by
  refine BlindUpTo.bind (fun _ _ => Alike.forget) ht hg fun a₁ a₂ m₁ m₂ alike => ?_
  rwa [(spares a₁).settle_field (fun m : Mem => m.game.opponent) m₁,
    (spares a₂).settle_field (fun m : Mem => m.game.opponent) m₂] at alike

theorem Discreet.of_parts {t : GameTask Unit}
    (ht : ∀ m₁ m₂, Alike True m₁ m₂ → Parts (Alike False)
      (fun m₁ m₂ => ShownAlike placing m₁.game.opponent m₂.game.opponent)
      (t.settle m₁) (t.settle m₂)) : Discreet placing t := by
  rw [← t.bind_ret]
  exact Discreet.bind ht blind_ret fun _ => trivial

/-- Placing the ships of the opponent makes no call. -/
theorem settle_placeOpponent {m : Mem} (opp : m.game.opponent.board.isOpp = true) :
    ∃ p rng, p.board.isOpp = true ∧ (placeRandomShips .opponent shipLengths).settle m =
      (.ret (), { m.setSide .opponent p with rng := rng }, []) := by
  obtain ⟨r, loop⟩ := @randomLoop_some shipLengths (by decide)
    m.game.opponent.uncounted (Nat.le_refl maxShips) m.rng
  obtain ⟨ships, seats, -⟩ := randomLoop_seats loop
  refine ⟨r.1, r.2, seats.isOpp.trans opp, ?_⟩
  apply @Prog.settle_of_exec _ _ _ _ _ (answer none)
  · have run := exec_placeRandomShips (answer none) .opponent shipLengths m
    rw [Game.side, loop] at run
    exact run
  · rw [placeRandomShips, Prog.trace_bind, Prog.trace_modify, Prog.exec_modify,
      Prog.traceAfter_done, List.nil_append]
    exact trace_placeOpponent (answer none) shipLengths opp

theorem parts_placeOpponent (m₁ m₂ : Mem) (alike : Alike True m₁ m₂) :
    Parts (Alike False) (fun m₁ m₂ => ShownAlike True m₁.game.opponent m₂.game.opponent)
      ((placeRandomShips .opponent shipLengths).settle m₁)
      ((placeRandomShips .opponent shipLengths).settle m₂) := by
  obtain ⟨draws, rivals⟩ := alike
  obtain ⟨p₁, rng₁, opp, ends₁⟩ := settle_placeOpponent rivals.isOpp
  obtain ⟨p₂, rng₂, -, ends₂⟩ := settle_placeOpponent (m := Mem.swap _ _ _) rivals.isOpp'
  rw [ends₁, ends₂]
  exact .ret fun alike => ⟨rfl, .swap (m := { Mem.setSide _ .opponent p₁ with rng := rng₁ })
    False.elim ⟨alike.shown, opp, alike.whole trivial⟩, rfl⟩

theorem trace_guessOpponent (ans : ∀ c : Call, c.Ans) {row col : Int} {m : Mem}
    {e : Player × GuessResult × Option Nat} (guess : guessCell m.game.opponent row col = some e)
    (opp : e.1.board.isOpp = true) : Prog.trace ans (applyGuess .opponent row col) m =
      [.inl (.guess .opponent row col), .inl (.guessed .opponent e.2.1)] := by
  have struck : strike .opponent row col m = some (e.2, m.setSide .opponent e.1) := by
    rw [strike, Game.side, guess]
    rfl
  have silent : Prog.trace ans (showSunk .opponent e.2.2) (m.setSide .opponent e.1) = [] := by
    cases e.2.2 with
    | none => rfl
    | some b =>
        rw [showSunk, trace_bind, trace_get, exec_get, traceAfter_done, List.nil_append]
        exact congrArg (Prog.trace ans · _)
          (if_neg (fun own : e.1.board.isOpp = false => Bool.false_ne_true (own.symm.trans opp)))
  have shown := exec_showSunk ans .opponent e.2.2 (fun b eq => guessCell_slot guess eq)
    (m.setSide .opponent e.1)
  rw [applyGuess_strike]
  simp only [trace_bind, trace_emit, exec_emit, trace_tryModify, exec_tryModify, struck,
    Outcome.ofOption_some, traceAfter_done, silent, shown]
  rfl

theorem settle_guessOpponent {row col : Int} {m : Mem} {e : Player × GuessResult × Option Nat}
    (guess : guessCell m.game.opponent row col = some e) (opp : e.1.board.isOpp = true) :
    (applyGuess .opponent row col).settle m = (.ret e.2.1, m.setSide .opponent e.1,
      [.guess .opponent row col, .guessed .opponent e.2.1]) := by
  refine Prog.settle_of_exec ?_ (trace_guessOpponent (answer none) guess opp)
  rw [exec_applyGuess, Game.side, guess]
  rfl

theorem settle_guess_undefined {row col : Int} {m : Mem}
    (guess : guessCell m.game.opponent row col = none) :
    (applyGuess .opponent row col).settle m = (.undefined, m, [.guess .opponent row col]) := by
  have struck : strike .opponent row col m = none := by
    rw [strike, Game.side, guess]
    rfl
  rw [applyGuess_strike]
  simp [Prog.emit, Prog.write, Prog.tryModify, Prog.attempt, Prog.settle, struck]

/-- A guess at the opponent answers what can be seen. -/
theorem parts_guessOpponent (row col : Int) (m₁ m₂ : Mem) (alike : Alike True m₁ m₂) :
    Parts (Alike False) (fun m₁ m₂ => ShownAlike placing m₁.game.opponent m₂.game.opponent)
      ((applyGuess .opponent row col).settle m₁) ((applyGuess .opponent row col).settle m₂) := by
  obtain ⟨draws, rivals⟩ := alike
  rcases rivals.guess_defined row col with ⟨none₁, none₂⟩ | ⟨e, f, guess₁, guess₂⟩
  · rw [settle_guess_undefined none₁, settle_guess_undefined (m := Mem.swap _ _ _) none₂]
    exact .undefined (.swap False.elim rivals)
  · have opp := (guessCell_boats guess₁).1.trans rivals.isOpp
    have opp' := (guessCell_boats guess₂).1.trans rivals.isOpp'
    rw [settle_guessOpponent guess₁ opp, settle_guessOpponent (m := Mem.swap _ _ _) guess₂ opp']
    refine .ret fun alike => ?_
    have whole : e.1 = f.1 ∨ e.1.Whole ∧ f.1.Whole := by
      rcases rivals.whole with rfl | ⟨whole, whole'⟩
      · cases guess₁.symm.trans guess₂
        exact .inl rfl
      · exact .inr ⟨whole.guess guess₁, whole'.guess guess₂⟩
    have same := rivals.guess guess₁ guess₂ alike.shown
    exact ⟨same, .swap (m := Mem.setSide _ .opponent e.1) False.elim ⟨alike.shown, opp, whole⟩,
      by rw [same]⟩

theorem spares_renderPlayer : SparesOpponent (renderBoard .player playerMatrix true) :=
  Prog.always_write fun _ => rfl

theorem spares_renderBoards : SparesOpponent renderBoards :=
  spares_renderPlayer.bind fun _ => Prog.always_write fun _ => rfl

theorem spares_setState (v : GameState) : SparesOpponent (setState v) :=
  Prog.always_write fun _ => rfl

theorem spares_emit (o : Out) : SparesOpponent (Prog.emit o) := Prog.always_write fun _ => rfl

theorem spares_get {g : Mem → GameTask α} (hg : ∀ m, SparesOpponent (g m)) :
    SparesOpponent (Prog.get >>= g) := .bind (Prog.always_get fun _ => rfl) hg

theorem spares_sendWsResult (winner : Side) : SparesOpponent (sendWsResult winner) :=
  (spares_emit _).bind fun _ => spares_get fun _ => .ite (spares_emit _) trivial

theorem spares_sendWsGameUpdate (isInit : Bool) : SparesOpponent (sendWsGameUpdate isInit) :=
  spares_get fun _ => .ite (spares_emit _) trivial

theorem spares_playerMoved (result : GuessResult) : SparesOpponent (playerMoved result) := by
  have turned : SparesOpponent (setTurn true) := Prog.always_write fun _ => rfl
  have tested : SparesOpponent (allSunk .opponent) := spares_get fun _ => Prog.always_ofOption _
  exact .bind (ioEnqueueSend_always _) fun _ => spares_renderBoards.bind fun _ =>
    turned.bind fun _ => tested.bind fun _ =>
      .ite ((spares_setState _).bind fun _ => spares_sendWsResult _)
        ((spares_setState _).bind fun _ => spares_sendWsGameUpdate _)

theorem spares_loopTail : SparesOpponent loopTail :=
  .bind (spares_get fun _ => ioEnqueueSend_always _) fun _ => Prog.always_sys _

theorem discreet_webInitCase : Discreet True webInitCase := by
  have placed : Discreet True (placeRandomShips .opponent shipLengths) :=
    Discreet.of_parts parts_placeOpponent
  refine .get ?_ fun m => .ite (Discreet.after (blind_setState (alike_sharing True) _) fun _ =>
    Discreet.after (blind_renderPlayer (alike_sharing True)) fun _ => placed)
    (discreet_of_blind (blind_ret ()) fun _ _ h => h)
  rintro _ _ ⟨-, -⟩
  rfl

theorem discreet_randomInitCase : Discreet True randomInitCase := by
  have shares := alike_sharing False
  rw [randomInitCase_eq]
  exact Discreet.after (blind_placePlayer _) fun _ => Discreet.bind parts_placeOpponent
    (fun _ => (blind_renderPlayer shares).bind fun _ => (blind_vTaskDelay _).bind fun _ =>
      blind_setState shares _)
    fun _ => spares_renderPlayer.bind fun _ => .bind (Prog.always_sys _) fun _ => spares_setState _

theorem discreet_waitingForPlayerCase : Discreet placing waitingForPlayerCase := by
  rw [waitingForPlayerCase_received]
  refine Discreet.after (blind_sys _) fun msg => ?_
  cases msg with
  | none => exact discreet_of_blind (blind_ret ()) fun _ _ h => h
  | some msg =>
      simp only [received]
      split
      · exact Discreet.bind (parts_guessOpponent _ _)
          (fun result => .ite (blind_ret ()) (blind_playerMoved result))
          fun result => .ite trivial (spares_playerMoved result)
      · exact discreet_of_blind (blind_ret ()) fun _ _ h => h

/-- The switch is discreet; ships of the opponent are placed in two of its cases. -/
theorem discreet_gameSwitch (lim : Limits) (v : GameState) :
    Discreet (v ∈ [GameState.webInit, .randomInit]) (gameSwitch lim v) := by
  have placing : ∀ v ∈ [GameState.webInit, .randomInit],
      (v ∈ [GameState.webInit, .randomInit]) = True := fun v hv => eq_true hv
  cases v with
  | init => exact discreet_of_blind blind_initCase fun _ _ h => h
  | webInit =>
      rw [placing _ (by simp)]
      exact discreet_webInitCase
  | randomInit =>
      rw [placing _ (by simp)]
      exact discreet_randomInitCase
  | running => exact discreet_of_blind (blind_ret ()) fun _ _ h => h
  | waitingForOpponent =>
      exact discreet_of_blind ((blind_vTaskDelay _).bind fun _ => blind_opponentMove lim)
        fun _ _ h => h
  | waitingForPlayer => exact discreet_waitingForPlayerCase
  | gameOver => exact discreet_of_blind (blind_gameOverCase (alike_sharing True)) fun _ _ h => h
  | gameRestart => exact discreet_of_blind (blind_gameRestartCase (alike_sharing True)) fun _ _ h => h

end Discreet

/-- Every handler answers and sends the same against either opponent. -/
theorem blind_handle (r : Request) : Blind (Alike False) (handle r) := by
  have shares := alike_sharing False
  cases r with
  | setDifficulty body => exact blind_postSetDifficultyHandler shares body
  | placeShips body => exact blind_postPlaceShipsHandler shares body
  | setupGame body => exact blind_postSetupGameHandler shares body
  | wsConnect =>
      have connect : Blind (Alike False)
          (Prog.modify (fun m : Mem => { m with wsConnected := true }) : GameTask Unit) := by
        refine blind_write [] ?_
        rintro m _ ⟨-, rivals⟩
        exact .swap (m := { m with wsConnected := true }) False.elim rivals
      exact connect.bind fun _ => blind_ret _
  | wsMessage text =>
      cases text with
      | init =>
          refine .get ?_ fun m => .ite ((blind_sendWsGameUpdate true).bind fun _ => blind_ret _)
            blind_undefined
          rintro _ _ ⟨-, -⟩
          rfl
      | restart =>
          refine .get ?_ fun m => .ite ((blind_command shares _).bind fun _ => blind_ret _)
            blind_undefined
          rintro _ _ ⟨-, -⟩
          rfl
      | other => exact blind_ret _

end Battleship
