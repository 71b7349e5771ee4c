import Battleship.Effects
import Battleship.Phases
import Battleship.Requests

/-!
# Whose turn it is

`game->turn` and the two waiting states say the same. The task writes them side
by side, and the handlers never write the flag and never enter a waiting state;
only RANDOM_INIT enters one without looking at the flag.
-/
namespace Battleship
open Cooperative Runs

/-- The flag is the side that the waiting state waits for. -/
structure Mem.TurnAgrees (m : Mem) : Prop where
  player : m.game.state = .waitingForPlayer → m.game.turn = false
  opponent : m.game.state = .waitingForOpponent → m.game.turn = true

/-- An update tells the side that the waiting state waits for. -/
def WsFrame.Names (m : Mem) : WsFrame → Prop
  | .update _ _ _ side => (m.game.state = .waitingForPlayer → side = .player) ∧
      (m.game.state = .waitingForOpponent → side = .opponent)
  | .result _ => True

/-- The turn stays, and the state stays or becomes what a web command asks for. -/
structure Mem.Served (m m' : Mem) : Prop where
  turn : m'.game.turn = m.game.turn
  state : m'.game.state ∈ [m.game.state, .gameRestart, .randomInit]

theorem Mem.Served.refl (m : Mem) : m.Served m := ⟨rfl, List.mem_cons_self⟩

theorem Mem.Served.trans {m m' m'' : Mem} (h : m.Served m') (h' : m'.Served m'') : m.Served m'' := by
  refine ⟨h'.turn.trans h.turn, ?_⟩
  rcases List.mem_cons.mp h'.state with same | asked
  · rw [same]
    exact h.state
  · exact List.mem_cons_of_mem _ asked

theorem served_writes : ServerWrites (fun m r => m.Served r.1) where
  none _ := ⟨rfl, List.mem_cons_self⟩
  player _ _ := ⟨rfl, List.mem_cons_self⟩
  difficulty _ _ := ⟨rfl, List.mem_cons_self⟩
  ready _ := ⟨rfl, List.mem_cons_self⟩
  connected _ := ⟨rfl, List.mem_cons_self⟩
  command _ _ hc := ⟨rfl, List.mem_cons_of_mem _ hc⟩
  frame _ _ := ⟨rfl, List.mem_cons_self⟩

/-- The state is entered with its turn; a game waits for its fleet with the
player to move. -/
structure Mem.InTurn (m : Mem) : Prop where
  agrees : m.TurnAgrees
  waiting : m.game.state = .webInit → m.game.turn = false

theorem Mem.inTurn_of_state {m : Mem} (h : m.game.state ∈ [.init, .randomInit, .running, .gameOver,
    .gameRestart]) : m.InTurn := by
  simp only [List.mem_cons, List.not_mem_nil, or_false] at h
  refine ⟨⟨fun state => ?_, fun state => ?_⟩, fun state => ?_⟩ <;> simp [state] at h

theorem Mem.InTurn.served {m m' : Mem} (h : m.InTurn) (served : m.Served m') : m'.InTurn := by
  rcases List.mem_cons.mp served.state with same | asked
  · refine ⟨⟨fun state => ?_, fun state => ?_⟩, fun state => ?_⟩
    · rw [served.turn]
      exact h.agrees.player (same.symm.trans state)
    · rw [served.turn]
      exact h.agrees.opponent (same.symm.trans state)
    · rw [served.turn]
      exact h.waiting (same.symm.trans state)
  · apply inTurn_of_state
    rcases List.mem_pair.mp asked with same | same <;> simp [same]

def sideOf (turn : Bool) : Side := if turn then .opponent else .player

/-- Every update in the trace tells this side. -/
def Told (side : Side) (l : List (Out ⊕ Call)) : Prop :=
  ∀ isInit p o side', .inl (.frame (.update isInit p o side')) ∈ l → side' = side

/-- What holds at every call of an iteration: the state has its turn, and the
updates of the iteration have told it. -/
structure Sound (m : Mem) (l : List (Out ⊕ Call)) : Prop where
  inTurn : m.InTurn
  told : Told (sideOf m.game.turn) l

theorem Told.append {side : Side} {l l' : List (Out ⊕ Call)} (h : Told side l)
    (h' : Told side l') : Told side (l ++ l') := by
  intro isInit p o side' member
  rcases List.mem_append.mp member with old | new
  · exact h _ _ _ _ old
  · exact h' _ _ _ _ new

theorem told_nil (side : Side) : Told side [] := fun _ _ _ _ member => absurd member List.not_mem_nil

theorem told_call (side : Side) (c : Call) : Told side [.inr c] := by
  intro isInit p o side' member
  simp at member

theorem Sound.names {m : Mem} {l : List (Out ⊕ Call)} (h : Sound m l) {f : WsFrame}
    (sent : .inl (.frame f) ∈ l) : f.Names m := by
  cases f with
  | result winner => trivial
  | update isInit p o side =>
      have side_eq := h.told _ _ _ _ sent
      refine ⟨fun state => ?_, fun state => ?_⟩
      · rw [side_eq, h.inTurn.agrees.player state]
        rfl
      · rw [side_eq, h.inTurn.agrees.opponent state]
        rfl

/-- The update built from a memory in turn names its side. -/
theorem Mem.InTurn.names_update {m : Mem} (h : m.InTurn) {ans : ∀ c : Call, c.Ans} {isInit : Bool}
    {f : WsFrame} (sent : .inl (.frame f) ∈ Prog.trace ans (sendWsGameUpdate isInit) m) :
    f.Names m := by
  cases connected : m.wsConnected with
  | false => simp [sendWsGameUpdate, connected] at sent
  | true =>
      simp only [sendWsGameUpdate, connected, if_true, Prog.trace_bind, Prog.trace_get,
        Prog.exec_get, Prog.traceAfter_done, Prog.trace_emit, List.nil_append, List.mem_singleton,
        Sum.inl.injEq, Out.frame.injEq] at sent
      rw [sent]
      refine ⟨fun state => ?_, fun state => ?_⟩
      · rw [h.agrees.player state]
        rfl
      · rw [h.agrees.opponent state]
        rfl

abbrev turnEnv : Prog.Env Mem Call Call.Ans := fun _ m _ m' => m.Served m'

abbrev turnGuar : Prog.Guar Mem Out Call := fun _ m l => Sound m l

/-- Neither the state nor the turn changes, and no update is sent. -/
structure Quiet (m : Mem) (r : Mem × List Out) : Prop where
  state : r.1.game.state = m.game.state
  turn : r.1.game.turn = m.game.turn
  silent : ∀ side, Told side (r.2.map .inl)

theorem quiet_nil {m m' : Mem} (state : m'.game.state = m.game.state)
    (turn : m'.game.turn = m.game.turn) : Quiet m (m', []) := ⟨state, turn, told_nil⟩

theorem quiet_engine : EngineWrites Quiet where
  none _ := quiet_nil rfl rfl
  engine _ _ _ _ := quiet_nil rfl rfl
  leds _ _ := quiet_nil rfl rfl

theorem quiet_play : PlayWrites Quiet where
  toEngineWrites := quiet_engine
  side _ side _ := by cases side <;> exact quiet_nil rfl rfl

theorem quiet_emit {o : Out} (other : ∀ isInit p opp side, o ≠ .frame (.update isInit p opp side)) :
    Prog.Always Quiet (Prog.emit o : GameTask Unit) := by
  refine Prog.always_write fun m => ⟨rfl, rfl, fun side isInit p opp side' member => ?_⟩
  have eq : Out.frame (.update isInit p opp side') = o := by simpa using member
  exact absurd eq.symm (other isInit p opp side')

theorem applyGuess_quiet (target : Side) (row col : Int) :
    Prog.Always Quiet (applyGuess target row col) := by
  apply Prog.Always.bind (quiet_emit (by simp))
  intro _
  apply Prog.Always.bind
  · apply Prog.always_tryModify quiet_play.none
    intro m r eq
    simp only [Option.bind_eq_bind, Option.bind_eq_some_iff, Option.pure_def,
      Option.some.injEq] at eq
    obtain ⟨_, _, rfl⟩ := eq
    exact quiet_play.side m target _
  rintro ⟨result, sunk⟩
  apply Prog.Always.bind (showSunk_always quiet_engine target sunk)
  exact fun _ => .bind (quiet_emit (by simp)) fun _ => trivial

/-- A condition on the memory and the trace that quiet actions and the other
tasks keep, and that makes the iteration sound. -/
structure Kept (J : Mem → List (Out ⊕ Call) → Prop) : Prop where
  quiet : ∀ {m r l}, Quiet m r → J m l → J r.1 (l ++ r.2.map .inl)
  sound : ∀ {m l}, J m l → Sound m l
  served : ∀ {m m' l} c, m.Served m' → J m l → J m' (l ++ [.inr c])

theorem Kept.wlp {J : Mem → List (Out ⊕ Call) → Prop} (kept : Kept J) {t : GameTask α}
    (always : Prog.Always Quiet t) {m : Mem} {l : List (Out ⊕ Call)} (start : J m l) :
    Prog.wlp turnEnv turnGuar t (fun _ m' l' => J m' l') m l :=
  always.wlp (J := J) (fun _ _ _ => kept.quiet) (fun _ _ _ => kept.sound)
    (fun c _ _ _ _ before served => kept.served c served before) start

/-- Sound with this turn. -/
def SoundAt (turn : Bool) (m : Mem) (l : List (Out ⊕ Call)) : Prop :=
  m.game.turn = turn ∧ Sound m l

/-- Nothing has been told yet. -/
def Untold (m : Mem) (l : List (Out ⊕ Call)) : Prop := m.InTurn ∧ ∀ side, Told side l

theorem Mem.InTurn.quiet {m : Mem} {r : Mem × List Out} (h : m.InTurn) (quiet : Quiet m r) :
    r.1.InTurn := h.served ⟨quiet.turn, by simp [quiet.state]⟩

theorem untold_kept : Kept Untold where
  quiet quiet before :=
    ⟨before.1.quiet quiet, fun side => (before.2 side).append (quiet.silent side)⟩
  sound before := ⟨before.1, before.2 _⟩
  served c served before :=
    ⟨before.1.served served, fun side => (before.2 side).append (told_call side c)⟩

theorem soundAt_kept (turn : Bool) : Kept (SoundAt turn) where
  quiet quiet before := by
    refine ⟨quiet.turn.trans before.1, before.2.inTurn.quiet quiet, ?_⟩
    rw [quiet.turn]
    exact before.2.told.append (quiet.silent _)
  sound before := before.2
  served c served before := by
    refine ⟨served.turn.trans before.1, before.2.inTurn.served served, ?_⟩
    rw [served.turn]
    exact before.2.told.append (told_call _ c)

theorem SoundAt.setState {turn : Bool} {m : Mem} {l : List (Out ⊕ Call)} (h : SoundAt turn m l)
    {v : GameState} (player : v = .waitingForPlayer ∨ v = .webInit → turn = false)
    (opponent : v = .waitingForOpponent → turn = true) : SoundAt turn (m.setState v) l := by
  refine ⟨h.1, ⟨⟨fun state => ?_, fun state => ?_⟩, fun state => ?_⟩, h.2.told⟩
  · exact h.1.trans (player (.inl state))
  · exact h.1.trans (opponent state)
  · exact h.1.trans (player (.inr state))

section Programs
variable {m : Mem} {l : List (Out ⊕ Call)}

theorem wlp_sendWsGameUpdate {turn : Bool} (isInit : Bool) (h : SoundAt turn m l) :
    Prog.wlp turnEnv turnGuar (sendWsGameUpdate isInit) (fun _ => SoundAt turn) m l := by
  rw [sendWsGameUpdate, Prog.wlp_bind, Prog.wlp_get]
  refine Prog.wlp_ite (fun _ => ?_) fun _ => h
  rw [Prog.wlp_emit]
  refine ⟨h.1, h.2.inTurn, h.2.told.append ?_⟩
  intro isInit' p o side member
  simp only [List.mem_singleton, Sum.inl.injEq, Out.frame.injEq, WsFrame.update.injEq] at member
  exact member.2.2.2

theorem sendWsResult_quiet (winner : Side) : Prog.Always Quiet (sendWsResult winner) := by
  apply Prog.Always.bind (quiet_emit (by simp))
  intro _
  apply Prog.Always.bind (Prog.always_get quiet_play.none)
  exact fun m => .ite (quiet_emit (by simp)) trivial

theorem wlp_placeRandomLoop {turn : Bool} (side : Side) (lengths : List Int)
    (h : SoundAt turn m l) :
    Prog.wlp turnEnv turnGuar (placeRandomLoop side lengths) (fun _ => SoundAt turn) m l := by
  induction lengths generalizing m l with
  | nil => exact h
  | cons length rest ih =>
      rw [placeRandomLoop, Prog.wlp_bind]
      apply Prog.wlp_mono _ ((soundAt_kept turn).wlp _ h)
      · intro found m₁ l₁ placed
        cases found with
        | none => exact ih placed
        | some d =>
            rw [Prog.wlp_bind]
            refine Prog.wlp_mono (fun _ _ _ counted => ih counted) ?_
            rw [finishRandomShip, Prog.wlp_bind, Prog.wlp_get]
            refine Prog.wlp_ite (fun _ => ?_) fun _ =>
              (soundAt_kept turn).wlp (countRandomShip_always quiet_play side) placed
            rw [Prog.wlp_bind]
            refine Prog.wlp_mono (fun _ _ _ sent => ?_)
              ((soundAt_kept turn).wlp (placeCommand_always _ _ _) placed)
            rw [Prog.wlp_bind]
            refine Prog.wlp_mono (fun _ _ _ told => ?_) (wlp_sendWsGameUpdate false sent)
            refine (soundAt_kept turn).wlp (.bind (Prog.always_sys _) fun _ => ?_) told
            exact countRandomShip_always quiet_play side
      · apply Prog.always_tryModify quiet_play.none
        intro m r eq
        simp only [Option.bind_eq_bind, Option.bind_eq_some_iff, Option.pure_def,
          Option.some.injEq] at eq
        obtain ⟨_, _, rfl⟩ := eq
        cases side <;> exact quiet_nil rfl rfl

theorem wlp_placeRandomShips {turn : Bool} (side : Side) (lengths : List Int)
    (h : SoundAt turn m l) :
    Prog.wlp turnEnv turnGuar (placeRandomShips side lengths) (fun _ => SoundAt turn) m l := by
  rw [placeRandomShips, Prog.wlp_bind]
  refine Prog.wlp_mono (fun _ _ _ uncounted => wlp_placeRandomLoop side lengths uncounted)
    ((soundAt_kept turn).wlp ?_ h)
  exact Prog.always_write fun m => quiet_play.side m side _

theorem Untold.setTurn (h : Untold m l) (turn : Bool) {v : GameState}
    (player : v = .waitingForPlayer ∨ v = .webInit → turn = false)
    (opponent : v = .waitingForOpponent → turn = true) :
    SoundAt turn { m with game := { m.game with turn := turn, state := v } } l :=
  ⟨rfl, ⟨⟨fun state => player (.inl state), opponent⟩, fun state => player (.inr state)⟩, h.2 _⟩

theorem wlp_playerMoved (result : GuessResult) (h : Untold m l) :
    Prog.wlp turnEnv turnGuar (playerMoved result) (fun _ => SoundAt true) m l := by
  rw [playerMoved, Prog.wlp_bind]
  refine Prog.wlp_mono (fun _ m₁ l₁ told => ?_) (untold_kept.wlp (ioEnqueueSend_always _) h)
  refine wlp_moveEnds (untold_kept.wlp (renderBoards_always quiet_engine) told)
    (fun m l drawn => ?_) fun m l drawn => ?_
  · exact (soundAt_kept true).wlp (sendWsResult_quiet .player)
      (drawn.setTurn true (by simp) (by simp))
  · exact wlp_sendWsGameUpdate false (drawn.setTurn true (by simp) (by simp))

theorem wlp_opponentMoved (h : Untold m l) :
    Prog.wlp turnEnv turnGuar opponentMoved (fun _ => SoundAt false) m l := by
  refine wlp_moveEnds (untold_kept.wlp (renderBoards_always quiet_engine) h)
    (fun m l drawn => ?_) fun m l drawn => ?_
  · refine (soundAt_kept false).wlp (.bind (sendLedMatrixUpdate_always quiet_engine _) fun _ => ?_)
      (drawn.setTurn false (by simp) (by simp))
    exact sendWsResult_quiet .opponent
  · exact wlp_sendWsGameUpdate false (drawn.setTurn false (by simp) (by simp))

theorem wlp_guessAnswered {t : GuessResult → GameTask Unit} {turn : Bool}
    (moved : ∀ result m l, Untold m l →
      Prog.wlp turnEnv turnGuar (t result) (fun _ => SoundAt turn) m l)
    (result : GuessResult) (h : Untold m l) : Prog.wlp turnEnv turnGuar
      (if result = .rejected then .ret () else t result) (fun _ => Sound) m l :=
  Prog.wlp_ite (fun _ => untold_kept.sound h)
    fun _ => Prog.wlp_mono (fun _ _ _ sound => sound.2) (moved result m l h)

theorem wlp_waitingForPlayerCase (h : Untold m l) :
    Prog.wlp turnEnv turnGuar waitingForPlayerCase (fun _ => Sound) m l := by
  rw [waitingForPlayerCase, Prog.wlp_bind, Prog.wlp_sys]
  refine ⟨untold_kept.sound h, fun msg m' served => ?_⟩
  have later := untold_kept.served .queueReceive served h
  cases msg with
  | none => exact untold_kept.sound later
  | some msg =>
      refine Prog.wlp_ite (fun _ => ?_) fun _ => untold_kept.sound later
      rw [Prog.wlp_bind]
      exact Prog.wlp_mono (fun result _ _ => wlp_guessAnswered
        (fun result _ _ => wlp_playerMoved result) result)
        (untold_kept.wlp (applyGuess_quiet _ _ _) later)

theorem wlp_waitingForOpponentCase (lim : Limits) (h : Untold m l) :
    Prog.wlp turnEnv turnGuar (waitingForOpponentCase lim) (fun _ => Sound) m l := by
  rw [waitingForOpponentCase, Prog.wlp_bind]
  refine Prog.wlp_mono (fun _ m₁ l₁ waited => ?_) (untold_kept.wlp (Prog.always_sys _) h)
  rw [opponentMove, Prog.wlp_bind]
  refine Prog.wlp_mono (fun coord m₂ l₂ aimed => ?_)
    (untold_kept.wlp (opponentGuess_always quiet_engine lim) waited)
  rw [Prog.wlp_bind]
  refine Prog.wlp_mono (fun result m₃ l₃ struck => ?_)
    (untold_kept.wlp (applyGuess_quiet _ _ _) aimed)
  rw [Prog.wlp_bind]
  exact Prog.wlp_mono (fun _ _ _ => wlp_guessAnswered
    (fun _ _ _ => wlp_opponentMoved) result)
    (untold_kept.wlp (updateSmartAi_always quiet_engine lim coord result) struck)

/-- An iteration from a state with its turn, when RANDOM_INIT finds the player
to move. -/
theorem wlp_gameSwitch (lim : Limits) (h : m.InTurn)
    (ok : m.game.state = .randomInit → m.game.turn = false) :
    Prog.wlp turnEnv turnGuar (gameSwitch lim m.game.state) (fun _ => Sound) m [] := by
  have untold : Untold m [] := ⟨h, told_nil⟩
  have sound : ∀ {turn}, m.game.turn = turn → SoundAt turn m [] :=
    fun eq => ⟨eq, h, told_nil _⟩
  cases state : m.game.state with
  | init =>
      rw [gameSwitch, initCase, Prog.wlp_bind, gameInit, Prog.wlp_bind, Prog.wlp_modify]
      refine Prog.wlp_mono (fun _ m' l' cleared => ?_) ((soundAt_kept false).wlp
        (.bind (sendLedMatrixUpdate_always quiet_engine 3) fun _ => Prog.always_sys _)
        ⟨rfl, Mem.inTurn_of_state (by simp [clearedGame]), told_nil _⟩)
      rw [setState, Prog.wlp_modify]
      exact (cleared.setState (by simp) (by simp)).2
  | webInit =>
      rw [gameSwitch, webInitCase, Prog.wlp_bind, Prog.wlp_get]
      refine Prog.wlp_ite (fun _ => ?_) fun _ => ⟨h, told_nil _⟩
      rw [Prog.wlp_bind, setState, Prog.wlp_modify, Prog.wlp_bind]
      have started := (sound (h.waiting state)).setState (v := .waitingForPlayer) (by simp) (by simp)
      refine Prog.wlp_mono (fun _ m' l' drawn => ?_)
        ((soundAt_kept false).wlp (renderBoard_always quiet_engine _ _ _) started)
      exact Prog.wlp_mono (fun _ _ _ placed => placed.2) (wlp_placeRandomShips _ _ drawn)
  | randomInit =>
      rw [gameSwitch, randomInitCase, Prog.wlp_bind, setupGameRandomly, Prog.wlp_bind]
      refine Prog.wlp_mono (fun _ m₁ l₁ player => ?_)
        (wlp_placeRandomShips _ _ (sound (ok state)))
      rw [Prog.wlp_bind]
      refine Prog.wlp_mono (fun _ m₂ l₂ opponent => ?_) (wlp_placeRandomShips _ _ player)
      refine Prog.wlp_mono (fun _ m₃ l₃ drawn => ?_) ((soundAt_kept false).wlp
        (.bind (renderBoard_always quiet_engine _ _ _) fun _ => Prog.always_sys _) opponent)
      rw [setState, Prog.wlp_modify]
      exact (drawn.setState (by simp) (by simp)).2
  | running => exact untold_kept.sound untold
  | waitingForOpponent => exact wlp_waitingForOpponentCase lim untold
  | waitingForPlayer => exact wlp_waitingForPlayerCase untold
  | gameOver =>
      rw [gameSwitch, gameOverCase, Prog.wlp_bind]
      refine Prog.wlp_mono (fun _ m' l' waited => ?_)
        ((soundAt_kept _).wlp (Prog.always_sys _) (sound rfl))
      rw [setState, Prog.wlp_modify]
      exact (waited.setState (by simp) (by simp)).2
  | gameRestart =>
      rw [gameSwitch, gameRestartCase, Prog.wlp_bind, Prog.wlp_modify, Prog.wlp_bind]
      refine Prog.wlp_mono (fun _ m' l' removed => ?_) ((soundAt_kept m.game.turn).wlp
        (removeLoop_always quiet_engine _) ⟨rfl, Mem.inTurn_of_state ?_, told_nil _⟩)
      · rw [setState, Prog.wlp_modify]
        exact (removed.setState (by simp) (by simp)).2
      · rw [engineRestart, state]
        simp

/-- The iteration goes on soundly to its end. -/
theorem wlp_iteration (lim : Limits) (h : m.InTurn)
    (ok : m.game.state = .randomInit → m.game.turn = false) :
    Prog.wlp turnEnv turnGuar (gameSwitch lim m.game.state)
      (fun _ m' l' => Prog.wlp turnEnv turnGuar loopTail (fun _ => Sound) m' l') m [] := by
  refine Prog.wlp_mono (fun _ m' l' sound => ?_) (wlp_gameSwitch lim h ok)
  exact Prog.wlp_mono (fun _ _ _ ended => ended.2)
    ((soundAt_kept m'.game.turn).wlp (loopTail_always quiet_engine) ⟨rfl, sound⟩)

end Programs

namespace Firmware
variable {lim : Limits} {s s' : Firmware}

/-- RANDOM_INIT is dispatched with the player to move. -/
def TurnsMeet (s : Firmware) (a : Act) : Prop :=
  a = .game → s.AtHead → s.mem.game.state = .randomInit → s.mem.game.turn = false

structure TurnSafe (s : Firmware) : Prop where
  httpd : ∀ t, s.httpd = some t → Prog.Always (fun m r => m.Served r.1) t
  holds : ∃ l, s.Holds turnEnv turnGuar (fun m l => Sound m l) l

theorem Start.turnSafe (h : Start lim s) : s.TurnSafe := by
  refine ⟨by simp [h.httpd], [], ?_, ?_⟩
  · rw [h.game]
    simp [Settled]
  · rw [h.game]
    exact ⟨Mem.inTurn_of_state (by simp [h.state]), told_nil _⟩

/-- A step of the game task keeps it, and what it sends is in the trace. -/
theorem TurnSafe.game_step (h : s.TurnSafe) (ok : s.TurnsMeet .game)
    (hstep : s.stepGame lim = some s') : ∃ l new,
      s'.Holds turnEnv turnGuar (fun m l => Sound m l) l ∧ s'.log = s.log ++ new ∧
        ∀ f, .frame f ∈ new → .inl (.frame f) ∈ l := by
  obtain ⟨l, holds⟩ := h.holds
  rcases holds.stepGame hstep (fun _ _ _ _ => Mem.Served.refl _) with
    ⟨head, rfl⟩ | ⟨c, new, -, holds', log⟩
  · have sound : Sound s.mem l := by
      have left := holds.left
      rw [head] at left
      exact left
    obtain ⟨new, holds', log⟩ :=
      dispatch_holds (wlp_iteration lim sound.inTurn (ok rfl head))
    exact ⟨new.map .inl, .dispatch s.mem.game.state :: new, holds', log, by simp⟩
  · refine ⟨l ++ .inr c :: new.map .inl, new, holds', log, fun f sent => ?_⟩
    simp [sent]

theorem TurnSafe.of_keepsGame (h : s.TurnSafe) (k : KeepsGame s s') : s'.TurnSafe := by
  obtain ⟨l, holds⟩ := h.holds
  refine ⟨k.httpd ▸ h.httpd, l, holds.moved k.game ?_ ?_ ?_⟩
  · rw [k.mem]
    exact fun _ guarded => guarded
  · rw [k.mem]
    exact id
  · rw [k.mem]
    exact fun _ _ _ moved => moved

/-- The handlers do nothing that a waiting task would notice. -/
theorem TurnSafe.served (h : s.TurnSafe) (game : s'.game = s.game) (served : s.mem.Served s'.mem)
    (httpd : ∀ t, s'.httpd = some t → Prog.Always (fun m r => m.Served r.1) t) : s'.TurnSafe := by
  obtain ⟨l, holds⟩ := h.holds
  have sound : Sound s.mem l → Sound s'.mem l := fun before =>
    ⟨before.inTurn.served served, served.turn ▸ before.told⟩
  exact ⟨httpd, l, holds.moved game (fun _ => sound) sound fun _ _ _ => served.trans⟩

theorem TurnSafe.httpd_step (h : s.TurnSafe) (hstep : s.stepHttpd = some s') : s'.TurnSafe := by
  unfold stepHttpd at hstep
  split at hstep
  · cases hstep
    exact h.served rfl (.refl _) (by simp)
  · rename_i f k running
    cases hstep
    obtain ⟨now, later⟩ := h.httpd _ running s.mem
    refine h.served rfl now fun t eq => ?_
    cases eq
    exact later
  · rename_i c k running
    obtain ⟨⟨a, s₁⟩, answered, rfl⟩ := Option.map_eq_some_iff.mp hstep
    have keeps := answerGame_keeps answered
    refine h.served keeps.game (keeps.mem ▸ .refl _) fun t eq => ?_
    cases eq
    exact h.httpd _ running a
  · cases hstep

theorem TurnSafe.step {a : Act} (h : s.TurnSafe) (ok : s.TurnsMeet a)
    (hstep : s.step lim a = some s') : s'.TurnSafe := by
  cases a with
  | game =>
      obtain ⟨l, new, holds, -, -⟩ := h.game_step ok hstep
      exact ⟨stepGame_httpd hstep ▸ h.httpd, l, holds⟩
  | httpd => exact h.httpd_step hstep
  | request r =>
      simp only [Firmware.step] at hstep
      split at hstep
      · cases hstep
        refine h.served rfl (.refl _) fun t eq => ?_
        cases eq
        exact handle_always served_writes r
      · cases hstep
  | _ => exact h.of_keepsGame (step_keepsGame hstep (by simp) (by simp) (by simp))

/-- Whatever the browser asks for and whenever, the buttons and the opponent:
as long as RANDOM_INIT is dispatched with the player to move, the turn flag is
the side that game_task waits for, at every call and at every loop boundary. An
update built there names that side, and so does every update game_task sends. -/
theorem turn_names_state (h : Reaches (Firmware.step lim) TurnsMeet (Start lim) s)
    (running : s.Running) :
    s.mem.TurnAgrees ∧
    (∀ ans isInit f, .inl (.frame f) ∈ Prog.trace ans (sendWsGameUpdate isInit) s.mem →
      f.Names s.mem) ∧
    ∀ s', s.TurnsMeet .game → s.step lim .game = some s' → s'.Running →
      ∃ new, s'.log = s.log ++ new ∧ ∀ f, .frame f ∈ new → f.Names s'.mem := by
  have safe : s.TurnSafe := h.invariant (fun _ => Start.turnSafe) fun _ _ _ => TurnSafe.step
  have inTurn : s.mem.InTurn := by
    obtain ⟨l, holds⟩ := safe.holds
    rcases holds.running running with ⟨-, sound⟩ | ⟨c, sound⟩
    · exact sound.inTurn
    · exact sound.inTurn
  refine ⟨inTurn.agrees, fun ans isInit f sent => ?_, fun s' ok hstep running' => ?_⟩
  · exact inTurn.names_update sent
  · obtain ⟨l, new, holds, log, traced⟩ := safe.game_step ok hstep
    refine ⟨new, log, fun f sent => ?_⟩
    rcases holds.running running' with ⟨-, sound⟩ | ⟨c, sound⟩
    · exact sound.names (traced f sent)
    · exact sound.names (traced f sent)

instance (s : Firmware) : ∀ a, Decidable (s.TurnsMeet a)
  | .game => decidable_of_iff (atHead s.game = true → s.mem.game.state = .randomInit →
      s.mem.game.turn = false) (by simp [TurnsMeet, atHead_iff])
  | .httpd => .isTrue nofun
  | .request _ => .isTrue nofun
  | .sender => .isTrue nofun
  | .receiver => .isTrue nofun
  | .frameArrives _ _ => .isTrue nofun
  | .sendFlag _ => .isTrue nofun

/-- The button in the far corner. -/
def cornerFrame : Frame := fun i => (typeBytes "BUTTON" ++ [0, 0, 0, 4]).getD i.val 0

/-- A browser connects, a random game is set up with the player to move, and the player
misses. -/
def randomTurnRun : List Act :=
  List.replicate 5 .game ++ [.request .wsConnect] ++ List.replicate 2 .httpd ++
    [.request randomSetup] ++ List.replicate 3 .httpd ++ List.replicate 12 .game ++
    [.frameArrives 2 cornerFrame] ++ List.replicate 6 .receiver ++ List.replicate 8 .game

theorem turn_names_state_random : ∃ s : Firmware, .dispatch .randomInit ∈ s.log ∧
    s.mem.game.state = .waitingForOpponent ∧ s.mem.TurnAgrees ∧
    ∀ f, .inl (.frame f) ∈ Prog.trace (answer none) (sendWsGameUpdate false) s.mem →
      f.Names s.mem := by
  have run : (runList (Firmware.step ⟨0, none⟩) (boot ⟨0, none⟩) randomTurnRun).any (fun s =>
      s.rest.pending.isSome ∧ .dispatch .randomInit ∈ s.log ∧
        s.mem.game.state = .waitingForOpponent) = true := by decide +kernel
  have meets : Meets (Firmware.step ⟨0, none⟩) TurnsMeet (boot ⟨0, none⟩) randomTurnRun := by
    decide +kernel
  obtain ⟨s, reached, check⟩ := exists_reaches_of_meets (boot_start _) meets run
  obtain ⟨waits, random, state⟩ := of_decide_eq_true check
  obtain ⟨agrees, names, -⟩ :=
    turn_names_state reached (.inr (Option.isSome_iff_exists.mp waits))
  exact ⟨s, random, state, agrees, names (answer none) false⟩

/-- A game is set up and the player misses; a random setup arrives before the
opponent's move. -/
def keptTurnRun : List Act :=
  List.replicate 5 .game ++ [.request (setupList [])] ++ List.replicate 4 .httpd ++
    List.replicate 3 .game ++ [.frameArrives 2 cornerFrame] ++ List.replicate 6 .receiver ++
    List.replicate 4 .game ++ [.request randomSetup] ++ List.replicate 3 .httpd ++
    List.replicate 7 .game

theorem turn_kept_reached : ∃ s, Reaches (Firmware.step ⟨0, none⟩) (fun _ _ => True)
    (Start ⟨0, none⟩) s ∧ s.AtHead ∧ ¬s.mem.TurnAgrees := by
  have run : (runList (Firmware.step ⟨0, none⟩) (boot ⟨0, none⟩) keptTurnRun).any
      (fun s => atHead s.game = true ∧ s.mem.game.state = .waitingForPlayer ∧
        s.mem.game.turn = true) = true := by decide +kernel
  obtain ⟨s, reached, shown⟩ := exists_reaches (boot_start _) run
  obtain ⟨head, state, turn⟩ := of_decide_eq_true shown
  refine ⟨s, reached, atHead_iff.mp head, fun agrees => ?_⟩
  cases turn.symm.trans (agrees.player state)

end Firmware
end Battleship
