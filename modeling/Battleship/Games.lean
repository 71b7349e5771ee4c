import Battleship.Consistency
import Battleship.Match
import Battleship.Progress
import Battleship.Prospect
import Battleship.Serial

/-!
# Game after game

The games between one `Game_Init` and the next, in runs that set up ships while
WEB_INIT waits for them. Each is a match: whoever has placed the ships and however
the tasks are interleaved, its plays are fair.
-/
namespace Battleship
open Cooperative Runs Salvo

def Board.Blank (b : Board) : Prop := ∀ c : Cell, b.cells c.1 c.2 = .empty

/-- WEB_INIT waits for ships, and none has been placed. -/
def Mem.Unset (m : Mem) : Prop := m.game.state = .webInit ∧ m.game.player.board.Blank

/-- Ships are placed on an empty board, none with a negative length, and the buttons
are those of the grid. -/
def FreshSetup (m : Mem) : Event → Prop
  | .request r =>
      (∀ w ∈ r.manual, m.Unset ∧ ∀ item ∈ w.ships, ∀ ship ∈ w.decode item, 0 ≤ ship.length) ∧
        (r.commanded = some .randomInit → m.Unset)
  | .iteration msg => ∀ x ∈ msg, x.OnGrid

instance (m : Mem) : Decidable m.Unset :=
  inferInstanceAs (Decidable (m.game.state = .webInit ∧
    ∀ c : Cell, m.game.player.board.cells c.1 c.2 = .empty))

instance (m : Mem) : ∀ e, Decidable (FreshSetup m e)
  | .request r => inferInstanceAs (Decidable ((∀ w ∈ r.manual, m.Unset ∧
      ∀ item ∈ w.ships, ∀ ship ∈ w.decode item, 0 ≤ ship.length) ∧
        (r.commanded = some .randomInit → m.Unset)))
  | .iteration msg => inferInstanceAs (Decidable (∀ x ∈ msg, x.OnGrid))

/-- The match after an event. -/
def Match.after (lim : Limits) (s : Match) (e : Event) (m : Mem) : Match where
  mem := m
  log := s.log ++ plays (seqTrace lim s.mem e)
  decisive := s.decisive ++ (accepted (plays (seqTrace lim s.mem e))).filter
    (fun side => (m.game.side side.other).board.NoShip)

/-- What was logged before the game that is on, and the game since `Game_Init`. -/
inductive Round (lim : Limits) : List Out → Match → Prop
  | opened {past : List Out} {m : Mem} : Played lim FreshSetup past m → m.game.state = .init →
      Round lim past ⟨m.created, [], []⟩
  | next {past : List Out} {s : Match} {m : Mem} {e : Event} : Round lim past s →
      (∀ msg, e = .iteration msg → s.mem.game.state ≠ .init) → FreshSetup s.mem e →
      seqStep lim s.mem e = some m → Round lim past (s.after lim e m)

/-- No boat has been hit and no water shot at. -/
def Player.Untouched (p : Player) : Prop := ∃ B, p.Represents B ∧ B.shots = ∅

/-- Nobody has made a guess. -/
structure Match.Laid (s : Match) : Prop where
  player : s.mem.game.player.Untouched
  opponent : s.mem.game.opponent.board.Blank
  guessBoard : s.mem.aiGuessBoard.Blank
  tracker : s.mem.smartAiState = aiResetSmart
  log : s.log = []
  decisive : s.decisive = []

/-- What holds of a game in the state it is in. -/
structure Match.InOrder (s : Match) : Prop where
  laid : s.mem.game.state ∈ [GameState.webInit, .randomInit] → s.Laid
  blank : s.mem.game.state = .randomInit → s.mem.game.player.board.Blank
  inPlay : s.mem.game.state ∈ [GameState.waitingForPlayer, .waitingForOpponent, .gameOver] →
    ∃ Bp Bo, s.InPlay Bp Bo

theorem Player.Untouched.fresh {p : Player} (h : p.Untouched) : p.Fresh := by
  obtain ⟨B, represents, unshot⟩ := h
  have unstruck : ∀ c, c ∉ B.shots := fun c => by simp [unshot]
  have owned : ∀ c, (∃ b : Fin maxShips, b.val < p.boatCount ∧ c ∈ (p.boats b).cells) ↔
      ∃ b, c ∈ B.ships b := by
    intro c
    refine exists_congr fun b => ⟨fun ⟨used, inside⟩ => ?_, fun inside => ?_⟩
    · rwa [represents.ships_of_lt used]
    · have used := represents.used inside
      rw [represents.ships_of_lt used] at inside
      exact ⟨used, inside⟩
  refine ⟨represents.count, represents.sound, fun b b' used used' other => ?_, fun b used => ?_,
    fun c ship => ?_, fun c water => ?_⟩
  · have apart := B.disjoint other
    simp only [represents.ships_of_lt used, represents.ships_of_lt used'] at apart
    exact apart
  · rw [represents.hits b used]
    simp [Battle.hits, unshot]
  · exact represents.ship_iff.mpr ⟨(owned c).mp ship, unstruck c⟩
  · exact represents.empty_iff.mpr
      ⟨fun b inside => water ((owned c).mpr ⟨b, inside⟩), unstruck c⟩

/-- On an empty board nothing has been shot at. -/
theorem Player.Coherent.untouched {p : Player} (h : p.Coherent) (blank : p.board.Blank) :
    p.Untouched := by
  obtain ⟨B, represents⟩ := h.battle
  refine ⟨B, represents, ?_⟩
  ext c
  simpa using (represents.empty_iff.mp (blank c)).2

theorem uncounted_untouched {p : Player} (blank : p.board.Blank) : p.uncounted.Untouched :=
  (uncounted_coherent fun c => .inl (blank c)).untouched blank

/-- Seating ships is no shot. -/
theorem Seats.untouched {p p' : Player} {ships : List ShipRequest} (h : Seats p ships p')
    (start : p.Untouched) (nonneg : ∀ ship ∈ ships, 0 ≤ ship.length) : p'.Untouched := by
  induction h with
  | nil p => exact start
  | @cons p p' ship ships room fits _ ih =>
      obtain ⟨B, represents, unshot⟩ := start
      obtain ⟨B', seated, same⟩ :=
        seated_represents room ship represents fits (nonneg ship List.mem_cons_self)
      exact ih ⟨B', seated, same.trans unshot⟩
        fun other member => nonneg other (List.mem_cons_of_mem ship member)

theorem Seats.untouched_random {p p' : Player} {ships : List ShipRequest}
    (h : Seats p.uncounted ships p') (blank : p.board.Blank)
    (lengths : (ships.map ShipRequest.length).Sublist shipLengths) : p'.Untouched := by
  refine h.untouched (uncounted_untouched blank) fun ship member => ?_
  have listed := lengths.subset (List.mem_map.mpr ⟨ship, member, rfl⟩)
  simp only [shipLengths, List.mem_cons, List.not_mem_nil, or_false] at listed
  omega

/-- A list without a negative length is one for `NonNegative`. -/
theorem nonNegative_of_all {decode : Json → Option ShipRequest} {items : List Json}
    (all : ∀ item ∈ items, ∀ ship ∈ decode item, 0 ≤ ship.length) (n : Nat) (b : Board) :
    NonNegative decode n b items := by
  induction items generalizing n b with
  | nil => cases n <;> trivial
  | cons item items ih =>
      cases n with
      | zero => trivial
      | succ n =>
          intro ship decoded _
          exact ⟨all item List.mem_cons_self ship decoded,
            ih (fun other member => all other (List.mem_cons_of_mem item member)) n _⟩

section Plays
variable {ans : ∀ c : Call, c.Ans}

abbrev Unplayed {α : Type} (t : GameTask α) : Prop := Prog.Always (Logs fun o => o.isPlay = false) t

theorem Unplayed.plays {α : Type} {t : GameTask α} (quiet : Unplayed t) (m : Mem) :
    plays (Prog.trace ans t m) = [] := by
  apply List.filterMap_eq_nil_iff.mpr
  rintro (o | c) member
  · simp [quiet.trace_log ans m o member]
  · rfl

theorem Out.IsFrame.unplayed {o : Out} (h : o.IsFrame) : o.isPlay = false := by
  cases o with
  | frame f => rfl
  | _ => exact h.elim

theorem steady_unplayed {α : Type} {t : GameTask α} (steady : Prog.Always Steady t) : Unplayed t :=
  steady.mono fun _ _ steady o member => (steady.2 o member).unplayed

theorem handle_unplayed (r : Request) : Unplayed (handle r) := by
  refine (handle_obeys r).mono fun m e obeys o member => ?_
  rcases obeys with ⟨-, frames⟩ | ⟨c, log, -⟩
  · exact (frames o member).unplayed
  · rw [log] at member
    cases List.mem_singleton.mp member
    rfl

theorem webInitCase_unplayed : Unplayed webInitCase := by
  apply Prog.Always.bind (Prog.always_get fun _ => logs_nil _ _)
  intro m
  refine .ite ?_ trivial
  apply Prog.Always.bind (Prog.always_write fun _ => logs_nil _ _)
  intro _
  apply Prog.Always.bind (steady_unplayed (renderBoard_steady _ _ _))
  exact fun _ => steady_unplayed (placeRandomShips_steady _ _)

theorem randomInitCase_unplayed : Unplayed randomInitCase := by
  rw [randomInitCase_eq]
  apply Prog.Always.bind (steady_unplayed (placeRandomShips_steady _ _))
  intro _
  apply Prog.Always.bind (steady_unplayed (placeRandomShips_steady _ _))
  intro _
  apply Prog.Always.bind (steady_unplayed (renderBoard_steady _ _ _))
  exact fun _ => .bind (Prog.always_sys _) fun _ => Prog.always_write fun _ => logs_nil _ _

end Plays

section Steps
variable {lim : Limits} {s : Match} {m : Mem}

/-- `Game_Init` leaves a game that is in order. -/
theorem created_inOrder (m : Mem) : Match.InOrder ⟨m.created, [], []⟩ where
  laid _ := ⟨(cleared_coherent false).untouched fun _ => rfl, fun _ => rfl, fun _ => rfl, rfl, rfl,
    rfl⟩
  blank state := by cases state
  inPlay state := by simp [Mem.created] at state

/-- Nothing is asked of a game that is not on. -/
theorem aside_inOrder (state : s.mem.game.state ∈ [GameState.init, .running, .gameRestart]) :
    s.InOrder := by
  simp only [List.mem_cons, List.not_mem_nil, or_false] at state
  rcases state with state | state | state
  · exact ⟨fun set => by simp [state] at set, fun set => by simp [state] at set,
      fun playing => by simp [state] at playing⟩
  · exact ⟨fun set => by simp [state] at set, fun set => by simp [state] at set,
      fun playing => by simp [state] at playing⟩
  · exact ⟨fun set => by simp [state] at set, fun set => by simp [state] at set,
      fun playing => by simp [state] at playing⟩

/-- An event without plays. -/
theorem after_unplayed {e : Event} (quiet : plays (seqTrace lim s.mem e) = []) :
    s.after lim e m = ⟨m, s.log, s.decisive⟩ := by
  simp [Match.after, quiet, accepted]

/-- The same match with another difficulty, or another browser. -/
theorem Match.InPlay.brush {Bp Bo : Battle (Fin maxShips) Cell} (h : s.InPlay Bp Bo)
    (d : Difficulty) (conn : Bool) : Match.InPlay
      ⟨{ s.mem with game := { s.mem.game with difficulty := d }, wsConnected := conn },
        s.log, s.decisive⟩ Bp Bo where
  player := h.player
  opponent := h.opponent
  couples := h.couples
  aimed := h.aimed
  alternates := h.alternates
  valid := h.valid
  opponentShots := h.opponentShots
  playerShots := h.playerShots
  phase := by
    cases h.phase with
    | player state even left decisive none => exact .player state even left decisive none
    | opponent state odd left decisive none => exact .opponent state odd left decisive none
    | finished state decisive results last => exact .finished state decisive results last

theorem Match.InPlay.inOrder {Bp Bo : Battle (Fin maxShips) Cell} (h : s.InPlay Bp Bo) :
    s.InOrder := by
  have playing : s.mem.game.state ∈
      [GameState.waitingForPlayer, .waitingForOpponent, .gameOver, .gameRestart] := by
    cases h.phase with
    | player state _ _ _ _ => simp [state]
    | opponent state _ _ _ _ => simp [state]
    | finished state _ _ _ => rcases state with state | state <;> simp [state]
  refine ⟨fun state => ?_, fun state => ?_, fun _ => ⟨Bp, Bo, h⟩⟩
  · simp only [List.mem_cons, List.not_mem_nil, or_false] at state
    rcases state with state | state <;> simp [state] at playing
  · simp [state] at playing

theorem after_request (r : Request) : s.after lim (.request r) m = ⟨m, s.log, s.decisive⟩ :=
  after_unplayed ((handle_unplayed r).plays s.mem)

/-- A request that places no list brushes the game, or asks for another state. -/
theorem other_inOrder (h : s.InOrder) {r : Request} (ok : FreshSetup s.mem (.request r))
    (other : r.manual = none) {e : Response × Mem} (done : respond r s.mem = .done e) :
    Match.InOrder ⟨e.2, s.log, s.decisive⟩ := by
  have state := handle_state done
  obtain ⟨⟨d, v, conn, -, eq⟩, -⟩ := exec_other other done
  have state : v = r.commanded.getD s.mem.game.state := by rwa [eq] at state
  rw [eq]
  rcases commanded_cases r with same | restart | random
  · rw [same] at state
    cases state
    refine ⟨fun set => ?_, h.blank, fun playing => ?_⟩
    · obtain ⟨player, opponent, guessBoard, tracker, log, decisive⟩ := h.laid set
      exact ⟨player, opponent, guessBoard, tracker, log, decisive⟩
    · obtain ⟨Bp, Bo, inPlay⟩ := h.inPlay playing
      exact ⟨Bp, Bo, inPlay.brush d conn⟩
  · rw [restart] at state
    cases state
    exact aside_inOrder (by simp)
  · rw [random] at state
    cases state
    obtain ⟨unset, blank⟩ := ok.2 random
    obtain ⟨player, opponent, guessBoard, tracker, log, decisive⟩ := h.laid (by simp [unset])
    exact ⟨fun _ => ⟨player, opponent, guessBoard, tracker, log, decisive⟩, fun _ => blank,
      fun playing => by simp at playing⟩

/-- A list places ships, or some of them, and WEB_INIT goes on. -/
theorem manual_inOrder (h : s.InOrder) {r : Request} (ok : FreshSetup s.mem (.request r))
    {w : Manual} (manual : r.manual = some w) {e : Response × Mem}
    (done : respond r s.mem = .done e) : Match.InOrder ⟨e.2, s.log, s.decisive⟩ := by
  obtain ⟨⟨unset, blank⟩, all⟩ := ok.1 w manual
  rw [respond, exec_manual (answer none) manual (exec_manual_created manual done)] at done
  obtain ⟨e', loop, rfl⟩ := Option.map_eq_some_iff.mp (Outcome.ofOption_eq_done done)
  obtain ⟨ships, seats, nonneg⟩ := seatLoop_nonNegative loop (nonNegative_of_all all _ _)
  have laid := h.laid (by simp [unset])
  refine ⟨fun _ => ⟨seats.untouched (uncounted_untouched blank) nonneg, laid.opponent,
    laid.guessBoard, laid.tracker, laid.log, laid.decisive⟩, fun state => ?_, fun state => ?_⟩
  · cases unset.symm.trans state
  · have state : s.mem.game.state ∈ _ := state
    simp [unset] at state

theorem request_inOrder (h : s.InOrder) {r : Request} (ok : FreshSetup s.mem (.request r))
    (step : seqStep lim s.mem (.request r) = some m) : (s.after lim (.request r) m).InOrder := by
  obtain ⟨a, done⟩ := Outcome.memory_some step
  rw [after_request]
  cases manual : r.manual with
  | none => exact other_inOrder h ok manual done
  | some w => exact manual_inOrder h ok manual done

/-- Both fleets stand and nobody has made a guess. -/
theorem kickOff_inOrder (state : s.mem.game.state = .waitingForPlayer)
    (player : s.mem.game.player.Untouched) (opponent : s.mem.game.opponent.Untouched)
    (guessBoard : s.mem.aiGuessBoard.Blank) (tracker : s.mem.smartAiState = aiResetSmart)
    (log : s.log = []) (decisive : s.decisive = []) : s.InOrder := by
  obtain ⟨Bp, Bo, inPlay⟩ :=
    kickOff_inPlay ⟨state, player.fresh, opponent.fresh, guessBoard, tracker, log, decisive⟩
  exact inPlay.inOrder

theorem webInit_inOrder (h : s.InOrder) (state : s.mem.game.state = .webInit)
    {msg : Option IoMessage} (step : seqStep lim s.mem (.iteration msg) = some m) :
    (s.after lim (.iteration msg) m).InOrder := by
  have laid := h.laid (by simp [state])
  have silent : plays (seqTrace lim s.mem (.iteration msg)) = [] := by
    rw [seqTrace, plays_gameIteration, state]
    exact webInitCase_unplayed.plays _
  obtain ⟨u, done⟩ := Outcome.memory_some step
  have move : GameMove s.mem.game m.game := iteration_move done
  rw [exec_gameIteration, state] at done
  obtain ⟨-, tracker, board⟩ := webInit_aside done
  have guessBoard : m.aiGuessBoard.Blank := by
    rw [board]
    exact laid.guessBoard
  rw [after_unplayed silent]
  generalize game : m.game = g at move
  cases move with
  | created init => cases state.symm.trans init
  | stayed =>
      refine ⟨fun _ => ⟨?_, ?_, guessBoard, tracker.trans laid.tracker, laid.log, laid.decisive⟩,
        fun random => ?_, fun playing => ?_⟩
      · rw [game]
        exact laid.player
      · rw [game]
        exact laid.opponent
      · rw [game] at random
        cases state.symm.trans random
      · rw [game, state] at playing
        simp at playing
  | started _ _ seats lengths =>
      refine kickOff_inOrder (s := ⟨m, s.log, s.decisive⟩) ?_ ?_ ?_ guessBoard
        (tracker.trans laid.tracker) laid.log laid.decisive
      · rw [game]
      · rw [game]
        exact laid.player
      · rw [game]
        exact seats.untouched_random laid.opponent lengths
  | randomized random => cases state.symm.trans random
  | guessed _ _ other => exact absurd state other
  | passed _ other => exact absurd state other

theorem randomInit_inOrder (h : s.InOrder) (state : s.mem.game.state = .randomInit)
    {msg : Option IoMessage} (step : seqStep lim s.mem (.iteration msg) = some m) :
    (s.after lim (.iteration msg) m).InOrder := by
  have laid := h.laid (by simp [state])
  have silent : plays (seqTrace lim s.mem (.iteration msg)) = [] := by
    rw [seqTrace, plays_gameIteration, state]
    exact randomInitCase_unplayed.plays _
  obtain ⟨u, done⟩ := Outcome.memory_some step
  rw [exec_gameIteration, state] at done
  have done : Prog.exec (answer msg) randomInitCase s.mem = .done (u, m) := done
  rw [after_unplayed silent]
  simp only [randomInitCase, setupGameRandomly, Prog.exec_bind, Outcome.bind_assoc] at done
  obtain ⟨r, first, done⟩ := Outcome.bind_eq_done done
  obtain ⟨ships, p, rng, seats, lengths, eq⟩ := placeRandomShips_game first
  obtain ⟨r', second, done⟩ := Outcome.bind_eq_done done
  obtain ⟨ships', p', rng', seats', lengths', eq'⟩ := placeRandomShips_game second
  rw [eq] at seats' eq'
  simp only [eq', renderBoard, Prog.exec_modify, exec_vTaskDelay, exec_setState,
    Outcome.bind_done] at done
  cases done
  refine kickOff_inOrder (s := ⟨_, s.log, s.decisive⟩) rfl ?_ ?_ laid.guessBoard laid.tracker
    laid.log laid.decisive
  · exact seats.untouched_random (h.blank state) lengths
  · exact seats'.untouched_random laid.opponent lengths'

/-- The game is on, and goes on as a match. -/
theorem playing_inOrder {fuel : Nat} (h : s.InOrder)
    (state : s.mem.game.state ∈ [GameState.waitingForPlayer, .waitingForOpponent, .gameOver])
    {msg : Option IoMessage} (ok : FreshSetup s.mem (.iteration msg))
    (step : seqStep ⟨fuel, none⟩ s.mem (.iteration msg) = some m) :
    (s.after ⟨fuel, none⟩ (.iteration msg) m).InOrder := by
  have running : s.mem.game.state ≠ .gameRestart := by
    intro ended
    simp [ended] at state
  obtain ⟨u, done⟩ := Outcome.memory_some step
  obtain ⟨_, _, inPlay⟩ := h.inPlay state
  obtain ⟨_, _, goneOn⟩ := (step_goes inPlay ok (matchStep_some running done)).inPlay
  exact goneOn.inOrder

theorem iteration_inOrder {fuel : Nat} (h : s.InOrder) {msg : Option IoMessage}
    (old : s.mem.game.state ≠ .init) (ok : FreshSetup s.mem (.iteration msg))
    (step : seqStep ⟨fuel, none⟩ s.mem (.iteration msg) = some m) :
    (s.after ⟨fuel, none⟩ (.iteration msg) m).InOrder := by
  cases state : s.mem.game.state with
  | init => exact absurd state old
  | webInit => exact webInit_inOrder h state step
  | randomInit => exact randomInit_inOrder h state step
  | running =>
      obtain ⟨u, done⟩ := Outcome.memory_some step
      rw [exec_gameIteration, state] at done
      cases done
      exact aside_inOrder (by simp [Match.after, state])
  | waitingForPlayer => exact playing_inOrder h (by simp [state]) ok step
  | waitingForOpponent => exact playing_inOrder h (by simp [state]) ok step
  | gameOver => exact playing_inOrder h (by simp [state]) ok step
  | gameRestart =>
      rw [seqStep_restart state] at step
      cases step
      exact aside_inOrder (by simp [Match.after, Mem.setState])

theorem round_inOrder {fuel : Nat} {past : List Out} (h : Round ⟨fuel, none⟩ past s) :
    s.InOrder := by
  induction h with
  | opened _ _ => exact created_inOrder _
  | @next s m e _ old ok step ih =>
      cases e with
      | request r => exact request_inOrder ih ok step
      | iteration msg => exact iteration_inOrder ih (old msg rfl) ok step

/-- The states in which somebody plays, or has just won. -/
def GameState.played : GameState → Bool
  | .waitingForPlayer => true
  | .waitingForOpponent => true
  | .gameOver => true
  | _ => false

theorem round_fair {fuel : Nat} {past : List Out} (h : Round ⟨fuel, none⟩ past s)
    (on : s.mem.game.state.played = true) : s.Fair := by
  have playing : s.mem.game.state ∈
      [GameState.waitingForPlayer, .waitingForOpponent, .gameOver] := by
    revert on
    cases s.mem.game.state <;> simp [GameState.played]
  obtain ⟨Bp, Bo, inPlay⟩ := (round_inOrder h).inPlay playing
  exact inPlay.fair

end Steps

theorem logged_plays (l : List (Out ⊕ Call)) : (logged l).filter Out.isPlay = plays l := by
  induction l with
  | nil => rfl
  | cons x l ih =>
      rcases x with o | c
      · cases o <;> simpa [logged, plays, Out.done, Out.isPlay] using ih
      · exact ih

theorem done_plays (log : List Out) :
    (log.filter Out.done).filter Out.isPlay = log.filter Out.isPlay := by
  rw [List.filter_filter]
  congr 1
  funext o
  cases o <;> rfl

/-- From the first `Game_Init` on a run is in a game. -/
theorem Played.round {lim : Limits} {log : List Out} {m : Mem} (h : Played lim FreshSetup log m) :
    m.currentGame = false ∧ m.game.state = .init ∨ ∃ past s, Round lim past s ∧ s.mem = m ∧
      log.filter Out.isPlay = past.filter Out.isPlay ++ s.log := by
  induction h with
  | start init uncreated => exact .inl ⟨uncreated, init⟩
  | @next log m m' e before ok step ih =>
      have opens (msg : Option IoMessage) (first : e = .iteration msg)
          (init : m.game.state = .init) : ∃ past s, Round lim past s ∧ s.mem = m' ∧
            (log ++ logged (seqTrace lim m e)).filter Out.isPlay =
              past.filter Out.isPlay ++ s.log := by
        subst first
        rw [seqStep_create init] at step
        cases step
        refine ⟨log, _, .opened before init, rfl, ?_⟩
        rw [List.filter_append, logged_plays, seqTrace_create init]
        rfl
      rcases ih with ⟨uncreated, init⟩ | ⟨past, s, round, rfl, logs⟩
      · cases e with
        | request r =>
            obtain ⟨a, ran⟩ := Outcome.memory_some step
            obtain ⟨same, uncreated'⟩ := handle_uncreated uncreated ran
            exact .inl ⟨uncreated', same ▸ init⟩
        | iteration msg => exact .inr (opens msg rfl init)
      · by_cases first : ∃ msg, e = .iteration msg ∧ s.mem.game.state = .init
        · obtain ⟨msg, first, init⟩ := first
          exact .inr (opens msg first init)
        · have old := fun msg eq init => first ⟨msg, eq, init⟩
          refine .inr ⟨past, _, round.next old ok step, rfl, ?_⟩
          rw [List.filter_append, logged_plays, logs, List.append_assoc]
          rfl

namespace Firmware
variable {s : Firmware}

/-- In a serial run that sets up ships on empty boards, whoever sets them up and however
often a game is begun again: whenever a game is on, its plays since `Game_Init` are fair. -/
theorem games_fair {fuel : Nat}
    (h : Reaches (Firmware.step ⟨fuel, none⟩) (Serial FreshSetup) (Start ⟨fuel, none⟩) s)
    (between : s.Between = true) (served : s.Served = true)
    (on : s.mem.game.state.played = true) : ∃ past r, Round ⟨fuel, none⟩ past r ∧ r.mem = s.mem ∧
      s.log.filter Out.isPlay = past.filter Out.isPlay ++ r.log ∧ r.Fair := by
  have played := (reaches_linear h).played between served
  rcases played.round with ⟨-, init⟩ | ⟨past, r, round, mem, logs⟩
  · rw [init] at on
    cases on
  · rw [done_plays] at logs
    exact ⟨past, r, round, mem, logs, round_fair round (mem ▸ on)⟩

/-- A random setup, a press of the player and the answer of the opponent. -/
def randomGame : List Act :=
  List.replicate 5 .game ++ [.request randomSetup] ++ List.replicate 3 .httpd ++
    List.replicate 7 .game ++ [.frameArrives 2 (buttonFrame 0 4)] ++ List.replicate 6 .receiver ++
    List.replicate 8 .game

theorem games_fair_random : ∃ (s : Firmware) (past : List Out) (r : Match),
    accepted s.log = [.player, .opponent] ∧ Round ⟨0, none⟩ past r ∧ r.mem = s.mem ∧
      s.log.filter Out.isPlay = past.filter Out.isPlay ++ r.log ∧ r.Fair := by
  have run : (runList (Firmware.step ⟨0, none⟩) (boot ⟨0, none⟩) randomGame).any (fun s =>
      s.Between ∧ s.Served ∧ s.mem.game.state.played ∧
        accepted s.log = [.player, .opponent]) = true := by decide +kernel
  have meets : Meets (Firmware.step ⟨0, none⟩) (Serial FreshSetup) (boot ⟨0, none⟩)
      randomGame := by decide +kernel
  obtain ⟨s, reached, check⟩ := exists_reaches_of_meets (boot_start _) meets run
  obtain ⟨between, served, on, moves⟩ := of_decide_eq_true check
  obtain ⟨past, r, round, mem, logs, fair⟩ := games_fair reached between served on
  exact ⟨s, past, r, moves, round, mem, logs, fair⟩

end Firmware
end Battleship
