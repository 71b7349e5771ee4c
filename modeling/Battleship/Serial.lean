import Battleship.Buttons
import Battleship.Calls
import Battleship.Effects
import Battleship.Iteration
import Battleship.Phases
import Battleship.Requests
import Battleship.Lib.Passage

/-!
# Handlers and iterations in turn

As long as no handler acts while the game task is inside a case of its switch, the
firmware does what the sequential system does: its memory is one that whole requests
and whole iterations lead to, and its log is theirs. A case that opens with a call is
entered when the call returns.
-/
namespace Battleship
open Cooperative Runs

/-- What is shown or done; the dispatches are the firmware's own. -/
def Out.done : Out → Bool
  | .dispatch _ => false
  | _ => true

/-- What a trace logs, but for the dispatches. -/
def logged (l : List (Out ⊕ Call)) : List Out := (l.filterMap Sum.getLeft?).filter Out.done

theorem logged_append (l l' : List (Out ⊕ Call)) : logged (l ++ l') = logged l ++ logged l' := by
  rw [logged, List.filterMap_append, List.filter_append]
  rfl

theorem logged_inl (log : List Out) : logged (log.map .inl) = log.filter Out.done := by
  rw [logged, List.filterMap_map]
  congr 1
  exact List.filterMap_some

theorem logged_call (c : Call) : logged [.inr c] = [] := rfl

/-- A run of requests and iterations from power on, with what it logs. -/
inductive Played (lim : Limits) (ok : Mem → Event → Prop) : List Out → Mem → Prop
  | start {m : Mem} : m.game.state = .init → m.currentGame = false → Played lim ok [] m
  | next {log : List Out} {m m' : Mem} {e : Event} : Played lim ok log m → ok m e →
      seqStep lim m e = some m' → Played lim ok (log ++ logged (seqTrace lim m e)) m'

theorem withGame_uncreated {α : Type} {f : Game → Option (α × Game)} {m : Mem}
    (uncreated : m.currentGame = false) : withGame f m = none := by
  rw [withGame, if_neg (by simp [uncreated])]

/-- What a request may do before there is a game: neither the board nor the pointer. -/
def Early (m m' : Mem) : Prop := m'.game = m.game ∧ m'.currentGame = m.currentGame

/-- Before the game has been created a request gets no further than the pointer. -/
theorem handle_early {r : Request} :
    Prog.AlwaysIn (fun m => m.currentGame = false) (fun m r => Early m r.1) (handle r) := by
  have crash : ∀ {α β : Type} (f : Game → Option (α × Game)) (g : α → GameTask β),
      Prog.AlwaysIn (fun m => m.currentGame = false) (fun m r => Early m r.1)
        (Prog.tryModify (withGame f) >>= g) := by
    intro α β f g m uncreated
    have none : withGame f m = none := withGame_uncreated uncreated
    beta_reduce
    rw [none]
    exact ⟨⟨rfl, rfl⟩, trivial⟩
  have read : ∀ {β : Type} {g : Mem → GameTask β}, (∀ m, m.currentGame = false →
      Prog.AlwaysIn (fun m => m.currentGame = false) (fun m r => Early m r.1) (g m)) →
        Prog.AlwaysIn (fun m => m.currentGame = false) (fun m r => Early m r.1)
          (Prog.get >>= g) := fun h m uncreated => ⟨⟨rfl, rfl⟩, h m uncreated⟩
  cases r with
  | setDifficulty body =>
      cases body with
      | closed => trivial
      | invalid => trivial
      | json j =>
          simp only [handle, postSetDifficultyHandler]
          split
          · trivial
          · split
            · exact crash _ _
            · trivial
  | placeShips body =>
      cases body with
      | closed => trivial
      | invalid => trivial
      | json j =>
          simp only [handle, postPlaceShipsHandler]
          split
          · trivial
          · split
            · exact crash _ _
            · trivial
  | setupGame body =>
      cases body with
      | closed => trivial
      | invalid => trivial
      | json j =>
          rw [handle, postSetupGameHandler]
          cases difficultyText j with
          | none => trivial
          | some level => exact crash _ _
  | wsConnect => exact fun m _ => ⟨⟨rfl, rfl⟩, trivial⟩
  | wsMessage text =>
      cases text with
      | init =>
          have still : Prog.Always (fun m r => Early m r.1)
              (sendWsGameUpdate true >>= fun _ => .ret Response.ok) :=
            .bind (.bind (Prog.always_get fun _ => ⟨rfl, rfl⟩)
              fun m => .ite (Prog.always_write fun _ => ⟨rfl, rfl⟩) trivial) fun _ => trivial
          refine read fun m _ => ?_
          split
          · exact still.inside
          · trivial
      | restart =>
          refine read fun m uncreated => ?_
          simp only [uncreated]
          trivial
      | other => trivial

/-- A request served by then leaves the board and the pointer as they were. -/
theorem handle_uncreated {ans : ∀ c : Call, c.Ans} {r : Request} {a : Response} {m m' : Mem}
    (uncreated : m.currentGame = false) (h : Prog.exec ans (handle r) m = .done (a, m')) :
    m'.game = m.game ∧ m'.currentGame = false := by
  have early : Early m m' := handle_early.exec (fun _ => ⟨rfl, rfl⟩)
    (fun _ _ _ first later => ⟨later.1.trans first.1, later.2.trans first.2⟩)
    (fun _ _ inside early => early.2.trans inside) uncreated h
  exact ⟨early.1, early.2.trans uncreated⟩

/-- From the first INIT on the run is one of the sequential system. -/
theorem Played.reaches {lim : Limits} {ok : Mem → Event → Prop} {log : List Out} {m : Mem}
    (h : Played lim ok log m) :
    m.currentGame = false ∧ m.game.state = .init ∨ Reaches (seqStep lim) ok Booted m := by
  induction h with
  | start state uncreated => exact .inl ⟨uncreated, state⟩
  | @next log m m' e _ allowed step ih =>
      rcases ih with ⟨uncreated, state⟩ | reached
      · cases e with
        | request r =>
            obtain ⟨a, ran⟩ := Outcome.memory_some step
            obtain ⟨same, uncreated'⟩ := handle_uncreated uncreated ran
            exact .inl ⟨uncreated', same ▸ state⟩
        | iteration msg =>
            rw [seqStep_create state] at step
            exact .inr (.start ⟨m, lim, state, (seqStep_create state none).trans step⟩)
      · exact .inr (reached.next allowed step)

/-- Neither writes nor logs anything. -/
abbrev Still {α : Type} (t : GameTask α) : Prop := Prog.Always (fun m r => r = (m, [])) t

theorem Still.settle {α : Type} {t : GameTask α} (h : Still t) (m : Mem) :
    (t.settle m).2 = (m, []) := by
  induction t with
  | step f k ih =>
      obtain ⟨same, rest⟩ := h m
      simp only [Prog.settle, same, ih m rest, List.append_nil]
  | _ => rfl

theorem loopTail_still : Still loopTail :=
  .bind (.bind (Prog.always_get fun _ => rfl) fun _ => .ite (Prog.always_sys _) trivial)
    fun _ => Prog.always_sys _

theorem logged_still {α : Type} {t : GameTask α} (h : Still t) (ans : ∀ c : Call, c.Ans) (m : Mem) :
    logged (Prog.trace ans t m) = [] := by
  induction t with
  | step f k ih =>
      obtain ⟨same, rest⟩ := h m
      simp only [Prog.trace, same, List.map_nil, List.nil_append]
      exact ih m rest
  | call c k ih =>
      rw [Prog.trace, ← List.singleton_append, logged_append, logged_call]
      exact ih _ (h _)
  | _ => rfl

theorem logged_iteration (lim : Limits) (ans : ∀ c : Call, c.Ans) (m : Mem) :
    logged (Prog.trace ans (gameIteration lim) m) =
      logged (Prog.trace ans (gameSwitch lim m.game.state) m) := by
  simp only [gameIteration, Prog.trace_bind, Prog.trace_get, Prog.exec_get, Prog.traceAfter_done,
    List.nil_append, logged_append]
  cases Prog.exec ans (gameSwitch lim m.game.state) m with
  | done r => rw [Prog.traceAfter_done, logged_still loopTail_still, List.append_nil]
  | undefined => exact List.append_nil _
  | starved => exact List.append_nil _

/-- The cases that wait before they touch the game. -/
def GameState.waitsFirst : GameState → Bool
  | .waitingForOpponent => true
  | .waitingForPlayer => true
  | .gameOver => true
  | _ => false

/-- No call but the first of a case opens one. -/
def Call.Inside (c : Call) : Prop := c.opens = none

theorem inside_calls : GameCalls Call.Inside where
  delay _ inside := inside
  led _ := rfl
  sound _ := rfl
  robot _ _ _ _ _ := rfl

theorem gameSwitch_opens (lim : Limits) {v : GameState} (waits : v.waitsFirst = true) :
    ∃ c k, gameSwitch lim v = .call c k ∧ c.opens = some v ∧
      ∀ a, Prog.Asks Call.Inside (k a) := by
  have robot := inside_calls.toRobotCalls
  cases v with
  | waitingForOpponent => exact ⟨_, _, rfl, rfl, fun _ => opponentMove_asks inside_calls lim⟩
  | waitingForPlayer =>
      refine ⟨_, _, rfl, rfl, fun msg => ?_⟩
      cases msg with
      | none => trivial
      | some msg =>
          refine .ite ?_ trivial
          apply Prog.Asks.bind (applyGuess_asks robot _ _ _)
          exact fun result => .ite trivial (playerMoved_asks robot result)
  | gameOver => exact ⟨_, _, rfl, rfl, fun _ => write_asks _ _⟩
  | _ => cases waits

theorem gameSwitch_inside (lim : Limits) {v : GameState} (acts : v.waitsFirst = false) :
    Prog.Asks Call.Inside (gameSwitch lim v) := by
  apply gameSwitch_asks inside_calls
  intro c opens
  cases c with
  | queueSend m => cases opens
  | queueReceive =>
      cases opens
      cases acts
  | delay ms =>
      simp only [Call.opens] at opens
      split at opens
      · cases opens
        cases acts
      · split at opens <;> cases opens
        cases acts

/-- The receive takes the message in front; no other call has an answer. -/
theorem answerGame_answer {s s₁ : Firmware} {c : Call} {a : c.Ans}
    (answered : s.answerGame c = some (a, s₁)) : a = answer s.receiveQueue.head? c := by
  cases c with
  | queueSend m => rfl
  | delay ms => rfl
  | queueReceive =>
      simp only [Firmware.answerGame] at answered
      split at answered
      · rename_i empty
        cases answered
        rw [empty]
        rfl
      · rename_i msg rest queue
        cases answered
        rw [queue]
        rfl

theorem answer_inside {c : Call} (inside : c.Inside) (msg msg' : Option IoMessage) :
    answer msg c = answer msg' c := by
  cases c with
  | queueReceive => cases inside
  | _ => rfl

namespace Firmware
variable {lim : Limits} {ok : Mem → Event → Prop} {s s' : Firmware}

/-- No handler has anything left to read or to write. -/
def Served (s : Firmware) : Bool :=
  match s.httpd with
  | none => true
  | some (.ret _) => true
  | some _ => false

/-- The game task is outside its switch, or at the call that opens a case. -/
def Between (s : Firmware) : Bool :=
  match s.game with
  | .inTail _ => true
  | .inSwitch t => (t.pending.bind Call.opens).isSome

/-- WEB_INIT has nothing to do before the ships are placed. -/
def Unready (s : Firmware) : Bool := s.mem.game.state = .webInit ∧ s.mem.game.gameReady = false

/-- The case that the next step of the game task enters. -/
def enters (s : Firmware) : Option GameState :=
  if atHead s.game then
    if s.mem.game.state.waitsFirst ∨ s.Unready then none else some s.mem.game.state
  else s.rest.pending.bind Call.opens

/-- A case is entered in the state it is for, when no handler is at work, and left before
the next request is handled. -/
def Serial (ok : Mem → Event → Prop) (s : Firmware) : Act → Prop
  | .game => ∀ v ∈ s.enters, s.Served ∧ s.mem.game.state = v ∧
      ok s.mem (.iteration s.receiveQueue.head?)
  | .request r => s.Between ∧ ok s.mem (.request r)
  | _ => True

/-- Between two cases: nothing is left but the pause, or a case is about to open. -/
def Resting (lim : Limits) : Phase → Prop
  | .inTail t => Still t
  | .inSwitch t => ∃ v : GameState, v.waitsFirst = true ∧ t = gameSwitch lim v

/-- The event has begun in a memory of the sequential system and has come to `t`. -/
def Underway (lim : Limits) (ok : Mem → Event → Prop) (e : Event) (ans : ∀ c : Call, c.Ans)
    {α : Type} (whole : Mem → GameTask α) (s : Firmware) (t : GameTask α) : Prop :=
  ∃ log m l, Played lim ok log m ∧ ok m e ∧ Prog.Passage ans (whole m) m l t s.mem ∧
    s.log.filter Out.done = log ++ logged l

/-- What the requests and iterations so far have done, and what is left of the last. -/
inductive Linear (lim : Limits) (ok : Mem → Event → Prop) (s : Firmware) : Prop
  | idle : Resting lim s.game → s.Served = true →
      Played lim ok (s.log.filter Out.done) s.mem → Linear lim ok s
  | serving {r : Request} {t : GameTask Response} : Resting lim s.game → s.httpd = some t →
      Underway lim ok (.request r) (answer none) (fun _ => handle r) s t →
      Prog.Asks Call.Inside t → Linear lim ok s
  | playing {msg : Option IoMessage} {t : GameTask Unit} : s.game = .inSwitch t →
      s.Served = true → Underway lim ok (.iteration msg) (answer msg)
        (fun m => gameSwitch lim m.game.state) s t →
      Prog.Asks Call.Inside t → Linear lim ok s

section Underway
variable {e : Event} {ans : ∀ c : Call, c.Ans} {α : Type} {whole : Mem → GameTask α}
  {t : GameTask α}

theorem Underway.of_eq (h : Underway lim ok e ans whole s t) (mem : s'.mem = s.mem)
    (log : s'.log.filter Out.done = s.log.filter Out.done) : Underway lim ok e ans whole s' t := by
  obtain ⟨past, m, l, played, allowed, passage, logs⟩ := h
  exact ⟨past, m, l, played, allowed, mem ▸ passage, log.trans logs⟩

/-- An event begins where the last has ended. -/
theorem Underway.begin (whole : Mem → GameTask α)
    (played : Played lim ok (s.log.filter Out.done) s.mem)
    (allowed : ok s.mem e) : Underway lim ok e ans whole s (whole s.mem) :=
  ⟨_, s.mem, [], played, allowed, .refl, by simp [logged]⟩

theorem Underway.step {f : Mem → Mem × List Out} {k : Mem → GameTask α}
    (h : Underway lim ok e ans whole s (.step f k)) (mem : s'.mem = (f s.mem).1)
    (log : s'.log = s.log ++ (f s.mem).2) : Underway lim ok e ans whole s' (k s.mem) := by
  obtain ⟨past, m, l, played, allowed, passage, logs⟩ := h
  refine ⟨past, m, _, played, allowed, mem ▸ passage.step, ?_⟩
  rw [log, List.filter_append, logs, logged_append, logged_inl, List.append_assoc]

theorem Underway.call {c : Call} {k : c.Ans → GameTask α}
    (h : Underway lim ok e ans whole s (.call c k)) : Underway lim ok e ans whole s (k (ans c)) := by
  obtain ⟨past, m, l, played, allowed, passage, logs⟩ := h
  refine ⟨past, m, _, played, allowed, passage.call, ?_⟩
  rw [logs, logged_append, logged_call, List.append_nil]

theorem Underway.settle (h : Underway lim ok e ans whole s t)
    (mem : s'.mem = (t.settle s.mem).2.1) (log : s'.log = s.log ++ (t.settle s.mem).2.2) :
    Underway lim ok e ans whole s' (t.settle s.mem).1 := by
  obtain ⟨past, m, l, played, allowed, passage, logs⟩ := h
  refine ⟨past, m, _, played, allowed, mem ▸ passage.settle, ?_⟩
  rw [log, List.filter_append, logs, logged_append, logged_inl, List.append_assoc]

end Underway

/-- A handler that has run is a request played. -/
theorem Underway.request {r : Request} {a : Response}
    (h : Underway lim ok (.request r) (answer none) (fun _ => handle r) s (.ret a)) :
    Played lim ok (s.log.filter Out.done) s.mem := by
  obtain ⟨past, m, l, played, allowed, passage, logs⟩ := h
  obtain ⟨ran, traced⟩ := passage.ended
  have step : seqStep lim m (.request r) = some s.mem := by rw [seqStep, ran, Outcome.memory]
  have next := played.next allowed step
  rwa [seqTrace, traced, ← logs] at next

/-- A case that has run is an iteration played. -/
theorem Underway.iteration {msg : Option IoMessage}
    (h : Underway lim ok (.iteration msg) (answer msg) (fun m => gameSwitch lim m.game.state) s
      (.ret ())) : Played lim ok (s.log.filter Out.done) s.mem := by
  obtain ⟨past, m, l, played, allowed, passage, logs⟩ := h
  obtain ⟨ran, traced⟩ := passage.ended
  have step : seqStep lim m (.iteration msg) = some s.mem := by
    rw [seqStep, exec_gameIteration, ran, Outcome.memory]
  have next := played.next allowed step
  rwa [seqTrace, logged_iteration, traced, ← logs] at next

/-- Inside a case no call opens one. -/
theorem not_between {t : GameTask Unit} (game : s.game = .inSwitch t)
    (inside : Prog.Asks Call.Inside t) : s.Between = false := by
  simp only [Between, game]
  cases at_call : t.pending with
  | none => rfl
  | some c =>
      have none : c.opens = none := inside.pending at_call
      rw [Option.bind_some, none]
      rfl

theorem Resting.between (rest : Resting lim s.game) : s.Between = true := by
  rw [Between]
  cases game : s.game with
  | inTail t => rfl
  | inSwitch t =>
      rw [game] at rest
      obtain ⟨v, waits, rfl⟩ := rest
      obtain ⟨c, k, shape, opens, -⟩ := gameSwitch_opens lim waits
      simp [shape, opens]

/-- Between two cases and with no handler at work every event has been played. -/
theorem Linear.played (h : s.Linear lim ok) (between : s.Between = true) (served : s.Served = true) :
    Played lim ok (s.log.filter Out.done) s.mem := by
  cases h with
  | idle _ _ played => exact played
  | serving _ handler underway =>
      rw [Served, handler] at served
      split at served
      · rename_i none
        cases none
      · rename_i a done
        cases done
        exact underway.request
      · cases served
  | playing game _ _ inside => cases between.symm.trans (not_between game inside)

/-- A step that leaves the memory and the handler alone, and the game task at rest. -/
theorem Linear.of_eq (h : s.Linear lim ok)
    (game : s'.game = s.game ∨ Resting lim s.game ∧ Resting lim s'.game)
    (httpd : s'.httpd = s.httpd) (mem : s'.mem = s.mem)
    (log : s'.log.filter Out.done = s.log.filter Out.done) : s'.Linear lim ok := by
  have served : s'.Served = s.Served := by rw [Served, Served, httpd]
  have resting (rest : Resting lim s.game) : Resting lim s'.game := by
    rcases game with same | ⟨-, later⟩
    · exact same ▸ rest
    · exact later
  cases h with
  | idle rest free played => exact .idle (resting rest) (served ▸ free) (by rwa [log, mem])
  | serving rest handler underway inside =>
      exact .serving (resting rest) (httpd ▸ handler) (underway.of_eq mem log) inside
  | playing case free underway inside =>
      rcases game with same | ⟨rest, -⟩
      · exact .playing (same.trans case) (served ▸ free) (underway.of_eq mem log) inside
      · cases rest.between.symm.trans (not_between case inside)

theorem inTail_resting (lim : Limits) {t : GameTask Unit} (h : Still t) :
    Resting lim (s.inTail t).game ∧ (s.inTail t).mem = s.mem ∧ (s.inTail t).log = s.log := by
  have still := h.settle s.mem
  refine ⟨Prog.Always.settle h s.mem, ?_, ?_⟩
  · simp only [inTail, settleGame, still]
  · simp only [inTail, settleGame, still, List.append_nil]

/-- The tail writes nothing. -/
theorem inSwitch_mem (s : Firmware) (t : GameTask Unit) :
    (s.inSwitch t).mem = (t.settle s.mem).2.1 := by
  rcases inSwitch_cases s t with ⟨-, shape⟩ | ⟨-, shape⟩
  · rw [shape]
    exact (inTail_resting ⟨0, none⟩ loopTail_still).2.1
  · rw [shape]

/-- A case under way is at its next call, or over and played. -/
theorem inSwitch_linear {msg : Option IoMessage} {t : GameTask Unit} (served : s.Served = true)
    (underway : Underway lim ok (.iteration msg) (answer msg)
      (fun m => gameSwitch lim m.game.state) s t) (inside : Prog.Asks Call.Inside t) :
    (s.inSwitch t).Linear lim ok := by
  rcases inSwitch_cases s t with ⟨ended, shape⟩ | ⟨-, shape⟩
  · let s' := { s with mem := (t.settle s.mem).2.1, log := s.log ++ (t.settle s.mem).2.2 }
    have settled : Underway lim ok (.iteration msg) (answer msg)
        (fun m => gameSwitch lim m.game.state) s' (t.settle s.mem).1 := underway.settle rfl rfl
    rw [ended] at settled
    have played := settled.iteration
    rw [shape]
    obtain ⟨rest, mem, log⟩ := inTail_resting lim (s := s') loopTail_still
    exact .idle rest served (by rwa [log, mem])
  · rw [shape]
    exact .playing rfl served (underway.settle rfl rfl) (inside.settle _)

theorem Linear.still (h : s.Linear lim ok) {t : GameTask Unit} (tail : s.game = .inTail t) :
    Still t := by
  have resting (rest : Resting lim s.game) : Still t := by rwa [tail] at rest
  cases h with
  | idle rest _ _ => exact resting rest
  | serving rest _ _ _ => exact resting rest
  | playing game _ _ _ => cases tail.symm.trans game

/-- A case is entered where the last event has ended. -/
theorem Linear.enter (h : s.Linear lim ok) (rest : Resting lim s.game)
    (meets : Serial ok s .game) {v : GameState} (enters : v ∈ s.enters) :
    s.Served = true ∧ Underway lim ok (.iteration s.receiveQueue.head?)
      (answer s.receiveQueue.head?) (fun m => gameSwitch lim m.game.state) s (gameSwitch lim v) := by
  obtain ⟨served, rfl, allowed⟩ := meets v enters
  exact ⟨served, .begin _ (h.played rest.between served) allowed⟩

theorem Linear.dispatch (h : s.Linear lim ok) (meets : Serial ok s .game) (head : s.AtHead) :
    (s.dispatch lim).Linear lim ok := by
  have rest : Resting lim s.game := by
    rw [head]
    trivial
  by_cases waits : s.mem.game.state.waitsFirst = true
  · obtain ⟨c, k, shape, -⟩ := gameSwitch_opens lim waits
    have opened : s.dispatch lim = { s with
        log := s.log ++ [.dispatch s.mem.game.state], game := .inSwitch (.call c k) } := by
      simp [Firmware.dispatch, inSwitch, settleGame, shape, Prog.settle]
    rw [opened]
    exact h.of_eq (.inr ⟨rest, _, waits, shape.symm⟩) rfl rfl (by simp [Out.done])
  · by_cases unready : s.Unready = true
    · obtain ⟨state, ready⟩ := of_decide_eq_true unready
      have nothing : (gameSwitch lim s.mem.game.state).settle s.mem = (.ret (), s.mem, []) := by
        rw [state]
        simp [gameSwitch, webInitCase, Prog.get, Prog.settle, ready]
      obtain ⟨rest', mem, log⟩ := inTail_resting lim
        (s := { s with log := s.log ++ [.dispatch s.mem.game.state] }) loopTail_still
      have passed : s.dispatch lim = Firmware.inTail
          { s with log := s.log ++ [.dispatch s.mem.game.state] } loopTail := by
        simp [Firmware.dispatch, inSwitch, settleGame, nothing, enterTail, inTail]
      rw [passed]
      exact h.of_eq (.inr ⟨rest, rest'⟩) rfl mem (by simp [log, Out.done])
    · have enters : s.mem.game.state ∈ s.enters := by
        simp [Firmware.enters, atHead_iff.mpr head, waits, unready]
      obtain ⟨served, underway⟩ := h.enter rest meets enters
      refine inSwitch_linear served (underway.of_eq rfl ?_) (gameSwitch_inside lim ?_)
      · simp [Out.done]
      · simpa using waits

theorem Linear.game_step (h : s.Linear lim ok) (meets : Serial ok s .game)
    (hstep : s.stepGame lim = some s') : s'.Linear lim ok := by
  unfold stepGame at hstep
  split at hstep
  · rename_i head
    cases hstep
    exact h.dispatch meets head
  · rename_i c k tail
    obtain ⟨⟨a, s₁⟩, answered, rfl⟩ := Option.map_eq_some_iff.mp hstep
    have keeps := answerGame_keeps answered
    have still := h.still tail
    obtain ⟨rest, mem, log⟩ := inTail_resting lim (s := s₁) (still a)
    exact h.of_eq (.inr ⟨tail ▸ still, rest⟩) keeps.httpd (mem.trans keeps.mem)
      (congrArg _ (log.trans keeps.log))
  · rename_i c k case
    obtain ⟨⟨a, s₁⟩, answered, rfl⟩ := Option.map_eq_some_iff.mp hstep
    have keeps := answerGame_keeps answered
    have served₁ : s₁.Served = s.Served := by rw [Served, Served, keeps.httpd]
    obtain rfl := answerGame_answer answered
    have entered (rest : Resting lim s.game) :
        (s₁.inSwitch (k (answer s.receiveQueue.head? c))).Linear lim ok := by
      have resting := rest
      rw [case] at resting
      obtain ⟨v, waits, eq⟩ := resting
      obtain ⟨c', k', shape, opens, inside⟩ := gameSwitch_opens lim waits
      cases eq.trans shape
      have enters : v ∈ s.enters := by
        simpa [Firmware.enters, atHead, Firmware.rest, case] using opens
      obtain ⟨served, underway⟩ := h.enter rest meets enters
      rw [shape] at underway
      exact inSwitch_linear (served₁.trans served)
        (underway.call.of_eq keeps.mem (congrArg _ keeps.log)) (inside _)
    cases h with
    | idle rest _ _ => exact entered rest
    | serving rest _ _ _ => exact entered rest
    | playing game served underway inside =>
        cases case.symm.trans game
        rw [answer_inside inside.1 _ _]
        exact inSwitch_linear (served₁.trans served)
          (underway.call.of_eq keeps.mem (congrArg _ keeps.log)) (inside.2 _)
  · cases hstep

theorem Linear.httpd_step (h : s.Linear lim ok) (hstep : s.stepHttpd = some s') :
    s'.Linear lim ok := by
  unfold stepHttpd at hstep
  split at hstep
  · rename_i a handler
    cases hstep
    cases h with
    | idle rest _ played => exact .idle rest rfl played
    | serving rest same underway _ =>
        cases handler.symm.trans same
        exact .idle rest rfl underway.request
    | playing game _ underway inside => exact .playing game rfl (underway.of_eq rfl rfl) inside
  · rename_i f k handler
    cases hstep
    have busy : s.Served = false := by rw [Served, handler]
    cases h with
    | idle _ served _ => cases busy.symm.trans served
    | serving rest same underway inside =>
        cases handler.symm.trans same
        exact .serving rest rfl (underway.step rfl rfl) (inside s.mem)
    | playing _ served _ _ => cases busy.symm.trans served
  · rename_i c k handler
    obtain ⟨⟨a, s₁⟩, answered, rfl⟩ := Option.map_eq_some_iff.mp hstep
    have keeps := answerGame_keeps answered
    have busy : s.Served = false := by rw [Served, handler]
    cases h with
    | idle _ served _ => cases busy.symm.trans served
    | @serving r _ rest same underway inside =>
        cases handler.symm.trans same
        obtain rfl := answerGame_answer answered
        rw [answer_inside inside.1 _ none]
        refine .serving (r := r) (keeps.game ▸ rest) rfl ?_ (inside.2 _)
        exact underway.call.of_eq keeps.mem (congrArg _ keeps.log)
    | playing _ served _ _ => cases busy.symm.trans served
  · cases hstep

theorem Linear.request_step (h : s.Linear lim ok) {r : Request} (meets : Serial ok s (.request r))
    (hstep : s.step lim (.request r) = some s') : s'.Linear lim ok := by
  obtain ⟨between, allowed⟩ := meets
  simp only [Firmware.step] at hstep
  split at hstep
  · rename_i free
    cases hstep
    cases h with
    | idle rest _ played =>
        refine .serving (r := r) rest rfl ?_ (handle_asks inside_calls.places r)
        exact Underway.begin (fun _ => handle r) played allowed
    | serving _ handler _ _ => simp [handler] at free
    | playing game _ _ inside => cases (not_between game inside).symm.trans between
  · cases hstep

theorem Linear.step (h : s.Linear lim ok) {a : Act} (meets : Serial ok s a)
    (hstep : s.step lim a = some s') : s'.Linear lim ok := by
  cases a with
  | game => exact h.game_step meets hstep
  | httpd => exact h.httpd_step hstep
  | request r => exact h.request_step meets hstep
  | _ =>
      have keeps := step_keepsGame hstep (by simp) (by simp) (by simp)
      exact h.of_eq (.inl keeps.game) keeps.httpd keeps.mem (by rw [keeps.log])

theorem Start.linear (h : Start lim s) : s.Linear lim ok := by
  refine .idle ?_ ?_ ?_
  · rw [h.game]
    trivial
  · rw [Served, h.httpd]
  · rw [h.log]
    exact .start h.state h.pointer

theorem reaches_linear (h : Reaches (Firmware.step lim) (Serial ok) (Start lim) s) :
    s.Linear lim ok :=
  h.invariant (fun _ start => start.linear) fun _ _ _ before meets hstep => before.step meets hstep

/-- In a serial run, whenever the game task is between two cases and no handler is at
work, what has been logged is what whole requests and whole iterations log, one after the
other, and the memory is the one they lead to. -/
theorem serial_run_played
    (h : Reaches (Firmware.step lim) (Serial ok) (Start lim) s)
    (between : s.Between = true) (served : s.Served = true) :
    Played lim ok (s.log.filter Out.done) s.mem ∧
      (s.mem.currentGame = true → Reaches (seqStep lim) ok Booted s.mem) := by
  have played := (reaches_linear h).played between served
  refine ⟨played, fun created => ?_⟩
  rcases played.reaches with ⟨uncreated, -⟩ | reached
  · cases uncreated.symm.trans created
  · exact reached

instance [∀ m e, Decidable (ok m e)] (s : Firmware) : ∀ a, Decidable (Serial ok s a)
  | .game => inferInstanceAs (Decidable (∀ v ∈ s.enters, s.Served = true ∧
      s.mem.game.state = v ∧ ok s.mem (.iteration s.receiveQueue.head?)))
  | .request r => inferInstanceAs (Decidable (s.Between = true ∧ ok s.mem (.request r)))
  | .httpd => .isTrue trivial
  | .sender => .isTrue trivial
  | .receiver => .isTrue trivial
  | .frameArrives _ _ => .isTrue trivial
  | .sendFlag _ => .isTrue trivial

/-- Ships are placed while the game task runs through WEB_INIT; a browser connects while it
waits for a button, and the button is pressed. -/
def serialRun : List Act :=
  List.replicate 5 .game ++ [.request (setupList [shipItem 2 2 2])] ++
    (List.replicate 4 [.httpd, .game]).flatten ++ List.replicate 5 .httpd ++
    List.replicate 6 .game ++ [.request .wsConnect, .httpd, .httpd] ++
    [.frameArrives 2 (buttonFrame 0 4)] ++ List.replicate 6 .receiver ++
    List.replicate 2 .game

theorem serial_run_played_press : ∃ s : Firmware,
    s.mem.wsConnected = true ∧ .guess .opponent 4 4 ∈ s.log ∧
      Played ⟨0, none⟩ (fun _ _ => True) (s.log.filter Out.done) s.mem ∧
      Reaches (seqStep ⟨0, none⟩) (fun _ _ => True) Booted s.mem := by
  have run : (runList (Firmware.step ⟨0, none⟩) (boot ⟨0, none⟩) serialRun).any (fun s =>
      s.Between ∧ s.Served ∧ s.mem.currentGame ∧ s.mem.wsConnected = true ∧
        .guess .opponent 4 4 ∈ s.log) = true := by decide +kernel
  have meets : Meets (Firmware.step ⟨0, none⟩) (Serial fun _ _ => True) (boot ⟨0, none⟩)
      serialRun := by decide +kernel
  obtain ⟨s, reached, check⟩ := exists_reaches_of_meets (boot_start _) meets run
  obtain ⟨between, served, created, connected, guessed⟩ := of_decide_eq_true check
  obtain ⟨played, reaches⟩ := serial_run_played reached between served
  exact ⟨s, connected, guessed, played, reaches created⟩

end Firmware
end Battleship
