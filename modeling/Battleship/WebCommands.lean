import Battleship.Interleaving
import Battleship.Effects
import Mathlib.Data.List.Induction

/-!
# Web commands against the game task

A restart or a random setup is a single write to `game->state`, made while the
game task is somewhere between two blocking calls. The write survives when no
assignment follows in the game task's current case.
-/
namespace Battleship
open Cooperative Runs

/-- The last web command not yet followed by a dispatch. -/
def lastCommand (log : List Out) : Option GameState :=
  log.foldl (fun last o => match o with
    | .command v => some v
    | .dispatch _ => none
    | _ => last) none

/-- Every dispatch is on the value of the command before it, if there is one. -/
def Honoured (log : List Out) : Prop :=
  ∀ pre post v c, log = pre ++ .dispatch v :: post → lastCommand pre = some c → v = c

theorem lastCommand_concat (log : List Out) (o : Out) :
    lastCommand (log ++ [o]) = match o with
      | .command v => some v
      | .dispatch _ => none
      | _ => lastCommand log := by
  simp only [lastCommand, List.foldl_append, List.foldl_cons, List.foldl_nil]

theorem honoured_nil : Honoured [] := by
  intro pre post v c eq
  simp at eq

theorem honoured_concat {log : List Out} {o : Out} (h : Honoured log)
    (ho : ∀ v c, o = .dispatch v → lastCommand log = some c → v = c) : Honoured (log ++ [o]) := by
  intro pre post v c eq last
  rcases List.eq_nil_or_concat post with rfl | ⟨post', x, rfl⟩
  · obtain ⟨rfl, same⟩ := List.append_inj' eq rfl
    exact ho v c (List.cons.inj same).1 last
  · have split : log ++ [o] = (pre ++ .dispatch v :: post') ++ [x] := by
      simpa [List.concat_eq_append] using eq
    exact h pre post' v c (List.append_inj' split rfl).1 last

/-- Plain entries change neither. -/
theorem honoured_append {log out : List Out} (h : Honoured log) (plain : ∀ o ∈ out, o.Plain) :
    Honoured (log ++ out) ∧ lastCommand (log ++ out) = lastCommand log := by
  induction out using List.reverseRecOn with
  | nil => simpa using h
  | append_singleton out o ih =>
      have before := ih fun o' ho' => plain o' (by simp [ho'])
      have plain_o := plain o (by simp)
      rw [← List.append_assoc]
      constructor
      · apply honoured_concat before.1
        rintro v c rfl
        exact plain_o.elim
      · rw [lastCommand_concat]
        cases o with
        | command v => exact plain_o.elim
        | dispatch v => exact plain_o.elim
        | guess target row col => exact before.2
        | guessed target result => exact before.2
        | wsResult winner => exact before.2
        | frame f => exact before.2

/-- The rest of a case assigns no state. -/
def NoAssignment (rest : GameTask Unit) : Prop :=
  Prog.Always (fun m r => r.1.game.state = m.game.state) rest

/-- Places of the game task at which the command `c` may be written. -/
def SafeAt (lim : Limits) (c : GameState) : Phase → Prop
  | .inTail _ => True
  | .inSwitch rest => NoAssignment rest ∨ rest = waitingForPlayerCase ∨
      rest = waitingForOpponentCase lim ∨ rest = gameOverCase ∧ c = .gameRestart

/-- `apply_guess` answers 0 for this cell. -/
def Rejects (p : Player) (coord : Coordinate) : Prop :=
  ∀ r, guessCell p coord.row coord.col = some r → r.2.1 = .rejected

theorem noAssignment_of_steady {t : GameTask Unit} (h : Prog.Always Steady t) : NoAssignment t :=
  h.mono fun _ _ steady => steady.1

/-- A rejected guess runs to its end, or into undefined behaviour, and assigns
no state. -/
theorem settle_applyGuess_of_rejects (target : Side) {coord : Coordinate} {m : Mem}
    (h : Rejects (m.game.side target) coord) :
    ∃ m' log, m'.game.state = m.game.state ∧ (∀ o ∈ log, o.Plain) ∧
      ((applyGuess target coord.row coord.col).settle m = (.ret .rejected, m', log) ∨
        (applyGuess target coord.row coord.col).settle m = (.undefined, m', log)) := by
  cases guess : guessCell (m.game.side target) coord.row coord.col with
  | none =>
      refine ⟨m, [.guess target coord.row coord.col], rfl, by simp [Out.Plain], .inr ?_⟩
      simp [applyGuess, Prog.emit, Prog.write, Prog.tryModify, Prog.attempt, Prog.settle, guess]
  | some r =>
      obtain ⟨p, result, sunk⟩ := r
      have rejected : result = .rejected := h _ guess
      have nothing : sunk = none := guessCell_rejected guess rejected
      subst rejected nothing
      refine ⟨{ m with game := m.game.setSide target p },
        [.guess target coord.row coord.col, .guessed target .rejected], setSide_state _ _ _,
        by simp [Out.Plain], .inl ?_⟩
      simp [applyGuess, Prog.emit, Prog.write, Prog.tryModify, Prog.attempt, Prog.settle, guess,
        showSunk]

/-- The segment from here to the next call leaves the state as it is, and so
does what comes after it. -/
def Leaves (t : GameTask Unit) (m : Mem) : Prop :=
  (t.settle m).2.1.game.state = m.game.state ∧ NoAssignment (t.settle m).1

theorem NoAssignment.leaves {t : GameTask Unit} (h : NoAssignment t) (m : Mem) : Leaves t m :=
  ⟨Prog.Always.settle_field (fun m : Mem => m.game.state) h m, Prog.Always.settle h m⟩

theorem leaves_of_undefined {t : GameTask Unit} {m m' : Mem} {log : List Out}
    (h : t.settle m = (.undefined, m', log)) (state : m'.game.state = m.game.state) :
    Leaves t m := by
  unfold Leaves
  rw [h]
  exact ⟨state, trivial⟩

theorem leaves_bind_of_ret {t : GameTask α} {g : α → GameTask Unit} {m m' : Mem} {a : α}
    {log : List Out} (h : t.settle m = (.ret a, m', log)) (state : m'.game.state = m.game.state)
    (rest : Leaves (g a) m') : Leaves (t >>= g) m := by
  unfold Leaves
  rw [Prog.settle_bind_of_ret h]
  exact ⟨rest.1.trans state, rest.2⟩

/-- A message that is no accepted guess. -/
theorem leaves_message {msg : IoMessage} {m : Mem} (h : msg.isType "BUTTON" = true →
      Rejects m.game.opponent (buttonCoordinate msg)) :
    Leaves (if msg.isType "BUTTON" then do
        let coord := buttonCoordinate msg
        let result ← applyGuess .opponent coord.row coord.col
        if result = .rejected then .ret () else playerMoved result
      else .ret ()) m := by
  split
  · rename_i button
    obtain ⟨m', log, state, -, settled | settled⟩ :=
      settle_applyGuess_of_rejects .opponent (h button)
    · apply leaves_bind_of_ret settled state
      rw [if_pos rfl]
      exact ⟨rfl, trivial⟩
    · exact leaves_of_undefined (Prog.settle_bind_of_undefined settled) state
  · exact ⟨rfl, trivial⟩

/-- An opponent's move that `apply_guess` rejects, or that never comes about. -/
theorem leaves_opponentMove {lim : Limits} {m : Mem}
    (h : ∀ r, engineGetGuess lim.fuel m.game.difficulty m.aiGuessBoard m.smartAiState m.rng =
      .done r → Rejects m.game.player r.1) : Leaves (opponentMove lim) m := by
  cases guess : engineGetGuess lim.fuel m.game.difficulty m.aiGuessBoard m.smartAiState m.rng with
  | undefined =>
      simp [Leaves, opponentMove, opponentGuess, Prog.attempt, Prog.settle, guess, NoAssignment,
        Prog.Always]
  | starved =>
      simp [Leaves, opponentMove, opponentGuess, Prog.attempt, Prog.settle, guess, NoAssignment,
        Prog.Always]
  | done r =>
      obtain ⟨coord, st, rng⟩ := r
      have guessed : (opponentGuess lim).settle m =
          (.ret coord, { m with smartAiState := st, rng := rng }, []) := by
        simp [opponentGuess, Prog.attempt, Prog.settle, guess]
      apply leaves_bind_of_ret guessed rfl
      obtain ⟨m', log, state, -, settled | settled⟩ :=
        settle_applyGuess_of_rejects .player (m := { m with smartAiState := st, rng := rng })
          (h _ guess)
      · apply leaves_bind_of_ret settled state
        have updated : (updateSmartAi lim coord .rejected).settle m' = (.ret (), m', []) := by
          simp [updateSmartAi, engineUpdateSmartAi, recordGuess, aiUpdateSmart, Prog.tryModify,
            Prog.attempt, Prog.settle]
        apply leaves_bind_of_ret updated rfl
        rw [if_pos rfl]
        exact ⟨rfl, trivial⟩
      · exact leaves_of_undefined (Prog.settle_bind_of_undefined settled) state

namespace Firmware

/-- The handler's next action is the web command `c`. -/
def Issues (s : Firmware) (c : GameState) : Prop :=
  ∃ f k, s.httpd = some (.step f k) ∧ .command c ∈ (f s.mem).2

/-- A command is written at a safe place only. While one is pending, the message
that game_task takes is no accepted guess, nor is the opponent's move one. -/
def CommandsMeet (lim : Limits) (s : Firmware) : Act → Prop
  | .httpd => ∀ c, s.Issues c → SafeAt lim c s.game
  | .game => ∀ c, lastCommand s.log = some c →
      (s.game = .inSwitch waitingForPlayerCase → ∀ msg rest, s.receiveQueue = msg :: rest →
        msg.isType "BUTTON" = true → Rejects s.mem.game.opponent (buttonCoordinate msg)) ∧
      (s.game = .inSwitch (waitingForOpponentCase lim) → ∀ r,
        engineGetGuess lim.fuel s.mem.game.difficulty s.mem.aiGuessBoard s.mem.smartAiState
          s.mem.rng = .done r → Rejects s.mem.game.player r.1)
  | _ => True

/-- The game task's program logs plain entries, and after its switch it also
keeps the state. -/
def PhaseQuiet : Phase → Prop
  | .inSwitch rest => Prog.Always (Logs Out.Plain) rest
  | .inTail rest => Prog.Always Steady rest

structure Obeying (lim : Limits) (s : Firmware) : Prop where
  honoured : Honoured s.log
  httpd : ∀ t, s.httpd = some t → Prog.Always Obeys t
  quiet : PhaseQuiet s.game
  pending : ∀ c, lastCommand s.log = some c → s.mem.game.state = c ∧ SafeAt lim c s.game

theorem Start.obeying {lim : Limits} {s : Firmware} (h : Start lim s) : s.Obeying lim where
  honoured := h.log ▸ honoured_nil
  httpd := by simp [h.httpd]
  quiet := by
    rw [h.game]
    trivial
  pending := by simp [h.log, lastCommand]

variable {lim : Limits} {s s' : Firmware}

theorem Obeying.of_keepsGame (h : s.Obeying lim) (k : KeepsGame s s') : s'.Obeying lim where
  honoured := k.log ▸ h.honoured
  httpd := k.httpd ▸ h.httpd
  quiet := k.game ▸ h.quiet
  pending := by
    rw [k.log, k.mem, k.game]
    exact h.pending

theorem settle_plain {t : GameTask Unit} (h : Prog.Always (Logs Out.Plain) t) (m : Mem) :
    ∀ o ∈ (t.settle m).2.2, o.Plain := Prog.Always.settle_log h m

/-- A segment after the switch. -/
theorem inTail_obeying {t : GameTask Unit} (honoured : Honoured s.log)
    (httpd : ∀ t, s.httpd = some t → Prog.Always Obeys t) (steady : Prog.Always Steady t)
    (pending : ∀ c, lastCommand s.log = some c → s.mem.game.state = c) :
    (s.inTail t).Obeying lim := by
  have log := honoured_append honoured (settle_plain (steady_plain steady) s.mem)
  have state := ((noAssignment_of_steady steady).leaves s.mem).1
  refine ⟨log.1, httpd, Prog.Always.settle steady s.mem, fun c last => ⟨?_, trivial⟩⟩
  exact state.trans (pending c (log.2 ▸ last))

/-- A segment of the switch that leaves the state while a command is pending. -/
theorem inSwitch_obeying {t : GameTask Unit} (honoured : Honoured s.log)
    (httpd : ∀ t, s.httpd = some t → Prog.Always Obeys t) (quiet : Prog.Always (Logs Out.Plain) t)
    (pending : ∀ c, lastCommand s.log = some c → s.mem.game.state = c ∧ Leaves t s.mem) :
    (s.inSwitch t).Obeying lim := by
  have log := honoured_append honoured (settle_plain quiet s.mem)
  have after : ∀ c, lastCommand (s.log ++ (t.settle s.mem).2.2) = some c →
      (t.settle s.mem).2.1.game.state = c ∧ NoAssignment (t.settle s.mem).1 := by
    intro c last
    obtain ⟨state, leaves⟩ := pending c (log.2 ▸ last)
    exact ⟨leaves.1.trans state, leaves.2⟩
  simp only [inSwitch]
  split
  · exact inTail_obeying log.1 httpd loopTail_steady fun c last => (after c last).1
  · refine ⟨log.1, httpd, Prog.Always.settle quiet s.mem, fun c last => ?_⟩
    exact ⟨(after c last).1, .inl (after c last).2⟩

theorem Obeying.game_step (h : s.Obeying lim) (hok : s.CommandsMeet lim .game)
    (hstep : s.stepGame lim = some s') : s'.Obeying lim := by
  unfold stepGame at hstep
  split at hstep
  · rename_i a tail
    cases hstep
    have no_command : lastCommand (s.log ++ [.dispatch s.mem.game.state]) = none :=
      lastCommand_concat _ _
    have honoured : Honoured (s.log ++ [.dispatch s.mem.game.state]) := by
      apply honoured_concat h.honoured
      rintro v c ⟨⟩ last
      exact (h.pending c last).1
    apply inSwitch_obeying (s := { s with log := s.log ++ [.dispatch s.mem.game.state] })
      honoured h.httpd (gameSwitch_plain lim _)
    intro c last
    exact absurd (no_command.symm.trans last) (by simp)
  · rename_i c k tail
    obtain ⟨⟨a, s₁⟩, answered, rfl⟩ := Option.map_eq_some_iff.mp hstep
    have keeps := answerGame_keeps answered
    have quiet := h.quiet
    rw [tail] at quiet
    apply inTail_obeying (keeps.log ▸ h.honoured) (keeps.httpd ▸ h.httpd) (quiet a)
    rw [keeps.log, keeps.mem]
    exact fun c last => (h.pending c last).1
  · rename_i c k case
    obtain ⟨⟨a, s₁⟩, answered, rfl⟩ := Option.map_eq_some_iff.mp hstep
    have keeps := answerGame_keeps answered
    have quiet := h.quiet
    rw [case] at quiet
    apply inSwitch_obeying (keeps.log ▸ h.honoured) (keeps.httpd ▸ h.httpd) (quiet a)
    rw [keeps.log, keeps.mem]
    intro cmd last
    obtain ⟨state, safe⟩ := h.pending cmd last
    refine ⟨state, ?_⟩
    obtain ⟨message, move⟩ := hok cmd last
    rw [case] at safe message move
    rcases safe with none | player | opponent | ⟨gameOver, rfl⟩
    · exact NoAssignment.leaves (none a) _
    · cases player
      simp only [answerGame] at answered
      split at answered
      · cases answered
        exact ⟨rfl, trivial⟩
      · rename_i msg rest queue
        cases answered
        exact leaves_message (message rfl msg rest queue)
    · cases opponent
      exact leaves_opponentMove (move rfl)
    · cases gameOver
      exact ⟨state.symm, trivial⟩
  · cases hstep

theorem Obeying.httpd_step (h : s.Obeying lim) (hok : s.CommandsMeet lim .httpd)
    (hstep : s.stepHttpd = some s') : s'.Obeying lim := by
  unfold stepHttpd at hstep
  split at hstep
  · cases hstep
    exact ⟨h.honoured, by simp, h.quiet, h.pending⟩
  · rename_i f k running
    cases hstep
    obtain ⟨now, later⟩ := h.httpd _ running s.mem
    have rest : ∀ t, some (k s.mem) = some t → Prog.Always Obeys t := by
      rintro t ⟨⟩
      exact later
    rcases now with ⟨state, shown⟩ | ⟨c, command, state⟩
    · have log := honoured_append h.honoured fun o ho => (shown o ho).shown.plain
      refine ⟨log.1, rest, h.quiet, fun c last => ?_⟩
      obtain ⟨before, safe⟩ := h.pending c (log.2 ▸ last)
      exact ⟨state.trans before, safe⟩
    · refine ⟨?_, rest, h.quiet, fun c' last => ?_⟩
      · simp only [command]
        exact honoured_concat h.honoured nofun
      · simp only [command, lastCommand_concat, Option.some.injEq] at last
        subst last
        exact ⟨state, hok c ⟨f, k, running, by simp [command]⟩⟩
  · rename_i c k running
    obtain ⟨⟨a, s₁⟩, answered, rfl⟩ := Option.map_eq_some_iff.mp hstep
    have kept := h.of_keepsGame (answerGame_keeps answered)
    refine ⟨kept.honoured, ?_, kept.quiet, kept.pending⟩
    rintro t ⟨⟩
    exact h.httpd _ running a
  · cases hstep

theorem Obeying.step {a : Act} (h : s.Obeying lim) (hok : s.CommandsMeet lim a)
    (hstep : s.step lim a = some s') : s'.Obeying lim := by
  cases a with
  | game => exact h.game_step hok hstep
  | httpd => exact h.httpd_step hok hstep
  | request r =>
      simp only [Firmware.step] at hstep
      split at hstep
      · cases hstep
        refine ⟨h.honoured, ?_, h.quiet, h.pending⟩
        rintro t ⟨⟩
        exact handle_obeys r
      · cases hstep
  | _ => exact h.of_keepsGame (step_keepsGame hstep (by simp) (by simp) (by simp))

/-- In runs in which every web command is written at a safe place, the game task
dispatches on it. -/
theorem commands_honoured (h : Reaches (Firmware.step lim) (CommandsMeet lim) (Start lim) s) :
    Honoured s.log := by
  have obeying : s.Obeying lim := by
    apply h.invariant
    · exact fun t start => start.obeying
    · exact fun t a t' ih hok hstep => Obeying.step ih hok hstep
  exact obeying.honoured

def inTailPhase : Phase → Bool
  | .inTail _ => true
  | .inSwitch _ => false

/-- Handlers act, and a pending command waits, only while the game task is past its
switch. -/
def PastSwitch (s : Firmware) : Act → Prop
  | .httpd => inTailPhase s.game = true
  | .game => lastCommand s.log = none ∨ inTailPhase s.game = true
  | _ => True

instance (s : Firmware) : ∀ a, Decidable (s.PastSwitch a)
  | .httpd => inferInstanceAs (Decidable (_ = _))
  | .game => inferInstanceAs (Decidable (_ ∨ _))
  | .request _ => .isTrue trivial
  | .sender => .isTrue trivial
  | .receiver => .isTrue trivial
  | .frameArrives _ _ => .isTrue trivial
  | .sendFlag _ => .isTrue trivial

theorem PastSwitch.commandsMeet {a : Act} (h : s.PastSwitch a) : s.CommandsMeet lim a := by
  cases a with
  | httpd =>
      intro c _
      have tail : inTailPhase s.game = true := h
      cases game : s.game with
      | inTail t => trivial
      | inSwitch t =>
          rw [game] at tail
          cases tail
  | game =>
      intro c last
      rcases h with none | tail
      · cases last.symm.trans none
      · constructor <;> intro game <;> rw [game] at tail <;> cases tail
  | _ => trivial

/-- A restart is written in the pause after `Game_Init`, and the ships are taken off. -/
def honouredRun : List Act :=
  List.replicate 3 .game ++ [.request (.wsMessage .restart)] ++ List.replicate 3 .httpd ++
    List.replicate 3 .game

theorem commands_honoured_restart : ∃ s : Firmware,
    s.log = [.dispatch .init, .command .gameRestart, .dispatch .gameRestart] ∧
      Honoured s.log := by
  have run : (runList (Firmware.step ⟨0, none⟩) (boot ⟨0, none⟩) honouredRun).any (fun s =>
      s.log = [.dispatch .init, .command .gameRestart, .dispatch .gameRestart]) = true := by
    decide +kernel
  have meets : Meets (Firmware.step ⟨0, none⟩) PastSwitch (boot ⟨0, none⟩) honouredRun := by
    decide +kernel
  obtain ⟨s, reached, log⟩ := exists_reaches_of_meets (boot_start _) meets run
  exact ⟨s, of_decide_eq_true log,
    commands_honoured (reached.imp fun _ _ ok => ok.commandsMeet)⟩

/-- A restart is written while `Game_Init` waits, and `WEB_INIT` is assigned
over it. -/
def restartRun : List Act :=
  List.replicate 2 .game ++ [.request (.wsMessage .restart)] ++ List.replicate 3 .httpd ++
    List.replicate 4 .game

theorem restart_lost : ∃ s, Reaches (Firmware.step ⟨0, none⟩) (fun _ _ => True)
    (Start ⟨0, none⟩) s ∧ ¬Honoured s.log := by
  have run : (runList (Firmware.step ⟨0, none⟩) (boot ⟨0, none⟩) restartRun).any
      (fun s => decide (s.log = [.dispatch .init, .command .gameRestart, .dispatch .webInit])) =
      true := by decide +kernel
  obtain ⟨s, reached, log⟩ := exists_reaches (boot_start _) run
  refine ⟨s, reached, fun honoured => ?_⟩
  have same := honoured [.dispatch .init, .command .gameRestart] [] .webInit .gameRestart
    (of_decide_eq_true log) rfl
  cases same

end Firmware
end Battleship
