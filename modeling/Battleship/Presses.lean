import Battleship.Calls
import Battleship.Delivery
import Battleship.Effects
import Battleship.Lib.Conduit
import Battleship.Phases

/-!
# From the button to the guess

A frame of type BUTTON becomes a message of the receive queue, and the message a
guess on the opponent's board. In every interleaving each press takes this way
once, in order, and the opponent's board is guessed at for no other reason.
-/
namespace Battleship
open Cooperative Runs

/-- A guess on the opponent's board. -/
def Out.shot : Out → Option Coordinate
  | .guess .opponent row col => some ⟨row, col⟩
  | _ => none

/-- The cell a message asks for, if it is a press. -/
def IoMessage.press (msg : IoMessage) : Option Coordinate :=
  if msg.isType "BUTTON" then some (buttonCoordinate msg) else none

/-- The cell a frame asks for; the pipe it came by does not matter. -/
def pressOf (raw : Frame) : Option Coordinate := (messageOf raw 0).press

theorem messageOf_press (raw : Frame) (pipe : UInt8) : (messageOf raw pipe).press = pressOf raw := rfl

theorem pressOf_ping {raw : Frame} {pipe : UInt8} (ping : (messageOf raw pipe).isType "PING" = true) :
    pressOf raw = none := by
  have other : ¬(messageOf raw 0).isType "BUTTON" = true := by
    intro button
    have pings : typeBytes "PING" = typeBytes "BUTTON" :=
      (of_decide_eq_true ping).symm.trans (of_decide_eq_true button)
    revert pings
    decide +kernel
  rw [pressOf, IoMessage.press, if_neg other]

/-- A received press has to be logged as a guess. -/
def owedPress : ∀ c : Call, c.Ans → List Coordinate
  | .queueReceive, some msg => msg.press.toList
  | _, _ => []

section Programs
variable {α : Type}

/-- Logs the guesses that are due, and one for each press it receives. -/
abbrev Passes (due : List Coordinate) (t : GameTask α) : Prop := Prog.Pays Out.shot owedPress due t

theorem shown_shot {o : Out} (h : o.Shown) : o.shot = none := by
  cases o with
  | guess target row col => exact h.elim
  | _ => rfl

theorem obeys_shot {m : Mem} {r : Mem × List Out} (h : Obeys m r) : ∀ o ∈ r.2, o.shot = none := by
  intro o ho
  rcases h with steady | ⟨c, eq, -⟩
  · exact shown_shot (steady.2 o ho).shown
  · rw [eq, List.mem_singleton] at ho
    rw [ho]
    rfl

/-- Every call but the receive. -/
def Call.Free (c : Call) : Prop := ∀ a, owedPress c a = []

theorem free_calls : GameCalls Call.Free where
  delay _ _ _ := rfl
  led _ _ := rfl
  sound _ _ := rfl
  robot _ _ _ _ _ _ := rfl

theorem passes_nil {t : GameTask α} (shown : Prog.Always (Logs Out.Shown) t)
    (free : Prog.Asks Call.Free t) : Passes [] t :=
  Prog.pays_nil (shown.mono fun _ _ shown o ho => shown_shot (shown o ho)) free

/-- Guesses nowhere and takes nothing off the queue. -/
structure Silent (t : GameTask α) : Prop where
  log : Prog.Always (fun _ r => ∀ o ∈ r.2, o.shot = none) t
  calls : Prog.Asks Call.Free t

theorem handle_silent (r : Request) : Silent (handle r) :=
  ⟨(handle_obeys r).mono fun _ _ obeys => obeys_shot obeys, handle_asks free_calls.places r⟩

theorem loopTail_passes : Passes [] loopTail :=
  passes_nil (steady_shown loopTail_steady) (loopTail_asks free_calls)

/-- The guess is logged before anything else happens. -/
theorem applyGuess_passes (row col : Int) : Passes [⟨row, col⟩] (applyGuess .opponent row col) := by
  have logs : Passes [⟨row, col⟩] (Prog.emit (.guess .opponent row col) : GameTask Unit) :=
    Prog.pays_emit rfl
  apply logs.bind
  intro _
  apply Prog.Pays.bind
  · apply Prog.pays_nil _ (tryModify_asks _)
    exact Prog.always_tryModify (fun _ _ ho => absurd ho List.not_mem_nil)
      fun _ _ _ _ ho => absurd ho List.not_mem_nil
  rintro ⟨result, sunk⟩
  apply Prog.Pays.bind (passes_nil (steady_shown (showSunk_steady _ _))
    (showSunk_asks free_calls.toRobotCalls _ _))
  intro _
  apply Prog.Pays.bind
  · apply Prog.pays_nil _ (write_asks _ _)
    apply Prog.always_write
    intro m o ho
    rw [List.mem_singleton.mp ho]
    rfl
  · exact fun _ => rfl

theorem waitingForPlayerCase_passes : Passes [] waitingForPlayerCase := by
  rw [waitingForPlayerCase]
  simp only [Prog.sys, Prog.call_bind, Prog.ret_bind]
  refine ⟨rfl, fun msg => ?_⟩
  cases msg with
  | none => rfl
  | some msg =>
      have owed : owedPress .queueReceive (some msg) = msg.press.toList := rfl
      rw [owed, IoMessage.press]
      by_cases button : msg.isType "BUTTON" = true
      · simp only [if_pos button]
        apply Prog.Pays.bind (applyGuess_passes _ _)
        intro result
        split
        · rfl
        · exact passes_nil (playerMoved_shown result) (playerMoved_asks free_calls.toRobotCalls result)
      · simp only [if_neg button]
        rfl

theorem gameSwitch_passes (lim : Limits) (v : GameState) : Passes [] (gameSwitch lim v) := by
  by_cases waiting : v = .waitingForPlayer
  · rw [waiting]
    exact waitingForPlayerCase_passes
  · apply Prog.pays_nil
    · have covers : Out.Covers (fun o => o.shot = none) :=
        ⟨fun _ shown => shown_shot shown, fun _ _ => rfl⟩
      exact gameSwitch_logs covers (fun _ _ => rfl) lim fun eq => absurd eq waiting
    · apply gameSwitch_asks free_calls lim
      intro c opens
      cases c with
      | queueSend m => cases opens
      | delay ms => exact fun _ => rfl
      | queueReceive =>
          cases opens
          exact absurd rfl waiting

end Programs

namespace Firmware

/-- The guesses made and the presses still queued are those of the frames handed
on; a message in hand still has the press of its frame. -/
structure PressesKept (s : Firmware) (p : RecvPoint) : Prop where
  tasks : s.AtPoint p
  game : Passes [] s.rest
  httpd : ∀ t, s.httpd = some t → Silent t
  inHand : ∀ raw msg, p = .put raw msg → msg.press = pressOf raw
  account : s.log.filterMap Out.shot ++ s.receiveQueue.filterMap IoMessage.press =
    (handed s.radioLog).filterMap pressOf

theorem Start.pressesKept {lim : Limits} {s : Firmware} (h : Start lim s) : s.PressesKept .wait where
  tasks := h.atPoint
  game := by
    rw [rest, h.game]
    rfl
  httpd := by simp [h.httpd]
  inHand := nofun
  account := by simp [h.log, h.receiveQueue, h.radioLog, handed]

variable {s s' : Firmware} {p : RecvPoint} {lim : Limits}

/-- What is answered to a call leaves the queue as a debt of the caller. -/
theorem answerGame_owes {c : Call} {a : c.Ans} {s₁ : Firmware} (h : s.answerGame c = some (a, s₁)) :
    s.receiveQueue.filterMap IoMessage.press =
      owedPress c a ++ s₁.receiveQueue.filterMap IoMessage.press := by
  cases c with
  | queueSend m =>
      simp only [answerGame] at h
      split at h
      · cases h
        rfl
      · cases h
  | queueReceive =>
      simp only [answerGame] at h
      split at h
      · rename_i empty
        cases h
        rw [empty]
        rfl
      · rename_i msg later queue
        cases h
        rw [queue]
        cases press : msg.press with
        | none => simp [owedPress, press]
        | some c => simp [owedPress, press]
  | delay ms =>
      cases h
      rfl

theorem inSwitch_receiveQueue (s : Firmware) (t : GameTask Unit) :
    (s.inSwitch t).receiveQueue = s.receiveQueue := by
  rcases inSwitch_cases s t with ⟨-, shape⟩ | ⟨-, shape⟩
  · rw [shape]
    rfl
  · rw [shape]

/-- A segment of the switch logs what it owes. -/
theorem inSwitch_passes {t : GameTask Unit} {due : List Coordinate} (h : Passes due t) :
    Passes [] (s.inSwitch t).rest ∧
      (s.inSwitch t).log.filterMap Out.shot = s.log.filterMap Out.shot ++ due := by
  obtain ⟨logged, later⟩ := h.settle s.mem
  rcases inSwitch_cases s t with ⟨-, shape⟩ | ⟨-, shape⟩
  · obtain ⟨nothing, tail⟩ := loopTail_passes.settle (t.settle s.mem).2.1
    rw [shape]
    refine ⟨tail, ?_⟩
    simp only [inTail, settleGame, List.filterMap_append, logged, nothing, List.append_nil]
  · rw [shape]
    refine ⟨later, ?_⟩
    simp only [List.filterMap_append, logged]

theorem inTail_passes {t : GameTask Unit} {due : List Coordinate} (h : Passes due t) :
    Passes [] (s.inTail t).rest ∧
      (s.inTail t).log.filterMap Out.shot = s.log.filterMap Out.shot ++ due := by
  obtain ⟨logged, later⟩ := h.settle s.mem
  refine ⟨later, ?_⟩
  simp only [inTail, settleGame, List.filterMap_append, logged]

/-- The game task guesses what it takes off the queue. -/
theorem stepGame_passes (game : Passes [] s.rest) (h : s.stepGame lim = some s') :
    Passes [] s'.rest ∧
      s'.log.filterMap Out.shot ++ s'.receiveQueue.filterMap IoMessage.press =
        s.log.filterMap Out.shot ++ s.receiveQueue.filterMap IoMessage.press := by
  unfold stepGame at h
  split at h
  · cases h
    have passes := gameSwitch_passes lim s.mem.game.state
    obtain ⟨later, logged⟩ :=
      inSwitch_passes (s := { s with log := s.log ++ [.dispatch s.mem.game.state] }) passes
    refine ⟨later, ?_⟩
    rw [dispatch, logged, inSwitch_receiveQueue]
    simp [Out.shot]
  · rename_i c k tail
    obtain ⟨⟨a, s₁⟩, answered, rfl⟩ := Option.map_eq_some_iff.mp h
    have pays : Passes (owedPress c a) (k a) := by
      rw [rest, tail] at game
      exact game.2 a
    obtain ⟨later, logged⟩ := inTail_passes (s := s₁) pays
    refine ⟨later, ?_⟩
    rw [logged, (answerGame_keeps answered).log, answerGame_owes answered, List.append_assoc]
    rfl
  · rename_i c k case
    obtain ⟨⟨a, s₁⟩, answered, rfl⟩ := Option.map_eq_some_iff.mp h
    have pays : Passes (owedPress c a) (k a) := by
      rw [rest, case] at game
      exact game.2 a
    obtain ⟨later, logged⟩ := inSwitch_passes (s := s₁) pays
    refine ⟨later, ?_⟩
    rw [inSwitch_receiveQueue, logged, (answerGame_keeps answered).log, answerGame_owes answered,
      List.append_assoc]
  · cases h

theorem stepHttpd_silent (httpd : ∀ t, s.httpd = some t → Silent t) (h : s.stepHttpd = some s') :
    (∀ t, s'.httpd = some t → Silent t) ∧
      s'.log.filterMap Out.shot ++ s'.receiveQueue.filterMap IoMessage.press =
        s.log.filterMap Out.shot ++ s.receiveQueue.filterMap IoMessage.press := by
  unfold stepHttpd at h
  split at h
  · cases h
    exact ⟨nofun, rfl⟩
  · rename_i f k at_step
    cases h
    obtain ⟨log, calls⟩ := httpd _ at_step
    refine ⟨fun t eq => ?_, ?_⟩
    · cases eq
      exact ⟨(log s.mem).2, calls s.mem⟩
    · have nothing := List.filterMap_eq_nil_iff.mpr (log s.mem).1
      simp only [List.filterMap_append, nothing, List.append_nil]
  · rename_i c k at_call
    obtain ⟨⟨a, s₁⟩, answered, rfl⟩ := Option.map_eq_some_iff.mp h
    obtain ⟨log, calls⟩ := httpd _ at_call
    refine ⟨fun t eq => ?_, ?_⟩
    · cases eq
      exact ⟨log a, calls.2 a⟩
    · rw [answerGame_owes answered, calls.1 a, (answerGame_keeps answered).log]
      rfl
  · cases h

/-- The receive task appends the press of each frame it hands on. -/
theorem PressesKept.receiver_step (h : s.PressesKept p) (hstep : s.stepReceiver = some s') :
    ∃ p', s'.PressesKept p' := by
  have game := stepReceiver_keepsGame hstep
  obtain ⟨p', s₁, move, rfl, at_p⟩ := h.tasks.receiver_step hstep
  refine ⟨p', at_p, ?_, ?_, ?_, ?_⟩
  · rw [rest_of_game game.game]
    exact h.game
  · rw [game.httpd]
    exact h.httpd
  · intro raw msg at_put
    cases recvMove_cases move with
    | kept raw' other =>
        cases at_put
        exact messageOf_press raw _
    | _ => cases at_put
  · rw [game.log]
    cases recvMove_cases move with
    | answered raw ping =>
        simpa [handed, RadioOut.frame, pressOf_ping ping, setChip] using h.account
    | handedOn raw msg room =>
        have account := h.account
        simp only [handed, List.filterMap_append, ← List.append_assoc] at account ⊢
        rw [account]
        simp [RadioOut.frame, List.filterMap_cons, h.inHand raw msg rfl]
    | _ => exact h.account

theorem PressesKept.of_keepsGame (h : s.PressesKept p) (game : KeepsGame s s') (tasks : s'.AtPoint p)
    (receiveQueue : s'.receiveQueue = s.receiveQueue)
    (radioLog : handed s'.radioLog = handed s.radioLog) : s'.PressesKept p where
  tasks := tasks
  game := by
    rw [rest_of_game game.game]
    exact h.game
  httpd := by
    rw [game.httpd]
    exact h.httpd
  inHand := h.inHand
  account := by
    rw [game.log, receiveQueue, radioLog]
    exact h.account

theorem PressesKept.step {a : Act} (h : s.PressesKept p) (hstep : s.step lim a = some s') :
    ∃ p', s'.PressesKept p' := by
  cases a with
  | game =>
      have radio := stepGame_keepsRadio hstep
      obtain ⟨later, account⟩ := stepGame_passes h.game hstep
      refine ⟨p, h.tasks.of_keepsRadio radio, later, ?_, h.inHand, ?_⟩
      · rw [stepGame_httpd hstep]
        exact h.httpd
      · rw [account, radio.radioLog]
        exact h.account
  | httpd =>
      have radio := stepHttpd_keepsRadio hstep
      obtain ⟨later, account⟩ := stepHttpd_silent h.httpd hstep
      refine ⟨p, h.tasks.of_keepsRadio radio, ?_, later, h.inHand, ?_⟩
      · rw [rest_of_game (stepHttpd_game hstep)]
        exact h.game
      · rw [account, radio.radioLog]
        exact h.account
  | request r =>
      have radio := request_keepsRadio hstep
      simp only [Firmware.step] at hstep
      split at hstep
      · cases hstep
        refine ⟨p, h.tasks.of_keepsRadio radio, h.game, fun t eq => ?_, h.inHand, h.account⟩
        cases eq
        exact handle_silent r
      · cases hstep
  | sender =>
      obtain ⟨move, at_p⟩ := h.tasks.sender_step hstep
      obtain ⟨out, radioLog, of_sender⟩ := move.radioLog
      refine ⟨p, h.of_keepsGame (stepSender_keepsGame hstep) at_p move.receiveQueue ?_⟩
      rw [radioLog, handed, List.filterMap_append]
      exact (congrArg _ (handed_of_sender of_sender)).trans (List.append_nil _)
  | receiver => exact h.receiver_step hstep
  | frameArrives pipe f =>
      cases hstep
      have at_p := h.tasks.of_setChip (s.chip.receive pipe f)
      exact ⟨p, h.of_keepsGame ⟨rfl, rfl, rfl, rfl⟩ ⟨at_p.sender, at_p.receiver, at_p.mutex⟩ rfl rfl⟩
  | sendFlag success =>
      cases hstep
      exact ⟨p, h.of_keepsGame ⟨rfl, rfl, rfl, rfl⟩ (h.tasks.of_setChip _) rfl rfl⟩

theorem reaches_pressesKept {ok : Firmware → Act → Prop}
    (h : Reaches (Firmware.step lim) ok (Start lim) s) : ∃ p, s.PressesKept p := by
  apply h.invariant
  · exact fun t start => ⟨.wait, start.pressesKept⟩
  · rintro t a t' ⟨p, ih⟩ - hstep
    exact ih.step hstep

/-- However the tasks interleave, the guesses on the opponent's board and the
presses in the queue are, in order, the presses of the frames handed on. -/
theorem presses_become_guesses (h : Reaches (Firmware.step lim) (fun _ _ => True) (Start lim) s) :
    s.log.filterMap Out.shot ++ s.receiveQueue.filterMap IoMessage.press =
      (handed s.radioLog).filterMap pressOf := by
  obtain ⟨p, kept⟩ := reaches_pressesKept h
  exact kept.account

/-- A press of the button at column 1 and row 2, and one that the task hands on. -/
def pressFrame : Frame := frameOf ⟨0, messageTypeOf "BUTTON", payloadOf [1, 2], 24⟩

def pressRun : List Act := .frameArrives 1 pressFrame :: List.replicate 8 .receiver

theorem presses_become_guesses_press :
    ∃ s : Firmware, s.receiveQueue.filterMap IoMessage.press = [⟨2, 3⟩] ∧
      s.log.filterMap Out.shot ++ s.receiveQueue.filterMap IoMessage.press =
        (handed s.radioLog).filterMap pressOf := by
  have run : (runList (Firmware.step ⟨0, none⟩) (boot ⟨0, none⟩) pressRun).any
      (fun s => decide (s.receiveQueue.filterMap IoMessage.press = [⟨2, 3⟩])) = true := by
    decide +kernel
  obtain ⟨s, reached, queued⟩ := exists_reaches (boot_start _) run
  exact ⟨s, of_decide_eq_true queued, presses_become_guesses reached⟩

/-- Where arrivals, events and flags meet, no press that came over the air is
lost: while the receive task idles, each is a guess or still in the queue. -/
theorem no_press_lost (h : Reaches (Firmware.step lim) FramesMeet (Start lim) s) (idle : s.Idle) :
    s.log.filterMap Out.shot ++ s.receiveQueue.filterMap IoMessage.press =
      s.arrived.filterMap pressOf := by
  obtain ⟨p, kept⟩ := reaches_pressesKept h
  have attended : ∃ p, s.Attended p := by
    apply h.invariant
    · exact fun t start => ⟨.wait, start.attended⟩
    · rintro t a t' ⟨p, ih⟩ hok hstep
      exact ih.step hok hstep
  obtain ⟨p', attended⟩ := attended
  rw [← attended.noneLeftBehind.all idle]
  exact kept.account

theorem no_press_lost_press :
    ∃ s : Firmware, s.Idle ∧ s.arrived.filterMap pressOf = [⟨2, 3⟩] ∧
      s.log.filterMap Out.shot ++ s.receiveQueue.filterMap IoMessage.press =
        s.arrived.filterMap pressOf := by
  have meets : Meets (Firmware.step ⟨0, none⟩) Undisturbed (boot ⟨0, none⟩) pressRun := by
    decide +kernel
  have run : (runList (Firmware.step ⟨0, none⟩) (boot ⟨0, none⟩) pressRun).any
      (fun s => decide (s.Idle ∧ s.arrived.filterMap pressOf = [⟨2, 3⟩])) = true := by
    decide +kernel
  obtain ⟨s, reached, check⟩ := exists_reaches_of_meets (boot_start _) meets run
  obtain ⟨idle, arrived⟩ := of_decide_eq_true check
  exact ⟨s, idle, arrived, no_press_lost (reached.imp fun _ _ ok => ok.framesMeet) idle⟩

end Firmware
end Battleship
