import Battleship.Calls
import Battleship.Phases
import Battleship.Radio
import Battleship.Transmitter

/-!
# From the send queue to the air

The firmware together with the transmit side of its chip. In every interleaving
each message that the game task or a handler queues goes on the air once, in
order, and to the address of its slave.
-/
namespace Battleship
open Cooperative Runs

/-- The message a call puts into the send queue. -/
def Call.sent : Call → List IoMessage
  | .queueSend m => [m]
  | .queueReceive => []
  | .delay _ => []

/-- LED rows for slave 3, a sound or a robot command for slave 4. -/
def IoMessage.Dispatched (m : IoMessage) : Prop :=
  (∃ leds, m = ledMessage 3 leds) ∨ (∃ soundId, m = soundCommand 4 soundId) ∨
    ∃ shipId row col notVertical notPlace, m = robotCommand 4 shipId row col notVertical notPlace

namespace Firmware

/-- The messages a step puts into the send queue. -/
def puts (s : Firmware) : Act → List IoMessage
  | .game => (s.rest.pending.map Call.sent).getD []
  | .httpd => ((s.httpd.bind Prog.pending).map Call.sent).getD []
  | _ => []

/-- The transaction a task makes. -/
def transaction (t : RadioTask Unit) : Option ChipOp :=
  match t.pending with
  | some (.chip op) => some op
  | _ => none

/-- What a step of the firmware does to the transmit side. -/
def transmit (s : Firmware) (t : Transmitter) : Act → Transmitter
  | .sender => ((transaction s.sender).map t.perform).getD t
  | .receiver => ((transaction s.receiver).map t.perform).getD t
  | .sendFlag success => t.ended success
  | _ => t

end Firmware

/-- The firmware, the transmit side of the chip, and all messages queued so far. -/
structure Posting where
  fw : Firmware
  tx : Transmitter
  queued : List IoMessage

namespace Posting

def step (lim : Limits) (w : Posting) (a : Act) : Option Posting :=
  (w.fw.step lim a).map fun fw => ⟨fw, w.fw.transmit w.tx a, w.queued ++ w.fw.puts a⟩

/-- The chip receives, and nothing has been sent. -/
structure Start (lim : Limits) (w : Posting) : Prop where
  fw : Firmware.Start lim w.fw
  fifo : w.tx.fifo = []
  aired : w.tx.aired = []
  queued : w.queued = w.fw.sendQueue

/-- Whether the send task waits for the next message. -/
def waits (w : Posting) : Bool := w.fw.sender.pending.any fun c =>
  match c with
  | .takeMessage => true
  | _ => false

/-- What was queued is what the send task has taken and what it has yet to take. -/
structure Kept (w : Posting) (p : RecvPoint) (taken : List Airing) : Prop where
  tasks : w.fw.AtPoint p
  sender : ∀ n, Prog.wp posting (fun _ => True) w.fw.sender (fun _ e => Aired e.2) (n, ⟨w.tx, taken⟩)
  sound : Accounted ⟨w.tx, taken⟩
  account : w.queued.map airingOf = taken ++ w.fw.sendQueue.map airingOf

theorem Start.kept {lim : Limits} {w : Posting} (h : Start lim w) : w.Kept .wait [] where
  tasks := h.fw.atPoint
  sender n := by
    rw [h.fw.sender]
    exact ioSendTask_airs lim.fuel n ⟨w.tx, []⟩ ⟨h.aired, by simp [h.fifo]⟩
  sound := ⟨⟨[], Nat.zero_le 1, by rw [h.aired, List.append_nil]⟩, by simp [h.fifo]⟩
  account := by rw [h.queued, List.nil_append]

variable {w w' : Posting} {p : RecvPoint} {taken : List Airing} {lim : Limits} {s s' : Firmware}

theorem answerGame_puts {c : Call} {a : c.Ans} {s₁ : Firmware} (h : s.answerGame c = some (a, s₁)) :
    s₁.sendQueue = s.sendQueue ++ c.sent := by
  cases c with
  | queueSend m =>
      simp only [Firmware.answerGame] at h
      split at h
      · cases h
        rfl
      · cases h
  | queueReceive =>
      simp only [Firmware.answerGame] at h
      split at h <;> cases h <;> exact (List.append_nil _).symm
  | delay ms =>
      cases h
      exact (List.append_nil _).symm

theorem inSwitch_sendQueue (s : Firmware) (t : GameTask Unit) :
    (s.inSwitch t).sendQueue = s.sendQueue := by
  rcases Firmware.inSwitch_cases s t with ⟨-, shape⟩ | ⟨-, shape⟩
  · rw [shape]
    rfl
  · rw [shape]

theorem stepGame_puts (h : s.stepGame lim = some s') : s'.sendQueue = s.sendQueue ++ s.puts .game := by
  unfold Firmware.stepGame at h
  split at h
  · rename_i head
    cases h
    rw [Firmware.dispatch, inSwitch_sendQueue]
    simp [Firmware.puts, Firmware.rest, head, Prog.pending]
  · rename_i c k tail
    obtain ⟨⟨a, s₁⟩, answered, rfl⟩ := Option.map_eq_some_iff.mp h
    have sent := answerGame_puts answered
    simp only [Firmware.puts, Firmware.rest, tail, Prog.pending_call, Option.map_some, Option.getD_some]
    exact sent
  · rename_i c k case
    obtain ⟨⟨a, s₁⟩, answered, rfl⟩ := Option.map_eq_some_iff.mp h
    rw [inSwitch_sendQueue]
    simp only [Firmware.puts, Firmware.rest, case, Prog.pending_call, Option.map_some, Option.getD_some]
    exact answerGame_puts answered
  · cases h

theorem stepHttpd_puts (h : s.stepHttpd = some s') : s'.sendQueue = s.sendQueue ++ s.puts .httpd := by
  unfold Firmware.stepHttpd at h
  split at h
  · rename_i a at_end
    cases h
    simp [Firmware.puts, at_end, Prog.pending]
  · rename_i f k at_step
    cases h
    simp [Firmware.puts, at_step, Prog.pending]
  · rename_i c k at_call
    obtain ⟨⟨a, s₁⟩, answered, rfl⟩ := Option.map_eq_some_iff.mp h
    simp only [Firmware.puts, at_call, Option.bind_some, Prog.pending_call, Option.map_some,
      Option.getD_some]
    exact answerGame_puts answered
  · cases h

/-- A step of the game side only lengthens the send queue. -/
theorem Kept.of_keepsRadio (h : w.Kept p taken) (radio : w.fw.KeepsRadio s') {sent : List IoMessage}
    (sendQueue : s'.sendQueue = w.fw.sendQueue ++ sent) :
    Kept ⟨s', w.tx, w.queued ++ sent⟩ p taken where
  tasks := h.tasks.of_keepsRadio radio
  sender := by
    simp only [radio.sender]
    exact h.sender
  sound := h.sound
  account := by
    simp only [sendQueue, List.map_append, h.account, List.append_assoc]

/-- What a task that waits may still do does not depend on a drift. -/
theorem wp_drift {t : RadioTask Unit} {n : Nrf} {tx tx' : Transmitter}
    (h : Prog.wp posting (fun _ => True) t (fun _ e => Aired e.2) (n, ⟨tx, taken⟩))
    (drift : tx.Drifts tx') :
    Prog.wp posting (fun _ => True) t (fun _ e => Aired e.2) (n, ⟨tx', taken⟩) := by
  induction t generalizing n with
  | ret a => exact aired.stable ⟨tx, taken⟩ tx' h drift
  | undefined => exact h
  | starved => trivial
  | step f k ih => exact ⟨h.1, ih n h.2⟩
  | call c k ih => exact posting_drifts h drift

/-- Where the task has run to, the driver's memory no longer matters. -/
theorem wp_posting_settle {t : RadioTask Unit} {n : Nrf} {e : Wire}
    (h : Prog.wp posting (fun _ => True) t (fun _ e => Aired e.2) (n, e)) (n' : Nrf) :
    Prog.wp posting (fun _ => True) (t.settle n).1 (fun _ e => Aired e.2) (n', e) := by
  refine Prog.wp_settle_stable (R := fun _ _ => True) ?_ (fun _ _ _ _ _ ended => ended) t h trivial
  intro c n n' e K _ asked
  exact posting_drifts asked (.refl e.tx)

theorem wp_posting_resume {body t : RadioTask Unit} {n : Nrf} {e : Wire} (hb : Brings aired body aired)
    (h : Prog.wp posting (fun _ => True) t (fun _ e => Aired e.2) (n, e)) :
    Prog.wp posting (fun _ => True) (Firmware.resume body t) (fun _ e => Aired e.2) (n, e) := by
  cases t with
  | ret a => exact hb n e h
  | undefined => exact h
  | starved => exact h
  | step f k => exact h
  | call c k => exact h

/-- What a call does to the transmit side. -/
def afterCall (tx : Transmitter) : RadioCall → Transmitter
  | .chip op => tx.perform op
  | _ => tx

theorem transmit_sender {c : RadioCall} {k : c.Ans → RadioTask Unit} (tx : Transmitter)
    (at_call : s.sender = .call c k) : s.transmit tx .sender = afterCall tx c := by
  cases c <;> simp [Firmware.transmit, Firmware.transaction, at_call, afterCall]

/-- An answered call moves the account by what it takes off the queue. -/
theorem answerRadio_posts {c : RadioCall} {k : c.Ans → RadioTask Unit} {a : c.Ans} {s₁ : Firmware}
    {tx : Transmitter} (sound : Accounted ⟨tx, taken⟩) (at_call : s.sender = .call c k)
    (h : ∀ n, posting c (n, ⟨tx, taken⟩)
      (fun a e => Prog.wp posting (fun _ => True) (k a) (fun _ e => Aired e.2) e))
    (answered : s.answerRadio .sender c = some (a, s₁)) :
    ∃ taken', (∀ n, Prog.wp posting (fun _ => True) (k a) (fun _ e => Aired e.2)
        (n, ⟨s.transmit tx .sender, taken'⟩)) ∧
      Accounted ⟨s.transmit tx .sender, taken'⟩ ∧
      taken' ++ s₁.sendQueue.map airingOf = taken ++ s.sendQueue.map airingOf := by
  have asked := h ⟨false, 0, 0⟩ tx (.refl tx)
  rw [transmit_sender tx at_call]
  cases c with
  | takeMessage =>
      simp only [Firmware.answerRadio] at answered
      split at answered
      · cases answered
      · rename_i queue
        cases answered
        refine ⟨taken ++ [airingOf a], asked.2 a, ⟨⟨[airingOf a], le_rfl, ?_⟩, sound.single⟩, ?_⟩
        · exact congrArg (fun l => l ++ [airingOf a]) asked.1
        · simp [queue]
  | takeIrq => exact asked.elim
  | takeMutex forever =>
      simp only [Firmware.answerRadio] at answered
      split_ifs at answered
      · cases answered
        exact ⟨taken, asked true, sound, rfl⟩
      · cases answered
        exact ⟨taken, asked false, sound, rfl⟩
  | giveMutex =>
      cases answered
      exact ⟨taken, asked, sound, rfl⟩
  | putMessage m => exact asked.elim
  | pause ms =>
      cases answered
      exact ⟨taken, asked, sound, rfl⟩
  | chip op =>
      cases answered
      exact ⟨taken, asked.2 _, asked.1, rfl⟩

theorem Kept.sender_step (h : w.Kept p taken) (hstep : w.fw.stepSender lim = some s') :
    ∃ taken', Kept ⟨s', w.fw.transmit w.tx .sender, w.queued⟩ p taken' := by
  obtain ⟨-, tasks⟩ := h.tasks.sender_step hstep
  obtain ⟨c, k, a, s₁, at_call, answered, rfl⟩ := Firmware.stepSender_cases hstep
  have asked := h.sender
  rw [at_call] at asked
  obtain ⟨taken', rest, sound, account⟩ := answerRadio_posts h.sound at_call asked answered
  refine ⟨taken', tasks, fun n => ?_, sound, h.account.trans account.symm⟩
  exact wp_posting_resume (ioSendTask_airs lim.fuel) (wp_posting_settle (rest s₁.nrf) n)

/-- No transaction of the receive task touches the transmit side. -/
theorem transmit_receiver (tasks : s.AtPoint p) (t : Transmitter) : s.transmit t .receiver = t := by
  have idle : ∀ op, Firmware.transaction s.receiver = some op → t.perform op = t := by
    intro op
    rw [tasks.receiver]
    cases p with
    | poll =>
        rintro ⟨⟩
        exact t.perform_idle rfl
    | read =>
        rintro ⟨⟩
        exact t.perform_idle rfl
    | clear raw =>
        rintro ⟨⟩
        exact t.perform_idle (t.write_regStatus _)
    | wait => rintro ⟨⟩
    | take => rintro ⟨⟩
    | put raw msg => rintro ⟨⟩
    | give => rintro ⟨⟩
    | pause => rintro ⟨⟩
  cases at_op : Firmware.transaction s.receiver with
  | none => simp [Firmware.transmit, at_op]
  | some op => simp [Firmware.transmit, at_op, idle op at_op]

theorem recvMove_sendQueue {p' : RecvPoint} (move : s.recvMove p = some (p', s')) :
    s'.sendQueue = s.sendQueue := by
  cases Firmware.recvMove_cases move <;> rfl

/-- A step of the others lets the transmitter drift at most. -/
theorem Kept.drifts (h : w.Kept p taken) {p' : RecvPoint} (tasks : s'.AtPoint p')
    (sender : s'.sender = w.fw.sender) (sendQueue : s'.sendQueue = w.fw.sendQueue) {tx : Transmitter}
    (drift : w.tx.Drifts tx) : Kept ⟨s', tx, w.queued ++ []⟩ p' taken where
  tasks := tasks
  sender n := by
    simp only [sender]
    exact wp_drift (h.sender n) drift
  sound := h.sound.drift drift
  account := by
    simp only [sendQueue, List.append_nil]
    exact h.account

theorem Kept.step {a : Act} (h : w.Kept p taken) (hstep : w.step lim a = some w') :
    ∃ p' taken', w'.Kept p' taken' := by
  obtain ⟨s', moves, rfl⟩ := Option.map_eq_some_iff.mp hstep
  cases a with
  | game =>
      exact ⟨p, taken, h.of_keepsRadio (Firmware.stepGame_keepsRadio moves) (stepGame_puts moves)⟩
  | httpd =>
      exact ⟨p, taken, h.of_keepsRadio (Firmware.stepHttpd_keepsRadio moves) (stepHttpd_puts moves)⟩
  | request r =>
      have radio := Firmware.request_keepsRadio moves
      simp only [Firmware.step] at moves
      split at moves
      · cases moves
        exact ⟨p, taken, h.of_keepsRadio radio (List.append_nil _).symm⟩
      · cases moves
  | sender =>
      obtain ⟨taken', kept⟩ := h.sender_step moves
      refine ⟨p, taken', ?_⟩
      simp only [Firmware.puts, List.append_nil]
      exact kept
  | receiver =>
      obtain ⟨p', s₁, move, rfl, tasks⟩ := h.tasks.receiver_step moves
      have sender := (Firmware.recvMove_mutex h.tasks.mutex move).1
      have sendQueue := recvMove_sendQueue move
      rw [transmit_receiver h.tasks]
      exact ⟨p', taken, h.drifts tasks sender sendQueue (.refl w.tx)⟩
  | frameArrives pipe f =>
      cases moves
      have tasks := h.tasks.of_setChip (w.fw.chip.receive pipe f)
      refine ⟨p, taken, ?_⟩
      apply h.drifts _ _ _ (.refl w.tx)
      · exact ⟨tasks.sender, tasks.receiver, tasks.mutex⟩
      · rfl
      · rfl
  | sendFlag success =>
      cases moves
      exact ⟨p, taken, h.drifts (h.tasks.of_setChip _) rfl rfl
        (Transmitter.ended_drifts h.sound.single success)⟩

theorem reaches_kept (h : Reaches (step lim) (fun _ _ => True) (Start lim) w) :
    ∃ p taken, w.Kept p taken := by
  apply h.invariant
  · exact fun v start => ⟨.wait, [], start.kept⟩
  · rintro v a v' ⟨p, taken, ih⟩ - hstep
    exact ih.step hstep

/-- However the tasks interleave, what has gone on the air, one message at most in
the hands of the send task, and what is still in the send queue are, in order, the
messages queued. -/
theorem queued_goes_on_air (h : Reaches (step lim) (fun _ _ => True) (Start lim) w) :
    ∃ hand : List Airing, hand.length ≤ 1 ∧ (w.waits = true → hand = []) ∧
      w.queued.map airingOf = w.tx.aired ++ hand ++ w.fw.sendQueue.map airingOf := by
  obtain ⟨p, taken, kept⟩ := reaches_kept h
  obtain ⟨hand, short, eq⟩ := kept.sound.hand
  have eq : w.tx.aired ++ hand = taken := eq
  refine ⟨hand, short, fun waits => ?_, by rw [kept.account, eq]⟩
  obtain ⟨c, pending, takes⟩ := (Option.any_eq_true _ _).mp waits
  obtain ⟨k, at_call⟩ := Prog.pending_eq_some pending
  have asked := kept.sender ⟨false, 0, 0⟩
  rw [at_call] at asked
  cases c with
  | takeMessage =>
      have all := (asked w.tx (.refl w.tx)).1
      exact List.append_cancel_left (eq.trans (all.symm.trans (List.append_nil w.tx.aired).symm))
  | _ => cases takes

/-- The firmware as it boots, with the chip set to receive. -/
def boot (lim : Limits) : Posting where
  fw := Firmware.boot lim
  tx := ⟨mirfConfig ||| pwrUp ||| primRx, [], [], true, [], []⟩
  queued := [ledMessage 3 ledMatrixInit]

theorem boot_start (lim : Limits) : Start lim (boot lim) where
  fw := Firmware.boot_start lim
  fifo := rfl
  aired := rfl
  queued := rfl

/-- The send task up to the edge of CE. -/
def firstSend : List Act := List.replicate 12 .sender

theorem firstSend_airs : (runList (step ⟨1, none⟩) (boot ⟨1, none⟩) firstSend).any
    (fun w => decide (w.tx.aired.length = 1)) = true := by decide +kernel

theorem queued_goes_on_air_first :
    ∃ w : Posting, w.tx.aired.length = 1 ∧ ∃ hand : List Airing, hand.length ≤ 1 ∧
      (w.waits = true → hand = []) ∧
      w.queued.map airingOf = w.tx.aired ++ hand ++ w.fw.sendQueue.map airingOf := by
  obtain ⟨w, reached, sent⟩ := exists_reaches (boot_start _) firstSend_airs
  exact ⟨w, of_decide_eq_true sent, queued_goes_on_air reached⟩

theorem dispatched_calls : GameCalls (fun c => ∀ m ∈ c.sent, m.Dispatched) where
  delay _ _ _ member := absurd member List.not_mem_nil
  led leds m member := by
    rw [List.mem_singleton.mp member]
    exact .inl ⟨leds, rfl⟩
  sound soundId m member := by
    rw [List.mem_singleton.mp member]
    exact .inr (.inl ⟨soundId, rfl⟩)
  robot _ _ _ _ _ m member := by
    rw [List.mem_singleton.mp member]
    exact .inr (.inr ⟨_, _, _, _, _, rfl⟩)

theorem opens_dispatched {c : Call} {v : GameState} (opens : c.opens = some v) :
    ∀ m ∈ c.sent, m.Dispatched := by
  cases c with
  | queueSend m => cases opens
  | _ => exact fun m member => absurd member List.not_mem_nil

/-- The game side will only queue messages of these kinds, and has only queued such. -/
structure Orderly (w : Posting) : Prop where
  game : Prog.Asks (fun c => ∀ m ∈ c.sent, m.Dispatched) w.fw.rest
  httpd : ∀ t, w.fw.httpd = some t → Prog.Asks (fun c => ∀ m ∈ c.sent, m.Dispatched) t
  queued : ∀ m ∈ w.queued, m.Dispatched

theorem Start.orderly (h : Start lim w) : w.Orderly where
  game := by
    rw [Firmware.rest, h.fw.game]
    trivial
  httpd := by simp [h.fw.httpd]
  queued := by
    rw [h.queued, h.fw.sendQueue]
    intro m member
    rw [List.mem_singleton.mp member]
    exact .inl ⟨ledMatrixInit, rfl⟩

theorem inSwitch_asks {P : Call → Prop} (tail : Prog.Asks P loopTail) {t : GameTask Unit}
    (h : Prog.Asks P t) : Prog.Asks P (s.inSwitch t).rest := by
  rcases Firmware.inSwitch_cases s t with ⟨-, shape⟩ | ⟨-, shape⟩
  · rw [shape]
    exact tail.settle _
  · rw [shape]
    exact h.settle _

theorem stepGame_asks {P : Call → Prop} (calls : GameCalls P)
    (first : ∀ c v, c.opens = some v → P c) (h : Prog.Asks P s.rest)
    (hstep : s.stepGame lim = some s') : Prog.Asks P s'.rest := by
  unfold Firmware.stepGame at hstep
  split at hstep
  · cases hstep
    exact inSwitch_asks (loopTail_asks calls) (gameSwitch_asks calls lim fun c => first c _)
  · rename_i c k tail
    obtain ⟨⟨a, s₁⟩, -, rfl⟩ := Option.map_eq_some_iff.mp hstep
    rw [Firmware.rest, tail] at h
    exact (h.2 a).settle _
  · rename_i c k case
    obtain ⟨⟨a, s₁⟩, -, rfl⟩ := Option.map_eq_some_iff.mp hstep
    rw [Firmware.rest, case] at h
    exact inSwitch_asks (loopTail_asks calls) (h.2 a)
  · cases hstep

theorem stepHttpd_asks {P : Call → Prop} (h : ∀ t, s.httpd = some t → Prog.Asks P t)
    (hstep : s.stepHttpd = some s') : ∀ t, s'.httpd = some t → Prog.Asks P t := by
  unfold Firmware.stepHttpd at hstep
  split at hstep
  · cases hstep
    exact nofun
  · rename_i f k at_step
    cases hstep
    rintro t ⟨⟩
    exact h _ at_step s.mem
  · rename_i c k at_call
    obtain ⟨⟨a, s₁⟩, -, rfl⟩ := Option.map_eq_some_iff.mp hstep
    rintro t ⟨⟩
    exact (h _ at_call).2 a
  · cases hstep

theorem puts_asked {P : Call → Prop} (game : Prog.Asks P s.rest)
    (httpd : ∀ t, s.httpd = some t → Prog.Asks P t) {a : Act} {m : IoMessage} (h : m ∈ s.puts a) :
    ∃ c, P c ∧ m ∈ c.sent := by
  cases a with
  | game =>
      cases waits : s.rest.pending with
      | none => simp [Firmware.puts, waits] at h
      | some c => exact ⟨c, game.pending waits, by simpa [Firmware.puts, waits] using h⟩
  | httpd =>
      cases handler : s.httpd with
      | none => simp [Firmware.puts, handler] at h
      | some t =>
          cases waits : t.pending with
          | none => simp [Firmware.puts, handler, waits] at h
          | some c =>
              exact ⟨c, (httpd t handler).pending waits, by simpa [Firmware.puts, handler, waits] using h⟩
  | _ => exact absurd h List.not_mem_nil

theorem Orderly.step {a : Act} (h : w.Orderly) (hstep : w.step lim a = some w') : w'.Orderly := by
  obtain ⟨s', moves, rfl⟩ := Option.map_eq_some_iff.mp hstep
  have queued : ∀ m ∈ w.queued ++ w.fw.puts a, m.Dispatched := by
    intro m member
    rcases List.mem_append.mp member with before | now
    · exact h.queued m before
    · obtain ⟨c, dispatched, sent⟩ := puts_asked h.game h.httpd now
      exact dispatched m sent
  have others (keeps : Firmware.KeepsGame w.fw s') :
      Orderly ⟨s', w.fw.transmit w.tx a, w.queued ++ w.fw.puts a⟩ := by
    refine ⟨?_, ?_, queued⟩
    · simp only [Firmware.rest, keeps.game]
      exact h.game
    · simp only [keeps.httpd]
      exact h.httpd
  cases a with
  | game =>
      refine ⟨?_, ?_, queued⟩
      · exact stepGame_asks dispatched_calls (fun _ _ => opens_dispatched) h.game moves
      · simp only [Firmware.stepGame_httpd moves]
        exact h.httpd
  | httpd =>
      refine ⟨?_, stepHttpd_asks h.httpd moves, queued⟩
      simp only [Firmware.rest_of_game (Firmware.stepHttpd_game moves)]
      exact h.game
  | request r =>
      simp only [Firmware.step] at moves
      split at moves
      · cases moves
        refine ⟨h.game, ?_, queued⟩
        rintro t ⟨⟩
        exact handle_asks dispatched_calls.places r
      · cases moves
  | sender => exact others (Firmware.stepSender_keepsGame moves)
  | receiver => exact others (Firmware.stepReceiver_keepsGame moves)
  | frameArrives pipe f =>
      apply others
      cases moves
      exact ⟨rfl, rfl, rfl, rfl⟩
  | sendFlag success =>
      apply others
      cases moves
      exact ⟨rfl, rfl, rfl, rfl⟩

theorem slaveAddress_three : slaveAddress 3 = typeBytes "3RECV" := by decide +kernel

theorem slaveAddress_four : slaveAddress 4 = typeBytes "4RECV" := by decide +kernel

/-- Whatever goes on the air is LED rows to 3RECV, or a sound or a robot command to
4RECV, and its acknowledgement is awaited at the address it goes to. -/
theorem aired_dispatched (h : Reaches (step lim) (fun _ _ => True) (Start lim) w) {x : Airing}
    (onAir : x ∈ w.tx.aired) : x.ackAddress = x.address ∧
      (x.address = typeBytes "3RECV" ∧ (∃ leds, x.frame = frameOf (ledMessage 3 leds)) ∨
        x.address = typeBytes "4RECV" ∧ ((∃ soundId, x.frame = frameOf (soundCommand 4 soundId)) ∨
          ∃ shipId row col notVertical notPlace,
            x.frame = frameOf (robotCommand 4 shipId row col notVertical notPlace))) := by
  obtain ⟨p, taken, kept⟩ := reaches_kept h
  have orderly : w.Orderly := by
    apply h.invariant
    · exact fun v start => start.orderly
    · exact fun v a v' ih _ hstep => ih.step hstep
  obtain ⟨hand, -, eq⟩ := kept.sound.hand
  have eq : w.tx.aired ++ hand = taken := eq
  have member : x ∈ w.queued.map airingOf := by
    rw [kept.account, ← eq]
    exact List.mem_append_left _ (List.mem_append_left _ onAir)
  obtain ⟨m, queued, rfl⟩ := List.mem_map.mp member
  refine ⟨rfl, ?_⟩
  rcases orderly.queued m queued with ⟨leds, rfl⟩ | ⟨soundId, rfl⟩ | ⟨_, _, _, _, _, rfl⟩
  · exact .inl ⟨slaveAddress_three, leds, rfl⟩
  · exact .inr ⟨slaveAddress_four, .inl ⟨soundId, rfl⟩⟩
  · exact .inr ⟨slaveAddress_four, .inr ⟨_, _, _, _, _, rfl⟩⟩

theorem aired_dispatched_first :
    ∃ x : Airing, x.ackAddress = x.address ∧
      (x.address = typeBytes "3RECV" ∧ (∃ leds, x.frame = frameOf (ledMessage 3 leds)) ∨
        x.address = typeBytes "4RECV" ∧ ((∃ soundId, x.frame = frameOf (soundCommand 4 soundId)) ∨
          ∃ shipId row col notVertical notPlace,
            x.frame = frameOf (robotCommand 4 shipId row col notVertical notPlace))) := by
  obtain ⟨w, reached, sent⟩ := exists_reaches (boot_start _) firstSend_airs
  obtain ⟨x, sent⟩ := List.length_eq_one_iff.mp (of_decide_eq_true sent)
  exact ⟨x, aired_dispatched reached (by rw [sent]; exact List.mem_singleton_self x)⟩

end Posting
end Battleship
