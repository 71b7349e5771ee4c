import Battleship.Interleaving

/-!
# The discipline of the send task

`io_send_task` talks to the chip only while it holds `nrf_mutex`, never reads a
frame or an event, never masks the receive interrupt, and gives back what it
took. This holds whatever the other tasks do to the driver's memory meanwhile.
-/
namespace Battleship
open Cooperative

/-- The transactions of a sender: no payload is read, and RX_DR stays unmasked. -/
def ChipOp.Sends : ChipOp → Prop
  | .readRxPayload => False
  | .writeRegister reg value => reg = regConfig → value &&& bitRxDr = 0
  | _ => True

/-- What each call of the send task asks, with `true` for holding the mutex.
The driver's memory may be anything after a call. -/
def discipline : Prog.CallSpec Nrf Bool RadioCall RadioCall.Ans := fun c e K =>
  match c, K with
  | .takeMessage, K => e.2 = false ∧ ∀ m n, K m (n, false)
  | .takeIrq, _ => False
  | .takeMutex forever, K => forever = true ∧ e.2 = false ∧ ∀ n, K true (n, true)
  | .giveMutex, K => e.2 = true ∧ ∀ n, K () (n, false)
  | .putMessage _, _ => False
  | .pause _, K => ∀ n, K () (n, e.2)
  | .chip op, K => e.2 = true ∧ op.Sends ∧ ∀ a n, K a (n, true)

/-- The only entries a sender logs. -/
def RadioOut.OfSender : RadioOut → Prop
  | .waitTurn => True
  | .ping _ _ => False
  | .delivered _ => False

/-- Runs from any driver memory keep the discipline from `held` to `held'`. -/
def Disciplined {α : Type} (t : RadioTask α) (held held' : Bool) : Prop :=
  ∀ n, Prog.wp discipline RadioOut.OfSender t (fun _ e => e.2 = held') (n, held)

theorem discipline_mono : Prog.CallSpec.Mono discipline := by
  intro c e K K' imp h
  cases c with
  | takeMessage => exact ⟨h.1, fun m n => imp _ _ (h.2 m n)⟩
  | takeIrq => exact h
  | takeMutex forever => exact ⟨h.1, h.2.1, fun n => imp _ _ (h.2.2 n)⟩
  | giveMutex => exact ⟨h.1, fun n => imp _ _ (h.2 n)⟩
  | putMessage m => exact h
  | pause ms => exact fun n => imp _ _ (h n)
  | chip op => exact ⟨h.1, h.2.1, fun a n => imp _ _ (h.2.2 a n)⟩

namespace Disciplined
variable {α β : Type} {b m b' : Bool}

theorem bind {t : RadioTask α} {g : α → RadioTask β} (ht : Disciplined t b m)
    (hg : ∀ a, Disciplined (g a) m b') : Disciplined (t >>= g) b b' := by
  intro n
  apply Prog.wp_bind discipline_mono
  apply Prog.wp_mono discipline_mono t _ _ (ht n)
  intro a e after
  obtain ⟨n', h⟩ := e
  cases after
  exact hg a n'

theorem ret (a : α) : Disciplined (.ret a : RadioTask α) b b := fun _ => rfl

theorem write (f : Nrf → Nrf) : Disciplined (Prog.modify f) b b :=
  fun _ => ⟨fun _ ho => absurd ho List.not_mem_nil, rfl⟩

theorem get : Disciplined (Prog.get : RadioTask Nrf) b b :=
  fun _ => ⟨fun _ ho => absurd ho List.not_mem_nil, rfl⟩

theorem chip (op : ChipOp) (sends : op.Sends) : Disciplined (chipDo op) true true :=
  fun _ => ⟨rfl, sends, fun _ _ => rfl⟩

theorem pause (ms : Nat) :
    Disciplined (Prog.sys (RadioCall.pause ms) : RadioTask Unit) b b := fun _ _ => rfl

end Disciplined

theorem powerUpRx_disciplined : Disciplined nrf24PowerUpRx true true :=
  .bind (.write _) fun _ => .bind (.chip _ trivial) fun _ =>
    .bind (.chip _ fun _ => by decide) fun _ => .bind (.chip _ trivial) fun _ =>
      .chip _ fun h => absurd h (by decide)

theorem powerUpTx_disciplined : Disciplined nrf24PowerUpTx true true :=
  .bind (.write _) fun _ => .bind (.chip _ fun _ => by decide) fun _ =>
    .chip _ fun h => absurd h (by decide)

theorem waitLastSent_disciplined (fuel : Nat) : Disciplined (waitLastSent fuel) true true := by
  induction fuel with
  | zero => exact fun _ => trivial
  | succ fuel ih =>
      apply Disciplined.bind .get
      intro n
      split
      · apply Disciplined.bind (m := true)
        · exact fun _ => ⟨by simp [RadioOut.OfSender], rfl⟩
        · intro _
          apply Disciplined.bind (.chip .readStatus trivial)
          intro status
          split
          · exact .write _
          · exact ih
      · exact .ret ()

theorem send_disciplined (fuel : Nat) (value : Frame) :
    Disciplined (nrf24Send fuel value) true true :=
  .bind (.chip _ trivial) fun _ => .bind (waitLastSent_disciplined fuel) fun _ =>
    .bind (.chip _ trivial) fun _ => .bind powerUpTx_disciplined fun _ =>
      .bind (.chip _ trivial) fun _ => .bind (.chip _ trivial) fun _ => .chip _ trivial

theorem isSending_disciplined : Disciplined nrf24IsSending true true := by
  apply Disciplined.bind .get
  intro n
  split
  · apply Disciplined.bind (.chip .readStatus trivial)
    intro status
    split
    · exact .bind powerUpRx_disciplined fun _ => .ret false
    · exact .ret true
  · exact .ret false

theorem waitSent_disciplined (turns : Nat) : Disciplined (waitSent turns) true true := by
  induction turns with
  | zero => exact fun _ => trivial
  | succ turns ih =>
      apply Disciplined.bind isSending_disciplined
      intro sending
      split
      · apply Disciplined.bind .get
        intro n
        split
        · exact .bind (.write _) fun _ => .bind (.pause 10) fun _ => ih
        · exact .chip _ fun h => absurd h (by decide)
      · exact .ret ()

theorem sendMessage_disciplined (fuel : Nat) (msg : IoMessage) :
    Disciplined (sendMessage fuel msg) true true :=
  .bind (.bind (.chip _ trivial) fun _ => .bind (.chip _ trivial) fun _ => .chip _ trivial) fun _ =>
    .bind (send_disciplined fuel _) fun _ => waitSent_disciplined _

theorem ioSendTask_disciplined (fuel : Nat) : Disciplined (ioSendTask fuel) false false := by
  apply Disciplined.bind (m := false)
  · exact fun _ => ⟨rfl, fun _ _ => rfl⟩
  intro msg
  apply Disciplined.bind (.write _)
  intro _
  apply Disciplined.bind (m := true)
  · exact fun _ => ⟨rfl, rfl, fun _ => rfl⟩
  intro _
  apply Disciplined.bind (sendMessage_disciplined fuel msg)
  intro _
  apply Disciplined.bind (m := false)
  · exact fun _ => ⟨rfl, fun _ => rfl⟩
  exact fun _ => .pause 10

theorem discipline_forgets {c : RadioCall} {n n' : Nrf} {b : Bool}
    {K : c.Ans → Nrf × Bool → Prop} (h : discipline c (n, b) K) : discipline c (n', b) K := by
  cases c <;> exact h

/-- Where a disciplined task has run to, it is disciplined for any memory. -/
theorem disciplined_settle {t : RadioTask Unit} {n : Nrf} {b b' : Bool}
    (h : Prog.wp discipline RadioOut.OfSender t (fun _ e => e.2 = b') (n, b)) :
    Disciplined (t.settle n).1 b b' ∧ ∀ o ∈ (t.settle n).2.2, o.OfSender := by
  refine ⟨fun n' => ?_, (Prog.wp_settle t _ n b h).2⟩
  exact Prog.wp_settle_stable (R := fun _ _ => True)
    (fun _ _ _ _ _ _ asked => discipline_forgets asked) (fun _ _ _ _ _ ended => ended) t h trivial

theorem disciplined_resume {body t : RadioTask Unit} {b : Bool} (hb : Disciplined body false false)
    (ht : Disciplined t b false) : Disciplined (Firmware.resume body t) b false := by
  cases t with
  | ret a =>
      have free : b = false := ht ⟨false, 0, 0⟩
      rw [free]
      exact hb
  | undefined => exact ht
  | starved => exact ht
  | step f k => exact ht
  | call c k => exact ht

namespace Firmware

/-- Whether the send task holds the mutex. -/
def sending (s : Firmware) : Bool := s.mutex = some .sender

def SenderDisciplined (s : Firmware) : Prop := Disciplined s.sender s.sending false

/-- A step of the send task as the other tasks see it. -/
structure SenderMove (s s' : Firmware) : Prop where
  receiver : s'.receiver = s.receiver
  receiveQueue : s'.receiveQueue = s.receiveQueue
  arrived : s'.arrived = s.arrived
  mutex : s'.mutex = s.mutex ∨ s.mutex = none ∧ s'.mutex = some .sender ∨
    s.mutex = some .sender ∧ s'.mutex = none
  radioLog : ∃ out, s'.radioLog = s.radioLog ++ out ∧ ∀ o ∈ out, o.OfSender
  chip : s'.chip = s.chip ∧ s'.irqQueue = s.irqQueue ∨
    ∃ op, s.sender.pending = some (.chip op) ∧ op.Sends ∧ s.mutex = some .sender ∧
      s'.chip = (s.chip.perform op).2 ∧ s'.irqQueue = (s.setChip (s.chip.perform op).2).irqQueue

theorem SenderMove.of_mutex {s s₁ : Firmware} (receiver : s₁.receiver = s.receiver)
    (receiveQueue : s₁.receiveQueue = s.receiveQueue) (arrived : s₁.arrived = s.arrived)
    (mutex : s₁.mutex = s.mutex ∨ s.mutex = none ∧ s₁.mutex = some .sender ∨
      s.mutex = some .sender ∧ s₁.mutex = none)
    (radioLog : s₁.radioLog = s.radioLog) (chip : s₁.chip = s.chip)
    (irqQueue : s₁.irqQueue = s.irqQueue) : SenderMove s s₁ :=
  ⟨receiver, receiveQueue, arrived, mutex, ⟨[], by simpa using radioLog, by simp⟩,
    .inl ⟨chip, irqQueue⟩⟩

/-- The answer to a call of a disciplined sender is one the rest can go on from. -/
theorem answerRadio_move {s s₁ : Firmware} {c : RadioCall} {k : c.Ans → RadioTask Unit} {a : c.Ans}
    (h : s.SenderDisciplined) (at_call : s.sender = .call c k)
    (answered : s.answerRadio .sender c = some (a, s₁)) :
    SenderMove s s₁ ∧
      ∀ n, Prog.wp discipline RadioOut.OfSender (k a) (fun _ e => e.2 = false) (n, s₁.sending) := by
  have asked := h s.nrf
  rw [at_call] at asked
  cases c with
  | takeMessage =>
      simp only [answerRadio] at answered
      split at answered
      · cases answered
      · cases answered
        obtain ⟨free, rest⟩ := asked
        refine ⟨.of_mutex rfl rfl rfl (.inl rfl) rfl rfl rfl, fun n => ?_⟩
        have kept : Prog.wp discipline RadioOut.OfSender (k a) (fun _ e => e.2 = false)
            (n, s.sending) := by
          rw [show s.sending = false from free]
          exact rest a n
        exact kept
  | takeIrq => exact asked.elim
  | takeMutex forever =>
      obtain ⟨rfl, -, rest⟩ := asked
      simp only [answerRadio, if_true] at answered
      split at answered
      · rename_i free
        cases answered
        exact ⟨.of_mutex rfl rfl rfl (.inr (.inl ⟨free, rfl⟩)) rfl rfl rfl, rest⟩
      · cases answered
  | giveMutex =>
      obtain ⟨held, rest⟩ := asked
      cases answered
      exact ⟨.of_mutex rfl rfl rfl (.inr (.inr ⟨of_decide_eq_true held, rfl⟩)) rfl rfl rfl, rest⟩
  | putMessage m => exact asked.elim
  | pause ms =>
      cases answered
      exact ⟨.of_mutex rfl rfl rfl (.inl rfl) rfl rfl rfl, asked⟩
  | chip op =>
      obtain ⟨held, sends, rest⟩ := asked
      cases answered
      refine ⟨⟨rfl, rfl, rfl, .inl rfl, ⟨[], by simp [setChip], by simp⟩, .inr ?_⟩, fun n => ?_⟩
      · exact ⟨op, by rw [at_call]; rfl, sends, of_decide_eq_true held, rfl, rfl⟩
      · have same : (s.setChip (s.chip.perform op).2).sending = true := held
        simpa only [same] using rest _ n

theorem stepSender_move {lim : Limits} {s s' : Firmware} (h : s.SenderDisciplined)
    (hstep : s.stepSender lim = some s') : SenderMove s s' ∧ s'.SenderDisciplined := by
  obtain ⟨c, k, a, s₁, at_call, answered, rfl⟩ := stepSender_cases hstep
  obtain ⟨move, rest⟩ := answerRadio_move h at_call answered
  obtain ⟨disciplined, out⟩ := disciplined_settle (rest s₁.nrf)
  constructor
  · obtain ⟨before, eq, of_sender⟩ := move.radioLog
    refine ⟨move.receiver, move.receiveQueue, move.arrived, move.mutex,
      ⟨before ++ ((k a).settle s₁.nrf).2.2, ?_, ?_⟩, move.chip⟩
    · simp only [eq, List.append_assoc]
    · intro o ho
      rcases List.mem_append.mp ho with first | later
      · exact of_sender o first
      · exact out o later
  · exact disciplined_resume (ioSendTask_disciplined lim.fuel) disciplined

/-- Steps of the other tasks that leave the sender and its mutex alone. -/
theorem SenderDisciplined.of_eq {s s' : Firmware} (h : s.SenderDisciplined)
    (sender : s'.sender = s.sender) (sending : s'.sending = s.sending) : s'.SenderDisciplined := by
  unfold SenderDisciplined
  rw [sender, sending]
  exact h

end Firmware
end Battleship
