import Battleship.Firmware

/-!
# What a step leaves alone

The game side of the firmware and its radio side share the two message queues
and nothing else. A step of one side keeps the fields of the other.
-/
namespace Battleship
open Cooperative
namespace Firmware

/-- The radio side is untouched but for messages taken off the receive queue. -/
structure KeepsRadio (s s' : Firmware) : Prop where
  nrf : s'.nrf = s.nrf
  sender : s'.sender = s.sender
  receiver : s'.receiver = s.receiver
  chip : s'.chip = s.chip
  irqQueue : s'.irqQueue = s.irqQueue
  mutex : s'.mutex = s.mutex
  radioLog : s'.radioLog = s.radioLog
  arrived : s'.arrived = s.arrived
  receiveQueue : s'.receiveQueue <:+ s.receiveQueue

structure KeepsGame (s s' : Firmware) : Prop where
  mem : s'.mem = s.mem
  game : s'.game = s.game
  httpd : s'.httpd = s.httpd
  log : s'.log = s.log

theorem KeepsRadio.refl (s : Firmware) : KeepsRadio s s :=
  ⟨rfl, rfl, rfl, rfl, rfl, rfl, rfl, rfl, List.suffix_refl _⟩

theorem KeepsRadio.trans {s t u : Firmware} (h : KeepsRadio s t) (h' : KeepsRadio t u) :
    KeepsRadio s u where
  nrf := h'.nrf.trans h.nrf
  sender := h'.sender.trans h.sender
  receiver := h'.receiver.trans h.receiver
  chip := h'.chip.trans h.chip
  irqQueue := h'.irqQueue.trans h.irqQueue
  mutex := h'.mutex.trans h.mutex
  radioLog := h'.radioLog.trans h.radioLog
  arrived := h'.arrived.trans h.arrived
  receiveQueue := h'.receiveQueue.trans h.receiveQueue

theorem answerGame_keeps {s : Firmware} {c : Call} {r : c.Ans × Firmware} (h : s.answerGame c = some r) :
    KeepsGame s r.2 := by
  cases c with
  | queueSend m =>
      simp only [answerGame] at h
      split at h
      · cases h
        exact ⟨rfl, rfl, rfl, rfl⟩
      · cases h
  | queueReceive =>
      simp only [answerGame] at h
      split at h <;> cases h <;> exact ⟨rfl, rfl, rfl, rfl⟩
  | delay ms =>
      cases h
      exact ⟨rfl, rfl, rfl, rfl⟩

theorem answerGame_keepsRadio {s : Firmware} {c : Call} {r : c.Ans × Firmware}
    (h : s.answerGame c = some r) : KeepsRadio s r.2 := by
  cases c with
  | queueSend m =>
      simp only [answerGame] at h
      split at h
      · cases h
        exact { KeepsRadio.refl s with }
      · cases h
  | queueReceive =>
      simp only [answerGame] at h
      split at h
      · cases h
        exact KeepsRadio.refl s
      · rename_i m rest queue
        cases h
        exact { KeepsRadio.refl s with receiveQueue := by simp [queue] }
  | delay ms =>
      cases h
      exact KeepsRadio.refl s

theorem inTail_keepsRadio (s : Firmware) (t : GameTask Unit) : KeepsRadio s (s.inTail t) :=
  { KeepsRadio.refl s with }

theorem inSwitch_keepsRadio (s : Firmware) (t : GameTask Unit) : KeepsRadio s (s.inSwitch t) := by
  simp only [inSwitch]
  split
  · exact { KeepsRadio.refl s with }
  · exact { KeepsRadio.refl s with }

theorem stepGame_keepsRadio {lim : Limits} {s s' : Firmware} (h : s.stepGame lim = some s') :
    KeepsRadio s s' := by
  unfold stepGame at h
  split at h
  · cases h
    exact { inSwitch_keepsRadio _ _ with }
  · obtain ⟨r, answered, rfl⟩ := Option.map_eq_some_iff.mp h
    exact (answerGame_keepsRadio answered).trans (inTail_keepsRadio _ _)
  · obtain ⟨r, answered, rfl⟩ := Option.map_eq_some_iff.mp h
    exact (answerGame_keepsRadio answered).trans (inSwitch_keepsRadio _ _)
  · cases h

theorem stepHttpd_keepsRadio {s s' : Firmware} (h : s.stepHttpd = some s') : KeepsRadio s s' := by
  unfold stepHttpd at h
  split at h
  · cases h
    exact { KeepsRadio.refl s with }
  · cases h
    exact { KeepsRadio.refl s with }
  · obtain ⟨r, answered, rfl⟩ := Option.map_eq_some_iff.mp h
    exact { answerGame_keepsRadio answered with }
  · cases h

theorem request_keepsRadio {lim : Limits} {s s' : Firmware} {r : Request}
    (h : s.step lim (.request r) = some s') : KeepsRadio s s' := by
  simp only [step] at h
  split at h
  · cases h
    exact { KeepsRadio.refl s with }
  · cases h

/-- A finished turn of a radio task starts the next. -/
def resume (body : RadioTask Unit) : RadioTask Unit → RadioTask Unit
  | .ret _ => body
  | rest => rest

theorem settleRadio_eq (s : Firmware) (body t : RadioTask Unit) :
    s.settleRadio body t = (resume body (t.settle s.nrf).1,
      { s with nrf := (t.settle s.nrf).2.1, radioLog := s.radioLog ++ (t.settle s.nrf).2.2 }) := by
  simp only [settleRadio]
  split
  · rename_i done
    rw [done]
    rfl
  · rename_i other
    cases rest : (t.settle s.nrf).1 with
    | ret a => exact absurd rest (other a)
    | undefined => rfl
    | starved => rfl
    | step f k => rfl
    | call c k => rfl

/-- A step of the send task answers its call and runs to the next one. -/
theorem stepSender_cases {lim : Limits} {s s' : Firmware} (h : s.stepSender lim = some s') :
    ∃ (c : RadioCall) (k : c.Ans → RadioTask Unit) (a : c.Ans) (s₁ : Firmware),
      s.sender = .call c k ∧ s.answerRadio .sender c = some (a, s₁) ∧
        s' = { s₁ with
          nrf := ((k a).settle s₁.nrf).2.1
          radioLog := s₁.radioLog ++ ((k a).settle s₁.nrf).2.2
          sender := resume (ioSendTask lim.fuel) ((k a).settle s₁.nrf).1 } := by
  unfold stepSender at h
  split at h
  · rename_i c k at_call
    obtain ⟨⟨a, s₁⟩, answered, rfl⟩ := Option.map_eq_some_iff.mp h
    refine ⟨c, k, a, s₁, at_call, answered, ?_⟩
    rw [settleRadio_eq]
  · cases h

/-- Answering a call logs nothing and leaves the game side alone. -/
theorem answerRadio_keeps {s : Firmware} {who : Holder} {c : RadioCall} {r : c.Ans × Firmware}
    (h : s.answerRadio who c = some r) : KeepsGame s r.2 ∧ r.2.radioLog = s.radioLog := by
  cases c with
  | takeMessage =>
      simp only [answerRadio] at h
      split at h
      · cases h
      · cases h
        exact ⟨⟨rfl, rfl, rfl, rfl⟩, rfl⟩
  | takeIrq =>
      simp only [answerRadio] at h
      split at h
      · cases h
        exact ⟨⟨rfl, rfl, rfl, rfl⟩, rfl⟩
      · cases h
  | takeMutex forever =>
      simp only [answerRadio] at h
      split_ifs at h
      · cases h
        exact ⟨⟨rfl, rfl, rfl, rfl⟩, rfl⟩
      · cases h
        exact ⟨⟨rfl, rfl, rfl, rfl⟩, rfl⟩
  | giveMutex =>
      cases h
      exact ⟨⟨rfl, rfl, rfl, rfl⟩, rfl⟩
  | putMessage m =>
      simp only [answerRadio] at h
      split at h
      · cases h
        exact ⟨⟨rfl, rfl, rfl, rfl⟩, rfl⟩
      · cases h
  | pause ms =>
      cases h
      exact ⟨⟨rfl, rfl, rfl, rfl⟩, rfl⟩
  | chip op =>
      cases h
      exact ⟨⟨rfl, rfl, rfl, rfl⟩, rfl⟩

theorem stepSender_keepsGame {lim : Limits} {s s' : Firmware} (h : s.stepSender lim = some s') :
    KeepsGame s s' := by
  obtain ⟨c, k, a, s₁, -, answered, rfl⟩ := stepSender_cases h
  exact { (answerRadio_keeps answered).1 with }

theorem stepReceiver_keepsGame {s s' : Firmware} (h : s.stepReceiver = some s') :
    KeepsGame s s' := by
  unfold stepReceiver at h
  split at h
  · obtain ⟨⟨a, s₁⟩, answered, rfl⟩ := Option.map_eq_some_iff.mp h
    rw [settleRadio_eq]
    exact { (answerRadio_keeps answered).1 with }
  · cases h

/-- Whatever is not a step of the game task or a handler leaves the game side alone. -/
theorem step_keepsGame {lim : Limits} {s s' : Firmware} {a : Act} (h : s.step lim a = some s')
    (game : a ≠ .game) (httpd : a ≠ .httpd) (request : ∀ r, a ≠ .request r) : KeepsGame s s' := by
  cases a with
  | game => exact absurd rfl game
  | httpd => exact absurd rfl httpd
  | request r => exact absurd rfl (request r)
  | sender => exact stepSender_keepsGame h
  | receiver => exact stepReceiver_keepsGame h
  | frameArrives pipe f =>
      cases h
      exact ⟨rfl, rfl, rfl, rfl⟩
  | sendFlag success =>
      cases h
      exact ⟨rfl, rfl, rfl, rfl⟩

end Firmware
end Battleship
