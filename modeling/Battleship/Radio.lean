import Battleship.Receiver
import Battleship.Sender

/-!
# The two radio tasks together

Where the receive task is, what the send task may still do, and who holds the
mutex: the three agree in every state of the firmware.
-/
namespace Battleship
open Cooperative Runs
namespace Firmware

/-- The receive task is at `p`, and holds the mutex exactly when `p` says so. -/
structure AtPoint (s : Firmware) (p : RecvPoint) : Prop where
  sender : s.SenderDisciplined
  receiver : s.receiver = p.task
  mutex : p.holds = true ↔ s.mutex = some .receiver

theorem Start.atPoint {lim : Limits} {s : Firmware} (h : Start lim s) : s.AtPoint .wait where
  sender := by
    have free : s.sending = false := by simp [sending, h.mutex]
    unfold SenderDisciplined
    rw [h.sender, free]
    exact ioSendTask_disciplined lim.fuel
  receiver := h.receiver
  mutex := by simp [RecvPoint.holds, h.mutex]

variable {s s' : Firmware} {p : RecvPoint}

theorem AtPoint.of_keepsRadio (h : s.AtPoint p) (k : KeepsRadio s s') : s'.AtPoint p where
  sender := h.sender.of_eq k.sender (by simp only [sending, k.mutex])
  receiver := k.receiver.trans h.receiver
  mutex := by
    rw [k.mutex]
    exact h.mutex

theorem AtPoint.of_setChip (h : s.AtPoint p) (c : Chip) : (s.setChip c).AtPoint p :=
  ⟨h.sender.of_eq rfl rfl, h.receiver, h.mutex⟩

theorem AtPoint.sender_step {lim : Limits} (h : s.AtPoint p)
    (hstep : s.stepSender lim = some s') : SenderMove s s' ∧ s'.AtPoint p := by
  obtain ⟨move, disciplined⟩ := stepSender_move h.sender hstep
  refine ⟨move, disciplined, move.receiver.trans h.receiver, ?_⟩
  rw [h.mutex]
  rcases move.mutex with same | ⟨free, taken⟩ | ⟨held, given⟩
  · rw [same]
  · simp [free, taken]
  · simp [held, given]

/-- A move of the receive task keeps the sender's side, and only takes a free
mutex or gives its own back. -/
theorem recvMove_mutex {p' : RecvPoint} (mutex : p.holds = true ↔ s.mutex = some .receiver)
    (move : s.recvMove p = some (p', s')) :
    s'.sender = s.sender ∧ s'.sending = s.sending ∧
      (p'.holds = true ↔ s'.mutex = some .receiver) := by
  cases recvMove_cases move with
  | took free => exact ⟨rfl, by simp [sending, free], by simp [RecvPoint.holds]⟩
  | gave =>
      have held : s.mutex = some .receiver := mutex.mp rfl
      exact ⟨rfl, by simp [sending, held], by simp [RecvPoint.holds]⟩
  | _ => exact ⟨rfl, rfl, mutex⟩

theorem AtPoint.receiver_step (h : s.AtPoint p) (hstep : s.stepReceiver = some s') :
    ∃ p' s₁, s.recvMove p = some (p', s₁) ∧ s' = { s₁ with receiver := p'.task } ∧
      s'.AtPoint p' := by
  rw [stepReceiver_at h.receiver] at hstep
  obtain ⟨⟨p', s₁⟩, move, rfl⟩ := Option.map_eq_some_iff.mp hstep
  obtain ⟨sender, sending, mutex⟩ := recvMove_mutex h.mutex move
  exact ⟨p', s₁, move, rfl, h.sender.of_eq sender sending, rfl, mutex⟩

theorem AtPoint.step {lim : Limits} {a : Act} (h : s.AtPoint p) (hstep : s.step lim a = some s') :
    ∃ p', s'.AtPoint p' := by
  cases a with
  | game => exact ⟨p, h.of_keepsRadio (stepGame_keepsRadio hstep)⟩
  | httpd => exact ⟨p, h.of_keepsRadio (stepHttpd_keepsRadio hstep)⟩
  | request r => exact ⟨p, h.of_keepsRadio (request_keepsRadio hstep)⟩
  | sender => exact ⟨p, (h.sender_step hstep).2⟩
  | receiver =>
      obtain ⟨p', -, -, -, there⟩ := h.receiver_step hstep
      exact ⟨p', there⟩
  | frameArrives pipe f =>
      cases hstep
      have there := h.of_setChip (s.chip.receive pipe f)
      exact ⟨p, there.sender, there.receiver, there.mutex⟩
  | sendFlag success =>
      cases hstep
      exact ⟨p, h.of_setChip _⟩

/-- A task is at the chip only with the mutex, and whoever has the mutex waits
neither for work nor for the mutex itself. -/
structure Locked (s : Firmware) : Prop where
  sends : ∀ op, s.sender.pending = some (.chip op) → s.mutex = some .sender
  receives : ∀ op, s.receiver.pending = some (.chip op) → s.mutex = some .receiver
  sending : s.mutex = some .sender →
    s.sender.pending ≠ some .takeMessage ∧ ∀ b, s.sender.pending ≠ some (.takeMutex b)
  receiving : s.mutex = some .receiver →
    s.receiver.pending ≠ some .takeIrq ∧ ∀ b, s.receiver.pending ≠ some (.takeMutex b)

/-- What the discipline says about the call the send task is at. -/
theorem AtPoint.at_call (h : s.AtPoint p) {c : RadioCall} (waits : s.sender.pending = some c) :
    ∃ K, discipline c (⟨false, 0, 0⟩, s.sending) K := by
  have sender := h.sender ⟨false, 0, 0⟩
  obtain ⟨k, at_call⟩ := Prog.pending_eq_some waits
  rw [at_call] at sender
  exact ⟨_, sender⟩

theorem AtPoint.locked (h : s.AtPoint p) : s.Locked := by
  refine ⟨fun op waits => ?_, fun op waits => ?_, fun held => ⟨fun waits => ?_, fun b waits => ?_⟩,
    fun held => ?_⟩
  · obtain ⟨K, asked⟩ := h.at_call waits
    exact of_decide_eq_true asked.1
  · rw [h.receiver] at waits
    rw [← h.mutex]
    cases p with
    | poll => rfl
    | read => rfl
    | clear raw => rfl
    | wait => cases waits
    | take => cases waits
    | put raw msg => cases waits
    | give => cases waits
    | pause => cases waits
  · obtain ⟨K, asked⟩ := h.at_call waits
    exact of_decide_eq_false asked.1 held
  · obtain ⟨K, asked⟩ := h.at_call waits
    exact of_decide_eq_false asked.2.1 held
  · rw [h.receiver]
    have holds := h.mutex.mpr held
    cases p with
    | wait => cases holds
    | take => cases holds
    | pause => cases holds
    | poll => exact ⟨nofun, nofun⟩
    | read => exact ⟨nofun, nofun⟩
    | clear raw => exact ⟨nofun, nofun⟩
    | put raw msg => exact ⟨nofun, nofun⟩
    | give => exact ⟨nofun, nofun⟩

/-- In every interleaving the radio tasks use the chip one at a time. -/
theorem chip_locked {lim : Limits} (h : Reaches (Firmware.step lim) (fun _ _ => True) (Start lim) s) :
    s.Locked := by
  have tasks : ∃ p, s.AtPoint p := by
    apply h.invariant
    · exact fun t start => ⟨.wait, start.atPoint⟩
    · rintro t a t' ⟨p, ih⟩ - hstep
      exact ih.step hstep
  obtain ⟨p, tasks⟩ := tasks
  exact tasks.locked

/-- The send task in the middle of a message. -/
theorem chip_locked_sending :
    ∃ s : Firmware, s.sender.pending.isSome = true ∧ s.mutex = some .sender ∧ s.Locked := by
  have run : (runList (Firmware.step ⟨0, none⟩) (boot ⟨0, none⟩) [.sender, .sender]).any
      (fun s => decide (s.sender.pending.isSome = true ∧ s.mutex = some .sender)) = true := by
    decide +kernel
  obtain ⟨s, reached, check⟩ := exists_reaches (boot_start _) run
  obtain ⟨waits, held⟩ := of_decide_eq_true check
  exact ⟨s, waits, held, chip_locked reached⟩

end Firmware
end Battleship
