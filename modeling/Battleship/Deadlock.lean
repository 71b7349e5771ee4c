import Battleship.Radio

/-!
# The wait cycle of the three tasks

`io_receive_task` hands a frame on while it holds `nrf_mutex`. When the queue
to the game is full at that moment, it keeps the mutex until the game task takes
a message, and the game task may itself wait for the send task.
-/
namespace Battleship
open Cooperative Runs

def RadioCall.isPut : RadioCall → Bool
  | .putMessage _ => true
  | _ => false

def RadioCall.waitsForMutex : RadioCall → Bool
  | .takeMutex forever => forever
  | _ => false

def Call.isSend : Call → Bool
  | .queueSend _ => true
  | _ => false

def Phase.pending : Phase → Option Call
  | .inSwitch rest => rest.pending
  | .inTail rest => rest.pending

namespace Firmware

/-- Each of the three tasks waits for the next one. -/
structure Deadlocked (s : Firmware) : Prop where
  receiverPuts : s.receiver.pending.any RadioCall.isPut = true
  receiveFull : s.receiveQueue.length = ioQueueSize
  receiverHolds : s.mutex = some .receiver
  senderWaits : s.sender.pending.any RadioCall.waitsForMutex = true
  sendFull : s.sendQueue.length = ioQueueSize
  gameSends : s.game.pending.any Call.isSend = true

instance (s : Firmware) : Decidable s.Deadlocked :=
  decidable_of_iff (s.receiver.pending.any RadioCall.isPut = true ∧
    s.receiveQueue.length = ioQueueSize ∧ s.mutex = some .receiver ∧
    s.sender.pending.any RadioCall.waitsForMutex = true ∧
    s.sendQueue.length = ioQueueSize ∧ s.game.pending.any Call.isSend = true)
    ⟨fun ⟨a, b, c, d, e, f⟩ => ⟨a, b, c, d, e, f⟩, fun ⟨a, b, c, d, e, f⟩ => ⟨a, b, c, d, e, f⟩⟩

/-- With a frame for the game in hand, `io_receive_task` turns to the queue only
while it has a free slot. -/
def PutsWithRoom (s : Firmware) : Act → Prop
  | .receiver => ∀ raw, s.receiver = recvClear raw →
      ¬(messageOf raw (savedPipe s.nrf)).isType "PING" = true →
      s.receiveQueue.length < ioQueueSize
  | _ => True

/-- A receive task that has turned to the queue finds a free slot there. -/
def NeverStuck (s : Firmware) : Prop :=
  ∃ p, s.AtPoint p ∧ ∀ raw msg, p = .put raw msg → s.receiveQueue.length < ioQueueSize

variable {s s' : Firmware}

theorem NeverStuck.of_keepsRadio (h : s.NeverStuck) (k : KeepsRadio s s') : s'.NeverStuck := by
  obtain ⟨p, at_p, room⟩ := h
  refine ⟨p, at_p.of_keepsRadio k, fun raw msg eq => ?_⟩
  exact lt_of_le_of_lt k.receiveQueue.length_le (room raw msg eq)

theorem NeverStuck.of_setChip (h : s.NeverStuck) (c : Chip) : (s.setChip c).NeverStuck := by
  obtain ⟨p, at_p, room⟩ := h
  exact ⟨p, at_p.of_setChip c, room⟩

theorem NeverStuck.sender_step {lim : Limits} (h : s.NeverStuck)
    (hstep : s.stepSender lim = some s') : s'.NeverStuck := by
  obtain ⟨p, at_p, room⟩ := h
  obtain ⟨move, at_p'⟩ := at_p.sender_step hstep
  refine ⟨p, at_p', fun raw msg eq => ?_⟩
  rw [move.receiveQueue]
  exact room raw msg eq

/-- Only the move from `clear` leads to the queue, and it is the one that the
condition speaks of. -/
theorem NeverStuck.receiver_step (h : s.NeverStuck) (hok : s.PutsWithRoom .receiver)
    (hstep : s.stepReceiver = some s') : s'.NeverStuck := by
  obtain ⟨p, at_p, -⟩ := h
  obtain ⟨p', s₁, move, rfl, at_p'⟩ := at_p.receiver_step hstep
  refine ⟨p', at_p', fun raw msg eq => ?_⟩
  subst eq
  cases recvMove_cases move with
  | kept raw other => exact hok raw at_p.receiver other

theorem NeverStuck.step {lim : Limits} {a : Act} (h : s.NeverStuck) (hok : s.PutsWithRoom a)
    (hstep : s.step lim a = some s') : s'.NeverStuck := by
  cases a with
  | game => exact h.of_keepsRadio (stepGame_keepsRadio hstep)
  | httpd => exact h.of_keepsRadio (stepHttpd_keepsRadio hstep)
  | request r => exact h.of_keepsRadio (request_keepsRadio hstep)
  | sender => exact h.sender_step hstep
  | receiver => exact h.receiver_step hok hstep
  | frameArrives pipe f =>
      cases hstep
      obtain ⟨p, at_p, room⟩ := h.of_setChip (s.chip.receive pipe f)
      exact ⟨p, ⟨at_p.sender, at_p.receiver, at_p.mutex⟩, room⟩
  | sendFlag success =>
      cases hstep
      exact h.of_setChip _

theorem NeverStuck.not_deadlocked (h : s.NeverStuck) : ¬s.Deadlocked := by
  intro stuck
  obtain ⟨p, at_p, room⟩ := h
  have puts := stuck.receiverPuts
  rw [at_p.receiver] at puts
  cases p with
  | put raw msg => exact absurd stuck.receiveFull (room raw msg rfl).ne
  | wait => cases puts
  | take => cases puts
  | poll => cases puts
  | read => cases puts
  | clear raw => cases puts
  | give => cases puts
  | pause => cases puts

/-- In a run in which every frame for the game finds a free slot, the three
tasks never wait for each other. -/
theorem no_wait_cycle {lim : Limits}
    (h : Reaches (Firmware.step lim) PutsWithRoom (Start lim) s) : ¬s.Deadlocked := by
  have never : s.NeverStuck := by
    apply h.invariant
    · intro t start
      exact ⟨.wait, start.atPoint, fun raw msg eq => nomatch eq⟩
    · intro t a t' ih hok hstep
      exact NeverStuck.step ih hok hstep
  exact never.not_deadlocked

def cycles (n : Nat) (acts : List Act) : List Act := (List.replicate n acts).flatten

/-- A frame that no task answers to. -/
def idleFrame : Frame := fun _ => 65

/-- Frames fill the queue to the game, which is still starting up, and the task holds one
more; the sender has a message, and the game sends the rest. -/
def fillRun (frames : Nat) : List Act :=
  cycles frames (.frameArrives 1 idleFrame :: cycles 8 [.receiver]) ++
    (.frameArrives 1 idleFrame :: cycles 5 [.receiver]) ++ [.sender] ++ cycles 30 [.game]

/-- The receive task moves only while the queue to the game has a free slot. -/
def HasRoom (s : Firmware) : Act → Prop
  | .receiver => s.receiveQueue.length < ioQueueSize
  | _ => True

instance (s : Firmware) : ∀ a, Decidable (s.HasRoom a)
  | .receiver => inferInstanceAs (Decidable (_ < _))
  | .game => .isTrue trivial
  | .httpd => .isTrue trivial
  | .request _ => .isTrue trivial
  | .sender => .isTrue trivial
  | .frameArrives _ _ => .isTrue trivial
  | .sendFlag _ => .isTrue trivial

theorem HasRoom.putsWithRoom {a : Act} (h : s.HasRoom a) : s.PutsWithRoom a := by
  cases a with
  | receiver => exact fun _ _ _ => h
  | _ => trivial

/-- One slot is free: the two others wait, and the receive task does not. -/
theorem no_wait_cycle_puts : ∃ s : Firmware,
    s.receiver.pending.any RadioCall.isPut = true ∧
    s.sender.pending.any RadioCall.waitsForMutex = true ∧
    s.game.pending.any Call.isSend = true ∧ ¬s.Deadlocked := by
  have run : (runList (Firmware.step ⟨0, none⟩) (boot ⟨0, none⟩) (fillRun 9)).any (fun s =>
      s.receiver.pending.any RadioCall.isPut = true ∧
        s.sender.pending.any RadioCall.waitsForMutex = true ∧
        s.game.pending.any Call.isSend = true) = true := by decide +kernel
  have meets : Meets (Firmware.step ⟨0, none⟩) HasRoom (boot ⟨0, none⟩) (fillRun 9) := by
    decide +kernel
  obtain ⟨s, reached, check⟩ := exists_reaches_of_meets (boot_start _) meets run
  obtain ⟨puts, waits, sends⟩ := of_decide_eq_true check
  exact ⟨s, puts, waits, sends, no_wait_cycle (reached.imp fun _ _ ok => ok.putsWithRoom)⟩

set_option maxRecDepth 8000 in
theorem wait_cycle_reached : ∃ s, Reaches (Firmware.step ⟨0, none⟩) (fun _ _ => True)
    (Start ⟨0, none⟩) s ∧ s.Deadlocked := by
  have run : (runList (Firmware.step ⟨0, none⟩) (boot ⟨0, none⟩) (fillRun 10)).any
      (fun s => decide s.Deadlocked) = true := by decide +kernel
  obtain ⟨s, reached, stuck⟩ := exists_reaches (boot_start _) run
  exact ⟨s, reached, of_decide_eq_true stuck⟩

end Firmware
end Battleship
