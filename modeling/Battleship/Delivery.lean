import Battleship.Radio

/-!
# Frames from the chip to the game

The interrupt tells `io_receive_task` that the line went up, not how many frames
wait. One event leads to one read, and the read is followed by clearing the flag
for all of them. `FramesMeet` lists what has to come together for this to be
enough, and in every run of that kind no frame is left behind.
-/
namespace Battleship
open Cooperative Runs

def RadioOut.frame : RadioOut → Option Frame
  | .waitTurn => none
  | .ping _ raw => some raw
  | .delivered raw => some raw

/-- The frames handed on so far, in order. -/
def handed (log : List RadioOut) : List Frame := log.filterMap RadioOut.frame

theorem handed_of_sender {out : List RadioOut} (h : ∀ o ∈ out, o.OfSender) : handed out = [] := by
  apply List.filterMap_eq_nil_iff.mpr
  intro o ho
  cases o with
  | waitTurn => rfl
  | ping slaveId raw => exact (h _ ho).elim
  | delivered raw => exact (h _ ho).elim

def RadioCall.waitsForIrq : RadioCall → Bool
  | .takeIrq => true
  | _ => false

def RadioCall.seesFlag : RadioCall → Bool
  | .takeMutex _ => true
  | .chip .readStatus => true
  | _ => false

namespace RecvPoint

/-- The task has taken an event and not yet read the frame it stands for. -/
def fetching : RecvPoint → Bool
  | .take => true
  | .poll => true
  | .read => true
  | _ => false

def clearing : RecvPoint → Bool
  | .clear _ => true
  | _ => false

/-- The frame read from the chip and not yet handed on. -/
def inHand : RecvPoint → List Frame
  | .clear raw => [raw]
  | .put raw _ => [raw]
  | _ => []

end RecvPoint

def ChipOp.clearsRxDr : ChipOp → Bool
  | .writeRegister reg value => reg = regStatus && value &&& bitRxDr ≠ 0
  | _ => false

def Chip.Unmasked (c : Chip) : Prop := c.config &&& bitRxDr = 0

theorem Chip.perform_of_sends (c : Chip) {op : ChipOp} (sends : op.Sends) (h : c.Unmasked) :
    (c.perform op).2.fifo = c.fifo ∧ (c.perform op).2.Unmasked ∧
      (c.perform op).2.rxDr = (c.rxDr && !op.clearsRxDr) := by
  cases op with
  | readRxPayload => exact sends.elim
  | writeRegister reg value =>
      simp only [perform, writeRegister, ChipOp.clearsRxDr]
      split
      · rename_i config
        subst config
        exact ⟨rfl, sends rfl, by simp [regConfig, regStatus]⟩
      · split
        · rename_i status
          subst status
          exact ⟨rfl, h, by simp⟩
        · rename_i other
          exact ⟨rfl, h, by simp [other]⟩
  | _ => exact ⟨rfl, h, by simp [perform, ChipOp.clearsRxDr]⟩

theorem Chip.read_single (c : Chip) {front : UInt8 × Frame} (fifo : c.fifo = [front]) :
    c.perform .readRxPayload = (front.2, { c with fifo := [] }) := by
  simp [perform, fifo]

theorem Chip.clear_rxDr (c : Chip) :
    c.writeRegister regStatus bitRxDr = { c with rxDr := false } := by
  have others : bitRxDr &&& bitTxDs = 0 ∧ bitRxDr &&& bitMaxRt = 0 := by decide
  have own : bitRxDr ≠ 0 := by decide
  simp [writeRegister, show regStatus ≠ regConfig by decide, others, own]

namespace Firmware

/-- A frame arrives while RX_DR is clear and, should the line be up for another
flag, while an event is pending or the task has yet to look at the flag; the
mutex take gives up only when no frame waits or another event does; the sender
clears RX_DR only when no frame waits. -/
def FramesMeet (s : Firmware) : Act → Prop
  | .frameArrives _ _ => s.chip.rxDr = false ∧ (s.chip.asserted = false ∨ 0 < s.irqQueue ∨
      s.receiver.pending.any RadioCall.seesFlag = true)
  | .receiver => s.receiver.pending = some (.takeMutex false) → s.mutex ≠ none →
      s.chip.fifo = [] ∨ 0 < s.irqQueue
  | .sender => ∀ op, s.sender.pending = some (.chip op) → op.clearsRxDr = true → s.chip.fifo = []
  | _ => True

structure Attended (s : Firmware) (p : RecvPoint) : Prop where
  tasks : s.AtPoint p
  unmasked : s.chip.Unmasked
  single : s.chip.fifo.length ≤ 1
  flag : s.chip.rxDr = true ↔ s.chip.fifo ≠ [] ∨ p.clearing = true
  event : s.chip.fifo ≠ [] → 0 < s.irqQueue ∨ p.fetching = true
  reading : p = .read → s.chip.fifo ≠ []
  emptied : p.clearing = true → s.chip.fifo = []
  order : s.arrived = handed s.radioLog ++ p.inHand ++ s.chip.fifo.map Prod.snd

theorem Start.attended {lim : Limits} {s : Firmware} (h : Start lim s) : s.Attended .wait where
  tasks := h.atPoint
  unmasked := by
    rw [h.chip]
    exact (by decide : Chip.started.config &&& bitRxDr = 0)
  single := by simp [h.chip, Chip.started]
  flag := by simp [h.chip, Chip.started, RecvPoint.clearing]
  event := by simp [h.chip, Chip.started]
  reading := nofun
  emptied := nofun
  order := by simp [h.chip, Chip.started, h.arrived, h.radioLog, handed, RecvPoint.inHand]

variable {s s' : Firmware} {p : RecvPoint}

theorem Attended.of_keepsRadio (h : s.Attended p) (k : KeepsRadio s s') : s'.Attended p where
  tasks := h.tasks.of_keepsRadio k
  unmasked := k.chip ▸ h.unmasked
  single := k.chip ▸ h.single
  flag := k.chip ▸ h.flag
  event := by
    rw [k.chip, k.irqQueue]
    exact h.event
  reading := k.chip ▸ h.reading
  emptied := k.chip ▸ h.emptied
  order := by
    rw [k.arrived, k.radioLog, k.chip]
    exact h.order

theorem setChip_event {c : Chip} (h : 0 < s.irqQueue) : 0 < (s.setChip c).irqQueue := by
  simp only [setChip]
  split <;> simp [irqQueueSize, h]

theorem setChip_edge {c : Chip} (down : s.chip.asserted = false) (up : c.asserted = true) :
    0 < (s.setChip c).irqQueue := by
  simp [setChip, down, up, irqQueueSize]

theorem Attended.sendFlag_step (h : s.Attended p) (c : Chip) (config : c.config = s.chip.config)
    (rxDr : c.rxDr = s.chip.rxDr) (fifo : c.fifo = s.chip.fifo) : (s.setChip c).Attended p where
  tasks := h.tasks.of_setChip c
  unmasked := (congrArg (fun v => v &&& bitRxDr) config).trans h.unmasked
  single := fifo ▸ h.single
  flag := by
    simp only [setChip, rxDr, fifo]
    exact h.flag
  event := fun waits => (h.event (fifo ▸ waits)).imp_left setChip_event
  reading := fun eq => fifo ▸ h.reading eq
  emptied := fun eq => fifo.trans (h.emptied eq)
  order := by
    simp only [setChip, fifo]
    exact h.order

/-- A frame that arrives when none waits raises the flag, and the line with it
unless an event is on its way already. -/
theorem Attended.frame_step {pipe : UInt8} {f : Frame} (h : s.Attended p)
    (hok : s.FramesMeet (.frameArrives pipe f)) :
    ({ s.setChip (s.chip.receive pipe f) with
      arrived := if s.chip.fifo.length < fifoDepth then s.arrived ++ [f] else s.arrived } :
      Firmware).Attended p := by
  obtain ⟨clear, noticed⟩ := hok
  have quiet : ¬(s.chip.fifo ≠ [] ∨ p.clearing = true) := by
    rw [← h.flag, clear]
    exact Bool.false_ne_true
  have empty : s.chip.fifo = [] := by
    by_contra waits
    exact quiet (.inl waits)
  have idle : p.clearing = false := by
    by_contra clears
    exact quiet (.inr (by simpa using clears))
  have received : s.chip.receive pipe f = { s.chip with rxDr := true, fifo := [(pipe, f)] } := by
    simp [Chip.receive, empty, fifoDepth]
  have up : (s.chip.receive pipe f).asserted = true := by
    have unmasked : s.chip.config &&& bitRxDr = 0 := h.unmasked
    simp [received, Chip.asserted, unmasked]
  have at_p := h.tasks.of_setChip (s.chip.receive pipe f)
  refine ⟨⟨at_p.sender, at_p.receiver, at_p.mutex⟩, ?_, ?_, ?_, ?_, ?_, ?_, ?_⟩
  · simp only [setChip, received]
    exact h.unmasked
  · simp [setChip, received]
  · simp [setChip, received]
  · intro _
    rcases noticed with down | pending | looks
    · exact .inl (setChip_edge down up)
    · exact .inl (setChip_event pending)
    · right
      rw [h.tasks.receiver] at looks
      cases p with
      | take => rfl
      | poll => rfl
      | wait => cases looks
      | read => cases looks
      | clear raw => cases looks
      | put raw msg => cases looks
      | give => cases looks
      | pause => cases looks
  · intro _
    simp [setChip, received]
  · intro clears
    rw [idle] at clears
    cases clears
  · simp [setChip, received, h.order, empty, fifoDepth]

theorem Attended.sender_step {lim : Limits} (h : s.Attended p) (hok : s.FramesMeet .sender)
    (hstep : s.stepSender lim = some s') : s'.Attended p := by
  obtain ⟨move, at_p⟩ := h.tasks.sender_step hstep
  obtain ⟨out, radioLog, of_sender⟩ := move.radioLog
  have same_log : handed s'.radioLog = handed s.radioLog := by
    rw [radioLog, handed, List.filterMap_append]
    exact (congrArg _ (handed_of_sender of_sender)).trans (List.append_nil _)
  rcases move.chip with ⟨chip, irqQueue⟩ | ⟨op, asks, sends, held, chip, irqQueue⟩
  · exact ⟨at_p, chip ▸ h.unmasked, chip ▸ h.single, chip ▸ h.flag, by rw [chip, irqQueue]; exact h.event,
      chip ▸ h.reading, chip ▸ h.emptied, by rw [move.arrived, same_log, chip]; exact h.order⟩
  · obtain ⟨fifo, unmasked, rxDr⟩ := s.chip.perform_of_sends sends h.unmasked
    have idle : p.clearing = false := by
      cases holds : p.holds with
      | true =>
          have := h.tasks.mutex.mp holds
          rw [held] at this
          cases this
      | false => cases p <;> first | rfl | cases holds
    refine ⟨at_p, chip ▸ unmasked, ?_, ?_, ?_, ?_, ?_, ?_⟩
    · rw [chip, fifo]
      exact h.single
    · rw [chip, rxDr, fifo, ← h.flag]
      cases clears : op.clearsRxDr with
      | false => simp
      | true =>
          have empty := hok op asks clears
          have down : s.chip.rxDr = false := by
            by_contra up
            have := h.flag.mp (by simpa using up)
            simp [empty, idle] at this
          simp [down]
    · rw [chip, fifo, irqQueue]
      exact fun waits => (h.event waits).imp_left setChip_event
    · rw [chip, fifo]
      exact h.reading
    · rw [chip, fifo]
      exact h.emptied
    · rw [move.arrived, same_log, chip, fifo]
      exact h.order

/-- The one frame of the FIFO goes into the hands of the task. -/
theorem Attended.read_step (h : s.Attended .read) {front : UInt8 × Frame}
    (fifo : s.chip.fifo = [front]) (at_p : s'.AtPoint (.clear front.2))
    (chip : s'.chip = { s.chip with fifo := [] }) (arrived : s'.arrived = s.arrived)
    (radioLog : s'.radioLog = s.radioLog) : s'.Attended (.clear front.2) := by
  have up : s.chip.rxDr = true := h.flag.mpr (.inl (h.reading rfl))
  refine ⟨at_p, ?_, ?_, ?_, ?_, by rintro ⟨⟩, ?_, ?_⟩
  · rw [chip]
    exact h.unmasked
  · simp [chip]
  · simp [chip, up, RecvPoint.clearing]
  · simp [chip]
  · simp [chip]
  · have order := h.order
    simpa [chip, arrived, radioLog, fifo, RecvPoint.inHand] using order

/-- The flag is cleared on an empty FIFO, and the frame is answered or handed on. -/
theorem Attended.clear_step {raw : Frame} (h : s.Attended (.clear raw)) {p' : RecvPoint}
    (at_p : s'.AtPoint p') (chip : s'.chip = { s.chip with rxDr := false })
    (arrived : s'.arrived = s.arrived) (there : p' ≠ .read) (idle : p'.clearing = false)
    (hands : handed s'.radioLog ++ p'.inHand = handed s.radioLog ++ [raw]) :
    s'.Attended p' := by
  have empty : s.chip.fifo = [] := h.emptied rfl
  refine ⟨at_p, ?_, ?_, ?_, ?_, fun eq => absurd eq there, ?_, ?_⟩
  · rw [chip]
    exact h.unmasked
  · rw [chip]
    exact h.single
  · simp [chip, empty, idle]
  · simp [chip, empty]
  · intro clearing
    cases idle.symm.trans clearing
  · rw [arrived, hands, chip]
    exact h.order

/-- Each move of the receive task keeps the account of the frames. -/
theorem Attended.receiver_step (h : s.Attended p) (hok : s.FramesMeet .receiver)
    (hstep : s.stepReceiver = some s') : ∃ p', s'.Attended p' := by
  obtain ⟨p', s₁, move, rfl, at_p⟩ := h.tasks.receiver_step hstep
  refine ⟨p', ?_⟩
  cases recvMove_cases move with
  | woken event =>
      exact ⟨at_p, h.unmasked, h.single, h.flag, fun _ => .inr rfl, by rintro ⟨⟩,
        by rintro ⟨⟩, h.order⟩
  | took free =>
      exact ⟨at_p, h.unmasked, h.single, h.flag, fun _ => .inr rfl, by rintro ⟨⟩,
        by rintro ⟨⟩, h.order⟩
  | missed taken =>
      have asks : s.receiver.pending = some (.takeMutex false) := by
        rw [h.tasks.receiver]
        rfl
      refine ⟨at_p, h.unmasked, h.single, h.flag, fun waits => ?_, by rintro ⟨⟩,
        by rintro ⟨⟩, h.order⟩
      exact .inl ((hok asks taken).resolve_left waits)
  | ready up =>
      have flagged : s.chip.rxDr = true := s.chip.status_rxDr.mp up
      have waits : s.chip.fifo ≠ [] := (h.flag.mp flagged).resolve_right Bool.false_ne_true
      exact ⟨at_p, h.unmasked, h.single, h.flag, fun _ => .inr rfl, fun _ => waits,
        by rintro ⟨⟩, h.order⟩
  | idle down =>
      have empty : s.chip.fifo = [] := by
        by_contra waits
        exact down (s.chip.status_rxDr.mpr (h.flag.mpr (.inl waits)))
      exact ⟨at_p, h.unmasked, h.single, h.flag, fun waits => absurd empty waits,
        by rintro ⟨⟩, by rintro ⟨⟩, h.order⟩
  | fetched =>
      obtain ⟨front, fifo⟩ := List.length_eq_one_iff.mp
        (le_antisymm h.single (List.length_pos_iff.mpr (h.reading rfl)))
      have popped := s.chip.read_single fifo
      rw [show (s.chip.perform .readRxPayload).1 = front.2 from congrArg Prod.fst popped] at at_p ⊢
      exact h.read_step fifo at_p (congrArg Prod.snd popped) rfl rfl
  | answered raw ping =>
      refine h.clear_step at_p s.chip.clear_rxDr rfl (by simp) rfl ?_
      simp [handed, RadioOut.frame, RecvPoint.inHand]
  | kept raw other => exact h.clear_step at_p s.chip.clear_rxDr rfl (by simp) rfl rfl
  | handedOn raw msg room =>
      refine ⟨at_p, h.unmasked, h.single, h.flag, h.event, by rintro ⟨⟩,
        by rintro ⟨⟩, ?_⟩
      have order := h.order
      simpa [handed, RadioOut.frame, RecvPoint.inHand] using order
  | gave =>
      exact ⟨at_p, h.unmasked, h.single, h.flag, h.event, by rintro ⟨⟩,
        by rintro ⟨⟩, h.order⟩
  | rested =>
      exact ⟨at_p, h.unmasked, h.single, h.flag, h.event, by rintro ⟨⟩,
        by rintro ⟨⟩, h.order⟩

theorem Attended.step {lim : Limits} {a : Act} (h : s.Attended p) (hok : s.FramesMeet a)
    (hstep : s.step lim a = some s') : ∃ p', s'.Attended p' := by
  cases a with
  | game => exact ⟨p, h.of_keepsRadio (stepGame_keepsRadio hstep)⟩
  | httpd => exact ⟨p, h.of_keepsRadio (stepHttpd_keepsRadio hstep)⟩
  | request r => exact ⟨p, h.of_keepsRadio (request_keepsRadio hstep)⟩
  | sender => exact ⟨p, h.sender_step hok hstep⟩
  | receiver => exact h.receiver_step hok hstep
  | frameArrives pipe f =>
      cases hstep
      exact ⟨p, h.frame_step hok⟩
  | sendFlag success =>
      cases hstep
      cases success with
      | true => exact ⟨p, h.sendFlag_step _ rfl rfl rfl⟩
      | false => exact ⟨p, h.sendFlag_step _ rfl rfl rfl⟩

/-- `io_receive_task` waits for an event, none is pending, and nothing is being sent. -/
structure Idle (s : Firmware) : Prop where
  waits : s.receiver.pending.any RadioCall.waitsForIrq = true
  noEvent : s.irqQueue = 0
  notSending : s.mutex ≠ some .sender

instance (s : Firmware) : Decidable s.Idle :=
  decidable_of_iff (s.receiver.pending.any RadioCall.waitsForIrq = true ∧ s.irqQueue = 0 ∧
    s.mutex ≠ some .sender) ⟨fun ⟨a, b, c⟩ => ⟨a, b, c⟩, fun ⟨a, b, c⟩ => ⟨a, b, c⟩⟩

/-- The frames handed on are the first of those that arrived, each once and in
order; while the receive task idles they are all of them. -/
structure NoneLeftBehind (s : Firmware) : Prop where
  empty : s.Idle → s.chip.fifo = []
  all : s.Idle → handed s.radioLog = s.arrived
  order : handed s.radioLog <+: s.arrived

theorem Attended.noneLeftBehind (h : s.Attended p) : s.NoneLeftBehind := by
  have waiting : s.Idle → p = .wait := by
    intro idle
    have waits := idle.waits
    rw [h.tasks.receiver] at waits
    cases p with
    | wait => rfl
    | take => cases waits
    | poll => cases waits
    | read => cases waits
    | clear raw => cases waits
    | put raw msg => cases waits
    | give => cases waits
    | pause => cases waits
  have empty : s.Idle → s.chip.fifo = [] := by
    intro idle
    by_contra waits
    rcases h.event waits with pending | fetching
    · exact absurd idle.noEvent pending.ne'
    · rw [waiting idle] at fetching
      cases fetching
  refine ⟨empty, fun idle => ?_, p.inHand ++ s.chip.fifo.map Prod.snd, ?_⟩
  · rw [h.order, waiting idle, empty idle]
    simp [RecvPoint.inHand]
  · rw [h.order, List.append_assoc]

/-- In runs in which arrivals, events and flags meet, every frame is handed on
once and in order. -/
theorem no_frame_left {lim : Limits} (h : Reaches (Firmware.step lim) FramesMeet (Start lim) s) :
    s.NoneLeftBehind := by
  have attended : ∃ p, s.Attended p := by
    apply h.invariant
    · exact fun t start => ⟨.wait, start.attended⟩
    · rintro t a t' ⟨p, ih⟩ hok hstep
      exact ih.step hok hstep
  obtain ⟨p, h⟩ := attended
  exact h.noneLeftBehind

def takesMutex : RadioCall → Bool
  | .takeMutex _ => true
  | _ => false

/-- A frame into a quiet chip, or a move of the receive task past a free mutex. -/
def Undisturbed (s : Firmware) : Act → Prop
  | .frameArrives _ _ => s.chip.rxDr = false ∧ s.chip.asserted = false
  | .receiver => s.mutex = none ∨ s.receiver.pending.any takesMutex = false
  | _ => False

instance undisturbedDecidable (s : Firmware) : ∀ a, Decidable (s.Undisturbed a)
  | .frameArrives _ _ => inferInstanceAs (Decidable (_ ∧ _))
  | .receiver => inferInstanceAs (Decidable (_ ∨ _))
  | .game => inferInstanceAs (Decidable False)
  | .httpd => inferInstanceAs (Decidable False)
  | .request _ => inferInstanceAs (Decidable False)
  | .sender => inferInstanceAs (Decidable False)
  | .sendFlag _ => inferInstanceAs (Decidable False)

theorem Undisturbed.framesMeet {a : Act} (h : s.Undisturbed a) : s.FramesMeet a := by
  cases a with
  | frameArrives pipe f => exact ⟨h.1, .inl h.2⟩
  | receiver =>
      intro asks taken
      rcases h with free | other
      · exact absurd free taken
      · rw [asks] at other
        cases other
  | _ => exact h.elim

/-- Frames that arrive one after the other, each taken and handed on before the next. -/
def spacedRun (frames : List Frame) : List Act :=
  frames.flatMap fun f => .frameArrives 1 f :: List.replicate 8 .receiver

theorem no_frame_left_spaced : ∃ s : Firmware, s.arrived.length = 3 ∧ s.chip.fifo = [] ∧
    handed s.radioLog = s.arrived := by
  have run : (runList (Firmware.step ⟨0, none⟩) (boot ⟨0, none⟩)
      (spacedRun [fun _ => 65, fun _ => 66, fun _ => 67])).any
      (fun s => decide (s.Idle ∧ s.arrived.length = 3)) = true := by decide +kernel
  have meets : Meets (Firmware.step ⟨0, none⟩) Undisturbed (boot ⟨0, none⟩)
      (spacedRun [fun _ => 65, fun _ => 66, fun _ => 67]) := by decide +kernel
  obtain ⟨s, reached, check⟩ := exists_reaches_of_meets (boot_start _) meets run
  obtain ⟨idle, three⟩ := of_decide_eq_true check
  have left := no_frame_left (reached.imp fun _ _ ok => ok.framesMeet)
  exact ⟨s, three, left.empty idle, left.all idle⟩

/-- Two frames arrive before the task looks; one event, one read, one clear. -/
def pairRun (f : Frame) : List Act :=
  [.frameArrives 1 f, .frameArrives 1 f] ++ List.replicate 8 .receiver

theorem frame_left_behind : ∃ s, Reaches (Firmware.step ⟨0, none⟩) (fun _ _ => True)
    (Start ⟨0, none⟩) s ∧ s.Idle ∧ s.chip.fifo ≠ [] := by
  have run : (runList (Firmware.step ⟨0, none⟩) (boot ⟨0, none⟩) (pairRun (fun _ => 65))).any
      (fun s => decide (s.Idle ∧ s.chip.fifo ≠ [])) = true := by decide +kernel
  obtain ⟨s, reached, left⟩ := exists_reaches (boot_start _) run
  exact ⟨s, reached, of_decide_eq_true left⟩

end Firmware
end Battleship
