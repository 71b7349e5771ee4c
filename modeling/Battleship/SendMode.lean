import Battleship.Radio

/-!
# Back to receive mode

`Nrf24_isSending` returns the radio to receive mode when the chip reports the
end of a transmission. `io_send_task` counts its polls, and after the last one
it gives up without the report. As long as the report is there by then, the
mutex is given back in receive mode and no later send waits for an old one.
-/
namespace Battleship
open Cooperative Runs

/-- Another task has saved a status. -/
def Nrf.saw (n : Nrf) (status : UInt8) : Nrf := { n with status := status }

def Listening (n : Nrf) (config : UInt8) : Prop := n.ptx = false ∧ config &&& primRx ≠ 0

/-- A message is on the air and has been polled `polls` times. -/
def OnAir (polls : Nat) (n : Nrf) (_ : UInt8) : Prop :=
  n.ptx = true ∧ n.retryCount = polls ∧ polls ≤ maxRetries

def RadioOut.NotWait : RadioOut → Prop
  | .waitTurn => False
  | _ => True

/-- The mutex may be given back in receive mode; a status read after the last
retry reports an end. The second component is the last `CONFIG` written. -/
def modeSpec : Prog.CallSpec Nrf UInt8 RadioCall RadioCall.Ans := fun c e K =>
  match c, K with
  | .giveMutex, K => Listening e.1 e.2 ∧ ∀ st, K () (e.1.saw st, e.2)
  | .chip .readStatus, K => ∀ status st,
      (e.1.retryCount = maxRetries → sendEnded status = true) → K status (e.1.saw st, e.2)
  | .chip (.writeRegister reg value), K => ∀ st,
      K () (e.1.saw st, if reg = regConfig then value else e.2)
  | _, K => ∀ a st, K a (e.1.saw st, e.2)

theorem modeSpec_mono : Prog.CallSpec.Mono modeSpec := by
  intro c e K K' imp h
  cases c with
  | giveMutex => exact ⟨h.1, fun st => imp _ _ (h.2 st)⟩
  | chip op =>
      cases op with
      | readStatus => exact fun status st ended => imp _ _ (h status st ended)
      | writeRegister reg value => exact fun st => imp _ _ (h st)
      | _ => exact fun a st => imp _ _ (h a st)
  | _ => exact fun a st => imp _ _ (h a st)

theorem modeSpec_saw {c : RadioCall} {n : Nrf} {st config : UInt8}
    {K : c.Ans → Nrf × UInt8 → Prop} (h : modeSpec c (n, config) K) :
    modeSpec c (n.saw st, config) K := by
  cases c with
  | chip op => cases op <;> exact h
  | _ => exact h

/-- From a memory and `CONFIG` in `P` the program ends in `Q`, without a turn of
the wait loop. -/
def Mode {α : Type} (P : Nrf → UInt8 → Prop) (t : RadioTask α) (Q : α → Nrf → UInt8 → Prop) :
    Prop :=
  ∀ n config, P n config →
    Prog.wp modeSpec RadioOut.NotWait t (fun a e => Q a e.1 e.2) (n, config)

namespace Mode
variable {α β : Type} {P : Nrf → UInt8 → Prop} {Q : α → Nrf → UInt8 → Prop}
  {R : β → Nrf → UInt8 → Prop}

theorem bind {t : RadioTask α} {g : α → RadioTask β} (ht : Mode P t Q)
    (hg : ∀ a, Mode (Q a) (g a) R) : Mode P (t >>= g) R := by
  intro n config before
  apply Prog.wp_bind modeSpec_mono
  apply Prog.wp_mono modeSpec_mono t _ _ (ht n config before)
  exact fun a e after => hg a e.1 e.2 after

theorem ret (a : α) (h : ∀ n config, P n config → Q a n config) : Mode P (.ret a) Q := h

theorem write (f : Nrf → Nrf) {R : Unit → Nrf → UInt8 → Prop}
    (h : ∀ n config, P n config → R () (f n) config) : Mode P (Prog.modify f) R :=
  fun n config before => ⟨fun _ ho => absurd ho List.not_mem_nil, h n config before⟩

/-- A read binds the memory it saw. -/
theorem get {g : Nrf → RadioTask β} (h : ∀ m, Mode (fun n config => P n config ∧ n = m) (g m) R) :
    Mode P (Prog.get >>= g) R :=
  fun n config before => ⟨fun _ ho => absurd ho List.not_mem_nil, h n n config ⟨before, rfl⟩⟩

theorem config (value : UInt8) {R : Unit → Nrf → UInt8 → Prop}
    (h : ∀ n config st, P n config → R () (n.saw st) value) :
    Mode P (nrf24ConfigRegister regConfig value) R :=
  fun n config before st => h n config st before

theorem clearFlags (value : UInt8) {R : Unit → Nrf → UInt8 → Prop}
    (h : ∀ n config st, P n config → R () (n.saw st) config) :
    Mode P (nrf24ConfigRegister regStatus value) R :=
  fun n config before st => h n config st before

end Mode

theorem listening_saw {n : Nrf} {config : UInt8} (st : UInt8) (h : Listening n config) :
    Listening (n.saw st) config := h

theorem powerUpRx_mode : Mode (fun _ _ => True) nrf24PowerUpRx (fun _ => Listening) := by
  apply Mode.bind (Q := fun _ n _ => n.ptx = false) (.write _ fun _ _ _ => rfl)
  intro _
  apply Mode.bind (Q := fun _ n _ => n.ptx = false)
  · exact fun n config off _ st => off
  intro _
  apply Mode.bind (Q := fun _ => Listening)
  · exact .config _ fun n config st off => ⟨off, by decide⟩
  intro _
  apply Mode.bind (Q := fun _ => Listening)
  · exact fun n config listening _ st => listening
  exact fun _ => .clearFlags _ fun n config st listening => listening

theorem powerUpTx_mode : Mode (fun n _ => n.retryCount = 0) nrf24PowerUpTx (fun _ => OnAir 0) := by
  apply Mode.bind (Q := fun _ => OnAir 0)
  · exact .write _ fun n _ fresh => ⟨rfl, fresh, Nat.zero_le _⟩
  intro _
  apply Mode.bind (Q := fun _ => OnAir 0)
  · exact .config _ fun n config st onAir => onAir
  exact fun _ => .clearFlags _ fun n config st onAir => onAir

/-- In receive mode the loop at the head of `Nrf24_send` is not entered. -/
theorem waitLastSent_mode (fuel : Nat) :
    Mode (fun n config => Listening n config ∧ n.retryCount = 0) (waitLastSent fuel)
      (fun _ n _ => n.retryCount = 0) := by
  cases fuel with
  | zero => exact fun _ _ _ => trivial
  | succ fuel =>
      apply Mode.get
      intro m
      rintro n config ⟨⟨listening, fresh⟩, rfl⟩
      rw [if_neg (by simp [listening.1])]
      exact fresh

theorem send_mode (fuel : Nat) (value : Frame) :
    Mode (fun n config => Listening n config ∧ n.retryCount = 0) (nrf24Send fuel value)
      (fun _ => OnAir 0) := by
  apply Mode.bind (Q := fun _ n config => Listening n config ∧ n.retryCount = 0)
  · exact fun n config before _ st _ => before
  intro _
  apply Mode.bind (waitLastSent_mode fuel)
  intro _
  apply Mode.bind (Q := fun _ n _ => n.retryCount = 0)
  · exact fun n config fresh _ st => fresh
  intro _
  apply Mode.bind powerUpTx_mode
  intro _
  apply Mode.bind (Q := fun _ => OnAir 0)
  · exact fun n config onAir _ st => onAir
  intro _
  apply Mode.bind (Q := fun _ => OnAir 0)
  · exact fun n config onAir _ st => onAir
  exact fun _ n config onAir _ st => onAir

/-- A poll either ends in receive mode or leaves the message on the air, and then
it was not the last. -/
theorem isSending_mode (polls : Nat) :
    Mode (OnAir polls) nrf24IsSending (fun sending n config =>
      if sending then OnAir polls n config ∧ polls < maxRetries else Listening n config) := by
  apply Mode.get
  intro m
  rintro n config ⟨⟨onAir, count, bound⟩, rfl⟩
  rw [if_pos onAir]
  intro status st reported
  show Prog.wp modeSpec RadioOut.NotWait
    (if sendEnded status = true then nrf24PowerUpRx >>= fun _ => .ret false else .ret true) _ _
  by_cases ended : sendEnded status = true
  · rw [if_pos ended]
    apply Prog.wp_bind modeSpec_mono
    apply Prog.wp_mono modeSpec_mono _ _ _ (powerUpRx_mode _ _ trivial)
    exact fun _ e listening => listening
  · rw [if_neg ended]
    have last : polls ≠ maxRetries := fun eq => ended (reported (count.trans eq))
    exact ⟨⟨onAir, count, bound⟩, lt_of_le_of_ne bound last⟩

/-- The retry counter runs out only behind a report. -/
theorem waitSent_mode (turns polls : Nat) :
    Mode (OnAir polls) (waitSent turns) (fun _ => Listening) := by
  induction turns generalizing polls with
  | zero => exact fun _ _ _ => trivial
  | succ turns ih =>
      apply Mode.bind (isSending_mode polls)
      intro sending
      cases sending with
      | false => exact .ret () fun _ _ listening => listening
      | true =>
          apply Mode.get
          intro m
          rintro n config ⟨⟨⟨onAir, count, bound⟩, more⟩, rfl⟩
          have retry : n.retryCount < maxRetries := count ▸ more
          rw [if_pos retry]
          apply Prog.wp_bind modeSpec_mono
          refine ⟨fun _ ho => absurd ho List.not_mem_nil, ?_⟩
          exact fun _ st => ih (polls + 1) _ config ⟨onAir, congrArg (· + 1) count, more⟩

theorem sendMessage_mode (fuel : Nat) (msg : IoMessage) :
    Mode (fun n config => Listening n config ∧ n.retryCount = 0) (sendMessage fuel msg)
      (fun _ => Listening) := by
  apply Mode.bind (Q := fun _ n config => Listening n config ∧ n.retryCount = 0)
  · exact fun n config before _ _ _ _ _ st => before
  intro _
  apply Mode.bind (send_mode fuel _)
  exact fun _ => waitSent_mode _ 0

theorem ioSendTask_mode (fuel : Nat) :
    Mode Listening (ioSendTask fuel) (fun _ => Listening) := by
  apply Mode.bind (Q := fun _ => Listening)
  · exact fun n config listening _ st => listening
  intro msg
  apply Mode.bind (Q := fun _ n config => Listening n config ∧ n.retryCount = 0)
  · exact .write _ fun n config listening => ⟨listening, rfl⟩
  intro _
  apply Mode.bind (Q := fun _ n config => Listening n config ∧ n.retryCount = 0)
  · exact fun n config before _ st => before
  intro _
  apply Mode.bind (sendMessage_mode fuel msg)
  intro _
  apply Mode.bind (Q := fun _ => Listening)
  · exact fun n config listening => ⟨listening, fun st => listening⟩
  exact fun _ n config listening _ st => listening

theorem resume_mode {body t : RadioTask Unit} {n : Nrf} {config : UInt8}
    (hb : Mode Listening body (fun _ => Listening))
    (ht : Prog.wp modeSpec RadioOut.NotWait t (fun _ e => Listening e.1 e.2) (n, config)) :
    Prog.wp modeSpec RadioOut.NotWait (Firmware.resume body t) (fun _ e => Listening e.1 e.2)
      (n, config) := by
  cases t with
  | ret a => exact hb n config ht
  | undefined => exact ht
  | starved => exact ht
  | step f k => exact ht
  | call c k => exact ht

theorem Chip.writeRegister_config (c : Chip) (reg value : UInt8) :
    (c.writeRegister reg value).config = if reg = regConfig then value else c.config := by
  simp only [writeRegister]
  split_ifs <;> rfl

theorem Chip.perform_config (c : Chip) {o : ChipOp}
    (h : ∀ reg value, o ≠ .writeRegister reg value) : (c.perform o).2.config = c.config := by
  cases o with
  | writeRegister reg value => exact absurd rfl (h reg value)
  | readRxPayload =>
      simp only [perform]
      split <;> rfl
  | _ => rfl

namespace Firmware

/-- A poll after the last retry finds TX_DS or MAX_RT set. -/
def ReportedInTime (s : Firmware) : Act → Prop
  | .sender => s.sender.pending = some (.chip .readStatus) → s.nrf.retryCount = maxRetries →
      s.chip.txDs = true ∨ s.chip.maxRt = true
  | _ => True

structure InMode (s : Firmware) : Prop where
  tasks : ∃ p, s.AtPoint p
  sender : ∀ st, Prog.wp modeSpec RadioOut.NotWait s.sender (fun _ e => Listening e.1 e.2)
    (s.nrf.saw st, s.chip.config)
  log : ∀ o ∈ s.radioLog, o.NotWait

theorem Start.inMode {lim : Limits} {s : Firmware} (h : Start lim s) : s.InMode where
  tasks := ⟨.wait, h.atPoint⟩
  sender := by
    intro st
    rw [h.sender, h.chip]
    exact ioSendTask_mode lim.fuel _ _ ⟨h.ptx, by decide⟩
  log := by simp [h.radioLog]

variable {s s' : Firmware}

theorem InMode.of_keepsRadio (h : s.InMode) (k : KeepsRadio s s') : s'.InMode where
  tasks := h.tasks.imp fun _ at_p => at_p.of_keepsRadio k
  sender := by
    rw [k.sender, k.nrf, k.chip]
    exact h.sender
  log := k.radioLog ▸ h.log

theorem InMode.of_chip (h : s.InMode) {c : Chip} (config : c.config = s.chip.config) :
    (s.setChip c).InMode where
  tasks := h.tasks.imp fun _ at_p => at_p.of_setChip c
  sender := by
    intro st
    have same := h.sender st
    rw [← config] at same
    exact same
  log := h.log

/-- The receive task saves a status, and leaves the mode and `CONFIG` alone. -/
theorem recvMove_mode {p p' : RecvPoint} (move : s.recvMove p = some (p', s')) :
    (∀ st, s'.nrf.saw st = s.nrf.saw st) ∧ s'.chip.config = s.chip.config ∧
      ∃ out, s'.radioLog = s.radioLog ++ out ∧ ∀ o ∈ out, o.NotWait := by
  have nothing : ∃ out, s.radioLog = s.radioLog ++ out ∧ ∀ o ∈ out, o.NotWait :=
    ⟨[], by simp, by simp⟩
  cases recvMove_cases move with
  | fetched =>
      refine ⟨fun _ => rfl, ?_, nothing⟩
      simp only [setChip, Chip.perform]
      split <;> rfl
  | answered raw => exact ⟨fun _ => rfl, rfl, [_], rfl, by simp [RadioOut.NotWait]⟩
  | handedOn raw msg => exact ⟨fun _ => rfl, rfl, [_], rfl, by simp [RadioOut.NotWait]⟩
  | _ => exact ⟨fun _ => rfl, rfl, nothing⟩

theorem InMode.receiver_step (h : s.InMode) (hstep : s.stepReceiver = some s') : s'.InMode := by
  obtain ⟨p, at_p⟩ := h.tasks
  obtain ⟨p', s₁, move, rfl, at_p'⟩ := at_p.receiver_step hstep
  obtain ⟨nrf, config, out, radioLog, not_wait⟩ := recvMove_mode move
  obtain ⟨sender, -, -⟩ := recvMove_mutex at_p.mutex move
  refine ⟨⟨p', at_p'⟩, fun st => ?_, fun o ho => ?_⟩
  · have same := h.sender st
    rw [← nrf st, ← config, ← sender] at same
    exact same
  · rw [radioLog] at ho
    rcases List.mem_append.mp ho with old | new
    · exact h.log o old
    · exact not_wait o new

/-- The answer to a call of the sender meets what the mode asks. -/
theorem answerRadio_mode {s₁ : Firmware} {c : RadioCall} {k : c.Ans → RadioTask Unit} {a : c.Ans}
    (h : s.InMode) (hok : s.ReportedInTime .sender) (at_call : s.sender = .call c k)
    (answered : s.answerRadio .sender c = some (a, s₁)) :
    Prog.wp modeSpec RadioOut.NotWait (k a) (fun _ e => Listening e.1 e.2)
      (s₁.nrf, s₁.chip.config) := by
  have asked := h.sender s.nrf.status
  rw [at_call] at asked
  cases c with
  | takeMessage =>
      simp only [answerRadio] at answered
      split at answered
      · cases answered
      · cases answered
        exact asked a _
  | takeIrq =>
      simp only [answerRadio] at answered
      split at answered
      · cases answered
        exact asked () _
      · cases answered
  | takeMutex forever =>
      simp only [answerRadio] at answered
      split_ifs at answered
      · cases answered
        exact asked true _
      · cases answered
        exact asked false _
  | giveMutex =>
      cases answered
      exact asked.2 _
  | putMessage m =>
      simp only [answerRadio] at answered
      split at answered
      · cases answered
        exact asked () _
      · cases answered
  | pause ms =>
      cases answered
      exact asked () _
  | chip op =>
      cases answered
      cases op with
      | readStatus =>
          refine asked _ s.nrf.status fun last => ?_
          have reported := hok (by rw [at_call]; rfl) last
          rw [show (s.chip.perform .readStatus).1 = s.chip.status from rfl, Chip.sendEnded_status]
          simpa using reported
      | writeRegister reg value =>
          have rest := asked s.nrf.status
          rw [← Chip.writeRegister_config s.chip reg value] at rest
          exact rest
      | writeAddress reg adr => exact asked () s.nrf.status
      | readAddress reg => exact asked () s.nrf.status
      | flushTx => exact asked () s.nrf.status
      | writeTxPayload f => exact asked () s.nrf.status
      | readRxPayload =>
          have rest := asked (s.chip.perform .readRxPayload).1 s.nrf.status
          rw [← s.chip.perform_config (o := .readRxPayload) (by rintro _ _ ⟨⟩)] at rest
          exact rest
      | ce level => exact asked () s.nrf.status

theorem InMode.sender_step {lim : Limits} (h : s.InMode) (hok : s.ReportedInTime .sender)
    (hstep : s.stepSender lim = some s') : s'.InMode := by
  obtain ⟨p, at_p⟩ := h.tasks
  obtain ⟨move, at_p'⟩ := at_p.sender_step hstep
  obtain ⟨c, k, a, s₁, at_call, answered, rfl⟩ := stepSender_cases hstep
  have rest := answerRadio_mode h hok at_call answered
  refine ⟨⟨p, at_p'⟩, fun st => ?_, fun o ho => ?_⟩
  · apply resume_mode (ioSendTask_mode lim.fuel)
    apply Prog.wp_settle_stable (R := fun n n' => ∃ st, n' = n.saw st) _ _ (k a) rest ⟨st, rfl⟩
    · rintro c n _ config K ⟨st, rfl⟩ asked
      exact modeSpec_saw asked
    · rintro _ n _ config ⟨st, rfl⟩ listening
      exact listening_saw st listening
  · rw [(answerRadio_keeps answered).2] at ho
    rcases List.mem_append.mp ho with old | new
    · exact h.log o old
    · exact (Prog.wp_settle (k a) _ _ _ rest).2 o new

theorem InMode.step {lim : Limits} {a : Act} (h : s.InMode) (hok : s.ReportedInTime a)
    (hstep : s.step lim a = some s') : s'.InMode := by
  cases a with
  | game => exact h.of_keepsRadio (stepGame_keepsRadio hstep)
  | httpd => exact h.of_keepsRadio (stepHttpd_keepsRadio hstep)
  | request r => exact h.of_keepsRadio (request_keepsRadio hstep)
  | sender => exact h.sender_step hok hstep
  | receiver => exact h.receiver_step hstep
  | frameArrives pipe f =>
      cases hstep
      have config : (s.chip.receive pipe f).config = s.chip.config := by
        simp only [Chip.receive]
        split <;> rfl
      obtain ⟨tasks, sender, log⟩ := h.of_chip config
      exact ⟨tasks.imp fun _ at_p => ⟨at_p.sender, at_p.receiver, at_p.mutex⟩, sender, log⟩
  | sendFlag success =>
      cases hstep
      apply h.of_chip
      cases success <;> rfl

/-- The mutex is given back in receive mode, and no send has waited for an
earlier one. -/
structure ModeRestored (s : Firmware) : Prop where
  given : s.sender.pending = some .giveMutex → Listening s.nrf s.chip.config
  noWait : RadioOut.waitTurn ∉ s.radioLog

theorem InMode.modeRestored (h : s.InMode) : s.ModeRestored where
  given := by
    intro gives
    obtain ⟨k, at_call⟩ := Prog.pending_eq_some gives
    have asked := h.sender s.nrf.status
    rw [at_call] at asked
    exact asked.1
  noWait := fun waited => h.log _ waited

/-- When every message is reported sent or failed before its retries run out,
the radio is in receive mode whenever the mutex is given back. -/
theorem mode_restored {lim : Limits}
    (h : Reaches (Firmware.step lim) ReportedInTime (Start lim) s) : s.ModeRestored := by
  have inMode : s.InMode := by
    apply h.invariant
    · exact fun t start => start.inMode
    · exact fun t a t' ih hok hstep => InMode.step ih hok hstep
  exact inMode.modeRestored

def RadioCall.gives : RadioCall → Bool
  | .giveMutex => true
  | _ => false

theorem pending_gives {c : Option RadioCall} (h : c.any RadioCall.gives = true) :
    c = some .giveMutex := by
  obtain ⟨call, rfl, gives⟩ := (Option.any_eq_true _ _).mp h
  cases call with
  | giveMutex => rfl
  | _ => cases gives

/-- Every poll after the last retry finds one of the two flags. -/
def Reported (s : Firmware) : Act → Prop
  | .sender => s.nrf.retryCount < maxRetries ∨ s.chip.txDs = true ∨ s.chip.maxRt = true
  | _ => True

instance (s : Firmware) : ∀ a, Decidable (s.Reported a)
  | .sender => inferInstanceAs (Decidable (_ ∨ _))
  | .game => .isTrue trivial
  | .httpd => .isTrue trivial
  | .request _ => .isTrue trivial
  | .receiver => .isTrue trivial
  | .frameArrives _ _ => .isTrue trivial
  | .sendFlag _ => .isTrue trivial

theorem Reported.inTime {a : Act} (h : s.Reported a) : s.ReportedInTime a := by
  cases a with
  | sender =>
      intro _ last
      rcases h with early | reported
      · exact absurd last early.ne
      · exact reported
  | _ => trivial

/-- The message of `led_matrix_init` goes out, and TX_DS is up at the last poll of all. -/
def sentRun : List Act :=
  List.replicate 51 .sender ++ [.sendFlag true] ++ List.replicate 6 .sender

theorem mode_restored_sent : ∃ s : Firmware, s.sender.pending = some .giveMutex ∧
    s.nrf.retryCount = maxRetries ∧ Listening s.nrf s.chip.config ∧
    RadioOut.waitTurn ∉ s.radioLog := by
  have run : (runList (Firmware.step ⟨3, none⟩) (boot ⟨3, none⟩) sentRun).any (fun s =>
      s.sender.pending.any RadioCall.gives && decide (s.nrf.retryCount = maxRetries)) = true := by
    decide +kernel
  have meets : Meets (Firmware.step ⟨3, none⟩) Reported (boot ⟨3, none⟩) sentRun := by
    decide +kernel
  obtain ⟨s, reached, check⟩ := exists_reaches_of_meets (boot_start _) meets run
  simp only [Bool.and_eq_true, decide_eq_true_eq] at check
  have gives := pending_gives check.1
  have restored := mode_restored (reached.imp fun _ _ ok => ok.inTime)
  exact ⟨s, gives, check.2, restored.given gives, restored.noWait⟩

def onlyWaited : List RadioOut → Bool
  | [.waitTurn] => true
  | _ => false

theorem eq_of_onlyWaited {log : List RadioOut} (h : onlyWaited log = true) : log = [.waitTurn] := by
  unfold onlyWaited at h
  split at h
  · rfl
  · cases h

/-- The message of `led_matrix_init` goes out and the chip never reports. -/
def silentRun : List Act := List.replicate 54 .sender

/-- The game sends the next message, and the sender takes it up to its first
turn in the wait loop. -/
def waitRun : List Act := silentRun ++ List.replicate 3 .game ++ List.replicate 8 .sender

theorem mode_lost : (∃ s, Reaches (Firmware.step ⟨3, none⟩) (fun _ _ => True) (Start ⟨3, none⟩) s ∧
      s.sender.pending = some .giveMutex ∧ s.nrf.ptx = true ∧ s.chip.config &&& primRx = 0) ∧
    ∃ s, Reaches (Firmware.step ⟨3, none⟩) (fun _ _ => True) (Start ⟨3, none⟩) s ∧
      s.radioLog = [.waitTurn] := by
  have silent : (runList (Firmware.step ⟨3, none⟩) (boot ⟨3, none⟩) silentRun).any
      (fun s => s.sender.pending.any RadioCall.gives && s.nrf.ptx &&
        decide (s.chip.config &&& primRx = 0)) = true := by decide +kernel
  have waits : (runList (Firmware.step ⟨3, none⟩) (boot ⟨3, none⟩) waitRun).any
      (fun s => onlyWaited s.radioLog) = true := by decide +kernel
  constructor
  · obtain ⟨s, reached, check⟩ := exists_reaches (boot_start _) silent
    simp only [Bool.and_eq_true, decide_eq_true_eq] at check
    exact ⟨s, reached, pending_gives check.1.1, check.1.2, check.2⟩
  · obtain ⟨s, reached, check⟩ := exists_reaches (boot_start _) waits
    exact ⟨s, reached, eq_of_onlyWaited check⟩

end Firmware
end Battleship
