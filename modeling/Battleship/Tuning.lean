import Battleship.Interleaving
import Battleship.Posting
import Battleship.Registers
import Battleship.SendMode

/-!
# The receiving side stays as it was set up

The firmware with all registers of the chip, from `io_thread_init` on. The two
radio tasks write to CONFIG, STATUS and the addresses of a transmission, so what
the bring-up has set for receiving is there in every run.
-/
namespace Battleship
open Cooperative Runs

/-- The registers of a transmission. -/
def sendRegisters : List UInt8 := [regConfig, regStatus, regRxAddrP0, regTxAddr]

/-- Writes to these registers only, and as many bytes as they have. -/
def ChipOp.Plain : ChipOp → Prop
  | .writeRegister reg _ => reg = regConfig ∨ reg = regStatus
  | .writeAddress reg adr => (reg = regRxAddrP0 ∨ reg = regTxAddr) ∧ adr.length = 5
  | _ => True

def RadioCall.Plain : RadioCall → Prop
  | .chip op => op.Plain
  | _ => True

section Tasks

abbrev PlainTask {α : Type} (t : RadioTask α) : Prop := Prog.Asks RadioCall.Plain t

theorem chipDo_plain (op : ChipOp) (h : op.Plain) : PlainTask (chipDo op) := ⟨h, fun _ => trivial⟩

theorem sys_plain {c : RadioCall} (h : c.Plain) : PlainTask (Prog.sys c : RadioTask c.Ans) :=
  ⟨h, fun _ => trivial⟩

theorem setPtx_plain (v : Bool) : PlainTask (setPtx v) := fun _ => trivial

theorem config_plain {reg : UInt8} (value : UInt8) (h : reg = regConfig ∨ reg = regStatus) :
    PlainTask (nrf24ConfigRegister reg value) := chipDo_plain _ h

theorem ce_plain (level : Bool) : PlainTask (chipDo (.ce level)) :=
  chipDo_plain (.ce level) trivial

theorem getStatus_plain : PlainTask nrf24GetStatus := chipDo_plain .readStatus trivial

theorem powerUpRx_plain : PlainTask nrf24PowerUpRx := by
  apply Prog.Asks.bind (setPtx_plain _)
  intro _
  apply Prog.Asks.bind (ce_plain false)
  intro _
  apply Prog.Asks.bind (config_plain _ (.inl rfl))
  intro _
  apply Prog.Asks.bind (ce_plain true)
  exact fun _ => config_plain _ (.inr rfl)

theorem powerUpTx_plain : PlainTask nrf24PowerUpTx := by
  apply Prog.Asks.bind (setPtx_plain _)
  intro _
  apply Prog.Asks.bind (config_plain _ (.inl rfl))
  exact fun _ => config_plain _ (.inr rfl)

theorem setTaddr_plain {adr : List UInt8} (size : adr.length = 5) :
    PlainTask (nrf24SetTaddr adr) := by
  apply Prog.Asks.bind (chipDo_plain (.writeAddress regRxAddrP0 adr) ⟨.inl rfl, size⟩)
  intro _
  apply Prog.Asks.bind (chipDo_plain (.writeAddress regTxAddr adr) ⟨.inr rfl, size⟩)
  exact fun _ => chipDo_plain (.readAddress regRxAddrP0) trivial

theorem waitLastSent_plain (fuel : Nat) : PlainTask (waitLastSent fuel) := by
  induction fuel with
  | zero => trivial
  | succ fuel ih =>
      intro n
      refine Prog.Asks.ite (fun _ => ?_) trivial
      apply Prog.Asks.bind getStatus_plain
      exact fun status => .ite (setPtx_plain _) ih

theorem send_plain (fuel : Nat) (value : Frame) : PlainTask (nrf24Send fuel value) := by
  apply Prog.Asks.bind getStatus_plain
  intro _
  apply Prog.Asks.bind (waitLastSent_plain fuel)
  intro _
  apply Prog.Asks.bind (ce_plain false)
  intro _
  apply Prog.Asks.bind powerUpTx_plain
  intro _
  apply Prog.Asks.bind (chipDo_plain .flushTx trivial)
  intro _
  apply Prog.Asks.bind (chipDo_plain (.writeTxPayload value) trivial)
  exact fun _ => ce_plain true

theorem isSending_plain : PlainTask nrf24IsSending := by
  intro n
  refine Prog.Asks.ite ?_ trivial
  apply Prog.Asks.bind getStatus_plain
  exact fun status => .ite (.bind powerUpRx_plain fun _ => trivial) trivial

theorem waitSent_plain (turns : Nat) : PlainTask (waitSent turns) := by
  induction turns with
  | zero => trivial
  | succ turns ih =>
      apply Prog.Asks.bind isSending_plain
      intro sending
      refine Prog.Asks.ite (fun n => ?_) trivial
      refine Prog.Asks.ite (fun _ => ?_) (config_plain _ (.inr rfl))
      apply Prog.Asks.bind (sys_plain (c := .pause 10) trivial)
      exact fun _ => ih

theorem ioSendTask_plain (fuel : Nat) : PlainTask (ioSendTask fuel) := by
  apply Prog.Asks.bind (sys_plain (c := .takeMessage) trivial)
  intro msg _
  apply Prog.Asks.bind (sys_plain (c := .takeMutex true) trivial)
  intro _
  apply Prog.Asks.bind (t := sendMessage fuel msg)
  · apply Prog.Asks.bind (setTaddr_plain rfl)
    intro _
    exact .bind (send_plain fuel _) fun _ => waitSent_plain _
  · intro _
    apply Prog.Asks.bind (sys_plain (c := .giveMutex) trivial)
    exact fun _ => sys_plain (c := .pause 10) trivial

theorem handOn_plain (raw : Frame) (pipe : UInt8) : PlainTask (handOn raw pipe) :=
  .ite (fun _ => trivial)
    (.bind (sys_plain (c := .putMessage (messageOf raw pipe)) trivial) fun _ _ => trivial)

theorem receiveFrame_plain : PlainTask receiveFrame := by
  apply Prog.Asks.bind (t := nrf24DataReady)
  · apply Prog.Asks.bind getStatus_plain
    exact fun status => .ite (fun _ => trivial) trivial
  · intro ready
    refine Prog.Asks.ite ?_ trivial
    apply Prog.Asks.bind (t := nrf24GetData)
    · apply Prog.Asks.bind (chipDo_plain .readRxPayload trivial)
      exact fun raw => .bind (config_plain _ (.inr rfl)) fun _ => trivial
    · exact fun raw n => handOn_plain raw _

theorem ioReceiveTask_plain : PlainTask ioReceiveTask := by
  have pause : PlainTask (Prog.sys (RadioCall.pause 10) : RadioTask Unit) :=
    sys_plain (c := .pause 10) trivial
  apply Prog.Asks.bind (sys_plain (c := .takeIrq) trivial)
  intro _
  apply Prog.Asks.bind (sys_plain (c := .takeMutex false) trivial)
  intro taken
  refine Prog.Asks.ite ?_ pause
  apply Prog.Asks.bind receiveFrame_plain
  exact fun _ => .bind (sys_plain (c := .giveMutex) trivial) fun _ => pause

end Tasks

/-- What a transaction of the radio tasks does to the registers. The flags that the
chip sets in STATUS are in `Chip`. -/
def Bank.after (b : Bank) : ChipOp → Bank
  | .writeRegister reg value => b.write reg [value]
  | .writeAddress reg adr => b.write reg adr
  | _ => b

namespace Bank
variable {b : Bank} {op : ChipOp}

theorem Sized.after (h : b.Sized) (plain : op.Plain) : (b.after op).Sized := by
  cases op with
  | writeRegister reg value =>
      rcases plain with rfl | rfl
      · exact h.write_sized rfl
      · exact h.write_sized rfl
  | writeAddress reg adr =>
      obtain ⟨rfl | rfl, size⟩ := plain
      · exact h.write_sized (size.trans rfl)
      · exact h.write_sized (size.trans rfl)
  | _ => exact h

theorem after_apply (plain : op.Plain) {reg : UInt8} (spared : reg ∉ sendRegisters) :
    b.after op reg = b reg := by
  simp only [sendRegisters, List.mem_cons, List.not_mem_nil, or_false, not_or] at spared
  obtain ⟨config, status, first, tx⟩ := spared
  cases op with
  | writeRegister r value =>
      rcases plain with rfl | rfl
      · exact b.write_other [value] config
      · exact b.write_other [value] status
  | writeAddress r adr =>
      obtain ⟨rfl | rfl, -⟩ := plain
      · exact b.write_other adr first
      · exact b.write_other adr tx
  | _ => rfl

/-- Listening is a matter of the other registers. -/
theorem Listens.of_eq {b' : Bank} (h : b.Listens)
    (same : ∀ reg, reg ∉ sendRegisters → b' reg = b reg) : b'.Listens := by
  have byte : ∀ reg, reg ∉ sendRegisters → b'.byte reg = b.byte reg := fun reg spared =>
    congrArg (List.headD · 0) (same reg spared)
  have spared : ∀ pipe ∈ [(0 : UInt8), 1, 2, 3, 4, 5], regRxPwP0 + pipe ∉ sendRegisters := by
    decide +kernel
  have own : ∀ pipe ∈ [(1 : UInt8), 2, 3, 4, 5], regRxAddrP0 + pipe ∉ sendRegisters := by
    decide +kernel
  refine ⟨(byte _ (by decide)).trans h.channel, ?_, fun pipe listed => ?_, fun pipe listed => ?_,
    fun pipe listed => ?_⟩
  · rw [byte _ (by decide)]
    exact h.rate
  · rw [byte _ (spared pipe listed)]
    exact h.width pipe listed
  · rw [← h.address pipe listed, Bank.address, Bank.address, same _ (own pipe listed),
      same regRxAddrP1 (by decide)]
  · rw [byte _ (by decide)]
    exact h.enabled pipe listed

/-- The chip and the registers are given the same CONFIG. -/
theorem Sized.after_config (h : b.Sized) (plain : op.Plain) {c : Chip}
    (before : b.byte regConfig = c.config) :
    (b.after op).byte regConfig = (c.perform op).2.config := by
  cases op with
  | writeRegister reg value =>
      rw [Chip.perform, Chip.writeRegister_config]
      rcases plain with rfl | rfl
      · have whole : b.write regConfig [value] = Function.update b regConfig [value] :=
          h.write (by decide) rfl
        rw [if_pos rfl, Bank.after, whole, Bank.byte, Function.update_self]
        rfl
      · rw [if_neg (by decide), ← before]
        exact congrArg (List.headD · 0) (b.write_other [value] (by decide))
  | writeAddress reg adr =>
      refine Eq.trans (congrArg (List.headD · 0) (b.write_other adr ?_)) before
      obtain ⟨rfl | rfl, -⟩ := plain
      · decide
      · decide
  | _ =>
      rw [Chip.perform_config c (by simp)]
      exact before

end Bank

namespace Firmware

/-- What a step of the firmware does to the registers. -/
def retune (s : Firmware) (b : Bank) : Act → Bank
  | .sender => ((transaction s.sender).map b.after).getD b
  | .receiver => ((transaction s.receiver).map b.after).getD b
  | _ => b

end Firmware

/-- The firmware and all registers of the chip. -/
structure Tuning where
  fw : Firmware
  bank : Bank

namespace Tuning

def step (lim : Limits) (w : Tuning) (a : Act) : Option Tuning :=
  (w.fw.step lim a).map fun fw => ⟨fw, w.fw.retune w.bank a⟩

/-- The bring-up has run, whatever the registers held before it. -/
structure Start (lim : Limits) (w : Tuning) : Prop where
  fw : Firmware.Start lim w.fw
  bank : ∃ (old : Bank) (d d' : Nrf24), old.Sized ∧
    Prog.drive Bank.perform BringUp.ioThreadInit d old = .done (true, d', w.bank)

/-- The registers stand as the firmware expects them. -/
structure Tuned (s : Firmware) (b : Bank) : Prop where
  sized : b.Sized
  listens : b.Listens
  config : b.byte regConfig = s.chip.config

structure Invariant (w : Tuning) : Prop where
  sender : PlainTask w.fw.sender
  receiver : PlainTask w.fw.receiver
  tuned : Tuned w.fw w.bank

variable {lim : Limits} {w w' : Tuning} {s s' s₁ : Firmware} {b : Bank}

theorem Start.invariant (h : Start lim w) : w.Invariant := by
  obtain ⟨old, d, d', sized, ran⟩ := h.bank
  have bank : w.bank = old.writes (BringUp.initWrites old) := by
    have written := (BringUp.ioThreadInit_writes (d := d) sized).symm.trans ran
    injection written with same
    exact (congrArg (fun r => r.2.2) same).symm
  refine ⟨?_, ?_, ?_, ?_, ?_⟩
  · rw [h.fw.sender]
    exact ioSendTask_plain lim.fuel
  · rw [h.fw.receiver]
    exact ioReceiveTask_plain
  · rw [bank]
    exact sized.writes (BringUp.initWrites_fitting old)
  · rw [bank]
    exact BringUp.initWrites_listens sized
  · rw [bank, h.fw.chip, Bank.byte, BringUp.initWrites_apply sized (by decide)]
    rfl

/-- Only a transaction changes the chip, and no call changes a task. -/
theorem answerRadio_tasks {who : Holder} {c : RadioCall} {a : c.Ans}
    (h : s.answerRadio who c = some (a, s₁)) :
    s₁.sender = s.sender ∧ s₁.receiver = s.receiver ∧
      ((∀ op, c ≠ .chip op) → s₁.chip = s.chip) := by
  cases c with
  | takeMessage =>
      simp only [Firmware.answerRadio] at h
      split at h <;> cases h
      exact ⟨rfl, rfl, fun _ => rfl⟩
  | takeIrq =>
      simp only [Firmware.answerRadio] at h
      split at h <;> cases h
      exact ⟨rfl, rfl, fun _ => rfl⟩
  | takeMutex forever =>
      simp only [Firmware.answerRadio] at h
      split_ifs at h <;> cases h
      · exact ⟨rfl, rfl, fun _ => rfl⟩
      · exact ⟨rfl, rfl, fun _ => rfl⟩
  | giveMutex =>
      cases h
      exact ⟨rfl, rfl, fun _ => rfl⟩
  | putMessage m =>
      simp only [Firmware.answerRadio] at h
      split at h <;> cases h
      exact ⟨rfl, rfl, fun _ => rfl⟩
  | pause ms =>
      cases h
      exact ⟨rfl, rfl, fun _ => rfl⟩
  | chip op =>
      cases h
      exact ⟨rfl, rfl, fun other => absurd rfl (other op)⟩

/-- An answered call keeps the registers and the chip in step. -/
theorem Tuned.answered (h : Tuned s b) {who : Holder} {c : RadioCall} {a : c.Ans} (plain : c.Plain)
    (answered : s.answerRadio who c = some (a, s₁)) {t : RadioTask Unit}
    {k : c.Ans → RadioTask Unit} (at_call : t = .call c k) :
    Tuned s₁ (((Firmware.transaction t).map b.after).getD b) := by
  subst at_call
  have aside : (∀ op, c ≠ .chip op) → Tuned s₁ b := by
    intro other
    have chip := (answerRadio_tasks answered).2.2 other
    exact ⟨h.sized, h.listens, by rw [chip]; exact h.config⟩
  cases c with
  | chip op =>
      cases answered
      exact ⟨h.sized.after plain, h.listens.of_eq fun reg spared => Bank.after_apply plain spared,
        h.sized.after_config plain h.config⟩
  | _ => exact aside (by simp)

theorem stepReceiver_cases (h : s.stepReceiver = some s') :
    ∃ (c : RadioCall) (k : c.Ans → RadioTask Unit) (a : c.Ans) (s₁ : Firmware),
      s.receiver = .call c k ∧ s.answerRadio .receiver c = some (a, s₁) ∧
        s' = { s₁ with
          nrf := ((k a).settle s₁.nrf).2.1
          radioLog := s₁.radioLog ++ ((k a).settle s₁.nrf).2.2
          receiver := Firmware.resume ioReceiveTask ((k a).settle s₁.nrf).1 } := by
  unfold Firmware.stepReceiver at h
  split at h
  · rename_i c k at_call
    obtain ⟨⟨a, s₁⟩, answered, rfl⟩ := Option.map_eq_some_iff.mp h
    refine ⟨c, k, a, s₁, at_call, answered, ?_⟩
    rw [Firmware.settleRadio_eq]
  · cases h

theorem resume_plain {body t : RadioTask Unit} (started : PlainTask body) (rest : PlainTask t) :
    PlainTask (Firmware.resume body t) := by
  cases t with
  | ret a => exact started
  | _ => exact rest

/-- Nothing but a transaction of a radio task touches the registers. -/
theorem Invariant.aside (h : w.Invariant) (sender : s'.sender = w.fw.sender)
    (receiver : s'.receiver = w.fw.receiver) (config : s'.chip.config = w.fw.chip.config) :
    Invariant ⟨s', w.bank⟩ where
  sender := by
    rw [sender]
    exact h.sender
  receiver := by
    rw [receiver]
    exact h.receiver
  tuned := ⟨h.tuned.sized, h.tuned.listens, h.tuned.config.trans config.symm⟩

theorem Invariant.sender_step (h : w.Invariant) (hstep : w.fw.stepSender lim = some s') :
    Invariant ⟨s', w.fw.retune w.bank .sender⟩ := by
  obtain ⟨c, k, a, s₁, at_call, answered, rfl⟩ := Firmware.stepSender_cases hstep
  have asks := h.sender
  rw [at_call] at asks
  obtain ⟨sized, listens, config⟩ := h.tuned.answered asks.1 answered at_call
  refine ⟨?_, ?_, sized, listens, config⟩
  · exact resume_plain (ioSendTask_plain lim.fuel) ((asks.2 a).settle _)
  · show PlainTask s₁.receiver
    rw [(answerRadio_tasks answered).2.1]
    exact h.receiver

theorem Invariant.receiver_step (h : w.Invariant) (hstep : w.fw.stepReceiver = some s') :
    Invariant ⟨s', w.fw.retune w.bank .receiver⟩ := by
  obtain ⟨c, k, a, s₁, at_call, answered, rfl⟩ := stepReceiver_cases hstep
  have asks := h.receiver
  rw [at_call] at asks
  obtain ⟨sized, listens, config⟩ := h.tuned.answered asks.1 answered at_call
  refine ⟨?_, ?_, sized, listens, config⟩
  · show PlainTask s₁.sender
    rw [(answerRadio_tasks answered).1]
    exact h.sender
  · exact resume_plain ioReceiveTask_plain ((asks.2 a).settle _)

theorem Invariant.step {a : Act} (h : w.Invariant) (hstep : w.step lim a = some w') :
    w'.Invariant := by
  obtain ⟨s', stepped, rfl⟩ := Option.map_eq_some_iff.mp hstep
  cases a with
  | game =>
      have keeps := Firmware.stepGame_keepsRadio stepped
      exact h.aside keeps.sender keeps.receiver (congrArg Chip.config keeps.chip)
  | httpd =>
      have keeps := Firmware.stepHttpd_keepsRadio stepped
      exact h.aside keeps.sender keeps.receiver (congrArg Chip.config keeps.chip)
  | request r =>
      have keeps := Firmware.request_keepsRadio stepped
      exact h.aside keeps.sender keeps.receiver (congrArg Chip.config keeps.chip)
  | sender => exact h.sender_step stepped
  | receiver => exact h.receiver_step stepped
  | frameArrives pipe f =>
      cases stepped
      refine h.aside rfl rfl ?_
      simp only [Firmware.setChip, Chip.receive]
      split <;> rfl
  | sendFlag success =>
      cases stepped
      refine h.aside rfl rfl ?_
      cases success <;> rfl

/-- From the bring-up on, and whatever the tasks are doing, every slave has its address on
a pipe of the chip, at the width of a message, on the channel and at the rate of the
others. -/
theorem listens (h : Reaches (step lim) (fun _ _ => True) (Start lim) w) :
    w.bank.Listens ∧ w.bank.byte regConfig = w.fw.chip.config := by
  have invariant : w.Invariant := h.invariant (fun _ start => start.invariant)
    fun _ _ _ before _ hstep => before.step hstep
  exact ⟨invariant.tuned.listens, invariant.tuned.config⟩

/-- A chip that was all zero, brought up. -/
def broughtUp : Tuning :=
  ⟨Firmware.boot ⟨0, none⟩, BringUp.blank.writes (BringUp.initWrites BringUp.blank)⟩

theorem broughtUp_start : Start ⟨0, none⟩ broughtUp :=
  ⟨Firmware.boot_start _, BringUp.blank, ⟨true, 0, 0⟩, ⟨false, 112, 32⟩, BringUp.blank_sized,
    BringUp.ioThreadInit_writes BringUp.blank_sized⟩

/-- In the middle of the first send. -/
theorem listens_sending : ∃ w : Tuning, w.bank regTxAddr = slaveAddress 3 ∧
    w.bank.Listens ∧ w.bank.byte regConfig = w.fw.chip.config := by
  have run : (runList (step ⟨0, none⟩) broughtUp (List.replicate 4 .sender)).any
      (fun w => decide (w.bank regTxAddr = slaveAddress 3)) = true := by decide +kernel
  obtain ⟨w, reached, sending⟩ := exists_reaches broughtUp_start run
  exact ⟨w, of_decide_eq_true sending, listens reached⟩

end Tuning
end Battleship
