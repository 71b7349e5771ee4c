import Battleship.Firmware

/-!
# What the send task puts on the air

The transmit side of the radio chip, and the discipline of `io_send_task` on it:
each message it takes goes on the air once, to the address of its slave, before
the task takes the next.
-/
namespace Battleship
open Cooperative

/-- A payload sent, with the address it goes to and the one its acknowledgement
is taken at. -/
structure Airing where
  address : List UInt8
  ackAddress : List UInt8
  frame : Frame

def airingOf (msg : IoMessage) : Airing :=
  ⟨slaveAddress msg.slaveId, slaveAddress msg.slaveId, frameOf msg⟩

/-- The transmit side of the nRF24. It is not part of the repository: in transmit
mode the payload in front goes on the air while CE is high, and leaves the FIFO
when it is acknowledged. One that ran out of retries stays in front and is not
sent again while CE stays high, also not when MAX_RT is cleared. -/
structure Transmitter where
  config : UInt8
  rxAddrP0 : List UInt8
  txAddr : List UInt8
  ce : Bool
  fifo : List Frame
  aired : List Airing

namespace Transmitter

/-- PWR_UP is set and PRIM_RX is clear. -/
def transmits (t : Transmitter) : Bool := t.config &&& pwrUp ≠ 0 ∧ t.config &&& primRx = 0

def onAir (t : Transmitter) : Bool := t.ce && t.transmits && !t.fifo.isEmpty

/-- The payload in front starts to go out. -/
def air (t : Transmitter) : Transmitter :=
  match t.fifo with
  | [] => t
  | f :: _ => { t with aired := t.aired ++ [⟨t.txAddr, t.rxAddrP0, f⟩] }

/-- What a transaction writes. -/
def write (t : Transmitter) : ChipOp → Transmitter
  | .writeRegister reg value => if reg = regConfig then { t with config := value } else t
  | .writeAddress reg adr =>
      if reg = regRxAddrP0 then { t with rxAddrP0 := adr }
      else if reg = regTxAddr then { t with txAddr := adr }
      else t
  | .flushTx => { t with fifo := [] }
  | .writeTxPayload f => if t.fifo.length < fifoDepth then { t with fifo := t.fifo ++ [f] } else t
  | .ce level => { t with ce := level }
  | .readStatus => t
  | .readAddress _ => t
  | .readRxPayload => t

/-- A transaction after which there is something to send, and before which there
was not, starts a transmission. -/
def perform (t : Transmitter) (op : ChipOp) : Transmitter :=
  if t.onAir = false ∧ (t.write op).onAir = true then (t.write op).air else t.write op

/-- The end of a transmission: an acknowledged payload leaves the FIFO and the
next follows, one that ran out of retries stays. -/
def ended (t : Transmitter) (success : Bool) : Transmitter :=
  if success ∧ t.onAir then
    let rest := { t with fifo := t.fifo.tail }
    if rest.onAir then rest.air else rest
  else t

theorem perform_of_quiet {t : Transmitter} {op : ChipOp} (quiet : (t.write op).onAir = false) :
    t.perform op = t.write op := by
  rw [perform, if_neg fun both => Bool.false_ne_true (quiet.symm.trans both.2)]

theorem perform_of_same {t : Transmitter} {op : ChipOp} (same : (t.write op).onAir = t.onAir) :
    t.perform op = t.write op := by
  rw [perform, if_neg fun both => Bool.false_ne_true (both.1.symm.trans (same.symm.trans both.2))]

/-- What may happen to the transmitter while the task is not at it. -/
structure Drifts (t t' : Transmitter) : Prop where
  config : t'.config = t.config
  rxAddrP0 : t'.rxAddrP0 = t.rxAddrP0
  txAddr : t'.txAddr = t.txAddr
  ce : t'.ce = t.ce
  aired : t'.aired = t.aired
  fifo : t'.fifo = t.fifo ∨ t.onAir = true ∧ t'.fifo = []

theorem Drifts.refl (t : Transmitter) : Drifts t t := ⟨rfl, rfl, rfl, rfl, rfl, .inl rfl⟩

theorem onAir_congr {t t' : Transmitter} (config : t'.config = t.config) (ce : t'.ce = t.ce)
    (fifo : t'.fifo = t.fifo) : t'.onAir = t.onAir := by
  rw [onAir, onAir, transmits, transmits, config, ce, fifo]

theorem Drifts.trans {t t' t'' : Transmitter} (h : Drifts t t') (h' : Drifts t' t'') :
    Drifts t t'' where
  config := h'.config.trans h.config
  rxAddrP0 := h'.rxAddrP0.trans h.rxAddrP0
  txAddr := h'.txAddr.trans h.txAddr
  ce := h'.ce.trans h.ce
  aired := h'.aired.trans h.aired
  fifo := by
    rcases h.fifo with same | ⟨sending, gone⟩
    · rcases h'.fifo with same' | ⟨sending', gone'⟩
      · exact .inl (same'.trans same)
      · exact .inr ⟨(onAir_congr h.config h.ce same).symm.trans sending', gone'⟩
    · rcases h'.fifo with same' | ⟨-, gone'⟩
      · exact .inr ⟨sending, same'.trans gone⟩
      · exact .inr ⟨sending, gone'⟩

/-- With one payload at most, the end of a transmission is a drift. -/
theorem ended_drifts {t : Transmitter} (single : t.fifo.length ≤ 1) (success : Bool) :
    Drifts t (t.ended success) := by
  unfold ended
  split
  · rename_i sends
    have last : t.fifo.tail = [] := List.eq_nil_of_length_eq_zero (by rw [List.length_tail]; omega)
    have silent : onAir { t with fifo := t.fifo.tail } = false := by simp [onAir, last]
    simp only [silent, Bool.false_eq_true, if_false]
    exact ⟨rfl, rfl, rfl, rfl, rfl, .inr ⟨sends.2, last⟩⟩
  · exact .refl t

/-- A transaction that writes nothing of the transmit side. -/
theorem perform_idle (t : Transmitter) {op : ChipOp} (idle : t.write op = t) : t.perform op = t :=
  (perform_of_same (congrArg onAir idle)).trans idle

theorem write_regStatus (t : Transmitter) (value : UInt8) :
    t.write (.writeRegister regStatus value) = t := by
  have other : regStatus ≠ regConfig := by decide
  rw [write, if_neg other]

theorem write_regConfig (t : Transmitter) (value : UInt8) :
    t.write (.writeRegister regConfig value) = { t with config := value } := by
  rw [write, if_pos rfl]

theorem onAir_of_ce {t : Transmitter} (low : t.ce = false) : t.onAir = false := by
  rw [onAir, low, Bool.false_and, Bool.false_and]

theorem onAir_of_transmits {t : Transmitter} (receives : t.transmits = false) : t.onAir = false := by
  rw [onAir, receives, Bool.and_false, Bool.false_and]

end Transmitter

/-- The transmitter, and what the messages taken so far have to become. -/
structure Wire where
  tx : Transmitter
  taken : List Airing

/-- All messages taken but the last at most are on the air, and at most one
payload is in the FIFO. -/
structure Accounted (e : Wire) : Prop where
  hand : ∃ hand : List Airing, hand.length ≤ 1 ∧ e.tx.aired ++ hand = e.taken
  single : e.tx.fifo.length ≤ 1

/-- What each call of the send task asks. The transmitter may drift while the
task waits, and the driver's memory may be anything after a call. -/
def posting : Prog.CallSpec Nrf Wire RadioCall RadioCall.Ans := fun c e K =>
  ∀ t, e.2.tx.Drifts t →
    match c, K with
    | .takeMessage, K =>
        t.aired = e.2.taken ∧ ∀ msg n, K msg (n, ⟨t, e.2.taken ++ [airingOf msg]⟩)
    | .takeIrq, _ => False
    | .takeMutex _, K => ∀ got n, K got (n, ⟨t, e.2.taken⟩)
    | .giveMutex, K => ∀ n, K () (n, ⟨t, e.2.taken⟩)
    | .putMessage _, _ => False
    | .pause _, K => ∀ n, K () (n, ⟨t, e.2.taken⟩)
    | .chip op, K =>
        Accounted ⟨t.perform op, e.2.taken⟩ ∧ ∀ a n, K a (n, ⟨t.perform op, e.2.taken⟩)

theorem posting_mono : Prog.CallSpec.Mono posting := by
  intro c e K K' imp h t drift
  have asked := h t drift
  cases c with
  | takeMessage => exact ⟨asked.1, fun msg n => imp _ _ (asked.2 msg n)⟩
  | takeIrq => exact asked
  | takeMutex forever => exact fun got n => imp _ _ (asked got n)
  | giveMutex => exact fun n => imp _ _ (asked n)
  | putMessage m => exact asked
  | pause ms => exact fun n => imp _ _ (asked n)
  | chip op => exact ⟨asked.1, fun a n => imp _ _ (asked.2 a n)⟩

/-- Drifting before the call is part of the call. -/
theorem posting_drifts {c : RadioCall} {n n' : Nrf} {t t' : Transmitter} {taken : List Airing}
    {K : c.Ans → Nrf × Wire → Prop} (h : posting c (n, ⟨t, taken⟩) K) (drift : t.Drifts t') :
    posting c (n', ⟨t', taken⟩) K := fun t'' later => h t'' (drift.trans later)

/-- A condition on the wire between two calls. -/
structure Stage where
  holds : Wire → Prop
  stable : ∀ e t, holds e → e.tx.Drifts t → holds ⟨t, e.taken⟩
  sound : ∀ e, holds e → Accounted e

/-- Runs from any driver memory take the wire from `P` to `Q`. -/
def Brings {α : Type} (P : Stage) (t : RadioTask α) (Q : Stage) : Prop :=
  ∀ n e, P.holds e → Prog.wp posting (fun _ => True) t (fun _ e' => Q.holds e'.2) (n, e)

namespace Brings
variable {α β : Type} {P Q R : Stage}

theorem bind {t : RadioTask α} {g : α → RadioTask β} (ht : Brings P t Q)
    (hg : ∀ a, Brings Q (g a) R) : Brings P (t >>= g) R := by
  intro n e pre
  apply Prog.wp_bind posting_mono
  apply Prog.wp_mono posting_mono t _ _ (ht n e pre)
  rintro a ⟨n', e'⟩ post
  exact hg a n' e' post

theorem ret (a : α) : Brings P (.ret a : RadioTask α) P := fun _ _ pre => pre

theorem write (f : Nrf → Nrf) : Brings P (Prog.modify f) P :=
  fun _ _ pre => ⟨fun _ _ => trivial, pre⟩

theorem get : Brings P (Prog.get : RadioTask Nrf) P := fun _ _ pre => ⟨fun _ _ => trivial, pre⟩

theorem emit (o : RadioOut) : Brings P (Prog.emit o) P := fun _ _ pre => ⟨fun _ _ => trivial, pre⟩

theorem chip {op : ChipOp} (h : ∀ t taken, P.holds ⟨t, taken⟩ → Q.holds ⟨t.perform op, taken⟩) :
    Brings P (chipDo op) Q := by
  intro _ e pre t drift
  have post := h t e.taken (P.stable e t pre drift)
  exact ⟨Q.sound _ post, fun _ _ => post⟩

/-- A transaction that leaves the transmit side alone. -/
theorem idle {op : ChipOp} (h : ∀ t : Transmitter, t.write op = t) : Brings P (chipDo op) P := by
  apply chip
  intro t taken pre
  rw [t.perform_idle (h t)]
  exact pre

theorem pause (ms : Nat) : Brings P (Prog.sys (RadioCall.pause ms) : RadioTask Unit) P :=
  fun _ e pre t drift _ => P.stable e t pre drift

end Brings

theorem drifts_single {t t' : Transmitter} (single : t.fifo.length ≤ 1) (drift : t.Drifts t') :
    t'.fifo.length ≤ 1 := by
  rcases drift.fifo with same | ⟨-, gone⟩
  · rw [same]
    exact single
  · simp [gone]

theorem Accounted.drift {t t' : Transmitter} {taken : List Airing} (h : Accounted ⟨t, taken⟩)
    (drift : t.Drifts t') : Accounted ⟨t', taken⟩ := by
  obtain ⟨hand, short, eq⟩ := h.hand
  exact ⟨⟨hand, short, (congrArg (fun l => l ++ hand) drift.aired).trans eq⟩,
    drifts_single h.single drift⟩

/-- All messages taken are on the air. -/
structure Aired (e : Wire) : Prop where
  aired : e.tx.aired = e.taken
  single : e.tx.fifo.length ≤ 1

def aired : Stage where
  holds := Aired
  stable _ _ h drift := ⟨drift.aired.trans h.aired, drifts_single h.single drift⟩
  sound e h := ⟨⟨[], Nat.zero_le 1, (List.append_nil e.tx.aired).trans h.aired⟩, h.single⟩

/-- Also a condition that no drift breaks. -/
def Stage.also (P : Stage) (C : Transmitter → Prop) (keeps : ∀ t t', C t → t.Drifts t' → C t') :
    Stage where
  holds e := P.holds e ∧ C e.tx
  stable e t h drift := ⟨P.stable e t h.1 drift, keeps e.tx t h.2 drift⟩
  sound e h := P.sound e h.1

section Stages
variable (msg : IoMessage)

/-- All but this one are. -/
structure InHand (e : Wire) : Prop where
  aired : e.tx.aired ++ [airingOf msg] = e.taken
  single : e.tx.fifo.length ≤ 1

def inHand : Stage where
  holds := InHand msg
  stable _ _ h drift :=
    ⟨(congrArg (fun l => l ++ [airingOf msg]) drift.aired).trans h.aired, drifts_single h.single drift⟩
  sound _ h := ⟨⟨[airingOf msg], le_rfl, h.aired⟩, h.single⟩

structure Addressed (e : Wire) : Prop extends InHand msg e where
  rxAddrP0 : e.tx.rxAddrP0 = slaveAddress msg.slaveId
  txAddr : e.tx.txAddr = slaveAddress msg.slaveId

def addressed : Stage where
  holds := Addressed msg
  stable e t h drift := ⟨(inHand msg).stable e t h.toInHand drift,
    drift.rxAddrP0.trans h.rxAddrP0, drift.txAddr.trans h.txAddr⟩
  sound e h := (inHand msg).sound e h.toInHand

/-- The payload may be exchanged. -/
structure Silenced (e : Wire) : Prop extends Addressed msg e where
  ce : e.tx.ce = false

def silenced : Stage where
  holds := Silenced msg
  stable e t h drift := ⟨(addressed msg).stable e t h.toAddressed drift, drift.ce.trans h.ce⟩
  sound e h := (addressed msg).sound e h.toAddressed

structure Armed (e : Wire) : Prop extends Silenced msg e where
  transmits : e.tx.transmits = true

def armed : Stage where
  holds := Armed msg
  stable e t h drift := ⟨(silenced msg).stable e t h.toSilenced drift, by
    rw [Transmitter.transmits, drift.config]
    exact h.transmits⟩
  sound e h := (silenced msg).sound e h.toSilenced

structure Loaded (fifo : List Frame) (e : Wire) : Prop extends Armed msg e where
  fifo : e.tx.fifo = fifo

/-- Nothing leaves the FIFO while CE is low. -/
def loaded (fifo : List Frame) : Stage where
  holds := Loaded msg fifo
  stable e t h drift := ⟨(armed msg).stable e t h.toArmed drift, by
    rcases drift.fifo with same | ⟨sending, -⟩
    · exact same.trans h.fifo
    · rw [Transmitter.onAir_of_ce h.ce] at sending
      cases sending⟩
  sound e h := (armed msg).sound e h.toArmed

end Stages

section Driver
variable {msg : IoMessage} {P : Stage}

theorem setTaddr_brings :
    Brings (inHand msg) (nrf24SetTaddr (slaveAddress msg.slaveId)) (addressed msg) := by
  have first : Brings (inHand msg) (chipDo (.writeAddress regRxAddrP0 (slaveAddress msg.slaveId)))
      ((inHand msg).also (fun t => t.rxAddrP0 = slaveAddress msg.slaveId)
        fun _ _ h drift => drift.rxAddrP0.trans h) := by
    apply Brings.chip
    intro t taken h
    rw [Transmitter.perform_of_same rfl]
    exact ⟨⟨h.aired, h.single⟩, rfl⟩
  apply first.bind
  intro _
  refine Brings.bind (Q := addressed msg) ?_ fun _ => Brings.idle fun _ => rfl
  apply Brings.chip
  rintro t taken ⟨h, rxAddrP0⟩
  rw [Transmitter.perform_of_same rfl]
  exact ⟨⟨h.aired, h.single⟩, rxAddrP0, rfl⟩

theorem getStatus_brings : Brings P nrf24GetStatus P := Brings.idle fun _ => rfl

theorem configStatus_brings (value : UInt8) : Brings P (nrf24ConfigRegister regStatus value) P :=
  Brings.idle fun t => t.write_regStatus value

theorem waitLastSent_brings (fuel : Nat) : Brings P (waitLastSent fuel) P := by
  induction fuel with
  | zero => exact fun _ _ _ => trivial
  | succ fuel ih =>
      apply Brings.bind .get
      intro n
      split
      · apply Brings.bind (.emit _)
        intro _
        apply Brings.bind getStatus_brings
        intro status
        split
        · exact .write _
        · exact ih
      · exact .ret ()

theorem ceLow_silences : Brings (addressed msg) nrf24CeLow (silenced msg) := by
  apply Brings.chip
  intro t taken h
  rw [Transmitter.perform_of_quiet (Transmitter.onAir_of_ce rfl)]
  exact ⟨⟨⟨h.aired, h.single⟩, h.rxAddrP0, h.txAddr⟩, rfl⟩

/-- A new mode while CE is low starts nothing. -/
theorem perform_regConfig {t : Transmitter} (low : t.ce = false) (value : UInt8) :
    t.perform (.writeRegister regConfig value) = { t with config := value } := by
  rw [Transmitter.perform_of_quiet, Transmitter.write_regConfig]
  exact Transmitter.onAir_of_ce (by rw [Transmitter.write_regConfig, low])

theorem powerUpTx_arms : Brings (silenced msg) nrf24PowerUpTx (armed msg) := by
  apply Brings.bind (.write _)
  intro _
  refine Brings.bind (Q := armed msg) ?_ fun _ => configStatus_brings _
  apply Brings.chip
  intro t taken h
  have transmits : (mirfConfig ||| pwrUp) &&& pwrUp ≠ 0 ∧ (mirfConfig ||| pwrUp) &&& primRx = 0 := by
    decide
  rw [perform_regConfig h.ce]
  exact ⟨⟨⟨⟨h.aired, h.single⟩, h.rxAddrP0, h.txAddr⟩, h.ce⟩, decide_eq_true transmits⟩

theorem flushTx_empties : Brings (armed msg) (chipDo .flushTx) (loaded msg []) := by
  apply Brings.chip
  intro t taken h
  have low : t.ce = false := h.ce
  rw [Transmitter.perform_of_quiet (Transmitter.onAir_of_ce (t := t.write .flushTx) low)]
  exact ⟨⟨⟨⟨⟨h.aired, Nat.zero_le 1⟩, h.rxAddrP0, h.txAddr⟩, low⟩, h.transmits⟩, rfl⟩

theorem writeTxPayload_loads :
    Brings (loaded msg []) (chipDo (.writeTxPayload (frameOf msg))) (loaded msg [frameOf msg]) := by
  apply Brings.chip
  intro t taken h
  have empty : t.fifo = [] := h.fifo
  have low : t.ce = false := h.ce
  have written : t.write (.writeTxPayload (frameOf msg)) = { t with fifo := [frameOf msg] } := by
    simp [Transmitter.write, empty, fifoDepth]
  rw [Transmitter.perform_of_quiet (Transmitter.onAir_of_ce (by rw [written, low])), written]
  exact ⟨⟨⟨⟨⟨h.aired, le_rfl⟩, h.rxAddrP0, h.txAddr⟩, low⟩, h.transmits⟩, rfl⟩

/-- The rising edge of CE sends the payload. -/
theorem ceHi_airs : Brings (loaded msg [frameOf msg]) nrf24CeHi aired := by
  apply Brings.chip
  intro t taken h
  have down : t.onAir = false := Transmitter.onAir_of_ce h.ce
  have fifo : t.fifo = [frameOf msg] := h.fifo
  have up : (t.write (.ce true)).onAir = true := by
    have transmits : t.transmits = true := h.transmits
    simp [Transmitter.onAir, Transmitter.write, fifo, Transmitter.transmits] at transmits ⊢
    exact transmits
  rw [Transmitter.perform, if_pos ⟨down, up⟩]
  have aired : t.aired ++ [airingOf msg] = taken := h.aired
  have address : t.txAddr = slaveAddress msg.slaveId := h.txAddr
  have ackAddress : t.rxAddrP0 = slaveAddress msg.slaveId := h.rxAddrP0
  refine ⟨?_, ?_⟩
  · simpa [Transmitter.air, Transmitter.write, fifo, address, ackAddress, airingOf] using aired
  · simp [Transmitter.air, Transmitter.write, fifo]

theorem send_airs (fuel : Nat) : Brings (addressed msg) (nrf24Send fuel (frameOf msg)) aired :=
  .bind getStatus_brings fun _ => .bind (waitLastSent_brings fuel) fun _ =>
    .bind ceLow_silences fun _ => .bind powerUpTx_arms fun _ => .bind flushTx_empties fun _ =>
      .bind writeTxPayload_loads fun _ => ceHi_airs

/-- Back to receiving: the mode changes while CE is low, so nothing goes out. -/
theorem powerUpRx_brings : Brings aired nrf24PowerUpRx aired := by
  apply Brings.bind (.write _)
  intro _
  have low : Brings aired nrf24CeLow
      (aired.also (fun t => t.ce = false) fun _ _ h drift => drift.ce.trans h) := by
    apply Brings.chip
    intro t taken h
    rw [Transmitter.perform_of_quiet (Transmitter.onAir_of_ce rfl)]
    exact ⟨⟨h.aired, h.single⟩, rfl⟩
  apply low.bind
  intro _
  refine Brings.bind (Q := aired.also (fun t => t.config = mirfConfig ||| pwrUp ||| primRx)
    fun _ _ h drift => drift.config.trans h) ?_ fun _ => ?_
  · apply Brings.chip
    rintro t taken ⟨h, low⟩
    rw [perform_regConfig low]
    exact ⟨⟨h.aired, h.single⟩, rfl⟩
  refine Brings.bind (Q := aired) ?_ fun _ => configStatus_brings _
  apply Brings.chip
  rintro t taken ⟨h, config⟩
  have config : t.config = mirfConfig ||| pwrUp ||| primRx := config
  have quiet : (t.write (.ce true)).onAir = false := by
    apply Transmitter.onAir_of_transmits
    simp only [Transmitter.transmits, Transmitter.write, config]
    decide
  rw [Transmitter.perform_of_quiet quiet]
  exact ⟨h.aired, h.single⟩

theorem isSending_brings : Brings aired nrf24IsSending aired := by
  apply Brings.bind .get
  intro n
  split
  · apply Brings.bind getStatus_brings
    intro status
    split
    · exact .bind powerUpRx_brings fun _ => .ret false
    · exact .ret true
  · exact .ret false

theorem waitSent_brings (turns : Nat) : Brings aired (waitSent turns) aired := by
  induction turns with
  | zero => exact fun _ _ _ => trivial
  | succ turns ih =>
      apply Brings.bind isSending_brings
      intro sending
      split
      · apply Brings.bind .get
        intro n
        split
        · exact .bind (.write _) fun _ => .bind (.pause 10) fun _ => ih
        · exact configStatus_brings _
      · exact .ret ()

theorem sendMessage_airs (fuel : Nat) : Brings (inHand msg) (sendMessage fuel msg) aired :=
  .bind setTaddr_brings fun _ => .bind (send_airs fuel) fun _ => waitSent_brings _

end Driver

/-- A turn of the send task airs the message it takes. -/
theorem ioSendTask_airs (fuel : Nat) : Brings aired (ioSendTask fuel) aired := by
  intro n e pre t drift
  have now := aired.stable e t pre drift
  refine ⟨now.aired, fun msg n' => ?_⟩
  have held : (inHand msg).holds ⟨t, e.taken ++ [airingOf msg]⟩ :=
    ⟨congrArg (fun l => l ++ [airingOf msg]) now.aired, now.single⟩
  have rest : Brings (inHand msg) (do
      Prog.modify (fun n => { n with retryCount := 0 })
      let _ ← (Prog.sys (RadioCall.takeMutex true) : RadioTask Bool)
      sendMessage fuel msg
      (Prog.sys RadioCall.giveMutex : RadioTask Unit)
      Prog.sys (RadioCall.pause 10)) aired := by
    apply Brings.bind (.write _)
    intro _
    refine Brings.bind (Q := inHand msg) ?_ fun _ => ?_
    · exact fun _ e pre t drift _ _ => (inHand msg).stable e t pre drift
    apply Brings.bind (sendMessage_airs fuel)
    intro _
    refine Brings.bind (Q := aired) ?_ fun _ => .pause 10
    exact fun _ e pre t drift _ => aired.stable e t pre drift
  exact rest n' _ held

end Battleship
