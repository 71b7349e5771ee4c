import Battleship.GameTask
import Battleship.Mirf
import Battleship.Lib.Runs

/-!
# The firmware

All tasks at once: the game task, the HTTP server task, the two radio tasks,
their queues and mutex, and the radio chip. The game task runs from one
blocking call to the next in one step; the handlers and the radio tasks are
interleaved at every write and at every SPI transaction. A handler tests a ship
and places it in one such step.
-/
namespace Battleship
open Cooperative

/-- The registers and flags of the nRF24 that matter here. It is not part of
the repository: flags are cleared by writing 1, the FIFO takes three frames. -/
structure Chip where
  config : UInt8
  rxDr : Bool
  txDs : Bool
  maxRt : Bool
  fifo : List (UInt8 × Frame)

def fifoDepth : Nat := 3

namespace Chip

/-- RX_P_NO of the frame in front, 7 when there is none. -/
def pipeBits (c : Chip) : UInt8 :=
  match c.fifo with
  | [] => 7
  | f :: _ => f.1 &&& 7

def flag (set : Bool) (bit : UInt8) : UInt8 := if set then bit else 0

def status (c : Chip) : UInt8 :=
  flag c.rxDr bitRxDr ||| flag c.txDs bitTxDs ||| flag c.maxRt bitMaxRt ||| c.pipeBits <<< 1

def writeRegister (c : Chip) (reg value : UInt8) : Chip :=
  if reg = regConfig then { c with config := value }
  else if reg = regStatus then
    { c with
      rxDr := c.rxDr && value &&& bitRxDr = 0
      txDs := c.txDs && value &&& bitTxDs = 0
      maxRt := c.maxRt && value &&& bitMaxRt = 0 }
  else c

theorem uint8_or_and (x y z : UInt8) : (x ||| y) &&& z = x &&& z ||| y &&& z := by
  apply UInt8.toBitVec_inj.mp
  simp only [UInt8.toBitVec_and, UInt8.toBitVec_or]
  exact BitVec.and_or_distrib_right

/-- The pipe number stays clear of the three flags. -/
theorem pipeBits_and (c : Chip) {bits : UInt8}
    (h : bits ∈ [bitRxDr, bitTxDs ||| bitMaxRt]) : c.pipeBits <<< 1 &&& bits = 0 := by
  have all : ∀ q : BitVec 8, ∀ b ∈ [0x40#8, 0x30#8], (q &&& 7#8) <<< 1 &&& b = 0#8 := by
    intro q b hb
    rw [BitVec.shiftLeft_and_distrib, BitVec.and_assoc]
    rcases List.mem_pair.mp hb with rfl | rfl <;> simp
  obtain ⟨q, hq⟩ : ∃ q, c.pipeBits = q &&& 7 := by
    unfold pipeBits
    split
    · exact ⟨7, rfl⟩
    · exact ⟨_, rfl⟩
  rw [hq]
  apply UInt8.toBitVec_inj.mp
  rcases List.mem_pair.mp h with rfl | rfl
  · exact all q.toBitVec 0x40#8 (by decide)
  · exact all q.toBitVec 0x30#8 (by decide)

theorem status_and (c : Chip) {bits : UInt8} (h : bits ∈ [bitRxDr, bitTxDs ||| bitMaxRt]) :
    c.status &&& bits =
      (flag c.rxDr bitRxDr ||| flag c.txDs bitTxDs ||| flag c.maxRt bitMaxRt) &&& bits := by
  rw [status, uint8_or_and _ (c.pipeBits <<< 1), c.pipeBits_and h, UInt8.or_zero]

theorem status_rxDr (c : Chip) : c.status &&& bitRxDr ≠ 0 ↔ c.rxDr = true := by
  rw [c.status_and (by simp)]
  cases c.rxDr <;> cases c.txDs <;> cases c.maxRt <;> decide

theorem sendEnded_status (c : Chip) : sendEnded c.status = (c.txDs || c.maxRt) := by
  rw [sendEnded, c.status_and (by simp)]
  cases c.rxDr <;> cases c.txDs <;> cases c.maxRt <;> decide

/-- The interrupt line: a flag that `CONFIG` does not mask is set. -/
def asserted (c : Chip) : Bool :=
  (c.rxDr && c.config &&& bitRxDr = 0) || (c.txDs && c.config &&& bitTxDs = 0) ||
    (c.maxRt && c.config &&& bitMaxRt = 0)

def receive (c : Chip) (pipe : UInt8) (f : Frame) : Chip :=
  if c.fifo.length < fifoDepth then { c with rxDr := true, fifo := c.fifo ++ [(pipe, f)] } else c

/-- What the chip answers to a transaction, and its state after it. -/
def perform (c : Chip) : (op : ChipOp) → op.Ans × Chip
  | .readStatus => (c.status, c)
  | .writeRegister reg value => ((), c.writeRegister reg value)
  | .writeAddress _ _ => ((), c)
  | .readAddress _ => ((), c)
  | .flushTx => ((), c)
  | .writeTxPayload _ => ((), c)
  | .readRxPayload =>
      match c.fifo with
      | [] => (fun _ => 0, c)
      | f :: rest => (f.2, { c with fifo := rest })
  | .ce _ => ((), c)

/-- The chip after `Nrf24_config` and the first status clear. -/
def started : Chip := ⟨mirfConfig ||| pwrUp ||| primRx, false, false, false, []⟩

end Chip

/-- Where the game task is: inside its switch, or after it. -/
inductive Phase where
  | inSwitch (rest : GameTask Unit)
  | inTail (rest : GameTask Unit)

inductive Holder where
  | sender
  | receiver
  deriving DecidableEq, Repr

/-- `arrived` records the frames the chip has taken. -/
structure Firmware where
  mem : Mem
  game : Phase
  httpd : Option (GameTask Response)
  nrf : Nrf
  sender : RadioTask Unit
  receiver : RadioTask Unit
  chip : Chip
  irqQueue : Nat
  sendQueue : List IoMessage
  receiveQueue : List IoMessage
  mutex : Option Holder
  log : List Out
  radioLog : List RadioOut
  arrived : List Frame

def irqQueueSize : Nat := 10

inductive Act where
  | game
  | httpd
  | request (r : Request)
  | sender
  | receiver
  | frameArrives (pipe : UInt8) (f : Frame)
  | sendFlag (success : Bool)

namespace Firmware

/-- Replaces the chip; an edge of the interrupt line posts one event. -/
def setChip (s : Firmware) (c : Chip) : Firmware :=
  { s with
    chip := c
    irqQueue := if !s.chip.asserted && c.asserted then min (s.irqQueue + 1) irqQueueSize
      else s.irqQueue }

/-- Answers a call of the game task or of a handler, unless it blocks. -/
def answerGame (s : Firmware) : (c : Call) → Option (c.Ans × Firmware)
  | .queueSend m =>
      if s.sendQueue.length < ioQueueSize then
        some ((), { s with sendQueue := s.sendQueue ++ [m] })
      else none
  | .queueReceive =>
      match s.receiveQueue with
      | [] => some (none, s)
      | m :: rest => some (some m, { s with receiveQueue := rest })
  | .delay _ => some ((), s)

/-- Answers a call of a radio task, unless it blocks. A bounded mutex take that
finds the mutex held comes back empty-handed. -/
def answerRadio (s : Firmware) (who : Holder) : (c : RadioCall) → Option (c.Ans × Firmware)
  | .takeMessage =>
      match s.sendQueue with
      | [] => none
      | m :: rest => some (m, { s with sendQueue := rest })
  | .takeIrq => if 0 < s.irqQueue then some ((), { s with irqQueue := s.irqQueue - 1 }) else none
  | .takeMutex forever =>
      if s.mutex = none then some (true, { s with mutex := some who })
      else if forever then none else some (false, s)
  | .giveMutex => some ((), { s with mutex := none })
  | .putMessage m =>
      if s.receiveQueue.length < ioQueueSize then
        some ((), { s with receiveQueue := s.receiveQueue ++ [m] })
      else none
  | .pause _ => some ((), s)
  | .chip op => some ((s.chip.perform op).1, s.setChip (s.chip.perform op).2)

/-- Runs a game program to its next call on the shared memory. -/
def settleGame {α : Type} (s : Firmware) (t : GameTask α) : GameTask α × Firmware :=
  let r := Prog.settle t s.mem
  (r.1, { s with mem := r.2.1, log := s.log ++ r.2.2 })

def enterTail (s : Firmware) : Firmware :=
  let r := s.settleGame loopTail
  { r.2 with game := .inTail r.1 }

/-- After the switch comes the tail, in the same segment. -/
def inSwitch (s : Firmware) (t : GameTask Unit) : Firmware :=
  let r := s.settleGame t
  match r.1 with
  | .ret _ => r.2.enterTail
  | rest => { r.2 with game := .inSwitch rest }

def inTail (s : Firmware) (t : GameTask Unit) : Firmware :=
  let r := s.settleGame t
  { r.2 with game := .inTail r.1 }

/-- The head of the loop: the switch reads `game->state`. -/
def dispatch (lim : Limits) (s : Firmware) : Firmware :=
  { s with log := s.log ++ [Out.dispatch s.mem.game.state] }.inSwitch
    (gameSwitch lim s.mem.game.state)

def stepGame (lim : Limits) (s : Firmware) : Option Firmware :=
  match s.game with
  | .inTail (.ret _) => some (s.dispatch lim)
  | .inTail (.call c k) => (s.answerGame c).map (fun r => r.2.inTail (k r.1))
  | .inSwitch (.call c k) => (s.answerGame c).map (fun r => r.2.inSwitch (k r.1))
  | _ => none

/-- One action of the running handler: a read or write, or a call. -/
def stepHttpd (s : Firmware) : Option Firmware :=
  match s.httpd with
  | some (.ret _) => some { s with httpd := none }
  | some (.step f k) =>
      some { s with
        mem := (f s.mem).1
        log := s.log ++ (f s.mem).2
        httpd := some (k s.mem) }
  | some (.call c k) => (s.answerGame c).map (fun r => { r.2 with httpd := some (k r.1) })
  | _ => none

/-- Runs a radio program to its next call; a finished turn starts the next. -/
def settleRadio (s : Firmware) (body t : RadioTask Unit) : RadioTask Unit × Firmware :=
  let r := Prog.settle t s.nrf
  match r.1 with
  | .ret _ => (body, { s with nrf := r.2.1, radioLog := s.radioLog ++ r.2.2 })
  | rest => (rest, { s with nrf := r.2.1, radioLog := s.radioLog ++ r.2.2 })

def stepSender (lim : Limits) (s : Firmware) : Option Firmware :=
  match s.sender with
  | .call c k => (s.answerRadio .sender c).map (fun a =>
      let r := a.2.settleRadio (ioSendTask lim.fuel) (k a.1)
      { r.2 with sender := r.1 })
  | _ => none

def stepReceiver (s : Firmware) : Option Firmware :=
  match s.receiver with
  | .call c k => (s.answerRadio .receiver c).map (fun a =>
      let r := a.2.settleRadio ioReceiveTask (k a.1)
      { r.2 with receiver := r.1 })
  | _ => none

def step (lim : Limits) (s : Firmware) : Act → Option Firmware
  | .game => s.stepGame lim
  | .httpd => s.stepHttpd
  | .request r => if s.httpd.isNone then some { s with httpd := some (handle r) } else none
  | .sender => s.stepSender lim
  | .receiver => s.stepReceiver
  | .frameArrives pipe f =>
      some { s.setChip (s.chip.receive pipe f) with
        arrived := if s.chip.fifo.length < fifoDepth then s.arrived ++ [f] else s.arrived }
  | .sendFlag success =>
      some (s.setChip
        (if success then { s.chip with txDs := true } else { s.chip with maxRt := true }))

/-- The draws to come are these. -/
def deal (s : Firmware) (draws : Rng) : Firmware := { s with mem := { s.mem with rng := draws } }

/-- After `app_main`: the queues are new but for the LED message that
`led_matrix_init` has sent, and the game's memory holds anything but a state. -/
structure Start (lim : Limits) (s : Firmware) : Prop where
  state : s.mem.game.state = .init
  pointer : s.mem.currentGame = false
  browser : s.mem.wsConnected = false
  leds : s.mem.leds = ledMatrixInit
  game : s.game = .inTail (.ret ())
  httpd : s.httpd = none
  ptx : s.nrf.ptx = false
  sender : s.sender = ioSendTask lim.fuel
  receiver : s.receiver = ioReceiveTask
  chip : s.chip = Chip.started
  irqQueue : s.irqQueue = 0
  sendQueue : s.sendQueue = [ledMessage 3 ledMatrixInit]
  receiveQueue : s.receiveQueue = []
  mutex : s.mutex = none
  log : s.log = []
  radioLog : s.radioLog = []
  arrived : s.arrived = []

/-- A start with a zeroed random source. -/
def boot (lim : Limits) : Firmware where
  mem := ⟨clearedGame, false, aiResetSmart, initBoard true, ledMatrixInit, false, fun _ => 0, 0⟩
  game := .inTail (.ret ())
  httpd := none
  nrf := ⟨false, 0, 0⟩
  sender := ioSendTask lim.fuel
  receiver := ioReceiveTask
  chip := Chip.started
  irqQueue := 0
  sendQueue := [ledMessage 3 ledMatrixInit]
  receiveQueue := []
  mutex := none
  log := []
  radioLog := []
  arrived := []

theorem boot_start (lim : Limits) : Start lim (boot lim) := by
  constructor <;> rfl

end Firmware
end Battleship
