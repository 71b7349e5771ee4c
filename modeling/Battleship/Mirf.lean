import Battleship.Message
import Battleship.Lib.Prog

/-!
# The radio driver

The functions of `mirf.c` that the two radio tasks use, as tasks over the
driver's own memory. Every SPI transaction is one call, so that the chip and
the other tasks can act between any two of them.
-/
namespace Battleship
open Cooperative

/-- The fields of `NRF24_t` that change, and the static retry counter. -/
structure Nrf where
  ptx : Bool
  status : UInt8
  retryCount : Nat

def regConfig : UInt8 := 0x00
def regStatus : UInt8 := 0x07
def regRxAddrP0 : UInt8 := 0x0A
def regTxAddr : UInt8 := 0x10

def bitRxDr : UInt8 := 0x40
def bitTxDs : UInt8 := 0x20
def bitMaxRt : UInt8 := 0x10

/-- `mirf_CONFIG`: the TX_DS interrupt is masked, CRC is on. -/
def mirfConfig : UInt8 := 0x28
def pwrUp : UInt8 := 0x02
def primRx : UInt8 := 0x01

/-- One SPI transaction, or a write of the CE pin. -/
inductive ChipOp where
  | readStatus
  | writeRegister (reg value : UInt8)
  | writeAddress (reg : UInt8) (adr : List UInt8)
  | readAddress (reg : UInt8)
  | flushTx
  | writeTxPayload (f : Frame)
  | readRxPayload
  | ce (level : Bool)

abbrev ChipOp.Ans : ChipOp → Type
  | .readStatus => UInt8
  | .readRxPayload => Frame
  | _ => Unit

inductive RadioCall where
  | takeMessage
  | takeIrq
  | takeMutex (forever : Bool)
  | giveMutex
  | putMessage (m : IoMessage)
  | pause (ms : Nat)
  | chip (op : ChipOp)

abbrev RadioCall.Ans : RadioCall → Type
  | .takeMessage => IoMessage
  | .takeMutex _ => Bool
  | .chip op => op.Ans
  | _ => Unit

/-- What the radio tasks log: a turn of the wait loop of `Nrf24_send`, and the
frames handed on. -/
inductive RadioOut where
  | waitTurn
  | ping (slaveId : UInt8) (raw : Frame)
  | delivered (raw : Frame)

abbrev RadioTask (α : Type) := Prog Nrf RadioOut RadioCall RadioCall.Ans α

def chipDo (op : ChipOp) : RadioTask op.Ans := Prog.sys (RadioCall.chip op)

def nrf24GetStatus : RadioTask UInt8 := chipDo .readStatus

def nrf24ConfigRegister (reg value : UInt8) : RadioTask Unit := chipDo (.writeRegister reg value)

def nrf24CeLow : RadioTask Unit := chipDo (.ce false)

def nrf24CeHi : RadioTask Unit := chipDo (.ce true)

def setPtx (v : Bool) : RadioTask Unit := Prog.modify (fun n => { n with ptx := v })

def nrf24PowerUpRx : RadioTask Unit := do
  setPtx false
  nrf24CeLow
  nrf24ConfigRegister regConfig (mirfConfig ||| pwrUp ||| primRx)
  nrf24CeHi
  nrf24ConfigRegister regStatus (bitTxDs ||| bitMaxRt)

def nrf24PowerUpTx : RadioTask Unit := do
  setPtx true
  nrf24ConfigRegister regConfig (mirfConfig ||| pwrUp)
  nrf24ConfigRegister regStatus (bitTxDs ||| bitMaxRt)

/-- The read-back is compared in the source, but no caller uses the result. -/
def nrf24SetTaddr (adr : List UInt8) : RadioTask Unit := do
  chipDo (.writeAddress regRxAddrP0 adr)
  chipDo (.writeAddress regTxAddr adr)
  chipDo (.readAddress regRxAddrP0)

def sendEnded (status : UInt8) : Bool := status &&& (bitTxDs ||| bitMaxRt) ≠ 0

/-- The loop `while (dev->PTX)` at the head of `Nrf24_send`. -/
def waitLastSent : Nat → RadioTask Unit
  | 0 => .starved
  | fuel + 1 => do
      let n ← Prog.get
      if n.ptx then
        Prog.emit .waitTurn
        let status ← nrf24GetStatus
        if sendEnded status then setPtx false else waitLastSent fuel

def nrf24Send (fuel : Nat) (value : Frame) : RadioTask Unit := do
  let _ ← nrf24GetStatus
  waitLastSent fuel
  nrf24CeLow
  nrf24PowerUpTx
  chipDo .flushTx
  chipDo (.writeTxPayload value)
  nrf24CeHi

def nrf24IsSending : RadioTask Bool := do
  let n ← Prog.get
  if n.ptx then
    let status ← nrf24GetStatus
    if sendEnded status then
      nrf24PowerUpRx
      return false
    else return true
  else return false

/-- Only the flag is tested; the test of the FIFO is commented out. -/
def nrf24DataReady : RadioTask Bool := do
  let status ← nrf24GetStatus
  if status &&& bitRxDr ≠ 0 then
    Prog.modify (fun n => { n with status := status })
    return true
  else return false

def nrf24GetData : RadioTask Frame := do
  let raw ← chipDo .readRxPayload
  nrf24ConfigRegister regStatus bitRxDr
  return raw

def nrf24GetDataPipe : RadioTask UInt8 := do
  let n ← Prog.get
  return (n.status &&& 0x0E) >>> 1

def maxRetries : Nat := 20

def slaveAddress (slaveId : UInt8) : List UInt8 :=
  UInt8.ofNat (48 + slaveId.toNat) :: typeBytes "RECV"

/-- The polling loop of `io_send_task`; its turns are bounded by the counter. -/
def waitSent : Nat → RadioTask Unit
  | 0 => .starved
  | turns + 1 => do
      if ← nrf24IsSending then
        let n ← Prog.get
        if n.retryCount < maxRetries then
          Prog.modify (fun n => { n with retryCount := n.retryCount + 1 })
          Prog.sys (RadioCall.pause 10)
          waitSent turns
        else nrf24ConfigRegister regStatus (bitRxDr ||| bitTxDs ||| bitMaxRt)

def sendMessage (fuel : Nat) (msg : IoMessage) : RadioTask Unit := do
  nrf24SetTaddr (slaveAddress msg.slaveId)
  nrf24Send fuel (frameOf msg)
  waitSent (maxRetries + 1)

/-- One turn of the loop of `io_send_task`. -/
def ioSendTask (fuel : Nat) : RadioTask Unit := do
  let msg ← (Prog.sys RadioCall.takeMessage : RadioTask IoMessage)
  Prog.modify (fun n => { n with retryCount := 0 })
  let _ ← (Prog.sys (RadioCall.takeMutex true) : RadioTask Bool)
  sendMessage fuel msg
  (Prog.sys RadioCall.giveMutex : RadioTask Unit)
  Prog.sys (RadioCall.pause 10)

/-- What `io_receive_task` does with a frame it has read. -/
def handOn (raw : Frame) (pipe : UInt8) : RadioTask Unit :=
  let msg := messageOf raw pipe
  if msg.isType "PING" then Prog.emit (.ping msg.slaveId raw)
  else do
    (Prog.sys (RadioCall.putMessage msg) : RadioTask Unit)
    Prog.emit (.delivered raw)

def receiveFrame : RadioTask Unit := do
  if ← nrf24DataReady then
    let raw ← nrf24GetData
    let pipe ← nrf24GetDataPipe
    handOn raw pipe

/-- One turn of the loop of `io_receive_task`. -/
def ioReceiveTask : RadioTask Unit := do
  (Prog.sys RadioCall.takeIrq : RadioTask Unit)
  if ← (Prog.sys (RadioCall.takeMutex false) : RadioTask Bool) then
    receiveFrame
    (Prog.sys RadioCall.giveMutex : RadioTask Unit)
  Prog.sys (RadioCall.pause 10)

end Battleship
