import Battleship.Led
import Mathlib.Data.Fintype.Pi

/-!
# Messages and frames

`io_message_t`, the builders of `io_builder.c`, and the two conversions between
a message and the 32 bytes on the air.
-/
namespace Battleship

def ioQueueSize : Nat := 10

abbrev Frame := Fin 32 → UInt8

structure IoMessage where
  slaveId : UInt8
  messageType : Fin 8 → UInt8
  payload : Fin 24 → UInt8
  payloadLength : UInt8
  deriving DecidableEq

def typeBytes (name : String) : List UInt8 := name.toList.map (fun c => UInt8.ofNat c.toNat)

/-- `strncpy` pads with zeros. -/
def messageTypeOf (name : String) : Fin 8 → UInt8 := fun i => (typeBytes name).getD i.val 0

def payloadOf (bytes : List UInt8) : Fin 24 → UInt8 := fun i => bytes.getD i.val 0

/-- `strcmp(message_type, name) == 0`. -/
def IoMessage.isType (m : IoMessage) (name : String) : Bool :=
  (List.ofFn m.messageType).takeWhile (fun b => b ≠ 0) = typeBytes name

/-- Arguments are converted to `uint8_t` at the call. -/
def robotCommand (slaveId shipId row col notVertical notPlace : Int) : IoMessage where
  slaveId := UInt8.ofInt slaveId
  messageType := messageTypeOf "ROBOT"
  payload := payloadOf [UInt8.ofInt shipId, UInt8.ofInt row, UInt8.ofInt col,
    UInt8.ofInt notVertical, UInt8.ofInt notPlace]
  payloadLength := 24

def soundCommand (slaveId soundId : Int) : IoMessage where
  slaveId := UInt8.ofInt slaveId
  messageType := messageTypeOf "SOUND"
  payload := payloadOf [UInt8.ofInt soundId]
  payloadLength := 1

def lowByte (w : BitVec 16) : UInt8 := UInt8.ofNat (w &&& 0xFF#16).toNat

def highByte (w : BitVec 16) : UInt8 := UInt8.ofNat ((w >>> 8) &&& 0xFF#16).toNat

def matrixBytes (m : LedMatrix) : List UInt8 :=
  (List.finRange matrixSize).flatMap (fun i => [lowByte (m.get i), highByte (m.get i)])

def ledMessage (slaveId : Int) (leds : Leds) : IoMessage where
  slaveId := UInt8.ofInt slaveId
  messageType := messageTypeOf "LED"
  payload := payloadOf (matrixBytes leds.ledMatrix1 ++ matrixBytes leds.ledMatrix2)
  payloadLength := 20

/-- The buffer `io_send_task` builds. -/
def frameOf (m : IoMessage) : Frame := fun i =>
  if h : i.val < 8 then m.messageType ⟨i.val, h⟩ else m.payload ⟨i.val - 8, by omega⟩

/-- The message `io_receive_task` builds: byte 7 is forced to zero. -/
def messageOf (raw : Frame) (pipe : UInt8) : IoMessage where
  slaveId := pipe
  messageType := fun i => if i = 7 then 0 else raw ⟨i.val, by omega⟩
  payload := fun i => raw ⟨i.val + 8, by omega⟩
  payloadLength := 24

end Battleship
