import Battleship.Mirf
import Battleship.Lib.Device
import Mathlib.Data.List.Induction
import Mathlib.Logic.Function.Basic
import Mathlib.Tactic.IntervalCases

/-!
# Bringing the radio up

The part of the driver that runs before the radio tasks do: `io_thread_init` and
what it calls, over the registers of the chip.
-/
namespace Battleship
open Cooperative

def regEnRxAddr : UInt8 := 0x02
def regSetupRetr : UInt8 := 0x04
def regRfCh : UInt8 := 0x05
def regRfSetup : UInt8 := 0x06
def regRxAddrP1 : UInt8 := 0x0B
def regRxAddrP2 : UInt8 := 0x0C
def regRxAddrP3 : UInt8 := 0x0D
def regRxAddrP4 : UInt8 := 0x0E
def regRxAddrP5 : UInt8 := 0x0F
def regRxPwP0 : UInt8 := 0x11
def regRxPwP1 : UInt8 := 0x12
def regRxPwP2 : UInt8 := 0x13
def regRxPwP3 : UInt8 := 0x14
def regRxPwP4 : UInt8 := 0x15
def regRxPwP5 : UInt8 := 0x16

/-- What the registers of the chip hold, low byte first. It is not part of the
repository: a write replaces as many bytes as it has, but in STATUS it clears the
flags that it sets. -/
abbrev Bank := UInt8 → List UInt8

namespace Bank

def flags : UInt8 := bitRxDr ||| bitTxDs ||| bitMaxRt

def write (b : Bank) (reg : UInt8) (bytes : List UInt8) : Bank :=
  Function.update b reg
    (if reg = regStatus then (b reg).map (fun old => old &&& ~~~(bytes.headD 0 &&& flags))
    else bytes ++ (b reg).drop bytes.length)

theorem write_other (b : Bank) {reg r : UInt8} (bytes : List UInt8) (other : r ≠ reg) :
    b.write reg bytes r = b r := Function.update_of_ne other _ _

/-- How many bytes a register has. -/
def width (reg : UInt8) : Nat := if reg ∈ [regRxAddrP0, regRxAddrP1, regTxAddr] then 5 else 1

def Sized (b : Bank) : Prop := ∀ reg, (b reg).length = width reg

/-- The first byte of a register, the only one of most. -/
def byte (b : Bank) (reg : UInt8) : UInt8 := (b reg).headD 0

theorem Sized.byte {b : Bank} (h : b.Sized) {reg : UInt8} (narrow : width reg = 1) :
    b reg = [b.byte reg] := by
  obtain ⟨v, eq⟩ := List.length_eq_one_iff.mp ((h reg).trans narrow)
  rw [Bank.byte, eq]
  rfl

/-- A register is written as a whole. -/
theorem Sized.write {b : Bank} (h : b.Sized) {reg : UInt8} {bytes : List UInt8}
    (plain : reg ≠ regStatus) (size : bytes.length = width reg) :
    b.write reg bytes = Function.update b reg bytes := by
  have past : (b reg).drop bytes.length = [] :=
    List.drop_of_length_le ((h reg).trans size.symm).le
  rw [Bank.write, if_neg plain, past, List.append_nil]

theorem Sized.write_sized {b : Bank} (h : b.Sized) {reg : UInt8} {bytes : List UInt8}
    (size : bytes.length = width reg) : (b.write reg bytes).Sized := by
  intro r
  by_cases here : r = reg
  · subst here
    rw [Bank.write, Function.update_self]
    split
    · rw [List.length_map, h r]
    · rw [List.length_append, List.length_drop, h r, size]
      omega
  · rw [b.write_other bytes here, h r]

/-- Bytes for a register each, one write after the other. -/
def writes (b : Bank) (ws : List (UInt8 × List UInt8)) : Bank :=
  ws.foldl (fun b w => b.write w.1 w.2) b

theorem writes_append (b : Bank) (ws ws' : List (UInt8 × List UInt8)) :
    b.writes (ws ++ ws') = (b.writes ws).writes ws' := List.foldl_append

/-- The bytes that were written to a register last. -/
def lastWrite (ws : List (UInt8 × List UInt8)) (reg : UInt8) : Option (List UInt8) :=
  (ws.filter (fun w => w.1 = reg)).getLast?.map Prod.snd

theorem lastWrite_concat (ws : List (UInt8 × List UInt8)) (reg : UInt8) (bytes : List UInt8) :
    lastWrite (ws ++ [(reg, bytes)]) reg = some bytes := by
  simp [lastWrite]

def Fitting (ws : List (UInt8 × List UInt8)) : Prop := ∀ w ∈ ws, w.2.length = width w.1

theorem Sized.writes {b : Bank} (h : b.Sized) {ws : List (UInt8 × List UInt8)}
    (fitting : Fitting ws) : (b.writes ws).Sized := by
  induction ws generalizing b with
  | nil => exact h
  | cons w ws ih =>
      obtain ⟨size, later⟩ := List.forall_mem_cons.mp fitting
      exact ih (h.write_sized size) later

/-- Every register but STATUS holds what was written to it last. -/
theorem Sized.writes_apply {b : Bank} (h : b.Sized) {ws : List (UInt8 × List UInt8)}
    (fitting : Fitting ws) {reg : UInt8} (plain : reg ≠ regStatus) :
    b.writes ws reg = (lastWrite ws reg).getD (b reg) := by
  induction ws using List.reverseRecOn with
  | nil => rfl
  | append_singleton ws w ih =>
      obtain ⟨before, last⟩ := List.forall_mem_append.mp fitting
      have size := last w List.mem_cons_self
      have whole : b.writes (ws ++ [w]) = (b.writes ws).write w.1 w.2 := writes_append b ws [w]
      by_cases here : w.1 = reg
      · subst here
        rw [whole, (h.writes before).write plain size, Function.update_self]
        simp [lastWrite]
      · rw [whole, Bank.write_other _ _ (Ne.symm here), ih before]
        simp [lastWrite, here]

/-- What is not written stays. -/
theorem Sized.byte_writes {b : Bank} (h : b.Sized) {ws : List (UInt8 × List UInt8)}
    (fitting : Fitting ws) {reg : UInt8} (plain : reg ≠ regStatus)
    (unwritten : lastWrite ws reg = none) : (b.writes ws).byte reg = b.byte reg := by
  rw [Bank.byte, h.writes_apply fitting plain, unwritten]
  rfl

/-- The address that a pipe listens to: from pipe 2 on only the first byte is its own. -/
def address (b : Bank) (pipe : UInt8) : List UInt8 :=
  if pipe < 2 then b (regRxAddrP0 + pipe)
  else b (regRxAddrP0 + pipe) ++ (b regRxAddrP1).drop 1

/-- The chip takes frames of 32 bytes from the five slaves, each on the pipe of its
number, at 1 Mbit/s on channel 112. Pipe 1 is enabled by the chip's reset. -/
structure Listens (b : Bank) : Prop where
  channel : b.byte regRfCh = 112
  rate : b.byte regRfSetup &&& 0x28 = 0
  width : ∀ pipe ∈ [(0 : UInt8), 1, 2, 3, 4, 5], b.byte (regRxPwP0 + pipe) = 32
  address : ∀ pipe ∈ [(1 : UInt8), 2, 3, 4, 5], b.address pipe = slaveAddress pipe
  enabled : ∀ pipe ∈ [(2 : UInt8), 3, 4, 5], b.byte regEnRxAddr &&& 1 <<< pipe ≠ 0

end Bank

/-- One SPI transaction, or a write of the CE pin. -/
inductive SpiCall where
  | readRegister (reg : UInt8) (len : Nat)
  | writeRegister (reg : UInt8) (bytes : List UInt8)
  | flushRx
  | ce (level : Bool)

abbrev SpiCall.Ans : SpiCall → Type
  | .readRegister _ _ => List UInt8
  | _ => Unit

def Bank.perform : Prog.Device SpiCall SpiCall.Ans Bank
  | .readRegister reg len, b => ((b reg).take len, b)
  | .writeRegister reg bytes, b => ((), b.write reg bytes)
  | .flushRx, b => ((), b)
  | .ce _, b => ((), b)

/-- The fields of `NRF24_t` that the bring-up sets. -/
structure Nrf24 where
  ptx : Bool
  channel : UInt8
  payload : UInt8
  deriving DecidableEq, Repr

abbrev DriverTask (α : Type) := Prog Nrf24 Empty SpiCall SpiCall.Ans α

namespace BringUp

def nrf24ConfigRegister (reg value : UInt8) : DriverTask Unit :=
  Prog.sys (SpiCall.writeRegister reg [value])

def nrf24WriteRegister (reg : UInt8) (value : List UInt8) : DriverTask Unit :=
  Prog.sys (SpiCall.writeRegister reg value)

def nrf24ReadRegister (reg : UInt8) (len : Nat) : DriverTask (List UInt8) :=
  Prog.sys (SpiCall.readRegister reg len)

/-- One byte of a register. -/
def readByte (reg : UInt8) : DriverTask UInt8 := do
  let bytes ← nrf24ReadRegister reg 1
  return bytes.headD 0

def nrf24CeLow : DriverTask Unit := Prog.sys (SpiCall.ce false)

def nrf24CeHi : DriverTask Unit := Prog.sys (SpiCall.ce true)

def nrf24FlushRx : DriverTask Unit := Prog.sys SpiCall.flushRx

/-- The pins and the SPI bus are left out. -/
def nrf24Init : DriverTask Unit := do
  nrf24CeLow
  Prog.modify (fun d => { d with channel := 112, payload := 32 })

def nrf24PowerUpRx : DriverTask Unit := do
  Prog.modify (fun d => { d with ptx := false })
  nrf24CeLow
  nrf24ConfigRegister regConfig (mirfConfig ||| pwrUp ||| primRx)
  nrf24CeHi
  nrf24ConfigRegister regStatus (bitTxDs ||| bitMaxRt)

def nrf24Config (channel payload : UInt8) : DriverTask Unit := do
  Prog.modify (fun d => { d with channel := channel, payload := payload })
  let d ← Prog.get
  nrf24ConfigRegister regRfCh d.channel
  nrf24ConfigRegister regRxPwP0 d.payload
  nrf24ConfigRegister regRxPwP1 d.payload
  nrf24PowerUpRx
  nrf24FlushRx

/-- `mirf_ADDR_LEN`. -/
def addrLen : Nat := 5

/-- Whether every byte is read back as it was written. -/
def nrf24SetRaddr (adr : List UInt8) : DriverTask Bool := do
  nrf24WriteRegister regRxAddrP1 adr
  let buffer ← nrf24ReadRegister regRxAddrP1 addrLen
  return (List.range addrLen).all (fun i => adr[i]? = buffer[i]?)

/-- What `Nrf24_addRADDR` does for each of its four pipes. -/
def addPipe (regWidth regAddr : UInt8) (adr value bit : UInt8) : DriverTask Unit := do
  let d ← Prog.get
  nrf24ConfigRegister regWidth d.payload
  nrf24ConfigRegister regAddr adr
  nrf24ConfigRegister regEnRxAddr (value ||| bit)

def nrf24AddRaddr (pipe adr : UInt8) : DriverTask Unit := do
  let value ← readByte regEnRxAddr
  if pipe = 2 then addPipe regRxPwP2 regRxAddrP2 adr value 0x04
  else if pipe = 3 then addPipe regRxPwP3 regRxAddrP3 adr value 0x08
  else if pipe = 4 then addPipe regRxPwP4 regRxAddrP4 adr value 0x10
  else if pipe = 5 then addPipe regRxPwP5 regRxAddrP5 adr value 0x20

def nrf24SetSpeedDataRates (val : UInt8) : DriverTask Unit :=
  if 2 < val then .ret ()
  else do
    let value ← readByte regRfSetup
    if val = 2 then nrf24ConfigRegister regRfSetup ((value ||| 0x20) &&& 0xF7)
    else nrf24ConfigRegister regRfSetup (value &&& (0xD7 : UInt8) ||| val <<< (3 : UInt8))

def nrf24SetOutputRfPwr (val : UInt8) : DriverTask Unit :=
  if 3 < val then .ret ()
  else do
    let value ← readByte regRfSetup
    nrf24ConfigRegister regRfSetup (value &&& (0xF9 : UInt8) ||| val <<< (1 : UInt8))

def nrf24SetRetransmitDelay (val : UInt8) : DriverTask Unit := do
  let value ← readByte regSetupRetr
  nrf24ConfigRegister regSetupRetr (value &&& (0x0F : UInt8) ||| val <<< (4 : UInt8))

def nrf24GetDataRate : DriverTask UInt8 := do
  let dr ← readByte regRfSetup
  if dr &&& 0x28 = 0x20 then return 2
  else if dr &&& 0x28 = 0x08 then return 1
  else return 0

def nrf24GetPaLevel : DriverTask UInt8 := do
  let level ← readByte regRfSetup
  return (level &&& 0x06) >>> 1

def nrf24GetRetransmitDelay : DriverTask UInt8 := do
  let value ← readByte regSetupRetr
  return value >>> 4

/-- The loop over `slave_addresses`. -/
def addSlaves : List Nat → DriverTask Unit
  | [] => .ret ()
  | i :: is => do
      nrf24AddRaddr (UInt8.ofNat (i + 2)) ((slaveAddress (UInt8.ofNat (i + 2))).headD 0)
      addSlaves is

/-- `false` when the chip does not answer: the function then waits forever, and no
radio task is created. -/
def ioThreadInit : DriverTask Bool := do
  nrf24Init
  nrf24Config 112 32
  if ← nrf24SetRaddr (slaveAddress 1) then
    addSlaves (List.range 4)
    nrf24SetSpeedDataRates 0
    nrf24ConfigRegister regStatus (bitRxDr ||| bitTxDs ||| bitMaxRt)
    return true
  else return false

variable {d : Nrf24} {b : Bank}

/-- The driver runs `t` to its end, and makes these writes on the way. -/
def Writes {α : Type} (t : DriverTask α) (d : Nrf24) (b : Bank) (a : α) (d' : Nrf24)
    (ws : List (UInt8 × List UInt8)) : Prop :=
  Prog.drive Bank.perform t d b = .done (a, d', b.writes ws)

theorem Writes.bind {α β : Type} {t : DriverTask α} {g : α → DriverTask β} {a : α} {c : β}
    {d' d'' : Nrf24} {l l' : List (UInt8 × List UInt8)} (first : Writes t d b a d' l)
    (later : Writes (g a) d' (b.writes l) c d'' l') :
    Writes (t >>= g) d b c d'' (l ++ l') := by
  rw [Writes, Prog.drive_bind, first, Bank.writes_append]
  exact later

theorem readByte_writes (reg : UInt8) : Writes (readByte reg) d b (b.byte reg) d [] := by
  have head : ((b reg).take 1).headD 0 = b.byte reg := by
    rw [Bank.byte]
    cases b reg <;> rfl
  rw [← head]
  rfl

def configWrites (channel payload : UInt8) : List (UInt8 × List UInt8) :=
  [(regRfCh, [channel]), (regRxPwP0, [payload]), (regRxPwP1, [payload]),
    (regConfig, [mirfConfig ||| pwrUp ||| primRx]), (regStatus, [bitTxDs ||| bitMaxRt])]

theorem config_writes (channel payload : UInt8) : Writes (nrf24Config channel payload) d b ()
    ⟨false, channel, payload⟩ (configWrites channel payload) := rfl

/-- On a chip that is there the address is read back. -/
theorem setRaddr_writes (sized : b.Sized) (adr : List UInt8) (size : adr.length = addrLen) :
    Writes (nrf24SetRaddr adr) d b true d [(regRxAddrP1, adr)] := by
  have written : b.write regRxAddrP1 adr regRxAddrP1 = adr := by
    rw [sized.write (by decide) (by rw [size]; rfl), Function.update_self]
  have back : (b.write regRxAddrP1 adr regRxAddrP1).take addrLen = adr := by
    rw [written, ← size, List.take_length]
  have run : Prog.drive Bank.perform (nrf24SetRaddr adr) d b = .done
      ((List.range addrLen).all (fun i =>
        adr[i]? = ((b.write regRxAddrP1 adr regRxAddrP1).take addrLen)[i]?), d,
        b.write regRxAddrP1 adr) := rfl
  rw [Writes, run, back]
  simp [Bank.writes]

/-- The width, the first byte of the address and the bit of a pipe. -/
def pipeWrites (pipe adr payload enabled : UInt8) : List (UInt8 × List UInt8) :=
  [(regRxPwP0 + pipe, [payload]), (regRxAddrP0 + pipe, [adr]),
    (regEnRxAddr, [enabled ||| 1 <<< pipe])]

theorem addRaddr_writes (pipe adr : UInt8) (listed : pipe ∈ [(2 : UInt8), 3, 4, 5]) :
    Writes (nrf24AddRaddr pipe adr) d b () d
      (pipeWrites pipe adr d.payload (b.byte regEnRxAddr)) := by
  refine Writes.bind (readByte_writes _) ?_
  simp only [List.mem_cons, List.not_mem_nil, or_false] at listed
  rcases listed with rfl | rfl | rfl | rfl <;> rfl

theorem pipeWrites_fitting (adr payload enabled : UInt8) {pipe : UInt8}
    (listed : pipe ∈ [(2 : UInt8), 3, 4, 5]) :
    Bank.Fitting (pipeWrites pipe adr payload enabled) := by
  have narrow : ∀ pipe ∈ [(2 : UInt8), 3, 4, 5],
      Bank.width (regRxPwP0 + pipe) = 1 ∧ Bank.width (regRxAddrP0 + pipe) = 1 := by
    decide +kernel
  obtain ⟨widths, addresses⟩ := narrow pipe listed
  simp only [Bank.Fitting, pipeWrites, List.forall_mem_cons, List.length_singleton]
  exact ⟨widths.symm, addresses.symm, rfl, fun _ member => absurd member List.not_mem_nil⟩

theorem pipeWrites_enables (pipe adr payload enabled : UInt8) :
    Bank.lastWrite (pipeWrites pipe adr payload enabled) regEnRxAddr =
      some [enabled ||| 1 <<< pipe] :=
  Bank.lastWrite_concat [(regRxPwP0 + pipe, [payload]), (regRxAddrP0 + pipe, [adr])] _ _

/-- The number of the pipe that the loop adds in its turn `i`. -/
def pipeOf (i : Nat) : UInt8 := UInt8.ofNat (i + 2)

/-- The writes of the loop, from the pipes enabled before. -/
def slaveWrites (payload : UInt8) : UInt8 → List Nat → List (UInt8 × List UInt8)
  | _, [] => []
  | enabled, i :: is =>
      pipeWrites (pipeOf i) ((slaveAddress (pipeOf i)).headD 0) payload enabled ++
        slaveWrites payload (enabled ||| 1 <<< pipeOf i) is

theorem addSlaves_writes (sized : b.Sized) (is : List Nat) (slaves : ∀ i ∈ is, i < 4) :
    Writes (addSlaves is) d b () d (slaveWrites d.payload (b.byte regEnRxAddr) is) := by
  induction is generalizing b with
  | nil => rfl
  | cons i is ih =>
      obtain ⟨slave, later⟩ := List.forall_mem_cons.mp slaves
      have all : ∀ i < 4, pipeOf i ∈ [(2 : UInt8), 3, 4, 5] := by decide +kernel
      have listed := all i slave
      have fitting := pipeWrites_fitting ((slaveAddress (pipeOf i)).headD 0) d.payload
        (b.byte regEnRxAddr) listed
      have enabled : (b.writes (pipeWrites (pipeOf i) ((slaveAddress (pipeOf i)).headD 0) d.payload
          (b.byte regEnRxAddr))).byte regEnRxAddr = b.byte regEnRxAddr ||| 1 <<< pipeOf i := by
        rw [Bank.byte, sized.writes_apply fitting (by decide), pipeWrites_enables]
        rfl
      have next := ih (sized.writes fitting) later
      rw [enabled] at next
      exact Writes.bind (addRaddr_writes _ _ listed) next

theorem forall_byte {p : UInt8 → Prop} (h : ∀ q : BitVec 8, p (UInt8.ofBitVec q)) (x : UInt8) :
    p x := h x.toBitVec

/-- A rate that the chip has goes into two bits. -/
def rateByte (val value : UInt8) : UInt8 :=
  if val = 2 then (value ||| 0x20) &&& 0xF7
  else value &&& (0xD7 : UInt8) ||| val <<< (3 : UInt8)

def powerByte (val value : UInt8) : UInt8 := value &&& (0xF9 : UInt8) ||| val <<< (1 : UInt8)

def delayByte (val value : UInt8) : UInt8 := value &&& (0x0F : UInt8) ||| val <<< (4 : UInt8)

/-- What the getters read off RF_SETUP. -/
def rateOf (setup : UInt8) : UInt8 :=
  if setup &&& 0x28 = 0x20 then 2 else if setup &&& 0x28 = 0x08 then 1 else 0

def levelOf (setup : UInt8) : UInt8 := (setup &&& 0x06) >>> 1

theorem rateByte_bits (value : UInt8) : ∀ val ∈ [(0 : UInt8), 1, 2],
    rateOf (rateByte val value) = val ∧ levelOf (rateByte val value) = levelOf value ∧
      rateByte val value &&& 0xD1 = value &&& 0xD1 := by
  revert value
  apply forall_byte
  decide +kernel

theorem powerByte_bits (value : UInt8) : ∀ val ∈ [(0 : UInt8), 1, 2, 3],
    levelOf (powerByte val value) = val ∧ rateOf (powerByte val value) = rateOf value ∧
      powerByte val value &&& 0xD1 = value &&& 0xD1 := by
  revert value
  apply forall_byte
  decide +kernel

theorem delayByte_high (val value : UInt8) : delayByte val value >>> 4 = val &&& 0x0F := by
  rw [delayByte]
  apply UInt8.toBitVec_inj.mp
  ext i hi
  interval_cases i <;> simp [BitVec.getLsbD_eq_getElem]

theorem delayByte_low (val value : UInt8) : delayByte val value &&& 0x0F = value &&& 0x0F := by
  rw [delayByte]
  apply UInt8.toBitVec_inj.mp
  ext i hi
  interval_cases i <;> simp

/-- At 1 Mbit/s both rate bits are clear, and the four pipes added stay enabled. -/
theorem rateByte_slow (value : UInt8) : rateByte 0 value &&& 0x28 = 0 := by
  revert value
  apply forall_byte
  decide +kernel

theorem pipes_enabled (value : UInt8) : ∀ pipe ∈ [(2 : UInt8), 3, 4, 5],
    (value ||| 1 <<< pipeOf 0 ||| 1 <<< pipeOf 1 ||| 1 <<< pipeOf 2 ||| 1 <<< pipeOf 3) &&&
      1 <<< pipe ≠ 0 := by
  revert value
  apply forall_byte
  decide +kernel

theorem setSpeed_writes (val : UInt8) : Writes (nrf24SetSpeedDataRates val) d b () d
    (if 2 < val then [] else [(regRfSetup, [rateByte val (b.byte regRfSetup)])]) := by
  unfold nrf24SetSpeedDataRates
  split
  · rfl
  · refine Writes.bind (readByte_writes _) ?_
    rw [rateByte]
    split <;> rfl

/-- Everything the bring-up writes, in order. -/
def initWrites (b : Bank) : List (UInt8 × List UInt8) :=
  configWrites 112 32 ++ ([(regRxAddrP1, slaveAddress 1)] ++
    (slaveWrites 32 (b.byte regEnRxAddr) (List.range 4) ++
      ([(regRfSetup, [rateByte 0 (b.byte regRfSetup)])] ++ [(regStatus, [Bank.flags])])))

theorem initWrites_fitting (b : Bank) : Bank.Fitting (initWrites b) := by
  simp only [Bank.Fitting, initWrites, configWrites, slaveWrites, pipeWrites, List.cons_append,
    List.nil_append, List.range, List.range.loop, List.forall_mem_cons]
  exact ⟨rfl, rfl, rfl, rfl, rfl, rfl, rfl, rfl, rfl, rfl, rfl, rfl, rfl, rfl, rfl, rfl, rfl, rfl,
    rfl, rfl, fun _ member => absurd member List.not_mem_nil⟩

theorem ioThreadInit_writes (sized : b.Sized) :
    Writes ioThreadInit d b true ⟨false, 112, 32⟩ (initWrites b) := by
  have fitting := initWrites_fitting b
  obtain ⟨fitting₁, fitting⟩ := List.forall_mem_append.mp fitting
  obtain ⟨fitting₂, fitting⟩ := List.forall_mem_append.mp fitting
  obtain ⟨fitting₃, -⟩ := List.forall_mem_append.mp fitting
  have sized₁ := sized.writes fitting₁
  have sized₂ := sized₁.writes fitting₂
  have address := setRaddr_writes (d := ⟨false, 112, 32⟩) sized₁ (slaveAddress 1) rfl
  have slaves := addSlaves_writes (d := ⟨false, 112, 32⟩) sized₂ (List.range 4) (by simp)
  rw [sized₁.byte_writes fitting₂ (by decide) rfl, sized.byte_writes fitting₁ (by decide) rfl]
    at slaves
  have speed := setSpeed_writes (d := ⟨false, 112, 32⟩)
    (b := ((b.writes (configWrites 112 32)).writes [(regRxAddrP1, slaveAddress 1)]).writes
      (slaveWrites 32 (b.byte regEnRxAddr) (List.range 4))) 0
  rw [if_neg (by decide), sized₂.byte_writes fitting₃ (by decide) rfl,
    sized₁.byte_writes fitting₂ (by decide) rfl, sized.byte_writes fitting₁ (by decide) rfl] at speed
  exact Writes.bind (l := []) rfl (Writes.bind (config_writes 112 32)
    (Writes.bind address (Writes.bind slaves (Writes.bind speed rfl))))

/-- A register after the bring-up. -/
theorem initWrites_apply (sized : b.Sized) {reg : UInt8} (plain : reg ≠ regStatus) :
    b.writes (initWrites b) reg = (Bank.lastWrite (initWrites b) reg).getD (b reg) :=
  sized.writes_apply (initWrites_fitting b) plain

theorem initWrites_listens (sized : b.Sized) : (b.writes (initWrites b)).Listens := by
  have holds {reg : UInt8} {bytes : List UInt8} (plain : reg ≠ regStatus)
      (last : Bank.lastWrite (initWrites b) reg = some bytes) :
      b.writes (initWrites b) reg = bytes := by
    rw [initWrites_apply sized plain, last]
    rfl
  have byte {reg v : UInt8} (plain : reg ≠ regStatus)
      (last : Bank.lastWrite (initWrites b) reg = some [v]) :
      (b.writes (initWrites b)).byte reg = v := by
    rw [Bank.byte, holds plain last]
    rfl
  constructor
  · exact byte (by decide) rfl
  · rw [byte (by decide) rfl]
    exact rateByte_slow _
  · simp only [List.forall_mem_cons]
    exact ⟨byte (by decide) rfl, byte (by decide) rfl, byte (by decide) rfl, byte (by decide) rfl,
      byte (by decide) rfl, byte (by decide) rfl, fun _ member => absurd member List.not_mem_nil⟩
  · have own {pipe v : UInt8} (later : ¬pipe < 2) (plain : regRxAddrP0 + pipe ≠ regStatus)
        (last : Bank.lastWrite (initWrites b) (regRxAddrP0 + pipe) = some [v]) :
        (b.writes (initWrites b)).address pipe = v :: (slaveAddress 1).drop 1 := by
      rw [Bank.address, if_neg later, holds plain last, holds (by decide) rfl]
      rfl
    simp only [List.forall_mem_cons]
    refine ⟨holds (by decide) rfl, own (by decide) (by decide) rfl, own (by decide) (by decide) rfl,
      own (by decide) (by decide) rfl, own (by decide) (by decide) rfl, fun _ member => ?_⟩
    exact absurd member List.not_mem_nil
  · rw [byte (by decide) rfl]
    exact pipes_enabled _

theorem setPower_writes (val : UInt8) : Writes (nrf24SetOutputRfPwr val) d b () d
    (if 3 < val then [] else [(regRfSetup, [powerByte val (b.byte regRfSetup)])]) := by
  unfold nrf24SetOutputRfPwr
  split
  · rfl
  · exact Writes.bind (readByte_writes _) rfl

theorem setDelay_writes (val : UInt8) : Writes (nrf24SetRetransmitDelay val) d b () d
    [(regSetupRetr, [delayByte val (b.byte regSetupRetr)])] := Writes.bind (readByte_writes _) rfl

/-- What the three getters answer. -/
structure Settings where
  rate : UInt8
  level : UInt8
  delay : UInt8
  deriving DecidableEq, Repr

def settingsOf (b : Bank) : Settings :=
  ⟨rateOf (b.byte regRfSetup), levelOf (b.byte regRfSetup), b.byte regSetupRetr >>> 4⟩

def getSettings : DriverTask Settings := do
  let rate ← nrf24GetDataRate
  let level ← nrf24GetPaLevel
  let delay ← nrf24GetRetransmitDelay
  return ⟨rate, level, delay⟩

theorem getSettings_writes : Writes getSettings d b (settingsOf b) d [] := by
  have rate : Writes nrf24GetDataRate d b (rateOf (b.byte regRfSetup)) d [] := by
    refine Writes.bind (l := []) (readByte_writes _) ?_
    rw [rateOf]
    split
    · rfl
    · split <;> rfl
  have level : Writes nrf24GetPaLevel d b (levelOf (b.byte regRfSetup)) d [] :=
    Writes.bind (l := []) (readByte_writes _) rfl
  have delay : Writes nrf24GetRetransmitDelay d b (b.byte regSetupRetr >>> 4) d [] :=
    Writes.bind (l := []) (readByte_writes _) rfl
  exact Writes.bind (l := []) rate (Writes.bind (l := []) level (Writes.bind (l := []) delay rfl))

inductive Setter where
  | power (val : UInt8)
  | rate (val : UInt8)
  | delay (val : UInt8)

def Setter.task : Setter → DriverTask Unit
  | .power val => nrf24SetOutputRfPwr val
  | .rate val => nrf24SetSpeedDataRates val
  | .delay val => nrf24SetRetransmitDelay val

/-- What a setter is for: a value out of range is ignored, of a delay four bits count. -/
def Settings.set (s : Settings) : Setter → Settings
  | .power val => if 3 < val then s else { s with level := val }
  | .rate val => if 2 < val then s else { s with rate := val }
  | .delay val => { s with delay := val &&& 0x0F }

def setAll : List Setter → DriverTask Unit
  | [] => .ret ()
  | c :: cs => do
      c.task
      setAll cs

/-- Everything else that the chip holds. -/
structure Apart (b b' : Bank) : Prop where
  setup : b'.byte regRfSetup &&& 0xD1 = b.byte regRfSetup &&& 0xD1
  retries : b'.byte regSetupRetr &&& 0x0F = b.byte regSetupRetr &&& 0x0F
  others : ∀ reg, reg ≠ regRfSetup → reg ≠ regSetupRetr → b' reg = b reg

theorem Apart.refl (b : Bank) : Apart b b := ⟨rfl, rfl, fun _ _ _ => rfl⟩

theorem Apart.trans {b' b'' : Bank} (h : Apart b b') (h' : Apart b' b'') : Apart b b'' :=
  ⟨h'.setup.trans h.setup, h'.retries.trans h.retries,
    fun reg setup retr => (h'.others reg setup retr).trans (h.others reg setup retr)⟩

/-- One byte written to a register. -/
theorem writes_one (sized : b.Sized) (reg v : UInt8) (plain : reg ≠ regStatus)
    (narrow : Bank.width reg = 1) : (b.writes [(reg, [v])]).Sized ∧
      (b.writes [(reg, [v])]).byte reg = v ∧ ∀ r, r ≠ reg → b.writes [(reg, [v])] r = b r := by
  have whole : b.writes [(reg, [v])] = Function.update b reg [v] :=
    sized.write plain narrow.symm
  refine ⟨sized.writes ?_, ?_, fun r other => ?_⟩
  · exact List.forall_mem_singleton.mpr narrow.symm
  · rw [whole, Bank.byte, Function.update_self]
    rfl
  · exact b.write_other [v] other

theorem power_listed (val : UInt8) : ¬3 < val → val ∈ [(0 : UInt8), 1, 2, 3] := by
  revert val
  apply forall_byte
  decide +kernel

theorem rate_listed (val : UInt8) : ¬2 < val → val ∈ [(0 : UInt8), 1, 2] := by
  revert val
  apply forall_byte
  decide +kernel

/-- RF_SETUP with other rate and power bits. -/
theorem setup_step (sized : b.Sized) {v : UInt8} (rest : v &&& 0xD1 = b.byte regRfSetup &&& 0xD1) :
    (b.writes [(regRfSetup, [v])]).Sized ∧ Apart b (b.writes [(regRfSetup, [v])]) ∧
      settingsOf (b.writes [(regRfSetup, [v])]) =
        ⟨rateOf v, levelOf v, b.byte regSetupRetr >>> 4⟩ := by
  obtain ⟨sized', byte, others⟩ := writes_one sized regRfSetup v (by decide) rfl
  have retries : (b.writes [(regRfSetup, [v])]).byte regSetupRetr = b.byte regSetupRetr :=
    congrArg (List.headD · 0) (others _ (by decide))
  refine ⟨sized', ⟨by rw [byte, rest], by rw [retries], fun r setup _ => others r setup⟩, ?_⟩
  rw [settingsOf, byte, retries]

/-- A setter puts its value in, and leaves the rest of the chip alone. -/
theorem setter_step (sized : b.Sized) (c : Setter) : ∃ b', b'.Sized ∧ Apart b b' ∧
    Prog.drive Bank.perform c.task d b = .done ((), d, b') ∧
    settingsOf b' = (settingsOf b).set c := by
  cases c with
  | power val =>
      have written := setPower_writes (d := d) (b := b) val
      by_cases out : 3 < val
      · rw [if_pos out] at written
        exact ⟨b, sized, .refl b, written, (if_pos out).symm⟩
      · rw [if_neg out] at written
        obtain ⟨level, rate, rest⟩ := powerByte_bits (b.byte regRfSetup) val (power_listed val out)
        obtain ⟨sized', apart, settings⟩ := setup_step sized rest
        refine ⟨_, sized', apart, written, ?_⟩
        rw [settings, level, rate, Settings.set, if_neg out]
        rfl
  | rate val =>
      have written := setSpeed_writes (d := d) (b := b) val
      by_cases out : 2 < val
      · rw [if_pos out] at written
        exact ⟨b, sized, .refl b, written, (if_pos out).symm⟩
      · rw [if_neg out] at written
        obtain ⟨rate, level, rest⟩ := rateByte_bits (b.byte regRfSetup) val (rate_listed val out)
        obtain ⟨sized', apart, settings⟩ := setup_step sized rest
        refine ⟨_, sized', apart, written, ?_⟩
        rw [settings, level, rate, Settings.set, if_neg out]
        rfl
  | delay val =>
      have written := setDelay_writes (d := d) (b := b) val
      obtain ⟨sized', byte, others⟩ := writes_one sized regSetupRetr
        (delayByte val (b.byte regSetupRetr)) (by decide) rfl
      have setup : (b.writes [(regSetupRetr, [delayByte val (b.byte regSetupRetr)])]).byte
          regRfSetup = b.byte regRfSetup := congrArg (List.headD · 0) (others _ (by decide))
      refine ⟨_, sized', ⟨by rw [setup], by rw [byte, delayByte_low], fun r _ retr =>
        others r retr⟩, written, ?_⟩
      rw [settingsOf, byte, setup, delayByte_high]
      rfl

/-- Whatever the registers hold and in whatever order they are called, the setters do not
disturb each other: the getters answer as if each setting was a variable of its own, and
all other bits and registers stay as they are. -/
theorem settings_follow (d : Nrf24) (sized : b.Sized) (cs : List Setter) : ∃ b', Apart b b' ∧
    Prog.drive Bank.perform (setAll cs) d b = .done ((), d, b') ∧
    Prog.drive Bank.perform getSettings d b' =
      .done (cs.foldl Settings.set (settingsOf b), d, b') := by
  induction cs generalizing b with
  | nil => exact ⟨b, .refl b, rfl, getSettings_writes⟩
  | cons c cs ih =>
      obtain ⟨b₁, sized₁, apart₁, ran₁, settings⟩ := setter_step (d := d) sized c
      obtain ⟨b₂, apart₂, ran₂, read⟩ := ih sized₁
      refine ⟨b₂, apart₁.trans apart₂, ?_, ?_⟩
      · rw [setAll, Prog.drive_bind, ran₁]
        exact ran₂
      · rw [read, settings]
        rfl

/-- Registers that are all zero. -/
def blank : Bank := fun reg => List.replicate (Bank.width reg) 0

theorem blank_sized : blank.Sized := fun _ => List.length_replicate

/-- A rate out of range is ignored, a delay loses its high bits. -/
theorem settings_follow_blank : ∃ b', Apart blank b' ∧
    Prog.drive Bank.perform (setAll [.rate 2, .power 3, .rate 7, .delay 0x2F]) ⟨false, 112, 32⟩
      blank = .done ((), ⟨false, 112, 32⟩, b') ∧
    Prog.drive Bank.perform getSettings ⟨false, 112, 32⟩ b' =
      .done (⟨2, 3, 15⟩, ⟨false, 112, 32⟩, b') :=
  settings_follow _ blank_sized [.rate 2, .power 3, .rate 7, .delay 0x2F]

end BringUp
end Battleship
