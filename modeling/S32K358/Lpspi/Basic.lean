import S32K358.Fifo8
import S32K358.Lib.Bits
import S32K358.Lib.Frame

/-!
# The LPSPI: registers and state

The registers and fields of `nxps32k358_lpspi.h`, and the state of the device,
`NXPS32K358LPSPIState`. What the device does to the outside world during an
access is a list of *calls* (`Call`): the levels it drives on its interrupt
and chip-select lines, the frames it exchanges, the clock configurations it
logs. The state keeps the levels last driven on the lines, and the calls made
so far during the current access.

The SPI bus (`hw/ssi/ssi.c`) and the peripherals on it are a parameter: any
machine that answers a word with a word (`SsiBus`), and sees the chip-select
lines.
-/

namespace S32K358.Lpspi

/-! ## Bit masks -/

def crMen : BitVec 32 := 1#32 <<< 0
def crRst : BitVec 32 := 1#32 <<< 1
def crRtf : BitVec 32 := 1#32 <<< 8
def crRrf : BitVec 32 := 1#32 <<< 9

def srTdf : BitVec 32 := 1#32 <<< 0
def srRdf : BitVec 32 := 1#32 <<< 1
def srTcf : BitVec 32 := 1#32 <<< 10
def srTef : BitVec 32 := 1#32 <<< 11
def srRef : BitVec 32 := 1#32 <<< 12
def srMbf : BitVec 32 := 1#32 <<< 24

def rsrRxempty : BitVec 32 := 1#32 <<< 1

def tcrFrameszShift : ℕ := 0
def tcrFrameszMask : BitVec 32 := 0xFFF#32 <<< tcrFrameszShift
def tcrPcsShift : ℕ := 24
def tcrPcsMask : BitVec 32 := 0x3#32 <<< tcrPcsShift
def tcrRxmsk : BitVec 32 := 1#32 <<< 22
def tcrLsbf : BitVec 32 := 1#32 <<< 28
def tcrCont : BitVec 32 := 1#32 <<< 30
def tcrContc : BitVec 32 := 1#32 <<< 31

-- The clock fields, defined in a separate block of the header.
def tcrCpol : BitVec 32 := 1#32 <<< 31
def tcrCpha : BitVec 32 := 1#32 <<< 30
def tcrPrescaleMask : BitVec 32 := 0x7#32 <<< 27
def tcrPrescaleShift : ℕ := 27

def fsrTxcountShift : ℕ := 0
def fsrRxcountShift : ℕ := 16

def fcrTxwaterShift : ℕ := 0
def fcrTxwaterMask : BitVec 32 := 0x3#32 <<< fcrTxwaterShift
def fcrRxwaterShift : ℕ := 16
def fcrRxwaterMask : BitVec 32 := 0x3#32 <<< fcrRxwaterShift

def cfgr1PincfgShift : ℕ := 8
def cfgr1PcspolShift : ℕ := 24

def ccr1ScksetMask : BitVec 32 := 0xFF#32 <<< 0
def ccr1ScksetShift : ℕ := 0
def ccr1SckhldMask : BitVec 32 := 0xFF#32 <<< 8
def ccr1SckhldShift : ℕ := 8

/-- `LPSPI_FIFO_BYTE_CAPACITY`: four words of four bytes. -/
abbrev fifoByteCapacity : ℕ := 4 * 4

/-! ## Register offsets -/

/-- The registers. -/
inductive Reg
  | verid | param | cr | sr | ier | der | cfgr0 | cfgr1
  | ccr | ccr1 | fcr | fsr | tcr | tdr | rsr | rdr
  deriving DecidableEq, Repr

/-- The register at an offset of the memory region, if any. -/
def Reg.ofOffset? : ℕ → Option Reg
  | 0x00 => some .verid
  | 0x04 => some .param
  | 0x10 => some .cr
  | 0x14 => some .sr
  | 0x18 => some .ier
  | 0x1C => some .der
  | 0x20 => some .cfgr0
  | 0x24 => some .cfgr1
  | 0x40 => some .ccr
  | 0x44 => some .ccr1
  | 0x58 => some .fcr
  | 0x5C => some .fsr
  | 0x60 => some .tcr
  | 0x64 => some .tdr
  | 0x70 => some .rsr
  | 0x74 => some .rdr
  | _ => none

/-! ## Fields of the command register -/

section Tcr

variable (tcr : BitVec 32)

/-- The field `FRAMESZ`. -/
def framesz : ℕ := ((tcr &&& tcrFrameszMask) >>> tcrFrameszShift).toNat

/-- The frame size in bits, a `uint16_t`. -/
def frameSize : ℕ := (framesz tcr + 1) % 2 ^ 16

/-- The bytes of a frame, as computed, the same way, by `lpspi_update_status`,
    `lpspi_flush_txfifo`, the read of `RDR` and the write of `TDR`: the number
    of bytes is stored in a `uint8_t` *before* it is limited to a word. -/
def bytesPerFrame : ℕ :=
  let b := (frameSize tcr + 7) / 8 % 2 ^ 8
  if b > 4 then 4 else b

/-- The chip select. -/
def pcs : ℕ := ((tcr &&& tcrPcsMask) >>> tcrPcsShift).toNat

def cont : Bool := Bits.any tcr tcrCont

def contc : Bool := Bits.any tcr tcrContc

def rxmsk : Bool := Bits.any tcr tcrRxmsk

def lsbf : Bool := Bits.any tcr tcrLsbf

/-- The transfer does not go on after the FIFO has drained: `!cont && !contc`. -/
def single : Bool := !cont tcr && !contc tcr

theorem framesz_lt : framesz tcr < 4096 :=
  (Bits.toNat_field_le tcr tcrFrameszMask tcrFrameszShift).trans_lt (by decide)

theorem pcs_lt : pcs tcr < 4 :=
  (Bits.toNat_field_le tcr tcrPcsMask tcrPcsShift).trans_lt (by decide)

theorem frameSize_eq : frameSize tcr = framesz tcr + 1 :=
  Nat.mod_eq_of_lt (by have := framesz_lt tcr; omega)

theorem bytesPerFrame_le : bytesPerFrame tcr ≤ 4 := by
  simp only [bytesPerFrame]
  split <;> omega

/-- A frame fits in an empty FIFO. -/
theorem bytesPerFrame_le_capacity : bytesPerFrame tcr ≤ fifoByteCapacity :=
  (bytesPerFrame_le tcr).trans (by decide)

end Tcr

/-- The field `FCR.TXWATER`. -/
def txwater (fcr : BitVec 32) : ℕ := ((fcr &&& fcrTxwaterMask) >>> fcrTxwaterShift).toNat

/-- The field `FCR.RXWATER`. -/
def rxwater (fcr : BitVec 32) : ℕ := ((fcr &&& fcrRxwaterMask) >>> fcrRxwaterShift).toNat

/-- The active level of the chip-select line `i` is high: `CFGR1.PCSPOL`. -/
def csActiveHigh (cfgr1 : BitVec 32) (i : ℕ) : Bool :=
  Bits.any cfgr1 (1#32 <<< (cfgr1PcspolShift + i))

/-- The field `CFGR1.PINCFG`. -/
def pincfg (cfgr1 : BitVec 32) : ℕ := ((cfgr1 >>> cfgr1PincfgShift) &&& 0x3#32).toNat

/-- Internal loopback: `PINCFG = 1`. -/
def loopback (cfgr1 : BitVec 32) : Bool := pincfg cfgr1 == 1

/-! ## The outside world -/

/-- The SPI bus: what it answers to a word, and how it sees the chip selects. -/
structure SsiBus (β : Type) where
  /-- `ssi_transfer`. -/
  transfer : β → BitVec 32 → BitVec 32 × β
  /-- A chip-select line is driven to a level. -/
  setCs : β → ℕ → Bool → β

/-- A bus without peripherals: the answers of none are combined to 0. -/
def SsiBus.empty : SsiBus Unit where
  transfer c _ := (0#32, c)
  setCs c _ _ := c

/-- A frame exchanged, as at the moment of the exchange: the words sent and
    received, and the command, the polarities and the chip-select lines then. -/
structure Exchange (n : ℕ) where
  txData : BitVec 32
  rxData : BitVec 32
  /-- The frame was looped back and did not go through the bus. -/
  loopback : Bool
  tcr : BitVec 32
  cfgr1 : BitVec 32
  csLines : Vector Bool n

/-- What the device does to the outside world. -/
inductive Call (n : ℕ)
  /-- `qemu_set_irq(s->irq, level)`. -/
  | setIrq (level : Bool)
  /-- `qemu_set_irq(s->cs_lines[line], level)`. -/
  | setCs (line : ℕ) (level : Bool)
  /-- `ssi_transfer`, or the internal loopback. -/
  | exchange (x : Exchange n)
  /-- The log of `lpspi_update_clock_config`. -/
  | clockConfig (cpol cpha : Bool) (prescaleVal sckFreq : ℕ)

/-! ## The state -/

/-- The state of an LPSPI with `n` chip-select lines, on a bus in a state of `β`. -/
structure State (n : ℕ) (β : Type) where
  /-- The frequency of the input clock, in Hz. -/
  clk : ℕ
  ssi : β
  /-- The level last driven on the interrupt line. -/
  irq : Bool
  /-- The levels last driven on the chip-select lines. -/
  csLines : Vector Bool n
  txFifo : Fifo8 fifoByteCapacity
  rxFifo : Fifo8 fifoByteCapacity
  verid : BitVec 32
  param : BitVec 32
  cr : BitVec 32
  sr : BitVec 32
  ier : BitVec 32
  der : BitVec 32
  cfgr0 : BitVec 32
  cfgr1 : BitVec 32
  ccr : BitVec 32
  ccr1 : BitVec 32
  fcr : BitVec 32
  fsr : BitVec 32
  tcr : BitVec 32
  tdr : BitVec 32
  rsr : BitVec 32
  rdr : BitVec 32
  busy : Bool
  txWatermark : ℕ
  rxWatermark : ℕ
  frameSize : ℕ
  continuousMode : Bool
  /-- The calls made during the current access. -/
  calls : List (Call n)

variable {n : ℕ} {β : Type}

/-- `qemu_set_irq(s->irq, level)`. -/
def setIrq (s : State n β) (level : Bool) : State n β :=
  { s with irq := level, calls := s.calls ++ [.setIrq level] }

/-- `qemu_set_irq(s->cs_lines[i], level)`. -/
def setCs (bus : SsiBus β) (s : State n β) (i : ℕ) (level : Bool) : Except Fault (State n β) :=
  if i < n then
    .ok { s with
      csLines := s.csLines.setIfInBounds i level
      ssi := bus.setCs s.ssi i level
      calls := s.calls ++ [.setCs i level] }
  else .error .csOutOfBounds

/-- An unsigned division. -/
def udiv (a b : ℕ) : Except Fault ℕ := if b = 0 then .error .divByZero else .ok (a / b)

theorem udiv_of_ne_zero {a b : ℕ} (h : b ≠ 0) : udiv a b = .ok (a / b) := if_neg h

end S32K358.Lpspi
