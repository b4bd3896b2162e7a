import S32K358.Lib.Bits
import S32K358.Lib.Mealy

/-!
# The LPUART

The LPUART of `nxps32k358_lpuart.c`, a serial port with a data register of one
byte, on a character backend. The guest reads and writes registers; the backend
hands over bytes it has received, one at a time, as long as `canReceive` says
that the data register is free. It may do so at any moment (`Event.poll`), and
it is also invited to, by `qemu_chr_fe_accept_input`, *during* a read of the
data register: an `Event.read` comes with the bytes the backend then has.

What the device does to the outside world is, as for the LPSPI, a list of calls.
-/

namespace S32K358.Lpuart

/-! ## Registers -/

def statTdre : BitVec 32 := 1#32 <<< 23
def statRdrf : BitVec 32 := 1#32 <<< 21

def ctrlRe : BitVec 32 := 1#32 <<< 18
def ctrlRie : BitVec 32 := 1#32 <<< 21
def ctrlTcie : BitVec 32 := 1#32 <<< 22
def ctrlTie : BitVec 32 := 1#32 <<< 23

def baudOsrShift : ℕ := 24
def baudOsrMask : BitVec 32 := ((1#32 <<< 5) - 1#32) <<< baudOsrShift
def baudSbrShift : ℕ := 0
def baudSbrMask : BitVec 32 := ((1#32 <<< 13) - 1#32) <<< baudSbrShift

def globalRstMask : BitVec 32 := 1#32 <<< 1

def baudReset : BitVec 32 := 0x0F000004#32
def statReset : BitVec 32 := 0x00C00000#32
def controlReset : BitVec 32 := 0#32
def dataReset : BitVec 32 := 0x00001000#32
def globalReset : BitVec 32 := 0x00000002#32

/-- The registers that the device implements. -/
inductive Reg
  | global | baud | stat | ctrl | data
  deriving DecidableEq, Repr

/-- The register at an offset of the memory region, if any. -/
def Reg.ofOffset? : ℕ → Option Reg
  | 0x08 => some .global
  | 0x10 => some .baud
  | 0x14 => some .stat
  | 0x18 => some .ctrl
  | 0x1C => some .data
  | _ => none

/-! ## The state -/

/-- What the device does to the outside world. -/
inductive Call
  /-- `qemu_set_irq(s->irq, level)`. -/
  | setIrq (level : Bool)
  /-- `qemu_chr_fe_ioctl(&s->chr, CHR_IOCTL_SERIAL_SET_PARAMS, &ssp)`. -/
  | setParams (speed : ℤ)
  /-- `qemu_chr_fe_write_all(&s->chr, &ch, 1)`. -/
  | writeAll (ch : BitVec 8)
  deriving DecidableEq, Repr

/-- The state of the LPUART. -/
structure State where
  /-- The frequency of the module clock, in Hz. -/
  clk : ℕ
  /-- The level last driven on the interrupt line. -/
  irq : Bool
  baudRateConfig : BitVec 32
  cr : BitVec 32
  sr : BitVec 32
  dr : BitVec 32
  gb : BitVec 32
  /-- The calls made during the current event. -/
  calls : List Call
  deriving DecidableEq, Repr

/-! ## The functions -/

/-- `nxps32k358_lpuart_calculate_baud_rate`. -/
def calculateBaudRate (s : State) : ℕ :=
  let sbr := ((s.baudRateConfig &&& baudSbrMask) >>> baudSbrShift).toNat
  let osrValInReg := ((s.baudRateConfig &&& baudOsrMask) >>> baudOsrShift).toNat
  let divisor := (osrValInReg + 1) * sbr
  if divisor = 0 then 0 else s.clk / divisor % 2 ^ 32

/-- `nxps32k358_lpuart_update_params`. The speed is an `int` in the parameters. -/
def updateParams (s : State) : State :=
  { s with calls := s.calls ++ [.setParams (BitVec.ofNat 32 (calculateBaudRate s)).toInt] }

/-- `nxps32k358_lpuart_update_irq`. -/
def updateIrq (s : State) : State :=
  let level := Bits.any (s.sr &&& s.cr) (ctrlTie ||| ctrlTcie ||| ctrlRie)
  { s with irq := level, calls := s.calls ++ [.setIrq level] }

/-- `nxps32k358_lpuart_can_receive`. -/
def canReceive (s : State) : Bool := !Bits.any s.sr statRdrf

/-- `nxps32k358_lpuart_receive`: the first byte of the buffer is received, and any
    others dropped. -/
def receive (s : State) : List (BitVec 8) → State
  | [] => s
  | c :: _ =>
    if !Bits.any s.cr ctrlRe then s
    else updateIrq { s with dr := c.setWidth 32, sr := s.sr ||| statRdrf }

/-- `nxps32k358_lpuart_reset`. -/
def reset (s : State) : State :=
  updateIrq { s with
    cr := controlReset
    sr := statReset
    dr := dataReset
    gb := globalReset
    baudRateConfig := baudReset }

/-- The backend hands over the bytes it has, one by one, as long as the device can
    receive. The result has the bytes handed over. -/
def acceptInput (s : State) : List (BitVec 8) → List (BitVec 8) × State
  | [] => ([], s)
  | c :: l =>
    if canReceive s then
      let (d, t) := acceptInput (receive s [c]) l
      (c :: d, t)
    else ([], s)

/-- `nxps32k358_lpuart_read`, with the bytes the backend has: the value read, and
    the bytes handed over meanwhile. -/
def read (s : State) (offset : ℕ) (l : List (BitVec 8)) :
    BitVec 32 × List (BitVec 8) × State :=
  match Reg.ofOffset? offset with
  | some .global => (s.gb, [], s)
  | some .baud => (s.baudRateConfig, [], s)
  | some .stat => (s.sr, [], s)
  | some .ctrl => (s.cr, [], s)
  | some .data =>
    let (d, s) := acceptInput { s with sr := s.sr &&& ~~~statRdrf } l
    let s := updateIrq s
    -- The register is read only now, after the backend has been invited.
    (s.dr, d, s)
  | none => (0#32, [], s)

/-- `nxps32k358_lpuart_write`. -/
def write (s : State) (offset : ℕ) (value : BitVec 32) : State :=
  match Reg.ofOffset? offset with
  | some .global =>
    let s := { s with gb := value }
    -- The reset overwrites the value just written.
    if Bits.any value globalRstMask then reset s else s
  | some .baud => updateParams { s with baudRateConfig := value }
  | some .stat =>
    -- Small values are taken as they are, others clear bits; neither updates the line.
    if value ≤ 0x3FF#32 then { s with sr := value ||| statTdre }
    else { s with sr := s.sr &&& value }
  | some .ctrl => updateIrq { s with cr := value }
  | some .data =>
    if value < 0xF000#32 then
      updateIrq { s with
        sr := s.sr ||| statTdre
        calls := s.calls ++ [.writeAll (value.setWidth 8)] }
    else s
  | none => s

/-! ## The machine -/

/-- What happens to the device. -/
inductive Event
  /-- The guest reads a register, while the backend has the bytes `l`. -/
  | read (offset : ℕ) (l : List (BitVec 8))
  /-- The guest writes a register. -/
  | write (offset : ℕ) (value : BitVec 32)
  /-- The backend, having the bytes `l`, hands over what the device can receive. -/
  | poll (l : List (BitVec 8))
  /-- The machine is reset. -/
  | reset
  deriving DecidableEq, Repr

/-- What an event gives: the value read, if any, the bytes the backend handed over,
    and the calls made. -/
structure Reply where
  value : Option (BitVec 32)
  delivered : List (BitVec 8)
  calls : List Call
  deriving DecidableEq, Repr

/-- The device, as a machine, which never stops. -/
def step (s : State) (e : Event) : Except Empty (Reply × State) :=
  let (v, d, t) : Option (BitVec 32) × List (BitVec 8) × State :=
    match e with
    | .read offset l => let (v, d, t) := read s offset l; (some v, d, t)
    | .write offset value => (none, [], write s offset value)
    | .poll l => let (d, t) := acceptInput s l; (none, d, t)
    | .reset => (none, [], reset s)
  .ok (⟨v, d, t.calls⟩, { t with calls := [] })

/-- The device right after power on: an object is initially zero. -/
def atPowerOn (hz : ℕ) : State :=
  { reset { clk := hz, irq := false, baudRateConfig := 0#32, cr := 0#32, sr := 0#32, dr := 0#32,
            gb := 0#32, calls := [] } with calls := [] }

/-- The run of the device on some events. -/
abbrev run (s : State) (es : List Event) :
    Except Empty (List (Mealy.Transition State Event Reply) × State) := Mealy.run step s es

theorem exists_run (s : State) (es : List Event) : ∃ h t, run s es = .ok (h, t) :=
  Mealy.run_ok (I := fun _ => True) (D := fun _ => True)
    (fun _ _ _ _ => ⟨_, _, rfl, trivial⟩) trivial fun _ _ => trivial

/-! ## What is received -/

variable {s : State}

theorem cr_receive (l : List (BitVec 8)) : (receive s l).cr = s.cr := by
  cases l with
  | nil => rfl
  | cons c l =>
    rw [receive]
    split <;> rfl

/-- A byte is received if the receiver is on. -/
theorem receive_of_re {c : BitVec 8} {l : List (BitVec 8)} (hre : Bits.any s.cr ctrlRe = true) :
    receive s (c :: l) = updateIrq { s with dr := c.setWidth 32, sr := s.sr ||| statRdrf } := by
  rw [receive, hre]
  rfl

theorem canReceive_receive {c : BitVec 8} {l : List (BitVec 8)}
    (hre : Bits.any s.cr ctrlRe = true) : canReceive (receive s (c :: l)) = false := by
  have hrdrf : Bits.any statRdrf statRdrf = true := by decide
  rw [receive_of_re hre]
  change (!Bits.any (s.sr ||| statRdrf) statRdrf) = false
  rw [Bits.any_or_left, hrdrf, Bool.or_true, Bool.not_true]

theorem acceptInput_of_full {l : List (BitVec 8)} (h : canReceive s = false) :
    acceptInput s l = ([], s) := by
  cases l with
  | nil => rfl
  | cons c l => rw [acceptInput, h, if_neg Bool.false_ne_true]

/-- With the receiver on, a backend invited hands over one byte, if it has one and
    the device can receive. -/
theorem acceptInput_cons {c : BitVec 8} {l : List (BitVec 8)} (hre : Bits.any s.cr ctrlRe = true)
    (h : canReceive s = true) : acceptInput s (c :: l) = ([c], receive s [c]) := by
  rw [acceptInput, if_pos h, acceptInput_of_full (canReceive_receive hre)]

end S32K358.Lpuart
