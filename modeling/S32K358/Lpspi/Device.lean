import S32K358.Lib.Mealy
import S32K358.Lpspi.Transfer

/-!
# The LPSPI: the device

Realizing and resetting the device, and the accesses of the guest to its
registers. A guest access is a read or a write of 32 bits at some offset of the
memory region (the memory core splits or extends any other access); its reply
is the value read, if any, and the calls made. From power on, the device is
thus a machine (`access`) that stops if an access hits a fault.

What an access does, when it does not stop, is one of the cases of `Effect`
(`effect_of_access`), all made of the total functions on states of
`S32K358.Lpspi.Transfer`. Properties of runs are proved by cases on it.
-/

namespace S32K358.Lpspi

variable {n : ℕ} {β : Type}

/-! ## Reset -/

/-- The loop deasserting the lines `i, …, i + k - 1` at reset: the default is
    active low, so they are set to high. -/
def raiseCsLines (bus : SsiBus β) : (k i : ℕ) → State n β → Except Fault (State n β)
  | 0, _, s => .ok s
  | k + 1, i, s => do
    let s ← setCs bus s i true
    raiseCsLines bus k (i + 1) s

/-- The registers, flags and FIFOs after a reset. -/
def resetRegs (s : State n β) : State n β :=
  { s with
    verid := 0x04040007#32
    param := 0x00040404#32
    cr := 0#32
    sr := srTdf ||| srTcf
    ier := 0#32
    der := 0#32
    cfgr0 := 0#32
    cfgr1 := 0#32
    ccr := 0#32
    ccr1 := 0#32
    fcr := 0#32
    fsr := 0#32
    tcr := 0x0000001F#32
    tdr := 0#32
    rsr := rsrRxempty
    rdr := 0#32
    busy := false
    txWatermark := 0
    rxWatermark := 0
    frameSize := 32
    continuousMode := false
    txFifo := fifo8Reset s.txFifo
    rxFifo := fifo8Reset s.rxFifo }

/-- `nxps32k358_lpspi_do_reset`. -/
def doReset (bus : SsiBus β) (s : State n β) : Except Fault (State n β) := do
  let s ← raiseCsLines bus n 0 (resetRegs s)
  updateIrq (updateClockConfig s)

/-- The object of a device at the end of `nxps32k358_lpspi_realize`: an object is
    initially zero. -/
def realized (hz n : ℕ) (ssi : β) : State n β where
  clk := hz
  ssi := ssi
  irq := false
  csLines := Vector.replicate n false
  txFifo := fifo8Create fifoByteCapacity (by decide)
  rxFifo := fifo8Create fifoByteCapacity (by decide)
  verid := 0#32
  param := 0#32
  cr := 0#32
  sr := 0#32
  ier := 0#32
  der := 0#32
  cfgr0 := 0#32
  cfgr1 := 0#32
  ccr := 0#32
  ccr1 := 0#32
  fcr := 0#32
  fsr := 0#32
  tcr := 0#32
  tdr := 0#32
  rsr := 0#32
  rdr := 0#32
  busy := false
  txWatermark := 0
  rxWatermark := 0
  frameSize := 0
  continuousMode := false
  calls := []

/-- `nxps32k358_lpspi_realize`, of a device with `n` chip-select lines whose clock
    input is `clk`. -/
def realize (clk : Option ℕ) (n : ℕ) (ssi : β) : Except String (State n β) :=
  match clk with
  | none => .error "LPSPI: clock not connected"
  | some hz =>
    if hz = 0 then .error "LPSPI: Invalid clock frequency (0 Hz)"
    else if n < 1 ∨ n > 4 then
      .error s!"LPSPI: Invalid number of CS lines ({n}), must be 1-4"
    else .ok (realized hz n ssi)

/-- The states right after power on: the device is realized, then reset. -/
def PowerOn (bus : SsiBus β) (s₀ : State n β) : Prop :=
  ∃ clk ssi dev s, realize clk n ssi = .ok dev ∧ doReset bus dev = .ok s ∧
    s₀ = { s with calls := [] }

/-! ## Reads -/

/-- The value of a register read without side effects. The write-only `TDR` is
    not among the cases of the source, and reads as a bad offset. -/
def peek (s : State n β) : Option Reg → BitVec 32
  | some .verid => s.verid
  | some .param => s.param
  | some .cr => s.cr
  | some .sr => s.sr
  | some .ier => s.ier
  | some .der => s.der
  | some .cfgr0 => s.cfgr0
  | some .cfgr1 => s.cfgr1
  | some .ccr => s.ccr
  | some .ccr1 => s.ccr1
  | some .fcr => s.fcr
  | some .fsr => s.fsr
  | some .tcr => s.tcr
  | some .rsr => s.rsr
  | some .tdr | some .rdr | none => 0#32

/-- `nxps32k358_lpspi_read`. -/
def read (s : State n β) (addr : ℕ) : Except Fault (BitVec 32 × State n β) := do
  let s ← updateStatus s
  if Reg.ofOffset? addr = some .rdr then
    if fifo8NumUsed s.rxFifo < 1 then pure (0#32, s)
    else do
      -- If there is less than a frame, what there is of it is read.
      let b := bytesPerFrame s.tcr
      let (rxFifo, ret) ← popBytes (lsbf s.tcr) b b 0 s.rxFifo 0#32
      let s ← updateStatus { s with rxFifo, rdr := ret }
      pure (ret, s)
  else pure (peek s (Reg.ofOffset? addr), s)

/-! ## Writes -/

/-- A write of `CR` without `RST`. -/
def writeCr (s : State n β) (value : BitVec 32) : State n β :=
  { s with
    txFifo := if Bits.any value crRtf then fifo8Reset s.txFifo else s.txFifo
    sr := if Bits.any value crRtf then s.sr ||| srTdf else s.sr
    rxFifo := if Bits.any value crRrf then fifo8Reset s.rxFifo else s.rxFifo
    rsr := if Bits.any value crRrf then s.rsr ||| rsrRxempty else s.rsr
    cr := value &&& ~~~(crRst ||| crRtf ||| crRrf) }

/-- The command register is written. -/
@[simps tcr cr cfgr1 fcr sr txFifo rxFifo txWatermark rxWatermark busy csLines calls]
def command (s : State n β) (value : BitVec 32) : State n β :=
  { s with
    tcr := value
    frameSize := frameSize value
    continuousMode := Bits.any value (tcrCont ||| tcrContc) }

/-- A write of `TCR`: queued data is sent, under the new command. -/
def writeTcr (bus : SsiBus β) (s : State n β) (value : BitVec 32) : Except Fault (State n β) := do
  let s := command s value
  let s ←
    if Bits.any s.cr crMen && !fifo8IsEmpty s.txFifo then flushTxfifo bus s else pure s
  updateIrq (updateClockConfig s)

/-- The loop queueing the bytes `i, …, i + k - 1` of the frame of a value. -/
def pushBytes {c : ℕ} (lsbf : Bool) (b : ℕ) (val64 : BitVec 64) :
    (k i : ℕ) → Fifo8 c → Except Fault (Fifo8 c)
  | 0, _, f => .ok f
  | k + 1, i, f => do
    let f ← fifo8Push f (Frame.byteAt val64 (Frame.place lsbf b i))
    pushBytes lsbf b val64 k (i + 1) f

/-- A write of `TDR`. -/
def writeTdr (bus : SsiBus β) (s : State n β) (val64 : BitVec 64) : Except Fault (State n β) :=
  if Bits.any s.cr crMen then
    let b := bytesPerFrame s.tcr
    -- Without room for a frame, the value is dropped.
    if fifo8NumFree s.txFifo < b then updateIrq { s with sr := s.sr ||| srTef }
    else do
      let txFifo ← pushBytes (lsbf s.tcr) b val64 b 0 s.txFifo
      let s ← flushTxfifo bus { s with txFifo }
      updateIrq s
  else updateIrq s

/-- A write of `FCR`. -/
def writeFcr (s : State n β) (value : BitVec 32) : State n β :=
  { s with
    fcr := value
    txWatermark := txwater value
    rxWatermark := rxwater value }

/-- `nxps32k358_lpspi_write`. -/
def write (bus : SsiBus β) (s : State n β) (addr : ℕ) (val64 : BitVec 64) :
    Except Fault (State n β) :=
  let value := val64.setWidth 32
  match Reg.ofOffset? addr with
  -- The read-only registers return early, without an update of the interrupt line.
  | some .verid | some .param | some .fsr | some .rsr | some .rdr => .ok s
  | some .cr => if Bits.any value crRst then doReset bus s else updateIrq (writeCr s value)
  | some .sr => updateIrq { s with sr := s.sr &&& ~~~value }
  | some .tcr => writeTcr bus s value
  | some .tdr => writeTdr bus s val64
  | some .ier => updateIrq { s with ier := value }
  | some .der => updateIrq { s with der := value }
  | some .cfgr0 => updateIrq { s with cfgr0 := value }
  | some .cfgr1 => updateIrq (updateClockConfig { s with cfgr1 := value })
  | some .ccr => updateIrq (updateClockConfig { s with ccr := value })
  | some .ccr1 => updateIrq (updateClockConfig { s with ccr1 := value })
  | some .fcr => do
    let s ← updateStatus (writeFcr s value)
    updateIrq s
  | none => .ok s

/-! ## The machine -/

/-- A guest access. -/
inductive Access
  | read (addr : ℕ)
  | write (addr : ℕ) (value : BitVec 32)
  deriving DecidableEq, Repr

/-- If the access writes the register `r`, then a value satisfying `p`. -/
def Access.onWrite (r : Reg) (p : BitVec 32 → Prop) : Access → Prop
  | .read _ => True
  | .write addr value => Reg.ofOffset? addr = some r → p value

instance (r : Reg) (p : BitVec 32 → Prop) [DecidablePred p] :
    (a : Access) → Decidable (a.onWrite r p)
  | .read _ => inferInstanceAs (Decidable True)
  | .write addr value => inferInstanceAs (Decidable (Reg.ofOffset? addr = some r → p value))

theorem Access.onWrite.imp {r : Reg} {p q : BitVec 32 → Prop} {a : Access} (ha : a.onWrite r p)
    (h : ∀ v, p v → q v) : a.onWrite r q := by
  cases a with
  | read addr => exact trivial
  | write addr v => exact fun hr => h v (ha hr)

/-- What an access gives: the value read, if any, and the calls made. -/
structure Reply (n : ℕ) where
  value : Option (BitVec 32)
  calls : List (Call n)

/-- The device, as a machine taking the accesses of the guest. -/
def access (bus : SsiBus β) (s : State n β) : Access → Except Fault (Reply n × State n β)
  | .read addr => do
    let (v, t) ← read s addr
    pure (⟨some v, t.calls⟩, { t with calls := [] })
  | .write addr value => do
    let t ← write bus s addr (value.setWidth 64)
    pure (⟨none, t.calls⟩, { t with calls := [] })

end S32K358.Lpspi
