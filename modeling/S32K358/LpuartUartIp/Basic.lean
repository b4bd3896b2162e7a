import S32K358.Lib.Bits
import S32K358.Lib.Port
import S32K358.OsIf

/-!
# The LPUART driver of the demo

The driver of `RTD/src/Lpuart_Uart_Ip.c` and `RTD/include/Lpuart_Uart_Ip_HwAccess.h`, as
the demo configures it: without DMA and loopback, with its assertions, and with the dummy
counter for timeouts. It sends and receives by polling, in loops that are left on a timeout,
or from its interrupt handler. It is a program on its state structure and the registers
of *any* hardware (`Port`); it meets the device model in `S32K358.LpuartUartIp.Bench`.

A pointer into a buffer of the caller is what is left of the buffer, for sending, and the
buffer with an index, for receiving. A callback may change the state structure, which is
how it provides new buffers. The positions of the bits are those of the vendor's header, in
the debug information of the objects of `DEBUG_QEMU`.
-/

namespace S32K358.LpuartUartIp

open OsIf

/-! ## The masks of the vendor's header -/

def statTdre : BitVec 32 := 1#32 <<< 23
def statTc : BitVec 32 := 1#32 <<< 22
def statRdrf : BitVec 32 := 1#32 <<< 21
def statOr : BitVec 32 := 1#32 <<< 19
def statNf : BitVec 32 := 1#32 <<< 18
def statFe : BitVec 32 := 1#32 <<< 17
def statPf : BitVec 32 := 1#32 <<< 16

def ctrlR8t9 : BitVec 32 := 1#32 <<< 31
def ctrlR9t8 : BitVec 32 := 1#32 <<< 30
def ctrlOrie : BitVec 32 := 1#32 <<< 27
def ctrlNeie : BitVec 32 := 1#32 <<< 26
def ctrlFeie : BitVec 32 := 1#32 <<< 25
def ctrlPeie : BitVec 32 := 1#32 <<< 24
def ctrlTie : BitVec 32 := 1#32 <<< 23
def ctrlTcie : BitVec 32 := 1#32 <<< 22
def ctrlRie : BitVec 32 := 1#32 <<< 21
def ctrlTe : BitVec 32 := 1#32 <<< 19
def ctrlRe : BitVec 32 := 1#32 <<< 18
def ctrlM7 : BitVec 32 := 1#32 <<< 11
def ctrlM : BitVec 32 := 1#32 <<< 4
def ctrlPe : BitVec 32 := 1#32 <<< 1
def ctrlPt : BitVec 32 := 1#32 <<< 0

def baudM10 : BitVec 32 := 1#32 <<< 29
def baudOsrMask : BitVec 32 := 0x1F000000#32
def baudBothedge : BitVec 32 := 1#32 <<< 17
def baudSbns : BitVec 32 := 1#32 <<< 13
def baudSbrMask : BitVec 32 := 0x1FFF#32

def fifoTxflush : BitVec 32 := 1#32 <<< 15
def fifoRxflush : BitVec 32 := 1#32 <<< 14

/-- `LPUART_FEATURE_STAT_REG_FLAGS_MASK`. -/
def statRegFlagsMask : BitVec 32 := 0xC01FC000#32

/-- `LPUART_UART_IP_TIMEOUT_VALUE_US`. -/
def timeoutValueUs : ℕ := 0

/-! ## The types -/

/-- The registers that the driver uses. -/
inductive Reg
  | baud | stat | ctrl | data | fifo
  deriving DecidableEq, Repr

/-- `Lpuart_Uart_Ip_StatusType`. -/
inductive StatusType
  | success | error | busy | timeout | txUnderrun | rxOverrun | aborted | framingError
  | parityError | noiseError | dmaError
  deriving DecidableEq, Repr

/-- `Lpuart_Uart_Ip_EventType`. -/
inductive EventType
  | rxFull | txEmpty | endTransfer | error
  deriving DecidableEq, Repr

/-- `Lpuart_Uart_Ip_TransferType`. -/
inductive TransferType
  | usingDma | usingInterrupts
  deriving DecidableEq, Repr

/-- `Lpuart_Uart_Ip_BitCountPerCharType`. -/
inductive BitCountPerChar
  | seven | eight | nine | ten
  deriving DecidableEq, Repr

/-- The number of the enumeration. -/
def BitCountPerChar.toNat : BitCountPerChar → ℕ
  | .seven => 0
  | .eight => 1
  | .nine => 2
  | .ten => 3

/-- `Lpuart_Uart_Ip_ParityModeType`. -/
inductive ParityMode
  | disabled | even | odd
  deriving DecidableEq, Repr

/-- The bits `PE` and `PT` of the parity mode. -/
def ParityMode.pe : ParityMode → Bool
  | .disabled => false
  | .even | .odd => true

@[inherit_doc ParityMode.pe]
def ParityMode.pt : ParityMode → Bool
  | .disabled | .even => false
  | .odd => true

/-- `Lpuart_Uart_Ip_StopBitCountType`. -/
inductive StopBitCount
  | one | two
  deriving DecidableEq, Repr

/-- `Lpuart_Uart_Ip_BaudrateType`. -/
inductive Baudrate
  | baud1200 | baud2400 | baud4800 | baud7200 | baud9600 | baud14400 | baud19200 | baud28800
  | baud38400 | baud57600 | baud115200 | baud230400 | baud460800 | baud921600 | baud1843200
  deriving DecidableEq, Repr

/-- The number of the enumeration. -/
def Baudrate.toNat : Baudrate → ℕ
  | .baud1200 => 1200
  | .baud2400 => 2400
  | .baud4800 => 4800
  | .baud7200 => 7200
  | .baud9600 => 9600
  | .baud14400 => 14400
  | .baud19200 => 19200
  | .baud28800 => 28800
  | .baud38400 => 38400
  | .baud57600 => 57600
  | .baud115200 => 115200
  | .baud230400 => 230400
  | .baud460800 => 460800
  | .baud921600 => 921600
  | .baud1843200 => 1843200

/-- `Lpuart_Uart_Ip_StateStructureType`, and whether the driver points to it. -/
structure StateStructure where
  /-- The pointer to the structure is not `NULL_PTR`. -/
  registered : Bool
  baudRate : ℕ
  /-- What is left of the buffer to be sent. -/
  txBuff : List (BitVec 8)
  /-- The buffer to receive to, and the index that `RxBuff` points to. -/
  rxBuff : List (BitVec 8)
  rxIndex : ℕ
  txSize : ℕ
  rxSize : ℕ
  isTxBusy : Bool
  isRxBusy : Bool
  transmitStatus : StatusType
  receiveStatus : StatusType
  deriving DecidableEq, Repr

/-- The structure is cleared, byte by byte. -/
def StateStructure.cleared : StateStructure where
  registered := true
  baudRate := 0
  txBuff := []
  rxBuff := []
  rxIndex := 0
  txSize := 0
  rxSize := 0
  isTxBusy := false
  isRxBusy := false
  transmitStatus := .success
  receiveStatus := .success

/-- `Lpuart_Uart_Ip_UserConfigType`. -/
structure UserConfig where
  baudRate : ℕ
  baudRateDivisor : ℕ
  baudOverSamplingRatio : ℕ
  parityMode : ParityMode
  stopBitsCount : StopBitCount
  bitCountPerChar : BitCountPerChar
  transferType : TransferType
  callback : Option (EventType → StateStructure → StateStructure)

/-- The driver and its hardware. -/
abbrev World (σ : Type) : Type := Port.World StateStructure σ

/-! ## Arithmetic of the machine -/

/-- The difference of two `uint32`. -/
def uint32Sub (a b : ℕ) : ℕ := (a + 2 ^ 32 - b) % 2 ^ 32

/-- `(x & ~mask) | value`. -/
def insert (mask value x : BitVec 32) : BitVec 32 := x &&& ~~~mask ||| value

/-- A bit of a register, if it is enabled. -/
def bit (mask : BitVec 32) (enable : Bool) : BitVec 32 := if enable then mask else 0#32

/-- `Lpuart_Uart_Ip_CheckTimeout`: whether the time is out, and the new `ElapsedTicks`. -/
def checkTimeout (timeoutTicks elapsedTicks : ℕ) : Bool × ℕ :=
  let elapsedTicks := (elapsedTicks + getElapsed) % 2 ^ 32
  (decide (elapsedTicks ≥ timeoutTicks), elapsedTicks)

section Functions

variable {ε σ : Type} (p : Port Reg ε σ)

/-! ## Access to the hardware -/

/-- `Lpuart_Uart_Ip_Hw_Init`. -/
def hwInit (w : World σ) : Except (Port.Stop ε) (World σ) := do
  let w ← w.write p .baud (0xF#32 <<< 24 ||| 0x4#32 <<< 0)
  let w ← w.write p .stat statRegFlagsMask
  w.write p .ctrl 0#32

/-- `Lpuart_Uart_Ip_SetTransmitterCmd`. -/
def setTransmitterCmd (enable : Bool) (w : World σ) : Except (Port.Stop ε) (World σ) :=
  w.modify p .ctrl (insert ctrlTe (bit ctrlTe enable))

/-- `Lpuart_Uart_Ip_SetReceiverCmd`. -/
def setReceiverCmd (enable : Bool) (w : World σ) : Except (Port.Stop ε) (World σ) :=
  w.modify p .ctrl (insert ctrlRe (bit ctrlRe enable))

/-- `Lpuart_Uart_Ip_SetIntMode`, with the bit of the interrupt. -/
def setIntMode (intSrc : BitVec 32) (enable : Bool) (w : World σ) :
    Except (Port.Stop ε) (World σ) :=
  w.modify p .ctrl (insert intSrc (bit intSrc enable))

/-- `Lpuart_Uart_Ip_GetIntMode`, with the bit of the interrupt. -/
def getIntMode (intSrc : BitVec 32) (w : World σ) : Except (Port.Stop ε) (Bool × World σ) := do
  let (ctrl, w) ← w.read p .ctrl
  pure (Bits.any ctrl intSrc, w)

/-- `Lpuart_Uart_Ip_SetBaudRateDivisor`. -/
def setBaudRateDivisor (divisor : BitVec 32) (w : World σ) : Except (Port.Stop ε) (World σ) :=
  w.modify p .baud (insert baudSbrMask (divisor &&& baudSbrMask))

/-- `Lpuart_Uart_Ip_SetOversamplingRatio`. -/
def setOversamplingRatio (ratio : BitVec 32) (w : World σ) : Except (Port.Stop ε) (World σ) :=
  w.modify p .baud (insert baudOsrMask (ratio <<< 24 &&& baudOsrMask))

/-- `Lpuart_Uart_Ip_EnableBothEdgeSamplingCmd`, which is called for a ratio below 8. -/
def enableBothEdgeSampling (ratio : ℕ) (w : World σ) : Except (Port.Stop ε) (World σ) :=
  if ratio < 8 then w.modify p .baud (· ||| baudBothedge) else pure w

/-- `Lpuart_Uart_Ip_SetBitCountPerChar`. -/
def setBitCountPerChar (bitCountPerChar : BitCountPerChar) (parity : Bool) (w : World σ) :
    Except (Port.Stop ε) (World σ) :=
  let tmpBitCountPerChar := bitCountPerChar.toNat + parity.toNat
  if tmpBitCountPerChar = BitCountPerChar.ten.toNat then
    w.modify p .baud (insert baudM10 baudM10)
  else do
    let w ← w.modify p .ctrl (
      if bitCountPerChar = .seven then
        if parity then (· &&& ~~~(ctrlM7 ||| ctrlM)) else insert ctrlM7 ctrlM7
      else insert ctrlM (BitVec.ofNat 32 (tmpBitCountPerChar - 1) <<< 4))
    w.modify p .baud (· &&& ~~~baudM10)

/-- `Lpuart_Uart_Ip_SetParityMode`. -/
def setParityMode (parityMode : ParityMode) (w : World σ) : Except (Port.Stop ε) (World σ) := do
  let w ← w.modify p .ctrl (insert ctrlPe (bit ctrlPe parityMode.pe))
  w.modify p .ctrl (insert ctrlPt (bit ctrlPt parityMode.pt))

/-- `Lpuart_Uart_Ip_SetStopBitCount`. -/
def setStopBitCount (stopBitCount : StopBitCount) (w : World σ) :
    Except (Port.Stop ε) (World σ) :=
  w.modify p .baud (insert baudSbns (bit baudSbns (stopBitCount = .two)))

/-- `Lpuart_Uart_Ip_Putchar`. -/
def putchar (data : BitVec 8) (w : World σ) : Except (Port.Stop ε) (World σ) :=
  w.write p .data (data.setWidth 32)

/-- `Lpuart_Uart_Ip_Putchar9`. -/
def putchar9 (data : BitVec 16) (w : World σ) : Except (Port.Stop ε) (World σ) := do
  let w ← w.modify p .ctrl (insert ctrlR9t8 (bit ctrlR9t8 (data.getLsbD 8)))
  putchar p (data.setWidth 8) w

/-- `Lpuart_Uart_Ip_Putchar10`. -/
def putchar10 (data : BitVec 16) (w : World σ) : Except (Port.Stop ε) (World σ) := do
  let w ← w.modify p .ctrl fun ctrl =>
    insert ctrlR8t9 (bit ctrlR8t9 (data.getLsbD 9))
      (insert ctrlR9t8 (bit ctrlR9t8 (data.getLsbD 8)) ctrl)
  putchar p (data.setWidth 8) w

/-- `Lpuart_Uart_Ip_Getchar`. -/
def getchar (w : World σ) : Except (Port.Stop ε) (BitVec 8 × World σ) := do
  let (data, w) ← w.read p .data
  pure (data.setWidth 8, w)

/-- `Lpuart_Uart_Ip_Getchar9`. -/
def getchar9 (w : World σ) : Except (Port.Stop ε) (BitVec 16 × World σ) := do
  let (r8t9, w) ← getIntMode p ctrlR8t9 w
  let (data, w) ← getchar p w
  pure ((BitVec.ofBool r8t9).setWidth 16 <<< 8 ||| data.setWidth 16, w)

/-- `Lpuart_Uart_Ip_Getchar10`. -/
def getchar10 (w : World σ) : Except (Port.Stop ε) (BitVec 16 × World σ) := do
  let (r9t8, w) ← getIntMode p ctrlR9t8 w
  let (data, w) ← getchar9 p w
  pure ((BitVec.ofBool r9t8).setWidth 16 <<< 9 ||| data, w)

/-- `Lpuart_Uart_Ip_GetStatusFlag`, with the bit of the flag. -/
def getStatusFlag (statusFlag : BitVec 32) (w : World σ) :
    Except (Port.Stop ε) (Bool × World σ) := do
  let (stat, w) ← w.read p .stat
  pure (Bits.any stat statusFlag, w)

/-- `Lpuart_Uart_Ip_ClearStatusFlagWithMask`, and `Lpuart_Uart_Ip_ClearStatusFlag` with the bit
    of the flag. -/
def clearStatusFlagWithMask (mask : BitVec 32) (w : World σ) : Except (Port.Stop ε) (World σ) :=
  w.modify p .stat (insert statRegFlagsMask mask)

/-- `Lpuart_Uart_Ip_ClearErrorFlags`. -/
def clearErrorFlags (w : World σ) : Except (Port.Stop ε) (World σ) :=
  clearStatusFlagWithMask p (statOr ||| statNf ||| statFe ||| statPf) w

/-- `Lpuart_Uart_Ip_FlushTxBuffer`. -/
def flushTxBuffer (w : World σ) : Except (Port.Stop ε) (World σ) :=
  w.modify p .fifo (· ||| fifoTxflush)

/-- `Lpuart_Uart_Ip_FlushRxBuffer`. -/
def flushRxBuffer (w : World σ) : Except (Port.Stop ε) (World σ) :=
  w.modify p .fifo (· ||| fifoRxflush)

/-! ## Single characters -/

/-- `*TxBuff++`. -/
def takeByte (w : World σ) : Except (Port.Stop ε) (BitVec 8 × World σ) :=
  match w.state.txBuff with
  | [] => .error .outOfBounds
  | data :: txBuff => pure (data, w.upd fun st => { st with txBuff := txBuff })

/-- `*RxBuff++ = data`. -/
def storeByte (data : BitVec 8) (w : World σ) : Except (Port.Stop ε) (World σ) :=
  if w.state.rxIndex < w.state.rxBuff.length then
    pure (w.upd fun st =>
      { st with rxBuff := st.rxBuff.set st.rxIndex data, rxIndex := st.rxIndex + 1 })
  else .error .outOfBounds

def decTxSize (k : ℕ) (w : World σ) : World σ :=
  w.upd fun st => { st with txSize := uint32Sub st.txSize k }

def decRxSize (k : ℕ) (w : World σ) : World σ :=
  w.upd fun st => { st with rxSize := uint32Sub st.rxSize k }

/-- The 16 bits of the next character, of 9 or 10 bits: the last byte of an odd number is a
    character of its own. -/
def takeData16 (w : World σ) : Except (Port.Stop ε) (BitVec 16 × World σ) := do
  let (low, w) ← takeByte w
  if w.state.txSize = 1 then pure (low.setWidth 16, decTxSize 1 w)
  else do
    let (high, w) ← takeByte w
    pure (low.setWidth 16 ||| high.setWidth 16 <<< 8, decTxSize 2 w)

/-- `Lpuart_Uart_Ip_PutData`. -/
def putData (c : UserConfig) (w : World σ) : Except (Port.Stop ε) (World σ) :=
  if c.bitCountPerChar = .seven ∨ c.bitCountPerChar = .eight then do
    let (data, w) ← takeByte w
    putchar p data (decTxSize 1 w)
  else do
    let (data, w) ← takeData16 w
    if c.bitCountPerChar = .nine then putchar9 p data w else putchar10 p data w

/-- The character of 9 or 10 bits is stored, without its upper byte if only one byte is
    left. -/
def storeData16 (data : BitVec 16) (w : World σ) : Except (Port.Stop ε) (World σ) :=
  if w.state.rxSize = 1 then do
    let w ← storeByte (data.setWidth 8) w
    pure (decRxSize 1 w)
  else do
    let w ← storeByte (data.setWidth 8) w
    let w ← storeByte ((data >>> 8).setWidth 8) w
    pure (decRxSize 2 w)

/-- `Lpuart_Uart_Ip_GetData`. -/
def getData (c : UserConfig) (w : World σ) : Except (Port.Stop ε) (World σ) :=
  match c.bitCountPerChar with
  | .seven => do
    let (data, w) ← getchar p w
    let w ← storeByte (data &&& 0x7F#8) w
    pure (decRxSize 1 w)
  | .eight => do
    let (data, w) ← getchar p w
    let w ← storeByte data w
    pure (decRxSize 1 w)
  | .nine => do
    let (data, w) ← getchar9 p w
    storeData16 data w
  | .ten => do
    let (data, w) ← getchar10 p w
    storeData16 data w

/-! ## Initialisation -/

/-- `Lpuart_Uart_Ip_Init`. -/
def init (c : UserConfig) (w : World σ) : Except (Port.Stop ε) (World σ) := do
  let w ← w.devAssert (w.state.registered = false)
  let w ← w.devAssert (c.baudOverSamplingRatio ≤ 0x20)
  let w ← w.devAssert (c.baudRateDivisor ≤ 0x1FFF ∧ c.baudRateDivisor ≥ 1)
  let w ← w.devAssert (c.bitCountPerChar ≠ .ten ∨ c.parityMode = .disabled)
  let w := w.upd fun _ => .cleared
  let w ← hwInit p w
  let w ← enableBothEdgeSampling p c.baudOverSamplingRatio w
  let w ← setOversamplingRatio p (BitVec.ofNat 32 c.baudOverSamplingRatio - 1#32) w
  let w ← setBaudRateDivisor p (BitVec.ofNat 32 c.baudRateDivisor) w
  let w ← setBitCountPerChar p c.bitCountPerChar (decide (c.parityMode ≠ .disabled)) w
  let w ← setParityMode p c.parityMode w
  let w ← setStopBitCount p c.stopBitsCount w
  pure (w.upd fun st =>
    { st with transmitStatus := .success, receiveStatus := .success, baudRate := c.baudRate })

/-! ## Waiting -/

/-- A pass of the empty loop
    `while (!Lpuart_Uart_Ip_GetStatusFlag(Base, flag) && !Lpuart_Uart_Ip_CheckTimeout(...))`,
    which is left with the new `ElapsedTicks`. -/
def awaitPass (flag : BitVec 32) (timeoutTicks : ℕ) :
    World σ × ℕ → Except (Port.Stop ε) (Pass (World σ × ℕ) (World σ × ℕ))
  | (w, elapsedTicks) => do
    let (set, w) ← getStatusFlag p flag w
    pure (if set then .exit (w, elapsedTicks)
      else
        let (out, elapsedTicks) := checkTimeout timeoutTicks elapsedTicks
        if out then .exit (w, elapsedTicks) else .next (w, elapsedTicks))

/-- The loop that waits for a flag. After one more pass than the timeout has ticks, even
    the counter that starts with an overflow is at the timeout. -/
def awaitFlag (flag : BitVec 32) (timeoutTicks elapsedTicks : ℕ) (w : World σ) :
    Except (Port.Stop ε) (Option (World σ × ℕ)) :=
  Loop.run (awaitPass p flag timeoutTicks) (timeoutTicks + 2) (w, elapsedTicks)

/-! ## Sending by polling -/

/-- A pass of the loop of `Lpuart_Uart_Ip_SyncSend`. -/
def sendPass (c : UserConfig) (timeoutTicks : ℕ) :
    World σ × ℕ → Except (Port.Stop ε) (Pass (World σ × ℕ) (Option (World σ × ℕ)))
  | (w, elapsedTicks) =>
    if w.state.txSize = 0 then pure (.exit (some (w, elapsedTicks)))
    else
      let (out, elapsedTicks) := checkTimeout timeoutTicks elapsedTicks
      if out then pure (.exit (some (w, elapsedTicks)))
      else do
        let w ← putData p c w
        let ready ← awaitFlag p statTdre timeoutTicks elapsedTicks w
        pure (match ready with
          | some s => .next s
          | none => .exit none)

/-- The end of `Lpuart_Uart_Ip_SyncSend`. -/
def sendEnd (timeoutTicks elapsedTicks : ℕ) (w : World σ) :
    Except (Port.Stop ε) (StatusType × World σ) := do
  let w ← setTransmitterCmd p false w
  let status := if (checkTimeout timeoutTicks elapsedTicks).1 then .timeout else .success
  pure (status, w.upd fun st => { st with transmitStatus := status, isTxBusy := false })

/-- `Lpuart_Uart_Ip_SyncSend`. Its loop makes at most one pass more than the timeout has
    ticks. -/
def syncSend (c : UserConfig) (txBuff : List (BitVec 8)) (txSize timeout : ℕ) (w : World σ) :
    Except (Port.Stop ε) (Option (StatusType × World σ)) := do
  let w ← w.devAssert (txSize > 0)
  let w ← w.devAssert (w.state.registered = true)
  if w.state.isTxBusy then pure (some (.busy, w))
  else do
    let w := w.upd fun st =>
      { st with isTxBusy := true, txBuff := txBuff, txSize := txSize, transmitStatus := .busy }
    let w ← setIntMode p ctrlTie false w
    let w ← setIntMode p ctrlTcie false w
    let w ← setTransmitterCmd p true w
    let timeoutTicks := microsToTicks timeout
    match (← Loop.run (sendPass p c timeoutTicks) (timeoutTicks + 2) (w, 0)).join with
    | some (w, elapsedTicks) => do
      let r ← sendEnd p timeoutTicks elapsedTicks w
      pure (some r)
    | none => pure none

/-! ## Receiving by polling -/

/-- The flags that `Lpuart_Uart_Ip_StartGetData` checks, with their statuses. -/
def errorFlags : List (BitVec 32 × StatusType) :=
  [(statOr, .rxOverrun), (statFe, .framingError), (statNf, .noiseError), (statPf, .parityError)]

/-- The check for errors in `Lpuart_Uart_Ip_StartGetData`, which gives the mask of the flags
    that are set. -/
def checkErrors : List (BitVec 32 × StatusType) → BitVec 32 → World σ →
    Except (Port.Stop ε) (BitVec 32 × World σ)
  | [], mask, w => pure (mask, w)
  | (flag, status) :: flags, mask, w => do
    let (set, w) ← getStatusFlag p flag w
    if set then
      checkErrors flags (mask ||| flag) (w.upd fun st => { st with receiveStatus := status })
    else checkErrors flags mask w

/-- A pass of the loop of `Lpuart_Uart_Ip_StartGetData`. A timeout while it waits for a
    character does not keep it from getting one. -/
def receivePass (c : UserConfig) (timeoutTicks : ℕ) :
    World σ × ℕ → Except (Port.Stop ε) (Pass (World σ × ℕ) (Option (World σ × ℕ)))
  | (w, elapsedTicks) =>
    if w.state.rxSize = 0 then pure (.exit (some (w, elapsedTicks)))
    else
      let (out, elapsedTicks) := checkTimeout timeoutTicks elapsedTicks
      if out then pure (.exit (some (w, elapsedTicks)))
      else do
        match ← awaitFlag p statRdrf timeoutTicks elapsedTicks w with
        | none => pure (.exit none)
        | some (w, elapsedTicks) => do
          let (mask, w) ← checkErrors p errorFlags 0#32 w
          if mask = 0#32 then do
            let w ← getData p c w
            pure (.next (w, elapsedTicks))
          else do
            let w ← setReceiverCmd p false w
            let w ← clearStatusFlagWithMask p mask w
            pure (.exit (some (w, elapsedTicks)))

/-- `ReceiveStatus` at the end of `Lpuart_Uart_Ip_SyncReceive`. -/
def finalReceiveStatus (out : Bool) (rxSize : ℕ) (status : StatusType) : StatusType :=
  let status := if out then .timeout else status
  let status := if status = .busy then .success else status
  if rxSize = 0 ∧ status = .rxOverrun then .success else status

/-- The end of `Lpuart_Uart_Ip_SyncReceive`. -/
def receiveEnd (timeoutTicks elapsedTicks : ℕ) (w : World σ) :
    Except (Port.Stop ε) (StatusType × World σ) := do
  let status := finalReceiveStatus (checkTimeout timeoutTicks elapsedTicks).1 w.state.rxSize
    w.state.receiveStatus
  let w := w.upd fun st => { st with receiveStatus := status }
  let w ← setReceiverCmd p false w
  let w := w.upd fun st => { st with isRxBusy := false }
  let (_, w) ← getchar p w
  pure (status, w)

/-- `Lpuart_Uart_Ip_SyncReceive`. Its loop makes at most one pass more than the timeout has
    ticks. -/
def syncReceive (c : UserConfig) (rxBuff : List (BitVec 8)) (rxSize timeout : ℕ) (w : World σ) :
    Except (Port.Stop ε) (Option (StatusType × World σ)) := do
  let w ← w.devAssert (rxSize > 0)
  let w ← w.devAssert (w.state.registered = true)
  if w.state.isRxBusy then pure (some (.busy, w))
  else do
    let w := w.upd fun st =>
      { st with isRxBusy := true, rxBuff := rxBuff, rxIndex := 0, rxSize := rxSize,
                receiveStatus := .busy }
    let w ← setIntMode p ctrlRie false w
    let w ← setReceiverCmd p true w
    let timeoutTicks := microsToTicks timeout
    match (← Loop.run (receivePass p c timeoutTicks) (timeoutTicks + 2) (w, 0)).join with
    | some (w, elapsedTicks) => do
      let r ← receiveEnd p timeoutTicks elapsedTicks w
      pure (some r)
    | none => pure none

/-! ## Transfers by interrupts -/

/-- `Lpuart_Uart_Ip_StartSendDataUsingInt`. -/
def startSendDataUsingInt (txBuff : List (BitVec 8)) (txSize : ℕ) (w : World σ) :
    Except (Port.Stop ε) (World σ) := do
  let w := w.upd fun st => { st with txBuff := txBuff, txSize := txSize, transmitStatus := .busy }
  let w ← setTransmitterCmd p true w
  setIntMode p ctrlTie true w

/-- `Lpuart_Uart_Ip_AsyncSend`. -/
def asyncSend (c : UserConfig) (txBuff : List (BitVec 8)) (txSize : ℕ) (w : World σ) :
    Except (Port.Stop ε) (StatusType × World σ) := do
  let w ← w.devAssert (txSize > 0)
  let w ← w.devAssert (w.state.registered = true)
  if w.state.isTxBusy then pure (.busy, w)
  else do
    let w := w.upd fun st => { st with isTxBusy := true }
    -- Without DMA, the other transfer type does nothing.
    if c.transferType = .usingInterrupts then do
      let w ← startSendDataUsingInt p txBuff txSize w
      pure (.success, w)
    else pure (.success, w)

/-- `TIE` is cleared at the end of a transmission that is not busy any more. -/
def disableTie (w : World σ) : Except (Port.Stop ε) (World σ) :=
  if w.state.transmitStatus ≠ .busy then setIntMode p ctrlTie false w else pure w

/-- `Lpuart_Uart_Ip_CompleteSendDataUsingInt`. -/
def completeSendDataUsingInt (w : World σ) : Except (Port.Stop ε) (Option (World σ)) := do
  let w ← disableTie p w
  let w ← setIntMode p ctrlTcie false w
  let timeoutTicks := microsToTicks timeoutValueUs
  match ← awaitFlag p statTc timeoutTicks 0 w with
  | none => pure none
  | some (w, elapsedTicks) => do
    let w := w.upd fun st => { st with
      transmitStatus := if (checkTimeout timeoutTicks elapsedTicks).1 then .timeout
        else st.transmitStatus }
    let w ← setTransmitterCmd p false w
    pure (some (w.upd fun st => { st with
      transmitStatus := if st.transmitStatus = .busy then .success else st.transmitStatus
      isTxBusy := false }))

/-- `Lpuart_Uart_Ip_StartReceiveDataUsingInt`. -/
def startReceiveDataUsingInt (rxBuff : List (BitVec 8)) (rxSize : ℕ) (w : World σ) :
    Except (Port.Stop ε) (World σ) := do
  let w := w.upd fun st =>
    { st with isRxBusy := true, rxBuff := rxBuff, rxIndex := 0, rxSize := rxSize,
              receiveStatus := .busy }
  let w ← clearErrorFlags p w
  let w ← flushRxBuffer p w
  let w ← setReceiverCmd p true w
  let w ← setIntMode p ctrlOrie true w
  let w ← setIntMode p ctrlPeie true w
  let w ← setIntMode p ctrlNeie true w
  let w ← setIntMode p ctrlFeie true w
  setIntMode p ctrlRie true w

/-- `Lpuart_Uart_Ip_AsyncReceive`. -/
def asyncReceive (c : UserConfig) (rxBuff : List (BitVec 8)) (rxSize : ℕ) (w : World σ) :
    Except (Port.Stop ε) (StatusType × World σ) := do
  let w ← w.devAssert (rxSize > 0)
  let w ← w.devAssert (w.state.registered = true)
  if w.state.isRxBusy then pure (.busy, w)
  else do
    let w := w.upd fun st => { st with isRxBusy := true }
    if c.transferType = .usingInterrupts then do
      let w ← startReceiveDataUsingInt p rxBuff rxSize w
      pure (.success, w)
    else pure (.success, w)

/-- A reception that is aborted waits for a character. -/
def awaitAborted (w : World σ) : Except (Port.Stop ε) (Option (World σ)) :=
  if w.state.receiveStatus = .aborted then do
    let timeoutTicks := microsToTicks timeoutValueUs
    match ← awaitFlag p statRdrf timeoutTicks 0 w with
    | none => pure none
    | some (w, elapsedTicks) => pure (some (w.upd fun st => { st with
        receiveStatus := if (checkTimeout timeoutTicks elapsedTicks).1 then .timeout
          else st.receiveStatus }))
  else pure (some w)

/-- `Lpuart_Uart_Ip_CompleteReceiveDataUsingInt`. -/
def completeReceiveDataUsingInt (w : World σ) : Except (Port.Stop ε) (Option (World σ)) := do
  let w ← setIntMode p ctrlOrie false w
  let w ← setIntMode p ctrlPeie false w
  let w ← setIntMode p ctrlNeie false w
  let w ← setIntMode p ctrlFeie false w
  let w ← setIntMode p ctrlRie false w
  match ← awaitAborted p w with
  | none => pure none
  | some w => do
    let w ← setReceiverCmd p false w
    let (_, w) ← getchar p w
    pure (some (w.upd fun st => { st with
      isRxBusy := false
      receiveStatus := if st.receiveStatus = .busy then .success else st.receiveStatus }))

/-- The callback is invoked, if there is one. -/
def invokeCallback (c : UserConfig) (event : EventType) (w : World σ) : World σ :=
  w.upd fun st => c.callback.elim st fun f => f event st

/-- `Lpuart_Uart_Ip_RxIrqHandler`. -/
def rxIrqHandler (c : UserConfig) (w : World σ) : Except (Port.Stop ε) (Option (World σ)) := do
  let w ← getData p c w
  let w := if w.state.rxSize = 0 then invokeCallback c .rxFull w else w
  -- The callback may have provided a new buffer.
  if w.state.rxSize = 0 then do
    let w? ← completeReceiveDataUsingInt p w
    pure (w?.map (invokeCallback c .endTransfer))
  else pure (some w)

/-- `Lpuart_Uart_Ip_TxEmptyIrqHandler`. -/
def txEmptyIrqHandler (c : UserConfig) (w : World σ) : Except (Port.Stop ε) (World σ) :=
  if w.state.txSize > 0 then do
    let w ← putData p c w
    let w := if w.state.txSize = 0 then invokeCallback c .txEmpty w else w
    -- The callback may have provided a new buffer.
    if w.state.txSize = 0 then do
      let w ← setIntMode p ctrlTie false w
      setIntMode p ctrlTcie true w
    else pure w
  else pure w

/-- `Lpuart_Uart_Ip_TxCompleteIrqHandler`. -/
def txCompleteIrqHandler (c : UserConfig) (w : World σ) :
    Except (Port.Stop ε) (Option (World σ)) :=
  if w.state.txSize = 0 then
    if c.transferType = .usingInterrupts then do
      let w? ← completeSendDataUsingInt p w
      pure (w?.map (invokeCallback c .endTransfer))
    else pure (some (invokeCallback c .endTransfer w))
  else pure (some w)

/-- The errors of `Lpuart_Uart_Ip_ErrIrqHandler`, in its order: the flag, its interrupt and its
    status. -/
def errorInterrupts : List (BitVec 32 × BitVec 32 × StatusType) :=
  [(statOr, ctrlOrie, .rxOverrun), (statFe, ctrlFeie, .framingError),
    (statPf, ctrlPeie, .parityError), (statNf, ctrlNeie, .noiseError)]

/-- Flags are read, and not acted on. -/
def readFlags : List (BitVec 32 × BitVec 32 × StatusType) → World σ → Except (Port.Stop ε) (World σ)
  | [], w => pure w
  | (flag, _, _) :: errors, w => do
    let (_, w) ← getStatusFlag p flag w
    readFlags errors w

/-- The errors are looked at one after the other, until one is set whose interrupt is not
    enabled (`none`); otherwise, whether there is an error is returned. -/
def handleErrors : List (BitVec 32 × BitVec 32 × StatusType) → Bool → World σ →
    Except (Port.Stop ε) (Option Bool × World σ)
  | [], isError, w => pure (some isError, w)
  | (flag, interrupt, status) :: errors, isError, w => do
    let (set, w) ← getStatusFlag p flag w
    if set then do
      let (enabled, w) ← getIntMode p interrupt w
      if enabled then do
        let w ← clearStatusFlagWithMask p flag (w.upd fun st => { st with receiveStatus := status })
        handleErrors errors true w
      else do
        let w ← readFlags p errors w
        pure (none, w)
    else handleErrors errors isError w

/-- `Lpuart_Uart_Ip_ErrIrqHandler`. -/
def errIrqHandler (c : UserConfig) (w : World σ) : Except (Port.Stop ε) (Option (World σ)) := do
  let (isError, w) ← handleErrors p errorInterrupts false w
  if isError = some true then
    if c.transferType = .usingInterrupts then do
      let w? ← completeReceiveDataUsingInt p w
      pure (w?.map (invokeCallback c .error))
    else pure (some (invokeCallback c .error w))
  else pure (some w)

/-- The part of `Lpuart_Uart_Ip_IrqHandler` for `RDRF`: whether it returns is given as well. -/
def irqReceive (c : UserConfig) (w : World σ) : Except (Port.Stop ε) (Option (Bool × World σ)) := do
  let (full, w) ← getStatusFlag p statRdrf w
  if full then do
    let (enabled, w) ← getIntMode p ctrlRie w
    if enabled then do
      let w? ← rxIrqHandler p c w
      pure (w?.map (true, ·))
    else pure (some (true, w))
  else pure (some (false, w))

/-- The part of `Lpuart_Uart_Ip_IrqHandler` for `TDRE`. -/
def irqTransmit (c : UserConfig) (isReturn : Bool) (w : World σ) :
    Except (Port.Stop ε) (Bool × World σ) := do
  let (empty, w) ← getStatusFlag p statTdre w
  if empty && !isReturn then do
    let (enabled, w) ← getIntMode p ctrlTie w
    if enabled then do
      let w ← txEmptyIrqHandler p c w
      pure (true, w)
    else pure (isReturn, w)
  else pure (isReturn, w)

/-- The part of `Lpuart_Uart_Ip_IrqHandler` for `TC`. -/
def irqComplete (c : UserConfig) (isReturn : Bool) (w : World σ) :
    Except (Port.Stop ε) (Option (World σ)) := do
  let (complete, w) ← getStatusFlag p statTc w
  if complete && !isReturn then do
    let (enabled, w) ← getIntMode p ctrlTcie w
    if enabled then txCompleteIrqHandler p c w else pure (some w)
  else pure (some w)

/-- `Lpuart_Uart_Ip_IrqHandler`. -/
def irqHandler (c : UserConfig) (w : World σ) : Except (Port.Stop ε) (Option (World σ)) :=
  if w.state.registered then do
    match ← errIrqHandler p c w with
    | none => pure none
    | some w => do
      match ← irqReceive p c w with
      | none => pure none
      | some (isReturn, w) => do
        let (isReturn, w) ← irqTransmit p c isReturn w
        irqComplete p c isReturn w
  else do
    let (_, w) ← getchar p w
    let w ← clearErrorFlags p w
    pure (some w)

/-! ## The end of transfers -/

/-- The status that an abort returns, also if there was nothing to abort. -/
def abortStatus (status : StatusType) : StatusType := if status = .timeout then .error else .success

/-- The running transmission is stopped. -/
def stopSending (c : UserConfig) (w : World σ) : Except (Port.Stop ε) (Option (World σ)) :=
  if c.transferType = .usingInterrupts then completeSendDataUsingInt p w else pure (some w)

/-- The running reception is stopped. -/
def stopReceiving (c : UserConfig) (w : World σ) : Except (Port.Stop ε) (Option (World σ)) :=
  if c.transferType = .usingInterrupts then completeReceiveDataUsingInt p w else pure (some w)

/-- `Lpuart_Uart_Ip_AbortSendingData`. -/
def abortSendingData (c : UserConfig) (w : World σ) :
    Except (Port.Stop ε) (Option (StatusType × World σ)) := do
  let w ← w.devAssert (w.state.registered = true)
  if w.state.isTxBusy then do
    match ← stopSending p c (w.upd fun st => { st with transmitStatus := .aborted }) with
    | none => pure none
    | some w => do
      let w ← flushTxBuffer p w
      pure (some (abortStatus w.state.transmitStatus, w))
  else pure (some (abortStatus w.state.transmitStatus, w))

/-- `Lpuart_Uart_Ip_AbortReceivingData`. -/
def abortReceivingData (c : UserConfig) (w : World σ) :
    Except (Port.Stop ε) (Option (StatusType × World σ)) := do
  let w ← w.devAssert (w.state.registered = true)
  if w.state.isRxBusy then do
    match ← stopReceiving p c (w.upd fun st => { st with receiveStatus := .aborted }) with
    | none => pure none
    | some w => do
      let w ← clearErrorFlags p w
      let w ← flushRxBuffer p w
      pure (some (abortStatus w.state.receiveStatus, w))
  else pure (some (abortStatus w.state.receiveStatus, w))

/-- `Lpuart_Uart_Ip_GetTransmitStatus`, with what it writes to `BytesRemaining`, if it does. -/
def getTransmitStatus (c : UserConfig) (w : World σ) :
    Except (Port.Stop ε) (StatusType × Option ℕ) := do
  let w ← w.devAssert (w.state.registered = true)
  pure (w.state.transmitStatus,
    if c.transferType = .usingInterrupts then some (if w.state.isTxBusy then w.state.txSize else 0)
    else none)

/-- `Lpuart_Uart_Ip_GetReceiveStatus`, with what it writes to `BytesRemaining`, if it does. -/
def getReceiveStatus (c : UserConfig) (w : World σ) :
    Except (Port.Stop ε) (StatusType × Option ℕ) := do
  let w ← w.devAssert (w.state.registered = true)
  pure (w.state.receiveStatus,
    if c.transferType = .usingInterrupts then some (if w.state.isRxBusy then w.state.rxSize else 0)
    else none)

/-- `Lpuart_Uart_Ip_Deinit`. Its loop waits for the driver not to be busy, which changes only in
    an interrupt, until the time is out. -/
def deinit (w : World σ) : Except (Port.Stop ε) (StatusType × World σ) := do
  let w ← w.devAssert (w.state.registered = true)
  let timeoutTicks := microsToTicks timeoutValueUs
  let elapsedTicks := if w.state.isTxBusy || w.state.isRxBusy then
      max timeoutTicks getElapsed else 0
  if (checkTimeout timeoutTicks elapsedTicks).1 then pure (.error, w)
  else do
    let w ← setIntMode p ctrlTie false w
    let w ← setIntMode p ctrlTcie false w
    let w ← setIntMode p ctrlRie false w
    let w ← setIntMode p ctrlOrie false w
    let w ← setIntMode p ctrlPeie false w
    let w ← setIntMode p ctrlNeie false w
    let w ← setIntMode p ctrlFeie false w
    pure (.success, w.upd fun st => { st with registered := false })

end Functions

end S32K358.LpuartUartIp
