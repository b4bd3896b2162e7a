import S32K358.Lib.Port
import S32K358.Lpspi.Basic
import S32K358.OsIf

/-!
# The LPSPI driver of the demo

The driver of `RTD/src/Lpspi_Ip.c`, as the demo configures it: without DMA and dual
clocks, with slave and half-duplex support, with its assertions, and with the dummy
counter for timeouts, which counts the passes of a loop. The driver is a program on
its state structure and the registers of *any* hardware (`Port`); it meets the device
model in `S32K358.LpspiIp.Bench`.

Whether the workaround of the erratum ERR050456 is compiled in is a parameter
(`errata`), as the header that decides it is not part of the repository. It is in the
objects of `DEBUG_QEMU`, whose debug information also has the masks of the vendor's
header. These do not always agree with the masks of the device model: `CONT`,
`CONTC`, `LSBF` and the masks of data are other bits of `TCR` for the device.
-/

namespace S32K358.LpspiIp

open Lpspi (Reg)
open OsIf

/-! ## The masks of the vendor's header -/

def crMen : BitVec 32 := 1#32 <<< 0
def crRst : BitVec 32 := 1#32 <<< 1
def crDbgen : BitVec 32 := 1#32 <<< 3
def crRtf : BitVec 32 := 1#32 <<< 8
def crRrf : BitVec 32 := 1#32 <<< 9

def srTdf : BitVec 32 := 1#32 <<< 0
def srRdf : BitVec 32 := 1#32 <<< 1
def srTef : BitVec 32 := 1#32 <<< 11
def srRef : BitVec 32 := 1#32 <<< 12
/-- `LPSPI_IP_SR_W1C_MASK_U32`: `WCF`, `FCF`, `TCF`, `TEF`, `REF` and `DMF`. -/
def srW1c : BitVec 32 := 0x3F#32 <<< 8

def ierTdie : BitVec 32 := 1#32 <<< 0
def ierRdie : BitVec 32 := 1#32 <<< 1
def ierTeie : BitVec 32 := 1#32 <<< 11
def ierReie : BitVec 32 := 1#32 <<< 12

def fcrTxwater (x : BitVec 32) : BitVec 32 := x &&& 0x3#32

def fsrTxcountMask : BitVec 32 := 0x7#32 <<< 0
def fsrTxcountShift : ℕ := 0
def fsrRxcountMask : BitVec 32 := 0x7#32 <<< 16
def fsrRxcountShift : ℕ := 16

def tcrFramesz (x : BitVec 32) : BitVec 32 := x &&& 0xFFF#32
def tcrTxmsk : BitVec 32 := 1#32 <<< 18
def tcrRxmsk : BitVec 32 := 1#32 <<< 19
def tcrContc : BitVec 32 := 1#32 <<< 20
def tcrCont : BitVec 32 := 1#32 <<< 21
def tcrLsbf : BitVec 32 := 1#32 <<< 23

def cfgr1Pincfg : BitVec 32 := 0x3#32 <<< 24
def cfgr1Outcfg : BitVec 32 := 1#32 <<< 26
def cfgr1Pcscfg : BitVec 32 := 0x3#32 <<< 27

/-- `LPSPI_IP_FIFO_SIZE_U8`. -/
def fifoSize : ℕ := 4

/-- `LPSPI_IP_HALF_DUPLEX_TIMEOUT_COUNTER`. -/
def halfDuplexTimeoutCounter : ℕ := 1

/-! ## The types -/

/-- `Lpspi_Ip_StatusType`. -/
inductive StatusType
  | success | fail | fifoError | timeout
  deriving DecidableEq, Repr

/-- `Lpspi_Ip_HwStatusType`. -/
inductive HwStatusType
  | uninit | idle | busy | fault
  deriving DecidableEq, Repr

/-- `Lpspi_Ip_HalfDuplexType`. -/
inductive HalfDuplexType
  | transmit | receive | fullDuplex
  deriving DecidableEq, Repr

/-- `Lpspi_Ip_ModeType`. -/
inductive ModeType
  | polling | interrupt
  deriving DecidableEq, Repr

/-- `Lpspi_Ip_EventType`. -/
inductive EventType
  | endTransfer | fault
  deriving DecidableEq, Repr

/-- `Lpspi_Ip_ExternalDeviceType`, with its `DeviceParams`. -/
structure ExternalDevice where
  ccr : BitVec 32
  tcr : BitVec 32
  halfDuplexCfgr1 : BitVec 32
  frameSize : ℕ
  lsb : Bool
  defaultData : BitVec 32
  transferType : HalfDuplexType

/-- `Lpspi_Ip_ConfigType`. -/
structure Config where
  cr : BitVec 32
  cfgr1 : BitVec 32
  slaveMode : Bool
  transferMode : ModeType

/-- A buffer of the caller, `none` for `NULL_PTR`. -/
abbrev Buffer := Option (List (BitVec 8))

/-- `Lpspi_Ip_StateStructureType`, and the calls of the end-of-transfer callback. -/
structure StateStructure where
  transferMode : ModeType
  status : HwStatusType
  rxBuffer : Buffer
  txBuffer : Buffer
  /-- There is a callback. -/
  callback : Bool
  rxIndex : ℕ
  txIndex : ℕ
  expectedFifoReads : ℕ
  expectedFifoWrites : ℕ
  keepCs : Bool
  firstCmd : Bool
  phyUnitConfig : Config
  externalDevice : ExternalDevice
  currentTxFifoSlot : ℕ
  halfDuplexTcrCommand : BitVec 32
  nextChannelIsRX : Bool
  events : List EventType

/-- The variables before the initialisation, in memory that was cleared. -/
def StateStructure.cleared : StateStructure where
  transferMode := .polling
  status := .uninit
  rxBuffer := none
  txBuffer := none
  callback := false
  rxIndex := 0
  txIndex := 0
  expectedFifoReads := 0
  expectedFifoWrites := 0
  keepCs := false
  firstCmd := false
  phyUnitConfig := ⟨0#32, 0#32, false, .polling⟩
  externalDevice := ⟨0#32, 0#32, 0#32, 0, false, 0#32, .transmit⟩
  currentTxFifoSlot := 0
  halfDuplexTcrCommand := 0#32
  nextChannelIsRX := false
  events := []

variable {ε σ : Type}

/-- The driver and its hardware. -/
abbrev World (σ : Type) := Port.World StateStructure σ

open Port.World

/-! ## Buffers -/

/-- The bytes of a frame in the buffers: a `uint8`, a `uint16` or a `uint32`. -/
def frameWidth (frameSize : ℕ) : ℕ := if frameSize < 9 then 1 else if frameSize < 17 then 2 else 4

/-- The little-endian word number `i` of a buffer, if it is in its bounds. -/
def load (width : ℕ) (buffer : List (BitVec 8)) (i : ℕ) : Option (BitVec 32) :=
  if width * i + width ≤ buffer.length then
    some (Frame.join true width ((buffer.drop (width * i)).take width))
  else none

/-- Storing a little-endian word, if it is in the bounds of the buffer. -/
def store (width : ℕ) (buffer : List (BitVec 8)) (i : ℕ) (data : BitVec 32) :
    Option (List (BitVec 8)) :=
  if width * i + width ≤ buffer.length then
    some (buffer.take (width * i) ++ Frame.split true width data ++
      buffer.drop (width * i + width))
  else none

/-- The frames of a transfer of `n` bytes, computed by both `Lpspi_TransmitTxInit` and
    `Lpspi_TransmitRxInit`. -/
def expectedFrames (frameSize n : ℕ) : ℕ :=
  let width := frameWidth frameSize
  if n % width = 0 then n / width else n / width + 1

section Functions

variable (p : Port Reg ε σ)

/-- The data of the frame number `i`, or the default data without a buffer. -/
def frameData (w : World σ) (i : ℕ) : Except (Port.Stop ε) (BitVec 32) :=
  match w.state.txBuffer with
  | none => .ok w.state.externalDevice.defaultData
  | some buffer =>
    match load (frameWidth w.state.externalDevice.frameSize) buffer i with
    | none => .error .outOfBounds
    | some data => .ok data

/-- The data received in the frame number `i` is stored, or discarded without a buffer. -/
def storeData (w : World σ) (i : ℕ) (data : BitVec 32) : Except (Port.Stop ε) (World σ) :=
  match w.state.rxBuffer with
  | none => .ok w
  | some buffer =>
    match store (frameWidth w.state.externalDevice.frameSize) buffer i data with
    | none => .error .outOfBounds
    | some buffer => .ok (w.upd fun st => { st with rxBuffer := some buffer })

/-- The loop of `Lpspi_Ip_ReadDataFromFifo`, over the frames `i, …, i + k - 1`. -/
def readFrames : (k i : ℕ) → World σ → Except (Port.Stop ε) (World σ)
  | 0, _, w => .ok w
  | k + 1, i, w => do
    let (data, w) ← w.read p .rdr
    let w ← storeData w i data
    readFrames k (i + 1) w

/-- `Lpspi_Ip_ReadDataFromFifo`. -/
def readDataFromFifo (numberOfReads : ℕ) (w : World σ) : Except (Port.Stop ε) (World σ) := do
  let w ← readFrames p numberOfReads w.state.rxIndex w
  pure (w.upd fun st => { st with rxIndex := st.rxIndex + numberOfReads })

/-- The loop of `Lpspi_Ip_PushDataToFifo`, over the frames `i, …, i + k - 1`. -/
def pushFrames : (k i : ℕ) → World σ → Except (Port.Stop ε) (World σ)
  | 0, _, w => .ok w
  | k + 1, i, w => do
    let data ← frameData w i
    let w ← w.write p .tdr data
    pushFrames k (i + 1) w

/-- `Lpspi_Ip_PushDataToFifo`. -/
def pushDataToFifo (numberOfWrites : ℕ) (w : World σ) : Except (Port.Stop ε) (World σ) := do
  let w ← pushFrames p numberOfWrites w.state.txIndex w
  pure (w.upd fun st => { st with txIndex := st.txIndex + numberOfWrites })

/-- `Lpspi_Ip_ChannelFinished`. -/
def channelFinished (errorFlag : Bool) (w : World σ) : World σ :=
  w.upd fun st =>
    { st with
      status := if errorFlag then .fault else .idle
      events := st.events ++
        if st.callback then [if errorFlag then EventType.fault else .endTransfer] else [] }

/-- `Lpspi_Ip_CheckValidParameters`. -/
def checkValidParameters (externalDevice : ExternalDevice) (length : ℕ) (w : World σ) :
    Except (Port.Stop ε) (World σ) :=
  if externalDevice.frameSize > 16 then w.devAssert (length % 4 = 0)
  else if externalDevice.frameSize > 8 then w.devAssert (length % 2 = 0)
  else .ok w

/-! ## Initialisation -/

/-- `Lpspi_Ip_Init`, of a driver that is not initialised, whose variables may have any
    values. -/
def init (phyUnitConfig : Config) (w : World σ) : Except (Port.Stop ε) (World σ) := do
  let w ← w.write p .cr (phyUnitConfig.cr ||| crDbgen)
  let w ← w.write p .cfgr1 phyUnitConfig.cfgr1
  let w ← w.write p .fcr (fcrTxwater (BitVec.ofNat 32 (fifoSize - 2)))
  pure (w.upd fun st =>
    { st with
      phyUnitConfig := phyUnitConfig
      keepCs := false
      firstCmd := true
      status := .idle
      transferMode := phyUnitConfig.transferMode })

/-- The registers are reset, except `CFGR1`: the first solution of `Lpspi_ErrataHandle`,
    also in `Lpspi_Ip_Cancel`. -/
def errataHandle (w : World σ) : Except (Port.Stop ε) (World σ) := do
  let (cfgr1, w) ← w.read p .cfgr1
  let w ← w.modify p .cr (· ||| crRst)
  let w ← w.modify p .cr (· &&& ~~~crRst)
  w.write p .cfgr1 cfgr1

/-- The transfer command, before its `CONT` and its masks are decided on. -/
def transferCommand (externalDevice : ExternalDevice) : BitVec 32 :=
  externalDevice.tcr ||| tcrFramesz (BitVec.ofNat 32 externalDevice.frameSize - 1#32) |||
    if externalDevice.lsb then tcrLsbf else 0#32

/-- The FIFOs are emptied before a new session, by a reset if the erratum applies. -/
def emptyFifos (errata : Bool) (w : World σ) : Except (Port.Stop ε) (World σ) :=
  if errata then errataHandle p w else w.modify p .cr (· ||| (crRtf ||| crRrf))

/-- The first part of `Lpspi_TransmitTxInit`: for the first command, the module is
    disabled, emptied, and configured. -/
def firstCmdInit (errata : Bool) (w : World σ) : Except (Port.Stop ε) (World σ) :=
  if !w.state.firstCmd then pure w
  else do
    let w ← w.modify p .cr (· &&& ~~~crMen)
    let w ← emptyFifos p errata w
    let w ← w.modify p .sr (· &&& 0xFFFFFFFF#32)
    if w.state.phyUnitConfig.slaveMode then pure w
    else do
      let w ← w.write p .ccr w.state.externalDevice.ccr
      w.modify p .cr (· ||| crMen)

/-- In slave mode, the module is enabled after the command is written. -/
def enableSlave (w : World σ) : Except (Port.Stop ε) (World σ) :=
  if w.state.phyUnitConfig.slaveMode then w.modify p .cr (· ||| crMen) else pure w

/-- The second part of `Lpspi_TransmitTxInit`: the command is written. -/
def commandInit (w : World σ) : Except (Port.Stop ε) (World σ) :=
  let slaveMode := w.state.phyUnitConfig.slaveMode
  let type := w.state.externalDevice.transferType
  let cmd := transferCommand w.state.externalDevice
  if type ≠ .receive then do
    let cmd := if type = .transmit then cmd ||| tcrRxmsk else cmd
    let cmd := if slaveMode then cmd &&& ~~~tcrCont else cmd
    let w ← w.write p .tcr
      (if !w.state.firstCmd && Bits.any cmd tcrCont then cmd ||| tcrContc else cmd)
    let w ← enableSlave p w
    -- The command takes a slot of the TX FIFO.
    pure (if type = .fullDuplex then
      w.upd fun st => { st with currentTxFifoSlot := st.currentTxFifoSlot - 1 } else w)
  else if slaveMode then do
    let w ← w.write p .tcr ((cmd ||| tcrTxmsk) &&& ~~~tcrCont)
    enableSlave p w
  else pure w

/-- `Lpspi_TransmitTxInit`. -/
def transmitTxInit (errata : Bool) (txBuffer : Buffer) (numberOfFrames : ℕ) (w : World σ) :
    Except (Port.Stop ε) (World σ) := do
  let w ← firstCmdInit p errata w
  let w ← commandInit p w
  pure (w.upd fun st =>
    { st with
      txIndex := 0
      txBuffer := if st.externalDevice.transferType = .fullDuplex then txBuffer else st.txBuffer
      expectedFifoWrites := expectedFrames st.externalDevice.frameSize numberOfFrames })

/-- `Lpspi_TransmitRxInit`. -/
def transmitRxInit (rxBuffer : Buffer) (numberOfFrames : ℕ) (w : World σ) : World σ :=
  w.upd fun st =>
    { st with
      rxIndex := 0
      rxBuffer := if st.externalDevice.transferType = .fullDuplex then rxBuffer else st.rxBuffer
      expectedFifoReads := expectedFrames st.externalDevice.frameSize numberOfFrames }

/-! ## One pass of a transfer -/

/-- The field `RXCOUNT` of `FSR`. -/
def rxcount (fsr : BitVec 32) : ℕ := ((fsr &&& fsrRxcountMask) >>> fsrRxcountShift).toNat

/-- The field `TXCOUNT` of `FSR`. -/
def txcount (fsr : BitVec 32) : ℕ := ((fsr &&& fsrTxcountMask) >>> fsrTxcountShift).toNat

/-- The slot of the command is free again when the first frames have been received. The
    slots are a `uint8`. -/
def freeCommandSlot (w : World σ) : World σ :=
  w.upd fun st =>
    { st with
      currentTxFifoSlot :=
        if st.rxIndex = 0 then (st.currentTxFifoSlot + 1) % 2 ^ 8 else st.currentTxFifoSlot }

/-- "RECEIVE DATA", the same in `Lpspi_Ip_SyncTransmit` and `Lpspi_Ip_TransferProcess`:
    the frames available are read. Whether there are any is returned as well. -/
def receiveData (w : World σ) : Except (Port.Stop ε) (Bool × World σ) := do
  let (fsr, w) ← w.read p .fsr
  let numberOfReads := rxcount fsr
  if numberOfReads = 0 then pure (false, w)
  else do
    let numberOfReads := min numberOfReads (w.state.expectedFifoReads - w.state.rxIndex)
    let w ← readDataFromFifo p numberOfReads (freeCommandSlot w)
    pure (true, w.upd fun st =>
      { st with currentTxFifoSlot := (st.currentTxFifoSlot + numberOfReads) % 2 ^ 8 })

/-- `CONT` and `CONTC` are cleared. -/
def clearCs (w : World σ) : Except (Port.Stop ε) (World σ) :=
  w.modify p .tcr (· &&& ~~~(tcrCont ||| tcrContc))

/-- `CONT` and `CONTC` are cleared, unless the chip select is to be kept or `CONT` is
    clear already. -/
def releaseCs (w : World σ) : Except (Port.Stop ε) (World σ) :=
  if w.state.keepCs then pure w
  else do
    let (tcr, w) ← w.read p .tcr
    if Bits.any tcr tcrCont then clearCs p w else pure w

/-- "TRANSMIT DATA", the same in `Lpspi_Ip_SyncTransmit` and `Lpspi_Ip_TransferProcess`
    but for what is done (`done`) when all frames have been pushed: the slots available
    are filled. Whether frames were pushed is returned as well. -/
def transmitData (done : World σ → Except (Port.Stop ε) (World σ)) (w : World σ) :
    Except (Port.Stop ε) (Bool × World σ) :=
  if w.state.currentTxFifoSlot = 0 then pure (false, w)
  else if w.state.expectedFifoWrites ≠ w.state.txIndex then do
    let numberOfWrites :=
      min w.state.currentTxFifoSlot (w.state.expectedFifoWrites - w.state.txIndex)
    let w ← pushDataToFifo p numberOfWrites w
    pure (true, w.upd fun st =>
      { st with currentTxFifoSlot := st.currentTxFifoSlot - numberOfWrites })
  else do
    let w ← done w
    pure (false, w)

/-! ## Synchronous transfers -/

/-- A pass of the loop of `Lpspi_Ip_SyncTransmit`. -/
def syncPass (timeoutTicks : ℕ) :
    World σ × ℕ → Except (Port.Stop ε) (Pass (World σ × ℕ) (StatusType × World σ))
  | (w, elapsedTicks) =>
    if w.state.rxIndex = w.state.expectedFifoReads then pure (.exit (.success, w))
    else do
      let (received, w) ← receiveData p w
      let (transmitted, w) ← transmitData p (releaseCs p) w
      let elapsedTicks := (if received || transmitted then 0 else elapsedTicks) + getElapsed
      pure (if elapsedTicks ≥ timeoutTicks then .exit (.timeout, w) else .next (w, elapsedTicks))

/-- What `Lpspi_Ip_SyncTransmit` does before its loop. -/
def syncPrepare (errata : Bool) (externalDevice : ExternalDevice) (txBuffer rxBuffer : Buffer)
    (length : ℕ) (w : World σ) : Except (Port.Stop ε) (World σ) := do
  let w := w.upd fun st => { st with status := .busy, externalDevice := externalDevice }
  let w ← w.write p .der 0#32
  let w ← w.write p .ier 0#32
  let w := w.upd fun st => { st with currentTxFifoSlot := fifoSize }
  let w ← transmitTxInit p errata txBuffer length w
  pure (transmitRxInit rxBuffer length w)

/-- The end of a synchronous transfer. -/
def syncEnd (status : StatusType) (w : World σ) : World σ :=
  w.upd fun st => { st with status := if status ≠ .success then .fault else .idle }

/-- `Lpspi_Ip_SyncTransmit`, with at most `fuel` passes of its loop. -/
def syncTransmit (errata : Bool) (externalDevice : ExternalDevice) (txBuffer rxBuffer : Buffer)
    (length timeOut fuel : ℕ) (w : World σ) :
    Except (Port.Stop ε) (Option (StatusType × World σ)) := do
  let w ← w.devAssert (length ≠ 0)
  let w ← w.devAssert (timeOut ≠ 0)
  let w ← checkValidParameters externalDevice length w
  if w.state.status = .busy then pure (some (.fail, w))
  else do
    let w ← syncPrepare p errata externalDevice txBuffer rxBuffer length w
    let result ← Loop.run (syncPass p (microsToTicks timeOut)) fuel (w, 0)
    pure (result.map fun (status, w) => (status, syncEnd status w))

/-! ## Asynchronous transfers -/

/-- The interrupts enabled for a transfer. -/
def enabledInterrupts : ModeType → BitVec 32
  | .polling => 0#32
  | .interrupt => ierRdie ||| ierTdie ||| ierReie ||| ierTeie

/-- `Lpspi_Ip_AsyncTransmit`. -/
def asyncTransmit (errata : Bool) (externalDevice : ExternalDevice) (txBuffer rxBuffer : Buffer)
    (length : ℕ) (endCallback : Bool) (w : World σ) :
    Except (Port.Stop ε) (StatusType × World σ) := do
  let w ← w.devAssert (length ≠ 0)
  let w ← checkValidParameters externalDevice length w
  if w.state.status = .busy then pure (.fail, w)
  else do
    let w ← w.modify p .cfgr1 (· &&& ~~~(cfgr1Pcscfg ||| cfgr1Outcfg ||| cfgr1Pincfg))
    let w := w.upd fun st =>
      { st with
        status := .busy
        externalDevice := externalDevice
        callback := endCallback
        currentTxFifoSlot := fifoSize }
    let w ← transmitTxInit p errata txBuffer length w
    let w := transmitRxInit rxBuffer length w
    let w ← w.write p .der 0#32
    let w ← w.write p .ier (enabledInterrupts w.state.transferMode)
    pure (.success, w)

/-- What `Lpspi_Ip_TransferProcess` does when all frames have been pushed. -/
def processDone (w : World σ) : Except (Port.Stop ε) (World σ) := do
  let w ← w.modify p .ier (· &&& ~~~ierTdie)
  releaseCs p w

/-- The module is disabled, to stop the transfer, unless the chip select is to be kept. -/
def stopTransfer (errorFlag : Bool) (w : World σ) : Except (Port.Stop ε) (World σ) :=
  if !w.state.keepCs || errorFlag then w.modify p .cr (· &&& ~~~crMen) else pure w

/-- The end of `Lpspi_Ip_TransferProcess`. -/
def processEnd (errorFlag : Bool) (w : World σ) : Except (Port.Stop ε) (World σ) :=
  if w.state.rxIndex = w.state.expectedFifoReads || errorFlag then do
    let w ← stopTransfer p errorFlag w
    let w ← w.write p .ier 0#32
    pure (channelFinished errorFlag w)
  else pure w

/-- `Lpspi_Ip_TransferProcess`. -/
def transferProcess (w : World σ) : Except (Port.Stop ε) (World σ) :=
  if w.state.status ≠ .busy then pure w
  else do
    let (srStatusRegister, w) ← w.read p .sr
    let w ← w.modify p .sr (· &&& srW1c)
    if Bits.any srStatusRegister (srRef ||| srTef) then processEnd p true w
    else do
      let (_, w) ← receiveData p w
      let (_, w) ← transmitData p (processDone p) w
      processEnd p false w

/-! ## Half-duplex transfers -/

/-- `Lpspi_Ip_HalfDuplexPrepare`. -/
def halfDuplexPrepare (buffer : Buffer) (w : World σ) : Except (Port.Stop ε) (World σ) := do
  let w ← w.modify p .cfgr1 (· &&& ~~~(cfgr1Pcscfg ||| cfgr1Outcfg ||| cfgr1Pincfg))
  let w ← w.modify p .cfgr1 (· ||| w.state.externalDevice.halfDuplexCfgr1)
  let w := w.upd fun st => { st with currentTxFifoSlot := 1 }
  pure (if w.state.externalDevice.transferType = .transmit then
      w.upd fun st => { st with txBuffer := buffer }
    else
      w.upd fun st =>
        let slaveMode := st.phyUnitConfig.slaveMode
        let cmd := transferCommand st.externalDevice
        let cmd := if slaveMode then cmd &&& ~~~tcrCont else cmd
        { st with
          rxBuffer := buffer
          halfDuplexTcrCommand := cmd ||| tcrTxmsk
          currentTxFifoSlot := if slaveMode then 0 else st.currentTxFifoSlot })

/-- `Lpspi_Ip_HalfDuplexPushDataToFifo`. -/
def halfDuplexPushDataToFifo (numberOfWrites : ℕ) (w : World σ) : Except (Port.Stop ε) (World σ) :=
  pushDataToFifo p (min numberOfWrites (w.state.expectedFifoWrites - w.state.txIndex)) w

/-- `Lpspi_Ip_HalfDuplexTransmitProcess`: whether the transfer is completed is returned
    as well. -/
def halfDuplexTransmitProcess (numberOfWrites : ℕ) (w : World σ) :
    Except (Port.Stop ε) (Bool × World σ) :=
  if w.state.expectedFifoWrites ≠ w.state.txIndex then do
    let w ← halfDuplexPushDataToFifo p numberOfWrites w
    pure (false, w)
  else do
    let w ← releaseCs p w
    pure (true, w)

/-- "PUSH CMD": only if the TX FIFO is empty. -/
def pushCommand (w : World σ) : Except (Port.Stop ε) (World σ) := do
  let (fsr, w) ← w.read p .fsr
  if txcount fsr = 0 ∧ w.state.expectedFifoWrites ≠ w.state.txIndex then do
    let w ← w.write p .tcr w.state.halfDuplexTcrCommand
    pure (w.upd fun st => { st with txIndex := st.txIndex + 1 })
  else pure w

/-- The receiving part of a half-duplex transfer, the same in
    `Lpspi_Ip_SyncTransmitHalfDuplex` and in `Lpspi_Ip_TransferProcessHalfDuplex` but for
    the slave mode, in which the latter pushes no command (`push`). Reading no frames
    does nothing. -/
def halfDuplexReceive (push : Bool) (w : World σ) : Except (Port.Stop ε) (World σ) := do
  let (fsr, w) ← w.read p .fsr
  let w ← readDataFromFifo p
    (min (rxcount fsr) (w.state.expectedFifoReads - w.state.rxIndex)) w
  if push then pushCommand p w else pure w

/-- The slots of the TX FIFO that are free, a `uint8`: the field has values up to 7. -/
def freeSlots (fsr : BitVec 32) : ℕ := (fifoSize + 2 ^ 8 - txcount fsr) % 2 ^ 8

/-- If this is the last channel, or the next one receives, a transfer is completed
    only when the TX FIFO is empty. -/
def awaitEmpty (completed : Bool) (w : World σ) : Except (Port.Stop ε) (Bool × World σ) :=
  if completed && (w.state.nextChannelIsRX || !w.state.keepCs) then do
    let (fsr, w) ← w.read p .fsr
    pure (txcount fsr == 0, w)
  else pure (completed, w)

/-- The transmitting part of a pass of the loop of `Lpspi_Ip_SyncTransmitHalfDuplex`:
    whether the transfer is completed is returned as well. It was not before. -/
def halfDuplexTransmit (w : World σ) : Except (Port.Stop ε) (Bool × World σ) := do
  let (fsr, w) ← w.read p .fsr
  if freeSlots fsr ≠ 0 then do
    let (completed, w) ← halfDuplexTransmitProcess p (freeSlots fsr) w
    awaitEmpty p completed w
  else pure (false, w)

/-- `ElapsedTicks` after a pass of the loop of `Lpspi_Ip_SyncTransmitHalfDuplex`: it is set
    to zero in every pass. -/
def halfDuplexElapsed : ℕ := 0 + getElapsed

/-- A pass of the loop of `Lpspi_Ip_SyncTransmitHalfDuplex`. A receiver that is complete
    leaves the loop before the timeout is looked at. -/
def halfDuplexPass (type : HalfDuplexType) (timeoutTicks : ℕ) (w : World σ) :
    Except (Port.Stop ε) (Pass (World σ) (StatusType × World σ)) :=
  if type = .receive then do
    let w ← halfDuplexReceive p true w
    pure (if w.state.expectedFifoReads = w.state.rxIndex then .exit (.success, w)
      else if halfDuplexElapsed ≥ timeoutTicks then .exit (.timeout, w)
      else .next w)
  else do
    let (completed, w) ← halfDuplexTransmit p w
    pure (if halfDuplexElapsed ≥ timeoutTicks then .exit (.timeout, w)
      else if completed then .exit (.success, w)
      else .next w)

/-- `Lpspi_Ip_SyncTransmitHalfDuplex`, with at most `fuel` passes of its loop. The type is
    written to the `DeviceParams` of the caller, to which `State->ExternalDevice` points: the
    device of the caller is the one of the state afterwards, and keeps the type. -/
def syncTransmitHalfDuplex (errata : Bool) (externalDevice : ExternalDevice) (buffer : Buffer)
    (length : ℕ) (type : HalfDuplexType) (timeOut fuel : ℕ) (w : World σ) :
    Except (Port.Stop ε) (Option (StatusType × World σ)) := do
  let w ← w.devAssert (length ≠ 0)
  let w ← checkValidParameters externalDevice length w
  if w.state.status = .busy then pure (some (.fail, w))
  else do
    let w := w.upd fun st =>
      { st with status := .busy, externalDevice := { externalDevice with transferType := type } }
    let w ← halfDuplexPrepare p buffer w
    let w ← w.write p .der 0#32
    let w ← w.write p .ier 0#32
    let w ← transmitTxInit p errata none length w
    let w := if type = .receive then transmitRxInit none length w else w
    let result ← Loop.run (halfDuplexPass p type (microsToTicks timeOut)) fuel w
    pure (result.map fun (status, w) => (status, syncEnd status w))

/-- The interrupts enabled for a half-duplex transfer. A slave that receives only needs those
    of its receiver. -/
def halfDuplexInterrupts (slaveMode : Bool) (type : HalfDuplexType) : ModeType → BitVec 32
  | .polling => 0#32
  | .interrupt =>
    if slaveMode ∧ type = .receive then ierRdie ||| ierReie
    else if type = .transmit then ierTdie ||| ierTeie
    else ierRdie ||| ierTdie ||| ierReie ||| ierTeie

/-- `Lpspi_Ip_AsyncTransmitHalfDuplex`, which also writes to the `DeviceParams` of the
    caller. -/
def asyncTransmitHalfDuplex (errata : Bool) (externalDevice : ExternalDevice) (buffer : Buffer)
    (length : ℕ) (type : HalfDuplexType) (endCallback : Bool) (w : World σ) :
    Except (Port.Stop ε) (StatusType × World σ) := do
  let w ← w.devAssert (length ≠ 0)
  let w ← checkValidParameters externalDevice length w
  if w.state.status = .busy then pure (.fail, w)
  else do
    let w := w.upd fun st =>
      { st with status := .busy, externalDevice := { externalDevice with transferType := type } }
    let w ← halfDuplexPrepare p buffer w
    let w := w.upd fun st => { st with callback := endCallback }
    let w ← transmitTxInit p errata none length w
    let w := if type = .receive then transmitRxInit none length w else w
    let w ← w.write p .fcr
      (fcrTxwater (BitVec.ofNat 32 (if type = .receive then 0 else fifoSize - 1)))
    let w ← w.write p .der 0#32
    let w ← w.write p .ier
      (halfDuplexInterrupts w.state.phyUnitConfig.slaveMode type w.state.transferMode)
    pure (.success, w)

/-- A pass of the loop of `Lpspi_Ip_HalfDupleTransmitChannelComplete`, which is left with
    whether it timed out. -/
def drainPass (timeoutTicks : ℕ) :
    World σ × ℕ → Except (Port.Stop ε) (Pass (World σ × ℕ) (Bool × World σ))
  | (w, elapsedTicks) => do
    let (fsr, w) ← w.read p .fsr
    pure (if txcount fsr ≠ 0 ∧ elapsedTicks < timeoutTicks then .next (w, elapsedTicks + getElapsed)
      else .exit (elapsedTicks ≥ timeoutTicks, w))

/-- The waiting part of `Lpspi_Ip_HalfDupleTransmitChannelComplete`: whether it timed out
    is returned as well. Its loop has at most one pass more than its timeout has ticks. -/
def drain (w : World σ) : Except (Port.Stop ε) (Bool × World σ) := do
  let timeoutTicks := microsToTicks halfDuplexTimeoutCounter
  match ← Loop.run (drainPass p timeoutTicks) (timeoutTicks + 2) (w, 0) with
  | some (true, w) => do
    let w ← w.modify p .cr (· ||| crRtf)
    pure (true, w)
  | some (false, w) => pure (false, w)
  | none => pure (false, w)

/-- `Lpspi_Ip_HalfDupleTransmitChannelComplete`: whether it timed out is returned as
    well. -/
def halfDupleTransmitChannelComplete (w : World σ) : Except (Port.Stop ε) (Bool × World σ) :=
  if w.state.keepCs then
    if w.state.nextChannelIsRX then drain p w else pure (false, w)
  else if w.state.phyUnitConfig.slaveMode then drain p w
  else do
    let w ← clearCs p w
    drain p w

/-- The end of `Lpspi_Ip_TransferProcessHalfDuplex`. -/
def processHalfDuplexEnd (completed errorFlag : Bool) (w : World σ) :
    Except (Port.Stop ε) (World σ) :=
  let type := w.state.externalDevice.transferType
  if (type = .transmit && completed) ||
      (w.state.rxIndex = w.state.expectedFifoReads && type = .receive) || errorFlag then do
    let w ← w.write p .ier 0#32
    pure (channelFinished errorFlag w)
  else pure w

/-- The last frames of a transmitter have been pushed: the channel is completed. -/
def completeIf (completed : Bool) (w : World σ) : Except (Port.Stop ε) (Bool × World σ) :=
  if completed then halfDupleTransmitChannelComplete p w else pure (false, w)

/-- The transmitting part of `Lpspi_Ip_TransferProcessHalfDuplex`. -/
def processTransmit (completed errorFlag : Bool) (w : World σ) :
    Except (Port.Stop ε) (World σ) := do
  let (fsr, w) ← w.read p .fsr
  if freeSlots fsr ≠ 0 ∧ w.state.expectedFifoWrites ≠ w.state.txIndex then do
    let w ← halfDuplexPushDataToFifo p (freeSlots fsr) w
    -- A slave is done when all frames have been pushed.
    if w.state.phyUnitConfig.slaveMode ∧ w.state.expectedFifoWrites = w.state.txIndex then do
      let w ← w.modify p .ier (· &&& ~~~ierTdie)
      processHalfDuplexEnd p true errorFlag w
    else processHalfDuplexEnd p completed errorFlag w
  else processHalfDuplexEnd p completed errorFlag w

/-- `Lpspi_Ip_TransferProcessHalfDuplex`. -/
def transferProcessHalfDuplex (w : World σ) : Except (Port.Stop ε) (World σ) :=
  if w.state.status ≠ .busy then pure w
  else do
    let (srStatusRegister, w) ← w.read p .sr
    let w ← w.modify p .sr (· &&& srW1c)
    let type := w.state.externalDevice.transferType
    if Bits.any srStatusRegister (srRef ||| srTef) then processHalfDuplexEnd p false true w
    else do
      let completed := decide (w.state.expectedFifoWrites = w.state.txIndex ∧ type = .transmit)
      let (errorFlag, w) ← completeIf p completed w
      if type = .receive then do
        let w ← halfDuplexReceive p (!w.state.phyUnitConfig.slaveMode) w
        processHalfDuplexEnd p completed errorFlag w
      else processTransmit p completed errorFlag w

/-! ## Polling and interrupts -/

/-- The processing of a transfer, by its type. -/
def process (w : World σ) : Except (Port.Stop ε) (World σ) :=
  if w.state.externalDevice.transferType ≠ .fullDuplex then transferProcessHalfDuplex p w
  else transferProcess p w

/-- `Lpspi_Ip_ManageBuffers`. The second read of `SR` is only made if the first one has
    not decided. -/
def manageBuffers (w : World σ) : Except (Port.Stop ε) (World σ) :=
  if w.state.transferMode ≠ .polling then pure w
  else do
    let (sr, w) ← w.read p .sr
    if Bits.any sr srRdf then process p w
    else do
      let (sr, w) ← w.read p .sr
      if Bits.any sr srTdf ∧ w.state.currentTxFifoSlot ≠ 0 then process p w else pure w

/-- `Lpspi_Ip_IrqHandler`, of a driver that is initialised. -/
def irqHandler (w : World σ) : Except (Port.Stop ε) (World σ) := do
  let (sr, w) ← w.read p .sr
  let (ier, w) ← w.read p .ier
  let irqFlags := sr &&& (srTdf ||| srRdf ||| srTef ||| srRef) &&&
    (ier &&& (ierTdie ||| ierRdie ||| ierTeie ||| ierReie))
  if irqFlags ≠ 0#32 then process p w else pure w

/-- `Lpspi_Ip_Cancel`. `CFGR1` is read after the module is disabled. -/
def cancel (w : World σ) : Except (Port.Stop ε) (World σ) :=
  if w.state.status ≠ .busy then pure w
  else do
    let w ← w.modify p .cr (· &&& ~~~crMen)
    let w ← errataHandle p w
    pure (w.upd fun st => { st with status := .idle })

end Functions

end S32K358.LpspiIp
