import S32K358.LpspiIp.Flight

/-!
# Requests

A transfer is requested of a driver that is at rest (`Rested`), as it is after its
initialisation (`init_device`). What is requested (`Request`) is the same for synchronous
and asynchronous transfers. A valid request starts a transfer of its frames
(`Request.Valid.transfer`).
-/

namespace S32K358.LpspiIp

open Lpspi (Reg SsiBus State Settled bytesPerFrame rxmsk pcs)
open Program Port

variable {n : ℕ} {β : Type}

/-! ## The initialisation -/

/-- The driver is initialised with the configuration. -/
structure Configured (config : Config) (keepCs : Bool) (st : StateStructure) : Prop where
  firstCmd : st.firstCmd = true
  config_eq : st.phyUnitConfig = config
  mode_eq : st.transferMode = config.transferMode
  keepCs_eq : st.keepCs = keepCs

/-- The driver is not in a transfer, and the device has the view `x`. -/
structure Rested (config : Config) (keepCs : Bool) (x : View n β) (w : World (State n β)) :
    Prop where
  configured : Configured config keepCs w.state
  status_ne : w.state.status ≠ .busy
  settled : Settled w.hw
  view_eq : view w.hw = x
  cr : Bits.any x.cr crRst = false
  watermark : x.rxWatermark = 0

/-- The view after the initialisation. -/
def View.inited (bus : SsiBus β) (config : Config) (x : View n β) : View n β :=
  { (if Bits.any (config.cr ||| crDbgen) crRst then x.reset bus
      else x.control (config.cr ||| crDbgen)) with
    cfgr1 := config.cfgr1
    rxWatermark := 0 }

theorem View.inited_cr (bus : SsiBus β) (config : Config) (x : View n β) :
    Bits.any (x.inited bus config).cr crRst = false := by
  rw [View.inited]
  dsimp only
  split_ifs
  · exact Bits.any_zero_left _
  · exact (x.any_control _).1

variable {bus : SsiBus β} {st : StateStructure} {x : View n β} {w : World (State n β)}
  {errata : Bool}

theorem init_device (bus : SsiBus β) (config : Config) (hs : Settled w.hw) :
    Ends NoError (init (device bus) config w)
      (Rested config false ((view w.hw).inited bus config)) := by
  have hcr : Ends NoError (w.write (device bus) .cr (config.cr ||| crDbgen)) (Shows w.state
      (if Bits.any (config.cr ||| crDbgen) crRst then (view w.hw).reset bus
        else (view w.hw).control (config.cr ||| crDbgen))) := by
    refine Shows.write ⟨rfl, hs, rfl⟩ ?_
    split_ifs with hrst
    · exact write_cr_rst hs hrst
    · exact write_cr hs (Bool.not_eq_true _ ▸ hrst)
  rw [init]
  refine hcr.bind fun w₁ h₁ => ?_
  have hcfgr1 := write_cfgr1 bus config.cfgr1 h₁.settled
  rw [h₁.view_eq] at hcfgr1
  refine (h₁.write hcfgr1).bind fun w₂ h₂ => ?_
  have hfcr := write_fcr bus (fcrTxwater (BitVec.ofNat 32 (fifoSize - 2))) h₂.settled
  rw [h₂.view_eq] at hfcr
  refine (h₂.write hfcr).bind fun w₃ h₃ => ends_pure ?_
  exact {
    configured := ⟨rfl, rfl, rfl, rfl⟩
    status_ne := HwStatusType.noConfusion
    settled := h₃.settled
    view_eq := h₃.view_eq
    cr := (view w.hw).inited_cr bus config
    watermark := rfl }

/-! ## Requests -/

/-- What is to be transferred, and with which peripheral. -/
structure Request where
  device : ExternalDevice
  txBuffer : Buffer
  rxBuffer : Buffer
  length : ℕ

namespace Request

variable (q : Request)

/-- The frames of the transfer. -/
def frames : ℕ := expectedFrames q.device.frameSize q.length

/-- The request is one of a full-duplex transfer of whole frames, in the bounds of its
    buffers, with a command that has a frame size and a chip select that the device with `n`
    of them knows, and that does not make it mask the data received. -/
structure Valid (n : ℕ) (slaveMode : Bool) : Prop where
  fullDuplex : q.device.transferType = .fullDuplex
  length_ne_zero : q.length ≠ 0
  length_mod : q.length % frameWidth q.device.frameSize = 0
  le_tx : ∀ b, q.txBuffer = some b → q.length ≤ b.length
  le_rx : ∀ b, q.rxBuffer = some b → q.length ≤ b.length
  bytes_ne_zero : bytesPerFrame (command slaveMode q.device) ≠ 0
  unmasked : rxmsk (command slaveMode q.device) = false
  pcs_lt : pcs (command slaveMode q.device) < n

end Request

/-- The variables at the start of a transfer. -/
def prepared (st : StateStructure) (q : Request) : StateStructure :=
  { st with
    status := .busy
    externalDevice := q.device
    currentTxFifoSlot := fifoSize - 1
    txIndex := 0
    txBuffer := q.txBuffer
    expectedFifoWrites := q.frames
    rxIndex := 0
    rxBuffer := q.rxBuffer
    expectedFifoReads := q.frames }

variable {q : Request} {slaveMode : Bool}

theorem expectedFrames_pos {frameSize length : ℕ} (hmod : length % frameWidth frameSize = 0)
    (hlen : length ≠ 0) : 0 < expectedFrames frameSize length := by
  refine Nat.pos_of_ne_zero fun h0 => hlen ?_
  rw [← width_mul_expectedFrames hmod, h0, Nat.mul_zero]

theorem Request.Valid.frames_pos (hq : q.Valid n slaveMode) : 0 < q.frames :=
  expectedFrames_pos hq.length_mod hq.length_ne_zero

theorem Request.Valid.sends (hq : q.Valid n slaveMode) : q.device.transferType ≠ .receive := by
  rw [hq.fullDuplex]
  exact HalfDuplexType.noConfusion

/-- The transfer of a valid request, from its start. -/
theorem Request.Valid.transfer (hq : q.Valid n slaveMode) :
    Transfer (prepared st q) (x.started bus errata (command slaveMode q.device)) q.frames := by
  obtain ⟨-, -, htcr, -, hrx, -, hcalm⟩ :=
    x.started_frame bus errata (command slaveMode q.device)
  have hwords := width_mul_expectedFrames hq.length_mod
  exact {
    ready := x.started_open bus hq.unmasked hq.pcs_lt
    rx_eq := hrx
    calm := hcalm
    bytes_ne_zero := by
      rw [htcr]
      exact hq.bytes_ne_zero
    writes_eq := rfl
    reads_eq := rfl
    fits_tx := fun b hb => hwords.trans_le (hq.le_tx b hb)
    fits_rx := fun b hb => hwords.trans_le (hq.le_rx b hb) }

/-- The frames are looped back to the device. -/
def loopConfig : Config := ⟨0#32, 0x101#32, false, .polling⟩

/-- Some bytes are sent, and as many received. -/
def byteRequest (tx : List (BitVec 8)) : Request :=
  ⟨byteDevice, some tx, some (List.replicate tx.length 0#8), tx.length⟩

theorem valid_byteRequest {tx : List (BitVec 8)} (h : tx ≠ []) :
    (byteRequest tx).Valid 1 loopConfig.slaveMode where
  fullDuplex := rfl
  length_ne_zero := mt List.length_eq_zero_iff.1 h
  length_mod := Nat.mod_one _
  le_tx := by
    rintro _ ⟨⟩
    exact le_rfl
  le_rx := by
    rintro _ ⟨⟩
    exact (List.length_replicate ..).ge
  bytes_ne_zero := show bytesPerFrame (command false byteDevice) ≠ 0 by decide
  unmasked := show rxmsk (command false byteDevice) = false by decide
  pcs_lt := show pcs (command false byteDevice) < 1 by decide

end S32K358.LpspiIp
