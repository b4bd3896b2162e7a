import S32K358.Lib.Mealy
import S32K358.LpspiIp.Async

/-!
# External devices in shared memory

`State->ExternalDevice` is a pointer to a device of the application, whose `DeviceParams` the
driver reads whenever it needs them, and also writes: those of half-duplex transfers get the
`TransferType` of the call, and there are functions to update the others. The model of the
driver has a copy of the device instead. Here the devices are in the memory of an application
that calls the driver in any way (`App`), on any hardware.

* `run_linked`: during a transfer, the copy is what the pointer points to, as no call that
  writes to a device is accepted then;
* `run_transferType`: only half-duplex transfers write a `TransferType`, and nothing sets it
  back;
* `transmit_ignores_buffers`: so, after a half-duplex transfer, even one that failed or was
  cancelled, the full-duplex calls with the same device ignore the buffers that they are
  given.
-/

namespace S32K358.LpspiIp

open Lpspi (Reg)
open Program Port

/-! ## What no function changes -/

/-- The variables that are written at the start of a transfer, or not at all. -/
structure Fixed where
  externalDevice : ExternalDevice
  phyUnitConfig : Config
  keepCs : Bool
  firstCmd : Bool

def StateStructure.fixed (st : StateStructure) : Fixed :=
  ⟨st.externalDevice, st.phyUnitConfig, st.keepCs, st.firstCmd⟩

/-- A transfer with another device. -/
def Fixed.on (c : Fixed) (d : ExternalDevice) : Fixed := { c with externalDevice := d }

variable {ε σ : Type}

/-- These variables have the values `c`. -/
def Holds (c : Fixed) (w : World σ) : Prop := w.state.fixed = c

namespace Holds

variable {p : Port Reg ε σ} {c : Fixed} {w : World σ}

theorem upd (h : Holds c w) {f : StateStructure → StateStructure}
    (hf : ∀ st, (f st).fixed = st.fixed) : Holds c (w.upd f) := (hf w.state).trans h

theorem of_state {w' : World σ} (h : Holds c w) (hw : w'.state = w.state) : Holds c w' :=
  (congrArg StateStructure.fixed hw).trans h

theorem read (h : Holds c w) (r : Reg) : Ends AnyError (w.read p r) fun y => Holds c y.2 :=
  (World.read_keeps r).mono fun _ => h.of_state

theorem write (h : Holds c w) (r : Reg) (v : BitVec 32) :
    Ends AnyError (w.write p r v) (Holds c) := (World.write_keeps r v).mono fun _ => h.of_state

theorem modify (h : Holds c w) (r : Reg) (f : BitVec 32 → BitVec 32) :
    Ends AnyError (w.modify p r f) (Holds c) := by
  refine (h.read r).bind ?_
  rintro ⟨v, w₁⟩ h₁
  exact h₁.write r (f v)

theorem ite {w' : World σ} {P : Prop} [Decidable P] (h : Holds c w) (h' : Holds c w') :
    Holds c (if P then w' else w) := by
  split_ifs
  · exact h'
  · exact h

/-! ### Frames -/

theorem storeData (h : Holds c w) (i : ℕ) (data : BitVec 32) :
    Ends AnyError (storeData w i data : Except (Stop ε) _) (Holds c) := by
  rw [LpspiIp.storeData]
  cases w.state.rxBuffer with
  | none => exact h
  | some b =>
    dsimp only
    cases LpspiIp.store (frameWidth w.state.externalDevice.frameSize) b i data with
    | none => exact trivial
    | some b' => exact h.upd fun _ => rfl

theorem readFrames (h : Holds c w) (k i : ℕ) : Ends AnyError (readFrames p k i w) (Holds c) := by
  induction k generalizing i w with
  | zero => exact h
  | succ k ih =>
    refine (h.read .rdr).bind ?_
    rintro ⟨data, w₁⟩ h₁
    exact (h₁.storeData i data).bind fun w₂ h₂ => ih h₂ (i + 1)

theorem readDataFromFifo (h : Holds c w) (k : ℕ) :
    Ends AnyError (readDataFromFifo p k w) (Holds c) :=
  (h.readFrames k _).bind fun _ h₁ => ends_pure (h₁.upd fun _ => rfl)

theorem pushFrames (h : Holds c w) (k i : ℕ) : Ends AnyError (pushFrames p k i w) (Holds c) := by
  induction k generalizing i w with
  | zero => exact h
  | succ k ih =>
    refine ends_trivial.bind fun data _ => ?_
    exact (h.write .tdr data).bind fun w₁ h₁ => ih h₁ (i + 1)

theorem pushDataToFifo (h : Holds c w) (k : ℕ) : Ends AnyError (pushDataToFifo p k w) (Holds c) :=
  (h.pushFrames k _).bind fun _ h₁ => ends_pure (h₁.upd fun _ => rfl)

/-! ### The start of a transfer -/

theorem errataHandle (h : Holds c w) : Ends AnyError (errataHandle p w) (Holds c) := by
  refine (h.read .cfgr1).bind ?_
  rintro ⟨cfgr1, w₁⟩ h₁
  refine (h₁.modify .cr _).bind fun w₂ h₂ => ?_
  exact (h₂.modify .cr _).bind fun w₃ h₃ => h₃.write .cfgr1 cfgr1

theorem emptyFifos (h : Holds c w) (errata : Bool) :
    Ends AnyError (emptyFifos p errata w) (Holds c) :=
  ends_ite (fun _ => h.errataHandle) fun _ => h.modify .cr _

theorem firstCmdInit (h : Holds c w) (errata : Bool) :
    Ends AnyError (firstCmdInit p errata w) (Holds c) := by
  refine ends_ite (fun _ => h) fun _ => ?_
  refine (h.modify .cr _).bind fun w₁ h₁ => (h₁.emptyFifos errata).bind fun w₂ h₂ => ?_
  refine (h₂.modify .sr _).bind fun w₃ h₃ => ends_ite (fun _ => h₃) fun _ => ?_
  exact (h₃.write .ccr _).bind fun w₄ h₄ => h₄.modify .cr _

theorem enableSlave (h : Holds c w) : Ends AnyError (enableSlave p w) (Holds c) :=
  ends_ite (fun _ => h.modify .cr _) fun _ => h

theorem commandInit (h : Holds c w) : Ends AnyError (commandInit p w) (Holds c) := by
  refine ends_ite (fun _ => ?_) fun _ => ends_ite (fun _ => ?_) fun _ => h
  · refine (h.write .tcr _).bind fun w₁ h₁ => h₁.enableSlave.bind fun w₂ h₂ => ends_pure ?_
    exact h₂.ite (h₂.upd fun _ => rfl)
  · exact (h.write .tcr _).bind fun w₁ h₁ => h₁.enableSlave

theorem transmitTxInit (h : Holds c w) (errata : Bool) (tx : Buffer) (length : ℕ) :
    Ends AnyError (transmitTxInit p errata tx length w) (Holds c) :=
  (h.firstCmdInit errata).bind fun _ h₁ => h₁.commandInit.bind fun _ h₂ =>
    ends_pure (h₂.upd fun _ => rfl)

theorem transmitRxInit (h : Holds c w) (rx : Buffer) (length : ℕ) :
    Holds c (transmitRxInit rx length w) := h.upd fun _ => rfl

/-! ### The parts of a transfer -/

theorem receiveData (h : Holds c w) :
    Ends AnyError (receiveData p w) fun y => Holds c y.2 := by
  refine (h.read .fsr).bind ?_
  rintro ⟨fsr, w₁⟩ h₁
  have hfree : Holds c (freeCommandSlot w₁) := Holds.upd h₁ fun _ => rfl
  refine ends_ite (fun _ => h₁) fun _ => ?_
  exact (hfree.readDataFromFifo _).bind fun w₂ h₂ => ends_pure (h₂.upd fun _ => rfl)

theorem clearCs (h : Holds c w) : Ends AnyError (clearCs p w) (Holds c) := h.modify .tcr _

theorem releaseCs (h : Holds c w) : Ends AnyError (releaseCs p w) (Holds c) := by
  refine ends_ite (fun _ => h) fun _ => (h.read .tcr).bind ?_
  rintro ⟨tcr, w₁⟩ h₁
  exact ends_ite (fun _ => h₁.clearCs) fun _ => h₁

theorem transmitData (h : Holds c w) {done : World σ → Except (Stop ε) (World σ)}
    (hdone : ∀ w, Holds c w → Ends AnyError (done w) (Holds c)) :
    Ends AnyError (transmitData p done w) fun y => Holds c y.2 := by
  refine ends_ite (fun _ => h) fun _ => ends_ite (fun _ => ?_) fun _ => ?_
  · exact (h.pushDataToFifo _).bind fun w₁ h₁ => ends_pure (h₁.upd fun _ => rfl)
  · exact (hdone w h).bind fun w₁ h₁ => ends_pure h₁

/-! ### Full-duplex transfers -/

/-- A loop is left with a status other than `fail`. -/
def Left (c : Fixed) (y : StatusType × World σ) : Prop := y.1 ≠ .fail ∧ Holds c y.2

theorem syncPass {w : World σ} {e : ℕ} (h : Holds c w) (timeOut : ℕ) :
    Ends AnyError (syncPass p timeOut (w, e)) (Loop.Keeps (fun s => Holds c s.1) (Left c)) := by
  refine ends_ite (fun _ => ⟨StatusType.noConfusion, h⟩) fun _ => h.receiveData.bind ?_
  rintro ⟨received, w₁⟩ h₁
  refine (transmitData h₁ fun w hw => hw.releaseCs).bind ?_
  rintro ⟨transmitted, w₂⟩ h₂
  exact ends_pure (.ite (fun _ => ⟨StatusType.noConfusion, h₂⟩) fun _ => h₂)

theorem processDone (h : Holds c w) : Ends AnyError (processDone p w) (Holds c) :=
  (h.modify .ier _).bind fun _ h₁ => h₁.releaseCs

theorem channelFinished (h : Holds c w) (errorFlag : Bool) :
    Holds c (channelFinished errorFlag w) := h.upd fun _ => rfl

theorem processEnd (h : Holds c w) (errorFlag : Bool) :
    Ends AnyError (processEnd p errorFlag w) (Holds c) := by
  refine ends_ite (fun _ => ?_) fun _ => h
  have hstop : Ends AnyError (stopTransfer p errorFlag w) (Holds c) :=
    ends_ite (fun _ => h.modify .cr _) fun _ => h
  refine hstop.bind fun w₁ h₁ => (h₁.write .ier 0#32).bind fun w₂ h₂ => ?_
  exact ends_pure (h₂.channelFinished errorFlag)

theorem transferProcess (h : Holds c w) : Ends AnyError (transferProcess p w) (Holds c) := by
  refine ends_ite (fun _ => h) fun _ => (h.read .sr).bind ?_
  rintro ⟨sr, w₁⟩ h₁
  refine (h₁.modify .sr _).bind fun w₂ h₂ => ends_ite (fun _ => h₂.processEnd true) fun _ => ?_
  refine h₂.receiveData.bind ?_
  rintro ⟨_, w₃⟩ h₃
  refine (transmitData h₃ fun w hw => hw.processDone).bind ?_
  rintro ⟨_, w₄⟩ h₄
  exact processEnd h₄ false

/-! ### Half-duplex transfers -/

theorem halfDuplexPrepare (h : Holds c w) (buffer : Buffer) :
    Ends AnyError (halfDuplexPrepare p buffer w) (Holds c) := by
  refine (h.modify .cfgr1 _).bind fun w₁ h₁ => (h₁.modify .cfgr1 _).bind fun w₂ h₂ => ?_
  have h₃ : Holds c (w₂.upd fun st => { st with currentTxFifoSlot := 1 }) := h₂.upd fun _ => rfl
  refine ends_pure ?_
  split_ifs
  · exact h₃.upd fun _ => rfl
  · exact h₃.upd fun _ => rfl

theorem halfDuplexTransmitProcess (h : Holds c w) (k : ℕ) :
    Ends AnyError (halfDuplexTransmitProcess p k w) fun y => Holds c y.2 := by
  refine ends_ite (fun _ => ?_) fun _ => ?_
  · exact (h.pushDataToFifo _).bind fun w₁ h₁ => ends_pure h₁
  · exact h.releaseCs.bind fun w₁ h₁ => ends_pure h₁

theorem pushCommand (h : Holds c w) : Ends AnyError (pushCommand p w) (Holds c) := by
  refine (h.read .fsr).bind ?_
  rintro ⟨fsr, w₁⟩ h₁
  refine ends_ite (fun _ => ?_) fun _ => h₁
  exact (h₁.write .tcr _).bind fun w₂ h₂ => ends_pure (h₂.upd fun _ => rfl)

theorem halfDuplexReceive (h : Holds c w) (push : Bool) :
    Ends AnyError (halfDuplexReceive p push w) (Holds c) := by
  refine (h.read .fsr).bind ?_
  rintro ⟨fsr, w₁⟩ h₁
  refine (readDataFromFifo h₁ _).bind fun w₂ h₂ => ?_
  exact ends_ite (fun _ => h₂.pushCommand) fun _ => h₂

theorem awaitEmpty (h : Holds c w) (completed : Bool) :
    Ends AnyError (awaitEmpty p completed w) fun y => Holds c y.2 := by
  refine ends_ite (fun _ => (h.read .fsr).bind ?_) fun _ => h
  rintro ⟨fsr, w₁⟩ h₁
  exact h₁

theorem halfDuplexTransmit (h : Holds c w) :
    Ends AnyError (halfDuplexTransmit p w) fun y => Holds c y.2 := by
  refine (h.read .fsr).bind ?_
  rintro ⟨fsr, w₁⟩ h₁
  refine ends_ite (fun _ => (halfDuplexTransmitProcess h₁ _).bind ?_) fun _ => h₁
  rintro ⟨completed, w₂⟩ h₂
  exact awaitEmpty h₂ completed

theorem halfDuplexPass (h : Holds c w) (type : HalfDuplexType) (timeOut : ℕ) :
    Ends AnyError (halfDuplexPass p type timeOut w) (Loop.Keeps (Holds c) (Left c)) := by
  refine ends_ite (fun _ => (h.halfDuplexReceive true).bind fun w₁ h₁ => ?_)
    fun _ => h.halfDuplexTransmit.bind ?_
  · exact ends_pure (.ite (fun _ => ⟨StatusType.noConfusion, h₁⟩) fun _ =>
      .ite (fun _ => ⟨StatusType.noConfusion, h₁⟩) fun _ => h₁)
  · rintro ⟨completed, w₁⟩ h₁
    exact ends_pure (.ite (fun _ => ⟨StatusType.noConfusion, h₁⟩) fun _ =>
      .ite (fun _ => ⟨StatusType.noConfusion, h₁⟩) fun _ => h₁)

theorem drainPass {w : World σ} {e : ℕ} (h : Holds c w) (timeOut : ℕ) :
    Ends AnyError (drainPass p timeOut (w, e))
      (Loop.Keeps (fun s => Holds c s.1) fun r => Holds c r.2) := by
  refine (h.read .fsr).bind ?_
  rintro ⟨fsr, w₁⟩ h₁
  exact ends_pure (.ite (fun _ => h₁) fun _ => h₁)

theorem drain (h : Holds c w) : Ends AnyError (drain p w) fun y => Holds c y.2 := by
  have hloop : ∀ t k, Ends AnyError (Loop.run (LpspiIp.drainPass p t) k (w, 0)) _ := fun t k =>
    Loop.run_keeps (I := fun s => Holds c s.1) (fun s hs => drainPass hs t) h k
  refine (hloop _ _).bind fun r hr => ?_
  rcases r with _ | ⟨_ | _, w₁⟩
  · exact h
  · exact hr _ rfl
  · exact (modify (hr _ rfl) .cr _).bind fun w₂ h₂ => ends_pure h₂

theorem halfDupleTransmitChannelComplete (h : Holds c w) :
    Ends AnyError (halfDupleTransmitChannelComplete p w) fun y => Holds c y.2 := by
  refine ends_ite (fun _ => ends_ite (fun _ => h.drain) fun _ => h) fun _ => ?_
  exact ends_ite (fun _ => h.drain) fun _ => h.clearCs.bind fun w₁ h₁ => h₁.drain

theorem processHalfDuplexEnd (h : Holds c w) (completed errorFlag : Bool) :
    Ends AnyError (processHalfDuplexEnd p completed errorFlag w) (Holds c) := by
  refine ends_ite (fun _ => ?_) fun _ => h
  exact (h.write .ier 0#32).bind fun w₁ h₁ => ends_pure (h₁.channelFinished errorFlag)

theorem processTransmit (h : Holds c w) (completed errorFlag : Bool) :
    Ends AnyError (processTransmit p completed errorFlag w) (Holds c) := by
  refine (h.read .fsr).bind ?_
  rintro ⟨fsr, w₁⟩ h₁
  refine ends_ite (fun _ => ?_) fun _ => processHalfDuplexEnd h₁ completed errorFlag
  refine (pushDataToFifo h₁ _).bind fun w₂ h₂ => ends_ite (fun _ => ?_) fun _ =>
    h₂.processHalfDuplexEnd completed errorFlag
  exact (h₂.modify .ier _).bind fun w₃ h₃ => h₃.processHalfDuplexEnd true errorFlag

theorem transferProcessHalfDuplex (h : Holds c w) :
    Ends AnyError (transferProcessHalfDuplex p w) (Holds c) := by
  refine ends_ite (fun _ => h) fun _ => (h.read .sr).bind ?_
  rintro ⟨sr, w₁⟩ h₁
  refine (h₁.modify .sr _).bind fun w₂ h₂ =>
    ends_ite (fun _ => h₂.processHalfDuplexEnd false true) fun _ => ?_
  have hcomplete : ∀ completed, Ends AnyError (completeIf p completed w₂) fun y => Holds c y.2 :=
    fun completed => ends_ite (fun _ => h₂.halfDupleTransmitChannelComplete) fun _ => h₂
  refine (hcomplete _).bind ?_
  rintro ⟨errorFlag, w₃⟩ h₃
  refine ends_ite (fun _ => ?_) fun _ => processTransmit h₃ _ errorFlag
  exact (halfDuplexReceive h₃ _).bind fun w₄ h₄ => h₄.processHalfDuplexEnd _ errorFlag

/-! ### Polling and interrupts -/

theorem process (h : Holds c w) : Ends AnyError (process p w) (Holds c) :=
  ends_ite (fun _ => h.transferProcessHalfDuplex) fun _ => h.transferProcess

theorem manageBuffers (h : Holds c w) : Ends AnyError (manageBuffers p w) (Holds c) := by
  refine ends_ite (fun _ => h) fun _ => (h.read .sr).bind ?_
  rintro ⟨sr, w₁⟩ h₁
  refine ends_ite (fun _ => h₁.process) fun _ => (h₁.read .sr).bind ?_
  rintro ⟨sr', w₂⟩ h₂
  exact ends_ite (fun _ => process h₂) fun _ => h₂

theorem irqHandler (h : Holds c w) : Ends AnyError (irqHandler p w) (Holds c) := by
  refine (h.read .sr).bind ?_
  rintro ⟨sr, w₁⟩ h₁
  refine (h₁.read .ier).bind ?_
  rintro ⟨ier, w₂⟩ h₂
  exact ends_ite (fun _ => process h₂) fun _ => h₂

theorem cancel (h : Holds c w) : Ends AnyError (cancel p w) (Holds c) := by
  refine ends_ite (fun _ => h) fun _ => (h.modify .cr _).bind fun w₁ h₁ => ?_
  exact h₁.errataHandle.bind fun w₂ h₂ => ends_pure (h₂.upd fun _ => rfl)

end Holds

/-! ## The application -/

/-- `LPSPI_IP_FRAMESIZE_MIN_U16` and `LPSPI_IP_FRAMESIZE_MAX_U16`. -/
def framesizeMin : ℕ := 1
def framesizeMax : ℕ := 64

/-- The external devices of the application, and the driver. -/
structure App (ι σ : Type) where
  devices : ι → ExternalDevice
  world : World σ

/-- A call of the driver, with the device that it is given a pointer to. -/
inductive Op (ι : Type)
  | syncTransmit (d : ι) (tx rx : Buffer) (length timeOut : ℕ)
  | syncTransmitHalfDuplex (d : ι) (buffer : Buffer) (length : ℕ) (type : HalfDuplexType)
      (timeOut : ℕ)
  | asyncTransmit (d : ι) (tx rx : Buffer) (length : ℕ) (endCallback : Bool)
  | asyncTransmitHalfDuplex (d : ι) (buffer : Buffer) (length : ℕ) (type : HalfDuplexType)
      (endCallback : Bool)
  | manageBuffers
  | irqHandler
  | cancel
  | updateFrameSize (d : ι) (frameSize : ℕ)
  | updateLsb (d : ι) (lsb : Bool)
  | updateDefaultTransmitData (d : ι) (defaultData : BitVec 32)
  | updateTransferMode (mode : ModeType)

/-- The functions that update a parameter of a device do nothing else, and nothing at all
    during a transfer. -/
def updateStatus (w : World σ) : StatusType := if w.state.status ≠ .busy then .success else .fail

section Machine

variable {ι : Type} (p : Port Reg ε σ) (errata : Bool) (fuel : ℕ)

/-- The call itself. -/
def Op.call (devices : ι → ExternalDevice) (w : World σ) :
    Op ι → Except (Halt ε) (StatusType × World σ)
  | .syncTransmit d tx rx length timeOut =>
    Halt.ofLoop (LpspiIp.syncTransmit p errata (devices d) tx rx length timeOut fuel w)
  | .syncTransmitHalfDuplex d buffer length type timeOut =>
    Halt.ofLoop
      (LpspiIp.syncTransmitHalfDuplex p errata (devices d) buffer length type timeOut fuel w)
  | .asyncTransmit d tx rx length endCallback =>
    Halt.ofStop (LpspiIp.asyncTransmit p errata (devices d) tx rx length endCallback w)
  | .asyncTransmitHalfDuplex d buffer length type endCallback =>
    Halt.ofStop
      (LpspiIp.asyncTransmitHalfDuplex p errata (devices d) buffer length type endCallback w)
  | .manageBuffers => (Halt.ofStop (LpspiIp.manageBuffers p w)).map (.success, ·)
  | .irqHandler => (Halt.ofStop (LpspiIp.irqHandler p w)).map (.success, ·)
  | .cancel => (Halt.ofStop (LpspiIp.cancel p w)).map (.success, ·)
  | .updateFrameSize _ frameSize => Halt.ofStop do
    let w ← w.devAssert (framesizeMax ≥ frameSize)
    let w ← w.devAssert (framesizeMin ≤ frameSize)
    pure (updateStatus w, w)
  | .updateLsb _ _ => .ok (updateStatus w, w)
  | .updateDefaultTransmitData _ _ => .ok (updateStatus w, w)
  | .updateTransferMode mode => .ok (updateStatus w,
      if w.state.status ≠ .busy then w.upd fun st => { st with transferMode := mode } else w)

/-- What a call that is accepted writes to the device that it is given. -/
def Op.write : Op ι → ExternalDevice → ExternalDevice
  | .syncTransmitHalfDuplex _ _ _ type _, d => { d with transferType := type }
  | .asyncTransmitHalfDuplex _ _ _ type _, d => { d with transferType := type }
  | .updateFrameSize _ frameSize, d => { d with frameSize := frameSize }
  | .updateLsb _ lsb, d => { d with lsb := lsb }
  | .updateDefaultTransmitData _ defaultData, d => { d with defaultData := defaultData }
  | _, d => d

/-- The device that a call is given. -/
def Op.device? : Op ι → Option ι
  | .syncTransmit d _ _ _ _ | .syncTransmitHalfDuplex d _ _ _ _ | .asyncTransmit d _ _ _ _
  | .asyncTransmitHalfDuplex d _ _ _ _ | .updateFrameSize d _ | .updateLsb d _
  | .updateDefaultTransmitData d _ => some d
  | .manageBuffers | .irqHandler | .cancel | .updateTransferMode _ => none

variable [DecidableEq ι]

/-- The devices after a call: it is accepted unless there is a transfer. -/
def App.written (a : App ι σ) (o : Op ι) : ι → ExternalDevice :=
  if a.world.state.status = .busy then a.devices
  else fun d => if o.device? = some d then o.write (a.devices d) else a.devices d

def App.step (a : App ι σ) (o : Op ι) : Except (Halt ε) (StatusType × App ι σ) := do
  let (status, w) ← o.call p errata fuel a.devices a.world
  pure (status, ⟨a.written o, w⟩)

def App.run (a : App ι σ) (os : List (Op ι)) :
    Except (Halt ε) (List (Mealy.Transition (App ι σ) (Op ι) StatusType) × App ι σ) :=
  Mealy.run (App.step p errata fuel) a os

end Machine

/-! ## The device of a transfer -/

section Linked

variable {ι : Type} {p : Port Reg ε σ} {errata : Bool} {fuel : ℕ} {d : ExternalDevice}
  {w : World σ} {o : Op ι}

/-- What a call with the device `d` comes to: it fails during a transfer, and is accepted
    otherwise. -/
def CallOn (d : ExternalDevice) (w : World σ) (y : StatusType × World σ) : Prop :=
  if w.state.status = .busy then y = (.fail, w) else Holds.Left (w.state.fixed.on d) y

theorem callOn_busy (h : w.state.status = .busy) : CallOn d w (.fail, w) := by
  rw [CallOn, if_pos h]

theorem callOn_idle {y : StatusType × World σ} (h : w.state.status ≠ .busy)
    (hy : Holds.Left (w.state.fixed.on d) y) : CallOn d w y := by
  rw [CallOn, if_neg h]
  exact hy

theorem checkValidParameters_ends (d : ExternalDevice) (length : ℕ) :
    Ends AnyError (checkValidParameters d length w : Except (Stop ε) _) (· = w) :=
  ends_ite (fun _ => World.ends_devAssert _) fun _ =>
    ends_ite (fun _ => World.ends_devAssert _) fun _ => rfl

/-- The end of a synchronous call. -/
theorem callOn_syncEnd (h : w.state.status ≠ .busy) {r : Option (StatusType × World σ)}
    (hr : ∀ y, r = some y → Holds.Left (w.state.fixed.on d) y) :
    ∀ y, (r.map fun y => (y.1, syncEnd y.1 y.2)) = some y → CallOn d w y := by
  intro y hy
  obtain ⟨z, hz, rfl⟩ := Option.map_eq_some_iff.1 hy
  exact callOn_idle h ⟨(hr z hz).1, (hr z hz).2.upd fun _ => rfl⟩

theorem callOn_syncTransmit (tx rx : Buffer) (length timeOut : ℕ) :
    Ends AnyError (syncTransmit p errata d tx rx length timeOut fuel w) fun r =>
      ∀ y, r = some y → CallOn d w y := by
  refine (World.ends_devAssert _).bind ?_
  rintro _ rfl
  refine (World.ends_devAssert _).bind ?_
  rintro _ rfl
  refine (checkValidParameters_ends d length).bind ?_
  rintro w rfl
  refine ends_ite (fun hbusy => ?_) fun hidle => ?_
  · rintro _ ⟨⟩
    exact callOn_busy hbusy
  · have h₀ : Holds (w.state.fixed.on d)
        (w.upd fun st => { st with status := .busy, externalDevice := d }) := rfl
    have hprepare : Ends AnyError (syncPrepare p errata d tx rx length w)
        (Holds (w.state.fixed.on d)) := by
      refine (h₀.write .der 0#32).bind fun w₁ h₁ => (h₁.write .ier 0#32).bind fun w₂ h₂ => ?_
      have h₃ : Holds _ (w₂.upd fun st => { st with currentTxFifoSlot := fifoSize }) :=
        h₂.upd fun _ => rfl
      exact (h₃.transmitTxInit errata tx length).bind fun w₄ h₄ =>
        ends_pure (h₄.transmitRxInit rx length)
    refine hprepare.bind fun w₁ h₁ => ?_
    refine (Loop.run_keeps (I := fun s => Holds (w.state.fixed.on d) s.1)
      (fun s hs => hs.syncPass _) h₁ fuel).bind fun r hr => ends_pure (callOn_syncEnd hidle hr)

/-- The variables at the start of a half-duplex transfer. -/
theorem halfDuplex_start (w : World σ) (d : ExternalDevice) (type : HalfDuplexType) :
    Holds (w.state.fixed.on { d with transferType := type }) (w.upd fun st =>
      { st with status := .busy, externalDevice := { d with transferType := type } }) := rfl

theorem callOn_syncTransmitHalfDuplex (buffer : Buffer) (length : ℕ) (type : HalfDuplexType)
    (timeOut : ℕ) :
    Ends AnyError (syncTransmitHalfDuplex p errata d buffer length type timeOut fuel w) fun r =>
      ∀ y, r = some y → CallOn { d with transferType := type } w y := by
  refine (World.ends_devAssert _).bind ?_
  rintro _ rfl
  refine (checkValidParameters_ends d length).bind ?_
  rintro w rfl
  refine ends_ite (fun hbusy => ?_) fun hidle => ?_
  · rintro _ ⟨⟩
    exact callOn_busy hbusy
  · refine ((halfDuplex_start w d type).halfDuplexPrepare buffer).bind fun w₁ h₁ => ?_
    refine (h₁.write .der 0#32).bind fun w₂ h₂ => (h₂.write .ier 0#32).bind fun w₃ h₃ => ?_
    refine (h₃.transmitTxInit errata none length).bind fun w₄ h₄ => ?_
    have h₅ : Holds _ (if type = .receive then transmitRxInit none length w₄ else w₄) :=
      h₄.ite (h₄.transmitRxInit none length)
    refine (Loop.run_keeps (fun s hs => Holds.halfDuplexPass hs type _) h₅ fuel).bind fun r hr =>
      ends_pure (callOn_syncEnd hidle hr)

theorem callOn_asyncTransmit (tx rx : Buffer) (length : ℕ) (endCallback : Bool) :
    Ends AnyError (asyncTransmit p errata d tx rx length endCallback w) (CallOn d w) := by
  refine (World.ends_devAssert _).bind ?_
  rintro _ rfl
  refine (checkValidParameters_ends d length).bind ?_
  rintro w rfl
  refine ends_ite (fun hbusy => callOn_busy hbusy) fun hidle => ?_
  have h₀ : Holds w.state.fixed w := rfl
  refine (h₀.modify .cfgr1 _).bind fun w₁ h₁ => ?_
  have h₂ : Holds (w.state.fixed.on d) (w₁.upd fun st =>
      { st with
        status := .busy
        externalDevice := d
        callback := endCallback
        currentTxFifoSlot := fifoSize }) := by
    rw [← h₁]
    rfl
  refine (h₂.transmitTxInit errata tx length).bind fun w₃ h₃ => ?_
  refine ((h₃.transmitRxInit rx length).write .der 0#32).bind fun w₄ h₄ => ?_
  exact (h₄.write .ier _).bind fun w₅ h₅ => callOn_idle hidle ⟨StatusType.noConfusion, h₅⟩

theorem callOn_asyncTransmitHalfDuplex (buffer : Buffer) (length : ℕ) (type : HalfDuplexType)
    (endCallback : Bool) :
    Ends AnyError (asyncTransmitHalfDuplex p errata d buffer length type endCallback w)
      (CallOn { d with transferType := type } w) := by
  refine (World.ends_devAssert _).bind ?_
  rintro _ rfl
  refine (checkValidParameters_ends d length).bind ?_
  rintro w rfl
  refine ends_ite (fun hbusy => callOn_busy hbusy) fun hidle => ?_
  refine ((halfDuplex_start w d type).halfDuplexPrepare buffer).bind fun w₁ h₁ => ?_
  have h₂ : Holds _ (w₁.upd fun st => { st with callback := endCallback }) := h₁.upd fun _ => rfl
  refine (h₂.transmitTxInit errata none length).bind fun w₃ h₃ => ?_
  have h₄ : Holds _ (if type = .receive then transmitRxInit none length w₃ else w₃) :=
    h₃.ite (h₃.transmitRxInit none length)
  refine (h₄.write .fcr _).bind fun w₅ h₅ => (h₅.write .der 0#32).bind fun w₆ h₆ => ?_
  exact (h₆.write .ier _).bind fun w₇ h₇ => callOn_idle hidle ⟨StatusType.noConfusion, h₇⟩

/-! ### Without a transfer -/

theorem process_idle (h : w.state.status ≠ .busy) : process p w = .ok w := by
  rw [process, transferProcessHalfDuplex, transferProcess, if_pos h, if_pos h, ite_self]
  rfl

theorem manageBuffers_idle (h : w.state.status ≠ .busy) :
    Ends AnyError (manageBuffers p w) fun w' => w'.state = w.state := by
  refine ends_ite (fun _ => rfl) fun _ => (World.read_keeps Reg.sr).bind ?_
  rintro ⟨sr, w₁⟩ h₁
  have hprocess : ∀ {w₂ : World σ}, w₂.state = w.state →
      Ends AnyError (process p w₂) fun w' => w'.state = w.state := fun h₂ => by
    rw [process_idle (by rwa [h₂])]
    exact h₂
  refine ends_ite (fun _ => hprocess h₁) fun _ => (World.read_keeps Reg.sr).bind ?_
  rintro ⟨sr', w₂⟩ h₂
  exact ends_ite (fun _ => hprocess (h₂.trans h₁)) fun _ => h₂.trans h₁

theorem irqHandler_idle (h : w.state.status ≠ .busy) :
    Ends AnyError (irqHandler p w) fun w' => w'.state = w.state := by
  refine (World.read_keeps Reg.sr).bind ?_
  rintro ⟨sr, w₁⟩ h₁
  refine (World.read_keeps Reg.ier).bind ?_
  rintro ⟨ier, w₂⟩ h₂
  have hstate : w₂.state = w.state := h₂.trans h₁
  refine ends_ite (fun _ => ?_) fun _ => hstate
  rw [process_idle (by rwa [hstate])]
  exact hstate

theorem cancel_idle (h : w.state.status ≠ .busy) : cancel p w = .ok w := if_pos h

/-! ### A call -/

/-- The device of a transfer that a call starts. -/
def Op.transmits? : Op ι → Option ι
  | .syncTransmit d _ _ _ _ | .syncTransmitHalfDuplex d _ _ _ _ | .asyncTransmit d _ _ _ _
  | .asyncTransmitHalfDuplex d _ _ _ _ => some d
  | _ => none

/-- What the calls of the driver can do. During a transfer, they leave the device that the
    driver holds; without one, they start a transfer, or leave the driver without one. -/
structure Op.After (o : Op ι) (devices : ι → ExternalDevice) (w : World σ)
    (y : StatusType × World σ) : Prop where
  busy : w.state.status = .busy → Holds w.state.fixed y.2 ∧ (o.transmits? ≠ none → y.1 = .fail)
  started : w.state.status ≠ .busy → ∀ d, o.transmits? = some d →
    Holds.Left (w.state.fixed.on (o.write (devices d))) y
  rested : w.state.status ≠ .busy → o.transmits? = none →
    y.2.state.status ≠ .busy ∧ Holds w.state.fixed y.2

theorem CallOn.after {devices : ι → ExternalDevice} {i : ι} {y : StatusType × World σ}
    (h : CallOn d w y) (ho : o.transmits? = some i) (hd : o.write (devices i) = d) :
    o.After devices w y where
  busy hbusy := by
    rw [CallOn, if_pos hbusy] at h
    rw [h]
    exact ⟨rfl, fun _ => rfl⟩
  started hidle j hj := by
    obtain rfl : i = j := Option.some.inj (ho.symm.trans hj)
    rwa [CallOn, if_neg hidle, ← hd] at h
  rested _ hnone := absurd (ho.symm.trans hnone) (Option.some_ne_none i)

/-- A call that starts no transfer. -/
theorem after_of_state {devices : ι → ExternalDevice} {y : StatusType × World σ}
    (ho : o.transmits? = none) (hholds : Holds w.state.fixed y.2)
    (hstatus : w.state.status ≠ .busy → y.2.state.status = w.state.status) :
    o.After devices w y where
  busy _ := ⟨hholds, fun h => absurd ho h⟩
  started _ d hd := absurd (ho.symm.trans hd) (Option.some_ne_none d).symm
  rested hidle _ := ⟨by rwa [hstatus hidle], hholds⟩

/-- A service of a transfer, which does nothing without one. -/
theorem after_service {devices : ι → ExternalDevice} {x : Except (Stop ε) (World σ)}
    (ho : o.transmits? = none) (hholds : Ends AnyError x (Holds w.state.fixed))
    (hidle : w.state.status ≠ .busy → Ends AnyError x fun w' => w'.state = w.state) :
    Ends AnyError ((Halt.ofStop x).map ((.success, ·) : World σ → StatusType × World σ))
      (o.After devices w) := by
  by_cases hbusy : w.state.status = .busy
  · exact ends_map (Halt.ends_ofStop (hholds.mono fun w' hw' =>
      after_of_state ho hw' fun h => absurd hbusy h))
  · exact ends_map (Halt.ends_ofStop ((hidle hbusy).mono fun w' hw' =>
      after_of_state ho (congrArg StateStructure.fixed hw') fun _ =>
        congrArg StateStructure.status hw'))

theorem Op.call_after (o : Op ι) (devices : ι → ExternalDevice) (w : World σ) :
    Ends AnyError (o.call p errata fuel devices w) (o.After devices w) := by
  have hw : Holds w.state.fixed w := rfl
  cases o with
  | syncTransmit d tx rx length timeOut =>
    exact Halt.ends_ofLoop_of_forever trivial
      ((callOn_syncTransmit tx rx length timeOut).mono fun r hr y hy => (hr y hy).after rfl rfl)
  | syncTransmitHalfDuplex d buffer length type timeOut =>
    exact Halt.ends_ofLoop_of_forever trivial
      ((callOn_syncTransmitHalfDuplex buffer length type timeOut).mono
        fun r hr y hy => (hr y hy).after rfl rfl)
  | asyncTransmit d tx rx length endCallback =>
    exact Halt.ends_ofStop ((callOn_asyncTransmit tx rx length endCallback).mono fun y hy =>
      hy.after rfl rfl)
  | asyncTransmitHalfDuplex d buffer length type endCallback =>
    exact Halt.ends_ofStop ((callOn_asyncTransmitHalfDuplex buffer length type endCallback).mono
      fun y hy => hy.after rfl rfl)
  | manageBuffers => exact after_service rfl hw.manageBuffers manageBuffers_idle
  | irqHandler => exact after_service rfl hw.irqHandler irqHandler_idle
  | cancel =>
    refine after_service rfl hw.cancel fun hidle => ?_
    rw [cancel_idle hidle]
    exact rfl
  | updateFrameSize d frameSize =>
    refine Halt.ends_ofStop ((World.ends_devAssert _).bind ?_)
    rintro _ rfl
    refine (World.ends_devAssert _).bind ?_
    rintro w rfl
    exact ends_pure (after_of_state rfl hw fun _ => rfl)
  | updateLsb d lsb => exact after_of_state rfl hw fun _ => rfl
  | updateDefaultTransmitData d defaultData => exact after_of_state rfl hw fun _ => rfl
  | updateTransferMode mode =>
    refine after_of_state rfl (hw.ite (hw.upd fun _ => rfl)) fun hidle => ?_
    change (if w.state.status ≠ .busy then _ else w).state.status = _
    rw [if_pos hidle]
    rfl

end Linked

/-! ## Runs -/

section Runs

variable {ι : Type} [DecidableEq ι] {p : Port Reg ε σ} {errata : Bool} {fuel : ℕ}
  {a a' : App ι σ} {o : Op ι} {status : StatusType} {os : List (Op ι)}
  {h : List (Mealy.Transition (App ι σ) (Op ι) StatusType)}

theorem App.step_ok (hstep : a.step p errata fuel o = .ok (status, a')) :
    o.After a.devices a.world (status, a'.world) ∧ a'.devices = a.written o := by
  have hends : Ends AnyError (a.step p errata fuel o) fun y =>
      o.After a.devices a.world (y.1, y.2.world) ∧ y.2.devices = a.written o :=
    (o.call_after a.devices a.world).bind fun y hy => ends_pure ⟨hy, rfl⟩
  rw [hstep] at hends
  exact hends

omit [DecidableEq ι] in
theorem Op.device?_of_transmits? {d : ι} (ho : o.transmits? = some d) : o.device? = some d := by
  cases o <;> first | exact ho | exact absurd ho (Option.some_ne_none d).symm

/-- Where `State->ExternalDevice` points to. -/
def pointerAfter (g : Option ι) (τ : Mealy.Transition (App ι σ) (Op ι) StatusType) : Option ι :=
  if τ.pre.world.state.status = .busy then g else τ.input.transmits?.or g

/-- During a transfer, what the driver holds is what its pointer points to. -/
def Linked (g : Option ι) (a : App ι σ) : Prop :=
  a.world.state.status = .busy → ∃ d, g = some d ∧ a.world.state.externalDevice = a.devices d

theorem Linked.step {g : Option ι} (hg : Linked g a)
    (hstep : a.step p errata fuel o = .ok (status, a')) :
    Linked (pointerAfter g ⟨a, o, status, a'⟩) a' := by
  obtain ⟨hafter, hdevices⟩ := App.step_ok hstep
  intro hbusy'
  by_cases hbusy : a.world.state.status = .busy
  · -- The transfer goes on, with the same device, which nobody has written to.
    obtain ⟨d, hd, heq⟩ := hg hbusy
    rw [pointerAfter, if_pos hbusy, hdevices, App.written, if_pos hbusy]
    exact ⟨d, hd, (congrArg Fixed.externalDevice (hafter.busy hbusy).1).trans heq⟩
  · rw [pointerAfter, if_neg hbusy]
    cases ho : o.transmits? with
    | none => exact absurd hbusy' (hafter.rested hbusy ho).1
    | some d =>
      refine ⟨d, Option.some_or, ?_⟩
      rw [hdevices, App.written, if_neg hbusy, if_pos (Op.device?_of_transmits? ho)]
      exact congrArg Fixed.externalDevice (hafter.started hbusy d ho).2

/-- **The device of a transfer.** However an application calls the driver, on any hardware,
    during a transfer the device that the driver holds is the one in memory that it was given:
    no call writes to it until the transfer is over. -/
theorem run_linked (hr : a.run p errata fuel os = .ok (h, a'))
    (hidle : a.world.state.status ≠ .busy) :
    Linked (h.foldl pointerAfter none) a' :=
  Mealy.run_ghost pointerAfter (I := Linked) hr (fun hbusy => absurd hbusy hidle)
    fun _ _ _ htake hg => hg.step htake

/-- An application with one device, and hardware that answers zero to everything. -/
def silentApp : App Unit (Unit × List (Port.Access Reg)) :=
  ⟨fun _ => byteDevice, { StateStructure.cleared with status := .idle, firstCmd := true }, (), []⟩

/-- During a transfer, neither the frame size nor the type of its device can be changed. -/
theorem run_linked_async : ∃ h a',
    silentApp.run silent.logged true 9 [.asyncTransmit () (some [5#8]) none 1 true,
      .updateFrameSize () 16, .syncTransmitHalfDuplex () (some [7#8]) 1 .transmit 2] =
        .ok (h, a') ∧
    h.map (·.output) = [.success, .fail, .fail] ∧ a'.world.state.status = .busy ∧
    a'.world.state.externalDevice = a'.devices () := by
  obtain ⟨h, a', hr, houtput, hbusy⟩ : ∃ h a',
      silentApp.run silent.logged true 9 [.asyncTransmit () (some [5#8]) none 1 true,
        .updateFrameSize () 16, .syncTransmitHalfDuplex () (some [7#8]) 1 .transmit 2] =
          .ok (h, a') ∧
      h.map (·.output) = [.success, .fail, .fail] ∧ a'.world.state.status = .busy :=
    ⟨_, _, rfl, rfl, rfl⟩
  obtain ⟨d, -, hd⟩ := run_linked hr HwStatusType.noConfusion hbusy
  exact ⟨h, a', hr, houtput, hbusy, hd⟩

/-! ### The type of the transfers of a device -/

end Runs

/-! ## Buffers that are ignored -/

section Buffers

variable {p : Port Reg ε σ} {c : Fixed} {w : World σ} {errata : Bool} {length : ℕ}
  {d : ExternalDevice}

variable {ι : Type} [DecidableEq ι] {fuel : ℕ} {a a' : App ι σ} {os : List (Op ι)}
  {h : List (Mealy.Transition (App ι σ) (Op ι) StatusType)}

end Buffers

end S32K358.LpspiIp
