import S32K358.LpspiIp.Async
import S32K358.LpspiIp.Sync

/-!
# Cancelled transfers

`Lpspi_Ip_Cancel` may come at any point of an asynchronous transfer, with frames still to be
pushed and answers waiting in the FIFO. It resets the device, and keeps `CFGR1`.

* `Transfer.serves_keeps`: whatever serves a transfer, polls or interrupts and in any order,
  leaves it in flight, or complete;
* `cancel_runCalls`: wherever a full-duplex transfer is cancelled, the calls that follow have
  the results of transfers that start with a device that has been reset. Of the cancelled
  transfer, the frames that had been pushed have reached the bus, and nothing else is left.

A half-duplex transfer does leave something: its `TransferType`, which is written to the
external device of the caller.
-/

namespace S32K358.LpspiIp

open Lpspi (Reg SsiBus State Settled bytesPerFrame)
open Program Port

variable {n : ℕ} {β : Type}

/-! ## A transfer is served -/

/-- What goes on with an asynchronous transfer. -/
inductive Service
  | manageBuffers
  | irqHandler
  deriving DecidableEq, Repr

section Serves

variable {ε σ : Type} (p : Port Reg ε σ)

def Service.run : Service → World σ → Except (Stop ε) (World σ)
  | .manageBuffers => LpspiIp.manageBuffers p
  | .irqHandler => LpspiIp.irqHandler p

/-- A transfer is served some times. -/
def serves : List Service → World σ → Except (Stop ε) (World σ)
  | [], w => .ok w
  | s :: l, w => s.run p w >>= serves l

end Serves

variable {bus : SsiBus β} {st : StateStructure} {x : View n β} {w : World (State n β)} {k : ℕ}

/-- A service processes the transfer, or does nothing. -/
theorem Shows.service (h : Shows st x w) (htype : st.externalDevice.transferType = .fullDuplex)
    (s : Service) :
    s.run (device bus) w = transferProcess (device bus) w ∨ s.run (device bus) w = .ok w := by
  cases s with
  | manageBuffers =>
    by_cases hmode : st.transferMode = .polling
    · rw [Service.run, h.manageBuffers hmode htype]
      split_ifs <;> simp
    · refine .inr (if_pos ?_)
      rwa [h.state_eq]
  | irqHandler =>
    rw [Service.run, h.irqHandler htype]
    split_ifs <;> simp

namespace Transfer

variable (T : Transfer st x k)
include T

theorem service_keeps (hbusy : st.status = .busy)
    (htype : st.externalDevice.transferType = .fullDuplex) (hcr : Bits.any x.cr crRst = false)
    (h : Flying bus st x k w ∨ Completed bus st x k w) (s : Service) :
    Ends NoError (s.run (device bus) w) fun w' =>
      Flying bus st x k w' ∨ Completed bus st x k w' := by
  rcases h with h | h
  · have hprocess := T.transferProcess_flying hbusy hcr h
    obtain ⟨r, t, hflight, -⟩ := id h
    rcases Shows.service hflight htype s with hs | hs
    · rw [hs]
      exact hprocess.mono fun w' h' => h'.1.symm.imp_left And.left
    · rw [hs]
      exact .inl h
  · have hs : s.run (device bus) w = .ok w :=
      (Shows.service h htype s).elim (·.trans (transferProcess_completed h)) id
    rw [hs]
    exact .inr h

/-- A transfer that is served is in flight, or complete. -/
theorem serves_keeps (hbusy : st.status = .busy)
    (htype : st.externalDevice.transferType = .fullDuplex) (hcr : Bits.any x.cr crRst = false)
    (l : List Service) (h : Flying bus st x k w ∨ Completed bus st x k w) :
    Ends NoError (serves (device bus) l w) fun w' =>
      Flying bus st x k w' ∨ Completed bus st x k w' := by
  induction l generalizing w with
  | nil => exact h
  | cons s l ih => exact (T.service_keeps hbusy htype hcr h s).bind fun w₁ h₁ => ih h₁

end Transfer

/-! ## A transfer is cancelled -/

variable {errata callback keepCs : Bool} {config : Config} {q : Request} {fuel : ℕ}

/-- `Lpspi_Ip_Cancel` in the middle of a transfer leaves the driver at rest. -/
theorem Configured.cancel (hst : Configured config keepCs w.state) (hbusy : w.state.status = .busy)
    (hs : Settled w.hw) (hcr : Bits.any w.hw.cr crRst = false) :
    Ends NoError (cancel (device bus) w)
      fun w' => w'.state.status = .idle ∧
        Rested config keepCs { (view w.hw).reset bus with cfgr1 := w.hw.cfgr1 } w' := by
  have h : Shows w.state (view w.hw) w := ⟨rfl, hs, rfl⟩
  have hdis : Bits.any (w.hw.cr &&& ~~~crMen) crRst = false := by
    rw [Bits.any_clear_of_disjoint (by decide), hcr]
  rw [LpspiIp.cancel, if_neg (not_not.2 hbusy)]
  refine (h.modify_cr hdis).bind fun w₁ h₁ => ?_
  refine h₁.errataHandle.bind fun w₂ h₂ => ends_pure ⟨rfl, ?_⟩
  exact {
    configured := by
      rw [World.upd_state, h₂.state_eq]
      exact ⟨hst.firstCmd, hst.config_eq, hst.mode_eq, hst.keepCs_eq⟩
    status_ne := HwStatusType.noConfusion
    settled := h₂.settled
    view_eq := h₂.view_eq
    cr := Bits.any_zero_left _
    watermark := rfl }

/-- The view when a transfer that started with the view `y` has been cancelled after `t` of
    its frames. -/
def View.cancelled (bus : SsiBus β) (slaveMode : Bool) (q : Request) (t : ℕ) (y : View n β) :
    View n β :=
  let b := bytesPerFrame (command slaveMode q.device)
  { (y.exchanges bus (frames b q.device q.txBuffer 0 t)).2.reset bus with cfgr1 := y.cfgr1 }

/-- What is left of a transfer in flight that is cancelled. -/
theorem Flying.cancel {w' : World (State n β)} (h : Rested config keepCs x w)
    (hw' : Flying bus (asyncPrepared w.state q callback)
      (x.asyncStarted bus errata config q.device) q.frames w') :
    w'.state.status = .busy ∧ w'.state.txIndex ≤ q.frames ∧
      Ends NoError (cancel (device bus) w') fun w'' => w''.state.status = .idle ∧
        Rested config keepCs ((x.asyncStarted bus errata config q.device).cancelled bus
          config.slaveMode q w'.state.txIndex) w'' := by
  obtain ⟨r, t, ⟨hstate, hs, hview⟩, -, -, htk, -⟩ := hw'
  obtain ⟨hcr, -, -⟩ := x.asyncStarted_frame bus errata config q.device
  obtain ⟨hcr', -, hcfgr1, -⟩ : _ ∧ _ ∧ (flightView bus (asyncPrepared w.state q callback)
    (x.asyncStarted bus errata config q.device) r t).cfgr1 = _ ∧ _ := flightView_frame r t
  have hbusy : w'.state.status = .busy := by
    rw [hstate]
    rfl
  have htx : w'.state.txIndex = t := by
    rw [hstate]
    rfl
  have hst : Configured config keepCs w'.state := by
    rw [hstate]
    exact ⟨h.configured.firstCmd, h.configured.config_eq, h.configured.mode_eq,
      h.configured.keepCs_eq⟩
  have hrst : Bits.any w'.hw.cr crRst = false := by
    rw [show w'.hw.cr = (view w'.hw).cr from rfl, hview, hcr', hcr]
  -- The reset drops the answers in the FIFO: only the bus knows of the frames pushed.
  have hreset : ({ (view w'.hw).reset bus with cfgr1 := w'.hw.cfgr1 } : View n β) =
      (x.asyncStarted bus errata config q.device).cancelled bus config.slaveMode q t := by
    rw [show w'.hw.cfgr1 = (view w'.hw).cfgr1 from rfl, hview, hcfgr1]
    rfl
  refine ⟨hbusy, htx.trans_le htk, ?_⟩
  rw [htx, ← hreset]
  exact hst.cancel hbusy hs hrst

/-- **Cancelled transfers.** A full-duplex transfer is started and served in any way, and then
    cancelled. The driver is idle, and all later calls have the results of transfers that
    start with a device that has been reset after the frames pushed so far or, if the
    transfer had been complete, with the device at its end. -/
theorem cancel_runCalls (bus : SsiBus β) (errata callback : Bool) (q : Request)
    (l : List Service) (fuel : ℕ) (cs : List Call) (h : Rested config keepCs x w)
    (hq : q.Valid n config.slaveMode)
    (hcs : ∀ c ∈ cs, c.Valid n config.slaveMode ∧ 2 * c.frames < fuel) :
    let y := x.asyncStarted bus errata config q.device
    ∃ w₁ w₂ w₃ w₄,
      asyncTransmit (device bus) errata q.device q.txBuffer q.rxBuffer q.length callback w =
        .ok (.success, w₁) ∧
      serves (device bus) l w₁ = .ok w₂ ∧ w₂.state.txIndex ≤ q.frames ∧
      cancel (device bus) w₂ = .ok w₃ ∧ w₃.state.status = .idle ∧
      let y' := if w₂.state.status = .busy then
          y.cancelled bus config.slaveMode q w₂.state.txIndex
        else (y.asyncDone bus config keepCs q).2
      let z := y'.transfers bus errata config.slaveMode keepCs cs
      runCalls (device bus) errata fuel cs w₃ = .ok (some (z.1, w₄)) ∧
        Rested config keepCs z.2 w₄ := by
  intro y
  have hstart : Ends NoError (asyncTransmit (device bus) errata q.device q.txBuffer q.rxBuffer
      q.length callback w) _ := h.asyncTransmit hq
  obtain ⟨⟨_, w₁⟩, hok, rfl, -, h₁⟩ := ends_noError_iff.1 hstart
  have T : Transfer (asyncPrepared w.state q callback) y q.frames := hq.asyncTransfer
  have hflying : Flying bus (asyncPrepared w.state q callback) y q.frames w₁ :=
    ⟨0, 0, T.flight_zero rfl rfl rfl h₁, hq.frames_pos, le_rfl, Nat.zero_le _, fun h => h,
      Nat.zero_le _⟩
  obtain ⟨hcr, -, -⟩ := x.asyncStarted_frame bus errata config q.device
  obtain ⟨w₂, hserves, h₂⟩ := ends_noError_iff.1
    (T.serves_keeps rfl hq.fullDuplex hcr l (.inl hflying))
  rcases h₂ with h₂ | h₂
  · obtain ⟨hbusy, htx, hcancel⟩ := h₂.cancel h
    obtain ⟨w₃, hok₃, hidle, hrested⟩ := ends_noError_iff.1 hcancel
    obtain ⟨_, hrun, w₄, rfl, h₄⟩ := ends_noError_iff.1 (hrested.runCalls hcs)
    refine ⟨w₁, w₂, w₃, w₄, hok, hserves, htx, hok₃, hidle, ?_⟩
    rw [if_pos hbusy]
    exact ⟨hrun, h₄⟩
  · obtain ⟨hidle, -, -, hrested⟩ := h₂.rested h
    have hbusy : w₂.state.status ≠ .busy := by
      rw [hidle]
      exact HwStatusType.noConfusion
    have htx : w₂.state.txIndex = q.frames := by
      rw [h₂.state_eq]
      rfl
    have hcancel : LpspiIp.cancel (device bus) w₂ = .ok w₂ := if_pos hbusy
    obtain ⟨_, hrun, w₄, rfl, h₄⟩ := ends_noError_iff.1 (hrested.runCalls hcs)
    refine ⟨w₁, w₂, w₂, w₄, hok, hserves, htx.le, hcancel, hidle, ?_⟩
    rw [if_neg hbusy]
    exact ⟨hrun, h₄⟩

/-- The first poll fills the slots that are left by the command. -/
theorem flight_poll {w₁ w₂ : World (State n β)} (h : Rested config keepCs x w)
    (hmode : config.transferMode = .polling) (hq : q.Valid n config.slaveMode)
    (hk : fifoSize - 1 ≤ q.frames)
    (hasync : asyncTransmit (device bus) errata q.device q.txBuffer q.rxBuffer q.length callback w
      = .ok (.success, w₁))
    (hpoll : manageBuffers (device bus) w₁ = .ok w₂) :
    let y := x.asyncStarted bus errata config q.device
    let r := y.exchanges bus
      (frames (bytesPerFrame (command config.slaveMode q.device)) q.device q.txBuffer 0
        (fifoSize - 1))
    w₂.state.status = .busy ∧ w₂.state.txIndex = fifoSize - 1 ∧ w₂.state.rxIndex = 0 ∧
      view w₂.hw = r.2.holding (bytes y.tcr r.1) := by
  have hstart : Ends NoError (asyncTransmit (device bus) errata q.device q.txBuffer q.rxBuffer
      q.length callback w) _ := h.asyncTransmit hq
  rw [hasync] at hstart
  obtain ⟨-, -, hwater⟩ := x.asyncStarted_frame bus errata config q.device
  have T : Transfer (asyncPrepared w.state q callback)
      (x.asyncStarted bus errata config q.device) q.frames := hq.asyncTransfer
  have hflight : Flight bus (asyncPrepared w.state q callback) _ 0 0 w₁ :=
    T.flight_zero rfl rfl rfl hstart.2.2
  have hfirst := T.poll_first rfl (h.configured.mode_eq.trans hmode) hq.fullDuplex
    (hwater h.watermark) hk hflight
  rw [hpoll] at hfirst
  obtain ⟨hstate, -, hview⟩ := hfirst
  rw [hstate]
  exact ⟨rfl, rfl, rfl, hview⟩

/-- Of five bytes, the first poll pushes three, whose answers are in the FIFO when the
    transfer is cancelled. A later call gets its own answer. -/
theorem cancel_runCalls_five : ∃ w₀ w₁ w₂ w₃ w₄,
    init (device SsiBus.empty) loopConfig ⟨StateStructure.cleared, Lpspi.bare⟩ = .ok w₀ ∧
    asyncTransmit (device SsiBus.empty) true byteDevice (some [1#8, 2#8, 3#8, 4#8, 5#8])
      (some (List.replicate 5 0#8)) 5 true w₀ = .ok (.success, w₁) ∧
    serves (device SsiBus.empty) [.manageBuffers] w₁ = .ok w₂ ∧ w₂.state.status = .busy ∧
    w₂.state.txIndex = 3 ∧ w₂.state.rxIndex = 0 ∧ (view w₂.hw).rx = [1#8, 2#8, 3#8] ∧
    cancel (device SsiBus.empty) w₂ = .ok w₃ ∧ w₃.state.status = .idle ∧
    runCalls (device SsiBus.empty) true 3 [byteCall 9#8 2] w₃ =
      .ok (some ([(.success, some [9#8])], w₄)) := by
  obtain ⟨w₀, hinit, hrested⟩ := ends_noError_iff.1 (init_device SsiBus.empty loopConfig
    (w := ⟨StateStructure.cleared, Lpspi.bare⟩) Lpspi.powerOn_bare.settled)
  have hq : (byteRequest [1#8, 2#8, 3#8, 4#8, 5#8]).Valid 1 loopConfig.slaveMode :=
    valid_byteRequest (List.cons_ne_nil _ _)
  have hcs : ∀ c ∈ [byteCall 9#8 2], c.Valid 1 loopConfig.slaveMode ∧ 2 * c.frames < 3 := by
    rw [List.forall_mem_singleton]
    exact ⟨valid_byteCall _ (by decide), by decide⟩
  obtain ⟨w₁, w₂, w₃, w₄, hasync, hserves, -, hcancel, hidle, hrun, -⟩ :=
    cancel_runCalls SsiBus.empty true true (byteRequest [1#8, 2#8, 3#8, 4#8, 5#8])
      [.manageBuffers] 3 [byteCall 9#8 2] hrested hq hcs
  have hpoll : manageBuffers (device SsiBus.empty) w₁ = .ok w₂ := by
    rw [← hserves, serves]
    exact (bind_pure _).symm
  obtain ⟨hbusy, htx, hrx, hview⟩ := flight_poll hrested rfl hq (by decide) hasync hpoll
  rw [if_pos hbusy, htx] at hrun
  refine ⟨w₀, w₁, w₂, w₃, w₄, hinit, hasync, hserves, hbusy, htx, hrx, ?_, hcancel, hidle, hrun⟩
  rw [hview]
  rfl

end S32K358.LpspiIp
