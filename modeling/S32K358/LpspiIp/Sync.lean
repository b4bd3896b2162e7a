import S32K358.LpspiIp.Request

/-!
# Synchronous transfers on the device

`Lpspi_Ip_SyncTransmit` on the device comes to a word-by-word exchange with the bus
(`View.transfer`), for any bus and any frame size: all frames are exchanged, in order,
and their answers are in the buffer of the caller. The one exception is a timeout of one
tick, which is over after the first pass of the loop, with the frames of a first filling
of the FIFO exchanged and none of the answers read.

* `Rested.syncTransmit`: a call on the device is the transfer of the view;
* `session_device`: after the initialisation of the driver, any sequence of calls, some of
  which may time out, has the results of the transfers one after the other. No answer is
  lost to, or left over for, another call.
-/

namespace S32K358.LpspiIp

open Lpspi (Reg SsiBus State Settled bytesPerFrame rxmsk pcs)
open Program Port OsIf

variable {n : ℕ} {β : Type}

/-! ## The loop -/

namespace Transfer

variable {bus : SsiBus β} {st : StateStructure} {x : View n β} {w : World (State n β)}
  {k r t timeOut : ℕ}

/-- How the loop is left: with the frames of the first pass in flight, or all done. -/
inductive Left (bus : SsiBus β) (st : StateStructure) (x : View n β) (k timeOut : ℕ) :
    StatusType × World (State n β) → Prop
  | timeout {w : World (State n β)} (h : Flight bus st x 0 (min (fifoSize - 1) k) w)
      (htime : timeOut = 1) : Left bus st x k timeOut (.timeout, w)
  | success {w : World (State n β)}
      (h : Shows (flightState bus st x k k) ((flightView bus st x k k).released st.keepCs) w)
      (htime : timeOut ≠ 1) : Left bus st x k timeOut (.success, w)

/-- The stages of the loop: nothing has been pushed; frames are in flight; all is done. -/
inductive Stage (bus : SsiBus β) (st : StateStructure) (x : View n β) (k timeOut : ℕ) :
    World (State n β) × ℕ → Prop
  | start {w : World (State n β)} (h : Flight bus st x 0 0 w) : Stage bus st x k timeOut (w, 0)
  | flying {w : World (State n β)} {r t : ℕ} (h : Flight bus st x r t w) (htime : timeOut ≠ 1)
      (hrt : r < t)
      (htk : t ≤ k) (hslot : t - r ≤ if r = 0 then fifoSize - 1 else fifoSize) :
      Stage bus st x k timeOut (w, getElapsed)
  | done {w : World (State n β)}
      (h : Shows (flightState bus st x k k) ((flightView bus st x k k).released st.keepCs) w)
      (htime : timeOut ≠ 1) : Stage bus st x k timeOut (w, getElapsed)

variable (T : Transfer st x k)
include T

/-- A pass, with something to be read. -/
theorem syncPass_flight {e : ℕ} {P : Bool × World (State n β) → Prop} (h : Flight bus st x r t w)
    (hrk : r ≠ k) (hrt : r ≤ t) (htk : t ≤ k)
    (hslot : t - r ≤ if r = 0 then fifoSize - 1 else fifoSize)
    (htransmit : ∀ w', Flight bus st x t t w' →
      Ends NoError (LpspiIp.transmitData (device bus) (LpspiIp.releaseCs (device bus)) w') P) :
    Ends NoError (syncPass (device bus) timeOut (w, e)) fun s => ∃ y, P y ∧
      s = if (if decide (r < t) || y.1 then 0 else e) + getElapsed ≥ timeOut then
          .exit (.timeout, y.2)
        else .next (y.2, (if decide (r < t) || y.1 then 0 else e) + getElapsed) := by
  have hne : w.state.rxIndex ≠ w.state.expectedFifoReads := by
    rw [h.state_eq]
    exact fun heq => hrk (heq.trans T.reads_eq)
  rw [syncPass, if_neg hne]
  refine (T.receiveData h hrt htk hslot).bind ?_
  rintro ⟨received, w₁⟩ ⟨hr, h₁⟩
  dsimp only at hr h₁ ⊢
  refine (htransmit w₁ h₁).bind fun y hP => ends_pure ⟨y, hP, ?_⟩
  rw [hr]

/-- The loop goes through its stages. -/
theorem syncPass_stage (hk : 0 < k) (htime : timeOut ≠ 0) (s : World (State n β) × ℕ)
    (hs : Stage bus st x k timeOut s) :
    Ends NoError (syncPass (device bus) timeOut s)
      (Loop.After (Stage bus st x k timeOut) (Left bus st x k timeOut)
        (fun s => remaining s.1) s) := by
  cases hs with
  | @start w h =>
    refine (T.syncPass_flight h hk.ne le_rfl hk.le (by simp)
      fun w' h' => T.transmitData h' hk rfl).mono ?_
    rintro _ ⟨⟨_, w'⟩, ⟨rfl, h'⟩, rfl⟩
    rw [if_pos rfl, Nat.sub_zero, Nat.zero_add] at h'
    simp only [Bool.or_true, if_true, Nat.zero_add]
    have hmin : 0 < min (fifoSize - 1) k := Nat.lt_min.2 ⟨by decide, hk⟩
    split_ifs with hout
    · exact .timeout h' (le_antisymm hout (Nat.pos_of_ne_zero htime))
    · refine ⟨.flying h' (fun hone => hout hone.le) hmin (Nat.min_le_right _ _) ?_, ?_⟩
      · exact Nat.min_le_left _ _
      · dsimp only
        rw [T.remaining_shows h', T.remaining_shows h]
        omega
  | @flying w r t h htime' hrt htk hslot =>
    have hout : ¬getElapsed ≥ timeOut := by
      rw [getElapsed]
      omega
    rcases Nat.lt_or_eq_of_le htk with hlt | rfl
    · refine (T.syncPass_flight h (by omega) hrt.le htk hslot
        fun w' h' => T.transmitData h' hlt rfl).mono ?_
      rintro _ ⟨⟨_, w'⟩, ⟨rfl, h'⟩, rfl⟩
      simp only [Bool.or_true, if_true, Nat.zero_add, if_neg hout]
      rw [if_neg (by omega)] at h'
      generalize hm : min fifoSize (k - t) = m at h'
      have hpos : 0 < m ∧ m ≤ fifoSize ∧ t + m ≤ k := by
        rw [fifoSize] at hm ⊢
        omega
      refine ⟨.flying h' htime' (by omega) hpos.2.2 ?_, ?_⟩
      · rw [if_neg (by omega)]
        omega
      · dsimp only
        rw [T.remaining_shows h', T.remaining_shows h]
        omega
    · refine (T.syncPass_flight h hrt.ne hrt.le le_rfl hslot
        fun w' h' => T.transmitData_done h' hk (T.releaseCs h')).mono ?_
      rintro _ ⟨⟨_, w'⟩, ⟨rfl, h'⟩, rfl⟩
      simp only [hrt, decide_true, Bool.true_or, if_true, Nat.zero_add, if_neg hout]
      refine ⟨.done h' htime', ?_⟩
      dsimp only
      rw [T.remaining_shows h', T.remaining_shows h]
      omega
  | @done w h htime' =>
    have heq : w.state.rxIndex = w.state.expectedFifoReads := by
      rw [h.state_eq]
      exact T.reads_eq.symm
    rw [syncPass, if_pos heq]
    exact .success h htime'

end Transfer

/-! ## A call -/

/-- The arguments of a call of `Lpspi_Ip_SyncTransmit`. -/
structure Call extends Request where
  timeOut : ℕ

namespace Call

variable (c : Call)

/-- The request is valid, and there is some time for it. -/
structure Valid (n : ℕ) (slaveMode : Bool) : Prop extends c.toRequest.Valid n slaveMode where
  timeOut_ne_zero : c.timeOut ≠ 0

/-- The call itself. -/
def run {ε σ : Type} (p : Port Reg ε σ) (errata : Bool) (fuel : ℕ) (w : World σ) :
    Except (Stop ε) (Option (StatusType × World σ)) :=
  syncTransmit p errata c.device c.txBuffer c.rxBuffer c.length c.timeOut fuel w

end Call

/-- What a call comes to: its status, the buffer received, and the view of the device. With a
    timeout of one tick, only the frames of the first pass are exchanged. -/
def View.transfer (bus : SsiBus β) (errata slaveMode keepCs : Bool) (c : Call) (x : View n β) :
    (StatusType × Buffer) × View n β :=
  let y := (x.enabling 0#32).started bus errata (command slaveMode c.device)
  let b := bytesPerFrame (command slaveMode c.device)
  if c.timeOut = 1 then
    let k := min (fifoSize - 1) c.frames
    let r := y.exchanges bus (LpspiIp.frames b c.device c.txBuffer 0 k)
    ((.timeout, c.rxBuffer), r.2.holding (bytes y.tcr r.1))
  else
    let r := y.exchanges bus (LpspiIp.frames b c.device c.txBuffer 0 c.frames)
    ((.success, c.rxBuffer.map (put (frameWidth c.device.frameSize) 0 (r.1.map (truncate b)))),
      r.2.released keepCs)

variable {bus : SsiBus β} {st : StateStructure} {x : View n β} {w : World (State n β)}
  {errata keepCs : Bool} {config : Config} {c : Call} {fuel : ℕ}

theorem Shows.syncPrepare (h : Shows st x w) (hst : Configured config keepCs st)
    (hcr : Bits.any x.cr crRst = false) (hc : c.Valid n config.slaveMode) :
    Ends NoError
      (syncPrepare (device bus) errata c.device c.txBuffer c.rxBuffer c.length w)
      (Shows (prepared st c.toRequest)
        ((x.enabling 0#32).started bus errata (command config.slaveMode c.device))) := by
  obtain ⟨hfirst, rfl, -, -⟩ := hst
  rw [LpspiIp.syncPrepare]
  have h₀ : Shows { st with status := .busy, externalDevice := c.device } x
      (w.upd fun st => { st with status := .busy, externalDevice := c.device }) := h.upd rfl
  refine (h₀.writeDer 0#32).bind fun w₁ h₁ => ?_
  refine (h₁.writeIer 0#32).bind fun w₂ h₂ => ?_
  have h₃ : Shows
      { st with status := .busy, externalDevice := c.device, currentTxFifoSlot := fifoSize }
      (x.enabling 0#32) (w₂.upd fun st => { st with currentTxFifoSlot := fifoSize }) := h₂.upd rfl
  dsimp only
  refine (h₃.transmitTxInit hfirst hc.sends hcr hc.bytes_ne_zero).bind fun w₄ h₄ =>
    ends_pure (h₄.upd ?_)
  simp only [hc.fullDuplex, if_true]
  rfl

/-- After a transfer, the driver is at rest. -/
theorem Shows.rested {x' y : View n β} {status : StatusType} {r t : ℕ}
    (h : Shows (flightState bus (prepared st c.toRequest) x' r t) y w)
    (hst : Configured config keepCs st) (hcr : Bits.any y.cr crRst = false)
    (hwater : y.rxWatermark = 0) : Rested config keepCs y (syncEnd status w) where
  configured := by
    rw [syncEnd, World.upd_state, h.state_eq]
    exact ⟨hst.firstCmd, hst.config_eq, hst.mode_eq, hst.keepCs_eq⟩
  status_ne := by
    rw [syncEnd, World.upd_state]
    dsimp only
    split_ifs <;> exact HwStatusType.noConfusion
  settled := h.settled
  view_eq := h.view_eq
  cr := hcr
  watermark := hwater

/-- How the loop is left is what the transfer of the view has. -/
theorem Transfer.Left.transfer {r : StatusType × World (State n β)}
    (hst : Configured config keepCs st) (hwater : x.rxWatermark = 0)
    (hl : Left bus (prepared st c.toRequest)
      ((x.enabling 0#32).started bus errata (command config.slaveMode c.device))
      c.frames c.timeOut r) :
    let z := x.transfer bus errata config.slaveMode keepCs c
    r.1 = z.1.1 ∧ (syncEnd r.1 r.2).state.rxBuffer = z.1.2 ∧
      Rested config keepCs z.2 (syncEnd r.1 r.2) := by
  obtain ⟨hcr, -, -, -, hrx, -⟩ :=
    (x.enabling 0#32).started_frame bus errata (command config.slaveMode c.device)
  have hwater' := (x.enabling 0#32).started_rxWatermark bus errata
    (command config.slaveMode c.device) hwater
  cases hl with
  | @timeout w h htime =>
    rw [View.transfer, if_pos htime]
    obtain ⟨hcr', -, -, -, -, -, hframe⟩ : (flightView bus (prepared st c.toRequest)
        ((x.enabling 0#32).started bus errata (command config.slaveMode c.device)) 0
        (min (fifoSize - 1) c.frames)).cr = _ ∧ _ := flightView_frame _ _
    refine ⟨rfl, ?_, ?_⟩
    · rw [syncEnd, World.upd_state, h.state_eq]
      change c.rxBuffer.map (put _ 0 []) = c.rxBuffer
      rw [put_nil, Option.map_id_apply]
    · exact h.rested hst (hcr'.symm ▸ hcr) (hframe.trans hwater')
  | @success w h htime =>
    rw [View.transfer, if_neg htime]
    refine ⟨rfl, ?_, ?_⟩
    · rw [syncEnd, World.upd_state, h.state_eq]
      change c.rxBuffer.map (put _ 0 (List.map _ (List.take _ _))) = _
      rw [List.take_of_length_le (length_answers _).le]
      rfl
    · rw [flightView_of_rx hrx, show (prepared st c.toRequest).keepCs = keepCs from hst.keepCs_eq]
        at h
      obtain ⟨hcr', -, -, -, -, -, -, hframe⟩ := View.exchanges_frame bus
        ((x.enabling 0#32).started bus errata (command config.slaveMode c.device))
        (sent (prepared st c.toRequest) ((x.enabling 0#32).started bus errata
          (command config.slaveMode c.device)) c.frames)
      refine h.rested hst ?_ ?_
      · rwa [(View.released_frame _ _).1, hcr']
      · rw [(View.released_frame _ _).2.2.2.2, hframe, hwater']

/-- A call on the device is the transfer of its view. -/
theorem Rested.syncTransmit (h : Rested config keepCs x w) (hc : c.Valid n config.slaveMode)
    (hfuel : 2 * c.frames < fuel) :
    Ends NoError (c.run (device bus) errata fuel w) fun r => ∃ w',
      r = some ((x.transfer bus errata config.slaveMode keepCs c).1.1, w') ∧
      w'.state.rxBuffer = (x.transfer bus errata config.slaveMode keepCs c).1.2 ∧
      Rested config keepCs (x.transfer bus errata config.slaveMode keepCs c).2 w' := by
  have hshows : Shows w.state x w := ⟨rfl, h.settled, h.view_eq⟩
  rw [Call.run, LpspiIp.syncTransmit, World.devAssert_of hc.length_ne_zero, ends_ok_bind,
    World.devAssert_of hc.timeOut_ne_zero, ends_ok_bind, checkValidParameters_eq hc.length_mod,
    ends_ok_bind, if_neg h.status_ne]
  refine (hshows.syncPrepare h.configured h.cr hc).bind fun w₁ h₁ => ?_
  have T : Transfer (prepared w.state c.toRequest) ((x.enabling 0#32).started bus errata _)
      c.frames := hc.transfer
  have hflight : Flight bus (prepared w.state c.toRequest) _ 0 0 w₁ :=
    T.flight_zero rfl rfl rfl h₁
  have hrank : remaining w₁ < fuel := by
    rw [T.remaining_shows hflight]
    omega
  refine (Loop.run_ends (fun s => remaining s.1)
    (T.syncPass_stage hc.frames_pos hc.timeOut_ne_zero) (.start hflight) hrank).bind ?_
  rintro _ ⟨⟨status, w₂⟩, rfl, hleft⟩
  obtain ⟨h₁, h₂, h₃⟩ := hleft.transfer h.configured h.watermark
  refine ends_pure ⟨_, ?_, h₂, h₃⟩
  rw [← h₁]
  rfl

/-! ## A session -/

section Session

variable {ε σ : Type} (p : Port Reg ε σ)

/-- Calls one after the other: the status and the buffer received of each, or `none` if one
    of them does not return. -/
def runCalls (errata : Bool) (fuel : ℕ) :
    List Call → World σ → Except (Stop ε) (Option (List (StatusType × Buffer) × World σ))
  | [], w => .ok (some ([], w))
  | c :: cs, w => do
    match ← c.run p errata fuel w with
    | none => pure none
    | some (status, w) =>
      let rest ← runCalls errata fuel cs w
      pure (rest.map fun r => ((status, w.state.rxBuffer) :: r.1, r.2))

/-- The driver is initialised, and called. -/
def session (errata : Bool) (config : Config) (fuel : ℕ) (cs : List Call) (w : World σ) :
    Except (Stop ε) (Option (List (StatusType × Buffer) × World σ)) := do
  let w ← init p config w
  runCalls p errata fuel cs w

end Session

/-- The transfers of some calls, one after the other. -/
def View.transfers (bus : SsiBus β) (errata slaveMode keepCs : Bool) :
    List Call → View n β → List (StatusType × Buffer) × View n β
  | [], x => ([], x)
  | c :: cs, x =>
    let r := x.transfer bus errata slaveMode keepCs c
    let rs := View.transfers bus errata slaveMode keepCs cs r.2
    (r.1 :: rs.1, rs.2)

theorem Rested.runCalls {cs : List Call} (h : Rested config keepCs x w)
    (hcs : ∀ c ∈ cs, c.Valid n config.slaveMode ∧ 2 * c.frames < fuel) :
    Ends NoError (runCalls (device bus) errata fuel cs w) fun r => ∃ w',
      r = some ((x.transfers bus errata config.slaveMode keepCs cs).1, w') ∧
      Rested config keepCs (x.transfers bus errata config.slaveMode keepCs cs).2 w' := by
  induction cs generalizing x w with
  | nil => exact ⟨w, rfl, h⟩
  | cons c cs ih =>
    obtain ⟨hc, hfuel⟩ := hcs c List.mem_cons_self
    rw [LpspiIp.runCalls]
    refine (h.syncTransmit hc hfuel).bind ?_
    rintro _ ⟨w₁, rfl, hbuffer, h₁⟩
    refine (ih h₁ fun c hc => hcs c (List.mem_cons_of_mem _ hc)).bind ?_
    rintro _ ⟨w₂, rfl, h₂⟩
    refine ends_pure ⟨w₂, ?_, h₂⟩
    rw [hbuffer]
    rfl

theorem session_ends {cs : List Call} (hs : Settled w.hw)
    (hcs : ∀ c ∈ cs, c.Valid n config.slaveMode ∧ 2 * c.frames < fuel) :
    Ends NoError (session (device bus) errata config fuel cs w) fun r => ∃ w',
      r = some ((((view w.hw).inited bus config).transfers bus errata config.slaveMode false cs).1,
        w') ∧
      Rested config false
        (((view w.hw).inited bus config).transfers bus errata config.slaveMode false cs).2 w' :=
  (init_device bus config hs).bind fun _ h => h.runCalls hcs

/-- **A session of the driver.** In whatever state the device is, after the initialisation
    of the driver every sequence of valid calls has the results of the transfers of the
    view, one after the other. -/
theorem session_device (bus : SsiBus β) (errata : Bool) (config : Config) (fuel : ℕ)
    (cs : List Call) (w : World (State n β)) (hs : Settled w.hw)
    (hcs : ∀ c ∈ cs, c.Valid n config.slaveMode ∧ 2 * c.frames < fuel) :
    ∃ w', session (device bus) errata config fuel cs w = .ok (some
        ((((view w.hw).inited bus config).transfers bus errata config.slaveMode false cs).1, w')) ∧
      w'.state.status ≠ .busy ∧ Settled w'.hw ∧ view w'.hw =
        (((view w.hw).inited bus config).transfers bus errata config.slaveMode false cs).2 := by
  have h : Ends NoError (session (device bus) errata config fuel cs w) _ := session_ends hs hcs
  obtain ⟨_, hr, w', rfl, h'⟩ := ends_noError_iff.1 h
  exact ⟨w', hr, h'.status_ne, h'.settled, h'.view_eq⟩

/-- A call with a byte to send. -/
def byteCall (tx : BitVec 8) (timeOut : ℕ) : Call := ⟨byteRequest [tx], timeOut⟩

theorem valid_byteCall (tx : BitVec 8) {timeOut : ℕ} (h : timeOut ≠ 0) :
    (byteCall tx timeOut).Valid 1 loopConfig.slaveMode :=
  ⟨valid_byteRequest (List.cons_ne_nil _ _), h⟩

/-- A call that times out, and two that do not. -/
theorem session_device_loop : ∃ w', session (device SsiBus.empty) true loopConfig 3
    [byteCall 1#8 1, byteCall 2#8 2, byteCall 3#8 9] ⟨StateStructure.cleared, Lpspi.bare⟩ =
      .ok (some ([(.timeout, some [0#8]), (.success, some [2#8]), (.success, some [3#8])],
        w')) := by
  have hcs : ∀ c ∈ [byteCall 1#8 1, byteCall 2#8 2, byteCall 3#8 9],
      c.Valid 1 loopConfig.slaveMode ∧ 2 * c.frames < 3 := by
    simp only [List.forall_mem_cons]
    exact ⟨⟨valid_byteCall _ (by decide), by decide⟩, ⟨valid_byteCall _ (by decide), by decide⟩,
      ⟨valid_byteCall _ (by decide), by decide⟩, fun _ h => absurd h List.not_mem_nil⟩
  obtain ⟨w', h, -⟩ := session_device SsiBus.empty true loopConfig 3 _
    ⟨StateStructure.cleared, Lpspi.bare⟩ Lpspi.powerOn_bare.settled hcs
  exact ⟨w', h⟩

end S32K358.LpspiIp
