import S32K358.LpspiIp.Request

/-!
# Asynchronous transfers on the device

`Lpspi_Ip_AsyncTransmit` only starts a transfer. `Lpspi_Ip_TransferProcess` goes on with it,
and is called in one of two ways, by the mode of the driver.

* In polling mode, the application calls `Lpspi_Ip_ManageBuffers`, which looks at `RDF`
  and, with slots that are free, at `TDF`. The device sets `RDF` with *four bytes* received,
  and not with a frame. With frames of one byte, the driver fills the slots with three
  frames, whose answers do not make `RDF`: the transfer is stuck for good, however often it
  is polled. All other transfers complete (`asyncTransmit_polled`).
* In interrupt mode, `Lpspi_Ip_IrqHandler` is called as long as the interrupt line is up
  (`servePass`). As `TDF` is enabled until the end, the line is up for every part of the
  transfer, and all transfers complete, those of the above kind included
  (`asyncTransmit_served`).
-/

namespace S32K358.LpspiIp

open Lpspi (Reg SsiBus State Settled Coherent bytesPerFrame)
open Program Port

variable {n : ℕ} {β : Type}

/-! ## The interrupt line -/

section Line

variable {bus : SsiBus β} {w : World (State n β)}

theorem ends_trivial {ε α : Type} {x : Except ε α} : Ends AnyError x fun _ => True := by
  rcases x with _ | _ <;> exact trivial

theorem write_coherent {r : Reg} (hs : Settled w.hw) (hr : r.readOnly = false) (v : BitVec 32) :
    Ends AnyError (w.write (device bus) r v) fun w' =>
      Settled w'.hw ∧ Coherent w'.hw := by
  refine World.ends_write ?_
  cases hwrite : (device bus).write w.hw r v with
  | error e => exact trivial
  | ok t => exact coherent_write hs hr hwrite

/-- The last frame pushed updates the line. -/
theorem pushFrames_coherent {k i : ℕ} (hs : Settled w.hw) (hk : k ≠ 0) :
    Ends AnyError (pushFrames (device bus) k i w) fun w' => Coherent w'.hw := by
  induction k generalizing i w with
  | zero => exact absurd rfl hk
  | succ k ih =>
    refine ends_trivial.bind fun data _ => ?_
    refine (write_coherent hs rfl data).bind fun w₁ h₁ => ?_
    rcases Nat.eq_zero_or_pos k with rfl | hpos
    · exact h₁.2
    · exact ih h₁.1 hpos.ne'

theorem transmitData_coherent {done : World (State n β) → Except (Stop Fault) (World (State n β))}
    (hs : Settled w.hw) (hslot : w.state.currentTxFifoSlot ≠ 0)
    (hlt : w.state.txIndex < w.state.expectedFifoWrites) :
    Ends AnyError (transmitData (device bus) done w) fun y => Coherent y.2.hw := by
  rw [transmitData, if_neg hslot, if_pos hlt.ne']
  dsimp only
  rw [pushDataToFifo, bind_assoc]
  exact (pushFrames_coherent hs (by omega)).bind fun w₁ h₁ => h₁

end Line

/-! ## The parts of the processing -/

namespace View

/-- The device is disabled, unless the chip select is to be kept. -/
def stopped (x : View n β) (keepCs : Bool) : View n β :=
  if keepCs then x else x.control (x.cr &&& ~~~crMen)

/-- The view at the end of an asynchronous transfer. -/
def ended (x : View n β) (keepCs : Bool) : View n β :=
  ((x.released keepCs).stopped keepCs).enabling 0#32

/-- The pins are configured for full-duplex transfers. -/
def fullDuplexPins (x : View n β) : View n β :=
  { x with cfgr1 := x.cfgr1 &&& ~~~(cfgr1Pcscfg ||| cfgr1Outcfg ||| cfgr1Pincfg) }

/-- The start of an asynchronous transfer. -/
def asyncStarted (bus : SsiBus β) (errata : Bool) (config : Config) (d : ExternalDevice)
    (x : View n β) : View n β :=
  (x.fullDuplexPins.started bus errata (command config.slaveMode d)).enabling
    (enabledInterrupts config.transferMode)

theorem enabling_released (x : View n β) (keepCs : Bool) (v : BitVec 32) :
    (x.enabling v).released keepCs = (x.released keepCs).enabling v := by
  rw [released, released, apply_ite (View.enabling · v)]
  rfl

theorem enabling_stopped (x : View n β) (keepCs : Bool) (v : BitVec 32) :
    (x.enabling v).stopped keepCs = (x.stopped keepCs).enabling v := by
  rw [stopped, stopped, apply_ite (View.enabling · v)]
  rfl

theorem ended_frame (x : View n β) (keepCs : Bool) (hx : Bits.any x.cr crRst = false) :
    Bits.any (x.ended keepCs).cr crRst = false ∧ (x.ended keepCs).rxWatermark = x.rxWatermark := by
  obtain ⟨hcr, -, -, -, hwater⟩ := x.released_frame keepCs
  rw [← hcr] at hx
  rw [← hwater, ended, stopped]
  split_ifs
  · exact ⟨hx, rfl⟩
  · exact ⟨((x.released keepCs).any_control _).1, rfl⟩

end View

/-- The variables at the end of a transfer. -/
def finished (st : StateStructure) : StateStructure :=
  { st with
    status := .idle
    events := st.events ++ if st.callback then [.endTransfer] else [] }

variable {bus : SsiBus β} {st : StateStructure} {x : View n β} {w : World (State n β)}

/-- A transfer that is not complete goes on. -/
theorem processEnd_of_ne {ε σ : Type} {p : Port Reg ε σ} {w : World σ}
    (hne : w.state.rxIndex ≠ w.state.expectedFifoReads) : processEnd p false w = .ok w := by
  rw [processEnd, Bool.or_false, decide_eq_false hne, if_neg Bool.false_ne_true]
  rfl

namespace Shows

theorem modifyIer (h : Shows st x w) (f : BitVec 32 → BitVec 32) :
    Ends NoError (w.modify (device bus) .ier f) (Shows st (x.enabling (f x.ier))) := by
  refine h.modify (by decide) ?_
  rw [← h.view_eq]
  exact write_ier bus _ h.settled

theorem processDone (h : Shows st x w) (htx : x.tx = []) (hb : bytesPerFrame x.tcr ≠ 0) :
    Ends NoError (processDone (device bus) w)
      (Shows st ((x.released st.keepCs).enabling (x.ier &&& ~~~ierTdie))) := by
  refine (h.modifyIer _).bind fun w₁ h₁ => ?_
  rw [← View.enabling_released]
  exact h₁.releaseCs htx hb

/-- A transfer that is complete is ended. -/
theorem processEnd_last (h : Shows st x w) (heq : st.rxIndex = st.expectedFifoReads)
    (hcr : Bits.any x.cr crRst = false) :
    Ends NoError (processEnd (device bus) false w) fun w' =>
      Shows (finished st) ((x.stopped st.keepCs).enabling 0#32) w' ∧ Coherent w'.hw := by
  rw [processEnd, h.state_eq, Bool.or_false, decide_eq_true heq, if_pos rfl]
  have hstop : Ends NoError (stopTransfer (device bus) false w)
      (Shows st (x.stopped st.keepCs)) := by
    rw [stopTransfer, h.state_eq, Bool.or_false, View.stopped]
    cases st.keepCs with
    | true =>
      simp only [Bool.not_true, Bool.false_eq_true, if_false, if_true]
      exact ends_pure h
    | false =>
      simp only [Bool.not_false, Bool.false_eq_true, if_false, if_true]
      refine h.modify_cr ?_
      rw [Bits.any_clear_of_disjoint (by decide), hcr]
  refine hstop.bind fun w₁ h₁ => ?_
  refine ((h₁.writeIer 0#32).and (write_coherent h₁.settled rfl 0#32)).bind ?_
  rintro w₂ ⟨h₂, hline⟩
  exact ends_pure ⟨h₂.upd rfl, hline.2⟩

end Shows

namespace Transfer

variable {k r t : ℕ} (T : Transfer st x k)
include T

/-- The processing of a transfer, up to its transmitting part. -/
theorem transferProcess {P : World (State n β) → Prop} (h : Flight bus st x r t w)
    (hbusy : st.status = .busy) (hrt : r ≤ t) (htk : t ≤ k)
    (hslot : t - r ≤ if r = 0 then fifoSize - 1 else fifoSize)
    (htransmit : ∀ w', Flight bus st x t t w' →
      Ends NoError (LpspiIp.transmitData (device bus) (processDone (device bus)) w') fun y =>
        Ends NoError (processEnd (device bus) false y.2) P) :
    Ends NoError (transferProcess (device bus) w) P := by
  have hst : w.state.status = .busy := by
    rw [h.state_eq]
    exact hbusy
  obtain ⟨-, -, -, -, hfaults, -⟩ : _ ∧ _ ∧ _ ∧ _ ∧ (flightView bus st x r t).faults = _ ∧ _ :=
    flightView_frame r t
  have hcalm : (flightView bus st x r t).faults = false := hfaults.trans T.calm
  rw [LpspiIp.transferProcess, if_neg (not_not.2 hst)]
  refine (h.read (by decide)).bind ?_
  rintro ⟨sr, w₁⟩ ⟨hsr, h₁⟩
  refine (h₁.clearSr (by decide)).bind fun w₂ h₂ => ?_
  have hnone : Bits.any sr (srRef ||| srTef) = false := by
    rw [show sr = w.hw.sr from hsr, ← hcalm, ← h.view_eq]
    rfl
  have hclear : (flightView bus st x r t).cleared = flightView bus st x r t := by
    rw [View.cleared, ← hcalm]
  rw [hclear] at h₂
  rw [hnone, if_neg Bool.false_ne_true]
  refine (T.receiveData h₂ hrt htk hslot).bind ?_
  rintro ⟨_, w₃⟩ ⟨-, h₃⟩
  exact (htransmit w₃ h₃).bind fun y hy => hy

omit T in
/-- Nothing is in flight: the slots are free, but that of the command before the first
    answer. -/
theorem slot_flightState (bus : SsiBus β) (st : StateStructure) (x : View n β) (t : ℕ) :
    (flightState bus st x t t).currentTxFifoSlot = if t = 0 then fifoSize - 1 else fifoSize := by
  change (if t = 0 then fifoSize - 1 - t else fifoSize - (t - t)) = _
  split_ifs with ht
  · rw [ht, Nat.sub_zero]
  · rw [Nat.sub_self, Nat.sub_zero]

end Transfer

/-! ## The processing of a transfer -/

section Processing

variable (bus : SsiBus β) (st : StateStructure) (x : View n β) (k : ℕ)

/-- The transfer is not complete. -/
def Flying (w : World (State n β)) : Prop :=
  ∃ r t, Flight bus st x r t w ∧ r < k ∧ r ≤ t ∧ t ≤ k ∧ (0 < t → r < t) ∧
    t - r ≤ if r = 0 then fifoSize - 1 else fifoSize

/-- The transfer is complete. -/
def Completed (w : World (State n β)) : Prop :=
  Shows (finished (flightState bus st x k k)) ((flightView bus st x k k).ended st.keepCs) w

end Processing

variable {k : ℕ}

/-- The processing of a transfer brings it closer to its end, and updates the interrupt
    line. -/
theorem Transfer.transferProcess_flying (T : Transfer st x k) (hbusy : st.status = .busy)
    (hcr : Bits.any x.cr crRst = false) (h : Flying bus st x k w) :
    Ends NoError (LpspiIp.transferProcess (device bus) w) fun w' =>
      (Completed bus st x k w' ∨ Flying bus st x k w' ∧ remaining w' < remaining w) ∧
        Coherent w'.hw := by
  obtain ⟨r, t, h, hrk, hrt, htk, hpos, hslot⟩ := h
  refine T.transferProcess h hbusy hrt htk hslot fun w₁ h₁ => ?_
  rcases Nat.lt_or_eq_of_le htk with hlt | rfl
  · -- Frames are pushed.
    have hslots : w₁.state.currentTxFifoSlot ≠ 0 := by
      rw [h₁.state_eq, slot_flightState]
      split_ifs <;> decide
    have hindex : w₁.state.txIndex < w₁.state.expectedFifoWrites := by
      rw [h₁.state_eq]
      exact hlt.trans_eq T.writes_eq.symm
    refine ((T.transmitData h₁ hlt rfl).and
      (transmitData_coherent h₁.settled hslots hindex)).mono ?_
    rintro ⟨_, w₂⟩ ⟨⟨-, h₂⟩, hline⟩
    have hne : w₂.state.rxIndex ≠ w₂.state.expectedFifoReads := by
      rw [h₂.state_eq]
      exact fun heq => hlt.ne (heq.trans T.reads_eq)
    have hm : 0 < min (if t = 0 then fifoSize - 1 else fifoSize) (k - t) := by
      refine Nat.lt_min.2 ⟨?_, by omega⟩
      split_ifs <;> decide
    rw [processEnd_of_ne hne]
    generalize hmin : min (if t = 0 then fifoSize - 1 else fifoSize) (k - t) = m at h₂ hm
    refine ⟨.inr ⟨⟨t, t + m, h₂, hlt, by omega, by omega, fun _ => by omega, by omega⟩, ?_⟩, hline⟩
    rw [T.remaining_shows h₂, T.remaining_shows h]
    omega
  · -- All frames have been pushed, and read back.
    obtain ⟨hcr', htcr, -⟩ : _ ∧ (flightView bus st x t t).tcr = _ ∧ _ := flightView_frame t t
    have hdone : Ends NoError (processDone (device bus) w₁) _ :=
      Shows.processDone h₁ (T.open_flightView t t).tx_eq (by rw [htcr]; exact T.bytes_ne_zero)
    refine (T.transmitData_done h₁ (by omega) hdone).mono ?_
    rintro ⟨_, w₂⟩ ⟨-, h₂⟩
    refine (h₂.processEnd_last T.reads_eq.symm ?_).mono ?_
    · rw [← View.enabling_released, (View.released_frame _ _).1]
      exact (congrArg (Bits.any · crRst) hcr').trans hcr
    · rintro w₃ ⟨h₃, hline⟩
      rw [View.enabling_stopped] at h₃
      exact ⟨.inl h₃, hline⟩

/-! ## Polling -/

theorem Shows.manageBuffers (h : Shows st x w) (hmode : st.transferMode = .polling)
    (htype : st.externalDevice.transferType = .fullDuplex) :
    manageBuffers (device bus) w =
      if Bits.any (Lpspi.peek w.hw (some .sr)) srRdf = true ∨
          Bits.any (Lpspi.peek w.hw (some .sr)) srTdf = true ∧ st.currentTxFifoSlot ≠ 0 then
        transferProcess (device bus) w
      else .ok w := by
  rw [← h.state_eq] at *
  have hread : w.read (device bus) .sr = _ := read_eq h.settled (by decide)
  have hprocess : process (device bus) w = transferProcess (device bus) w :=
    if_neg (not_not.2 htype)
  rw [LpspiIp.manageBuffers, if_neg (not_not.2 hmode), hread, ite_or, ← hprocess]
  change (if _ then _ else (w.read (device bus) .sr >>= _)) = _
  rw [hread]
  rfl

section Polling

variable (T : Transfer st x k)
include T

/-- The flags of a transfer: `TDF` is always set, and `RDF` with four bytes of answers. -/
theorem Transfer.flags {r t : ℕ} (h : Flight bus st x r t w) (hwater : x.rxWatermark = 0) :
    Bits.any (Lpspi.peek w.hw (some .sr)) srTdf = true ∧
      (r < t → Bits.any (Lpspi.peek w.hw (some .sr)) srRdf =
        decide (4 ≤ bytesPerFrame x.tcr * (t - r))) := by
  obtain ⟨-, htcr, -, -, -, -, hrxw⟩ : _ ∧ (flightView bus st x r t).tcr = _ ∧ _ :=
    flightView_frame r t
  have hlen : ((answers bus st x t).drop r).length = t - r := by
    rw [List.length_drop, length_answers]
  have hrx : (flightView bus st x r t).rx =
      bytes (flightView bus st x r t).tcr ((answers bus st x t).drop r) := by
    rw [htcr]
    rfl
  obtain ⟨htdf, hrdf⟩ := Shows.flags h (T.open_flightView r t).tx_eq hrx
  refine ⟨htdf, fun hlt => ?_⟩
  rw [hrdf (by rw [hrxw, hwater, hlen]; omega), htcr, hlen]

/-- A poll processes the transfer, unless it is one of at least three frames of one byte. -/
theorem Transfer.poll_flying (hbusy : st.status = .busy) (hmode : st.transferMode = .polling)
    (htype : st.externalDevice.transferType = .fullDuplex) (hcr : Bits.any x.cr crRst = false)
    (hwater : x.rxWatermark = 0) (hfree : ¬(bytesPerFrame x.tcr = 1 ∧ fifoSize - 1 ≤ k))
    (h : Flying bus st x k w) :
    Ends NoError (manageBuffers (device bus) w) fun w' =>
      Completed bus st x k w' ∨ Flying bus st x k w' ∧ remaining w' < remaining w := by
  have hprocess := T.transferProcess_flying hbusy hcr h
  obtain ⟨r, t, h, hrk, hrt, htk, hpos, hslot⟩ := h
  obtain ⟨htdf, hrdf⟩ := T.flags h hwater
  have hgo : Bits.any (Lpspi.peek w.hw (some .sr)) srRdf = true ∨
      Bits.any (Lpspi.peek w.hw (some .sr)) srTdf = true ∧
        (flightState bus st x r t).currentTxFifoSlot ≠ 0 := by
    refine or_iff_not_imp_right.2 fun hfull => ?_
    have hzero : (if r = 0 then fifoSize - 1 - t else fifoSize - (t - r)) = 0 := by
      by_contra hne
      exact hfull ⟨htdf, hne⟩
    have hb := T.bytes_ne_zero
    -- No slot is free with three frames in flight at first, and with four later on.
    have hbytes : r < t ∧ 4 ≤ bytesPerFrame x.tcr * (t - r) := by
      rw [fifoSize] at hzero hslot hfree
      split_ifs at hzero hslot with hr
      · have ht : t - r = 3 := by omega
        rw [ht]
        omega
      · have ht : t - r = 4 := by omega
        rw [ht]
        omega
    rw [hrdf hbytes.1, decide_eq_true hbytes.2]
  rw [Shows.manageBuffers h hmode htype, if_pos hgo]
  exact hprocess.mono fun w' h' => h'.1

/-- Three frames of one byte are stuck. -/
theorem Transfer.poll_stuck (hmode : st.transferMode = .polling)
    (htype : st.externalDevice.transferType = .fullDuplex) (hwater : x.rxWatermark = 0)
    (hb : bytesPerFrame x.tcr = 1) (h : Flight bus st x 0 (fifoSize - 1) w) :
    Ends NoError (manageBuffers (device bus) w) (Flight bus st x 0 (fifoSize - 1)) := by
  obtain ⟨-, hrdf⟩ := T.flags h hwater
  have hnot : ¬(Bits.any (Lpspi.peek w.hw (some .sr)) srRdf = true ∨
      Bits.any (Lpspi.peek w.hw (some .sr)) srTdf = true ∧
        (flightState bus st x 0 (fifoSize - 1)).currentTxFifoSlot ≠ 0) := by
    rw [hrdf (by decide), hb]
    rintro (hfour | ⟨-, hfree⟩)
    · exact absurd hfour (by decide)
    · exact hfree rfl
  rw [Shows.manageBuffers h hmode htype, if_neg hnot]
  exact h

/-- The first poll fills the slots. -/
theorem Transfer.poll_first (hbusy : st.status = .busy) (hmode : st.transferMode = .polling)
    (htype : st.externalDevice.transferType = .fullDuplex) (hwater : x.rxWatermark = 0)
    (hk : fifoSize - 1 ≤ k) (h : Flight bus st x 0 0 w) :
    Ends NoError (manageBuffers (device bus) w) (Flight bus st x 0 (fifoSize - 1)) := by
  obtain ⟨htdf, -⟩ := T.flags h hwater
  rw [Shows.manageBuffers h hmode htype, if_pos (.inr ⟨htdf, Nat.succ_ne_zero _⟩)]
  refine T.transferProcess h hbusy le_rfl (Nat.zero_le _) (Nat.zero_le _) fun w₁ h₁ => ?_
  have hlt : 0 < k := hk.trans_lt' (by decide)
  refine (T.transmitData h₁ hlt rfl).mono ?_
  rintro ⟨_, w₂⟩ ⟨-, h₂⟩
  rw [if_pos rfl, Nat.sub_zero, Nat.zero_add, min_eq_left hk] at h₂
  have hne : w₂.state.rxIndex ≠ w₂.state.expectedFifoReads := by
    rw [h₂.state_eq]
    exact fun heq => hlt.ne (heq.trans T.reads_eq)
  rw [processEnd_of_ne hne]
  exact h₂

omit T in
/-- A transfer that is complete is not processed any more. -/
theorem transferProcess_completed (h : Completed bus st x k w) :
    transferProcess (device bus) w = .ok w := by
  have hst : w.state.status ≠ .busy := by
    rw [h.state_eq]
    exact HwStatusType.noConfusion
  rw [transferProcess, if_pos hst]
  rfl

omit T in
theorem poll_completed (hmode : st.transferMode = .polling)
    (htype : st.externalDevice.transferType = .fullDuplex) (h : Completed bus st x k w) :
    Ends NoError (manageBuffers (device bus) w) (Completed bus st x k) := by
  rw [Shows.manageBuffers h hmode htype, transferProcess_completed h, ite_self]
  exact h

end Polling

/-! ## Interrupts -/

theorem Shows.irqHandler (h : Shows st x w)
    (htype : st.externalDevice.transferType = .fullDuplex) :
    irqHandler (device bus) w =
      if Lpspi.peek w.hw (some .sr) &&& (srTdf ||| srRdf ||| srTef ||| srRef) &&&
          (Lpspi.peek w.hw (some .ier) &&& (ierTdie ||| ierRdie ||| ierTeie ||| ierReie)) ≠
            0#32 then
        transferProcess (device bus) w
      else .ok w := by
  rw [← h.state_eq] at htype
  have hsr : w.read (device bus) .sr = _ := read_eq h.settled (by decide)
  have hier : w.read (device bus) .ier = _ := read_eq h.settled (by decide)
  have hprocess : process (device bus) w = transferProcess (device bus) w :=
    if_neg (not_not.2 htype)
  rw [LpspiIp.irqHandler, hsr, ← hprocess]
  change (w.read (device bus) .ier >>= _) = _
  rw [hier]
  rfl

section Interrupts

variable (T : Transfer st x k)
include T

/-- The interrupt line is up during the transfer, and its handler processes it. -/
theorem Transfer.serve_flying (hbusy : st.status = .busy)
    (htype : st.externalDevice.transferType = .fullDuplex) (hcr : Bits.any x.cr crRst = false)
    (hwater : x.rxWatermark = 0) (hier : x.ier = enabledInterrupts .interrupt)
    (h : Flying bus st x k w) (hline : Coherent w.hw) :
    w.hw.irq = true ∧ Ends NoError (LpspiIp.irqHandler (device bus) w) fun w' =>
      (Completed bus st x k w' ∨ Flying bus st x k w' ∧ remaining w' < remaining w) ∧
        Coherent w'.hw := by
  have hprocess := T.transferProcess_flying hbusy hcr h
  obtain ⟨r, t, h, -⟩ := h
  obtain ⟨htdf, -⟩ := T.flags h hwater
  obtain ⟨-, -, -, -, -, hier', -⟩ : _ ∧ _ ∧ _ ∧ _ ∧ _ ∧ (flightView bus st x r t).ier = _ ∧ _ :=
    flightView_frame r t
  have henabled : w.hw.ier = enabledInterrupts .interrupt := by
    rw [← hier, ← hier', ← h.view_eq]
    rfl
  have htdf' : Bits.any w.hw.sr Lpspi.srTdf = true := htdf
  constructor
  · rw [show w.hw.irq = Lpspi.irqLevel w.hw from hline, Lpspi.irqLevel_eq, htdf', henabled]
    rfl
  · rw [Shows.irqHandler h htype, if_pos ?_]
    · exact hprocess
    · intro hnone
      have hbit : Bits.any (Lpspi.peek w.hw (some .sr) &&& (srTdf ||| srRdf ||| srTef ||| srRef) &&&
          (Lpspi.peek w.hw (some .ier) &&& (ierTdie ||| ierRdie ||| ierTeie ||| ierReie)))
          srTdf = true := by
        rw [srTdf, Bits.any_and_left _ _ (by decide), Bits.any_and_left _ _ (by decide),
          Bits.any_and_left _ _ (by decide), ← srTdf, htdf,
          show Lpspi.peek w.hw (some .ier) = _ from henabled]
        decide
      rw [hnone, Bits.any_zero_left] at hbit
      exact Bool.false_ne_true hbit

omit T in
/-- The line is down when the transfer is complete. -/
theorem irq_completed (h : Completed bus st x k w) (hline : Coherent w.hw) : w.hw.irq = false := by
  have hier : w.hw.ier = 0#32 := congrArg View.ier h.view_eq
  rw [show w.hw.irq = Lpspi.irqLevel w.hw from hline, Lpspi.irqLevel, hier, BitVec.and_zero,
    Bits.any_zero_left]

end Interrupts

/-! ## The start of a transfer -/

variable {errata callback keepCs : Bool} {config : Config} {q : Request}

/-- The variables at the start of an asynchronous transfer. -/
def asyncPrepared (st : StateStructure) (q : Request) (callback : Bool) : StateStructure :=
  { prepared st q with callback := callback }

theorem Rested.asyncTransmit (h : Rested config keepCs x w) (hq : q.Valid n config.slaveMode) :
    Ends NoError
      (asyncTransmit (device bus) errata q.device q.txBuffer q.rxBuffer q.length callback w)
      fun r => r.1 = .success ∧ Coherent r.2.hw ∧ Shows (asyncPrepared w.state q callback)
        (x.asyncStarted bus errata config q.device) r.2 := by
  obtain ⟨⟨hfirst, rfl, hmode, -⟩, hstatus, hs, hview, hcr, -⟩ := h
  have hshows : Shows w.state x w := ⟨rfl, hs, hview⟩
  rw [LpspiIp.asyncTransmit, World.devAssert_of hq.length_ne_zero, ends_ok_bind,
    checkValidParameters_eq hq.length_mod, ends_ok_bind, if_neg hstatus]
  have hcfgr1 : Ends NoError (w.modify (device bus) .cfgr1
      (· &&& ~~~(cfgr1Pcscfg ||| cfgr1Outcfg ||| cfgr1Pincfg))) (Shows w.state x.fullDuplexPins) :=
    hshows.modifyCfgr1 _
  refine hcfgr1.bind fun w₁ h₁ => ?_
  have h₂ : Shows
      { w.state with
        status := .busy
        externalDevice := q.device
        callback := callback
        currentTxFifoSlot := fifoSize } x.fullDuplexPins (w₁.upd fun st =>
      { st with
        status := .busy
        externalDevice := q.device
        callback := callback
        currentTxFifoSlot := fifoSize }) := h₁.upd rfl
  dsimp only
  refine (h₂.transmitTxInit hfirst hq.sends hcr hq.bytes_ne_zero).bind fun w₃ h₃ => ?_
  have h₄ : Shows (asyncPrepared w.state q callback)
      (x.fullDuplexPins.started bus errata (command w.state.phyUnitConfig.slaveMode q.device))
      (transmitRxInit q.rxBuffer q.length w₃) := by
    refine h₃.upd ?_
    simp only [hq.fullDuplex, if_true]
    rfl
  refine (h₄.writeDer 0#32).bind fun w₅ h₅ => ?_
  refine ((h₅.writeIer _).and (write_coherent h₅.settled rfl _)).bind ?_
  rintro w₆ ⟨h₆, -, hline⟩
  refine ends_pure ⟨rfl, hline, ?_⟩
  rw [h₅.state_eq, show (asyncPrepared w.state q callback).transferMode = _ from hmode] at h₆
  exact h₆

/-- The transfer of a valid request, from its start. -/
theorem Request.Valid.asyncTransfer (hq : q.Valid n config.slaveMode) :
    Transfer (asyncPrepared st q callback) (x.asyncStarted bus errata config q.device)
      q.frames := by
  have T : Transfer (prepared st q) (x.fullDuplexPins.started bus errata _) q.frames := hq.transfer
  exact ⟨⟨T.ready.men, T.ready.tx_eq, T.ready.unmasked, T.ready.pcs_lt⟩, T.rx_eq, T.calm,
    T.bytes_ne_zero, T.writes_eq, T.reads_eq, T.fits_tx, T.fits_rx⟩

/-! ## Whole transfers -/

/-- What a transfer that completes comes to: the buffer received, and the view of the
    device. -/
def View.asyncDone (bus : SsiBus β) (config : Config) (keepCs : Bool) (q : Request)
    (y : View n β) : Buffer × View n β :=
  let b := bytesPerFrame (command config.slaveMode q.device)
  let r := y.exchanges bus (frames b q.device q.txBuffer 0 q.frames)
  (q.rxBuffer.map (put (frameWidth q.device.frameSize) 0 (r.1.map (truncate b))), r.2.ended keepCs)

theorem View.asyncStarted_frame (bus : SsiBus β) (errata : Bool) (config : Config)
    (d : ExternalDevice) (x : View n β) :
    Bits.any (x.asyncStarted bus errata config d).cr crRst = false ∧
      (x.asyncStarted bus errata config d).rx = [] ∧
      (x.rxWatermark = 0 → (x.asyncStarted bus errata config d).rxWatermark = 0) := by
  obtain ⟨hcr, -, -, -, hrx, -⟩ :=
    x.fullDuplexPins.started_frame bus errata (command config.slaveMode d)
  exact ⟨hcr, hrx, x.fullDuplexPins.started_rxWatermark bus errata (command config.slaveMode d)⟩

/-- The driver is at rest after a transfer that completes, with its answers. -/
theorem Completed.rested {w' : World (State n β)} (h : Rested config keepCs x w)
    (hw' : Completed bus (asyncPrepared w.state q callback)
      (x.asyncStarted bus errata config q.device) q.frames w') :
    let z := (x.asyncStarted bus errata config q.device).asyncDone bus config keepCs q
    w'.state.status = .idle ∧ w'.state.rxBuffer = z.1 ∧
      w'.state.events = w.state.events ++ (if callback then [.endTransfer] else []) ∧
      Rested config keepCs z.2 w' := by
  obtain ⟨hcr, hrx, hwater⟩ := x.asyncStarted_frame bus errata config q.device
  obtain ⟨hcr', -, -, -, -, -, -, hwater'⟩ := View.exchanges_frame bus
    (x.asyncStarted bus errata config q.device)
    (sent (asyncPrepared w.state q callback) (x.asyncStarted bus errata config q.device) q.frames)
  obtain ⟨hstate, hs, hview⟩ := hw'
  rw [flightView_of_rx hrx,
    show (asyncPrepared w.state q callback).keepCs = _ from h.configured.keepCs_eq] at hview
  obtain ⟨hended, hendedw⟩ := View.ended_frame
    ((x.asyncStarted bus errata config q.device).exchanges
    bus (sent (asyncPrepared w.state q callback) (x.asyncStarted bus errata config q.device)
      q.frames)).2 keepCs (hcr'.symm ▸ hcr)
  refine ⟨?_, ?_, ?_, ?_⟩
  · rw [hstate]
    rfl
  · rw [hstate]
    change q.rxBuffer.map (put _ 0 (List.map _ (List.take _ _))) = _
    rw [List.take_of_length_le (length_answers _).le]
    rfl
  · rw [hstate]
    rfl
  · exact {
      configured := by
        rw [hstate]
        exact ⟨h.configured.firstCmd, h.configured.config_eq, h.configured.mode_eq,
          h.configured.keepCs_eq⟩
      status_ne := by
        rw [hstate]
        exact HwStatusType.noConfusion
      settled := hs
      view_eq := hview
      cr := hended
      watermark := hendedw.trans (hwater'.trans (hwater h.watermark)) }

/-- With more than two frames of one byte, all polls but the first do nothing. -/
theorem polls_stuck {y : View n β} {w₁ : World (State n β)} (j : ℕ)
    (T : Transfer (asyncPrepared st q callback) y q.frames) (hmode : st.transferMode = .polling)
    (htype : q.device.transferType = .fullDuplex) (hwater : y.rxWatermark = 0)
    (hb : bytesPerFrame y.tcr = 1) (hk : 3 ≤ q.frames)
    (h₁ : Flight bus (asyncPrepared st q callback) y 0 0 w₁) :
    Ends NoError (times (manageBuffers (device bus)) (j + 1) w₁) fun w₂ =>
      w₂.state.status = .busy ∧ w₂.state.rxBuffer = q.rxBuffer ∧ w₂.state.events = st.events ∧
        view w₂.hw = (y.exchanges bus (frames 1 q.device q.txBuffer 0 3)).2.holding
          (bytes y.tcr (y.exchanges bus (frames 1 q.device q.txBuffer 0 3)).1) := by
  refine (T.poll_first rfl hmode htype hwater hk h₁).bind fun w₂ h₂ => ?_
  refine (times_ends (fun w h => T.poll_stuck hmode htype hwater hb h) h₂ j).mono fun w₃ h₃ => ?_
  obtain ⟨hstate, -, hview⟩ := h₃
  rw [hstate, hview]
  refine ⟨rfl, ?_, rfl, ?_⟩
  · change q.rxBuffer.map (put _ 0 []) = q.rxBuffer
    rw [put_nil, Option.map_id_apply]
  · rw [flightView, answers, sent, hb, List.drop_zero]
    rfl

/-- All other transfers complete. -/
theorem polls_complete {y : View n β} {w₁ : World (State n β)} {j : ℕ}
    (T : Transfer (asyncPrepared st q callback) y q.frames) (hmode : st.transferMode = .polling)
    (htype : q.device.transferType = .fullDuplex) (hcr : Bits.any y.cr crRst = false)
    (hwater : y.rxWatermark = 0) (hfree : ¬(bytesPerFrame y.tcr = 1 ∧ 3 ≤ q.frames))
    (hpos : 0 < q.frames) (hj : 2 * q.frames < j)
    (h₁ : Flight bus (asyncPrepared st q callback) y 0 0 w₁) :
    Ends NoError (times (manageBuffers (device bus)) j w₁)
      (Completed bus (asyncPrepared st q callback) y q.frames) := by
  refine times_reaches remaining
    (fun w h => T.poll_flying rfl hmode htype hcr hwater hfree h)
    (fun w h => poll_completed hmode htype h)
    ⟨0, 0, h₁, hpos, le_rfl, Nat.zero_le _, fun h => h, Nat.zero_le _⟩ ?_
  rw [T.remaining_shows h₁]
  omega

/-- **A polled transfer.** An asynchronous transfer that is polled completes, unless it is one
    of three or more frames of one byte. Such a transfer is stuck for good: three frames have
    been exchanged, and their answers are not read. -/
theorem asyncTransmit_polled (bus : SsiBus β) (errata callback : Bool) (q : Request) (j : ℕ)
    (h : Rested config keepCs x w) (hmode : config.transferMode = .polling)
    (hq : q.Valid n config.slaveMode) (hj : 2 * q.frames < j) :
    let y := x.asyncStarted bus errata config q.device
    let z := y.asyncDone bus config keepCs q
    ∃ w₁ w₂,
      asyncTransmit (device bus) errata q.device q.txBuffer q.rxBuffer q.length callback w =
        .ok (.success, w₁) ∧
      times (manageBuffers (device bus)) j w₁ = .ok w₂ ∧
      if bytesPerFrame (command config.slaveMode q.device) = 1 ∧ 3 ≤ q.frames then
        w₂.state.status = .busy ∧ w₂.state.rxBuffer = q.rxBuffer ∧
          w₂.state.events = w.state.events ∧
          view w₂.hw =
            (y.exchanges bus (frames 1 q.device q.txBuffer 0 3)).2.holding
              (bytes y.tcr (y.exchanges bus (frames 1 q.device q.txBuffer 0 3)).1)
      else
        w₂.state.status = .idle ∧ w₂.state.rxBuffer = z.1 ∧
          w₂.state.events = w.state.events ++ (if callback then [.endTransfer] else []) ∧
          Rested config keepCs z.2 w₂ := by
  intro y z
  have hstart : Ends NoError (asyncTransmit (device bus) errata q.device q.txBuffer q.rxBuffer
      q.length callback w) _ := h.asyncTransmit hq
  obtain ⟨⟨_, w₁⟩, hok, rfl, -, h₁⟩ := ends_noError_iff.1 hstart
  have T : Transfer (asyncPrepared w.state q callback) y q.frames := hq.asyncTransfer
  have hflight : Flight bus (asyncPrepared w.state q callback) y 0 0 w₁ :=
    T.flight_zero rfl rfl rfl h₁
  obtain ⟨hcr, -, hwater⟩ := x.asyncStarted_frame bus errata config q.device
  have hmode' : w.state.transferMode = .polling := h.configured.mode_eq.trans hmode
  by_cases hstuck : bytesPerFrame (command config.slaveMode q.device) = 1 ∧ 3 ≤ q.frames
  · obtain ⟨j, rfl⟩ := Nat.exists_eq_succ_of_ne_zero (Nat.ne_zero_of_lt hj)
    obtain ⟨w₂, hrun, hw₂⟩ := ends_noError_iff.1 (polls_stuck j T hmode' hq.fullDuplex
      (hwater h.watermark) hstuck.1 hstuck.2 hflight)
    refine ⟨w₁, w₂, hok, hrun, ?_⟩
    rw [if_pos hstuck]
    exact hw₂
  · obtain ⟨w₂, hrun, hw₂⟩ := ends_noError_iff.1 (polls_complete T hmode' hq.fullDuplex hcr
      (hwater h.watermark) hstuck hq.frames_pos hj hflight)
    refine ⟨w₁, w₂, hok, hrun, ?_⟩
    rw [if_neg hstuck]
    exact hw₂.rested h

/-- Three bytes that are polled for are stuck. -/
theorem asyncTransmit_polled_stuck : ∃ w₀ w₁ w₂,
    init (device SsiBus.empty) loopConfig ⟨StateStructure.cleared, Lpspi.bare⟩ = .ok w₀ ∧
    asyncTransmit (device SsiBus.empty) true byteDevice (some [1#8, 2#8, 3#8])
      (some [0#8, 0#8, 0#8]) 3 true w₀ = .ok (.success, w₁) ∧
    times (manageBuffers (device SsiBus.empty)) 7 w₁ = .ok w₂ ∧ w₂.state.status = .busy ∧
    w₂.state.rxBuffer = some [0#8, 0#8, 0#8] ∧ w₂.state.events = w₀.state.events := by
  obtain ⟨w₀, hinit, hrested⟩ := ends_noError_iff.1 (init_device SsiBus.empty loopConfig
    (w := ⟨StateStructure.cleared, Lpspi.bare⟩) Lpspi.powerOn_bare.settled)
  obtain ⟨w₁, w₂, hasync, htimes, hw₂⟩ := asyncTransmit_polled SsiBus.empty true true
    (byteRequest [1#8, 2#8, 3#8]) 7 hrested rfl (valid_byteRequest (List.cons_ne_nil _ _))
    (by decide)
  rw [if_pos (by decide)] at hw₂
  exact ⟨w₀, w₁, w₂, hinit, hasync, htimes, hw₂.1, hw₂.2.1, hw₂.2.2.1⟩

/-! ## Interrupts, from the start to the end -/

/-- The processor calls the handler as long as the interrupt line is up. -/
def servePass (bus : SsiBus β) (w : World (State n β)) :
    Except (Stop Fault) (Pass (World (State n β)) (World (State n β))) :=
  if w.hw.irq then do
    let w ← irqHandler (device bus) w
    pure (.next w)
  else pure (.exit w)

theorem Transfer.remaining_flying (T : Transfer st x k) (h : Flying bus st x k w) :
    0 < remaining w := by
  obtain ⟨r, t, h, hrk, -⟩ := h
  rw [T.remaining_shows h]
  omega

theorem Transfer.remaining_completed (T : Transfer st x k) (h : Completed bus st x k w) :
    remaining w = 0 := by
  rw [remaining, h.state_eq]
  change (st.expectedFifoReads - k) + (st.expectedFifoWrites - k) = 0
  rw [T.reads_eq, T.writes_eq, Nat.sub_self]

theorem Transfer.servePass_ends (T : Transfer st x k) (hbusy : st.status = .busy)
    (htype : st.externalDevice.transferType = .fullDuplex) (hcr : Bits.any x.cr crRst = false)
    (hwater : x.rxWatermark = 0) (hier : x.ier = enabledInterrupts .interrupt)
    (w : World (State n β))
    (h : (Flying bus st x k w ∨ Completed bus st x k w) ∧ Coherent w.hw) :
    Ends NoError (servePass bus w) (Loop.After
      (fun w => (Flying bus st x k w ∨ Completed bus st x k w) ∧ Coherent w.hw)
      (Completed bus st x k) remaining w) := by
  obtain ⟨h | h, hline⟩ := h
  · obtain ⟨hirq, hhandler⟩ := T.serve_flying hbusy htype hcr hwater hier h hline
    rw [servePass, if_pos hirq]
    refine hhandler.bind fun w₁ h₁ => ends_pure ?_
    obtain ⟨h₁ | ⟨h₁, hlt⟩, hline₁⟩ := h₁
    · refine ⟨⟨.inr h₁, hline₁⟩, ?_⟩
      rw [T.remaining_completed h₁]
      exact T.remaining_flying h
    · exact ⟨⟨.inl h₁, hline₁⟩, hlt⟩
  · rw [servePass, if_neg (by rw [irq_completed h hline]; exact Bool.false_ne_true)]
    exact h

/-- **A transfer with interrupts.** An asynchronous transfer whose handler is called as long
    as the interrupt line is up completes, and the line is down then. -/
theorem asyncTransmit_served (bus : SsiBus β) (errata callback : Bool) (q : Request) (fuel : ℕ)
    (h : Rested config keepCs x w) (hmode : config.transferMode = .interrupt)
    (hq : q.Valid n config.slaveMode) (hfuel : 2 * q.frames < fuel) :
    let z := (x.asyncStarted bus errata config q.device).asyncDone bus config keepCs q
    ∃ w₁ w₂,
      asyncTransmit (device bus) errata q.device q.txBuffer q.rxBuffer q.length callback w =
        .ok (.success, w₁) ∧
      Loop.run (servePass bus) fuel w₁ = .ok (some w₂) ∧
      w₂.state.status = .idle ∧ w₂.state.rxBuffer = z.1 ∧
      w₂.state.events = w.state.events ++ (if callback then [.endTransfer] else []) ∧
      Rested config keepCs z.2 w₂ := by
  have hstart : Ends NoError (asyncTransmit (device bus) errata q.device q.txBuffer q.rxBuffer
      q.length callback w) _ := h.asyncTransmit hq
  obtain ⟨⟨_, w₁⟩, hok, rfl, hline, h₁⟩ := ends_noError_iff.1 hstart
  have T : Transfer (asyncPrepared w.state q callback)
      (x.asyncStarted bus errata config q.device) q.frames := hq.asyncTransfer
  have hflight : Flight bus (asyncPrepared w.state q callback) _ 0 0 w₁ :=
    T.flight_zero rfl rfl rfl h₁
  obtain ⟨hcr, -, hwater⟩ := x.asyncStarted_frame bus errata config q.device
  have hier : (x.asyncStarted bus errata config q.device).ier = enabledInterrupts .interrupt :=
    congrArg enabledInterrupts hmode
  have hrank : remaining w₁ < fuel := by
    rw [T.remaining_shows hflight]
    omega
  obtain ⟨_, hrun, w₂, rfl, hw₂⟩ := ends_noError_iff.1 (Loop.run_ends remaining
    (T.servePass_ends rfl hq.fullDuplex hcr (hwater h.watermark) hier)
    ⟨.inl ⟨0, 0, hflight, hq.frames_pos, le_rfl, Nat.zero_le _, fun h => h, Nat.zero_le _⟩, hline⟩
    hrank)
  exact ⟨w₁, w₂, hok, hrun, hw₂.rested h⟩

/-- The same three bytes, with interrupts. -/
theorem asyncTransmit_served_loop : ∃ w₀ w₁ w₂,
    init (device SsiBus.empty) { loopConfig with transferMode := .interrupt }
      ⟨StateStructure.cleared, Lpspi.bare⟩ = .ok w₀ ∧
    asyncTransmit (device SsiBus.empty) true byteDevice (some [1#8, 2#8, 3#8])
      (some [0#8, 0#8, 0#8]) 3 true w₀ = .ok (.success, w₁) ∧
    Loop.run (servePass SsiBus.empty) 7 w₁ = .ok (some w₂) ∧ w₂.state.status = .idle ∧
    w₂.state.rxBuffer = some [1#8, 2#8, 3#8] ∧
    w₂.state.events = w₀.state.events ++ [.endTransfer] := by
  obtain ⟨w₀, hinit, hrested⟩ := ends_noError_iff.1 (init_device SsiBus.empty
    { loopConfig with transferMode := .interrupt }
    (w := ⟨StateStructure.cleared, Lpspi.bare⟩) Lpspi.powerOn_bare.settled)
  obtain ⟨w₁, w₂, hasync, hrun, hstatus, hbuffer, hevents, -⟩ := asyncTransmit_served SsiBus.empty
    true true (byteRequest [1#8, 2#8, 3#8]) 7 hrested rfl
    (valid_byteRequest (List.cons_ne_nil _ _)) (by decide)
  exact ⟨w₀, w₁, w₂, hinit, hasync, hrun, hstatus, hbuffer, hevents⟩

end S32K358.LpspiIp
