import S32K358.LpuartUartIp.Receive

/-!
# Transfers by interrupts

The calls that start a transfer by interrupts, those that abort one, and
`Lpuart_Uart_Ip_IrqHandler` on the device, for a driver without a callback. Two things of the
device decide what becomes of the transfers: it never sets `TC`, and it sets `TDRE` only when
a character is sent. So a transmission by interrupts is never completed, and aborting it
waits for `TC` in vain.
-/

namespace S32K358.LpuartUartIp

open Program Port OsIf

variable {traffic : ℕ → Traffic} {st : StateStructure} {x : View} {e : Ear} {l : List (BitVec 8)}
  {w : World Bench} {c : UserConfig}

/-! ## Sending -/

theorem Sees.syncSend {q : SendCall} (h : Sees st x e l w) (hreg : st.registered = true)
    (hidle : st.isTxBusy = false) (hq : q.Valid) :
    Ends NoError (syncSend (device traffic) c q.txBuff q.txSize q.timeout w) fun r =>
      ∃ w', r = some (q.status c.bitCountPerChar, w') ∧
        Sees (q.after c.bitCountPerChar st) (x.afterSend (q.sentChars c.bitCountPerChar)) e l
          w' := by
  refine ((h.toShows.syncSend hreg hidle hq).and (h.toHears.syncSend _ _ _)).mono ?_
  rintro _ ⟨⟨w', rfl, h'⟩, hears⟩
  exact ⟨w', rfl, { h', hears _ rfl with }⟩

/-- The state structure at the start of a transmission. -/
def StateStructure.transmitting (st : StateStructure) (txBuff : List (BitVec 8)) (txSize : ℕ) :
    StateStructure :=
  { st with isTxBusy := true, txBuff := txBuff, txSize := txSize, transmitStatus := .busy }

/-- The transmitter and its interrupt are on. -/
def View.startSending (x : View) : View := x.switch [(ctrlTe, true), (ctrlTie, true)]

theorem Sees.asyncSend {txBuff : List (BitVec 8)} {txSize : ℕ} (h : Sees st x e l w)
    (hreg : st.registered = true) (hidle : st.isTxBusy = false)
    (hc : c.transferType = .usingInterrupts) (hpos : 0 < txSize) :
    Ends NoError (asyncSend (device traffic) c txBuff txSize w) fun a =>
      a.1 = .success ∧ Sees (st.transmitting txBuff txSize) x.startSending e l a.2 := by
  refine ends_idle (b := StateStructure.isTxBusy) hpos (by rw [h.state_eq, hreg])
    (by rw [h.state_eq, hidle]) ?_
  rw [if_pos hc]
  refine Ends.bind ?_ fun w' h' => ends_pure ⟨rfl, h'⟩
  have h₀ := (h.upd fun st => { st with isTxBusy := true }).upd fun st =>
    { st with txBuff := txBuff, txSize := txSize, transmitStatus := .busy }
  exact (h₀.assign (m := ctrlTe) (by decide) true).bind fun w₁ h₁ =>
    h₁.assign (m := ctrlTie) (by decide) true

theorem Sees.putData (h : Sees st x e l w) (hst : st.Sendable) {a : BitVec 8}
    {l' : List (BitVec 8)} (hl : st.unsent = a :: l') :
    Ends NoError (putData (device traffic) c w)
      (Sees (st.charTaken c.bitCountPerChar) (x.sending a) e l) :=
  ((h.toShows.putData hst hl).and h.toHears.putData).mono fun _ h' => { h'.1, h'.2 with }

theorem invokeCallback_none (hc : c.callback = none) (event : EventType) :
    invokeCallback c event w = w := by
  rw [invokeCallback, hc]
  rfl

/-- A character is sent from an interrupt; after the last one, the end of the transmission is
    waited for. -/
def View.serving (x : View) (a : BitVec 8) (last : Bool) : View :=
  if last then (x.sending a).switch [(ctrlTie, false), (ctrlTcie, true)] else x.sending a

theorem Sees.txEmptyIrqHandler (h : Sees st x e l w) (hc : c.callback = none) (hst : st.Sendable)
    {a : BitVec 8} {l' : List (BitVec 8)} (hl : st.unsent = a :: l') :
    Ends NoError (txEmptyIrqHandler (device traffic) c w)
      (Sees (st.charTaken c.bitCountPerChar)
        (x.serving a (decide ((st.charTaken c.bitCountPerChar).txSize = 0))) e l) := by
  have hpos : st.txSize > 0 := by
    refine Nat.pos_of_ne_zero fun hzero => ?_
    rw [(unsent_eq_nil_iff hst).2 hzero] at hl
    exact nomatch hl
  rw [LpuartUartIp.txEmptyIrqHandler, h.state_eq, if_pos hpos]
  refine (h.putData hst hl).bind fun w₁ h₁ => ?_
  rw [invokeCallback_none hc, ite_self]
  dsimp only
  rw [h₁.state_eq, View.serving]
  refine ends_ite (fun hlast => ?_) fun hlast => ?_
  · rw [decide_eq_true hlast, if_pos rfl]
    exact (h₁.assign (m := ctrlTie) (by decide) false).bind fun w₂ h₂ =>
      h₂.assign (m := ctrlTcie) (by decide) true
  · rw [decide_eq_false hlast, if_neg Bool.false_ne_true]
    exact ends_pure h₁

/-! ## The end of a transmission -/

theorem checkTimeout_zero (elapsedTicks : ℕ) :
    (checkTimeout (microsToTicks timeoutValueUs) elapsedTicks).1 = true :=
  decide_eq_true (Nat.zero_le ((elapsedTicks + getElapsed) % 2 ^ 32))

/-- There is no time to wait for a flag that is not set. -/
theorem Sees.awaitClear (h : Sees st x e l w) {m : BitVec 32} (hm : statRdrf &&& m = 0#32)
    (hclear : Bits.any x.flags m = false) :
    Ends NoError (awaitFlag (device traffic) m (microsToTicks timeoutValueUs) 0 w) fun r =>
      ∃ s, r = some s ∧ Sees st x e l s.1 := by
  refine Loop.run_ends (I := fun s => Sees st x e l s.1) (fun _ => 0) ?_ h (Nat.succ_pos _)
  rintro ⟨w', e'⟩ h'
  refine (Sees.getStatusFlag h' hm).bind ?_
  rintro ⟨set, w₁⟩ ⟨rfl, h₁⟩
  rw [hclear]
  exact h₁

/-- The transmitter and its interrupts are off. -/
def View.stopSending (x : View) : View :=
  x.switch [(ctrlTie, false), (ctrlTcie, false), (ctrlTe, false)]

/-- The state structure at the end of a transmission that is aborted: `TC` is not set. -/
def StateStructure.abortedSending (st : StateStructure) : StateStructure :=
  { st with transmitStatus := .timeout, isTxBusy := false }

theorem Sees.completeSendDataUsingInt (h : Sees st x e l w) (htc : Bits.any x.flags statTc = false)
    (hstatus : st.transmitStatus ≠ .busy) :
    Ends NoError (completeSendDataUsingInt (device traffic) w) fun r =>
      ∃ w', r = some w' ∧ Sees st.abortedSending x.stopSending e l w' := by
  rw [LpuartUartIp.completeSendDataUsingInt, disableTie, h.state_eq, if_pos hstatus]
  refine (h.assign (m := ctrlTie) (by decide) false).bind fun w₁ h₁ => ?_
  refine (h₁.assign (m := ctrlTcie) (by decide) false).bind fun w₂ h₂ => ?_
  -- The loop is left in its first pass, without `TC`.
  refine (h₂.awaitClear (m := statTc) (by decide) htc).bind ?_
  rintro _ ⟨⟨w₃, e₃⟩, rfl, h₃⟩
  simp only [checkTimeout_zero, if_true]
  refine ((Sees.upd h₃ fun st => { st with transmitStatus := .timeout }).assign
    (m := ctrlTe) (by decide) false).bind fun w₄ h₄ => ends_pure ⟨_, rfl, ?_⟩
  exact h₄.upd fun st => { st with
    transmitStatus := if st.transmitStatus = .busy then .success else st.transmitStatus
    isTxBusy := false }

/-- The device has no `FIFO` register. -/
theorem Sees.modifyFifo (h : Sees st x e l w) (f : BitVec 32 → BitVec 32) :
    Ends NoError (w.modify (device traffic) .fifo f) (Sees st x e l) := by
  refine ((h.toShows.modify .fifo f).and (h.toHears.modifyOther (by decide) f)).mono ?_
  rintro w' ⟨⟨_, -, h'⟩, hears'⟩
  exact { h', hears' with }

theorem Sees.abortSendingData (h : Sees st x e l w) (hreg : st.registered = true)
    (hc : c.transferType = .usingInterrupts) (hbusy : st.isTxBusy = true)
    (htc : Bits.any x.flags statTc = false) :
    Ends NoError (abortSendingData (device traffic) c w) fun r =>
      ∃ w', r = some (.error, w') ∧ Sees st.abortedSending x.stopSending e l w' := by
  rw [LpuartUartIp.abortSendingData, World.devAssert_of (by rw [h.state_eq, hreg])]
  refine ends_ok_bind.2 ?_
  rw [show w.state.isTxBusy = true by rw [h.state_eq, hbusy], if_pos rfl, stopSending, if_pos hc]
  refine ((h.upd fun st => { st with transmitStatus := .aborted }).completeSendDataUsingInt htc
    StatusType.noConfusion).bind ?_
  rintro _ ⟨w₁, rfl, h₁⟩
  refine (h₁.modifyFifo _).bind fun w₂ h₂ => ends_pure ⟨w₂, ?_, h₂⟩
  rw [h₂.state_eq]
  rfl

/-! ## Receiving -/

/-- The flags that are left when the flags of errors are cleared. -/
def View.clearingErrors (x : View) : View :=
  { x with
    flags := x.flags &&& (~~~statRegFlagsMask ||| (statOr ||| statNf ||| statFe ||| statPf)) }

theorem not_small_of_or {m : BitVec 32} (hm : m.getLsbD 19 = true) (v : BitVec 32) :
    ¬(v ||| m) ≤ 0x3FF#32 := by
  intro hle
  have hlt : (v ||| m).toNat < 2 ^ 19 := by
    rw [BitVec.le_def] at hle
    exact Nat.lt_of_le_of_lt hle (by decide)
  have hbit : (v ||| m).getLsbD 19 = false := Nat.testBit_lt_two_pow hlt
  rw [BitVec.getLsbD_or, hm, Bool.or_true] at hbit
  exact nomatch hbit

theorem and_and_or_eq (a b c d : BitVec 32) :
    a &&& b &&& (a &&& c ||| d) = a &&& b &&& (c ||| d) := by
  apply BitVec.eq_of_getLsbD_eq
  intro i hi
  simp only [BitVec.getLsbD_and, BitVec.getLsbD_or]
  cases a.getLsbD i <;> simp

theorem Sees.clearErrorFlags (h : Sees st x .closed l w) :
    Ends NoError (clearErrorFlags (device traffic) w) (Sees st x.clearingErrors .closed l) := by
  -- The driver writes ones to clear the flags of errors, which leaves them in the device.
  have hsmall : ∀ v,
      ¬insert statRegFlagsMask (statOr ||| statNf ||| statFe ||| statPf) v ≤ 0x3FF#32 :=
    fun v => not_small_of_or (by decide) _
  refine ((h.toShows.modify .stat _).and (h.toHears.modifyStat _ hsmall)).mono ?_
  rintro w' ⟨⟨v, hv, h'⟩, hears⟩
  have hflags :
      x.written .stat (insert statRegFlagsMask (statOr ||| statNf ||| statFe ||| statPf) v) =
        x.clearingErrors := by
    rw [View.written_stat _ (hsmall v), View.clearingErrors, insert,
      ← show v &&& ~~~statRdrf = x.flags from hv, and_and_or_eq]
  rw [hflags] at h'
  exact { h', hears with }

/-- The receiver and its interrupts are on. -/
def View.startReceiving (x : View) : View :=
  x.clearingErrors.switch [(ctrlRe, true), (ctrlOrie, true), (ctrlPeie, true), (ctrlNeie, true),
    (ctrlFeie, true), (ctrlRie, true)]

theorem Sees.asyncReceive {rxBuff : List (BitVec 8)} {rxSize : ℕ} (h : Sees st x .closed l w)
    (hreg : st.registered = true) (hidle : st.isRxBusy = false)
    (hc : c.transferType = .usingInterrupts) (hpos : 0 < rxSize) :
    Ends NoError (asyncReceive (device traffic) c rxBuff rxSize w) fun a =>
      a.1 = .success ∧ Sees (st.receiving rxBuff rxSize) x.startReceiving .listening l a.2 := by
  refine ends_idle (b := StateStructure.isRxBusy) hpos (by rw [h.state_eq, hreg])
    (by rw [h.state_eq, hidle]) ?_
  rw [if_pos hc]
  refine Ends.bind ?_ fun w' h' => ends_pure ⟨rfl, h'⟩
  have h₀ := (h.upd fun st => { st with isRxBusy := true }).upd fun st =>
    st.receiving rxBuff rxSize
  refine h₀.clearErrorFlags.bind fun w₁ h₁ => ?_
  refine (h₁.modifyFifo _).bind fun w₂ h₂ => ?_
  refine (h₂.setReceiverCmd true).bind fun w₃ h₃ => ?_
  refine (h₃.assign (m := ctrlOrie) (by decide) true).bind fun w₄ h₄ => ?_
  refine (h₄.assign (m := ctrlPeie) (by decide) true).bind fun w₅ h₅ => ?_
  refine (h₅.assign (m := ctrlNeie) (by decide) true).bind fun w₆ h₆ => ?_
  refine (h₆.assign (m := ctrlFeie) (by decide) true).bind fun w₇ h₇ => ?_
  exact h₇.assign (m := ctrlRie) (by decide) true

/-! ## The end of a reception -/

/-- The receiver and its interrupts are off. -/
def View.stopReceiving (x : View) : View :=
  x.switch [(ctrlOrie, false), (ctrlPeie, false), (ctrlNeie, false), (ctrlFeie, false),
    (ctrlRie, false), (ctrlRe, false)]

/-- There is no time to wait for a byte, either. -/
def afterWait (status : StatusType) : StatusType := if status = .aborted then .timeout else status

theorem Sees.awaitAborted (h : Sees st x .listening l w) :
    Ends NoError (awaitAborted (device traffic) w) fun r => ∃ w', r = some w' ∧
      Sees { st with receiveStatus := afterWait st.receiveStatus } x .listening l w' := by
  rw [LpuartUartIp.awaitAborted, h.state_eq, afterWait]
  refine ends_ite (fun haborted => ?_) fun haborted => ?_
  · have hwait : Ends NoError (awaitFlag (device traffic) statRdrf
        (microsToTicks timeoutValueUs) 0 w) _ := h.awaitRdrf (by decide) le_rfl
    refine hwait.bind ?_
    rintro _ ⟨⟨w₁, e₁⟩, rfl, -, hfound⟩
    have h₁ : Sees st x .listening l w₁ := hfound.elim (fun hf => hf.1.listening) fun hf => hf.1
    simp only [checkTimeout_zero, if_true]
    refine ends_pure ⟨_, rfl, ?_⟩
    rw [if_pos haborted]
    exact h₁.upd fun st => { st with receiveStatus := .timeout }
  · rw [if_neg haborted]
    exact ends_pure ⟨w, rfl, h⟩

/-- The status of a reception that is completed. -/
def completedStatus (status : StatusType) : StatusType :=
  if afterWait status = .busy then .success else afterWait status

/-- A reception that is completed drops a byte that the receiver holds. -/
theorem Sees.completeReceiveDataUsingInt (h : Sees st x .listening l w) :
    Ends NoError (completeReceiveDataUsingInt (device traffic) w) fun r => ∃ w' d,
      r = some w' ∧ d.length ≤ 1 ∧
      Sees { st with isRxBusy := false, receiveStatus := completedStatus st.receiveStatus }
        x.stopReceiving .closed (l ++ d) w' := by
  refine (h.assign (m := ctrlOrie) (by decide) false).bind fun w₁ h₁ => ?_
  refine (h₁.assign (m := ctrlPeie) (by decide) false).bind fun w₂ h₂ => ?_
  refine (h₂.assign (m := ctrlNeie) (by decide) false).bind fun w₃ h₃ => ?_
  refine (h₃.assign (m := ctrlFeie) (by decide) false).bind fun w₄ h₄ => ?_
  refine (h₄.assign (m := ctrlRie) (by decide) false).bind fun w₅ h₅ => ?_
  refine h₅.awaitAborted.bind ?_
  rintro _ ⟨w₆, rfl, h₆⟩
  refine (h₆.setReceiverCmd false).bind fun w₇ h₇ => ?_
  -- The receiver is off by now, so it is empty after the read.
  refine h₇.getchar.bind ?_
  rintro ⟨data, w₈⟩ ⟨d, hd, -, h₈⟩
  rw [earAfter_off] at h₈
  refine ends_pure ⟨_, d, rfl, ?_, Sees.upd h₈ fun st => { st with
    isRxBusy := false
    receiveStatus := if st.receiveStatus = .busy then .success else st.receiveStatus }⟩
  rcases hd with rfl | rfl
  · exact Nat.zero_le 1
  · exact le_rfl

theorem Sees.abortReceivingData (h : Sees st x .listening l w) (hreg : st.registered = true)
    (hc : c.transferType = .usingInterrupts) (hbusy : st.isRxBusy = true) :
    Ends NoError (abortReceivingData (device traffic) c w) fun r => ∃ w' d,
      r = some (.error, w') ∧ d.length ≤ 1 ∧
      Sees { st with isRxBusy := false, receiveStatus := .timeout } x.stopReceiving.clearingErrors
        .closed (l ++ d) w' := by
  rw [LpuartUartIp.abortReceivingData, World.devAssert_of (by rw [h.state_eq, hreg])]
  refine ends_ok_bind.2 ?_
  rw [show w.state.isRxBusy = true by rw [h.state_eq, hbusy], if_pos rfl, stopReceiving, if_pos hc]
  refine (h.upd fun st =>
    { st with receiveStatus := .aborted }).completeReceiveDataUsingInt.bind ?_
  rintro _ ⟨w₁, d, rfl, hd, h₁⟩
  refine h₁.clearErrorFlags.bind fun w₂ h₂ => ?_
  refine (h₂.modifyFifo _).bind fun w₃ h₃ => ends_pure ⟨w₃, d, ?_, hd, h₃⟩
  rw [h₃.state_eq]
  rfl

/-! ## The interrupt handler -/

/-- An interrupt has received a character, whose lower byte has been heard. The last one
    completes the reception. -/
def ReceivedByIrq (n : BitCountPerChar) (st : StateStructure) (x : View) (l : List (BitVec 8))
    (w : World Bench) : Prop :=
  ∃ a st', Stores n st [a] st' ∧
    (st'.rxSize ≠ 0 ∧ Sees st' x .listening (l ++ [a]) w ∨
      st'.rxSize = 0 ∧ ∃ d, d.length ≤ 1 ∧
        Sees { st' with isRxBusy := false, receiveStatus := completedStatus st'.receiveStatus }
          x.stopReceiving .closed (l ++ [a] ++ d) w)

theorem Sees.rxIrqHandler (h : Sees st x .full l w) (hc : c.callback = none)
    (hst : st.Receivable) (hpos : 0 < st.rxSize) :
    Ends NoError (rxIrqHandler (device traffic) c w) fun r =>
      ∃ w', r = some w' ∧ ReceivedByIrq c.bitCountPerChar st x l w' := by
  refine (h.getData hst hpos).bind ?_
  rintro w₁ ⟨a, highs, d, hhighs, -, hd, h₁⟩
  obtain rfl := hd rfl
  have hstores := Stores.snoc (a := a) .nil hpos hhighs
  rw [invokeCallback_none hc, ite_self]
  dsimp only
  rw [h₁.state_eq]
  refine ends_ite (fun hlast => ?_) fun hlast => ?_
  · refine h₁.listening.completeReceiveDataUsingInt.bind ?_
    rintro _ ⟨w₂, d, rfl, hd, h₂⟩
    rw [Option.map_some, invokeCallback_none hc]
    exact ends_pure ⟨w₂, rfl, a, _, hstores, .inr ⟨hlast, d, hd, h₂⟩⟩
  · exact ends_pure ⟨w₁, rfl, a, _, hstores, .inl ⟨hlast, h₁.listening⟩⟩

theorem Sees.handleErrors (h : Sees st x e l w)
    {errors : List (BitVec 32 × BitVec 32 × StatusType)}
    (herrors : ∀ f ∈ errors, statRdrf &&& f.1 = 0#32 ∧ Bits.any x.flags f.1 = false)
    (isError : Bool) :
    Ends NoError (handleErrors (device traffic) errors isError w) fun a =>
      a.1 = some isError ∧ Sees st x e l a.2 := by
  induction errors generalizing w with
  | nil => exact ends_pure ⟨rfl, h⟩
  | cons f errors ih =>
    obtain ⟨hdisjoint, hclear⟩ := herrors f List.mem_cons_self
    refine (h.getStatusFlag hdisjoint).bind ?_
    rintro ⟨set, w₁⟩ ⟨rfl, h₁⟩
    rw [hclear]
    exact ih h₁ fun f' hf' => herrors f' (List.mem_cons_of_mem f hf')

theorem errorInterrupts_clear (hx : x.NoErrors) :
    ∀ f ∈ errorInterrupts, statRdrf &&& f.1 = 0#32 ∧ Bits.any x.flags f.1 = false := by
  simp only [errorInterrupts, List.mem_cons, List.not_mem_nil, or_false, forall_eq_or_imp,
    forall_eq]
  exact ⟨⟨by decide, hx.any (by decide)⟩, ⟨by decide, hx.any (by decide)⟩,
    ⟨by decide, hx.any (by decide)⟩, by decide, hx.any (by decide)⟩

theorem Sees.errIrqHandler (h : Sees st x e l w) (hx : x.NoErrors) :
    Ends NoError (errIrqHandler (device traffic) c w) fun r =>
      ∃ w', r = some w' ∧ Sees st x e l w' := by
  refine (h.handleErrors (errorInterrupts_clear hx) false).bind ?_
  rintro ⟨isError, w₁⟩ ⟨rfl, h₁⟩
  exact ends_pure ⟨w₁, rfl, h₁⟩

/-- What is needed to serve a receiver that is on. -/
structure Serviceable (st : StateStructure) (x : View) : Prop where
  rie : Bits.any x.cr ctrlRie = true
  receivable : st.Receivable
  size_pos : 0 < st.rxSize

theorem Sees.irqReceive (h : Sees st x e l w) (hc : c.callback = none)
    (he : e = .closed ∨ Serviceable st x) :
    Ends NoError (irqReceive (device traffic) c w) fun r => ∃ isReturn w',
      r = some (isReturn, w') ∧
        (isReturn = true ∧ e ≠ .closed ∧ ReceivedByIrq c.bitCountPerChar st x l w' ∨
          isReturn = false ∧ Sees st x e l w') := by
  refine h.getRdrf.bind ?_
  rintro ⟨full, w₁⟩ ⟨h₁, hclosed⟩
  cases full with
  | false => exact ends_pure ⟨false, w₁, rfl, .inr ⟨rfl, h₁⟩⟩
  | true =>
    -- A receiver that is off does not come to hold a byte.
    have hopen : e ≠ .closed := fun he' => nomatch hclosed he'
    obtain ⟨hrie, hst, hpos⟩ := he.resolve_left hopen
    refine (Sees.getIntMode (m := ctrlRie) h₁ (by decide)).bind ?_
    rintro ⟨enabled, w₂⟩ ⟨rfl, h₂⟩
    rw [hrie]
    refine (Sees.rxIrqHandler h₂ hc hst hpos).bind ?_
    rintro _ ⟨w₃, rfl, h₃⟩
    exact ends_pure ⟨true, w₃, rfl, .inl ⟨rfl, hopen, h₃⟩⟩

theorem Sees.irqTransmit_off (h : Sees st x e l w) (isReturn : Bool)
    (hoff : isReturn = true ∨ Bits.any x.flags statTdre = false ∨ Bits.any x.cr ctrlTie = false) :
    Ends NoError (irqTransmit (device traffic) c isReturn w) fun a => Sees st x e l a.2 := by
  refine (h.getStatusFlag (m := statTdre) (by decide)).bind ?_
  rintro ⟨empty, w₁⟩ ⟨rfl, h₁⟩
  refine ends_ite (fun hempty => ?_) fun _ => ends_pure h₁
  obtain ⟨htdre, hreturn⟩ : Bits.any x.flags statTdre = true ∧ isReturn = false := by
    simpa using hempty
  have htie : Bits.any x.cr ctrlTie = false := by
    rcases hoff with hoff | hoff | hoff
    · exact absurd (hoff.symm.trans hreturn) Bool.noConfusion
    · exact absurd (hoff.symm.trans htdre) Bool.noConfusion
    · exact hoff
  refine (Sees.getIntMode (m := ctrlTie) h₁ (by decide)).bind ?_
  rintro ⟨enabled, w₂⟩ ⟨rfl, h₂⟩
  rw [htie]
  exact ends_pure h₂

theorem Sees.irqTransmit_on (h : Sees st x e l w) (hc : c.callback = none)
    (htdre : Bits.any x.flags statTdre = true) (htie : Bits.any x.cr ctrlTie = true)
    (hst : st.Sendable) {a : BitVec 8} {l' : List (BitVec 8)} (hl : st.unsent = a :: l') :
    Ends NoError (irqTransmit (device traffic) c false w) fun r =>
      Sees (st.charTaken c.bitCountPerChar)
        (x.serving a (decide ((st.charTaken c.bitCountPerChar).txSize = 0))) e l r.2 := by
  refine (h.getStatusFlag (m := statTdre) (by decide)).bind ?_
  rintro ⟨empty, w₁⟩ ⟨rfl, h₁⟩
  rw [htdre]
  refine (Sees.getIntMode (m := ctrlTie) h₁ (by decide)).bind ?_
  rintro ⟨enabled, w₂⟩ ⟨rfl, h₂⟩
  rw [htie]
  exact (Sees.txEmptyIrqHandler h₂ hc hst hl).bind fun w₃ h₃ => ends_pure h₃

/-- `TC` is never set. -/
theorem Sees.irqComplete (h : Sees st x e l w) (htc : Bits.any x.flags statTc = false)
    (isReturn : Bool) :
    Ends NoError (irqComplete (device traffic) c isReturn w) fun r =>
      ∃ w', r = some w' ∧ Sees st x e l w' := by
  refine (h.getStatusFlag (m := statTc) (by decide)).bind ?_
  rintro ⟨complete, w₁⟩ ⟨rfl, h₁⟩
  rw [htc]
  exact ends_pure ⟨w₁, rfl, h₁⟩

end S32K358.LpuartUartIp
