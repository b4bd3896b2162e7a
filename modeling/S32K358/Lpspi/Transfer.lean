import S32K358.Lpspi.Basic

/-!
# The LPSPI: status and transfers

The functions of `nxps32k358_lpspi.c` that the register accesses rest on:
the update of the status flags and of the interrupt line, and the transfer of
one frame from the TX to the RX FIFO (`lpspi_flush_txfifo`).

They are followed by what they compute. An update of the status is a total
function of the state (`status`), unless the frame has no bytes; a call of
`flushTxfifo` does nothing, if a frame is not `Ready`, or sends one frame
(`sendFrame`), or indexes the chip-select lines out of bounds
(`flushTxfifo_eq`). Everything else about transfers is derived from these.
-/

namespace S32K358.Lpspi

variable {n : ℕ} {β : Type}

/-! ## The functions -/

/-- `lpspi_update_status`. -/
def updateStatus (s : State n β) : Except Fault (State n β) := do
  let b := bytesPerFrame s.tcr
  let txWordCount ← udiv (fifo8NumUsed s.txFifo) b
  let rxWordCount ← udiv (fifo8NumUsed s.rxFifo) b
  let fsr := BitVec.ofNat 32 rxWordCount <<< fsrRxcountShift |||
    BitVec.ofNat 32 txWordCount <<< fsrTxcountShift
  -- Above its watermark, `TDF` is left as it is, and so is `RDF` at or below its own.
  let sr :=
    if txWordCount ≤ s.txWatermark then
      if fifo8NumFree s.txFifo ≥ 4 then s.sr ||| srTdf else s.sr &&& ~~~srTdf
    else s.sr
  let sr :=
    if rxWordCount > s.rxWatermark then
      if fifo8NumUsed s.rxFifo ≥ 4 then sr ||| srRdf else sr &&& ~~~srRdf
    else sr
  let rsr := if rxWordCount = 0 then s.rsr ||| rsrRxempty else s.rsr &&& ~~~rsrRxempty
  pure { s with fsr, sr, rsr }

/-- The level the interrupt line should have. -/
def irqLevel (s : State n β) : Bool := Bits.any (s.sr &&& s.ier) (srTdf ||| srRdf)

/-- `lpspi_update_irq`. -/
def updateIrq (s : State n β) : Except Fault (State n β) := do
  let s ← updateStatus s
  pure (setIrq s (irqLevel s))

/-- What `lpspi_update_clock_config` logs: the clock configuration, unless the
    clock is off or has no period. -/
def clockLog (s : State n β) : List (Call n) :=
  if s.clk = 0 then []
  else
    let prescaleVal := 1 <<< ((s.tcr &&& tcrPrescaleMask) >>> tcrPrescaleShift).toNat
    let sckset := ((s.ccr1 &&& ccr1ScksetMask) >>> ccr1ScksetShift).toNat + 1
    let sckhld := ((s.ccr1 &&& ccr1SckhldMask) >>> ccr1SckhldShift).toNat + 1
    if (sckset + sckhld + 2) % 2 ^ 32 = 0 then []
    else
      let sckPeriodDivisor := (sckset + sckhld + 2) % 2 ^ 32
      let sckFreq := s.clk / (prescaleVal * sckPeriodDivisor % 2 ^ 32)
      [.clockConfig (Bits.any s.tcr tcrCpol) (Bits.any s.tcr tcrCpha) prescaleVal sckFreq]

/-- `lpspi_update_clock_config`, which only logs. -/
@[simps tcr cr cfgr1 fcr sr txFifo rxFifo txWatermark rxWatermark busy csLines]
def updateClockConfig (s : State n β) : State n β := { s with calls := s.calls ++ clockLog s }

/-- The loop taking the bytes `i, …, i + k - 1` of a frame of `b` bytes from a
    FIFO. Once the FIFO is empty, the other iterations do nothing, whether they
    are skipped (in `lpspi_flush_txfifo`) or the loop is left (in the read of
    `RDR`). -/
def popBytes {c : ℕ} (lsbf : Bool) (b : ℕ) :
    (k i : ℕ) → Fifo8 c → BitVec 32 → Except Fault (Fifo8 c × BitVec 32)
  | 0, _, f, x => .ok (f, x)
  | k + 1, i, f, x =>
    if fifo8IsEmpty f then popBytes lsbf b k (i + 1) f x
    else do
      let (byte, f) ← fifo8Pop f
      popBytes lsbf b k (i + 1) f (x ||| byte.setWidth 32 <<< Frame.place lsbf b i)

/-- The exchange of a word, over the bus or by the internal loopback: the word
    received. -/
def exchange (bus : SsiBus β) (s : State n β) (txData : BitVec 32) : BitVec 32 × State n β :=
  -- `TXMSK` only makes a difference to what is printed, so it is not looked at.
  let log (rxData : BitVec 32) : Call n :=
    .exchange ⟨txData, rxData, loopback s.cfgr1, s.tcr, s.cfgr1, s.csLines⟩
  if loopback s.cfgr1 then (txData, { s with calls := s.calls ++ [log txData] })
  else
    let (rxData, ssi) := bus.transfer s.ssi txData
    (rxData, { s with ssi, calls := s.calls ++ [log rxData] })

/-- The loop storing the bytes `i, …, i + k - 1` of the word received in the RX
    FIFO. -/
def storeBytes (lsbf : Bool) (b : ℕ) (rxData : BitVec 32) :
    (k i : ℕ) → State n β → Except Fault (State n β)
  | 0, _, s => .ok s
  | k + 1, i, s =>
    if fifo8IsFull s.rxFifo then storeBytes lsbf b rxData k (i + 1) { s with sr := s.sr ||| srRef }
    else do
      let rxFifo ← fifo8Push s.rxFifo (Frame.byteAt rxData (Frame.place lsbf b i))
      storeBytes lsbf b rxData k (i + 1) { s with rxFifo }

/-- The start of a transfer: the chip select is asserted on the first frame, or
    if not in continuous mode. -/
def assertCs (bus : SsiBus β) (s : State n β) : Except Fault (State n β) :=
  if !s.busy || single s.tcr then do
    let s ← setCs bus s (pcs s.tcr) (csActiveHigh s.cfgr1 (pcs s.tcr))
    pure { s with busy := true, sr := s.sr ||| srMbf }
  else pure s

/-- The transfer itself: a word is built from the bytes of the TX FIFO, exchanged,
    and the bytes of the answer are stored in the RX FIFO, unless it is masked. -/
def transferFrame (bus : SsiBus β) (s : State n β) : Except Fault (State n β) := do
  let b := bytesPerFrame s.tcr
  let (txFifo, txData) ← popBytes (lsbf s.tcr) b b 0 s.txFifo 0#32
  let (rxData, s) := exchange bus { s with txFifo } txData
  if !rxmsk s.tcr then storeBytes (lsbf s.tcr) b rxData b 0 s else pure s

/-- The end of a transfer: the chip select is deasserted when the TX FIFO has
    drained and not in continuous mode. -/
def deassertCs (bus : SsiBus β) (s : State n β) : Except Fault (State n β) :=
  if fifo8IsEmpty s.txFifo && s.busy then
    if single s.tcr then do
      let s ← setCs bus s (pcs s.tcr) (!csActiveHigh s.cfgr1 (pcs s.tcr))
      pure { s with busy := false, sr := s.sr &&& ~~~srMbf ||| srTcf }
    else pure { s with sr := s.sr ||| srTcf }
  else pure s

/-- `lpspi_flush_txfifo`. -/
def flushTxfifo (bus : SsiBus β) (s : State n β) : Except Fault (State n β) :=
  let b := bytesPerFrame s.tcr
  if frameSize s.tcr < 1 ∨ frameSize s.tcr > 4096 then .ok s
  -- Not enough data, or no space for the answer.
  else if fifo8NumUsed s.txFifo < b then .ok s
  else if !rxmsk s.tcr ∧ fifo8NumFree s.rxFifo < b then .ok s
  else do
    let s ← assertCs bus s
    let s ← transferFrame bus s
    let s ← updateStatus s
    let s ← deassertCs bus s
    updateIrq s

/-! ## Updates of the status -/

/-- The whole frames in the TX FIFO. -/
def txWords (s : State n β) : ℕ := s.txFifo.num / bytesPerFrame s.tcr

/-- The whole frames in the RX FIFO. -/
def rxWords (s : State n β) : ℕ := s.rxFifo.num / bytesPerFrame s.tcr

/-- `SR` after an update: `TDF`, resp. `RDF`, is assigned only at or below,
    resp. above, its watermark, and keeps its value otherwise. -/
def statusSr (s : State n β) : BitVec 32 :=
  Bits.assignIf
    (Bits.assignIf s.sr srTdf (decide (txWords s ≤ s.txWatermark))
      (decide (4 ≤ fifoByteCapacity - s.txFifo.num)))
    srRdf (decide (s.rxWatermark < rxWords s)) (decide (4 ≤ s.rxFifo.num))

/-- The state after an update of the status. -/
@[simps tcr cr cfgr1 fcr txFifo rxFifo txWatermark rxWatermark busy csLines calls]
def status (s : State n β) : State n β :=
  { s with
    fsr := BitVec.ofNat 32 (rxWords s) <<< fsrRxcountShift |||
      BitVec.ofNat 32 (txWords s) <<< fsrTxcountShift
    sr := statusSr s
    rsr := Bits.assign s.rsr rsrRxempty (decide (rxWords s = 0)) }

/-- The state after an update of the status and of the interrupt line. -/
@[simps! tcr cr cfgr1 fcr txFifo rxFifo txWatermark rxWatermark busy csLines]
def settle (s : State n β) : State n β := setIrq (status s) (irqLevel (status s))

variable {s : State n β}

theorem ok_bind {α γ : Type} (a : α) (f : α → Except Fault γ) : (Except.ok a >>= f) = f a := rfl

theorem error_bind {α γ : Type} (e : Fault) (f : α → Except Fault γ) :
    (Except.error e >>= f) = .error e := rfl

/-- An update changes no flags but `TDF` and `RDF`. -/
theorem any_status {m : BitVec 32} (htdf : srTdf &&& m = 0#32) (hrdf : srRdf &&& m = 0#32) :
    Bits.any (status s).sr m = Bits.any s.sr m := by
  change Bits.any (statusSr s) m = Bits.any s.sr m
  rw [statusSr, Bits.any_assignIf_of_disjoint hrdf, Bits.any_assignIf_of_disjoint htdf]

theorem updateStatus_eq (hb : bytesPerFrame s.tcr ≠ 0) : updateStatus s = .ok (status s) := by
  simp only [updateStatus, udiv_of_ne_zero hb, ok_bind, status, statusSr, Bits.assignIf,
    decide_eq_true_eq, Bits.assign_decide]
  rfl

theorem updateStatus_of_eq_zero (hb : bytesPerFrame s.tcr = 0) :
    updateStatus s = .error .divByZero := by
  simp only [updateStatus, udiv, hb, if_true, error_bind]

theorem updateIrq_eq (hb : bytesPerFrame s.tcr ≠ 0) : updateIrq s = .ok (settle s) := by
  rw [updateIrq, updateStatus_eq hb, ok_bind]
  rfl

theorem updateIrq_of_eq_zero (hb : bytesPerFrame s.tcr = 0) : updateIrq s = .error .divByZero := by
  rw [updateIrq, updateStatus_of_eq_zero hb, error_bind]

/-! ## The loops over a frame -/

/-- The bytes taken from a FIFO are the oldest ones. -/
theorem popBytes_eq {c : ℕ} (lsbf : Bool) (b k i : ℕ) (f : Fifo8 c) (x : BitVec 32) :
    popBytes lsbf b k i f x = .ok (f.popN k, Frame.joinFrom lsbf b i (f.contents.take k) x) := by
  induction k generalizing i f x with
  | zero => simp [popBytes, Frame.joinFrom]
  | succ k ih =>
    rw [popBytes, RingBuffer.popN_succ]
    cases hf : f.contents with
    | nil =>
      -- Nothing is left, and the remaining iterations do nothing.
      have hnum : f.num = 0 := by rw [← f.length_contents, hf, List.length_nil]
      rw [if_pos (fifo8IsEmpty_eq_true.2 hnum), ih, f.pop_of_num_eq_zero hnum, hf,
        List.take_nil, List.take_nil, Frame.joinFrom, Frame.joinFrom]
    | cons byte l =>
      have hnum : f.num ≠ 0 := by rw [← f.length_contents, hf, List.length_cons]; omega
      rw [if_neg (mt fifo8IsEmpty_eq_true.1 hnum), fifo8Pop_of_contents hf, ok_bind]
      dsimp only
      rw [ih, f.contents_pop, hf, List.tail_cons, List.take_succ_cons, Frame.joinFrom]

/-- With room for them, the bytes of the word received are all stored. -/
theorem storeBytes_eq (lsbf : Bool) (b : ℕ) (rxData : BitVec 32) (k i : ℕ) (s : State n β)
    (h : s.rxFifo.num + k ≤ fifoByteCapacity) :
    storeBytes lsbf b rxData k i s =
      .ok { s with rxFifo := s.rxFifo.pushAll (Frame.splitFrom lsbf b rxData k i) } := by
  induction k generalizing i s with
  | zero => rfl
  | succ k ih =>
    have hroom : s.rxFifo.num < fifoByteCapacity := by omega
    rw [storeBytes, if_neg (mt fifo8IsFull_eq_true.1 hroom.ne), fifo8Push_of_lt hroom, ok_bind,
      ih _ _ (by simp only [RingBuffer.num_push _ hroom]; omega), Frame.splitFrom,
      RingBuffer.pushAll_cons]

/-! ## The transfer of a frame -/

/-- A frame can be transferred: the TX FIFO has one, and the RX FIFO has room
    for the answer, unless it is masked. -/
def Ready (s : State n β) : Prop :=
  bytesPerFrame s.tcr ≤ s.txFifo.num ∧
    (rxmsk s.tcr = false → s.rxFifo.num + bytesPerFrame s.tcr ≤ fifoByteCapacity)

instance (s : State n β) : Decidable (Ready s) := inferInstanceAs (Decidable (_ ∧ _))

/-- The transfer of a frame asserts the chip select. -/
def asserts (s : State n β) : Bool := !s.busy || single s.tcr

/-- The transfer of a frame deasserts the chip select, having drained the FIFO. -/
def releases (s : State n β) : Bool := fifo8IsEmpty s.txFifo && s.busy && single s.tcr

/-- The chip select is asserted, if it has to be. -/
@[simps tcr cr cfgr1 fcr txWatermark rxWatermark]
def asserted (bus : SsiBus β) (s : State n β) : State n β :=
  let level := csActiveHigh s.cfgr1 (pcs s.tcr)
  { s with
    csLines := if asserts s then s.csLines.setIfInBounds (pcs s.tcr) level else s.csLines
    ssi := if asserts s then bus.setCs s.ssi (pcs s.tcr) level else s.ssi
    busy := true
    sr := if asserts s then s.sr ||| srMbf else s.sr
    calls := s.calls ++ if asserts s then [.setCs (pcs s.tcr) level] else [] }

/-- The word of the first frame of the TX FIFO. -/
def txWord (s : State n β) : BitVec 32 :=
  Frame.join (lsbf s.tcr) (bytesPerFrame s.tcr) (s.txFifo.contents.take (bytesPerFrame s.tcr))

/-- The answer to a word, and the bus after it. -/
def answer (bus : SsiBus β) (s : State n β) (txData : BitVec 32) : BitVec 32 × β :=
  if loopback s.cfgr1 then (txData, s.ssi) else bus.transfer s.ssi txData

/-- The frame is exchanged, and the answer stored. -/
@[simps tcr cr cfgr1 fcr txWatermark rxWatermark]
def exchanged (bus : SsiBus β) (s : State n β) : State n β :=
  let rxData := (answer bus s (txWord s)).1
  { s with
    txFifo := s.txFifo.popN (bytesPerFrame s.tcr)
    rxFifo := if rxmsk s.tcr then s.rxFifo
      else s.rxFifo.pushAll (Frame.split (lsbf s.tcr) (bytesPerFrame s.tcr) rxData)
    ssi := (answer bus s (txWord s)).2
    calls := s.calls ++
      [.exchange ⟨txWord s, rxData, loopback s.cfgr1, s.tcr, s.cfgr1, s.csLines⟩] }

/-- The chip select is deasserted, if it has to be, and the transfer complete,
    if it drained the FIFO. -/
@[simps tcr cr cfgr1 fcr txWatermark rxWatermark]
def released (bus : SsiBus β) (s : State n β) : State n β :=
  let level := !csActiveHigh s.cfgr1 (pcs s.tcr)
  { s with
    csLines := if releases s then s.csLines.setIfInBounds (pcs s.tcr) level else s.csLines
    ssi := if releases s then bus.setCs s.ssi (pcs s.tcr) level else s.ssi
    busy := s.busy && !releases s
    sr := if fifo8IsEmpty s.txFifo && s.busy then
        (if single s.tcr then s.sr &&& ~~~srMbf else s.sr) ||| srTcf
      else s.sr
    calls := s.calls ++ if releases s then [.setCs (pcs s.tcr) level] else [] }

/-- The transfer of a frame. -/
def sendFrame (bus : SsiBus β) (s : State n β) : State n β :=
  settle (released bus (status (exchanged bus (asserted bus s))))

variable {bus : SsiBus β}

/-! A transfer keeps the command and the configuration. -/

@[simp] theorem sendFrame_tcr : (sendFrame bus s).tcr = s.tcr := by simp [sendFrame]

@[simp] theorem sendFrame_cr : (sendFrame bus s).cr = s.cr := by simp [sendFrame]

@[simp] theorem sendFrame_cfgr1 : (sendFrame bus s).cfgr1 = s.cfgr1 := by simp [sendFrame]

@[simp] theorem sendFrame_fcr : (sendFrame bus s).fcr = s.fcr := by simp [sendFrame]

@[simp] theorem sendFrame_txWatermark : (sendFrame bus s).txWatermark = s.txWatermark := by
  simp [sendFrame]

@[simp] theorem sendFrame_rxWatermark : (sendFrame bus s).rxWatermark = s.rxWatermark := by
  simp [sendFrame]

theorem setCs_of_lt {i : ℕ} (hi : i < n) (level : Bool) :
    setCs bus s i level = .ok { s with
      csLines := s.csLines.setIfInBounds i level
      ssi := bus.setCs s.ssi i level
      calls := s.calls ++ [.setCs i level] } := if_pos hi

theorem setCs_of_le {i : ℕ} (hi : n ≤ i) (level : Bool) :
    setCs bus s i level = .error .csOutOfBounds := if_neg (Nat.not_lt.2 hi)

theorem assertCs_eq : assertCs bus s =
    if asserts s ∧ n ≤ pcs s.tcr then .error .csOutOfBounds else .ok (asserted bus s) := by
  by_cases ha : asserts s = true
  · rw [assertCs, ← asserts, if_pos ha]
    by_cases hn : n ≤ pcs s.tcr
    · rw [setCs_of_le hn, if_pos ⟨ha, hn⟩, error_bind]
    · rw [setCs_of_lt (Nat.not_le.1 hn), if_neg fun h => hn h.2, ok_bind]
      simp only [asserted, ha, if_true]
      rfl
  · rw [assertCs, ← asserts, if_neg ha, if_neg fun h => ha h.1]
    -- The chip select is not asserted again: the transfer is busy already.
    have hbusy : s.busy = true := by
      rw [asserts] at ha
      cases h : s.busy <;> simp [h] at ha ⊢
    simp only [asserted, ha, Bool.false_eq_true, if_false, List.append_nil]
    rw [← hbusy]
    rfl

theorem deassertCs_eq (h : releases s = true → pcs s.tcr < n) :
    deassertCs bus s = .ok (released bus s) := by
  by_cases hd : (fifo8IsEmpty s.txFifo && s.busy) = true
  · have hbusy : s.busy = true := (Bool.and_eq_true_iff.1 hd).2
    rw [deassertCs, if_pos hd]
    by_cases hs : single s.tcr = true
    · have hr : releases s = true := by rw [releases, hd, hs]; rfl
      rw [if_pos hs, setCs_of_lt (h hr), ok_bind]
      simp only [released, hr, hd, hs, if_true, Bool.not_true, Bool.and_false]
      rfl
    · have hr : releases s = false := by rw [releases, (Bool.not_eq_true _).mp hs, Bool.and_false]
      rw [if_neg hs]
      simp only [released, hr, hd, hs, if_true, Bool.false_eq_true, if_false, Bool.not_false,
        Bool.and_true, List.append_nil]
      rfl
  · have hr : releases s = false := by rw [releases, (Bool.not_eq_true _).mp hd, Bool.false_and]
    rw [deassertCs, if_neg hd]
    simp only [released, hr, hd, Bool.false_eq_true, if_false, Bool.not_false, Bool.and_true,
      List.append_nil]
    rfl

theorem exchange_eq (txData : BitVec 32) : exchange bus s txData =
    ((answer bus s txData).1, { s with
      ssi := (answer bus s txData).2
      calls := s.calls ++ [.exchange ⟨txData, (answer bus s txData).1, loopback s.cfgr1, s.tcr,
        s.cfgr1, s.csLines⟩] }) := by
  cases h : loopback s.cfgr1 <;> simp [exchange, answer, h]

theorem transferFrame_eq (h : Ready s) : transferFrame bus s = .ok (exchanged bus s) := by
  rw [transferFrame, popBytes_eq, ok_bind]
  dsimp only
  rw [exchange_eq]
  cases hm : rxmsk s.tcr with
  | false =>
    simp only [Bool.not_false, if_true]
    rw [storeBytes_eq]
    · simp only [exchanged, hm, Bool.false_eq_true, if_false]
      rfl
    · exact h.2 hm
  | true =>
    simp only [Bool.not_true, Bool.false_eq_true, if_false]
    simp only [exchanged, hm, if_true]
    rfl

theorem frameSize_valid (tcr : BitVec 32) : ¬(frameSize tcr < 1 ∨ frameSize tcr > 4096) := by
  have := framesz_lt tcr
  rw [frameSize_eq]
  omega

/-- Without a frame ready, nothing happens. -/
theorem flushTxfifo_of_not_ready (h : ¬Ready s) : flushTxfifo bus s = .ok s := by
  rw [flushTxfifo, if_neg (frameSize_valid s.tcr)]
  by_cases htx : fifo8NumUsed s.txFifo < bytesPerFrame s.tcr
  · rw [if_pos htx]
  · rw [if_neg htx, if_pos]
    have hmask : rxmsk s.tcr = false := by
      by_contra hm
      exact h ⟨Nat.not_lt.1 htx, fun h' => absurd h' hm⟩
    have hroom : ¬s.rxFifo.num + bytesPerFrame s.tcr ≤ fifoByteCapacity :=
      fun h' => h ⟨Nat.not_lt.1 htx, fun _ => h'⟩
    have hle := s.rxFifo.num_le
    exact ⟨by rw [hmask]; rfl, by rw [fifo8NumFree_eq]; omega⟩

/-- With a frame ready, it is sent, unless its chip select is to be driven and
    out of bounds. -/
theorem flushTxfifo_eq (hb : bytesPerFrame s.tcr ≠ 0) (h : Ready s) :
    flushTxfifo bus s =
      if asserts s ∧ n ≤ pcs s.tcr then .error .csOutOfBounds else .ok (sendFrame bus s) := by
  have htx : ¬fifo8NumUsed s.txFifo < bytesPerFrame s.tcr := Nat.not_lt.2 h.1
  have hrx : ¬(!rxmsk s.tcr ∧ fifo8NumFree s.rxFifo < bytesPerFrame s.tcr) := by
    rintro ⟨hm, hlt⟩
    have := h.2 (by simpa using hm)
    rw [fifo8NumFree_eq] at hlt
    omega
  rw [flushTxfifo, if_neg (frameSize_valid s.tcr), if_neg htx, if_neg hrx]
  by_cases hcs : asserts s ∧ n ≤ pcs s.tcr
  · rw [assertCs_eq, if_pos hcs, if_pos hcs, error_bind]
  · have hready : Ready (asserted bus s) := h
    have hb₁ : bytesPerFrame (exchanged bus (asserted bus s)).tcr ≠ 0 := hb
    have hb₂ : bytesPerFrame (released bus (status (exchanged bus (asserted bus s)))).tcr ≠ 0 := hb
    -- The chip select is deasserted only in a transfer that has asserted it.
    have hrel : releases (status (exchanged bus (asserted bus s))) = true → pcs s.tcr < n := by
      intro hr
      have hsingle : single s.tcr = true := (Bool.and_eq_true_iff.1 hr).2
      exact Nat.not_le.1 fun hn => hcs ⟨by rw [asserts, hsingle, Bool.or_true], hn⟩
    rw [assertCs_eq, if_neg hcs, if_neg hcs, ok_bind, transferFrame_eq hready, ok_bind,
      updateStatus_eq hb₁, ok_bind, deassertCs_eq hrel, ok_bind, updateIrq_eq hb₂, sendFrame]

/-- A frame without bytes is always ready, and its transfer always stops. -/
theorem flushTxfifo_of_eq_zero (hb : bytesPerFrame s.tcr = 0) :
    flushTxfifo bus s =
      .error (if asserts s ∧ n ≤ pcs s.tcr then .csOutOfBounds else .divByZero) := by
  have hready : Ready (asserted bus s) := by
    refine ⟨hb.trans_le (Nat.zero_le _), fun _ => ?_⟩
    change s.rxFifo.num + bytesPerFrame s.tcr ≤ fifoByteCapacity
    rw [hb]
    exact s.rxFifo.num_le
  have hb₁ : bytesPerFrame (exchanged bus (asserted bus s)).tcr = 0 := hb
  rw [flushTxfifo, if_neg (frameSize_valid s.tcr), hb, if_neg (Nat.not_lt_zero _),
    if_neg fun h => Nat.not_lt_zero _ h.2, assertCs_eq]
  split
  · rw [error_bind]
  · rw [ok_bind, transferFrame_eq hready, ok_bind, updateStatus_of_eq_zero hb₁, error_bind]

end S32K358.Lpspi
