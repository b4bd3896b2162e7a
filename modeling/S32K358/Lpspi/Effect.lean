import S32K358.Lpspi.Device

/-!
# The LPSPI: what an access does

An access that does not stop has one of a few effects (`Effect`), each a total
function of the state made of `status`, `settle` and `sendFrame`; an access
that stops, in a state whose frames have bytes, drives a chip-select line that
does not exist (`OutOfBounds`), or writes a command whose frames have none.

* `Effect.access_eq`, `OutOfBounds.access_eq`: the effects are those of `access`;
* `exists_effect`: there are no others;
* `effect_of_access`: an access that does not stop, by cases.
-/

namespace S32K358.Lpspi

variable {n : ℕ} {β : Type} {bus : SsiBus β} {s : State n β}

/-! ## Resetting -/

/-- All chip-select lines are driven high. -/
def raised (bus : SsiBus β) (s : State n β) : State n β :=
  { s with
    csLines := Vector.replicate n true
    ssi := (List.range' 0 n).foldl (fun ssi i => bus.setCs ssi i true) s.ssi
    calls := s.calls ++ (List.range' 0 n).map (.setCs · true) }

/-- The state after a reset. -/
def afterReset (bus : SsiBus β) (s : State n β) : State n β :=
  settle (updateClockConfig (raised bus (resetRegs s)))

theorem raiseCsLines_eq {k i : ℕ} (h : i + k = n) (s : State n β) :
    raiseCsLines bus k i s = .ok { s with
      csLines := Vector.ofFn fun j => if i ≤ j then true else s.csLines[j]
      ssi := (List.range' i k).foldl (fun ssi i => bus.setCs ssi i true) s.ssi
      calls := s.calls ++ (List.range' i k).map (.setCs · true) } := by
  induction k generalizing i s with
  | zero =>
    have hlines : (Vector.ofFn fun j : Fin n => if i ≤ j then true else s.csLines[j]) =
        s.csLines := by
      ext j hj
      simp [show ¬i ≤ j by omega]
    rw [hlines]
    simp [raiseCsLines]
  | succ k ih =>
    rw [raiseCsLines, setCs_of_lt (by omega), ok_bind, ih (by omega)]
    have hlines : (Vector.ofFn fun j : Fin n =>
          if i + 1 ≤ j then true else (s.csLines.setIfInBounds i true)[j]) =
        Vector.ofFn fun j : Fin n => if i ≤ j then true else s.csLines[j] := by
      ext j hj
      simp only [Vector.getElem_ofFn, Fin.getElem_fin, Vector.getElem_setIfInBounds]
      grind
    rw [hlines]
    simp [List.range'_succ]

/-- A reset does not stop. -/
theorem doReset_eq : doReset bus s = .ok (afterReset bus s) := by
  have hlines : (Vector.ofFn fun j : Fin n => if 0 ≤ j.1 then true else (resetRegs s).csLines[j]) =
      Vector.replicate n true := by
    ext j hj
    simp
  have hraise : raiseCsLines bus n 0 (resetRegs s) = .ok (raised bus (resetRegs s)) := by
    rw [raiseCsLines_eq (Nat.zero_add n), hlines, raised]
  have hb : bytesPerFrame (updateClockConfig (raised bus (resetRegs s))).tcr ≠ 0 := by
    change bytesPerFrame 0x1F#32 ≠ 0
    decide
  rw [doReset, hraise, ok_bind, updateIrq_eq hb, afterReset]

/-! ## Reading and queueing frames -/

/-- The word of the first frame of the RX FIFO, or of what there is of it. -/
def rxWord (s : State n β) : BitVec 32 :=
  Frame.join (lsbf s.tcr) (bytesPerFrame s.tcr) (s.rxFifo.contents.take (bytesPerFrame s.tcr))

/-- The first frame of the RX FIFO is taken. -/
def taken (s : State n β) : State n β :=
  { s with rxFifo := s.rxFifo.popN (bytesPerFrame s.tcr), rdr := rxWord s }

/-- The frame of a value is queued in the TX FIFO. -/
@[simps tcr cr cfgr1 fcr sr rxFifo txWatermark rxWatermark busy csLines calls]
def queued (s : State n β) (value : BitVec 32) : State n β :=
  { s with
    txFifo := s.txFifo.pushAll
      (Frame.split (lsbf s.tcr) (bytesPerFrame s.tcr) (value.setWidth 64)) }

theorem pushBytes_eq {c : ℕ} (lsbf : Bool) (b : ℕ) (val64 : BitVec 64) (k i : ℕ) (f : Fifo8 c)
    (h : f.num + k ≤ c) :
    pushBytes lsbf b val64 k i f = .ok (f.pushAll (Frame.splitFrom lsbf b val64 k i)) := by
  induction k generalizing i f with
  | zero => rfl
  | succ k ih =>
    have hroom : f.num < c := by omega
    rw [pushBytes, fifo8Push_of_lt hroom, ok_bind, ih _ _ (by rw [f.num_push hroom]; omega),
      Frame.splitFrom, RingBuffer.pushAll_cons]

theorem read_of_ne {addr : ℕ} (hb : bytesPerFrame s.tcr ≠ 0)
    (h : Reg.ofOffset? addr ≠ some .rdr ∨ s.rxFifo.num = 0) :
    read s addr = .ok (peek (status s) (Reg.ofOffset? addr), status s) := by
  rw [read, updateStatus_eq hb, ok_bind]
  by_cases hr : Reg.ofOffset? addr = some .rdr
  · have hempty : fifo8NumUsed (status s).rxFifo < 1 := by
      have : s.rxFifo.num = 0 := h.resolve_left (not_not_intro hr)
      exact Nat.lt_one_iff.2 this
    rw [if_pos hr, if_pos hempty, hr]
    rfl
  · rw [if_neg hr]
    rfl

theorem read_rdr {addr : ℕ} (hb : bytesPerFrame s.tcr ≠ 0) (hr : Reg.ofOffset? addr = some .rdr)
    (h : s.rxFifo.num ≠ 0) : read s addr = .ok (rxWord s, status (taken (status s))) := by
  have hnum : ¬fifo8NumUsed (status s).rxFifo < 1 := fun hlt => h (Nat.lt_one_iff.1 hlt)
  have hb' : bytesPerFrame (taken (status s)).tcr ≠ 0 := hb
  rw [read, updateStatus_eq hb, ok_bind, if_pos hr, if_neg hnum]
  dsimp only
  rw [popBytes_eq, ok_bind]
  exact congrArg (· >>= fun t => pure (rxWord s, t)) (updateStatus_eq hb')

/-! ## The effects -/

/-- The registers that a write only sets, up to the log of the clock. -/
def configure (s : State n β) (value : BitVec 32) : Reg → Option (State n β)
  | .ier => some { s with ier := value }
  | .der => some { s with der := value }
  | .cfgr0 => some { s with cfgr0 := value }
  | .cfgr1 => some (updateClockConfig { s with cfgr1 := value })
  | .ccr => some (updateClockConfig { s with ccr := value })
  | .ccr1 => some (updateClockConfig { s with ccr1 := value })
  | _ => none

/-- The registers whose writes are refused. -/
def Reg.readOnly : Reg → Bool
  | .verid | .param | .fsr | .rsr | .rdr => true
  | _ => false

/-- The effect of an access: the value read, and the state after it. -/
inductive Effect (bus : SsiBus β) (s : State n β) :
    Access → Option (BitVec 32) → State n β → Prop
  | look {addr : ℕ} (h : Reg.ofOffset? addr ≠ some .rdr ∨ s.rxFifo.num = 0) :
    Effect bus s (.read addr) (some (peek (status s) (Reg.ofOffset? addr))) (status s)
  | take {addr : ℕ} (hr : Reg.ofOffset? addr = some .rdr) (h : s.rxFifo.num ≠ 0) :
    Effect bus s (.read addr) (some (rxWord s)) (status (taken (status s)))
  | ignore {addr : ℕ} {v : BitVec 32} (hr : ∀ r, Reg.ofOffset? addr = some r → r.readOnly = true) :
    Effect bus s (.write addr v) none s
  | reset {addr : ℕ} {v : BitVec 32} (hr : Reg.ofOffset? addr = some .cr)
    (hrst : Bits.any v crRst = true) : Effect bus s (.write addr v) none (afterReset bus s)
  | control {addr : ℕ} {v : BitVec 32} (hr : Reg.ofOffset? addr = some .cr)
    (hrst : Bits.any v crRst = false) : Effect bus s (.write addr v) none (settle (writeCr s v))
  | clear {addr : ℕ} {v : BitVec 32} (hr : Reg.ofOffset? addr = some .sr) :
    Effect bus s (.write addr v) none (settle { s with sr := s.sr &&& ~~~v })
  | configure {addr : ℕ} {v : BitVec 32} {r : Reg} {t : State n β}
    (hr : Reg.ofOffset? addr = some r) (ht : configure s v r = some t) :
    Effect bus s (.write addr v) none (settle t)
  | watermark {addr : ℕ} {v : BitVec 32} (hr : Reg.ofOffset? addr = some .fcr) :
    Effect bus s (.write addr v) none (settle (status (writeFcr s v)))
  | command {addr : ℕ} {v : BitVec 32} (hr : Reg.ofOffset? addr = some .tcr)
    (hv : bytesPerFrame v ≠ 0) (h : ¬(Bits.any s.cr crMen = true ∧ Ready (command s v))) :
    Effect bus s (.write addr v) none (settle (updateClockConfig (command s v)))
  | resume {addr : ℕ} {v : BitVec 32} (hr : Reg.ofOffset? addr = some .tcr)
    (hv : bytesPerFrame v ≠ 0) (hmen : Bits.any s.cr crMen = true) (h : Ready (command s v))
    (hcs : ¬(asserts (command s v) = true ∧ n ≤ pcs v)) :
    Effect bus s (.write addr v) none
      (settle (updateClockConfig (sendFrame bus (command s v))))
  | refuse {addr : ℕ} {v : BitVec 32} (hr : Reg.ofOffset? addr = some .tdr)
    (hmen : Bits.any s.cr crMen = false) : Effect bus s (.write addr v) none (settle s)
  | overflow {addr : ℕ} {v : BitVec 32} (hr : Reg.ofOffset? addr = some .tdr)
    (hmen : Bits.any s.cr crMen = true)
    (h : fifoByteCapacity < s.txFifo.num + bytesPerFrame s.tcr) :
    Effect bus s (.write addr v) none (settle { s with sr := s.sr ||| srTef })
  | queue {addr : ℕ} {v : BitVec 32} (hr : Reg.ofOffset? addr = some .tdr)
    (hmen : Bits.any s.cr crMen = true)
    (hroom : s.txFifo.num + bytesPerFrame s.tcr ≤ fifoByteCapacity) (h : ¬Ready (queued s v)) :
    Effect bus s (.write addr v) none (settle (queued s v))
  | send {addr : ℕ} {v : BitVec 32} (hr : Reg.ofOffset? addr = some .tdr)
    (hmen : Bits.any s.cr crMen = true)
    (hroom : s.txFifo.num + bytesPerFrame s.tcr ≤ fifoByteCapacity) (h : Ready (queued s v))
    (hcs : ¬(asserts (queued s v) = true ∧ n ≤ pcs s.tcr)) :
    Effect bus s (.write addr v) none (settle (sendFrame bus (queued s v)))

/-- The access drives a chip-select line that does not exist. -/
inductive OutOfBounds (s : State n β) : Access → Prop
  | resume {addr : ℕ} {v : BitVec 32} (hr : Reg.ofOffset? addr = some .tcr)
    (hv : bytesPerFrame v ≠ 0) (hmen : Bits.any s.cr crMen = true) (h : Ready (command s v))
    (hcs : asserts (command s v) = true ∧ n ≤ pcs v) : OutOfBounds s (.write addr v)
  | send {addr : ℕ} {v : BitVec 32} (hr : Reg.ofOffset? addr = some .tdr)
    (hmen : Bits.any s.cr crMen = true)
    (hroom : s.txFifo.num + bytesPerFrame s.tcr ≤ fifoByteCapacity) (h : Ready (queued s v))
    (hcs : asserts (queued s v) = true ∧ n ≤ pcs s.tcr) : OutOfBounds s (.write addr v)

/-! ## Writes of `TCR` and `TDR` -/

/-- Sending after a command, as a frame is never empty, depends on whether one
    is ready only. -/
theorem writeTcr_eq {v : BitVec 32} (hv : bytesPerFrame v ≠ 0) :
    writeTcr bus s v =
      if Bits.any s.cr crMen = true ∧ Ready (command s v) then
        if asserts (command s v) = true ∧ n ≤ pcs v then .error .csOutOfBounds
        else .ok (settle (updateClockConfig (sendFrame bus (command s v))))
      else .ok (settle (updateClockConfig (command s v))) := by
  have hb : bytesPerFrame (command s v).tcr ≠ 0 := hv
  have hidle : updateIrq (updateClockConfig (command s v)) =
      .ok (settle (updateClockConfig (command s v))) := updateIrq_eq hb
  have hsent : updateIrq (updateClockConfig (sendFrame bus (command s v))) =
      .ok (settle (updateClockConfig (sendFrame bus (command s v)))) := updateIrq_eq hb
  rw [writeTcr]
  dsimp only
  by_cases hmen : Bits.any s.cr crMen = true
  · by_cases hready : Ready (command s v)
    · -- The FIFO has a frame of at least a byte, so it is flushed.
      have hne : fifo8IsEmpty (command s v).txFifo = false := by
        have htx : bytesPerFrame v ≤ s.txFifo.num := hready.1
        have : s.txFifo.num ≠ 0 := by omega
        exact Bool.eq_false_iff.2 (mt fifo8IsEmpty_eq_true.1 this)
      have hgo : (Bits.any (command s v).cr crMen && !fifo8IsEmpty (command s v).txFifo) =
          true := by
        rw [hne]
        exact Bool.and_eq_true_iff.2 ⟨hmen, rfl⟩
      rw [if_pos hgo, if_pos ⟨hmen, hready⟩, flushTxfifo_eq hb hready]
      by_cases hcs : asserts (command s v) = true ∧ n ≤ pcs (command s v).tcr
      · rw [if_pos hcs, error_bind]
        exact (if_pos hcs).symm
      · rw [if_neg hcs, ok_bind, hsent]
        exact (if_neg hcs).symm
    · have hnot : ¬(Bits.any s.cr crMen = true ∧ Ready (command s v)) := fun h => hready h.2
      rw [if_neg hnot, flushTxfifo_of_not_ready hready, ← hidle]
      split <;> rfl
  · have hstay : ¬(Bits.any (command s v).cr crMen && !fifo8IsEmpty (command s v).txFifo) = true :=
      fun h => hmen (Bool.and_eq_true_iff.1 h).1
    have hnot : ¬(Bits.any s.cr crMen = true ∧ Ready (command s v)) := fun h => hmen h.1
    rw [if_neg hstay, if_neg hnot, ← hidle]
    rfl

theorem writeTdr_of_not_men {v : BitVec 32} (hb : bytesPerFrame s.tcr ≠ 0)
    (hmen : Bits.any s.cr crMen = false) : writeTdr bus s (v.setWidth 64) = .ok (settle s) := by
  rw [writeTdr, if_neg (by rw [hmen]; exact Bool.false_ne_true), updateIrq_eq hb]

theorem writeTdr_of_full {v : BitVec 32} (hb : bytesPerFrame s.tcr ≠ 0)
    (hmen : Bits.any s.cr crMen = true)
    (h : fifoByteCapacity < s.txFifo.num + bytesPerFrame s.tcr) :
    writeTdr bus s (v.setWidth 64) = .ok (settle { s with sr := s.sr ||| srTef }) := by
  have hfull : fifo8NumFree s.txFifo < bytesPerFrame s.tcr := by
    have := s.txFifo.num_le
    rw [fifo8NumFree_eq]
    omega
  rw [writeTdr, if_pos hmen]
  dsimp only
  rw [if_pos hfull]
  exact updateIrq_eq hb

theorem writeTdr_of_room {v : BitVec 32} (hb : bytesPerFrame s.tcr ≠ 0)
    (hmen : Bits.any s.cr crMen = true)
    (hroom : s.txFifo.num + bytesPerFrame s.tcr ≤ fifoByteCapacity) :
    writeTdr bus s (v.setWidth 64) =
      if Ready (queued s v) then
        if asserts (queued s v) = true ∧ n ≤ pcs s.tcr then .error .csOutOfBounds
        else .ok (settle (sendFrame bus (queued s v)))
      else .ok (settle (queued s v)) := by
  have hb' : bytesPerFrame (queued s v).tcr ≠ 0 := hb
  have hidle : updateIrq (queued s v) = .ok (settle (queued s v)) := updateIrq_eq hb
  have hsent : updateIrq (sendFrame bus (queued s v)) =
      .ok (settle (sendFrame bus (queued s v))) := updateIrq_eq hb
  have hfree : ¬fifo8NumFree s.txFifo < bytesPerFrame s.tcr := by
    rw [fifo8NumFree_eq]
    omega
  rw [writeTdr, if_pos hmen]
  dsimp only
  rw [if_neg hfree, pushBytes_eq _ _ _ _ _ _ hroom, ok_bind]
  change (flushTxfifo bus (queued s v) >>= updateIrq) = _
  by_cases hready : Ready (queued s v)
  · rw [flushTxfifo_eq hb' hready, if_pos hready]
    by_cases hcs : asserts (queued s v) = true ∧ n ≤ pcs (queued s v).tcr
    · rw [if_pos hcs, error_bind]
      exact (if_pos hcs).symm
    · rw [if_neg hcs, ok_bind, hsent]
      exact (if_neg hcs).symm
  · rw [flushTxfifo_of_not_ready hready, if_neg hready, ok_bind, hidle]

/-! ## Accesses and effects -/

theorem setWidth_value (v : BitVec 32) : (v.setWidth 64).setWidth 32 = v := by simp

theorem access_read {addr : ℕ} {v : BitVec 32} {t : State n β} (h : read s addr = .ok (v, t)) :
    access bus s (.read addr) = .ok (⟨some v, t.calls⟩, { t with calls := [] }) := by
  rw [access, h]
  rfl

theorem access_write {addr : ℕ} {v : BitVec 32} {t : State n β}
    (h : write bus s addr (v.setWidth 64) = .ok t) :
    access bus s (.write addr v) = .ok (⟨none, t.calls⟩, { t with calls := [] }) := by
  rw [access, h]
  rfl

/-- A configuration only changes these registers, and may log the clock. -/
theorem configure_eq {v : BitVec 32} {r : Reg} {t : State n β} (ht : configure s v r = some t) :
    ∃ ier der cfgr0 cfgr1 ccr ccr1 l, t = { s with
      ier := ier, der := der, cfgr0 := cfgr0, cfgr1 := cfgr1, ccr := ccr, ccr1 := ccr1
      calls := s.calls ++ l } := by
  cases r <;> simp only [configure, reduceCtorEq, Option.some.injEq] at ht <;> subst ht
  case ier | der | cfgr0 => exact ⟨_, _, _, _, _, _, [], by rw [List.append_nil]⟩
  all_goals exact ⟨_, _, _, _, _, _, _, rfl⟩

theorem write_configure {addr : ℕ} {v : BitVec 32} {r : Reg} {t : State n β}
    (hb : bytesPerFrame s.tcr ≠ 0) (hr : Reg.ofOffset? addr = some r)
    (ht : configure s v r = some t) : write bus s addr (v.setWidth 64) = .ok (settle t) := by
  have htcr : t.tcr = s.tcr := by
    obtain ⟨_, _, _, _, _, _, _, rfl⟩ := configure_eq ht
    rfl
  rw [← updateIrq_eq (htcr ▸ hb)]
  cases r <;> simp only [configure, reduceCtorEq, Option.some.injEq] at ht <;> rw [← ht, write] <;>
    simp only [hr, setWidth_value]

/-- The effects are those of accesses. -/
theorem Effect.access_eq {a : Access} {v : Option (BitVec 32)} {t : State n β}
    (hb : bytesPerFrame s.tcr ≠ 0) (h : Effect bus s a v t) :
    access bus s a = .ok (⟨v, t.calls⟩, { t with calls := [] }) := by
  cases h with
  | look h => exact access_read (read_of_ne hb h)
  | take hr h => exact access_read (read_rdr hb hr h)
  | @ignore addr v hr =>
    refine access_write ?_
    rw [write]
    cases hreg : Reg.ofOffset? addr with
    | none => rfl
    | some r =>
      have := hr r hreg
      cases r <;> simp only [Reg.readOnly, Bool.false_eq_true] at this <;> rfl
  | reset hr hrst =>
    refine access_write ?_
    rw [write, hr]
    simp only [setWidth_value, hrst, if_true, doReset_eq]
  | control hr hrst =>
    refine access_write ?_
    rw [write, hr]
    simp only [setWidth_value, hrst, Bool.false_eq_true, if_false]
    exact updateIrq_eq hb
  | clear hr =>
    refine access_write ?_
    rw [write, hr]
    simp only [setWidth_value]
    exact updateIrq_eq hb
  | configure hr ht => exact access_write (write_configure hb hr ht)
  | @watermark addr v hr =>
    have hb' : bytesPerFrame (writeFcr s v).tcr ≠ 0 := hb
    refine access_write ?_
    rw [write, hr]
    simp only [setWidth_value]
    rw [updateStatus_eq hb', ok_bind]
    exact updateIrq_eq hb
  | command hr hv h =>
    refine access_write ?_
    rw [write, hr]
    simp only [setWidth_value]
    rw [writeTcr_eq hv, if_neg h]
  | resume hr hv hmen h hcs =>
    refine access_write ?_
    rw [write, hr]
    simp only [setWidth_value]
    rw [writeTcr_eq hv, if_pos ⟨hmen, h⟩, if_neg hcs]
  | refuse hr hmen =>
    refine access_write ?_
    rw [write, hr]
    exact writeTdr_of_not_men hb hmen
  | overflow hr hmen h =>
    refine access_write ?_
    rw [write, hr]
    exact writeTdr_of_full hb hmen h
  | queue hr hmen hroom h =>
    refine access_write ?_
    rw [write, hr]
    dsimp only
    rw [writeTdr_of_room hb hmen hroom, if_neg h]
  | send hr hmen hroom h hcs =>
    refine access_write ?_
    rw [write, hr]
    dsimp only
    rw [writeTdr_of_room hb hmen hroom, if_pos h, if_neg hcs]

theorem OutOfBounds.access_eq {a : Access} (hb : bytesPerFrame s.tcr ≠ 0) (h : OutOfBounds s a) :
    access bus s a = .error .csOutOfBounds := by
  cases h with
  | resume hr hv hmen h hcs =>
    rw [access, write, hr]
    simp only [setWidth_value]
    rw [writeTcr_eq hv, if_pos ⟨hmen, h⟩, if_pos hcs, error_bind]
  | send hr hmen hroom h hcs =>
    rw [access, write, hr]
    dsimp only
    rw [writeTdr_of_room hb hmen hroom, if_pos h, if_pos hcs, error_bind]

/-- The access does not write a command whose frames have no bytes. -/
abbrev Access.Framed (a : Access) : Prop := a.onWrite .tcr fun v => bytesPerFrame v ≠ 0

theorem exists_effect_tcr {addr : ℕ} {v : BitVec 32} (hr : Reg.ofOffset? addr = some .tcr)
    (hv : bytesPerFrame v ≠ 0) :
    (∃ t, Effect bus s (.write addr v) none t) ∨ OutOfBounds s (.write addr v) := by
  by_cases h : Bits.any s.cr crMen = true ∧ Ready (command s v)
  · by_cases hcs : asserts (command s v) = true ∧ n ≤ pcs v
    · exact .inr (.resume hr hv h.1 h.2 hcs)
    · exact .inl ⟨_, .resume hr hv h.1 h.2 hcs⟩
  · exact .inl ⟨_, .command hr hv h⟩

theorem exists_effect_tdr {addr : ℕ} {v : BitVec 32} (hr : Reg.ofOffset? addr = some .tdr) :
    (∃ t, Effect bus s (.write addr v) none t) ∨ OutOfBounds s (.write addr v) := by
  cases hmen : Bits.any s.cr crMen with
  | false => exact .inl ⟨_, .refuse hr hmen⟩
  | true =>
    by_cases hroom : s.txFifo.num + bytesPerFrame s.tcr ≤ fifoByteCapacity
    · by_cases h : Ready (queued s v)
      · by_cases hcs : asserts (queued s v) = true ∧ n ≤ pcs s.tcr
        · exact .inr (.send hr hmen hroom h hcs)
        · exact .inl ⟨_, .send hr hmen hroom h hcs⟩
      · exact .inl ⟨_, .queue hr hmen hroom h⟩
    · exact .inl ⟨_, .overflow hr hmen (Nat.not_le.1 hroom)⟩

/-- Every access that writes no bad command has an effect, or is out of bounds. -/
theorem exists_effect (bus : SsiBus β) (s : State n β) {a : Access} (ha : a.Framed) :
    (∃ v t, Effect bus s a v t) ∨ OutOfBounds s a := by
  cases a with
  | read addr =>
    refine .inl ?_
    by_cases h : Reg.ofOffset? addr ≠ some .rdr ∨ s.rxFifo.num = 0
    · exact ⟨_, _, .look h⟩
    · rw [not_or, not_not] at h
      exact ⟨_, _, .take h.1 h.2⟩
  | write addr v =>
    have hplain : ∀ {t : State n β}, Effect bus s (.write addr v) none t →
        (∃ w t, Effect bus s (.write addr v) w t) ∨ OutOfBounds s (.write addr v) :=
      fun h => .inl ⟨_, _, h⟩
    -- Only commands and data may be out of bounds.
    cases hr : Reg.ofOffset? addr with
    | none => exact hplain (.ignore (by rw [hr]; exact fun r h => absurd h (by simp)))
    | some r =>
      cases r with
      | verid | param | fsr | rsr | rdr =>
        exact hplain (.ignore (by rw [hr]; rintro r ⟨⟩; rfl))
      | ier | der | cfgr0 | cfgr1 | ccr | ccr1 => exact hplain (.configure hr rfl)
      | sr => exact hplain (.clear hr)
      | fcr => exact hplain (.watermark hr)
      | cr =>
        cases hrst : Bits.any v crRst with
        | true => exact hplain (.reset hr hrst)
        | false => exact hplain (.control hr hrst)
      | tcr =>
        rcases exists_effect_tcr hr (ha hr) with ⟨t, ht⟩ | h
        · exact hplain ht
        · exact .inr h
      | tdr =>
        rcases exists_effect_tdr hr with ⟨t, ht⟩ | h
        · exact hplain ht
        · exact .inr h

/-- A command whose frames have no bytes always stops the device. -/
theorem access_of_eq_zero {addr : ℕ} {v : BitVec 32} (hr : Reg.ofOffset? addr = some .tcr)
    (hv : bytesPerFrame v = 0) :
    access bus s (.write addr v) = .error
      (if Bits.any s.cr crMen = true ∧ s.txFifo.num ≠ 0 ∧ asserts (command s v) = true ∧ n ≤ pcs v
        then .csOutOfBounds else .divByZero) := by
  have hb : bytesPerFrame (command s v).tcr = 0 := hv
  have hidle : updateIrq (updateClockConfig (command s v)) = .error .divByZero :=
    updateIrq_of_eq_zero hb
  have hmen : Bits.any (command s v).cr crMen = Bits.any s.cr crMen := rfl
  have htx : fifo8IsEmpty (command s v).txFifo = fifo8IsEmpty s.txFifo := rfl
  rw [access, write, hr]
  simp only [setWidth_value]
  rw [writeTcr]
  dsimp only
  rw [flushTxfifo_of_eq_zero hb, hmen, htx]
  cases Bits.any s.cr crMen <;> cases hempty : fifo8IsEmpty s.txFifo
  all_goals simp [← fifo8IsEmpty_eq_true, hempty, pure, Except.pure, ok_bind, error_bind, hidle]

theorem framed_of_access {a : Access} {r : Reply n} {t : State n β}
    (h : access bus s a = .ok (r, t)) : a.Framed := by
  cases a with
  | read addr => exact trivial
  | write addr v =>
    intro hr hv
    rw [access_of_eq_zero hr hv] at h
    exact absurd h (by simp)

theorem exists_of_not_framed {a : Access} (ha : ¬a.Framed) :
    ∃ addr v, a = .write addr v ∧ Reg.ofOffset? addr = some .tcr ∧ bytesPerFrame v = 0 := by
  cases a with
  | read addr => exact absurd trivial ha
  | write addr v => exact ⟨addr, v, rfl, by simpa [Access.Framed, Access.onWrite] using ha⟩

/-- An access that does not stop has an effect. -/
theorem effect_of_access {a : Access} {r : Reply n} {t : State n β}
    (hb : bytesPerFrame s.tcr ≠ 0) (h : access bus s a = .ok (r, t)) :
    ∃ u, Effect bus s a r.value u ∧ r.calls = u.calls ∧ t = { u with calls := [] } := by
  rcases exists_effect bus s (framed_of_access h) with ⟨v, u, hu⟩ | ho
  · rw [hu.access_eq hb] at h
    obtain ⟨rfl, rfl⟩ : _ ∧ _ := by simpa using h
    exact ⟨u, hu, rfl, rfl⟩
  · rw [ho.access_eq hb] at h
    exact absurd h (by simp)

/-- Apart from commands whose frames have no bytes, an access only stops on a
    chip-select line that does not exist. -/
theorem access_eq_error_iff {a : Access} {e : Fault} (hb : bytesPerFrame s.tcr ≠ 0)
    (ha : a.Framed) : access bus s a = .error e ↔ e = .csOutOfBounds ∧ OutOfBounds s a := by
  constructor
  · intro h
    rcases exists_effect bus s ha with ⟨v, u, hu⟩ | ho
    · rw [hu.access_eq hb] at h
      exact absurd h (by simp)
    · rw [ho.access_eq hb] at h
      exact ⟨by simpa using h.symm, ho⟩
  · rintro ⟨rfl, ho⟩
    exact ho.access_eq hb

/-- An access stops on a chip-select line that does not exist, or on a frame without
    bytes, but never in a FIFO. -/
theorem access_eq_error {a : Access} {e : Fault} (hb : bytesPerFrame s.tcr ≠ 0)
    (h : access bus s a = .error e) : e = .csOutOfBounds ∨ e = .divByZero := by
  by_cases ha : a.Framed
  · exact .inl ((access_eq_error_iff hb ha).1 h).1
  · obtain ⟨addr, v, rfl, hr, hv⟩ := exists_of_not_framed ha
    rw [access_of_eq_zero hr hv, Except.error.injEq] at h
    split_ifs at h
    · exact .inl h.symm
    · exact .inr h.symm

end S32K358.Lpspi
