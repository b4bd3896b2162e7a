import S32K358.Lpspi.Run

/-!
# The LPSPI: the representation invariant

Half of the state of the device are copies: of fields of `TCR` and `FCR`, and of
the levels of the FIFOs, in `FSR` and `RSR`. Between two accesses of a run from
power on, all copies are up to date, and the registers have no other bits than
those the device uses (`Represents`, `run_represents`).

The guards of the transfer keep the loops over a frame within the bounds of the
FIFOs. No run trips an assertion of a FIFO, and an answer is never lost in a full
RX FIFO, so that `REF` is never set (`run_asserts_nothing`).
-/

namespace S32K358.Lpspi

variable {n : ℕ} {β : Type} {bus : SsiBus β} {s t : State n β} {a : Access}

/-! ## Copies and unused bits -/

/-- The flags of `SR` that the device sets. -/
def srUsed : BitVec 32 := srTdf ||| srRdf ||| srTcf ||| srTef ||| srMbf

/-- The part of the invariant that the updates of the status do not establish, but
    keep. -/
structure Cached (s : State n β) : Prop where
  frameSize_eq : s.frameSize = (s.tcr &&& 0xFFF#32).toNat + 1
  continuousMode_eq : s.continuousMode = (cont s.tcr || contc s.tcr)
  cr_eq : Bits.any s.cr (crRst ||| crRtf ||| crRrf) = false
  verid_eq : s.verid = 0x04040007#32
  param_eq : s.param = 0x00040404#32
  /-- Only `RXEMPTY` is used. -/
  rsr_within : Bits.Within s.rsr rsrRxempty
  sr_within : Bits.Within s.sr srUsed

theorem Cached.status (hs : Cached s) : Cached (status s) :=
  { hs with
    rsr_within := hs.rsr_within.assign (by decide) _
    sr_within := (hs.sr_within.assignIf (by decide) _ _).assignIf (by decide) _ _ }

theorem Cached.settle (hs : Cached s) : Cached (settle s) := { hs.status with }

theorem Cached.updateClockConfig (hs : Cached s) : Cached (updateClockConfig s) := { hs with }

theorem Cached.asserted (hs : Cached s) : Cached (asserted bus s) :=
  { hs with
    sr_within := by
      simp only [Lpspi.asserted]
      split_ifs
      · exact hs.sr_within.or (by decide)
      · exact hs.sr_within }

theorem Cached.exchanged (hs : Cached s) : Cached (exchanged bus s) := { hs with }

theorem Cached.released (hs : Cached s) : Cached (released bus s) :=
  { hs with
    sr_within := by
      simp only [Lpspi.released]
      split_ifs
      · exact (hs.sr_within.and _).or (by decide)
      · exact hs.sr_within.or (by decide)
      · exact hs.sr_within }

theorem Cached.sendFrame (hs : Cached s) : Cached (sendFrame bus s) :=
  hs.asserted.exchanged.status.released.settle

/-- A command brings its copies up to date. -/
theorem Cached.command (hs : Cached s) (v : BitVec 32) : Cached (command s v) :=
  { hs with
    frameSize_eq := Lpspi.frameSize_eq v
    continuousMode_eq := Bits.any_or_right v tcrCont tcrContc }

theorem Cached.queued (hs : Cached s) (v : BitVec 32) : Cached (queued s v) := { hs with }

theorem Cached.configure (hs : Cached s) {v : BitVec 32} {r : Reg}
    (ht : configure s v r = some t) : Cached t := by
  obtain ⟨_, _, _, _, _, _, _, rfl⟩ := configure_eq ht
  exact { hs with }

/-- The bits that reset the device or its FIFOs are not kept. -/
theorem Cached.writeCr (hs : Cached s) (v : BitVec 32) : Cached (writeCr s v) :=
  { hs with
    cr_eq := Bits.any_clear_self v _
    rsr_within := by
      simp only [Lpspi.writeCr]
      split_ifs
      · exact hs.rsr_within.or (by decide)
      · exact hs.rsr_within
    sr_within := by
      simp only [Lpspi.writeCr]
      split_ifs
      · exact hs.sr_within.or (by decide)
      · exact hs.sr_within }

theorem cached_resetRegs : Cached (resetRegs s) where
  frameSize_eq := by
    change 32 = (0x1F#32 &&& 0xFFF#32).toNat + 1
    decide
  continuousMode_eq := by
    change false = (cont 0x1F#32 || contc 0x1F#32)
    decide
  cr_eq := Bits.any_zero_left _
  verid_eq := rfl
  param_eq := rfl
  rsr_within := (by decide : Bits.Within rsrRxempty rsrRxempty)
  sr_within := (by decide : Bits.Within (srTdf ||| srTcf) srUsed)

theorem cached_afterReset : Cached (afterReset bus s) := by
  have hraised : Cached (raised bus (resetRegs s)) := { cached_resetRegs (s := s) with }
  exact hraised.updateClockConfig.settle

theorem Effect.cached {v : Option (BitVec 32)} (hs : Cached s) (h : Effect bus s a v t) :
    Cached t := by
  cases h with
  | look => exact hs.status
  | take =>
    have htaken : Cached (taken (status s)) := { hs.status with }
    exact htaken.status
  | ignore => exact hs
  | reset => exact cached_afterReset
  | control => exact (hs.writeCr _).settle
  | clear =>
    refine Cached.settle { hs with sr_within := ?_ }
    exact hs.sr_within.and _
  | configure hr ht => exact (hs.configure ht).settle
  | @watermark addr w =>
    have hfcr : Cached (writeFcr s w) := { hs with }
    exact hfcr.status.settle
  | command => exact (hs.command _).updateClockConfig.settle
  | resume => exact (hs.command _).sendFrame.updateClockConfig.settle
  | refuse => exact hs.settle
  | overflow =>
    refine Cached.settle { hs with sr_within := ?_ }
    exact hs.sr_within.or (by decide)
  | queue => exact (hs.queued _).settle
  | send => exact (hs.queued _).sendFrame.settle

/-! ## The invariant -/

/-- The representation invariant of the device between two accesses. -/
structure Represents (s : State n β) : Prop extends Cached s where
  tx_le : s.txFifo.num ≤ 16
  rx_le : s.rxFifo.num ≤ 16
  txWatermark_eq : s.txWatermark = txwater s.fcr
  rxWatermark_eq : s.rxWatermark = rxwater s.fcr
  /-- The frames in the FIFOs, of the size then in force. -/
  fsr_eq : s.fsr = BitVec.ofNat 32 (s.rxFifo.num / bytesPerFrame s.tcr) <<< 16 |||
    BitVec.ofNat 32 (s.txFifo.num / bytesPerFrame s.tcr)
  rsr_eq : s.rsr = if s.rxFifo.num / bytesPerFrame s.tcr = 0 then rsrRxempty else 0#32

theorem Settled.represents (hs : Settled s) (hc : Cached s) : Represents s where
  toCached := hc
  tx_le := s.txFifo.num_le
  rx_le := s.rxFifo.num_le
  txWatermark_eq := hs.txWatermark_eq
  rxWatermark_eq := hs.rxWatermark_eq
  fsr_eq := by
    have hfsr : (status s).fsr = BitVec.ofNat 32 (rxWords s) <<< 16 |||
        BitVec.ofNat 32 (txWords s) <<< 0 := rfl
    rw [hs.status_eq, BitVec.shiftLeft_zero] at hfsr
    exact hfsr
  rsr_eq := by
    have hrsr : (status s).rsr = Bits.assign s.rsr rsrRxempty (decide (rxWords s = 0)) := rfl
    rw [hs.status_eq, Bits.assign_decide] at hrsr
    -- The only bit there may be is the one just assigned.
    have hset : s.rsr ||| rsrRxempty = rsrRxempty := Bits.or_eq_of_within hc.rsr_within
    have hclear : s.rsr &&& ~~~rsrRxempty = 0#32 := hc.rsr_within
    rwa [hset, hclear] at hrsr

theorem PowerOn.cached {s₀ : State n β} (h₀ : PowerOn bus s₀) : Cached s₀ := by
  obtain ⟨hz, ssi, -, -, -, rfl⟩ := powerOn_iff.1 h₀
  have hreset : Cached (afterReset bus (realized hz n ssi)) := cached_afterReset
  exact { hreset with }

theorem run_cached {as : List Access} {h : List (Step n β)} (hr : run bus s as = .ok (h, t))
    (hs : Settled s) (hc : Cached s) : Settled t ∧ Cached t := by
  refine (Mealy.run_invariant (I := fun s => Settled s ∧ Cached s) hr ⟨hs, hc⟩ ?_).1
  intro τ _ htake ⟨hset, hpre⟩
  obtain ⟨u, hu, -, hpost⟩ := effect_of_access hset.bytes_ne_zero htake
  have hcu := hu.cached hpre
  exact ⟨hset.access htake, hpost ▸ { hcu with }⟩

/-- **The representation invariant.** In a run from power on, without commands whose
    frames have no bytes, it holds after every access. The run goes to its end, or
    stops on a chip-select line that does not exist. -/
theorem run_represents (bus : SsiBus β) {s₀ : State n β} (h₀ : PowerOn bus s₀) (as : List Access)
    (ha : ∀ a ∈ as, a.Framed) :
    (run bus s₀ as = .error .csOutOfBounds ∨ ∃ h t, run bus s₀ as = .ok (h, t)) ∧
      ∀ js ks h t, as = js ++ ks → run bus s₀ js = .ok (h, t) → Represents t := by
  constructor
  · cases hr : run bus s₀ as with
    | error e => exact .inl (by rw [run_eq_error h₀.settled ha hr])
    | ok r => exact .inr ⟨r.1, r.2, rfl⟩
  · intro js ks h t _ hr
    obtain ⟨hset, hc⟩ := run_cached hr h₀.settled h₀.cached
    exact hset.represents hc

/-- A frame of a byte sent, and the frame size changed while its answer is queued. -/
theorem run_represents_two : ∃ h t,
    run SsiBus.empty bare [.write 0x10 1#32, .write 0x60 7#32, .write 0x64 1#32,
      .write 0x60 0x1F#32] = .ok (h, t) ∧ t.rxFifo.num = 1 ∧ Represents t := by
  obtain ⟨hends, hall⟩ := run_represents SsiBus.empty powerOn_bare [.write 0x10 1#32,
    .write 0x60 7#32, .write 0x64 1#32, .write 0x60 0x1F#32] (by decide)
  rcases hends with herr | ⟨h, t, hr⟩
  · cases herr
  · refine ⟨h, t, hr, ?_, hall _ [] h t (List.append_nil _).symm hr⟩
    obtain ⟨rfl, rfl⟩ := Prod.mk.inj (Except.ok.inj hr)
    rfl

/-! ## Assertions -/

/-- The loop of `storeBytes` takes its overflow branch: at some iteration, the RX FIFO
    is full. -/
def storeOverflows (lsbf : Bool) (b : ℕ) (rxData : BitVec 32) :
    (k i : ℕ) → Fifo8 fifoByteCapacity → Bool
  | 0, _, _ => false
  | k + 1, i, f => fifo8IsFull f ||
      storeOverflows lsbf b rxData k (i + 1) (f.push (Frame.byteAt rxData (Frame.place lsbf b i)))

/-- `lpspi_flush_txfifo`, having passed its guards, takes the overflow branch, for
    some answer of the bus. -/
def FlushOverflows (s : State n β) : Prop :=
  ¬fifo8NumUsed s.txFifo < bytesPerFrame s.tcr ∧
    ¬(!rxmsk s.tcr ∧ fifo8NumFree s.rxFifo < bytesPerFrame s.tcr) ∧ rxmsk s.tcr = false ∧
      ∃ rxData, storeOverflows (lsbf s.tcr) (bytesPerFrame s.tcr) rxData (bytesPerFrame s.tcr) 0
        s.rxFifo = true

/-- The overflow branch is what sets `REF`. -/
theorem storeBytes_sr {lsbf : Bool} {b : ℕ} {rxData : BitVec 32} {k i : ℕ}
    (h : storeBytes lsbf b rxData k i s = .ok t) :
    t.sr = if storeOverflows lsbf b rxData k i s.rxFifo then s.sr ||| srRef else s.sr := by
  induction k generalizing i s with
  | zero =>
    rw [storeBytes, Except.ok.injEq] at h
    rw [← h, storeOverflows, if_neg Bool.false_ne_true]
  | succ k ih =>
    rw [storeBytes] at h
    rw [storeOverflows]
    by_cases hfull : fifo8IsFull s.rxFifo = true
    · -- The byte is dropped, and a full FIFO stays as it is.
      rw [if_pos hfull] at h
      rw [ih h, hfull, Bool.true_or, if_pos rfl]
      split_ifs
      · rw [BitVec.or_assoc, BitVec.or_self]
      · rfl
    · have hlt : s.rxFifo.num < fifoByteCapacity :=
        Nat.lt_of_le_of_ne s.rxFifo.num_le (mt fifo8IsFull_eq_true.2 hfull)
      rw [if_neg hfull, fifo8Push_of_lt hlt, ok_bind] at h
      rw [ih h, (Bool.not_eq_true _).mp hfull, Bool.false_or]

/-- With room for all bytes, the loop does not overflow. -/
theorem storeOverflows_eq_false {lsbf : Bool} {b : ℕ} {rxData : BitVec 32} {k i : ℕ}
    {f : Fifo8 fifoByteCapacity} (h : f.num + k ≤ fifoByteCapacity) :
    storeOverflows lsbf b rxData k i f = false := by
  induction k generalizing i f with
  | zero => rfl
  | succ k ih =>
    have hroom : f.num < fifoByteCapacity := by omega
    rw [storeOverflows, ih (by rw [f.num_push hroom]; omega), Bool.or_false, Bool.eq_false_iff]
    exact mt fifo8IsFull_eq_true.1 hroom.ne

/-- The guard for the room in the RX FIFO covers the whole frame. -/
theorem not_flushOverflows (s : State n β) : ¬FlushOverflows s := by
  rintro ⟨-, hroom, hmask, rxData, hover⟩
  have hle := s.rxFifo.num_le
  have hfree : ¬fifo8NumFree s.rxFifo < bytesPerFrame s.tcr := fun h => hroom ⟨by simp [hmask], h⟩
  rw [fifo8NumFree_eq] at hfree
  rw [storeOverflows_eq_false (by omega)] at hover
  exact Bool.false_ne_true hover

/-- **Assertions.** A run from power on, on any accesses, stops neither in `fifo8_push`
    nor in `fifo8_pop`. The loop that stores an answer sets `REF` in its overflow branch
    only, which a transfer takes in no state, and `REF` is clear after every access. -/
theorem run_asserts_nothing (bus : SsiBus β) {s₀ : State n β} (h₀ : PowerOn bus s₀)
    (as : List Access) :
    run bus s₀ as ≠ .error .fifoFull ∧ run bus s₀ as ≠ .error .fifoEmpty ∧
      (∀ (s t : State n β) lsbf b rxData k i, storeBytes lsbf b rxData k i s = .ok t →
        t.sr = if storeOverflows lsbf b rxData k i s.rxFifo then s.sr ||| srRef else s.sr) ∧
      (∀ s : State n β, ¬FlushOverflows s) ∧
      ∀ js ks h t, as = js ++ ks → run bus s₀ js = .ok (h, t) → Bits.any t.sr srRef = false := by
  have hstop : ∀ e, run bus s₀ as = .error e → e = .csOutOfBounds ∨ e = .divByZero := by
    intro e hr
    refine Mealy.run_error (I := Settled) (D := fun _ => True)
      (E := fun e => e = .csOutOfBounds ∨ e = .divByZero) ?_ ?_ h₀.settled (fun _ _ => trivial) hr
    · exact fun _ _ _ _ hs _ hstep => hs.access hstep
    · exact fun _ _ _ hs _ hstep => access_eq_error hs.bytes_ne_zero hstep
  refine ⟨fun hr => absurd (hstop _ hr) (by decide), fun hr => absurd (hstop _ hr) (by decide),
    fun _ _ _ _ _ _ _ hstore => storeBytes_sr hstore, not_flushOverflows, ?_⟩
  intro js ks h t _ hr
  exact (run_cached hr h₀.settled h₀.cached).2.sr_within.any_eq_false (by decide)

/-- Five words, of which the last finds the RX FIFO full, and a smaller frame size. -/
theorem run_asserts_nothing_five : ∃ h t,
    run SsiBus.empty bare [.write 0x10 1#32, .write 0x64 1#32, .write 0x64 2#32, .write 0x64 3#32,
      .write 0x64 4#32, .write 0x64 5#32, .write 0x60 7#32] = .ok (h, t) ∧
    t.rxFifo.num = 16 ∧ t.txFifo.num = 4 ∧ Bits.any t.sr srRef = false := by
  obtain ⟨-, -, -, -, hclear⟩ := run_asserts_nothing SsiBus.empty powerOn_bare [.write 0x10 1#32,
    .write 0x64 1#32, .write 0x64 2#32, .write 0x64 3#32, .write 0x64 4#32, .write 0x64 5#32,
    .write 0x60 7#32]
  exact ⟨_, _, rfl, rfl, rfl, hclear _ [] _ _ (List.append_nil _).symm rfl⟩

end S32K358.Lpspi
