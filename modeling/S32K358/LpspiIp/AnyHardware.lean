import S32K358.LpspiIp.Basic

/-!
# The LPSPI driver on any hardware

What `Lpspi_Ip_SyncTransmit` does whatever its hardware answers: counts of frames that
are wrong or never change, in any order. The driver returns after a bounded number of
passes, with success or a timeout (`syncTransmit_any_hardware`), unless the hardware
itself stops; it stays in the bounds of the buffers of its caller; and at no time has
it pushed more frames than it has read back by more than the size of the FIFO. The
last is what `CurrentTxFifoSlot` is for.

The frames pushed and read back are counted in the log of the accesses. The invariant
of the loop (`Flow`) ties the counts to the indices of the driver, and the slots to
their difference.
-/

namespace S32K358.LpspiIp

open Lpspi (Reg)
open Program Port OsIf

variable {ε σ : Type} {p : Port Reg ε σ}

/-! ## Frames in the log -/

/-- The frames pushed. -/
def pushes (log : List (Port.Access Reg)) : ℕ :=
  log.countP fun | .write .tdr _ => true | _ => false

/-- The frames read back. -/
def reads (log : List (Port.Access Reg)) : ℕ :=
  log.countP fun | .read .rdr => true | _ => false

/-- At no time have `k` more frames been pushed than read back. -/
def Ahead (k : ℕ) (log : List (Port.Access Reg)) : Prop :=
  ∀ m, pushes (log.take m) ≤ reads (log.take m) + k

variable {k : ℕ} {log l : List (Port.Access Reg)}

theorem pushes_append : pushes (log ++ l) = pushes log + pushes l := List.countP_append

theorem reads_append : reads (log ++ l) = reads log + reads l := List.countP_append

theorem pushes_take_le (m : ℕ) : pushes (log.take m) ≤ pushes log :=
  List.Sublist.countP_le (List.take_sublist _ _)

theorem ahead_of_pushes_eq_zero (h : pushes log = 0) : Ahead k log :=
  fun m => ((pushes_take_le m).trans_eq h).trans (Nat.zero_le _)

theorem Ahead.le (h : Ahead k log) : pushes log ≤ reads log + k := by
  simpa using h log.length

/-- It is enough to look at the end of a part of the log, if the frames pushed in it
    could all be pushed at its start. -/
theorem Ahead.append (h : Ahead k log) (hl : pushes log + pushes l ≤ reads log + k) :
    Ahead k (log ++ l) := by
  intro m
  rw [List.take_append, pushes_append, reads_append]
  rcases le_total m log.length with hm | hm
  · rw [Nat.sub_eq_zero_of_le hm, List.take_zero]
    exact h m
  · rw [List.take_of_length_le hm]
    have hpart : pushes (l.take (m - log.length)) ≤ pushes l := pushes_take_le _
    omega

/-! ## Buffers -/

/-- A buffer has room for `n` words. -/
def Fits (width n : ℕ) (buffer : Buffer) : Prop := ∀ b, buffer = some b → width * n ≤ b.length

theorem Fits.mono {width m n : ℕ} {buffer : Buffer} (h : Fits width n buffer) (hmn : m ≤ n) :
    Fits width m buffer := fun b hb => (Nat.mul_le_mul_left width hmn).trans (h b hb)

theorem load_isSome {width i : ℕ} {b : List (BitVec 8)} (h : width * (i + 1) ≤ b.length) :
    ∃ x, load width b i = some x := ⟨_, if_pos (by rwa [← Nat.mul_succ])⟩

theorem store_eq {width i : ℕ} {b : List (BitVec 8)} (h : width * (i + 1) ≤ b.length)
    (data : BitVec 32) :
    ∃ b', store width b i data = some b' ∧ b'.length = b.length := by
  have hi : width * i + width ≤ b.length := by rwa [← Nat.mul_succ]
  refine ⟨_, if_pos hi, ?_⟩
  simp only [List.length_append, List.length_take, List.length_drop, Frame.length_split]
  omega

variable {w : World (σ × List (Port.Access Reg))}

/-- The words of the driver's frames. -/
abbrev width (w : World σ) : ℕ := frameWidth w.state.externalDevice.frameSize

theorem frameData_ends {i : ℕ} (h : Fits (width w) (i + 1) w.state.txBuffer) :
    Ends Stop.IsHw (frameData w i : Except (Stop ε) _) fun _ => True := by
  rw [frameData]
  match hb : w.state.txBuffer with
  | none => exact trivial
  | some b =>
    obtain ⟨x, hx⟩ := load_isSome (h b hb)
    simp only [hx]
    exact trivial

theorem storeData_ends {i : ℕ} (h : Fits (width w) (i + 1) w.state.rxBuffer) (data : BitVec 32) :
    Ends Stop.IsHw (storeData w i data : Except (Stop ε) _) fun w' => w'.hw = w.hw ∧ ∃ buffer,
      w'.state = { w.state with rxBuffer := buffer } ∧
        buffer.map List.length = w.state.rxBuffer.map List.length := by
  rw [storeData]
  match hb : w.state.rxBuffer with
  | none => exact ⟨rfl, none, by rw [← hb], rfl⟩
  | some b =>
    obtain ⟨b', hb', hlen⟩ := store_eq (h b hb) data
    simp only [hb']
    exact ⟨rfl, some b', rfl, congrArg some hlen⟩

/-! ## Accesses to other registers -/

variable {w' w'' : World (σ × List (Port.Access Reg))}

/-- The driver has accessed registers that are not those of the data. -/
structure Other (w w' : World (σ × List (Port.Access Reg))) : Prop where
  state_eq : w'.state = w.state
  log_eq : ∃ l, w'.hw.2 = w.hw.2 ++ l ∧ pushes l = 0 ∧ reads l = 0

theorem Other.refl (w : World (σ × List (Port.Access Reg))) : Other w w :=
  ⟨rfl, [], (List.append_nil _).symm, rfl, rfl⟩

theorem Other.trans (h : Other w w') (h' : Other w' w'') : Other w w'' := by
  obtain ⟨hstate, l, hlog, hpush, hread⟩ := h
  obtain ⟨hstate', l', hlog', hpush', hread'⟩ := h'
  refine ⟨hstate'.trans hstate, l ++ l', ?_, ?_, ?_⟩
  · rw [hlog', hlog, List.append_assoc]
  · rw [pushes_append, hpush, hpush']
  · rw [reads_append, hread, hread']

theorem read_other {r : Reg} (hr : r ≠ .rdr) :
    Ends Stop.IsHw (w.read p.logged r) fun x => Other w x.2 := by
  refine (logged_read_ends r).mono fun x ⟨hstate, hlog⟩ => ⟨hstate, _, hlog, rfl, ?_⟩
  cases r <;> first | rfl | exact absurd rfl hr

theorem write_other {r : Reg} (hr : r ≠ .tdr) (v : BitVec 32) :
    Ends Stop.IsHw (w.write p.logged r v) fun w' => Other w w' := by
  refine (logged_write_ends r v).mono fun w' ⟨hstate, hlog⟩ => ⟨hstate, _, hlog, ?_, rfl⟩
  cases r <;> first | rfl | exact absurd rfl hr

theorem modify_other {r : Reg} (hr : r ≠ .rdr) (hr' : r ≠ .tdr) (f : BitVec 32 → BitVec 32) :
    Ends Stop.IsHw (w.modify p.logged r f) fun w' => Other w w' := by
  rw [World.modify]
  refine (read_other hr).bind fun x hx => ?_
  exact (write_other hr' _).mono fun w' hw' => hx.trans hw'

/-! ## Reading and pushing frames -/

theorem pushFrames_ends {i : ℕ} (h : Fits (width w) (i + k) w.state.txBuffer) :
    Ends Stop.IsHw (pushFrames p.logged k i w) fun w' => w'.state = w.state ∧
      ∃ l, w'.hw.2 = w.hw.2 ++ l ∧ pushes l = k ∧ reads l = 0 := by
  induction k generalizing i w with
  | zero => exact ⟨rfl, [], (List.append_nil _).symm, rfl, rfl⟩
  | succ k ih =>
    rw [pushFrames]
    refine (frameData_ends (h.mono (by omega))).bind fun data _ => ?_
    refine (logged_write_ends Reg.tdr data).bind fun w' ⟨hstate, hlog⟩ => ?_
    have hfits : Fits (width w') (i + 1 + k) w'.state.txBuffer := by
      rw [width, hstate, Nat.add_right_comm]
      exact h
    refine (ih hfits).mono fun w'' ⟨hstate', l, hlog', hpush, hread⟩ => ?_
    refine ⟨hstate'.trans hstate, .write .tdr data :: l, ?_, ?_, ?_⟩
    · rw [hlog', hlog, List.append_assoc, List.singleton_append]
    · rw [pushes, List.countP_cons, ← pushes, hpush]
      rfl
    · rw [reads, List.countP_cons, ← reads, hread]
      rfl

/-- The driver has read some frames into its buffer. -/
structure Received (w w' : World (σ × List (Port.Access Reg))) (n : ℕ) : Prop where
  state_eq : ∃ buffer, w'.state = { w.state with rxBuffer := buffer } ∧
    buffer.map List.length = w.state.rxBuffer.map List.length
  log_eq : ∃ l, w'.hw.2 = w.hw.2 ++ l ∧ pushes l = 0 ∧ reads l = n

theorem Fits.of_map_length {width n : ℕ} {b b' : Buffer} (h : Fits width n b)
    (hlen : b'.map List.length = b.map List.length) : Fits width n b' := by
  rintro c' rfl
  obtain ⟨c, hc, hcc⟩ := Option.map_eq_some_iff.1 hlen.symm
  exact hcc ▸ h c hc

theorem readFrames_ends {i : ℕ} (h : Fits (width w) (i + k) w.state.rxBuffer) :
    Ends Stop.IsHw (readFrames p.logged k i w) fun w' => Received w w' k := by
  induction k generalizing i w with
  | zero => exact ⟨⟨_, rfl, rfl⟩, [], (List.append_nil _).symm, rfl, rfl⟩
  | succ k ih =>
    rw [readFrames]
    refine (logged_read_ends Reg.rdr).bind fun ⟨data, w₁⟩ ⟨hstate, hlog⟩ => ?_
    dsimp only at hstate hlog ⊢
    have hfits : Fits (width w₁) (i + 1) w₁.state.rxBuffer := by
      rw [width, hstate]
      exact h.mono (by omega)
    refine (storeData_ends hfits data).bind fun w₂ ⟨hhw, b, hstate₂, hlen⟩ => ?_
    have hlen₂ : w₂.state.rxBuffer.map List.length = w.state.rxBuffer.map List.length := by
      rw [hstate₂, hlen, hstate]
    have hwidth : width w₂ = width w := by rw [width, hstate₂, hstate]
    have hfits₂ : Fits (width w₂) (i + 1 + k) w₂.state.rxBuffer :=
      hwidth ▸ (h.mono (by omega)).of_map_length hlen₂
    refine (ih hfits₂).mono fun w' ⟨⟨b', hstate', hlen'⟩, l, hlog', hpush, hread⟩ => ?_
    refine ⟨⟨b', ?_, hlen'.trans hlen₂⟩, .read .rdr :: l, ?_, ?_, ?_⟩
    · rw [hstate', hstate₂, hstate]
    · rw [hlog', hhw, hlog, List.append_assoc, List.singleton_append]
    · rw [pushes, List.countP_cons, ← pushes, hpush]
      rfl
    · rw [reads, List.countP_cons, ← reads, hread]
      rfl

/-! ## The invariant of the loop -/

/-- The counts of the log are the indices of the driver, and the slots are what is left
    of the FIFO, with one slot for the command until a frame has been read. -/
structure Flow (w : World (σ × List (Port.Access Reg))) : Prop where
  ahead : Ahead fifoSize w.hw.2
  pushes_eq : pushes w.hw.2 = w.state.txIndex
  reads_eq : reads w.hw.2 = w.state.rxIndex
  tx_le : w.state.txIndex ≤ w.state.expectedFifoWrites
  rx_le : w.state.rxIndex ≤ w.state.expectedFifoReads
  slot_le : w.state.currentTxFifoSlot + w.state.txIndex + (if w.state.rxIndex = 0 then 1 else 0) ≤
    w.state.rxIndex + fifoSize
  fits_tx : Fits (width w) w.state.expectedFifoWrites w.state.txBuffer
  fits_rx : Fits (width w) w.state.expectedFifoReads w.state.rxBuffer

/-- The frames still to be read and pushed. -/
def remaining (w : World σ) : ℕ :=
  (w.state.expectedFifoReads - w.state.rxIndex) + (w.state.expectedFifoWrites - w.state.txIndex)

/-- Accesses to other registers change no count. -/
theorem Flow.other (hf : Flow w) (h : Other w w') : Flow w' := by
  obtain ⟨hstate, l, hlog, hpush, hread⟩ := h
  have hahead := hf.ahead.le
  constructor <;> simp only [width, hstate, hlog]
  · exact hf.ahead.append (by omega)
  · rw [pushes_append, hpush, hf.pushes_eq, Nat.add_zero]
  · rw [reads_append, hread, hf.reads_eq, Nat.add_zero]
  · exact hf.tx_le
  · exact hf.rx_le
  · exact hf.slot_le
  · exact hf.fits_tx
  · exact hf.fits_rx

/-- Frames are read out of their slots, which are free again. -/
theorem Flow.received {n : ℕ} (hf : Flow w) (hn : 1 ≤ n)
    (hle : w.state.rxIndex + n ≤ w.state.expectedFifoReads)
    (hr : Received (freeCommandSlot w) w' n) :
    Flow (w'.upd fun st =>
      { st with
        rxIndex := st.rxIndex + n
        currentTxFifoSlot := (st.currentTxFifoSlot + n) % 2 ^ 8 }) := by
  obtain ⟨⟨b, hstate, hlen⟩, l, hlog, hpush, hread⟩ := hr
  have hahead := hf.ahead.le
  have hslot : ((freeCommandSlot w).state.currentTxFifoSlot + n) % 2 ^ 8 ≤
      w.state.currentTxFifoSlot + (if w.state.rxIndex = 0 then 1 else 0) + n := by
    refine (Nat.mod_le _ _).trans (Nat.add_le_add_right ?_ n)
    rw [freeCommandSlot, World.upd_state]
    dsimp only
    split_ifs
    · exact Nat.mod_le _ _
    · exact le_rfl
  have hs := hf.slot_le
  constructor <;> simp only [World.upd_hw, World.upd_state, width, hstate, hlog]
  · exact hf.ahead.append (by omega)
  · rw [pushes_append, hpush]
    exact hf.pushes_eq
  · rw [reads_append, hread]
    exact congrArg (· + n) hf.reads_eq
  · exact hf.tx_le
  · exact hle
  · rw [if_neg (Nat.ne_of_gt (Nat.add_pos_right _ hn))]
    change _ + w.state.txIndex + 0 ≤ w.state.rxIndex + n + fifoSize
    omega
  · exact hf.fits_tx
  · exact hf.fits_rx.of_map_length hlen

/-- Frames are pushed into free slots. -/
theorem Flow.pushed {n : ℕ} (hf : Flow w)
    (hle : w.state.txIndex + n ≤ w.state.expectedFifoWrites) (hn : n ≤ w.state.currentTxFifoSlot)
    (hstate : w'.state = w.state) (hlog : w'.hw.2 = w.hw.2 ++ l) (hpush : pushes l = n)
    (hread : reads l = 0) :
    Flow (w'.upd fun st =>
      { st with
        txIndex := st.txIndex + n
        currentTxFifoSlot := st.currentTxFifoSlot - n }) := by
  have hs := hf.slot_le
  have hp := hf.pushes_eq
  have hr := hf.reads_eq
  constructor <;> simp only [World.upd_hw, World.upd_state, width, hstate, hlog]
  · exact hf.ahead.append (by omega)
  · rw [pushes_append, hpush, hp]
  · rw [reads_append, hread, hr, Nat.add_zero]
  · exact hle
  · exact hf.rx_le
  · omega
  · exact hf.fits_tx
  · exact hf.fits_rx

/-! ## A pass -/

/-- The pass goes on, with `d` fewer frames remaining. -/
structure Progress (w w' : World (σ × List (Port.Access Reg))) (d : ℕ) : Prop where
  flow : Flow w'
  expected_eq : w'.state.expectedFifoReads = w.state.expectedFifoReads
  remaining_le : remaining w' + d ≤ remaining w

theorem Flow.progress (hf : Flow w) (h : Other w w') : Progress w w' 0 where
  flow := hf.other h
  expected_eq := by rw [h.state_eq]
  remaining_le := by rw [remaining, h.state_eq, Nat.add_zero, remaining]

theorem receiveData_ends (hf : Flow w) (hrx : w.state.rxIndex ≠ w.state.expectedFifoReads) :
    Ends Stop.IsHw (receiveData p.logged w) fun x => Progress w x.2 (if x.1 then 1 else 0) := by
  rw [receiveData]
  refine (read_other (by decide)).bind fun ⟨fsr, w₁⟩ ho => ?_
  have hf₁ : Flow w₁ := hf.other ho
  have hp₁ : Progress w w₁ 0 := hf.progress ho
  have hrem := hp₁.remaining_le
  have hrx₁ : w₁.state.rxIndex < w₁.state.expectedFifoReads :=
    lt_of_le_of_ne hf₁.rx_le (by rwa [show w₁.state = w.state from ho.state_eq])
  dsimp only
  split_ifs with hn
  · exact ends_pure hp₁
  · -- At least one frame is read, and no more than are expected.
    generalize hn_def : min (rxcount fsr) (w₁.state.expectedFifoReads - w₁.state.rxIndex) = n
    have hn₁ : 1 ≤ n := by omega
    have hn₂ : w₁.state.rxIndex + n ≤ w₁.state.expectedFifoReads := by omega
    have hfits : Fits (width (freeCommandSlot w₁)) ((freeCommandSlot w₁).state.rxIndex + n)
        (freeCommandSlot w₁).state.rxBuffer := hf₁.fits_rx.mono hn₂
    rw [readDataFromFifo, bind_assoc]
    refine (readFrames_ends hfits).bind fun w' hr => ends_pure ?_
    have hf' := hf₁.received hn₁ hn₂ hr
    obtain ⟨⟨b, hstate', -⟩, -⟩ := hr
    refine ⟨hf', ?_, ?_⟩
    · rw [World.upd_state, World.upd_state, hstate']
      exact hp₁.expected_eq
    · refine le_trans ?_ hrem
      rw [remaining, remaining, World.upd_state, World.upd_state, hstate', if_pos rfl]
      change w₁.state.expectedFifoReads - (w₁.state.rxIndex + n) +
        (w₁.state.expectedFifoWrites - w₁.state.txIndex) + 1 ≤ _
      omega

theorem releaseCs_ends : Ends Stop.IsHw (releaseCs p.logged w) fun w' => Other w w' := by
  rw [releaseCs]
  split_ifs with hk
  · exact ends_pure (Other.refl w)
  · refine (read_other (by decide)).bind fun ⟨tcr, w₁⟩ ho => ?_
    dsimp only
    split_ifs with hc
    · exact (modify_other (by decide) (by decide) _).mono fun w' ho' => ho.trans ho'
    · exact ends_pure ho

theorem transmitData_ends (hf : Flow w) :
    Ends Stop.IsHw (transmitData p.logged (releaseCs p.logged) w) fun x =>
      Progress w x.2 (if x.1 then 1 else 0) := by
  rw [transmitData]
  split_ifs with hslot htx
  · exact ends_pure ⟨hf, rfl, le_rfl⟩
  · -- At least one frame is pushed, and no more than are expected.
    dsimp only
    generalize hn_def : min w.state.currentTxFifoSlot
      (w.state.expectedFifoWrites - w.state.txIndex) = n
    have hlt : w.state.txIndex < w.state.expectedFifoWrites := lt_of_le_of_ne hf.tx_le htx.symm
    have hn : 1 ≤ n ∧ n ≤ w.state.currentTxFifoSlot ∧
        w.state.txIndex + n ≤ w.state.expectedFifoWrites := by omega
    rw [pushDataToFifo, bind_assoc]
    refine (pushFrames_ends (hf.fits_tx.mono hn.2.2)).bind
      fun w' ⟨hstate, l, hlog, hpush, hread⟩ => ends_pure ?_
    refine ⟨hf.pushed hn.2.2 hn.2.1 hstate hlog hpush hread, ?_, ?_⟩
    · rw [World.upd_state, World.upd_state, hstate]
    · rw [remaining, remaining, World.upd_state, World.upd_state, hstate, if_pos rfl]
      dsimp only
      omega
  · exact releaseCs_ends.bind fun w' ho => ends_pure (hf.progress ho)

/-- In the loop, the clock has not run out. -/
structure Looping (timeoutTicks reads : ℕ) (x : World (σ × List (Port.Access Reg)) × ℕ) : Prop where
  flow : Flow x.1
  expected_eq : x.1.state.expectedFifoReads = reads
  elapsed_lt : x.2 < timeoutTicks

/-- The loop is left, with success only if all frames have been read. -/
def Left (n : ℕ) (r : StatusType × World (σ × List (Port.Access Reg))) : Prop :=
  Ahead fifoSize r.2.hw.2 ∧ (r.1 = .timeout ∨ r.1 = .success ∧ reads r.2.hw.2 = n)

/-- A pass with progress resets the clock, and a pass without it advances it. -/
theorem syncPass_ends {timeoutTicks n : ℕ} (x : World (σ × List (Port.Access Reg)) × ℕ)
    (hx : Looping timeoutTicks n x) :
    Ends Stop.IsHw (syncPass p.logged timeoutTicks x) (Loop.After (Looping timeoutTicks n) (Left n)
      (fun x => remaining x.1 * timeoutTicks + (timeoutTicks - x.2)) x) := by
  obtain ⟨w, elapsedTicks⟩ := x
  obtain ⟨hf, hn, helapsed⟩ := hx
  rw [syncPass]
  split_ifs with hrx
  · exact ends_pure ⟨hf.ahead, .inr ⟨rfl, (hf.reads_eq.trans hrx).trans hn⟩⟩
  · refine (receiveData_ends hf hrx).bind fun ⟨received, w₁⟩ hp₁ => ?_
    refine (transmitData_ends hp₁.flow).bind fun ⟨transmitted, w₂⟩ hp₂ => ends_pure ?_
    have h₁ := hp₁.remaining_le
    have h₂ := hp₂.remaining_le
    dsimp only at h₁ h₂ helapsed ⊢
    generalize he : (if received || transmitted then 0 else elapsedTicks) + getElapsed = e
    split_ifs with htimeout
    · exact ⟨hp₂.flow.ahead, .inl rfl⟩
    · refine ⟨⟨hp₂.flow, (hp₂.expected_eq.trans hp₁.expected_eq).trans hn,
        Nat.lt_of_not_le htimeout⟩, ?_⟩
      dsimp only
      rw [getElapsed] at he
      cases hprog : received || transmitted with
      | false =>
        rw [hprog, if_neg Bool.false_ne_true] at he
        have := Nat.mul_le_mul_right timeoutTicks (show remaining w₂ ≤ remaining w by omega)
        omega
      | true =>
        have hlt : remaining w₂ + 1 ≤ remaining w := by
          rcases Bool.or_eq_true_iff.1 hprog with rfl | rfl
          · rw [if_pos rfl] at h₁; omega
          · rw [if_pos rfl] at h₂; omega
        have := Nat.mul_le_mul_right timeoutTicks hlt
        rw [Nat.succ_mul] at this
        omega

/-! ## The whole call -/

/-- The frames expected are those the buffers are checked for. -/
theorem width_mul_expectedFrames {frameSize n : ℕ} (h : n % frameWidth frameSize = 0) :
    frameWidth frameSize * expectedFrames frameSize n = n := by
  rw [expectedFrames, if_pos h]
  exact Nat.mul_div_cancel' (Nat.dvd_of_mod_eq_zero h)

/-- The assertion of the driver is that a transfer is of whole frames. -/
theorem checkValidParameters_eq {d : ExternalDevice} {n : ℕ} {w : World σ}
    (h : n % frameWidth d.frameSize = 0) :
    (checkValidParameters d n w : Except (Stop ε) _) = .ok w := by
  rw [checkValidParameters]
  split_ifs with h₁ h₂
  · rw [frameWidth, if_neg (by omega), if_neg (by omega)] at h
    exact World.devAssert_of h
  · rw [frameWidth, if_neg (by omega), if_pos (by omega)] at h
    exact World.devAssert_of h
  · rfl

theorem errataHandle_ends : Ends Stop.IsHw (errataHandle p.logged w) (Other w) := by
  rw [errataHandle]
  refine (read_other (by decide)).bind fun x h₁ => ?_
  refine (modify_other (by decide) (by decide) _).bind fun w₂ h₂ => ?_
  refine (modify_other (by decide) (by decide) _).bind fun w₃ h₃ => ?_
  exact (write_other (by decide) _).mono fun w₄ h₄ => ((h₁.trans h₂).trans h₃).trans h₄

theorem emptyFifos_ends (errata : Bool) :
    Ends Stop.IsHw (emptyFifos p.logged errata w) (Other w) := by
  rw [emptyFifos]
  split_ifs
  · exact errataHandle_ends
  · exact modify_other (by decide) (by decide) _

theorem firstCmdInit_ends (errata : Bool) :
    Ends Stop.IsHw (firstCmdInit p.logged errata w) (Other w) := by
  rw [firstCmdInit]
  split_ifs
  · exact ends_pure (Other.refl w)
  · refine (modify_other (by decide) (by decide) _).bind fun w₁ h₁ => ?_
    refine (emptyFifos_ends errata).bind fun w₂ h₂ => ?_
    refine (modify_other (by decide) (by decide) _).bind fun w₃ h₃ => ?_
    have h := (h₁.trans h₂).trans h₃
    split_ifs
    · exact ends_pure h
    · refine (write_other (by decide) _).bind fun w₄ h₄ => ?_
      exact (modify_other (by decide) (by decide) _).mono fun w₅ h₅ => (h.trans h₄).trans h₅

theorem enableSlave_ends : Ends Stop.IsHw (enableSlave p.logged w) (Other w) := by
  rw [enableSlave]
  split_ifs
  · exact modify_other (by decide) (by decide) _
  · exact ends_pure (Other.refl w)

/-- A full-duplex command takes a slot. -/
theorem commandInit_ends (h : w.state.externalDevice.transferType = .fullDuplex) :
    Ends Stop.IsHw (commandInit p.logged w) fun w' => ∃ w₁, Other w w₁ ∧ w' = w₁.upd fun st =>
      { st with currentTxFifoSlot := st.currentTxFifoSlot - 1 } := by
  rw [commandInit, h, if_pos (by decide)]
  refine (write_other (by decide) _).bind fun w₁ h₁ => ?_
  exact enableSlave_ends.bind fun w₂ h₂ => ends_pure ⟨w₂, h₁.trans h₂, if_pos rfl⟩

variable {errata : Bool} {d : ExternalDevice} {tx rx : Buffer} {length : ℕ}

theorem transmitTxInit_ends (h : w.state.externalDevice.transferType = .fullDuplex) :
    Ends Stop.IsHw (transmitTxInit p.logged errata tx length w) fun w' => ∃ w₁, Other w w₁ ∧
      w' = w₁.upd fun st =>
        { st with
          currentTxFifoSlot := st.currentTxFifoSlot - 1
          txIndex := 0
          txBuffer := tx
          expectedFifoWrites := expectedFrames st.externalDevice.frameSize length } := by
  rw [transmitTxInit]
  refine (firstCmdInit_ends errata).bind fun w₁ h₁ => ?_
  refine (commandInit_ends (by rwa [h₁.state_eq])).bind ?_
  rintro _ ⟨w₂, h₂, rfl⟩
  refine ends_pure ⟨w₂, h₁.trans h₂, ?_⟩
  have htype : w₂.state.externalDevice.transferType = .fullDuplex := by
    rwa [(h₁.trans h₂).state_eq]
  simp only [World.upd, htype, if_true]

/-- The loop starts with nothing pushed and one slot less than the FIFO has. -/
theorem syncPrepare_ends (hd : d.transferType = .fullDuplex) (hlog : w.hw.2 = [])
    (hwidth : length % frameWidth d.frameSize = 0)
    (htx : ∀ b, tx = some b → length ≤ b.length) (hrx : ∀ b, rx = some b → length ≤ b.length) :
    Ends Stop.IsHw (syncPrepare p.logged errata d tx rx length w) fun w' => Flow w' ∧
      w'.state.expectedFifoReads = expectedFrames d.frameSize length ∧
      remaining w' = 2 * expectedFrames d.frameSize length := by
  have hwords := width_mul_expectedFrames hwidth
  rw [syncPrepare]
  refine (write_other (by decide) _).bind fun w₁ h₁ => ?_
  refine (write_other (by decide) _).bind fun w₂ h₂ => ?_
  obtain ⟨hstate₂, l₂, hlog₂, hpush₂, hread₂⟩ := h₁.trans h₂
  dsimp only
  refine (transmitTxInit_ends ?_).bind ?_
  · rw [World.upd_state, hstate₂]
    exact hd
  rintro _ ⟨w₃, ⟨hstate₃, l₃, hlog₃, hpush₃, hread₃⟩, rfl⟩
  refine ends_pure ?_
  have hlog' : w₃.hw.2 = l₂ ++ l₃ := by
    rw [hlog₃, World.upd_hw, hlog₂]
    exact congrArg (· ++ l₂ ++ l₃) hlog
  have hpush : pushes (l₂ ++ l₃) = 0 := by rw [pushes_append, hpush₂, hpush₃]
  have hread : reads (l₂ ++ l₃) = 0 := by rw [reads_append, hread₂, hread₃]
  rw [World.upd_state, hstate₂] at hstate₃
  refine ⟨?_, ?_, ?_⟩
  · constructor <;>
      simp only [transmitRxInit, World.upd_state, World.upd_hw, width, hstate₃, hlog', hd, if_true]
    · exact ahead_of_pushes_eq_zero hpush
    · exact hpush
    · exact hread
    · exact Nat.zero_le _
    · exact Nat.zero_le _
    · decide
    · exact fun b hb => hwords.trans_le (htx b hb)
    · exact fun b hb => hwords.trans_le (hrx b hb)
  · simp only [transmitRxInit, World.upd_state, hstate₃]
  · simp only [remaining, transmitRxInit, World.upd_state, hstate₃]
    omega

/-- **Any hardware.** Whatever its hardware does, `Lpspi_Ip_SyncTransmit` with valid
    arguments returns after at most `(2 n + 1) timeOut` passes of its loop, for `n`
    frames, unless the hardware stops. It does not leave the bounds of the buffers. It
    times out, or succeeds and has then read all frames; and at every moment, it has
    pushed at most four frames more than it has read. -/
theorem syncTransmit_any_hardware (p : Port Reg ε σ) (errata : Bool) (w : World σ)
    (d : ExternalDevice) (tx rx : Buffer) (length timeOut fuel : ℕ)
    (hidle : w.state.status ≠ .busy) (hd : d.transferType = .fullDuplex)
    (hlength : length ≠ 0) (htimeOut : timeOut ≠ 0)
    (hwidth : length % frameWidth d.frameSize = 0)
    (htx : ∀ b, tx = some b → length ≤ b.length) (hrx : ∀ b, rx = some b → length ≤ b.length)
    (hfuel : (2 * expectedFrames d.frameSize length + 1) * timeOut < fuel) :
    (∃ e, syncTransmit p.logged errata d tx rx length timeOut fuel ⟨w.state, w.hw, []⟩ =
      .error (.hw e)) ∨
    ∃ status w', syncTransmit p.logged errata d tx rx length timeOut fuel ⟨w.state, w.hw, []⟩ =
        .ok (some (status, w')) ∧
      Ahead fifoSize w'.hw.2 ∧
      (status = .timeout ∨
        status = .success ∧ reads w'.hw.2 = expectedFrames d.frameSize length) := by
  have hends : Ends Stop.IsHw
      (syncTransmit p.logged errata d tx rx length timeOut fuel ⟨w.state, w.hw, []⟩)
      fun r => ∃ x, r = some x ∧ Left (expectedFrames d.frameSize length) x := by
    rw [syncTransmit, World.devAssert_of hlength, ends_ok_bind, World.devAssert_of htimeOut,
      ends_ok_bind, checkValidParameters_eq hwidth, ends_ok_bind, if_neg hidle]
    refine (syncPrepare_ends hd rfl hwidth htx hrx).bind fun w₁ ⟨hf, hexpected, hrem⟩ => ?_
    have hrun := Loop.run_ends (k := fuel) _ (syncPass_ends (p := p))
      (s := (w₁, 0)) ⟨hf, hexpected, Nat.pos_of_ne_zero htimeOut⟩ (by
        dsimp only
        rw [hrem]
        rw [Nat.add_mul, Nat.one_mul] at hfuel
        exact hfuel)
    refine hrun.bind ?_
    rintro _ ⟨⟨status, w'⟩, rfl, hleft⟩
    exact ends_pure ⟨_, rfl, hleft⟩
  rcases ends_iff.1 hends with ⟨e, he, hhw⟩ | ⟨r, hr, ⟨status, w'⟩, rfl, hleft⟩
  · match e, hhw with
    | .hw e, _ => exact .inl ⟨e, he⟩
  · exact .inr ⟨status, w', hr, hleft⟩

/-- A peripheral with frames of a byte. -/
def byteDevice : ExternalDevice := ⟨0#32, 0#32, 0#32, 8, false, 0#32, .fullDuplex⟩

/-- Hardware that answers zero to everything. -/
def silent : Port Reg Empty Unit := ⟨fun _ _ => .ok (0#32, ()), fun _ _ _ => .ok ()⟩

/-- It makes the driver time out, with both frames pushed and none read. -/
theorem syncTransmit_silent : ∃ w',
    syncTransmit silent.logged true byteDevice (some [1#8, 2#8]) none 2 3 16
      ⟨StateStructure.cleared, (), []⟩ = .ok (some (.timeout, w')) ∧ Ahead fifoSize w'.hw.2 ∧
      pushes w'.hw.2 = 2 ∧ reads w'.hw.2 = 0 := by
  rcases syncTransmit_any_hardware silent true ⟨StateStructure.cleared, ()⟩ byteDevice
    (some [1#8, 2#8]) none 2 3 16 (by decide) rfl (by decide) (by decide) (by decide)
    (by rintro _ ⟨⟩; decide) (by rintro _ ⟨⟩) (by decide) with ⟨e, -⟩ | ⟨status, w', hr, hahead, -⟩
  · exact e.elim
  · obtain ⟨rfl, rfl⟩ := Prod.mk.inj (Option.some.inj (Except.ok.inj hr))
    exact ⟨_, rfl, hahead, rfl, rfl⟩

end S32K358.LpspiIp
