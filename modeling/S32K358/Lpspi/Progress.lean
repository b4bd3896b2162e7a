import S32K358.Lpspi.Run

/-!
# The LPSPI: progress

Queued data should be sent as soon as it can be: between accesses, an enabled
device should have no frame ready (`Served`). But a transfer is only attempted
by a write of `TDR` or `TCR`, one frame at a time. So a frame gets stuck that
becomes ready otherwise: by a read of `RDR` or a reset of the RX FIFO, which make
room for the answer, by enabling the device, or by a command that makes two
frames ready at once.

`LeavesNothing` says when an access does not do so, given the state before it;
`run_served_iff`: the device is served all along a run exactly when all
accesses leave nothing.
-/

namespace S32K358.Lpspi

variable {n : ℕ} {β : Type} {bus : SsiBus β} {s t : State n β}

/-- Nothing is left to be sent: the device is disabled, or has no whole frame
    queued, or no room for the answer. -/
def Served (s : State n β) : Prop :=
  Bits.any s.cr crMen = false ∨ fifo8NumUsed s.txFifo < bytesPerFrame s.tcr ∨
    rxmsk s.tcr = false ∧ fifo8NumFree s.rxFifo < bytesPerFrame s.tcr

instance (s : State n β) : Decidable (Served s) := inferInstanceAs (Decidable (_ ∨ _ ∨ _ ∧ _))

/-- The access leaves no frame ready, if there is none before it.

    * A read of `RDR` that finds data makes room for an answer.
    * A write of `CR` may enable the device, and make room by `RRF`; by `RTF`, it
      empties the TX FIFO.
    * A command sends one frame, of the size it sets, and leaves a second one. -/
def LeavesNothing (s : State n β) : Access → Prop
  | .read addr => takes s (.read addr) = true →
      Bits.any s.cr crMen = false ∨ s.txFifo.num < bytesPerFrame s.tcr
  | .write addr v =>
    (Reg.ofOffset? addr = some .cr → Bits.any v crRst = true ∨ Bits.any v crMen = false ∨
      Bits.any v crRtf = true ∨ s.txFifo.num < bytesPerFrame s.tcr ∨
      Bits.any v crRrf = false ∧ rxmsk s.tcr = false ∧
        fifo8NumFree s.rxFifo < bytesPerFrame s.tcr) ∧
    (Reg.ofOffset? addr = some .tcr → Bits.any s.cr crMen = false ∨
      s.txFifo.num < 2 * bytesPerFrame v ∨
      rxmsk v = false ∧ fifo8NumFree s.rxFifo < 2 * bytesPerFrame v)

theorem served_iff : Served s ↔ ¬(Bits.any s.cr crMen = true ∧ Ready s) := by
  have hle := s.rxFifo.num_le
  rw [Served, Ready, fifo8NumUsed_eq, fifo8NumFree_eq]
  cases Bits.any s.cr crMen <;> cases rxmsk s.tcr <;> simp
  omega

theorem served_settle : Served (settle s) ↔ Served s := Iff.rfl

theorem served_updateClockConfig : Served (updateClockConfig s) ↔ Served s := Iff.rfl

/-- A command sends one frame; a second one, if there is one, is stuck. -/
theorem served_sendFrame_iff (hmen : Bits.any s.cr crMen = true) (h : Ready s) :
    Served (sendFrame bus s) ↔ s.txFifo.num < 2 * bytesPerFrame s.tcr ∨
      rxmsk s.tcr = false ∧ fifo8NumFree s.rxFifo < 2 * bytesPerFrame s.tcr := by
  have hcr : (sendFrame bus s).cr = s.cr := rfl
  have htcr : (sendFrame bus s).tcr = s.tcr := rfl
  have htx := h.1
  have hrx := h.2
  rw [Served, hcr, htcr, hmen, fifo8NumUsed_eq, num_txFifo_sendFrame, fifo8NumFree_eq,
    num_rxFifo_sendFrame h, fifo8NumFree_eq]
  cases hm : rxmsk s.tcr with
  | true => simp; omega
  | false =>
    have := hrx hm
    simp
    omega

/-- A write of `CR` may enable the device, and reset the FIFOs. -/
theorem served_writeCr_iff {v : BitVec 32} (hs : Settled s) :
    Served (settle (writeCr s v)) ↔ Bits.any v crMen = false ∨ Bits.any v crRtf = true ∨
      s.txFifo.num < bytesPerFrame s.tcr ∨
      Bits.any v crRrf = false ∧ rxmsk s.tcr = false ∧
        fifo8NumFree s.rxFifo < bytesPerFrame s.tcr := by
  have hmen : Bits.any (settle (writeCr s v)).cr crMen = Bits.any v crMen :=
    Bits.any_clear_of_disjoint (by decide)
  have htcr : (settle (writeCr s v)).tcr = s.tcr := rfl
  have htx : (settle (writeCr s v)).txFifo =
      if Bits.any v crRtf then s.txFifo.reset else s.txFifo := rfl
  have hrx : (settle (writeCr s v)).rxFifo =
      if Bits.any v crRrf then s.rxFifo.reset else s.rxFifo := rfl
  have hpos := hs.bytes_pos
  have hfree : ¬fifo8NumFree s.rxFifo.reset < bytesPerFrame s.tcr :=
    Nat.not_lt.2 (bytesPerFrame_le_capacity s.tcr)
  have hused : s.txFifo.reset.num < bytesPerFrame s.tcr := hpos
  rw [Served, hmen, htcr, htx, hrx]
  cases Bits.any v crRtf <;> cases Bits.any v crRrf <;>
    simp only [Bool.false_eq_true, if_false, if_true, hfree, hused, true_and, false_and, and_false,
      or_false, true_or, or_true, false_or, fifo8NumUsed_eq, reduceCtorEq]

/-- What the accesses leave. -/
theorem Effect.served_iff {a : Access} {v : Option (BitVec 32)} (hs : Settled s) (hp : Served s)
    (h : Effect bus s a v t) : Served t ↔ LeavesNothing s a := by
  cases h with
  | @look addr h =>
    have hnot : takes s (.read addr) = false := by
      simp only [takes, decide_eq_false_iff_not]
      tauto
    exact iff_of_true hp fun h => absurd (hnot.symm.trans h) Bool.false_ne_true
  | @take addr hr h =>
    have htake : takes s (.read addr) = true := by simp [takes, hr, h]
    have hnum : (status (taken (status s))).rxFifo.num = s.rxFifo.num - bytesPerFrame s.tcr :=
      RingBuffer.num_popN _ _
    -- There is room for an answer now, so all depends on the TX FIFO.
    have hroom : ¬fifo8NumFree (status (taken (status s))).rxFifo < bytesPerFrame s.tcr := by
      have hle := s.rxFifo.num_le
      have hb := bytesPerFrame_le_capacity s.tcr
      rw [fifo8NumFree_eq, hnum]
      omega
    exact ⟨fun h _ => h.imp_right fun h => h.resolve_right fun h => hroom h.2,
      fun h => (h htake).imp_right .inl⟩
  | ignore hr =>
    obtain ⟨h₁, h₂, -⟩ := readOnly_ne hr
    exact iff_of_true hp ⟨fun h => absurd h h₁, fun h => absurd h h₂⟩
  | reset hr hrst =>
    exact iff_of_true (.inl (Bits.any_zero_left crMen)) ⟨fun _ => .inl hrst, by rw [hr]; simp⟩
  | control hr hrst =>
    rw [served_writeCr_iff hs, LeavesNothing, hr, hrst]
    simp
  | clear hr | refuse hr | overflow hr | watermark hr =>
    exact iff_of_true hp ⟨by rw [hr]; simp, by rw [hr]; simp⟩
  | configure hr ht =>
    obtain ⟨htcr, htx, hrx, -, hcr, -⟩ := configure_frame ht
    obtain ⟨h₁, h₂, -⟩ := configure_ne ht
    refine iff_of_true ?_ ⟨by rw [hr]; simp [h₁], by rw [hr]; simp [h₂]⟩
    simpa only [Served, settle_cr, settle_txFifo, settle_rxFifo, settle_tcr, htcr, htx, hrx, hcr]
      using hp
  | @command addr v hr hv h =>
    have hserved : Served (Lpspi.command s v) := Lpspi.served_iff.2 h
    rw [served_settle, served_updateClockConfig]
    refine iff_of_true hserved ⟨by rw [hr]; simp, fun _ => ?_⟩
    have hle : bytesPerFrame v ≤ 2 * bytesPerFrame v := Nat.le_mul_of_pos_left _ two_pos
    exact hserved.imp_right (Or.imp (fun h => h.trans_le hle)
      (And.imp_right fun h => h.trans_le hle))
  | @resume addr v hr hv hmen h hcs =>
    have hcr : Bits.any (Lpspi.command s v).cr crMen = true := hmen
    have hsend : Served (sendFrame bus (Lpspi.command s v)) ↔ s.txFifo.num < 2 * bytesPerFrame v ∨
        rxmsk v = false ∧ fifo8NumFree s.rxFifo < 2 * bytesPerFrame v :=
      served_sendFrame_iff hcr h
    rw [served_settle, served_updateClockConfig]
    refine hsend.trans ⟨fun h => ⟨by rw [hr]; simp, fun _ => .inr h⟩,
      fun h => (h.2 hr).resolve_left ?_⟩
    rw [hmen]
    decide
  | queue hr hmen hroom h =>
    rw [served_settle]
    exact iff_of_true (Lpspi.served_iff.2 fun h' => h h'.2) ⟨by rw [hr]; simp, by rw [hr]; simp⟩
  | @send addr v hr hmen hroom h hcs =>
    rw [served_settle]
    refine iff_of_true ?_ ⟨by rw [hr]; simp, by rw [hr]; simp⟩
    -- The TX FIFO had no whole frame before, so the one sent is its only one.
    have hready : ¬Ready s := fun h => Lpspi.served_iff.1 hp ⟨hmen, h⟩
    have hrx : rxmsk s.tcr = false → s.rxFifo.num + bytesPerFrame s.tcr ≤ fifoByteCapacity := h.2
    have htx : s.txFifo.num < bytesPerFrame s.tcr := Nat.not_le.1 fun h' => hready ⟨h', hrx⟩
    have hmen' : Bits.any (queued s v).cr crMen = true := hmen
    have hone : (queued s v).txFifo.num < 2 * bytesPerFrame (queued s v).tcr := by
      change (queued s v).txFifo.num < 2 * bytesPerFrame s.tcr
      rw [num_txFifo_queued hroom]
      omega
    exact (served_sendFrame_iff hmen' h).2 (.inl hone)

/-- **Progress.** In a run from power on, without commands whose frames have no
    bytes, nothing is left to be sent after any access exactly when every access
    leaves nothing. -/
theorem run_served_iff (bus : SsiBus β) {s₀ : State n β} (h₀ : PowerOn bus s₀) (as : List Access)
    (ha : ∀ a ∈ as, a.Framed) :
    run bus s₀ as = .error .csOutOfBounds ∨ ∃ h t, run bus s₀ as = .ok (h, t) ∧
      ((∀ τ ∈ h, Served τ.post) ↔ ∀ τ ∈ h, LeavesNothing τ.pre τ.input) := by
  refine run_exact h₀.settled ?_ ha (fun _ => Iff.rfl) fun hs hp _ h => h.served_iff hs hp
  obtain ⟨hz, ssi, -, -, -, rfl⟩ := powerOn_iff.1 h₀
  exact .inl (Bits.any_zero_left crMen)

/-- A word sent and its answer read: nothing is left to be sent. -/
theorem run_served_iff_once : ∃ h t,
    run SsiBus.empty bare [.write 0x10 1#32, .write 0x64 1#32, .read 0x74] = .ok (h, t) ∧
      (∀ τ ∈ h, Served τ.post) ∧ ∀ τ ∈ h, LeavesNothing τ.pre τ.input := by
  rcases run_served_iff SsiBus.empty powerOn_bare
    [.write 0x10 1#32, .write 0x64 1#32, .read 0x74] (by decide) with herr | ⟨h, t, hr, hiff⟩
  · cases herr
  · have hserved : ∀ τ ∈ h, Served τ.post := by
      obtain ⟨rfl, rfl⟩ := Prod.mk.inj (Except.ok.inj hr)
      decide
    exact ⟨h, t, hr, hserved, hiff.1 hserved⟩

/-- With the RX FIFO full of four answers, a fifth word waits, and still does after
    the first answer has been read. -/
theorem run_stranded : ∃ as h t, (∀ a ∈ as, a.Framed) ∧
    run SsiBus.empty bare as = .ok (h, t) ∧ ¬Served t :=
  ⟨[.write 0x10 1#32, .write 0x64 1#32, .write 0x64 2#32, .write 0x64 3#32, .write 0x64 4#32,
    .write 0x64 5#32, .read 0x74], _, _, by decide, rfl, by decide⟩

end S32K358.Lpspi
