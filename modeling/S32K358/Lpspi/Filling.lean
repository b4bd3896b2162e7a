import S32K358.Lpspi.Interrupt
import S32K358.Lpspi.TransmitFlag

/-!
# The LPSPI: filling the FIFOs

A device enabled and commanded transfers the values it is given while there is room
for their answers, and then queues them. So values that nobody reads the answers of
fill the RX FIFO first, and the TX FIFO after it (`Filling.fill`), on any bus.
-/

namespace S32K358.Lpspi

variable {n : ℕ} {β : Type} {bus : SsiBus β} {s : State n β} {v w : BitVec 32} {i j : ℕ}

/-- An enabled device under the command `v`, with `i` frames in the TX FIFO, and `j` in the
    RX FIFO. -/
structure Filling (v : BitVec 32) (i j : ℕ) (s : State n β) : Prop where
  settled : Settled s
  men : Bits.any s.cr crMen = true
  tcr : s.tcr = v
  tx : s.txFifo.num = i * bytesPerFrame v
  rx : s.rxFifo.num = j * bytesPerFrame v

/-- With room for the answer, a value is transferred. -/
theorem Filling.send (bus : SsiBus β) (h : Filling v 0 j s) (hm : rxmsk v = false)
    (hpcs : pcs v < n) (hroom : (j + 1) * bytesPerFrame v ≤ fifoByteCapacity) :
    ∃ r t, access bus s (.write 0x64 w) = .ok (r, t) ∧ Filling v 0 (j + 1) t := by
  obtain ⟨hs, hmen, rfl, htx, hrx⟩ := h
  rw [Nat.zero_mul] at htx
  rw [Nat.add_mul, Nat.one_mul, ← hrx] at hroom
  have htxroom : s.txFifo.num + bytesPerFrame s.tcr ≤ fifoByteCapacity := by
    rw [htx, Nat.zero_add]
    exact bytesPerFrame_le_capacity _
  have hready : Ready (queued s w) := by
    refine ⟨?_, fun _ => hroom⟩
    rw [num_txFifo_queued htxroom]
    exact Nat.le_add_left _ _
  have heff : Effect bus s (.write 0x64 w) none (settle (sendFrame bus (queued s w))) :=
    .send rfl hmen htxroom hready fun h => absurd h.2 (Nat.not_le.2 hpcs)
  refine ⟨_, _, heff.access_eq hs.bytes_ne_zero, heff.settled hs, ?_, ?_, ?_, ?_⟩
  · simpa using hmen
  · simp
  · change (sendFrame bus (queued s w)).txFifo.num = _
    rw [num_txFifo_sendFrame, num_txFifo_queued htxroom, htx, queued_tcr]
    omega
  · change (sendFrame bus (queued s w)).rxFifo.num = _
    rw [num_rxFifo_sendFrame hready, queued_tcr, hm, if_neg Bool.false_ne_true, Nat.add_mul,
      Nat.one_mul, ← hrx]
    rfl

/-- Without, it waits. -/
theorem Filling.queue (bus : SsiBus β) (h : Filling v i j s) (hm : rxmsk v = false)
    (hfull : fifoByteCapacity < (j + 1) * bytesPerFrame v)
    (hroom : (i + 1) * bytesPerFrame v ≤ fifoByteCapacity) :
    ∃ r t, access bus s (.write 0x64 w) = .ok (r, t) ∧ Filling v (i + 1) j t := by
  obtain ⟨hs, hmen, rfl, htx, hrx⟩ := h
  rw [Nat.add_mul, Nat.one_mul, ← hrx] at hfull
  rw [Nat.add_mul, Nat.one_mul, ← htx] at hroom
  have hready : ¬Ready (queued s w) := fun h => absurd (h.2 hm) (Nat.not_le.2 hfull)
  have heff : Effect bus s (.write 0x64 w) none (settle (queued s w)) :=
    .queue rfl hmen hroom hready
  refine ⟨_, _, heff.access_eq hs.bytes_ne_zero, heff.settled hs, hmen, rfl, ?_, hrx⟩
  change (queued s w).txFifo.num = _
  rw [num_txFifo_queued hroom, Nat.add_mul, Nat.one_mul, ← htx]

/-- Values fill the RX FIFO first, with as many frames as there is room for, and then
    the TX FIFO. -/
theorem Filling.run (bus : SsiBus β) (hm : rxmsk v = false) (hpcs : pcs v < n) (m : ℕ)
    (h : Filling v (i - fifoByteCapacity / bytesPerFrame v)
      (min i (fifoByteCapacity / bytesPerFrame v)) s)
    (hroom : (i + m - fifoByteCapacity / bytesPerFrame v) * bytesPerFrame v ≤ fifoByteCapacity) :
    ∃ h t, run bus s (List.replicate m (.write 0x64 w)) = .ok (h, t) ∧
      Filling v (i + m - fifoByteCapacity / bytesPerFrame v)
        (min (i + m) (fifoByteCapacity / bytesPerFrame v)) t := by
  induction m generalizing i s with
  | zero => exact ⟨[], s, rfl, h⟩
  | succ m ih =>
    have hpos : 0 < bytesPerFrame v := Nat.pos_of_ne_zero (h.tcr ▸ h.settled.bytes_ne_zero)
    generalize hcap : fifoByteCapacity / bytesPerFrame v = c at h hroom ih ⊢
    have hstep : ∃ r t, access bus s (.write 0x64 w) = .ok (r, t) ∧
        Filling v (i + 1 - c) (min (i + 1) c) t := by
      rcases Nat.lt_or_ge i c with hlt | hle
      · have h₀ : i - c = 0 := by omega
        have h₁ : min i c = i := by omega
        have h₂ : i + 1 - c = 0 := by omega
        have h₃ : min (i + 1) c = i + 1 := by omega
        rw [h₀, h₁] at h
        rw [h₂, h₃]
        refine h.send bus hm hpcs ?_
        rw [← Nat.le_div_iff_mul_le hpos, hcap]
        omega
      · have h₁ : min i c = c := by omega
        have h₂ : i + 1 - c = i - c + 1 := by omega
        have h₃ : min (i + 1) c = c := by omega
        rw [h₁] at h
        rw [h₂, h₃]
        refine h.queue bus hm ?_ ?_
        · rw [← Nat.div_lt_iff_lt_mul hpos, hcap]
          exact Nat.lt_succ_self c
        · refine le_trans (Nat.mul_le_mul_right _ ?_) hroom
          omega
    obtain ⟨r, u, hok, hu⟩ := hstep
    have hadd : i + (m + 1) = i + 1 + m := by omega
    rw [hadd] at hroom ⊢
    obtain ⟨h', t, hr, ht⟩ := ih hu hroom
    exact ⟨_, t, Mealy.run_cons_of_ok hok hr, ht⟩

/-- From empty FIFOs, they fill the RX FIFO, and `k` frames of the TX FIFO. -/
theorem Filling.fill (bus : SsiBus β) (w : BitVec 32) (h : Filling v 0 0 s) (hm : rxmsk v = false)
    (hpcs : pcs v < n) {k : ℕ} (hk : k * bytesPerFrame v ≤ fifoByteCapacity) :
    ∃ h t, Lpspi.run bus s (List.replicate (fifoByteCapacity / bytesPerFrame v + k)
        (.write 0x64 w)) = .ok (h, t) ∧ Filling v k (fifoByteCapacity / bytesPerFrame v) t := by
  have hrun := Filling.run (w := w) (i := 0) bus hm hpcs (fifoByteCapacity / bytesPerFrame v + k)
    (s := s)
  generalize fifoByteCapacity / bytesPerFrame v = c at hrun ⊢
  have hlast : 0 + (c + k) - c = k := by omega
  have hmin : min (0 + (c + k)) c = c := by omega
  rw [hlast, hmin, Nat.zero_sub, Nat.zero_min] at hrun
  exact hrun h hk

theorem PowerOn.num_eq {s₀ : State n β} (h₀ : PowerOn bus s₀) :
    s₀.txFifo.num = 0 ∧ s₀.rxFifo.num = 0 := by
  obtain ⟨hz, d, -, -, -, rfl⟩ := powerOn_iff.1 h₀
  exact ⟨rfl, rfl⟩

/-- The device is enabled. -/
theorem access_enable (bus : SsiBus β) (hs : Settled s) :
    ∃ r t, access bus s (.write 0x10 1#32) = .ok (r, t) ∧ Settled t ∧
      Bits.any t.cr crMen = true ∧ t.txFifo = s.txFifo ∧ t.rxFifo = s.rxFifo := by
  have heff : Effect bus s (.write 0x10 1#32) none (settle (writeCr s 1#32)) :=
    .control rfl (by decide)
  have hmen : Bits.any (1#32 &&& ~~~(crRst ||| crRtf ||| crRrf)) crMen = true := by decide
  exact ⟨_, _, heff.access_eq hs.bytes_ne_zero, heff.settled hs, hmen, rfl, rfl⟩

/-- The device is commanded, with both FIFOs empty. -/
theorem access_command (bus : SsiBus β) (hs : Settled s) (hv : bytesPerFrame v ≠ 0)
    (hmen : Bits.any s.cr crMen = true) (htx : s.txFifo.num = 0) (hrx : s.rxFifo.num = 0) :
    ∃ r t, access bus s (.write 0x60 v) = .ok (r, t) ∧ Filling v 0 0 t := by
  have hready : ¬Ready (command s v) := fun h => hv (Nat.le_zero.1 (htx ▸ h.1))
  have heff : Effect bus s (.write 0x60 v) none (settle (updateClockConfig (command s v))) :=
    .command rfl hv fun h => hready h.2
  refine ⟨_, _, heff.access_eq hs.bytes_ne_zero, heff.settled hs, hmen, rfl, ?_, ?_⟩
  · rw [Nat.zero_mul]
    exact htx
  · rw [Nat.zero_mul]
    exact hrx

theorem PowerOn.commanded {s₀ : State n β} (h₀ : PowerOn bus s₀) (hv : bytesPerFrame v ≠ 0) :
    ∃ r₁ s₁ r₂ s₂, access bus s₀ (.write 0x10 1#32) = .ok (r₁, s₁) ∧
      access bus s₁ (.write 0x60 v) = .ok (r₂, s₂) ∧ Filling v 0 0 s₂ := by
  obtain ⟨htx₀, hrx₀⟩ := h₀.num_eq
  obtain ⟨r₁, s₁, hok₁, hs₁, hmen, htx₁, hrx₁⟩ := access_enable bus h₀.settled
  obtain ⟨r₂, s₂, hok₂, hfill⟩ := access_command bus hs₁ hv hmen (by rw [htx₁, htx₀])
    (by rw [hrx₁, hrx₀])
  exact ⟨r₁, s₁, r₂, s₂, hok₁, hok₂, hfill⟩

end S32K358.Lpspi
