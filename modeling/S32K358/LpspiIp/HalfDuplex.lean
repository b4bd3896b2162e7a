import S32K358.LpspiIp.Request

/-!
# Half-duplex transfers on the device

`Lpspi_Ip_SyncTransmitHalfDuplex` sets its counter of ticks to zero in every pass of its
loop, so that a timeout of two ticks or more is never reached. Whether it returns is up to
the device, for which the masks of data are other bits of `TCR`.

* The answers to the frames of a transmission are received, and nobody reads them. When
  there is no room for another one, frames are queued, and the loop waits for them to be
  sent for ever. So a transmission returns exactly if the answers to all its frames fit in
  the RX FIFO (`syncTransmitHalfDuplex_transmit`).
* The commands of a reception do not send anything, so that nothing is received, and it
  never returns (`syncTransmitHalfDuplex_receive`).
-/

namespace S32K358.LpspiIp

open Lpspi (Reg SsiBus State Settled bytesPerFrame lsbf rxmsk pcs fifoByteCapacity)
open Program Port OsIf

variable {n : ℕ} {β : Type} {bus : SsiBus β} {st : StateStructure} {x y : View n β}
  {w : World (State n β)} {k r t : ℕ} {queue : List (BitVec 32)}

/-! ## Frames that are queued -/

theorem pushFrames_add {ε σ : Type} (p : Port Reg ε σ) (k l i : ℕ) (w : World σ) :
    pushFrames p (k + l) i w = (pushFrames p k i w >>= pushFrames p l (i + k)) := by
  induction k generalizing i w with
  | zero => rw [Nat.zero_add]; rfl
  | succ k ih =>
    rw [Nat.succ_add, pushFrames, pushFrames, bind_assoc]
    refine bind_congr fun data => ?_
    rw [bind_assoc]
    refine bind_congr fun w => ?_
    rw [ih, Nat.add_right_comm, Nat.add_assoc i k]

/-- The device has frames to send, and no room for their answers. -/
structure View.Blocked (y : View n β) (queue : List (BitVec 32)) : Prop where
  men : Bits.any y.cr crMen = true
  tx_eq : y.tx = bytes y.tcr queue
  full : fifoByteCapacity < y.rx.length + bytesPerFrame y.tcr
  unmasked : rxmsk y.tcr = false
  bytes_ne_zero : bytesPerFrame y.tcr ≠ 0

/-- The frames `i, …, i + k - 1`, as they are written. -/
def rawFrames (d : ExternalDevice) (tx : Buffer) (i k : ℕ) : List (BitVec 32) :=
  (List.range' i k).map (frameWord d tx)

theorem View.Blocked.queueing (h : y.Blocked queue) (queue' : List (BitVec 32)) :
    (y.queueing (bytes y.tcr queue')).Blocked queue' :=
  ⟨h.men, rfl, h.full, h.unmasked, h.bytes_ne_zero⟩

namespace Shows

theorem writeTdr_queue (h : Shows st y w) (hy : y.Blocked queue) (hlen : queue.length < 4)
    (v : BitVec 32) :
    Ends NoError (w.write (device bus) .tdr v)
      (Shows st (y.queueing (bytes y.tcr (queue ++ [v])))) := by
  have hroom : bytesPerFrame y.tcr * (queue.length + 1) ≤ fifoByteCapacity :=
    Nat.mul_le_mul (Lpspi.bytesPerFrame_le _) hlen
  have hview := h.view_eq
  subst hview
  exact h.write (write_tdr_queue bus h.settled hy.men hy.tx_eq hroom hy.unmasked hy.full)

/-- Frames pushed are queued, with no room for their answers. -/
theorem pushFrames_queue {i : ℕ} (h : Shows st y w) (hy : y.Blocked queue)
    (hlen : queue.length + k ≤ 4)
    (hfits : Fits (frameWidth st.externalDevice.frameSize) (i + k) st.txBuffer) :
    Ends NoError (LpspiIp.pushFrames (device bus) k i w)
      (Shows st (y.queueing (bytes y.tcr
        (queue ++ rawFrames st.externalDevice st.txBuffer i k)))) := by
  induction k generalizing i w y queue with
  | zero =>
    have hx : y.queueing (bytes y.tcr (queue ++ [])) = y := by
      rw [List.append_nil, ← hy.tx_eq]
      rfl
    exact hx.symm ▸ h
  | succ k ih =>
    rw [LpspiIp.pushFrames, h.frameData (hfits.mono (by omega))]
    refine (h.writeTdr_queue hy (by omega) _).bind fun w₁ h₁ => ?_
    have hfits₁ : Fits (frameWidth st.externalDevice.frameSize) (i + 1 + k) st.txBuffer := by
      rwa [Nat.add_right_comm]
    have hlen₁ : ∀ a : BitVec 32, (queue ++ [a]).length + k ≤ 4 := by
      intro a
      rw [List.length_append, List.length_singleton]
      omega
    have hend := ih h₁ (hy.queueing _) (hlen₁ _) hfits₁
    rw [List.append_assoc, List.singleton_append] at hend
    rw [rawFrames, List.range'_succ, List.map_cons]
    exact hend

end Shows

/-! ## A transmission -/

/-- A transmission of `k` frames that started with the variables `st` and the view `x`. -/
structure Transmission (st : StateStructure) (x : View n β) (k : ℕ) : Prop where
  ready : x.Open
  rx_eq : x.rx = []
  bytes_ne_zero : bytesPerFrame x.tcr ≠ 0
  writes_eq : st.expectedFifoWrites = k
  fits_tx : Fits (frameWidth st.externalDevice.frameSize) k st.txBuffer
  keepCs_eq : st.keepCs = false

/-- Of a transmission, `t` frames have been exchanged, and none is queued. -/
def Outbound (bus : SsiBus β) (st : StateStructure) (x : View n β) (t : ℕ)
    (w : World (State n β)) : Prop :=
  Shows { st with txIndex := t } (flightView bus st x 0 t) w

/-- Of a transmission, frames are queued that will not be sent. -/
def Stalled (w : World (State n β)) : Prop :=
  ∃ st y queue, Shows st y w ∧ y.Blocked queue ∧ queue ≠ [] ∧ queue.length ≤ 4 ∧
    st.keepCs = false ∧ st.txIndex ≤ st.expectedFifoWrites ∧
    Fits (frameWidth st.externalDevice.frameSize) st.expectedFifoWrites st.txBuffer

/-- Of a transmission, `t` frames have been pushed: the answers to them fit in the RX FIFO, or
    the transmission is stalled. -/
def Pushed (bus : SsiBus β) (st : StateStructure) (x : View n β) (t : ℕ)
    (w : World (State n β)) : Prop :=
  bytesPerFrame x.tcr * t ≤ fifoByteCapacity ∧ Outbound bus st x t w ∨
    fifoByteCapacity < bytesPerFrame x.tcr * t ∧ Stalled w

theorem freeSlots_eq {fsr : BitVec 32} (h : txcount fsr ≤ 4) : freeSlots fsr = 4 - txcount fsr := by
  rw [freeSlots, fifoSize]
  omega

theorem Shows.txcount_eq (h : Shows st y w) (htx : y.tx = bytes y.tcr queue)
    (hlen : queue.length ≤ 4) : txcount (Lpspi.peek w.hw (some .fsr)) = queue.length := by
  have hview := h.view_eq
  subst hview
  exact txcount_queue h.settled htx hlen

/-- The transmitting part of a pass, with frames left to be pushed. -/
theorem halfDuplexTransmit_push {P : World (State n β) → Prop} {m : ℕ} (h : Shows st y w)
    (htx : y.tx = bytes y.tcr queue) (hlen : queue.length < 4)
    (hlt : st.txIndex < st.expectedFifoWrites)
    (hm : m = min (4 - queue.length) (st.expectedFifoWrites - st.txIndex))
    (hpush : Ends NoError (pushFrames (device bus) m st.txIndex w) fun w' =>
      P (w'.upd fun st => { st with txIndex := st.txIndex + m })) :
    Ends NoError (halfDuplexTransmit (device bus) w) fun z => z.1 = false ∧ P z.2 := by
  have hread : w.read (device bus) .fsr = _ := read_eq h.settled (by decide)
  have hcount := h.txcount_eq htx hlen.le
  have hslots : freeSlots (Lpspi.peek w.hw (some .fsr)) = 4 - queue.length := by
    rw [freeSlots_eq (by omega), hcount]
  rw [halfDuplexTransmit, hread, ends_ok_bind]
  dsimp only
  rw [hslots, if_pos (by omega), halfDuplexTransmitProcess, h.state_eq, if_pos hlt.ne',
    halfDuplexPushDataToFifo, h.state_eq, ← hm, pushDataToFifo, h.state_eq]
  simp only [bind_assoc]
  refine hpush.bind fun w₁ h₁ => ?_
  exact ⟨rfl, h₁⟩

/-- The transmitting part of a pass, with all frames pushed: the transfer is completed if
    none is queued. -/
theorem halfDuplexTransmit_last (h : Shows st x w) (htx : x.tx = bytes x.tcr queue)
    (hlen : queue.length < 4) (heq : st.expectedFifoWrites = st.txIndex) (hkeep : st.keepCs = false)
    (hrelease : Ends NoError (releaseCs (device bus) w) (Shows st y))
    (htx' : y.tx = bytes y.tcr queue) :
    Ends NoError (halfDuplexTransmit (device bus) w) fun z =>
      z.1 = (queue.length == 0) ∧ Shows st y z.2 := by
  have hread : w.read (device bus) .fsr = _ := read_eq h.settled (by decide)
  have hcount := h.txcount_eq htx hlen.le
  have hslots : freeSlots (Lpspi.peek w.hw (some .fsr)) ≠ 0 := by
    rw [freeSlots_eq (by omega)]
    omega
  rw [halfDuplexTransmit, hread, ends_ok_bind]
  dsimp only
  rw [if_pos hslots, halfDuplexTransmitProcess, h.state_eq, if_neg (not_not.2 heq), bind_assoc]
  refine hrelease.bind fun w₁ h₁ => ?_
  have hread₁ : w₁.read (device bus) .fsr = _ := read_eq h₁.settled (by decide)
  change Ends NoError (awaitEmpty (device bus) true w₁) _
  rw [awaitEmpty, h₁.state_eq, hkeep, Bool.not_false, Bool.or_true, Bool.true_and, if_pos rfl,
    hread₁, ends_ok_bind]
  refine ends_pure ⟨?_, h₁⟩
  dsimp only
  rw [h₁.txcount_eq htx' hlen.le]

/-- A command without `CONT` is another one for the driver only. -/
theorem View.Blocked.released (h : y.Blocked queue) (keepCs : Bool) :
    (y.released keepCs).Blocked queue := by
  rw [View.released]
  split_ifs
  · have hlsbf : lsbf (y.tcr &&& ~~~(tcrCont ||| tcrContc)) = lsbf y.tcr :=
      Bits.any_clear_of_disjoint (by decide)
    have hbytes : ∀ q, bytes (y.tcr &&& ~~~(tcrCont ||| tcrContc)) q = bytes y.tcr q := fun q => by
      rw [bytes, bytes, bytesPerFrame_clearCs, hlsbf]
    exact {
      men := h.men
      tx_eq := h.tx_eq.trans (hbytes queue).symm
      full := by
        change _ < y.rx.length + bytesPerFrame (y.tcr &&& ~~~(tcrCont ||| tcrContc))
        rw [bytesPerFrame_clearCs]
        exact h.full
      unmasked := (Bits.any_clear_of_disjoint (by decide)).trans h.unmasked
      bytes_ne_zero := by
        change bytesPerFrame (y.tcr &&& ~~~(tcrCont ||| tcrContc)) ≠ 0
        rw [bytesPerFrame_clearCs]
        exact h.bytes_ne_zero }
  · exact h

theorem Shows.releaseCs_blocked (h : Shows st y w) (hy : y.Blocked queue) :
    Ends NoError (LpspiIp.releaseCs (device bus) w) (Shows st (y.released st.keepCs)) := by
  have hread : w.read (device bus) .tcr = _ := read_eq h.settled (by decide)
  rw [LpspiIp.releaseCs, h.state_eq, View.released]
  cases hkeep : st.keepCs with
  | true => exact h
  | false =>
    rw [if_neg Bool.false_ne_true, hread, ends_ok_bind, h.tcr_eq, Bool.not_false, Bool.true_and]
    dsimp only
    split_ifs
    · have hclear := (Bits.any_clear_of_disjoint (x := y.tcr) (m := tcrCont ||| tcrContc)
        (n := Lpspi.tcrRxmsk) (by decide)).trans hy.unmasked
      refine h.modify (by decide) ?_
      rw [h.tcr_eq]
      have hfull := hy.full
      have hb := hy.bytes_ne_zero
      rw [← bytesPerFrame_clearCs] at hfull hb
      rw [← h.view_eq] at hfull hb hclear ⊢
      exact write_tcr_full bus h.settled hb hclear hfull
    · exact ends_pure h

/-- A transmission that is stalled stays so. -/
theorem Stalled.halfDuplexTransmit (h : Stalled w) :
    Ends NoError (halfDuplexTransmit (device bus) w) fun z => z.1 = false ∧ Stalled z.2 := by
  obtain ⟨st, y, queue, h, hy, hne, hlen, hkeep, hle, hfits⟩ := h
  have hpos : 0 < queue.length := List.length_pos_iff.2 hne
  rcases Nat.lt_or_eq_of_le hlen with hlt | hfour
  · rcases Nat.lt_or_eq_of_le hle with hindex | heq
    · -- More frames are queued.
      obtain ⟨m, hm⟩ : ∃ m, m = min (4 - queue.length) (st.expectedFifoWrites - st.txIndex) :=
        ⟨_, rfl⟩
      have hpush : Ends NoError (pushFrames (device bus) m st.txIndex w) _ :=
        h.pushFrames_queue hy (by omega) (hfits.mono (by omega))
      refine halfDuplexTransmit_push h hy.tx_eq hlt hindex hm (hpush.mono fun w₁ h₁ => ?_)
      refine ⟨{ st with txIndex := st.txIndex + m }, _, _, h₁.upd rfl, hy.queueing _, ?_, ?_, hkeep,
        ?_, hfits⟩
      · exact List.append_ne_nil_of_left_ne_nil hne _
      · rw [List.length_append, rawFrames, List.length_map, List.length_range']
        omega
      · change st.txIndex + m ≤ st.expectedFifoWrites
        omega
    · -- All frames have been pushed.
      refine (halfDuplexTransmit_last h hy.tx_eq hlt heq.symm hkeep (h.releaseCs_blocked hy)
        (hy.released _).tx_eq).mono ?_
      rintro ⟨_, w₁⟩ ⟨rfl, h₁⟩
      exact ⟨beq_eq_false_iff_ne.2 hpos.ne', st, _, queue, h₁, hy.released _, hne, hlen, hkeep, hle,
        hfits⟩
  · -- There is no slot left.
    have hread : w.read (device bus) .fsr = _ := read_eq h.settled (by decide)
    have hslots : freeSlots (Lpspi.peek w.hw (some .fsr)) = 0 := by
      rw [freeSlots_eq (by rw [h.txcount_eq hy.tx_eq hlen]; exact hlen), h.txcount_eq hy.tx_eq hlen,
        hfour]
    rw [LpspiIp.halfDuplexTransmit, hread, ends_ok_bind]
    dsimp only
    rw [hslots, if_neg (not_not.2 rfl)]
    exact ends_pure ⟨rfl, st, y, queue, h, hy, hne, hlen, hkeep, hle, hfits⟩

namespace Transmission

theorem rx_flightView (t : ℕ) :
    (flightView bus st x 0 t).rx = bytes x.tcr (answers bus st x t) := by
  rw [flightView, List.drop_zero]
  rfl

variable (T : Transmission st x k)
include T

theorem open_flightView (t : ℕ) : (flightView bus st x 0 t).Open := by
  obtain ⟨hcr, htcr, -, htx, -⟩ : _ ∧ _ ∧ _ ∧ (flightView bus st x 0 t).tx = _ ∧ _ :=
    flightView_frame 0 t
  exact ⟨hcr ▸ T.ready.men, htx.trans T.ready.tx_eq, htcr ▸ T.ready.unmasked,
    htcr ▸ T.ready.pcs_lt⟩

/-- Frames are exchanged as long as there is room for their answers. -/
theorem pushFrames {a : ℕ} (h : Outbound bus st x t w) (htk : t + a ≤ k)
    (hroom : bytesPerFrame x.tcr * (t + a) ≤ fifoByteCapacity) :
    Ends NoError (LpspiIp.pushFrames (device bus) a t w)
      (Shows { st with txIndex := t } (flightView bus st x 0 (t + a))) := by
  obtain ⟨-, htcr, -⟩ : _ ∧ (flightView bus st x 0 t).tcr = _ ∧ _ := flightView_frame 0 t
  have hrx : (flightView bus st x 0 t).rx =
      bytes (flightView bus st x 0 t).tcr (answers bus st x t) := by
    rw [htcr]
    exact rx_flightView t
  have hroom' : bytesPerFrame (flightView bus st x 0 t).tcr * ((answers bus st x t).length + a) ≤
      fifoByteCapacity := by rwa [htcr, length_answers]
  have hpush : Ends NoError (LpspiIp.pushFrames (device bus) a t w) _ :=
    Shows.pushFrames h (T.open_flightView t) hrx hroom' (T.fits_tx.mono htk)
  rw [htcr] at hpush
  rw [← pushed_flightView (Nat.zero_le t) a, List.drop_zero]
  exact hpush

/-- With no room for another answer, the device is blocked. -/
theorem blocked {c : ℕ} (hc : fifoByteCapacity < bytesPerFrame x.tcr * (c + 1)) :
    (flightView bus st x 0 c).Blocked [] := by
  obtain ⟨-, htcr, -⟩ : _ ∧ (flightView bus st x 0 c).tcr = _ ∧ _ := flightView_frame 0 c
  have ho : (flightView bus st x 0 c).Open := T.open_flightView c
  exact {
    men := ho.men
    tx_eq := ho.tx_eq
    full := by
      rw [htcr, rx_flightView, length_bytes, length_answers]
      exact hc
    unmasked := ho.unmasked
    bytes_ne_zero := htcr.symm ▸ T.bytes_ne_zero }

/-- A pass with frames left to be pushed. -/
theorem push {m : ℕ} (h : Outbound bus st x t w)
    (ht : bytesPerFrame x.tcr * t ≤ fifoByteCapacity) (htk : t < k) (hm : m = min 4 (k - t)) :
    Ends NoError (halfDuplexTransmit (device bus) w) fun z =>
      z.1 = false ∧ Pushed bus st x (t + m) z.2 := by
  have htx : (flightView bus st x 0 t).tx = bytes (flightView bus st x 0 t).tcr [] :=
    (T.open_flightView t).tx_eq
  refine halfDuplexTransmit_push (P := Pushed bus st x (t + m)) h htx (by decide)
    (htk.trans_eq T.writes_eq.symm) (hm.trans (by rw [T.writes_eq]; rfl)) ?_
  by_cases hroom : bytesPerFrame x.tcr * (t + m) ≤ fifoByteCapacity
  · refine (T.pushFrames h (by omega) hroom).mono fun w₁ h₁ => .inl ⟨hroom, h₁.upd rfl⟩
  · -- The frames up to the number `c` are exchanged, and the others queued.
    obtain ⟨c, hc⟩ : ∃ c, c = fifoByteCapacity / bytesPerFrame x.tcr := ⟨_, rfl⟩
    have hpos := Nat.pos_of_ne_zero T.bytes_ne_zero
    have htc : t ≤ c := hc ▸ (Nat.le_div_iff_mul_le hpos).2 (by rwa [Nat.mul_comm])
    have hcm : c < t + m := by
      rw [hc, Nat.div_lt_iff_lt_mul hpos, Nat.mul_comm]
      exact Nat.lt_of_not_le hroom
    have hcroom : bytesPerFrame x.tcr * (t + (c - t)) ≤ fifoByteCapacity := by
      rw [Nat.add_sub_cancel' htc, hc]
      exact Nat.mul_div_le _ _
    have hfull : fifoByteCapacity < bytesPerFrame x.tcr * (c + 1) := by
      rw [hc]
      exact Nat.lt_mul_div_succ _ hpos
    obtain ⟨l, hl⟩ : ∃ l, m = (c - t) + (l + 1) := ⟨t + m - c - 1, by omega⟩
    have hsplit : LpspiIp.pushFrames (device bus) m t w =
        (LpspiIp.pushFrames (device bus) (c - t) t w >>=
          LpspiIp.pushFrames (device bus) (l + 1) c) := by
      rw [hl, pushFrames_add, Nat.add_sub_cancel' htc]
    dsimp only
    rw [hsplit]
    refine (T.pushFrames h (by omega) hcroom).bind fun w₁ h₁ => ?_
    rw [Nat.add_sub_cancel' htc] at h₁
    refine (h₁.pushFrames_queue (T.blocked hfull) (by simp; omega)
      (T.fits_tx.mono (by omega))).mono fun w₂ h₂ => .inr ⟨Nat.lt_of_not_le hroom, ?_⟩
    refine ⟨{ st with txIndex := t + m }, _, _, h₂.upd rfl,
      (T.blocked hfull).queueing _, ?_, ?_, T.keepCs_eq, ?_, T.writes_eq.symm ▸ T.fits_tx⟩
    · rw [List.nil_append, rawFrames, List.range'_succ]
      exact List.cons_ne_nil _ _
    · rw [List.nil_append, rawFrames, List.length_map, List.length_range']
      omega
    · change t + m ≤ st.expectedFifoWrites
      rw [T.writes_eq]
      omega

/-- The pass with all frames exchanged. -/
theorem last (h : Outbound bus st x k w) :
    Ends NoError (halfDuplexTransmit (device bus) w) fun z => z.1 = true ∧
      Shows { st with txIndex := k } ((flightView bus st x 0 k).released st.keepCs) z.2 := by
  obtain ⟨-, htcr, -⟩ : _ ∧ (flightView bus st x 0 k).tcr = _ ∧ _ := flightView_frame 0 k
  have htx : (flightView bus st x 0 k).tx = bytes (flightView bus st x 0 k).tcr [] :=
    (T.open_flightView k).tx_eq
  have hempty : ((flightView bus st x 0 k).released st.keepCs).tx = [] := by
    rw [View.released]
    split_ifs <;> exact htx
  have hrelease : Ends NoError (releaseCs (device bus) w) _ :=
    Shows.releaseCs h htx (by rw [htcr]; exact T.bytes_ne_zero)
  exact halfDuplexTransmit_last h htx (by decide) T.writes_eq T.keepCs_eq hrelease hempty

end Transmission

/-- With a timeout that is not reached, a pass goes on until the transmission is completed. -/
theorem halfDuplexPass_transmit {ε σ : Type} {p : Port Reg ε σ} {w : World σ} {timeOut : ℕ}
    {P : Bool × World σ → Prop} (htime : 2 ≤ timeOut)
    (h : Ends NoError (halfDuplexTransmit p w) P) :
    Ends NoError (halfDuplexPass p .transmit timeOut w) fun s => ∃ z, P z ∧
      s = if z.1 then .exit (.success, z.2) else .next z.2 := by
  rw [halfDuplexPass, if_neg HalfDuplexType.noConfusion]
  refine h.bind fun z hz => ends_pure ⟨z, hz, ?_⟩
  rw [if_neg (by rw [halfDuplexElapsed, getElapsed]; omega)]

namespace Transmission

variable {timeOut fuel : ℕ} (T : Transmission st x k)
include T

/-- The answers to all frames fit: all frames are exchanged. -/
theorem run_fits (hk : bytesPerFrame x.tcr * k ≤ fifoByteCapacity) (htime : 2 ≤ timeOut)
    (hfuel : k < fuel) (h : Outbound bus st x 0 w) :
    Ends NoError (Loop.run (halfDuplexPass (device bus) .transmit timeOut) fuel w) fun s =>
      ∃ w', s = some (.success, w') ∧
        Shows { st with txIndex := k } ((flightView bus st x 0 k).released st.keepCs) w' := by
  have hpass : ∀ w', (∃ t ≤ k, Outbound bus st x t w') →
      Ends NoError (halfDuplexPass (device bus) .transmit timeOut w')
        (Loop.After (fun w => ∃ t ≤ k, Outbound bus st x t w)
          (fun r => r.1 = .success ∧
            Shows { st with txIndex := k } ((flightView bus st x 0 k).released st.keepCs) r.2)
          (fun w => k - w.state.txIndex) w') := by
    rintro w₁ ⟨t, htk, h₁⟩
    rcases Nat.lt_or_eq_of_le htk with hlt | rfl
    · have ht := (Nat.mul_le_mul_left (bytesPerFrame x.tcr) htk).trans hk
      refine (halfDuplexPass_transmit htime (T.push h₁ ht hlt rfl)).mono ?_
      rintro _ ⟨⟨_, w₂⟩, ⟨rfl, h₂⟩, rfl⟩
      have hle : t + min 4 (k - t) ≤ k := by omega
      rcases h₂ with ⟨-, h₂⟩ | ⟨hgt, -⟩
      · refine ⟨⟨_, hle, h₂⟩, ?_⟩
        dsimp only
        rw [h₁.state_eq, h₂.state_eq]
        change k - (t + min 4 (k - t)) < k - t
        omega
      · exact absurd ((Nat.mul_le_mul_left _ hle).trans hk) hgt.not_ge
    · refine (halfDuplexPass_transmit htime (T.last h₁)).mono ?_
      rintro _ ⟨⟨_, w₂⟩, ⟨rfl, h₂⟩, rfl⟩
      exact ⟨rfl, h₂⟩
  have hrank : k - w.state.txIndex < fuel := by omega
  refine (Loop.run_ends _ hpass ⟨0, Nat.zero_le k, h⟩ hrank).mono ?_
  rintro _ ⟨⟨_, w'⟩, rfl, rfl, h'⟩
  exact ⟨w', rfl, h'⟩

/-- The answers to all frames do not fit: the loop is never left. -/
theorem run_stalls (hk : fifoByteCapacity < bytesPerFrame x.tcr * k) (htime : 2 ≤ timeOut)
    (h : Outbound bus st x 0 w) :
    Loop.run (halfDuplexPass (device bus) .transmit timeOut) fuel w = .ok none := by
  refine Loop.run_eq_none (I := fun w => ∃ t ≤ k, Pushed bus st x t w) ?_
    ⟨0, Nat.zero_le k, .inl ⟨Nat.zero_le _, h⟩⟩ fuel
  rintro w₁ ⟨t, htk, h₁⟩
  have hnext : Ends NoError (halfDuplexTransmit (device bus) w₁) fun z =>
      z.1 = false ∧ ∃ t ≤ k, Pushed bus st x t z.2 := by
    rcases h₁ with ⟨ht, h₁⟩ | ⟨ht, h₁⟩
    · have hlt : t < k := by
        refine Nat.lt_of_le_of_ne htk ?_
        rintro rfl
        exact hk.not_ge ht
      exact (T.push h₁ ht hlt rfl).mono fun z hz => ⟨hz.1, _, by omega, hz.2⟩
    · exact h₁.halfDuplexTransmit.mono fun z hz => ⟨hz.1, t, htk, .inr ⟨ht, hz.2⟩⟩
  obtain ⟨_, hpass, ⟨⟨_, w₂⟩, ⟨rfl, h₂⟩, rfl⟩⟩ :=
    ends_noError_iff.1 (halfDuplexPass_transmit htime hnext)
  exact ⟨w₂, hpass, h₂⟩

end Transmission

/-! ## The start of a transfer -/

/-- The pins are configured for half-duplex transfers. -/
def View.halfDuplexPins (x : View n β) (d : ExternalDevice) : View n β :=
  { x with
    cfgr1 := x.cfgr1 &&& ~~~(cfgr1Pcscfg ||| cfgr1Outcfg ||| cfgr1Pincfg) ||| d.halfDuplexCfgr1 }

theorem Shows.halfDuplexPrepare_transmit {buffer : Buffer} (h : Shows st x w)
    (htype : st.externalDevice.transferType = .transmit) :
    Ends NoError (halfDuplexPrepare (device bus) buffer w)
      (Shows { st with currentTxFifoSlot := 1, txBuffer := buffer }
        (x.halfDuplexPins st.externalDevice)) := by
  rw [halfDuplexPrepare]
  refine (h.modifyCfgr1 _).bind fun w₁ h₁ => ?_
  rw [h₁.state_eq]
  refine (h₁.modifyCfgr1 _).bind fun w₂ h₂ => ends_pure ?_
  have h₃ : Shows { st with currentTxFifoSlot := 1 } (x.halfDuplexPins st.externalDevice)
      (w₂.upd fun st => { st with currentTxFifoSlot := 1 }) := h₂.upd rfl
  rw [if_pos (by rw [h₃.state_eq]; exact htype)]
  exact h₃.upd rfl

/-- A half-duplex transfer of whole frames, in the bounds of its buffer. -/
structure HalfDuplexFits (d : ExternalDevice) (buffer : Buffer) (length : ℕ) : Prop where
  length_ne_zero : length ≠ 0
  length_mod : length % frameWidth d.frameSize = 0
  le_buffer : ∀ b, buffer = some b → length ≤ b.length

/-- The command of a transmission has a frame size and a chip select that the device knows,
    and does not make it mask the data received. -/
structure Sendable (n : ℕ) (cmd : BitVec 32) : Prop where
  bytes_ne_zero : bytesPerFrame cmd ≠ 0
  unmasked : rxmsk cmd = false
  pcs_lt : pcs cmd < n

/-- The variables at the start of a transmission. -/
def transmitPrepared (st : StateStructure) (d : ExternalDevice) (buffer : Buffer) (length : ℕ) :
    StateStructure :=
  { st with
    status := .busy
    externalDevice := { d with transferType := .transmit }
    currentTxFifoSlot := 1
    txBuffer := buffer
    txIndex := 0
    expectedFifoWrites := expectedFrames d.frameSize length }

variable {config : Config} {d : ExternalDevice} {buffer : Buffer} {length : ℕ} {errata : Bool}

/-- The view at the start of a transmission. -/
def View.transmitStarted (bus : SsiBus β) (errata : Bool) (config : Config) (d : ExternalDevice)
    (x : View n β) : View n β :=
  ((x.halfDuplexPins d).enabling 0#32).started bus errata
    (command config.slaveMode { d with transferType := .transmit })

theorem transmission (hfits : HalfDuplexFits d buffer length) (hst : Configured config false st)
    (hsend : Sendable n (command config.slaveMode { d with transferType := .transmit })) :
    Transmission (transmitPrepared st d buffer length) (x.transmitStarted bus errata config d)
      (expectedFrames d.frameSize length) := by
  obtain ⟨-, -, htcr, -, hrx, -⟩ := ((x.halfDuplexPins d).enabling 0#32).started_frame bus errata
    (command config.slaveMode { d with transferType := .transmit })
  have hwords := width_mul_expectedFrames hfits.length_mod
  exact {
    ready := View.started_open bus hsend.unmasked hsend.pcs_lt
    rx_eq := hrx
    bytes_ne_zero := by
      rw [View.transmitStarted, htcr]
      exact hsend.bytes_ne_zero
    writes_eq := rfl
    fits_tx := fun b hb => hwords.trans_le (hfits.le_buffer b hb)
    keepCs_eq := hst.keepCs_eq }

/-- A transmission up to its loop. -/
theorem Rested.syncTransmitHalfDuplex_transmit_of {timeOut fuel : ℕ}
    {Q : Option (StatusType × World (State n β)) → Prop} (h : Rested config false x w)
    (hfits : HalfDuplexFits d buffer length)
    (hsend : Sendable n (command config.slaveMode { d with transferType := .transmit }))
    (hloop : ∀ w', Outbound bus (transmitPrepared w.state d buffer length)
        (x.transmitStarted bus errata config d) 0 w' →
      Ends NoError (Loop.run (halfDuplexPass (device bus) .transmit timeOut) fuel w') fun r =>
        Q (r.map fun z => (z.1, syncEnd z.1 z.2))) :
    Ends NoError
      (syncTransmitHalfDuplex (device bus) errata d buffer length .transmit timeOut fuel w) Q := by
  obtain ⟨⟨hfirst, rfl, -, -⟩, hstatus, hs, hview, hcr, -⟩ := h
  rw [syncTransmitHalfDuplex, World.devAssert_of hfits.length_ne_zero, ends_ok_bind,
    checkValidParameters_eq hfits.length_mod, ends_ok_bind, if_neg hstatus]
  dsimp only
  have h₀ : Shows
      { w.state with status := .busy, externalDevice := { d with transferType := .transmit } } x
      (w.upd fun st =>
        { st with status := .busy, externalDevice := { d with transferType := .transmit } }) :=
    ⟨rfl, hs, hview⟩
  refine (h₀.halfDuplexPrepare_transmit rfl).bind fun w₁ h₁ => ?_
  refine (h₁.writeDer 0#32).bind fun w₂ h₂ => ?_
  refine (h₂.writeIer 0#32).bind fun w₃ h₃ => ?_
  refine (h₃.transmitTxInit hfirst HalfDuplexType.noConfusion hcr hsend.bytes_ne_zero).bind
    fun w₄ h₄ => ?_
  rw [if_neg HalfDuplexType.noConfusion]
  refine (hloop w₄ ?_).bind fun r hr => ends_pure hr
  have hrx : (x.transmitStarted bus errata w.state.phyUnitConfig d).rx = [] := by
    obtain ⟨-, -, -, -, hrx, -⟩ := ((x.halfDuplexPins d).enabling 0#32).started_frame bus errata
      (command w.state.phyUnitConfig.slaveMode { d with transferType := .transmit })
    exact hrx
  rw [Outbound, flightView_of_rx hrx]
  exact h₄

/-- **Half-duplex transmissions.** With a timeout of at least two ticks, a transmission
    sends its frames and returns if the answers to them fit in the RX FIFO, and never returns
    otherwise. -/
theorem syncTransmitHalfDuplex_transmit (bus : SsiBus β) (errata : Bool) (d : ExternalDevice)
    (buffer : Buffer) (length timeOut fuel : ℕ) (h : Rested config false x w)
    (hfits : HalfDuplexFits d buffer length)
    (hsend : Sendable n (command config.slaveMode { d with transferType := .transmit }))
    (htime : 2 ≤ timeOut) (hfuel : expectedFrames d.frameSize length < fuel) :
    let b := bytesPerFrame (command config.slaveMode { d with transferType := .transmit })
    let k := expectedFrames d.frameSize length
    let result := syncTransmitHalfDuplex (device bus) errata d buffer length
      .transmit timeOut fuel w
    if b * k ≤ fifoByteCapacity then
      ∃ w', result = .ok (some (.success, w')) ∧ w'.state.status = .idle ∧
        w'.hw.ssi = ((x.transmitStarted bus errata config d).exchanges bus
          (frames b d buffer 0 k)).2.ssi
    else result = .ok none := by
  intro b k result
  have T : Transmission (transmitPrepared w.state d buffer length)
      (x.transmitStarted bus errata config d) k := transmission hfits h.configured hsend
  split_ifs with hk
  · have hrun : Ends NoError result fun r => ∃ w', r = some (.success, w') ∧
        w'.state.status = .idle ∧ w'.hw.ssi = ((x.transmitStarted bus errata config d).exchanges bus
          (frames b d buffer 0 k)).2.ssi := by
      refine h.syncTransmitHalfDuplex_transmit_of hfits hsend fun w₁ h₁ => ?_
      refine (T.run_fits hk htime hfuel h₁).mono ?_
      rintro _ ⟨w₂, rfl, h₂⟩
      refine ⟨_, rfl, rfl, ?_⟩
      have hssi := congrArg View.ssi h₂.view_eq
      rw [(View.released_frame _ _).2.2.2.1] at hssi
      exact hssi
    obtain ⟨_, hok, w', rfl, h'⟩ := ends_noError_iff.1 hrun
    exact ⟨w', hok, h'⟩
  · have hrun : Ends NoError result fun r => r = none := by
      refine h.syncTransmitHalfDuplex_transmit_of hfits hsend fun w₁ h₁ => ?_
      rw [T.run_stalls (Nat.lt_of_not_le hk) htime h₁]
      rfl
    obtain ⟨_, hok, rfl⟩ := ends_noError_iff.1 hrun
    exact hok

/-- Sixteen bytes are sent, and seventeen are not. -/
theorem syncTransmitHalfDuplex_sixteen : ∃ w₀ w',
    init (device SsiBus.empty) loopConfig ⟨StateStructure.cleared, Lpspi.bare⟩ = .ok w₀ ∧
    syncTransmitHalfDuplex (device SsiBus.empty) true byteDevice none 16 .transmit 1000 17 w₀ =
      .ok (some (.success, w')) ∧
    syncTransmitHalfDuplex (device SsiBus.empty) true byteDevice none 17 .transmit 1000 18 w₀ =
      .ok none := by
  obtain ⟨w₀, hinit, hrested⟩ := ends_noError_iff.1 (init_device SsiBus.empty loopConfig
    (w := ⟨StateStructure.cleared, Lpspi.bare⟩) Lpspi.powerOn_bare.settled)
  have hsend : Sendable 1 (command loopConfig.slaveMode
      { byteDevice with transferType := .transmit }) :=
    ⟨by decide, by decide, by decide⟩
  have h₁ := syncTransmitHalfDuplex_transmit SsiBus.empty true byteDevice none 16 1000 17 hrested
    ⟨by decide, by decide, nofun⟩ hsend (by decide) (by decide)
  have h₂ := syncTransmitHalfDuplex_transmit SsiBus.empty true byteDevice none 17 1000 18 hrested
    ⟨by decide, by decide, nofun⟩ hsend (by decide) (by decide)
  dsimp only at h₁ h₂
  rw [if_pos (by decide)] at h₁
  rw [if_neg (by decide)] at h₂
  obtain ⟨w', hok, -⟩ := h₁
  exact ⟨w₀, w', hinit, hok, h₂⟩

/-! ## A reception -/

/-- The driver waits for `k` frames, of which none will be received. -/
def Waiting (k : ℕ) (w : World (State n β)) : Prop :=
  ∃ st y, Shows st y w ∧ y.tx = [] ∧ y.rx = [] ∧ st.rxIndex = 0 ∧ st.expectedFifoReads = k ∧
    bytesPerFrame st.halfDuplexTcrCommand ≠ 0

/-- A pass of a reception. -/
theorem Waiting.halfDuplexReceive (h : Waiting k w) :
    Ends NoError (halfDuplexReceive (device bus) true w) (Waiting k) := by
  obtain ⟨st, y, h, htx, hrx, hindex, hreads, hb⟩ := h
  have hread : w.read (device bus) .fsr = _ := read_eq h.settled (by decide)
  have hnone : y.rx = bytes y.tcr [] := hrx
  obtain ⟨hrxcount, htxcount⟩ := h.counts htx hnone (Nat.zero_le _)
  rw [LpspiIp.halfDuplexReceive, hread, ends_ok_bind]
  dsimp only
  rw [hrxcount, List.length_nil, Nat.zero_min, readDataFromFifo, readFrames]
  have h₁ : Shows st y (w.upd fun st => { st with rxIndex := st.rxIndex + 0 }) := h.upd rfl
  have hread₁ : World.read (device bus) (w.upd fun st => { st with rxIndex := st.rxIndex + 0 })
      .fsr = _ := read_eq h₁.settled (by decide)
  change Ends NoError
    (pushCommand (device bus) (w.upd fun st => { st with rxIndex := st.rxIndex + 0 })) _
  rw [pushCommand, hread₁, ends_ok_bind]
  dsimp only
  rw [h₁.state_eq]
  split_ifs
  · refine (h₁.writeTcr htx hb).bind fun w₂ h₂ => ends_pure ?_
    exact ⟨{ st with txIndex := st.txIndex + 1 }, _, h₂.upd rfl, htx, hrx, hindex, hreads, hb⟩
  · exact ends_pure ⟨st, y, h₁, htx, hrx, hindex, hreads, hb⟩

/-- With a timeout that is not reached, the loop is never left. -/
theorem Waiting.run_eq_none {timeOut : ℕ} (h : Waiting k w) (hk : k ≠ 0) (htime : 2 ≤ timeOut)
    (fuel : ℕ) : Loop.run (halfDuplexPass (device bus) .receive timeOut) fuel w = .ok none := by
  refine Loop.run_eq_none (fun w₁ h₁ => ?_) h fuel
  have hreceive : Ends NoError (LpspiIp.halfDuplexReceive (device bus) true w₁) _ :=
    h₁.halfDuplexReceive
  obtain ⟨w₂, hok, h₂⟩ := ends_noError_iff.1 hreceive
  refine ⟨w₂, ?_, h₂⟩
  obtain ⟨st, y, hshows, -, -, hindex, hreads, -⟩ := h₂
  have hne : w₂.state.expectedFifoReads ≠ w₂.state.rxIndex := by
    rw [hshows.state_eq, hindex, hreads]
    exact hk
  rw [halfDuplexPass, if_pos rfl, hok]
  change Except.ok _ = _
  rw [if_neg hne, if_neg (by rw [halfDuplexElapsed, getElapsed]; omega)]

/-- The command of a reception, as it is pushed. -/
def receiveCommand (slaveMode : Bool) (d : ExternalDevice) : BitVec 32 :=
  (if slaveMode then transferCommand d &&& ~~~tcrCont else transferCommand d) ||| tcrTxmsk

/-- The mask of the data to be sent and `CONT` are no part of the frame size. -/
theorem bytesPerFrame_receiveCommand (slaveMode : Bool) (d : ExternalDevice) :
    bytesPerFrame (receiveCommand slaveMode d) = bytesPerFrame (transferCommand d) := by
  have hclear : (transferCommand d &&& ~~~tcrCont) &&& Lpspi.tcrFrameszMask =
      transferCommand d &&& Lpspi.tcrFrameszMask := by
    rw [BitVec.and_assoc]
    exact congrArg (transferCommand d &&& ·) (by decide)
  refine bytesPerFrame_congr ?_
  rw [receiveCommand, BitVec.and_or_distrib_right, show tcrTxmsk &&& Lpspi.tcrFrameszMask = 0#32 by
    decide, BitVec.or_zero]
  split_ifs
  · exact hclear
  · rfl

theorem Shows.halfDuplexPrepare_receive (h : Shows st x w)
    (htype : st.externalDevice.transferType = .receive) :
    Ends NoError (halfDuplexPrepare (device bus) buffer w)
      (Shows
        { st with
          rxBuffer := buffer
          halfDuplexTcrCommand := receiveCommand st.phyUnitConfig.slaveMode st.externalDevice
          currentTxFifoSlot := if st.phyUnitConfig.slaveMode then 0 else 1 }
        (x.halfDuplexPins st.externalDevice)) := by
  rw [halfDuplexPrepare]
  refine (h.modifyCfgr1 _).bind fun w₁ h₁ => ?_
  rw [h₁.state_eq]
  refine (h₁.modifyCfgr1 _).bind fun w₂ h₂ => ends_pure ?_
  have h₃ : Shows { st with currentTxFifoSlot := 1 } (x.halfDuplexPins st.externalDevice)
      (w₂.upd fun st => { st with currentTxFifoSlot := 1 }) := h₂.upd rfl
  have hne :
      (w₂.upd fun st => { st with currentTxFifoSlot := 1 }).state.externalDevice.transferType ≠
        .transmit := by
    rw [h₃.state_eq]
    exact fun heq => HalfDuplexType.noConfusion (htype.symm.trans heq)
  rw [if_neg hne]
  exact h₃.upd rfl

/-- The start of a reception. A slave has its command written, a master does not yet. -/
theorem Shows.transmitTxInit_receive (h : Shows st x w) (hfirst : st.firstCmd = true)
    (htype : st.externalDevice.transferType = .receive) (hcr : Bits.any x.cr crRst = false)
    (hb : bytesPerFrame (transferCommand st.externalDevice) ≠ 0) :
    Ends NoError (LpspiIp.transmitTxInit (device bus) errata none length w) fun w' => ∃ y,
      y.tx = [] ∧ y.rx = [] ∧ Shows
        { st with
          txIndex := 0
          expectedFifoWrites := expectedFrames st.externalDevice.frameSize length } y w' := by
  rw [LpspiIp.transmitTxInit]
  refine (h.firstCmdInit hfirst hcr).bind fun w₁ h₁ => ?_
  obtain ⟨hrst, htx, hrx⟩ := (x.control (x.cr &&& ~~~crMen)).cleared_frame bus errata
  generalize ((x.control (x.cr &&& ~~~crMen)).emptied bus errata).cleared = y at h₁ hrst htx hrx
  dsimp only at h₁
  have hcommand : Ends NoError (LpspiIp.commandInit (device bus) w₁) fun w₂ =>
      ∃ y, y.tx = [] ∧ y.rx = [] ∧ Shows st y w₂ := by
    rw [LpspiIp.commandInit, h₁.state_eq]
    dsimp only
    rw [if_neg (not_not.2 htype)]
    cases hslave : st.phyUnitConfig.slaveMode with
    | true =>
      rw [hslave, if_pos rfl] at h₁
      refine (h₁.writeTcr htx ?_).bind fun w₂ h₂ => ?_
      · have hmask : ((transferCommand st.externalDevice ||| tcrTxmsk) &&& ~~~tcrCont) &&&
            Lpspi.tcrFrameszMask = transferCommand st.externalDevice &&& Lpspi.tcrFrameszMask := by
          rw [BitVec.and_assoc, BitVec.and_or_distrib_right,
            show tcrTxmsk &&& (~~~tcrCont &&& Lpspi.tcrFrameszMask) = 0#32 by decide,
            BitVec.or_zero]
          exact congrArg (transferCommand st.externalDevice &&& ·) (by decide)
        rwa [bytesPerFrame_congr hmask]
      · rw [enableSlave, h₂.state_eq, hslave, if_pos rfl]
        have hmen : Bits.any (y.cr ||| crMen) crRst = false := by
          rw [Bits.any_or_left, hrst]
          rfl
        refine (h₂.modify_cr hmen).mono fun w₃ h₃ => ?_
        refine ⟨_, ?_, ?_, h₃⟩
        · exact (View.control_empty htx hrx _).1
        · exact (View.control_empty htx hrx _).2
    | false =>
      rw [hslave, if_neg Bool.false_ne_true] at h₁
      obtain ⟨htx', hrx'⟩ := View.control_empty htx hrx (y.cr ||| crMen)
      exact ⟨_, htx', hrx', h₁⟩
  refine hcommand.bind ?_
  rintro w₂ ⟨y', htx', hrx', h₂⟩
  refine ends_pure ⟨y', htx', hrx', h₂.upd ?_⟩
  have hne : st.externalDevice.transferType ≠ .fullDuplex := by
    rw [htype]
    exact HalfDuplexType.noConfusion
  simp only [if_neg hne]

/-- **Half-duplex receptions.** With a timeout of at least two ticks, a reception never
    returns. -/
theorem syncTransmitHalfDuplex_receive (bus : SsiBus β) (errata : Bool) (d : ExternalDevice)
    (buffer : Buffer) (length timeOut fuel : ℕ) {keepCs : Bool} (h : Rested config keepCs x w)
    (hlen : length ≠ 0) (hmod : length % frameWidth d.frameSize = 0)
    (hb : bytesPerFrame (transferCommand d) ≠ 0) (htime : 2 ≤ timeOut) :
    syncTransmitHalfDuplex (device bus) errata d buffer length .receive timeOut fuel w =
      .ok none := by
  obtain ⟨⟨hfirst, -, -, -⟩, hstatus, hs, hview, hcr, -⟩ := h
  have hrun : Ends NoError (syncTransmitHalfDuplex (device bus) errata d buffer length .receive
      timeOut fuel w) fun r => r = none := by
    rw [syncTransmitHalfDuplex, World.devAssert_of hlen, ends_ok_bind,
      checkValidParameters_eq hmod, ends_ok_bind, if_neg hstatus]
    dsimp only
    have h₀ : Shows
        { w.state with status := .busy, externalDevice := { d with transferType := .receive } } x
        (w.upd fun st =>
          { st with status := .busy, externalDevice := { d with transferType := .receive } }) :=
      ⟨rfl, hs, hview⟩
    refine (h₀.halfDuplexPrepare_receive rfl).bind fun w₁ h₁ => ?_
    refine (h₁.writeDer 0#32).bind fun w₂ h₂ => ?_
    refine (h₂.writeIer 0#32).bind fun w₃ h₃ => ?_
    refine (h₃.transmitTxInit_receive hfirst rfl hcr hb).bind ?_
    rintro w₄ ⟨y, htx, hrx, h₄⟩
    rw [if_pos rfl]
    have hwaiting : Waiting (expectedFrames d.frameSize length)
        (transmitRxInit none length w₄) := by
      refine ⟨_, y, h₄.upd rfl, htx, hrx, rfl, rfl, ?_⟩
      exact fun h0 => hb ((bytesPerFrame_receiveCommand _ d).symm.trans h0)
    have hticks : 2 ≤ microsToTicks timeOut := htime
    have hk := expectedFrames_pos hmod hlen
    rw [hwaiting.run_eq_none hk.ne' hticks fuel]
    rfl
  obtain ⟨_, hok, rfl⟩ := ends_noError_iff.1 hrun
  exact hok

/-- A byte is waited for. -/
theorem syncTransmitHalfDuplex_waiting : ∃ w₀,
    init (device SsiBus.empty) loopConfig ⟨StateStructure.cleared, Lpspi.bare⟩ = .ok w₀ ∧
    syncTransmitHalfDuplex (device SsiBus.empty) true byteDevice (some [0#8]) 1 .receive 1000
      1000000
      w₀ = .ok none := by
  obtain ⟨w₀, hinit, hrested⟩ := ends_noError_iff.1 (init_device SsiBus.empty loopConfig
    (w := ⟨StateStructure.cleared, Lpspi.bare⟩) Lpspi.powerOn_bare.settled)
  exact ⟨w₀, hinit, syncTransmitHalfDuplex_receive SsiBus.empty true byteDevice (some [0#8]) 1 1000
    1000000 hrested (by decide) (by decide) (by decide) (by decide)⟩

end S32K358.LpspiIp
