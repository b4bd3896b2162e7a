import S32K358.LpspiIp.Exchange

/-!
# Frames in flight

A full-duplex transfer on the device, between its passes: of its frames, some have been
pushed and some of their answers read back (`Flight`). The variables of the driver, the
buffer of its caller and the view of the device are all determined by these two numbers
and the start of the transfer. A pass first reads back what is in flight
(`Flight.receiveData`), and then fills the FIFO (`Flight.transmitData`).
-/

namespace S32K358.LpspiIp

open Lpspi (Reg SsiBus State Settled bytesPerFrame)
open Program Port

variable {n : ℕ} {β : Type}

section Definitions

variable (bus : SsiBus β) (st : StateStructure) (x : View n β)

/-- The first `t` frames. -/
def sent (t : ℕ) : List (BitVec 32) :=
  frames (bytesPerFrame x.tcr) st.externalDevice st.txBuffer 0 t

/-- The answers to them. -/
def answers (t : ℕ) : List (BitVec 32) := (x.exchanges bus (sent st x t)).1

/-- The variables when `t` frames have been pushed and `r` read back. -/
def flightState (r t : ℕ) : StateStructure :=
  { stored st 0 (((answers bus st x t).take r).map (truncate (bytesPerFrame x.tcr))) with
    rxIndex := r
    txIndex := t
    currentTxFifoSlot := if r = 0 then fifoSize - 1 - t else fifoSize - (t - r) }

/-- The view when `t` frames have been pushed and `r` read back. -/
def flightView (r t : ℕ) : View n β :=
  (x.exchanges bus (sent st x t)).2.holding (bytes x.tcr ((answers bus st x t).drop r))

/-- A transfer of `k` frames that started with the variables `st` and the view `x`. -/
structure Transfer (k : ℕ) : Prop where
  ready : x.Open
  rx_eq : x.rx = []
  calm : x.faults = false
  bytes_ne_zero : bytesPerFrame x.tcr ≠ 0
  writes_eq : st.expectedFifoWrites = k
  reads_eq : st.expectedFifoReads = k
  fits_tx : Fits (frameWidth st.externalDevice.frameSize) k st.txBuffer
  fits_rx : Fits (frameWidth st.externalDevice.frameSize) k st.rxBuffer

/-- Of a transfer, `t` frames have been pushed and `r` read back. -/
def Flight (r t : ℕ) (w : World (State n β)) : Prop :=
  Shows (flightState bus st x r t) (flightView bus st x r t) w

end Definitions

variable {bus : SsiBus β} {st : StateStructure} {x : View n β} {w : World (State n β)} {k r t : ℕ}

theorem length_answers (t : ℕ) : (answers bus st x t).length = t := by
  rw [answers, View.length_exchanges, sent, length_frames]

/-- The answers to more frames. -/
theorem answers_add (t m : ℕ) : answers bus st x (t + m) = answers bus st x t ++
    ((x.exchanges bus (sent st x t)).2.exchanges bus
      (frames (bytesPerFrame x.tcr) st.externalDevice st.txBuffer t m)).1 := by
  rw [answers, sent, frames_append, View.exchanges_append, Nat.zero_add]
  rfl

theorem take_answers_add (t m : ℕ) :
    (answers bus st x (t + m)).take t = answers bus st x t := by
  rw [answers_add, List.take_left' (length_answers t)]

/-- Everything has been read back. -/
theorem flightView_self (t : ℕ) :
    flightView bus st x t t = (x.exchanges bus (sent st x t)).2.holding [] := by
  rw [flightView, List.drop_eq_nil_of_le (length_answers t).le]
  rfl

theorem flightView_of_rx (hrx : x.rx = []) (t : ℕ) :
    flightView bus st x t t = (x.exchanges bus (sent st x t)).2 := by
  obtain ⟨-, -, -, -, hframe, -⟩ := View.exchanges_frame bus x (sent st x t)
  rw [flightView_self, View.holding, ← hrx, ← hframe]

theorem flightView_frame (r t : ℕ) : (flightView bus st x r t).cr = x.cr ∧
    (flightView bus st x r t).tcr = x.tcr ∧ (flightView bus st x r t).cfgr1 = x.cfgr1 ∧
    (flightView bus st x r t).tx = x.tx ∧ (flightView bus st x r t).faults = x.faults ∧
    (flightView bus st x r t).ier = x.ier ∧
    (flightView bus st x r t).rxWatermark = x.rxWatermark := by
  obtain ⟨h₁, h₂, h₃, h₄, -, h₅⟩ := View.exchanges_frame bus x (sent st x t)
  exact ⟨h₁, h₂, h₃, h₄, h₅⟩

theorem flightState_zero (hrx : st.rxIndex = 0) (htx : st.txIndex = 0)
    (hslot : st.currentTxFifoSlot = fifoSize - 1) : flightState bus st x 0 0 = st := by
  rw [flightState, List.take_zero, List.map_nil, stored_nil, if_pos rfl, Nat.sub_zero]
  cases st
  simp only at hrx htx hslot
  rw [hrx, htx, hslot]

/-- Frames pushed, with some answers waiting. -/
theorem pushed_flightView (hrt : r ≤ t) (m : ℕ) :
    (flightView bus st x r t).pushed bus ((answers bus st x t).drop r)
      (frames (bytesPerFrame x.tcr) st.externalDevice st.txBuffer t m) =
      flightView bus st x r (t + m) := by
  obtain ⟨-, htcr, -⟩ := View.exchanges_frame bus x (sent st x t)
  have hsent : sent st x (t + m) = sent st x t ++
      frames (bytesPerFrame x.tcr) st.externalDevice st.txBuffer t m := by
    rw [sent, frames_append, Nat.zero_add, ← sent]
  have hdrop : (answers bus st x (t + m)).drop r = (answers bus st x t).drop r ++
      ((x.exchanges bus (sent st x t)).2.exchanges bus
        (frames (bytesPerFrame x.tcr) st.externalDevice st.txBuffer t m)).1 := by
    rw [answers_add, List.drop_append_of_le_length (by rwa [length_answers])]
  rw [flightView, View.pushed, View.exchanges_holding, View.holding_tcr, htcr, flightView, hdrop,
    hsent, View.exchanges_append]
  rfl

theorem pushed_flightState {m : ℕ}
    (hslot : (flightState bus st x t t).currentTxFifoSlot =
      if t = 0 then fifoSize - 1 else fifoSize) :
    { flightState bus st x t t with
      txIndex := t + m
      currentTxFifoSlot := (flightState bus st x t t).currentTxFifoSlot - m } =
      flightState bus st x t (t + m) := by
  have hslots : (if t = 0 then fifoSize - 1 else fifoSize) - m =
      if t = 0 then fifoSize - 1 - (t + m) else fifoSize - (t + m - t) := by
    split_ifs <;> omega
  rw [hslot, hslots, flightState, flightState, take_answers_add,
    List.take_of_length_le (length_answers t).le]

namespace Transfer

variable (T : Transfer st x k)
include T

theorem remaining_shows {y : View n β}
    (h : Shows (flightState bus st x r t) y w) : remaining w = (k - r) + (k - t) := by
  rw [remaining, h.state_eq]
  change (st.expectedFifoReads - r) + (st.expectedFifoWrites - t) = _
  rw [T.reads_eq, T.writes_eq]

theorem flight_zero (hrx : st.rxIndex = 0) (htx : st.txIndex = 0)
    (hslot : st.currentTxFifoSlot = fifoSize - 1) (h : Shows st x w) :
    Flight bus st x 0 0 w := by
  have hx : flightView bus st x 0 0 = x := by
    change x.holding [] = x
    rw [← T.rx_eq]
    rfl
  rw [Flight, flightState_zero hrx htx hslot, hx]
  exact h

theorem open_flightView (r t : ℕ) : (flightView bus st x r t).Open := by
  obtain ⟨hcr, htcr, -, htx, -⟩ : _ ∧ _ ∧ _ ∧ (flightView bus st x r t).tx = _ ∧ _ :=
    flightView_frame r t
  exact ⟨hcr ▸ T.ready.men, htx.trans T.ready.tx_eq, htcr ▸ T.ready.unmasked,
    htcr ▸ T.ready.pcs_lt⟩

/-- The frames read back are the answers. -/
theorem received_flightState (hrt : r ≤ t) (htk : t ≤ k)
    (hslot : t - r ≤ if r = 0 then fifoSize - 1 else fifoSize) :
    received (flightState bus st x r t)
      (((answers bus st x t).drop r).map (truncate (bytesPerFrame x.tcr))) =
      flightState bus st x t t := by
  rcases Nat.eq_or_lt_of_le hrt with rfl | hlt
  · rw [List.drop_eq_nil_of_le (length_answers r).le]
    rfl
  · have hne : ((answers bus st x t).drop r).map (truncate (bytesPerFrame x.tcr)) ≠ [] := by
      rw [Ne, List.map_eq_nil_iff, List.drop_eq_nil_iff, length_answers]
      omega
    have htake : (((answers bus st x t).take r).map (truncate (bytesPerFrame x.tcr))).length =
        r := by
      rw [List.length_map, List.length_take, length_answers]
      omega
    have hdrop : (((answers bus st x t).drop r).map (truncate (bytesPerFrame x.tcr))).length =
        t - r := by
      rw [List.length_map, List.length_drop, length_answers]
    have hput : ∀ l₁ l₂ : List (BitVec 32), l₁.length = r → l₂.length = t - r →
        stored (stored st 0 l₁) r l₂ = stored st 0 (l₁ ++ l₂) := by
      rintro l₁ l₂ rfl hlen
      rw [← stored_stored (T.fits_rx.mono (by omega)), Nat.zero_add]
    have hslots : ((if r = 0 then ((if r = 0 then fifoSize - 1 - t else
        fifoSize - (t - r)) + 1) % 2 ^ 8
        else if r = 0 then fifoSize - 1 - t else fifoSize - (t - r)) + (t - r)) % 2 ^ 8 =
        if t = 0 then fifoSize - 1 - t else fifoSize - (t - t) := by
      rw [fifoSize] at *
      split_ifs at * <;> omega
    have hrt' : r + (t - r) = t := by omega
    have hall := hput _ _ htake hdrop
    rw [← List.map_append, List.take_append_drop] at hall
    rw [received_of_ne_nil hne, hdrop, flightState, flightState,
      List.take_of_length_le (length_answers t).le, ← hall, ← hslots]
    simp only [freed, stored, hrt']

theorem receiveData (h : Flight bus st x r t w) (hrt : r ≤ t) (htk : t ≤ k)
    (hslot : t - r ≤ if r = 0 then fifoSize - 1 else fifoSize) :
    Ends NoError (receiveData (device bus) w) fun y =>
      y.1 = decide (r < t) ∧ Flight bus st x t t y.2 := by
  obtain ⟨-, htcr, -, -⟩ : _ ∧ (flightView bus st x r t).tcr = _ ∧ _ := flightView_frame r t
  have hlen : ((answers bus st x t).drop r).length = t - r := by
    rw [List.length_drop, length_answers]
  have hfits : Fits (frameWidth st.externalDevice.frameSize) k
      (flightState bus st x r t).rxBuffer := by
    refine T.fits_rx.map_put ?_
    rw [List.length_map, List.length_take, length_answers]
    omega
  have hrx : (flightView bus st x r t).rx =
      bytes (flightView bus st x r t).tcr ((answers bus st x t).drop r) := by
    rw [htcr]
    rfl
  have hle : t - r ≤ 4 := hslot.trans (by rw [fifoSize]; split_ifs <;> decide)
  have hreads : (flightState bus st x r t).rxIndex + ((answers bus st x t).drop r).length ≤
      (flightState bus st x r t).expectedFifoReads := by
    change r + _ ≤ st.expectedFifoReads
    rw [hlen, T.reads_eq]
    omega
  have hempty : ((answers bus st x t).drop r).isEmpty = decide (t ≤ r) := by
    rw [Bool.eq_iff_iff, List.isEmpty_iff, List.drop_eq_nil_iff, length_answers, decide_eq_true_eq]
  refine (Shows.receiveData h (T.open_flightView r t).tx_eq hrx (hlen.trans_le hle) hreads
    (T.reads_eq.symm ▸ hfits)).mono fun y ⟨hy, hshows⟩ => ⟨?_, ?_⟩
  · rw [hy, hempty, ← decide_not, decide_eq_decide, Nat.not_le]
  · rw [htcr, T.received_flightState hrt htk hslot] at hshows
    rw [Flight, flightView_self]
    exact hshows

/-- The FIFO is filled. -/
theorem transmitData {done : World (State n β) → Except (Stop Fault) (World (State n β))} {m : ℕ}
    (h : Flight bus st x t t w) (htk : t < k)
    (hm : m = min (if t = 0 then fifoSize - 1 else fifoSize) (k - t)) :
    Ends NoError (transmitData (device bus) done w) fun y =>
      y.1 = true ∧ Flight bus st x t (t + m) y.2 := by
  obtain ⟨-, htcr, -, -⟩ : _ ∧ (flightView bus st x t t).tcr = _ ∧ _ := flightView_frame t t
  have hslot : (flightState bus st x t t).currentTxFifoSlot =
      if t = 0 then fifoSize - 1 else fifoSize := by
    rw [flightState]
    dsimp only
    split_ifs with ht
    · rw [ht, Nat.sub_zero]
    · rw [Nat.sub_self]
      rfl
  have hrx : (flightView bus st x t t).rx = bytes (flightView bus st x t t).tcr [] := by
    rw [flightView_self]
    rfl
  have hpos : 0 < m ∧ m ≤ 4 ∧ t + m ≤ k := by
    rw [fifoSize] at hm
    split_ifs at hm <;> omega
  have hwrites : (flightState bus st x t t).expectedFifoWrites = k := T.writes_eq
  refine (Shows.transmitData h (T.open_flightView t t) hrx (m := m) ?_ ?_ ?_ hpos.1 ?_).mono
    fun y ⟨hy, hshows⟩ => ⟨hy, ?_⟩
  · simpa using hpos.2.1
  · rw [hwrites]
    exact htk.ne'
  · rw [hslot, hwrites]
    exact hm
  · exact T.fits_tx.mono hpos.2.2
  · rw [htcr] at hshows
    have hnone : (answers bus st x t).drop t = [] :=
      List.drop_eq_nil_of_le (length_answers t).le
    rw [Flight, ← pushed_flightView le_rfl, hnone, ← pushed_flightState hslot]
    exact hshows

/-- All frames have been pushed and read back. -/
theorem transmitData_done {done : World (State n β) → Except (Stop Fault) (World (State n β))}
    {P : World (State n β) → Prop} (h : Flight bus st x k k w) (hk : 0 < k)
    (hdone : Ends NoError (done w) P) :
    Ends NoError (LpspiIp.transmitData (device bus) done w) fun y => y.1 = false ∧ P y.2 := by
  refine Shows.transmitData_done h ?_ T.writes_eq hdone
  change (if k = 0 then _ else fifoSize - (k - k)) ≠ 0
  rw [if_neg hk.ne', Nat.sub_self]
  decide

theorem releaseCs (h : Flight bus st x k k w) :
    Ends NoError (releaseCs (device bus) w)
      (Shows (flightState bus st x k k) ((flightView bus st x k k).released st.keepCs)) := by
  obtain ⟨-, htcr, -⟩ : _ ∧ (flightView bus st x k k).tcr = _ ∧ _ := flightView_frame k k
  exact Shows.releaseCs h (T.open_flightView k k).tx_eq (by rw [htcr]; exact T.bytes_ne_zero)

end Transfer

end S32K358.LpspiIp
