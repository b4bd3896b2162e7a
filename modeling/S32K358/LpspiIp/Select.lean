import S32K358.LpspiIp.Sync

/-!
# The chip select of a transfer

With the erratum's reset at its start, a transfer begins with all chip selects high. The
device asserts the one of the command with the first frame. It deasserts it after each
frame if neither of the bits 30 and 31 of the command is set, which are `CONT` and `CONTC`
for the device, and not at all otherwise. For the driver these bits are the phase and the
polarity of the clock. When it clears its own `CONT` at the end of a transfer, the device
does not take any notice: the chip select is left asserted (`syncTransmit_chipSelect`).
-/

namespace S32K358.LpspiIp

open Lpspi (Reg SsiBus State Settled bytesPerFrame pcs single csActiveHigh)
open Program Port

variable {n : ℕ} {β : Type} {bus : SsiBus β} {x : View n β}

/-- The level that a transfer leaves a chip select at. -/
def leftAt (cmd cfgr1 : BitVec 32) : Bool :=
  if single cmd then !csActiveHigh cfgr1 (pcs cmd) else csActiveHigh cfgr1 (pcs cmd)

/-- The device has exchanged frames of the command, from idle. -/
structure Driven (lines : Vector Bool n) (x : View n β) : Prop where
  lines_eq : x.csLines = lines.setIfInBounds (pcs x.tcr) (leftAt x.tcr x.cfgr1)
  busy_eq : x.busy = !single x.tcr

/-- The lines and the state after an exchange, by the kind of the transfer. -/
theorem exchange_of_single (hsingle : single x.tcr = true) (v : BitVec 32) :
    Driven x.csLines (x.exchange bus v).2 := by
  constructor
  · simp only [View.exchange, View.deselect, View.select, View.drive, leftAt, hsingle,
      Bool.or_true, if_true, Vector.setIfInBounds_setIfInBounds]
  · simp only [View.exchange, View.deselect, View.select, View.drive, hsingle, Bool.true_and]

theorem exchange_of_idle (hsingle : single x.tcr = false) (hbusy : x.busy = false)
    (v : BitVec 32) : Driven x.csLines (x.exchange bus v).2 := by
  constructor
  · simp only [View.exchange, View.deselect, View.select, View.drive, leftAt, hsingle, hbusy,
      Bool.not_false, Bool.true_or, Bool.false_eq_true, if_true, if_false]
  · simp only [View.exchange, View.deselect, View.select, View.drive, hsingle, Bool.true_and]

theorem exchange_of_busy (hsingle : single x.tcr = false) (hbusy : x.busy = true)
    (v : BitVec 32) : (x.exchange bus v).2.csLines = x.csLines ∧
      (x.exchange bus v).2.busy = true := by
  constructor
  · simp only [View.exchange, View.deselect, View.select, View.drive, hsingle, hbusy,
      Bool.not_true, Bool.or_self, Bool.false_eq_true, if_false]
  · simp only [View.exchange, View.deselect, View.select, View.drive, hsingle, Bool.not_false,
      Bool.and_self]

/-- The chip select is driven by the first frame, and stays as it is then. -/
theorem Driven.exchange {lines : Vector Bool n} (h : Driven lines x) (v : BitVec 32) :
    Driven lines (x.exchange bus v).2 := by
  cases hsingle : single x.tcr with
  | true =>
    have hd : Driven x.csLines (x.exchange bus v).2 := exchange_of_single hsingle v
    refine ⟨hd.lines_eq.trans ?_, hd.busy_eq⟩
    rw [h.lines_eq]
    exact Vector.setIfInBounds_setIfInBounds ..
  | false =>
    have hbusy : x.busy = true := by rw [h.busy_eq, hsingle, Bool.not_false]
    obtain ⟨hlines, hbusy'⟩ : (x.exchange bus v).2.csLines = _ ∧ _ :=
      exchange_of_busy hsingle hbusy v
    exact ⟨hlines.trans h.lines_eq, hbusy'.trans (hbusy.symm.trans h.busy_eq)⟩

theorem Driven.exchanges {lines : Vector Bool n} (h : Driven lines x) (vs : List (BitVec 32)) :
    Driven lines (x.exchanges bus vs).2 := by
  induction vs generalizing x with
  | nil => exact h
  | cons v vs ih => exact ih (h.exchange v)

theorem driven_exchanges (hbusy : x.busy = false) {vs : List (BitVec 32)} (hvs : vs ≠ []) :
    Driven x.csLines (x.exchanges bus vs).2 := by
  obtain ⟨v, vs, rfl⟩ := List.exists_cons_of_ne_nil hvs
  have hd : Driven x.csLines (x.exchange bus v).2 := by
    cases hsingle : single x.tcr with
    | true => exact exchange_of_single hsingle v
    | false => exact exchange_of_idle hsingle hbusy v
  exact hd.exchanges vs

variable {w : World (State n β)} {keepCs : Bool} {config : Config}

/-- **The chip select after a transfer.** All chip selects are high after a transfer, but
    that of its command, which is left asserted exactly if the command has one of the
    bits that are `CONT` and `CONTC` for the device. -/
theorem syncTransmit_chipSelect (bus : SsiBus β) (c : Call) (fuel : ℕ)
    (h : Rested config keepCs x w) (hc : c.Valid n config.slaveMode) (htime : c.timeOut ≠ 1)
    (hfuel : 2 * c.frames < fuel) :
    ∃ w', c.run (device bus) true fuel w = .ok (some (.success, w')) ∧
      w'.hw.csLines = (Vector.replicate n true).setIfInBounds
        (pcs (command config.slaveMode c.device))
        (leftAt (command config.slaveMode c.device) x.cfgr1) := by
  have hcall : Ends NoError (c.run (device bus) true fuel w) _ := h.syncTransmit hc hfuel
  obtain ⟨_, hrun, w', rfl, -, hrested⟩ := ends_noError_iff.1 hcall
  simp only [View.transfer, if_neg htime] at hrun hrested
  refine ⟨w', hrun, ?_⟩
  have hne : frames (bytesPerFrame (command config.slaveMode c.device)) c.device c.txBuffer 0
      c.frames ≠ [] := by
    rw [← List.length_pos_iff, length_frames]
    exact hc.frames_pos
  have hbusy : ((x.enabling 0#32).started bus true (command config.slaveMode c.device)).busy =
      false := rfl
  have hdriven : Driven _ (((x.enabling 0#32).started bus true _).exchanges bus _).2 :=
    driven_exchanges hbusy hne
  have hlines := hdriven.lines_eq
  obtain ⟨-, htcr, hcfgr1, -⟩ := View.exchanges_frame bus
    ((x.enabling 0#32).started bus true (command config.slaveMode c.device))
    (frames (bytesPerFrame (command config.slaveMode c.device)) c.device c.txBuffer 0 c.frames)
  rw [htcr, hcfgr1] at hlines
  have hview := congrArg View.csLines hrested.view_eq
  rw [(View.released_frame _ _).2.2.1, hlines] at hview
  exact hview

/-- The chip select of the first peripheral, with the clock of phase one. -/
theorem syncTransmit_left_asserted : ∃ w₁ w',
    init (device SsiBus.empty) loopConfig ⟨StateStructure.cleared, Lpspi.bare⟩ = .ok w₁ ∧
    Call.run ⟨⟨{ byteDevice with tcr := 1#32 <<< 30 ||| 1#32 <<< 21 }, none, none, 1⟩, 2⟩
      (device SsiBus.empty) true 3 w₁ = .ok (some (.success, w')) ∧
    w'.hw.csLines = #v[false] := by
  obtain ⟨w₁, hinit, hrested⟩ := ends_noError_iff.1 (init_device SsiBus.empty loopConfig
    (w := ⟨StateStructure.cleared, Lpspi.bare⟩) Lpspi.powerOn_bare.settled)
  obtain ⟨w', hrun, hlines⟩ := syncTransmit_chipSelect SsiBus.empty
    ⟨⟨{ byteDevice with tcr := 1#32 <<< 30 ||| 1#32 <<< 21 }, none, none, 1⟩, 2⟩ 3 hrested
    { fullDuplex := rfl
      length_ne_zero := by decide
      length_mod := by decide
      timeOut_ne_zero := by decide
      le_tx := by rintro _ ⟨⟩
      le_rx := by rintro _ ⟨⟩
      bytes_ne_zero := by decide
      unmasked := by decide
      pcs_lt := by decide } (by decide) (by decide)
  exact ⟨w₁, w', hinit, hrun, hlines⟩

end S32K358.LpspiIp
