import S32K358.Lpuart.Backend

/-!
# The LPUART: transmission

A character written to the data register is sent before the write returns. From then on,
until the guest writes `STAT`, the flag `TC` should be set, so that a guest that waits for it
goes on, and the interrupt line be up if the interrupt of the flag is enabled
(`Complete`).

The flag is set in a reset, and a write of `STAT` without its bit clears it, as a
comment in the source says; but unlike what that comment goes on to say, it is not
set again when a character is sent. The ghost variable `Sending` keeps what decides
about the flag.
`run_complete_iff`: transmissions are complete in exactly those runs where, between a
write of `STAT` without the bit of `TC` and a character sent, there is a reset.
-/

namespace S32K358.Lpuart

variable {s : State} {τ : Mealy.Transition State Stimulus Reply}

/-! ## Characters sent -/

/-- Characters are sent by writes of the data register. -/
theorem sends_iff (hs : s.calls = []) (i : Stimulus) :
    i.sends = true ↔ ∃ ch, Call.writeAll ch ∈ (after s i).calls := by
  have hmem : ∀ ch, Call.writeAll ch ∈ (after s i).calls ↔ Call.writeAll ch ∈ backendCalls s i := by
    intro ch
    rw [← toBackend_after hs, toBackend, List.mem_filter]
    exact (and_iff_left rfl).symm
  simp only [hmem]
  rcases i with (_ | ⟨offset, value⟩ | _ | _) | _
  case event.write =>
    rw [Stimulus.sends, backendCalls]
    cases hr : Reg.ofOffset? offset with
    | none => simp
    | some r =>
      cases r with
      | data => by_cases hsend : value < 0xF000#32 <;> simp [hsend]
      | _ => simp
  all_goals simp [Stimulus.sends, backendCalls]

/-! ## The flag -/

/-- Transmission complete: `LPUART_STAT_TC` of the driver, for which the device has no name. -/
def statTc : BitVec 32 := 1#32 <<< 22

/-- What decides about `TC`. -/
structure Sending where
  /-- A character has been sent, and `STAT` not been written since. -/
  sent : Bool
  /-- `STAT` has been written without the bit of `TC`, and the device not been reset since. -/
  cleared : Bool
  deriving DecidableEq, Repr

/-- What decides about `TC`, after a transition. -/
def sendingAfter (g : Sending) (τ : Mealy.Transition State Stimulus Reply) : Sending :=
  match τ.input.stat? with
  | some value => ⟨false, g.cleared || !Bits.any value statTc⟩
  | none => ⟨g.sent || τ.input.sends, g.cleared && !τ.input.resets⟩

/-- The transmission is complete: `TC` is set, for a guest that reads `STAT`, and raises the
    line if its interrupt is enabled. -/
structure Complete (s : State) : Prop where
  tc_set : Bits.any s.sr statTc = true
  tc_read : ∀ buf, Bits.any (read s 0x14 buf).1 statTc = true
  irq_raised : Bits.any s.cr ctrlTcie = true → s.irq = true

/-- The state of the device is as the ghost variable says. -/
structure Tracks (g : Sending) (s : State) : Prop where
  calls_nil : s.calls = []
  tc_eq : Bits.any s.sr statTc = !g.cleared
  coherent : g.sent = true → Coherent s

variable {g : Sending}

theorem complete_iff (hs : Coherent s) : Complete s ↔ Bits.any s.sr statTc = true := by
  refine ⟨fun h => h.tc_set, fun htc => ⟨htc, fun _ => htc, fun htcie => ?_⟩⟩
  have hboth : Bits.any (s.sr &&& s.cr) ctrlTcie = true := by
    rw [ctrlTcie] at htcie ⊢
    rw [statTc] at htc
    rw [Bits.any_and_left _ _ (by decide), htc, htcie, Bool.and_self]
  rw [hs, irqLevel, Bits.any_or_right, Bits.any_or_right, hboth, Bool.or_true, Bool.true_or]

/-- A write of `STAT` leaves `TC` set only if its value has the bit. -/
theorem any_tc_stat {value : BitVec 32} {i : Stimulus} (h : i.stat? = some value) :
    Bits.any (srAfter s i) statTc = (Bits.any s.sr statTc && Bits.any value statTc) := by
  rw [(after_stat h).1]
  split_ifs with hsmall
  · have htdre : Bits.any statTdre statTc = false := by decide
    rw [Bits.any_or_left, any_of_small hsmall (by decide), htdre, Bool.or_false, Bool.and_false]
  · rw [statTc, Bits.any_and_left _ _ (by decide)]

/-- Only a write of `STAT` and a reset change `TC`. -/
theorem any_tc_of_not_stat {i : Stimulus} (h : i.stat? = none) :
    Bits.any (srAfter s i) statTc = (Bits.any s.sr statTc || i.resets) := by
  have htdre : Bits.any statTdre statTc = false := by decide
  have hreset : Bits.any statReset statTc = true := by decide
  rw [any_srAfter_of_not_stat h (by decide), htdre, hreset, Bool.and_false, Bool.or_false]
  cases i.resets <;> simp

/-! ## Single stimuli -/

/-- A character sent neither writes `STAT` nor resets the device, and drives the line. -/
theorem of_sends {i : Stimulus} (h : i.sends = true) :
    i.stat? = none ∧ i.resets = false ∧ drivesIrq s i = true := by
  rcases i with (_ | ⟨offset, value⟩ | _ | _) | _ <;>
    simp only [Stimulus.sends, Bool.false_eq_true, Bool.and_eq_true, decide_eq_true_eq] at h
  simp [Stimulus.stat?, Stimulus.resets, drivesIrq, h.1, h.2]

theorem tracks_after (htake : Mealy.Takes stimulate τ) (hs : Tracks g τ.pre) :
    Tracks (sendingAfter g τ) τ.post := by
  have hsr := sr_of_takes htake hs.calls_nil
  rw [sendingAfter]
  cases hstat : τ.input.stat? with
  | some value =>
    refine ⟨calls_of_takes htake, ?_, fun hsent => absurd hsent Bool.false_ne_true⟩
    rw [hsr, any_tc_stat hstat, hs.tc_eq, Bool.not_or, Bool.not_not]
  | none =>
    refine ⟨calls_of_takes htake, ?_, fun hsent => ?_⟩
    · rw [hsr, any_tc_of_not_stat hstat, hs.tc_eq, Bool.not_and, Bool.not_not]
    · -- Sending a character drives the line, and what follows keeps it right.
      have hcoherent : Coherent (after τ.pre τ.input) := by
        rcases Bool.or_eq_true_iff.1 hsent with hsent | hsends
        · exact (coherent_after_iff hs.calls_nil (hs.coherent hsent) τ.input).2
            (by simp [KeepsIrq, hstat])
        · exact coherent_of_drivesIrq hs.calls_nil (of_sends hsends).2.2
      rw [(post_of_takes htake).2]
      exact hcoherent

theorem complete_after_iff (htake : Mealy.Takes stimulate τ) (hs : Tracks g τ.pre)
    (hp : g.sent = true → Complete τ.pre) :
    ((sendingAfter g τ).sent = true → Complete τ.post) ↔
      (τ.input.sends = true → g.cleared = false) := by
  have ht := tracks_after htake hs
  have hcomplete : ((sendingAfter g τ).sent = true → Complete τ.post) ↔
      ((sendingAfter g τ).sent = true → (sendingAfter g τ).cleared = false) := by
    refine forall_congr' fun hsent => ?_
    rw [complete_iff (ht.coherent hsent), ht.tc_eq, Bool.not_eq_true']
  rw [hcomplete, sendingAfter]
  cases hsends : τ.input.sends with
  | true =>
    obtain ⟨hstat, hresets, -⟩ := of_sends (s := τ.pre) hsends
    simp [hstat, hresets]
  | false =>
    refine iff_of_true ?_ (by simp)
    cases hstat : τ.input.stat? with
    | some value => simp
    | none =>
      -- A character sent before has left the flag set.
      intro hsent
      have htc := (hp (by simpa using hsent)).tc_set
      rw [hs.tc_eq, Bool.not_eq_true'] at htc
      simp [htc]

/-! ## Whole runs -/

/-- **Transmissions are complete.** In a run from power on, on any stimuli, what a character
    sent leaves, until `STAT` is written, is a complete transmission, exactly when every
    character is sent with no write of `STAT` without the bit of `TC` since the last
    reset. -/
theorem run_complete_iff (hz : ℕ) (is : List Stimulus) :
    ∃ h t, runStimuli (atPowerOn hz) is = .ok (h, t) ∧
      (∀ τ ∈ h, τ.input.sends = true ↔ ∃ ch, Call.writeAll ch ∈ τ.output.calls) ∧
      (Mealy.Along sendingAfter (fun g τ => (sendingAfter g τ).sent = true → Complete τ.post)
          ⟨false, false⟩ h ↔
        Mealy.Along sendingAfter (fun g τ => τ.input.sends = true → g.cleared = false)
          ⟨false, false⟩ h) := by
  obtain ⟨h, t, hr⟩ := runStimuli_ok (atPowerOn hz) is
  have htracks : Tracks ⟨false, false⟩ (atPowerOn hz) := by
    refine ⟨rfl, ?_, fun hsent => absurd hsent Bool.false_ne_true⟩
    change Bits.any statReset statTc = true
    decide
  refine ⟨h, t, hr, fun τ hτ => ?_, ?_⟩
  · rw [(post_of_takes (Mealy.run_takes hr τ hτ).1).1]
    exact sends_iff (calls_of_run hr rfl τ hτ) τ.input
  · exact Mealy.run_along_exact_of_invariant (P := fun g s => g.sent = true → Complete s) hr htracks
      (fun hsent => absurd hsent Bool.false_ne_true)
      (fun g τ _ htake hs => tracks_after htake hs)
      fun g τ _ htake hs hp => complete_after_iff htake hs hp

/-- The driver writes `STAT` when it sets the device up, and then sends a character with the
    interrupt of `TC` enabled: the flag is clear, a guest that reads `STAT` until it is set
    does so forever, and the line is down. The same after a zero is written to `STAT`. -/
theorem run_incomplete :
    (∃ h t, runStimuli (atPowerOn 80000000) [.event (.write 0x10 0x0F000004#32),
        .event (.write 0x14 statRegFlagsMask), .event (.write 0x18 0#32),
        .event (.write 0x18 ctrlTcie), .event (.write 0x1C 0x61#32)] = .ok (h, t) ∧
      Bits.any t.sr statTc = false ∧
      (∀ l, stimulate t (.event (.read 0x14 l)) = .ok (⟨some t.sr, [], []⟩, t)) ∧
      Bits.any t.cr ctrlTcie = true ∧ t.irq = false ∧
      ¬Mealy.Along sendingAfter (fun g τ => (sendingAfter g τ).sent = true → Complete τ.post)
        ⟨false, false⟩ h) ∧
    ∃ h t, runStimuli (atPowerOn 80000000) [.event (.write 0x14 0#32),
        .event (.write 0x1C 0x61#32)] = .ok (h, t) ∧
      Bits.any t.sr statTc = false ∧
      ¬Mealy.Along sendingAfter (fun g τ => (sendingAfter g τ).sent = true → Complete τ.post)
        ⟨false, false⟩ h := by
  refine ⟨⟨_, _, rfl, by decide, fun _ => rfl, by decide, rfl, ?_⟩, _, _, rfl, by decide, ?_⟩
  · rintro ⟨-, -, -, -, hcomplete, -⟩
    exact absurd (hcomplete rfl).tc_set (by decide)
  · rintro ⟨-, hcomplete, -⟩
    exact absurd (hcomplete rfl).tc_set (by decide)

end S32K358.Lpuart
