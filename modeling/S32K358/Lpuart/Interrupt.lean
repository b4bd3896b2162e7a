import S32K358.Lpuart.Basic

/-!
# The LPUART: flags and interrupts

The interrupt line should be up exactly when a flag in `STAT` and its enable bit in
`CTRL` are set (`Coherent`), and the flag `TDRE` should always be set, since a byte is
sent at once. The guest reads and writes registers, the backend hands over bytes, by
invitation or by calling the receive function whenever it likes, and the device is
reset, in any order (`Stimulus`).

What a stimulus does to `STAT` (`srAfter`), `CTRL` (`crAfter`) and the line
(`drivesIrq`) is said once, in `after_eq`. A write of `STAT` is the only one that
changes flags without driving the line, and the only one that can clear `TDRE`:

* `run_irq_coherent_iff`: in which runs the line is right;
* `run_tdre_iff`: in which runs the transmitter is always ready.
-/

namespace S32K358.Lpuart

variable {s t : State}

/-! ## Stimuli -/

/-- What happens to the device, with a backend that may call the receive function even
    if the device has said that it cannot receive. -/
inductive Stimulus
  | event (e : Event)
  /-- `nxps32k358_lpuart_receive` is called. -/
  | receive (buf : List (BitVec 8))
  deriving DecidableEq, Repr

/-- The state a stimulus leaves, with the calls made. -/
def after (s : State) : Stimulus → State
  | .event (.read offset l) => (read s offset l).2.2
  | .event (.write offset value) => write s offset value
  | .event (.poll l) => (acceptInput s l).2
  | .event .reset => reset s
  | .receive buf => receive s buf

/-- The device, as a machine on stimuli. -/
def stimulate (s : State) (i : Stimulus) : Except Empty (Reply × State) :=
  match i with
  | .event e => step s e
  | .receive buf => .ok (⟨none, [], (receive s buf).calls⟩, { receive s buf with calls := [] })

/-- The run of the device on some stimuli. -/
abbrev runStimuli (s : State) (is : List Stimulus) :
    Except Empty (List (Mealy.Transition State Stimulus Reply) × State) := Mealy.run stimulate s is

/-- The value read and the bytes handed over, if any. -/
def result (s : State) : Stimulus → Option (BitVec 32) × List (BitVec 8)
  | .event (.read offset l) => (some (read s offset l).1, (read s offset l).2.1)
  | .event (.poll l) => (none, (acceptInput s l).1)
  | _ => (none, [])

theorem stimulate_eq (s : State) (i : Stimulus) :
    stimulate s i = .ok (⟨(result s i).1, (result s i).2, (after s i).calls⟩,
      { after s i with calls := [] }) := by
  rcases i with (⟨offset, l⟩ | ⟨offset, value⟩ | l | _) | buf <;> rfl

theorem runStimuli_ok (s : State) (is : List Stimulus) : ∃ h t, runStimuli s is = .ok (h, t) :=
  Mealy.run_ok (I := fun _ => True) (D := fun _ => True)
    (fun s i _ _ => ⟨_, _, stimulate_eq s i, trivial⟩) trivial fun _ _ => trivial

theorem post_of_takes {τ : Mealy.Transition State Stimulus Reply} (h : Mealy.Takes stimulate τ) :
    τ.output = ⟨(result τ.pre τ.input).1, (result τ.pre τ.input).2, (after τ.pre τ.input).calls⟩ ∧
      τ.post = { after τ.pre τ.input with calls := [] } := by
  rw [Mealy.Takes, stimulate_eq, Except.ok.injEq, Prod.mk.injEq] at h
  exact ⟨h.1.symm, h.2.symm⟩

/-! ## What a stimulus does -/

/-- The level of the interrupt line for some contents of `STAT` and `CTRL`. -/
def irqLevel (sr cr : BitVec 32) : Bool := Bits.any (sr &&& cr) (ctrlTie ||| ctrlTcie ||| ctrlRie)

/-- A byte of the buffer is received. -/
def receives (s : State) (buf : List (BitVec 8)) : Bool := Bits.any s.cr ctrlRe && !buf.isEmpty

/-- `STAT` after a stimulus. -/
def srAfter (s : State) : Stimulus → BitVec 32
  | .event (.read offset l) =>
    if Reg.ofOffset? offset = some .data then
      if receives s l then s.sr &&& ~~~statRdrf ||| statRdrf else s.sr &&& ~~~statRdrf
    else s.sr
  | .event (.write offset value) =>
    match Reg.ofOffset? offset with
    | some .global => if Bits.any value globalRstMask then statReset else s.sr
    | some .stat => if value ≤ 0x3FF#32 then value ||| statTdre else s.sr &&& value
    | some .data => if value < 0xF000#32 then s.sr ||| statTdre else s.sr
    | _ => s.sr
  | .event (.poll l) => if canReceive s && receives s l then s.sr ||| statRdrf else s.sr
  | .event .reset => statReset
  | .receive buf => if receives s buf then s.sr ||| statRdrf else s.sr

/-- `CTRL` after a stimulus. -/
def crAfter (s : State) : Stimulus → BitVec 32
  | .event (.write offset value) =>
    match Reg.ofOffset? offset with
    | some .global => if Bits.any value globalRstMask then controlReset else s.cr
    | some .ctrl => value
    | _ => s.cr
  | .event .reset => controlReset
  | _ => s.cr

/-- The stimulus drives the interrupt line. -/
def drivesIrq (s : State) : Stimulus → Bool
  | .event (.read offset _) => decide (Reg.ofOffset? offset = some .data)
  | .event (.write offset value) =>
    match Reg.ofOffset? offset with
    | some .global => Bits.any value globalRstMask
    | some .ctrl => true
    | some .data => decide (value < 0xF000#32)
    | _ => false
  | .event (.poll l) => canReceive s && receives s l
  | .event .reset => true
  | .receive buf => receives s buf

/-- The level that the stimulus leaves on the line, if it drives it. -/
def driven (s : State) (i : Stimulus) : Option Bool :=
  if drivesIrq s i then some (irqLevel (srAfter s i) (crAfter s i)) else none

def Call.level? : Call → Option Bool
  | .setIrq level => some level
  | _ => none

/-- The levels that some calls drive on the interrupt line. -/
def levels (l : List Call) : List Bool := l.filterMap Call.level?

theorem getLast?_levels_setIrq (l : List Call) (v : Bool) :
    (levels (l ++ [.setIrq v])).getLast? = some v := by
  rw [levels, List.filterMap_append]
  exact List.getLast?_concat

/-- A state with its flags, after a stimulus that drives the line to `level?`, if it
    drives it, from the state `s`. -/
structure Left (s t : State) (sr cr : BitVec 32) (level? : Option Bool) : Prop where
  sr_eq : t.sr = sr
  cr_eq : t.cr = cr
  irq_eq : t.irq = level?.getD s.irq
  levels_eq : (levels t.calls).getLast? = level?

theorem Left.refl (hs : s.calls = []) : Left s s s.sr s.cr none := ⟨rfl, rfl, rfl, by rw [hs]; rfl⟩

/-- An update of the line leaves it as the flags are. -/
theorem Left.updateIrq (s t : State) : Left s (updateIrq t) t.sr t.cr (some (irqLevel t.sr t.cr)) :=
  ⟨rfl, rfl, rfl, getLast?_levels_setIrq _ _⟩

theorem receive_eq (s : State) (buf : List (BitVec 8)) :
    receives s buf = true ∧ (∃ c, receive s buf =
      Lpuart.updateIrq { s with dr := c, sr := s.sr ||| statRdrf }) ∨
    receives s buf = false ∧ receive s buf = s := by
  cases buf with
  | nil => exact .inr ⟨Bool.and_false _, rfl⟩
  | cons c buf =>
    cases hre : Bits.any s.cr ctrlRe with
    | true => exact .inl ⟨by simp [receives, hre], _, receive_of_re hre⟩
    | false => exact .inr ⟨by simp [receives, hre], by simp [receive, hre]⟩

/-- A backend that polls calls the receive function at most once with effect. -/
theorem acceptInput_snd (s : State) (l : List (BitVec 8)) :
    (acceptInput s l).2 = if canReceive s then receive s l else s := by
  cases hre : Bits.any s.cr ctrlRe with
  | true =>
    cases hcan : canReceive s with
    | false =>
      rw [acceptInput_of_full hcan]
      rfl
    | true =>
      cases l with
      | nil => rfl
      | cons c l =>
        rw [acceptInput_cons hre hcan, if_pos rfl, receive_of_re hre, receive_of_re hre]
  | false =>
    -- Every byte handed over is dropped.
    have hdrop : ∀ buf, receive s buf = s := by
      intro buf
      cases buf <;> simp [receive, hre]
    rw [hdrop, ite_self]
    induction l with
    | nil => rfl
    | cons c l ih =>
      rw [acceptInput, hdrop]
      split
      · exact ih
      · rfl

theorem receive_left (hs : s.calls = []) (buf : List (BitVec 8)) :
    Left s (receive s buf) (srAfter s (.receive buf)) s.cr (driven s (.receive buf)) := by
  rcases receive_eq s buf with ⟨hre, c, h⟩ | ⟨hre, h⟩
  · simp only [h, srAfter, driven, drivesIrq, hre, if_true]
    exact Left.updateIrq _ _
  · simp only [h, srAfter, driven, drivesIrq, hre, Bool.false_eq_true, if_false]
    exact Left.refl hs

theorem read_left (hs : s.calls = []) (offset : ℕ) (l : List (BitVec 8)) :
    Left s (after s (.event (.read offset l))) (srAfter s (.event (.read offset l))) s.cr
      (driven s (.event (.read offset l))) := by
  by_cases hr : Reg.ofOffset? offset = some .data
  · -- The flag is clear when the backend is invited, so it may hand over a byte.
    have hcan : canReceive { s with sr := s.sr &&& ~~~statRdrf } = true := by
      rw [canReceive, Bits.any_clear_self]
      rfl
    have hafter : after s (.event (.read offset l)) =
        updateIrq (receive { s with sr := s.sr &&& ~~~statRdrf } l) := by
      have haccept := acceptInput_snd { s with sr := s.sr &&& ~~~statRdrf } l
      rw [hcan, if_pos rfl] at haccept
      rw [after, read, hr, ← haccept]
    have hbyte := receive_left (s := { s with sr := s.sr &&& ~~~statRdrf }) hs l
    have hsr : (receive { s with sr := s.sr &&& ~~~statRdrf } l).sr =
        srAfter s (.event (.read offset l)) := by
      rw [hbyte.sr_eq, srAfter, if_pos hr]
      rfl
    have hcr : (receive { s with sr := s.sr &&& ~~~statRdrf } l).cr = s.cr := hbyte.cr_eq
    have hleft := Left.updateIrq s (receive { s with sr := s.sr &&& ~~~statRdrf } l)
    rw [hsr, hcr] at hleft
    rw [hafter]
    simpa [driven, drivesIrq, hr, crAfter] using hleft
  · have hafter : after s (.event (.read offset l)) = s := by
      rw [after, read]
      split <;> first | rfl | contradiction
    rw [hafter, srAfter, if_neg hr, driven, drivesIrq, decide_eq_false hr,
      if_neg Bool.false_ne_true]
    exact Left.refl hs

theorem write_left (hs : s.calls = []) (offset : ℕ) (value : BitVec 32) :
    Left s (write s offset value) (srAfter s (.event (.write offset value)))
      (crAfter s (.event (.write offset value))) (driven s (.event (.write offset value))) := by
  cases hr : Reg.ofOffset? offset with
  | none =>
    simp only [write, srAfter, crAfter, driven, drivesIrq, hr]
    exact Left.refl hs
  | some r =>
    cases r with
    | global =>
      simp only [write, srAfter, crAfter, driven, drivesIrq, hr]
      split_ifs
      · exact Left.updateIrq _ _
      · exact { Left.refl hs with }
    | baud =>
      have hlevels : ∀ speed, (levels (s.calls ++ [.setParams speed])).getLast? = none := by
        rw [hs]
        exact fun _ => rfl
      simp only [write, srAfter, crAfter, driven, drivesIrq, hr]
      exact ⟨rfl, rfl, rfl, hlevels _⟩
    | stat =>
      have hlevels : (levels s.calls).getLast? = none := by rw [hs]; rfl
      simp only [write, srAfter, crAfter, driven, drivesIrq, hr, Bool.false_eq_true, if_false]
      split_ifs <;> exact ⟨rfl, rfl, rfl, hlevels⟩
    | ctrl =>
      simp only [write, srAfter, crAfter, driven, drivesIrq, hr]
      exact Left.updateIrq _ _
    | data =>
      simp only [write, srAfter, crAfter, driven, drivesIrq, hr, decide_eq_true_eq]
      split_ifs
      · exact Left.updateIrq _ _
      · exact Left.refl hs

/-- What a stimulus does to `STAT`, `CTRL` and the interrupt line. -/
theorem after_eq (hs : s.calls = []) (i : Stimulus) :
    Left s (after s i) (srAfter s i) (crAfter s i) (driven s i) := by
  rcases i with (⟨offset, l⟩ | ⟨offset, value⟩ | l | _) | buf
  · exact read_left hs offset l
  · exact write_left hs offset value
  · rw [after, acceptInput_snd]
    cases hcan : canReceive s with
    | true =>
      simp only [srAfter, crAfter, driven, drivesIrq, hcan, Bool.true_and, if_true]
      exact receive_left hs l
    | false =>
      simp only [srAfter, crAfter, driven, drivesIrq, hcan, Bool.false_and, Bool.false_eq_true,
        if_false]
      exact Left.refl hs
  · exact Left.updateIrq _ _
  · exact receive_left hs buf

/-! ## Writes of `STAT` -/

/-- The value that the stimulus writes to `STAT`, if it does. -/
def Stimulus.stat? : Stimulus → Option (BitVec 32)
  | .event (.write offset value) => if Reg.ofOffset? offset = some .stat then some value else none
  | _ => none

theorem after_stat {i : Stimulus} {value : BitVec 32} (h : i.stat? = some value) :
    srAfter s i = (if value ≤ 0x3FF#32 then value ||| statTdre else s.sr &&& value) ∧
      crAfter s i = s.cr ∧ drivesIrq s i = false := by
  rcases i with (⟨offset, l⟩ | ⟨offset, v⟩ | l | _) | buf <;>
    simp only [Stimulus.stat?, reduceCtorEq, Option.ite_none_right_eq_some, Option.some.injEq] at h
  obtain ⟨hr, rfl⟩ := h
  simp only [srAfter, crAfter, drivesIrq, hr, and_self]

/-- Any other stimulus drives the line, or changes neither flags nor enable bits. -/
theorem after_of_not_stat {i : Stimulus} (h : i.stat? = none) :
    drivesIrq s i = true ∨ srAfter s i = s.sr ∧ crAfter s i = s.cr := by
  rw [or_iff_not_imp_left, Bool.not_eq_true]
  intro hquiet
  rcases i with (⟨offset, l⟩ | ⟨offset, value⟩ | l | _) | buf
  · rw [drivesIrq, decide_eq_false_iff_not] at hquiet
    simp only [srAfter, crAfter, if_neg hquiet, and_self]
  · cases hr : Reg.ofOffset? offset with
    | none => simp only [srAfter, crAfter, hr, and_self]
    | some r => cases r <;> simp_all [srAfter, crAfter, drivesIrq, Stimulus.stat?]
  · rw [drivesIrq] at hquiet
    simp only [srAfter, crAfter, hquiet, Bool.false_eq_true, if_false, and_self]
  · exact absurd hquiet (by simp [drivesIrq])
  · rw [drivesIrq] at hquiet
    simp only [srAfter, crAfter, hquiet, Bool.false_eq_true, if_false, and_self]

/-! ## Flags -/

/-- The stimulus resets the device. -/
def Stimulus.resets : Stimulus → Bool
  | .event (.write offset value) =>
    decide (Reg.ofOffset? offset = some .global) && Bits.any value globalRstMask
  | .event .reset => true
  | _ => false

/-- The stimulus writes a character that is sent to the data register. -/
def Stimulus.sends : Stimulus → Bool
  | .event (.write offset value) =>
    decide (Reg.ofOffset? offset = some .data) && decide (value < 0xF000#32)
  | _ => false

/-- Without a write of `STAT`, a flag other than `RDRF` changes only in a reset, or if it is
    one of those set when a character is sent. -/
theorem any_srAfter_of_not_stat {i : Stimulus} {m : BitVec 32} (h : i.stat? = none)
    (hm : statRdrf &&& m = 0#32) :
    Bits.any (srAfter s i) m = if i.resets then Bits.any statReset m
      else Bits.any s.sr m || (i.sends && Bits.any statTdre m) := by
  have hclear : Bits.any (s.sr &&& ~~~statRdrf) m = Bits.any s.sr m := Bits.any_clear_of_disjoint hm
  have hrdrf : Bits.any statRdrf m = false := (Bits.any_eq_false_iff _ _).2 hm
  rcases i with (⟨offset, l⟩ | ⟨offset, value⟩ | l | _) | buf
  · simp only [srAfter, Stimulus.resets, Stimulus.sends, Bool.false_eq_true, if_false,
      Bool.false_and, Bool.or_false]
    split_ifs <;> simp [hclear, hrdrf]
  · cases hr : Reg.ofOffset? offset with
    | none => simp [srAfter, Stimulus.resets, Stimulus.sends, hr]
    | some r =>
      cases r with
      | stat => simp [Stimulus.stat?, hr] at h
      | global =>
        cases hrst : Bits.any value globalRstMask <;>
          simp [srAfter, Stimulus.resets, Stimulus.sends, hr, hrst]
      | data =>
        by_cases hsend : value < 0xF000#32 <;>
          simp [srAfter, Stimulus.resets, Stimulus.sends, hr, hsend]
      | _ => simp [srAfter, Stimulus.resets, Stimulus.sends, hr]
  · simp only [srAfter, Stimulus.resets, Stimulus.sends, Bool.false_eq_true, if_false,
      Bool.false_and, Bool.or_false]
    split_ifs <;> simp [hrdrf]
  · rfl
  · simp only [srAfter, Stimulus.resets, Stimulus.sends, Bool.false_eq_true, if_false,
      Bool.false_and, Bool.or_false]
    split_ifs <;> simp [hrdrf]

/-- A small value has no flag of the upper bits. -/
theorem any_of_small {value m : BitVec 32} (h : value ≤ 0x3FF#32) (hm : 0x3FF#32 &&& m = 0#32) :
    Bits.any value m = false := by
  have hlow : value &&& 0x3FF#32 = value := Bits.and_eq_self_of_lt (k := 10) (by decide) (by
    have : value.toNat ≤ 0x3FF := h
    omega)
  rw [Bits.any_eq_false_iff, ← hlow, BitVec.and_assoc, hm, BitVec.and_zero]

/-- Any stimulus but a write of `STAT` leaves `TDRE` set. -/
theorem tdre_of_not_stat {i : Stimulus} (h : i.stat? = none)
    (hs : Bits.any s.sr statTdre = true) : Bits.any (srAfter s i) statTdre = true := by
  have hreset : Bits.any statReset statTdre = true := by decide
  rw [any_srAfter_of_not_stat h (by decide), hs, hreset, Bool.true_or, ite_self]

/-! ## The interrupt line -/

/-- The level last driven on the interrupt line is the one it should have. -/
def Coherent (s : State) : Prop := s.irq = irqLevel s.sr s.cr

instance : DecidablePred Coherent := fun _ => inferInstanceAs (Decidable (_ = _))

/-- The stimulus leaves the line right, if it is before. Only a write of `STAT` may not.
    A small value leaves `TDRE` as the only flag; another one clears flags, and has to
    leave one that is enabled, if the line is up. -/
def KeepsIrq (s : State) (i : Stimulus) : Prop :=
  ∀ value ∈ i.stat?, if value ≤ 0x3FF#32 then s.irq = Bits.any s.cr ctrlTie
    else s.irq = true → irqLevel (s.sr &&& value) s.cr = true

theorem irqLevel_small {value : BitVec 32} (h : value ≤ 0x3FF#32) (cr : BitVec 32) :
    irqLevel (value ||| statTdre) cr = Bits.any cr ctrlTie := by
  have hnone : value &&& (ctrlTie ||| ctrlTcie ||| ctrlRie) = 0#32 :=
    (Bits.any_eq_false_iff _ _).1 (any_of_small h (by decide))
  have htdre : statTdre &&& (ctrlTie ||| ctrlTcie ||| ctrlRie) = ctrlTie := by decide
  rw [irqLevel, Bits.any, Bits.any, BitVec.and_assoc, BitVec.and_comm cr, ← BitVec.and_assoc,
    BitVec.and_or_distrib_right, hnone, htdre, BitVec.zero_or, BitVec.and_comm]

/-- Clearing flags does not raise the line. -/
theorem irqLevel_of_and {sr value cr : BitVec 32} (h : irqLevel (sr &&& value) cr = true) :
    irqLevel sr cr = true := by
  rw [irqLevel, BitVec.and_assoc, BitVec.and_comm value, ← BitVec.and_assoc] at h
  exact Bits.any_of_any_clear h

theorem coherent_after (hs : s.calls = []) (i : Stimulus) : Coherent (after s i) ↔
    (driven s i).getD s.irq = irqLevel (srAfter s i) (crAfter s i) := by
  have hleft := after_eq hs i
  rw [Coherent, hleft.irq_eq, hleft.sr_eq, hleft.cr_eq]

theorem coherent_of_drivesIrq (hs : s.calls = []) {i : Stimulus} (h : drivesIrq s i = true) :
    Coherent (after s i) := by
  rw [coherent_after hs, driven, if_pos h]
  rfl

theorem coherent_after_iff (hs : s.calls = []) (hp : Coherent s) (i : Stimulus) :
    Coherent (after s i) ↔ KeepsIrq s i := by
  cases hstat : i.stat? with
  | none =>
    refine iff_of_true ?_ (by simp [KeepsIrq, hstat])
    rcases after_of_not_stat (s := s) hstat with hdrives | ⟨hsr, hcr⟩
    · exact coherent_of_drivesIrq hs hdrives
    · rw [coherent_after hs, driven, hsr, hcr, ← hp]
      split_ifs <;> rfl
  | some value =>
    obtain ⟨hsr, hcr, hquiet⟩ := after_stat (s := s) hstat
    have hkeeps : KeepsIrq s i ↔ if value ≤ 0x3FF#32 then s.irq = Bits.any s.cr ctrlTie
        else s.irq = true → irqLevel (s.sr &&& value) s.cr = true := by
      simp [KeepsIrq, hstat]
    rw [hkeeps, coherent_after hs, driven, hsr, hcr, hquiet, if_neg Bool.false_ne_true,
      Option.getD_none]
    split_ifs with hsmall
    · rw [irqLevel_small hsmall]
    · -- The line, if it is down, stays so.
      rw [Bool.eq_iff_iff]
      exact ⟨fun h => h.1, fun h => ⟨h, fun hup => hp.trans (irqLevel_of_and hup)⟩⟩

/-- In a run, `calls` is empty between stimuli. -/
theorem calls_of_takes {τ : Mealy.Transition State Stimulus Reply} (h : Mealy.Takes stimulate τ) :
    τ.post.calls = [] := by
  rw [(post_of_takes h).2]

theorem sr_of_takes {τ : Mealy.Transition State Stimulus Reply} (h : Mealy.Takes stimulate τ)
    (hs : τ.pre.calls = []) : τ.post.sr = srAfter τ.pre τ.input := by
  rw [(post_of_takes h).2]
  exact (after_eq hs τ.input).sr_eq

theorem calls_of_run {is : List Stimulus} {h : List (Mealy.Transition State Stimulus Reply)}
    (hr : runStimuli s is = .ok (h, t)) (hs : s.calls = []) : ∀ τ ∈ h, τ.pre.calls = [] := by
  have hinv := Mealy.run_invariant (I := fun s => s.calls = []) hr hs
    fun _ _ htake _ => calls_of_takes htake
  exact fun τ hτ => (hinv.2 τ hτ).1

/-- **Coherence of the interrupt line.** In a run from power on, on any stimuli, the line
    is right after every one of them exactly when every one keeps it so. -/
theorem run_irq_coherent_iff (hz : ℕ) (is : List Stimulus) :
    ∃ h t, runStimuli (atPowerOn hz) is = .ok (h, t) ∧
      ((∀ τ ∈ h, Coherent τ.post) ↔ ∀ τ ∈ h, KeepsIrq τ.pre τ.input) := by
  obtain ⟨h, t, hr⟩ := runStimuli_ok (atPowerOn hz) is
  refine ⟨h, t, hr, Mealy.run_forall_iff (I := fun s => s.calls = []) hr rfl rfl
    (fun τ _ htake _ => calls_of_takes htake) ?_⟩
  intro τ _ htake hcalls hp
  rw [(post_of_takes htake).2]
  exact coherent_after_iff hcalls hp τ.input

/-- With the interrupt of `TC` enabled, writing zero to `STAT` clears the flag, but the
    line stays up. With that of `TDRE` enabled and the flag cleared, it sets the flag, but
    the line stays down. -/
theorem run_irq_stuck :
    (∃ h t, runStimuli (atPowerOn 80000000) [.event (.write 0x18 ctrlTcie),
        .event (.write 0x14 0#32)] = .ok (h, t) ∧
      t.irq = true ∧ irqLevel t.sr t.cr = false ∧ ¬Coherent t) ∧
    ∃ h t, runStimuli (atPowerOn 80000000) [.event (.write 0x14 0x400#32),
        .event (.write 0x18 ctrlTie), .event (.write 0x14 0#32)] = .ok (h, t) ∧
      t.irq = false ∧ irqLevel t.sr t.cr = true ∧ ¬Coherent t :=
  ⟨⟨_, _, rfl, rfl, by decide, by decide⟩, _, _, rfl, rfl, by decide, by decide⟩

/-! ## The transmitter -/

/-- The stimulus leaves `TDRE` set, if it is: it does not write a large value without
    that bit to `STAT`. -/
def KeepsTdre (i : Stimulus) : Prop :=
  ∀ value ∈ i.stat?, 0x3FF#32 < value → Bits.any value statTdre = true

theorem tdre_after_iff (hp : Bits.any s.sr statTdre = true) (i : Stimulus) :
    Bits.any (srAfter s i) statTdre = true ↔ KeepsTdre i := by
  cases hstat : i.stat? with
  | none => exact iff_of_true (tdre_of_not_stat hstat hp) (by simp [KeepsTdre, hstat])
  | some value =>
    have hkeeps : KeepsTdre i ↔ (0x3FF#32 < value → Bits.any value statTdre = true) := by
      simp [KeepsTdre, hstat]
    rw [hkeeps, (after_stat (s := s) hstat).1]
    by_cases hsmall : value ≤ 0x3FF#32
    · have htdre : Bits.any statTdre statTdre = true := by decide
      rw [if_pos hsmall, Bits.any_or_left, htdre, Bool.or_true]
      exact iff_of_true rfl fun hlarge => absurd hsmall (BitVec.not_le.2 hlarge)
    · rw [if_neg hsmall, statTdre, Bits.any_and_left _ _ (by decide), ← statTdre, hp,
        Bool.true_and, imp_iff_right (BitVec.not_le.1 hsmall)]

/-- **The transmitter is ready.** In a run from power on, on any stimuli, `TDRE` is set
    after every one of them exactly when every one keeps it so; and then every read of
    `STAT` finds it set. -/
theorem run_tdre_iff (hz : ℕ) (is : List Stimulus) :
    ∃ h t, runStimuli (atPowerOn hz) is = .ok (h, t) ∧
      ((∀ τ ∈ h, Bits.any τ.post.sr statTdre = true) ↔ ∀ τ ∈ h, KeepsTdre τ.input) ∧
      ((∀ τ ∈ h, KeepsTdre τ.input) → ∀ τ ∈ h, ∀ offset l,
        τ.input = .event (.read offset l) → Reg.ofOffset? offset = some .stat →
          Bits.any (τ.output.value.getD 0#32) statTdre = true) := by
  obtain ⟨h, t, hr⟩ := runStimuli_ok (atPowerOn hz) is
  have hp₀ : Bits.any (atPowerOn hz).sr statTdre = true := by
    change Bits.any statReset statTdre = true
    decide
  have hexact : ∀ τ ∈ h, Bits.any τ.pre.sr statTdre = true →
      (Bits.any τ.post.sr statTdre = true ↔ KeepsTdre τ.input) := by
    intro τ hτ hp
    rw [sr_of_takes (Mealy.run_takes hr τ hτ).1 (calls_of_run hr rfl τ hτ)]
    exact tdre_after_iff hp τ.input
  have hiff : (∀ τ ∈ h, Bits.any τ.post.sr statTdre = true) ↔ ∀ τ ∈ h, KeepsTdre τ.input :=
    Mealy.run_forall_iff (I := fun _ => True) (P := fun s : State => Bits.any s.sr statTdre = true)
      (C := fun _ i => KeepsTdre i) hr trivial hp₀ (fun _ _ _ _ => trivial)
      fun τ hτ _ _ => hexact τ hτ
  refine ⟨h, t, hr, hiff, fun hkeeps => ?_⟩
  have hinv := Mealy.run_invariant (I := fun s : State => Bits.any s.sr statTdre = true) hr hp₀
    fun τ hτ _ _ => hiff.2 hkeeps τ hτ
  intro τ hτ offset l hread hr'
  have hvalue : τ.output.value = some τ.pre.sr := by
    rw [(post_of_takes (Mealy.run_takes hr τ hτ).1).1, hread, result, read, hr']
  rw [hvalue]
  exact (hinv.2 τ hτ).1

/-- `LPUART_FEATURE_STAT_REG_FLAGS_MASK`, that the driver writes to `STAT` first. -/
def statRegFlagsMask : BitVec 32 := 0xC01FC000#32

/-- After the driver's first write of `STAT`, the flag is clear, and a guest that reads
    `STAT` until it is set does so forever. -/
theorem run_tdre_cleared : ∃ h t, runStimuli (atPowerOn 80000000)
    [.event (.write 0x10 0x0F000004#32), .event (.write 0x14 statRegFlagsMask)] = .ok (h, t) ∧
    Bits.any t.sr statTdre = false ∧
    ∀ l, stimulate t (.event (.read 0x14 l)) = .ok (⟨some t.sr, [], []⟩, t) :=
  ⟨_, _, rfl, by decide, fun _ => rfl⟩

end S32K358.Lpuart
