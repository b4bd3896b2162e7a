import S32K358.Lpuart.Interrupt

/-!
# The LPUART: the character backend

The device calls its character backend to send a character and to set the speed of the
serial line. Only two kinds of stimuli make it do so, writes of the data register and
of `BAUD`; what each stimulus tells the backend is said once, in `after_tells`.

The backend keeps the speed it was given last, and once the guest has written `BAUD`
this should be the one that the register stands for (`speedOf`). What the backend has
(`Line`) is followed through a run as a ghost variable, made from the calls.

A reset also changes the register, but tells the backend nothing.
`run_speed_iff`: the speed follows the register in exactly those runs where a reset,
once `BAUD` has been written, finds it with a value for the same speed as its reset
value, and where every value written is for a speed below `2 ^ 31`, as it is passed as
an `int`.
-/

namespace S32K358.Lpuart

variable {s t : State} {baud : BitVec 32} {l : List Call}

/-! ## Calls of the backend -/

def Call.isBackend : Call → Bool
  | .setIrq _ => false
  | .setParams _ => true
  | .writeAll _ => true

/-- The calls of the character backend among some calls. -/
def toBackend (l : List Call) : List Call := l.filter Call.isBackend

/-- A speed, as it is passed to the backend: as an `int`. -/
def passed (speed : ℕ) : ℤ := (BitVec.ofNat 32 speed).toInt

/-- The calls of the character backend that a stimulus makes. -/
def backendCalls (s : State) : Stimulus → List Call
  | .event (.write offset value) =>
    match Reg.ofOffset? offset with
    | some .baud => [.setParams (passed (calculateBaudRate { s with baudRateConfig := value }))]
    | some .data => if value < 0xF000#32 then [.writeAll (value.setWidth 8)] else []
    | _ => []
  | _ => []

/-- The value that the stimulus writes to `BAUD`, if it does. -/
def Stimulus.baud? : Stimulus → Option (BitVec 32)
  | .event (.write offset value) => if Reg.ofOffset? offset = some .baud then some value else none
  | _ => none

/-- `BAUD` after a stimulus. -/
def baudAfter (s : State) (i : Stimulus) : BitVec 32 :=
  if i.resets then baudReset else i.baud?.getD s.baudRateConfig

/-- From `s` to `t`, the clock stays, `BAUD` gets a value, and the backend some calls. -/
structure Tells (s t : State) (baud : BitVec 32) (l : List Call) : Prop where
  clk_eq : t.clk = s.clk
  baud_eq : t.baudRateConfig = baud
  calls_eq : toBackend t.calls = toBackend s.calls ++ l

theorem Tells.refl (s : State) : Tells s s s.baudRateConfig [] :=
  ⟨rfl, rfl, (List.append_nil _).symm⟩

theorem Tells.updateIrq (h : Tells s t baud l) : Tells s (updateIrq t) baud l := by
  refine ⟨h.clk_eq, h.baud_eq, ?_⟩
  rw [Lpuart.updateIrq, toBackend, List.filter_append, ← h.calls_eq]
  exact List.append_nil _

theorem Tells.receive (h : Tells s t baud l) (buf : List (BitVec 8)) :
    Tells s (receive t buf) baud l := by
  rcases receive_eq t buf with ⟨-, c, heq⟩ | ⟨-, heq⟩
  · have hset : Tells s { t with dr := c, sr := t.sr ||| statRdrf } baud l := { h with }
    rw [heq]
    exact hset.updateIrq
  · rw [heq]
    exact h

theorem Tells.acceptInput (h : Tells s t baud l) (buf : List (BitVec 8)) :
    Tells s (acceptInput t buf).2 baud l := by
  rw [acceptInput_snd]
  split_ifs
  · exact h.receive buf
  · exact h

theorem read_tells (s : State) (offset : ℕ) (buf : List (BitVec 8)) :
    Tells s (read s offset buf).2.2 s.baudRateConfig [] := by
  have hclear : Tells s { s with sr := s.sr &&& ~~~statRdrf } s.baudRateConfig [] :=
    { Tells.refl s with }
  rw [read]
  split
  case h_5 => exact (hclear.acceptInput buf).updateIrq
  all_goals exact .refl s

theorem write_tells (s : State) (offset : ℕ) (value : BitVec 32) :
    Tells s (write s offset value) (baudAfter s (.event (.write offset value)))
      (backendCalls s (.event (.write offset value))) := by
  have hrefl := Tells.refl s
  cases hr : Reg.ofOffset? offset with
  | none =>
    simp only [write, backendCalls, baudAfter, Stimulus.resets, Stimulus.baud?, hr]
    exact hrefl
  | some r =>
    cases r <;> simp only [write, backendCalls, baudAfter, Stimulus.resets, Stimulus.baud?, hr,
      Option.some.injEq, reduceCtorEq, decide_true, decide_false, Bool.true_and, Bool.false_and,
      Bool.false_eq_true, if_true, if_false]
    case global =>
      split_ifs
      · exact Tells.updateIrq ⟨rfl, rfl, hrefl.calls_eq⟩
      · exact { hrefl with }
    case baud => exact ⟨rfl, rfl, List.filter_append _ _⟩
    case stat => split_ifs <;> exact { hrefl with }
    case ctrl =>
      have hset : Tells s { s with cr := value } s.baudRateConfig [] := { hrefl with }
      exact hset.updateIrq
    case data =>
      split_ifs
      · exact Tells.updateIrq ⟨rfl, rfl, List.filter_append _ _⟩
      · exact hrefl

/-- What a stimulus does to `BAUD`, and tells the backend. -/
theorem after_tells (s : State) (i : Stimulus) :
    Tells s (after s i) (baudAfter s i) (backendCalls s i) := by
  have hrefl := Tells.refl s
  rcases i with (⟨offset, buf⟩ | ⟨offset, value⟩ | buf | _) | buf
  · exact read_tells s offset buf
  · exact write_tells s offset value
  · exact hrefl.acceptInput buf
  · exact Tells.updateIrq ⟨rfl, rfl, hrefl.calls_eq⟩
  · exact hrefl.receive buf

theorem toBackend_after (hs : s.calls = []) (i : Stimulus) :
    toBackend (after s i).calls = backendCalls s i := by
  rw [(after_tells s i).calls_eq, hs]
  rfl

/-! ## The speed -/

/-- The speed that a value of `BAUD` stands for: the clock divided by `(OSR + 1) * SBR`,
    and zero if `SBR` is. -/
def speedOf (hz : ℕ) (baud : BitVec 32) : ℕ :=
  let sbr := (baud.extractLsb' 0 13).toNat
  let osr := (baud.extractLsb' 24 5).toNat
  if sbr = 0 then 0 else hz / ((osr + 1) * sbr)

/-- The device calculates this speed, in 32 bits. -/
theorem calculateBaudRate_eq (s : State) :
    calculateBaudRate s = speedOf s.clk s.baudRateConfig % 2 ^ 32 := by
  have hsbr : ((s.baudRateConfig &&& baudSbrMask) >>> baudSbrShift).toNat =
      (s.baudRateConfig.extractLsb' 0 13).toNat := Bits.toNat_field_eq (by decide) _
  have hosr : ((s.baudRateConfig &&& baudOsrMask) >>> baudOsrShift).toNat =
      (s.baudRateConfig.extractLsb' 24 5).toNat := Bits.toNat_field_eq (by decide) _
  simp only [calculateBaudRate, speedOf, hsbr, hosr, Nat.mul_eq_zero, Nat.succ_ne_zero, false_or]
  split_ifs <;> rfl

theorem passed_eq_iff (speed : ℕ) : passed speed = speed ↔ speed < 2 ^ 31 := by
  rw [passed, BitVec.toInt_eq_toNat_cond, BitVec.toNat_ofNat]
  split_ifs <;> omega

theorem passed_calculateBaudRate (s : State) :
    passed (calculateBaudRate s) = passed (speedOf s.clk s.baudRateConfig) := by
  have hmod : ∀ n, BitVec.ofNat 32 (n % 2 ^ 32) = BitVec.ofNat 32 n := by
    intro n
    apply BitVec.eq_of_toNat_eq
    rw [BitVec.toNat_ofNat, BitVec.toNat_ofNat, Nat.mod_mod]
  rw [calculateBaudRate_eq, passed, hmod, passed]

def Call.speed? : Call → Option ℤ
  | .setParams speed => some speed
  | _ => none

/-- The speeds that some calls set. -/
def speeds (l : List Call) : List ℤ := l.filterMap Call.speed?

/-- Only a write of `BAUD` sets a speed. -/
theorem speeds_after (hs : s.calls = []) (i : Stimulus) :
    speeds (after s i).calls = (i.baud?.map fun value => passed (speedOf s.clk value)).toList := by
  have hbackend : ∀ l, speeds l = speeds (toBackend l) := by
    intro l
    rw [speeds, speeds, toBackend, List.filterMap_filter]
    congr 1
    funext c
    cases c <;> rfl
  rw [hbackend, toBackend_after hs]
  rcases i with (_ | ⟨offset, value⟩ | _ | _) | _
  case event.write =>
    cases hr : Reg.ofOffset? offset with
    | none => simp [backendCalls, Stimulus.baud?, speeds, hr]
    | some r =>
      cases r with
      | baud =>
        have hpassed := passed_calculateBaudRate { s with baudRateConfig := value }
        simp only [backendCalls, Stimulus.baud?, hr, hpassed]
        rfl
      | data =>
        simp only [backendCalls, Stimulus.baud?, hr, Option.some.injEq, reduceCtorEq, if_false]
        split_ifs <;> rfl
      | _ => simp [backendCalls, Stimulus.baud?, speeds, hr]
  all_goals rfl

/-- What the backend has been told. -/
structure Line where
  /-- The guest has written `BAUD`. -/
  written : Bool
  /-- The speed last set. -/
  speed : Option ℤ
  deriving DecidableEq, Repr

/-- What the backend has been told, after a transition. -/
def lineAfter (g : Line) (τ : Mealy.Transition State Stimulus Reply) : Line where
  written := g.written || τ.input.baud?.isSome
  speed := (speeds τ.output.calls).getLast?.or g.speed

/-- Once the guest has written `BAUD`, the speed is the one for what it reads there. -/
def Follows (g : Line) (s : State) : Prop :=
  g.written = true → ∀ buf, g.speed = some (speedOf s.clk (read s 0x10 buf).1 : ℤ)

/-- The stimulus leaves the speed right, if it is before: a value written to `BAUD` is for a
    speed that an `int` can hold, and a reset finds, once this register has been written, a
    value for the same speed as the reset value. -/
def KeepsSpeed (written : Bool) (s : State) (i : Stimulus) : Prop :=
  (∀ value ∈ i.baud?, speedOf s.clk value < 2 ^ 31) ∧
    (i.resets = true → written = true →
      speedOf s.clk s.baudRateConfig = speedOf s.clk baudReset)

theorem follows_iff {g : Line} :
    Follows g s ↔ (g.written = true → g.speed = some (speedOf s.clk s.baudRateConfig : ℤ)) := by
  have hread : ∀ buf, (read s 0x10 buf).1 = s.baudRateConfig := fun _ => rfl
  simp only [Follows, hread, forall_const]

theorem resets_of_baud {i : Stimulus} {value : BitVec 32} (h : i.baud? = some value) :
    i.resets = false := by
  rcases i with (_ | ⟨offset, v⟩ | _ | _) | _ <;>
    simp only [Stimulus.baud?, reduceCtorEq, Option.ite_none_right_eq_some] at h
  rw [Stimulus.resets, h.1]
  rfl

theorem follows_after_iff {g : Line} {τ : Mealy.Transition State Stimulus Reply}
    (htake : Mealy.Takes stimulate τ) (hcalls : τ.pre.calls = []) (hp : Follows g τ.pre) :
    Follows (lineAfter g τ) τ.post ↔ KeepsSpeed g.written τ.pre τ.input := by
  have htells := after_tells τ.pre τ.input
  have hclk : τ.post.clk = τ.pre.clk := by
    rw [(post_of_takes htake).2]
    exact htells.clk_eq
  have hbaud : τ.post.baudRateConfig = baudAfter τ.pre τ.input := by
    rw [(post_of_takes htake).2]
    exact htells.baud_eq
  have hspeed : (lineAfter g τ).speed =
      (τ.input.baud?.map fun value => passed (speedOf τ.pre.clk value)).or g.speed := by
    rw [lineAfter, (post_of_takes htake).1, speeds_after hcalls]
    cases τ.input.baud? <;> rfl
  rw [follows_iff] at hp ⊢
  rw [hspeed, hclk, hbaud, KeepsSpeed, baudAfter, lineAfter]
  cases hvalue : τ.input.baud? with
  | some value =>
    -- The speed is told, as far as it fits.
    rw [resets_of_baud hvalue]
    simp [passed_eq_iff]
  | none =>
    cases hresets : τ.input.resets with
    | true =>
      -- It is not, and has to be right already.
      have hreset : (g.written = true → g.speed = some (speedOf τ.pre.clk baudReset : ℤ)) ↔
          (g.written = true →
            speedOf τ.pre.clk τ.pre.baudRateConfig = speedOf τ.pre.clk baudReset) := by
        refine forall_congr' fun hwritten => ?_
        rw [hp hwritten, Option.some.injEq, Nat.cast_inj]
      simpa using hreset
    | false => simpa using hp

/-! ## Whole runs -/

/-- **The speed of the line.** In a run from power on, on any stimuli, the backend has the
    speed for what `BAUD` reads, at any time after the guest has written it, exactly when
    every stimulus keeps it so. -/
theorem run_speed_iff (hz : ℕ) (is : List Stimulus) :
    ∃ h t, runStimuli (atPowerOn hz) is = .ok (h, t) ∧
      (Mealy.Along lineAfter (fun g τ => Follows (lineAfter g τ) τ.post) ⟨false, none⟩ h ↔
        Mealy.Along lineAfter (fun g τ => KeepsSpeed g.written τ.pre τ.input)
          ⟨false, none⟩ h) := by
  obtain ⟨h, t, hr⟩ := runStimuli_ok (atPowerOn hz) is
  refine ⟨h, t, hr, Mealy.run_along_exact_of_invariant (I := fun _ s => s.calls = []) hr rfl
    (fun hwritten => absurd hwritten Bool.false_ne_true)
    (fun _ τ _ htake _ => calls_of_takes htake) ?_⟩
  intro g τ _ htake hcalls hp
  exact follows_after_iff htake hcalls hp

/-- The guest writes `BAUD`, for 116279 baud, and resets the device: `BAUD` then reads as
    1250000 baud, but the backend still has the old speed. -/
theorem run_speed_stale : ∃ h t, runStimuli (atPowerOn 80000000)
    [.event (.write 0x10 0x0F00002B#32), .event (.write 0x08 0x2#32)] = .ok (h, t) ∧
    (h.foldl lineAfter ⟨false, none⟩).speed = some 116279 ∧
    (read t 0x10 []).1 = 0x0F000004#32 ∧ speedOf t.clk 0x0F000004#32 = 1250000 ∧
    ¬Mealy.Along lineAfter (fun g τ => Follows (lineAfter g τ) τ.post) ⟨false, none⟩ h := by
  refine ⟨_, _, rfl, by decide, rfl, rfl, ?_⟩
  rintro ⟨-, hfollows, -⟩
  exact absurd (hfollows rfl []) (by decide)

end S32K358.Lpuart
