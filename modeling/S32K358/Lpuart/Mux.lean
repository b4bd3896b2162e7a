import S32K358.Lpuart.Receive

/-!
# The LPUART on a multiplexer

The multiplexer of `char-mux.c` is a character backend with a buffer: a byte
typed on the console goes to the device, or waits in the buffer while the
device cannot receive, or is left to the console while the buffer is full. Here
it is the backend of an LPUART, which has its focus; the escape sequences of
the console are left out.

The multiplexer hands over bytes as the model of the LPUART has it:
`step_uart` simulates the pair of them by the LPUART alone, with polls and
invited bytes taken from the buffer, without losing or reordering what is typed
(`run_buffers`). So the disturbed reads of `S32K358.Lpuart.Receive` do happen.
-/

namespace S32K358.Lpuart.Mux

/-- `MUX_BUFFER_SIZE`. -/
def muxBufferSize : ℕ := 32

/-- An LPUART on a multiplexer, with the bytes of its buffer from `cons` to `prod`. -/
structure Console where
  uart : State
  buffer : List (BitVec 8)

/-- `mux_chr_can_read`. -/
def canRead (m : Console) : Bool := decide (m.buffer.length < muxBufferSize) || canReceive m.uart

/-- `mux_chr_accept_input`: the bytes handed over, the device and what is left of
    the buffer. -/
def muxAcceptInput (s : State) : List (BitVec 8) → List (BitVec 8) × Console
  | [] => ([], ⟨s, []⟩)
  | c :: l =>
    if canReceive s then
      let (d, m) := muxAcceptInput (receive s [c]) l
      (c :: d, m)
    else ([], ⟨s, c :: l⟩)

/-- `mux_chr_read`, of one byte that is not part of an escape sequence. -/
def chrRead (m : Console) (c : BitVec 8) : List (BitVec 8) × Console :=
  -- Those in the buffer go first, and only once it is empty may the byte bypass it.
  let (d, m) := muxAcceptInput m.uart m.buffer
  if m.buffer.isEmpty && canReceive m.uart then
    (d ++ [c], { m with uart := receive m.uart [c] })
  else (d, { m with buffer := m.buffer ++ [c] })

/-- What happens to the pair. -/
inductive Event
  /-- A byte is typed on the console. -/
  | type (c : BitVec 8)
  /-- The guest reads a register. -/
  | read (offset : ℕ)
  /-- The guest writes a register. -/
  | write (offset : ℕ) (value : BitVec 32)
  deriving DecidableEq, Repr

/-- The event of the device that an event of the pair is: the multiplexer polls
    when a byte is typed, and is invited with the bytes of its buffer. -/
def Event.toUart (m : Console) : Event → Lpuart.Event
  | .type c => .poll (if canRead m then m.buffer ++ [c] else [])
  | .read offset => .read offset m.buffer
  | .write offset value => .write offset value

/-- The byte an event takes from the console. -/
def Event.typed (m : Console) : Event → List (BitVec 8)
  | .type c => if canRead m then [c] else []
  | .read _ | .write _ _ => []

/-- The pair, as a machine. A byte is typed only when the multiplexer can read it;
    the guest's reads invite it by `qemu_chr_fe_accept_input`. -/
def step (m : Console) (e : Event) : Except Empty (Reply × Console) :=
  match e with
  | .type c =>
    let (d, m) := if canRead m then chrRead m c else ([], m)
    .ok (⟨none, d, m.uart.calls⟩, { m with uart := { m.uart with calls := [] } })
  | .read offset =>
    let (v, d, s) := read m.uart offset m.buffer
    .ok (⟨some v, d, s.calls⟩, ⟨{ s with calls := [] }, m.buffer.drop d.length⟩)
  | .write offset value =>
    let s := write m.uart offset value
    .ok (⟨none, [], s.calls⟩, { m with uart := { s with calls := [] } })

/-! ## The multiplexer as a backend -/

/-- The loop of the multiplexer is the invitation of the device. -/
theorem muxAcceptInput_eq (s : State) (l : List (BitVec 8)) :
    muxAcceptInput s l =
      ((acceptInput s l).1, ⟨(acceptInput s l).2, l.drop (acceptInput s l).1.length⟩) := by
  induction l generalizing s with
  | nil => rfl
  | cons c l ih =>
    rw [muxAcceptInput, acceptInput]
    split
    · rw [ih]
      rfl
    · rfl

/-- The bytes handed over are the first ones. -/
theorem acceptInput_take (s : State) (l : List (BitVec 8)) :
    l = (acceptInput s l).1 ++ l.drop (acceptInput s l).1.length := by
  induction l generalizing s with
  | nil => rfl
  | cons c l ih =>
    rw [acceptInput]
    split
    · exact congrArg (c :: ·) (ih _)
    · rfl

theorem length_acceptInput_le (s : State) (l : List (BitVec 8)) :
    (acceptInput s l).1.length ≤ l.length := by
  conv_rhs => rw [acceptInput_take s l, List.length_append]
  exact Nat.le_add_right _ _

theorem acceptInput_append (s : State) (l : List (BitVec 8)) (c : BitVec 8) :
    acceptInput s (l ++ [c]) =
      if (acceptInput s l).1.length = l.length ∧ canReceive (acceptInput s l).2 = true then
        ((acceptInput s l).1 ++ [c], receive (acceptInput s l).2 [c])
      else acceptInput s l := by
  induction l generalizing s with
  | nil =>
    simp only [List.nil_append, acceptInput, List.length_nil, true_and]
  | cons b l ih =>
    rw [List.cons_append, acceptInput, acceptInput]
    by_cases hcan : canReceive s = true
    · -- The first byte is handed over on both sides.
      rw [if_pos hcan, if_pos hcan, ih]
      simp only [List.length_cons, Nat.add_right_cancel_iff]
      split <;> rfl
    · rw [if_neg hcan, if_neg hcan, if_neg]
      simp

/-- A byte typed is handed over after those in the buffer, or waits in it. -/
theorem chrRead_eq (m : Console) (c : BitVec 8) :
    chrRead m c = ((acceptInput m.uart (m.buffer ++ [c])).1,
      ⟨(acceptInput m.uart (m.buffer ++ [c])).2,
        (m.buffer ++ [c]).drop (acceptInput m.uart (m.buffer ++ [c])).1.length⟩) := by
  have hle := length_acceptInput_le m.uart m.buffer
  rw [chrRead, muxAcceptInput_eq, acceptInput_append]
  dsimp only
  by_cases hall : (acceptInput m.uart m.buffer).1.length = m.buffer.length
  · cases hcan : canReceive (acceptInput m.uart m.buffer).2 <;> simp [hall]
  · have hne : (m.buffer.drop (acceptInput m.uart m.buffer).1.length).isEmpty = false := by
      rw [List.isEmpty_eq_false_iff, Ne, List.drop_eq_nil_iff]
      omega
    simp [hall, hne, List.drop_append_of_le_length hle]

theorem read_take (s : State) (offset : ℕ) (l : List (BitVec 8)) :
    l = (read s offset l).2.1 ++ l.drop (read s offset l).2.1.length := by
  rw [read]
  cases Reg.ofOffset? offset with
  | none => rfl
  | some r =>
    cases r with
    | data => exact acceptInput_take { s with sr := s.sr &&& ~~~statRdrf } l
    | global | baud | stat | ctrl => rfl

/-- An event of the pair is one of the device, and the bytes handed over are the
    first ones of the buffer, behind which the byte typed is queued. -/
theorem step_uart {m m' : Console} {e : Event} {r : Reply} (h : step m e = .ok (r, m')) :
    Lpuart.step m.uart (e.toUart m) = .ok (r, m'.uart) ∧
      m.buffer ++ e.typed m = r.delivered ++ m'.buffer := by
  cases e with
  | type c =>
    cases hread : canRead m with
    | true =>
      obtain ⟨rfl, rfl⟩ : _ ∧ _ := by simpa [step, hread, chrRead_eq] using h
      refine ⟨by simp [Event.toUart, Lpuart.step, hread], ?_⟩
      simp only [Event.typed, hread, if_true]
      exact acceptInput_take m.uart (m.buffer ++ [c])
    | false =>
      obtain ⟨rfl, rfl⟩ : _ ∧ _ := by simpa [step, hread] using h
      exact ⟨by simp [Event.toUart, Lpuart.step, hread, acceptInput], by simp [Event.typed, hread]⟩
  | read offset =>
    obtain ⟨rfl, rfl⟩ : _ ∧ _ := by simpa [step] using h
    exact ⟨rfl, (List.append_nil _).trans (read_take m.uart offset m.buffer)⟩
  | write offset value =>
    obtain ⟨rfl, rfl⟩ : _ ∧ _ := by simpa [step] using h
    exact ⟨rfl, by simp [Event.typed]⟩

/-- In a run of the pair, the device runs on its own, with the bytes handed over by
    the multiplexer: those typed, in order, but for the ones left in the buffer. -/
theorem run_buffers {m t : Console} {es : List Event}
    {h : List (Mealy.Transition Console Event Reply)} (hr : Mealy.run step m es = .ok (h, t)) :
    Lpuart.run m.uart (h.map fun τ => τ.input.toUart τ.pre) =
        .ok (h.map (Mealy.Transition.map Console.uart fun m e => e.toUart m), t.uart) ∧
      m.buffer ++ h.flatMap (fun τ => τ.input.typed τ.pre) =
        h.flatMap (fun τ => τ.output.delivered) ++ t.buffer := by
  refine ⟨Mealy.run_refines Console.uart (fun m e => e.toUart m)
    (fun m e r m' h => (step_uart h).1) hr, ?_⟩
  exact Mealy.run_conserves Console.buffer hr fun τ hτ =>
    (step_uart (Mealy.run_takes hr τ hτ).1).2

/-- Of two bytes typed before the guest reads, the second is read twice. -/
example : (Mealy.run step ⟨listening, []⟩ [.type 0x61#8, .type 0x62#8, .read 0x1C, .read 0x1C]).map
    (fun r => r.1.map (·.output.value)) = .ok [none, none, some 0x62#32, some 0x62#32] := rfl

end S32K358.Lpuart.Mux
