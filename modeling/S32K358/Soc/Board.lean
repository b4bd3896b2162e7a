import S32K358.Lib.Wire
import S32K358.Lpspi.Sensor
import S32K358.Lpuart.Interrupt

/-!
# The serial peripherals of the SoC

The LPUARTs and LPSPIs as `nxps32k358_soc_realize` makes them, with a motor speed sensor
on the bus of each LPSPI, and with their interrupt lines connected to inputs of the
NVIC. The guest accesses any of them, and characters are received by any LPUART, in any
order.

All sensors draw their speeds from the same `rand`, which the last one realized has
seeded, so the number of its calls belongs to the board, and is lent to an LPSPI for the
time of an access (`lend`).
-/

namespace S32K358.Soc

open Ssi Lpspi

/-- `NXP_NUM_LPUARTS`. -/
abbrev nxpNumLpuarts : ℕ := 16

/-- `NXP_NUM_LPSPIS`. -/
abbrev nxpNumLpspis : ℕ := 6

/-- `lpuart_irq`, whose initialiser is shorter than the array: the rest is zero. -/
def lpuartIrq (i : Fin nxpNumLpuarts) : ℕ := [141, 142, 143, 144, 145, 146, 147].getD i 0

/-- `lpspi_irq`. -/
def lpspiIrq (i : Fin nxpNumLpspis) : ℕ := [165, 166, 167, 168, 169, 170].getD i 0

def aipsPlatClk : ℕ := 80000000
def aipsSlowClk : ℕ := 40000000

/-- The clock of an LPUART. -/
def lpuartClk (i : Fin nxpNumLpuarts) : ℕ :=
  if i.val < 2 ∨ i.val = 8 then aipsPlatClk else aipsSlowClk

/-! ## The board -/

structure Board where
  lpuarts : Fin nxpNumLpuarts → Lpuart.State
  lpspis : Fin nxpNumLpspis → Lpspi.State 1 Sensors
  /-- The number of calls of `rand`. -/
  rands : ℕ
  /-- The levels of the inputs of the NVIC. -/
  nvic : ℕ → Bool

/-- What happens on the board. -/
inductive Input
  | lpuart (i : Fin nxpNumLpuarts) (x : Lpuart.Stimulus)
  | lpspi (i : Fin nxpNumLpspis) (a : Access)
  deriving DecidableEq, Repr

inductive Reply
  | lpuart (r : Lpuart.Reply)
  | lpspi (r : Lpspi.Reply 1)

/-- An LPSPI whose bus has the given count of calls of `rand`. -/
def lend (s : Lpspi.State 1 Sensors) (k : ℕ) : Lpspi.State 1 Sensors :=
  { s with ssi := (s.ssi.1, k) }

def lpspiLevel? : Lpspi.Call 1 → Option Bool
  | .setIrq level => some level
  | _ => none

/-- The board with an LPUART, and what it drives on its interrupt line, replaced. -/
def Board.setLpuart (b : Board) (i : Fin nxpNumLpuarts) (t : Lpuart.State) (levels : List Bool) :
    Board :=
  { b with
    lpuarts := Function.update b.lpuarts i t
    nvic := driveAll b.nvic (lpuartIrq i) levels }

/-- The board with an LPSPI, the count of calls of `rand`, and what the LPSPI drives on
    its interrupt line, replaced. -/
def Board.setLpspi (b : Board) (i : Fin nxpNumLpspis) (t : Lpspi.State 1 Sensors)
    (levels : List Bool) : Board :=
  { b with
    lpspis := Function.update b.lpspis i (lend t 0)
    rands := t.ssi.2
    nvic := driveAll b.nvic (lpspiIrq i) levels }

/-- The board, as a machine. -/
def step (b : Board) : Input → Except Fault (Reply × Board)
  | .lpuart i x =>
    match Lpuart.stimulate (b.lpuarts i) x with
    | .error e => nomatch e
    | .ok (r, t) => .ok (.lpuart r, b.setLpuart i t (Lpuart.levels r.calls))
  | .lpspi i a =>
    match access sensorBus (lend (b.lpspis i) b.rands) a with
    | .error e => .error e
    | .ok (r, t) => .ok (.lpspi r, b.setLpspi i t (r.calls.filterMap lpspiLevel?))

/-- The run of the board on some inputs. -/
abbrev run (b : Board) (xs : List Input) :
    Except Fault (List (Mealy.Transition Board Input Reply) × Board) := Mealy.run step b xs

/-- The board right after power on: its devices have been realized and reset, and `rand` is
    what the seed of the sensors leads to. -/
def atPowerOn (rand : ℕ → ℤ) : Board where
  lpuarts i := Lpuart.atPowerOn (lpuartClk i)
  lpspis _ := Lpspi.atPowerOn sensorBus aipsPlatClk 1 (oneSensor rand motorSpeedSensorRealize 0)
  rands := 0
  nvic _ := false

/-- The states the board reaches from power on. -/
def Reachable (rand : ℕ → ℤ) (b : Board) : Prop :=
  Mealy.Reachable step (· = atPowerOn rand) b

/-! ## Steps -/

variable {b b' : Board}

theorem step_lpuart (b : Board) (i : Fin nxpNumLpuarts) (x : Lpuart.Stimulus) :
    step b (.lpuart i x) =
      .ok (.lpuart ⟨(Lpuart.result (b.lpuarts i) x).1, (Lpuart.result (b.lpuarts i) x).2,
          (Lpuart.after (b.lpuarts i) x).calls⟩,
        b.setLpuart i { Lpuart.after (b.lpuarts i) x with calls := [] }
          (Lpuart.levels (Lpuart.after (b.lpuarts i) x).calls)) := by
  rw [step, Lpuart.stimulate_eq]

/-- An access of an LPSPI, as a step of the board. -/
theorem step_lpspi_ok {i : Fin nxpNumLpspis} {a : Access} {r : Lpspi.Reply 1}
    {t : Lpspi.State 1 Sensors} (h : access sensorBus (lend (b.lpspis i) b.rands) a = .ok (r, t)) :
    step b (.lpspi i a) = .ok (.lpspi r, b.setLpspi i t (r.calls.filterMap lpspiLevel?)) := by
  rw [step, h]

theorem step_lpspi_error {i : Fin nxpNumLpspis} {a : Access} {e : Fault}
    (h : access sensorBus (lend (b.lpspis i) b.rands) a = .error e) :
    step b (.lpspi i a) = .error e := by
  rw [step, h]

/-- A step is a stimulus of an LPUART, or an access of an LPSPI. -/
theorem step_ok {x : Input} {r : Reply} (h : step b x = .ok (r, b')) :
    (∃ i y, x = .lpuart i y ∧ b' = b.setLpuart i { Lpuart.after (b.lpuarts i) y with calls := [] }
      (Lpuart.levels (Lpuart.after (b.lpuarts i) y).calls)) ∨
    ∃ i a r' t, x = .lpspi i a ∧ access sensorBus (lend (b.lpspis i) b.rands) a = .ok (r', t) ∧
      r = .lpspi r' ∧ b' = b.setLpspi i t (r'.calls.filterMap lpspiLevel?) := by
  cases x with
  | lpuart i y =>
    rw [step_lpuart, Except.ok.injEq, Prod.mk.injEq] at h
    exact .inl ⟨i, y, rfl, h.2.symm⟩
  | lpspi i a =>
    cases ha : access sensorBus (lend (b.lpspis i) b.rands) a with
    | error e =>
      rw [step_lpspi_error ha] at h
      exact absurd h (by simp)
    | ok p =>
      rw [step_lpspi_ok ha, Except.ok.injEq, Prod.mk.injEq] at h
      exact .inr ⟨i, a, p.1, p.2, rfl, ha, h.1.symm, h.2.symm⟩

end S32K358.Soc
