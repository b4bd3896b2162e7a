import S32K358.Soc.Board

/-!
# The interrupt lines of the LPUARTs

The table of the interrupt lines of the LPUARTs has seven entries, so LPUARTs 7 to 15
are all connected to the input 0 of the NVIC, which has the level last driven by any of
them (`Net`). An LPUART drives its line whenever it may have changed, also down to a
level that it already has, and may hide the interrupt of another one this way.
`run_noneHidden_iff` says in which runs this does not happen.
-/

namespace S32K358.Soc

variable {b b' : Board}

/-- The interrupt lines of the LPUARTs, and the inputs of the NVIC. -/
def net (b : Board) : Net (Fin nxpNumLpuarts) ℕ := ⟨fun i => (b.lpuarts i).irq, b.nvic⟩

/-- Every LPUART whose line is up is seen by the NVIC. -/
def NoneHidden (b : Board) : Prop :=
  ∀ i, (b.lpuarts i).irq = true → b.nvic (lpuartIrq i) = true

instance (b : Board) : Decidable (NoneHidden b) := inferInstanceAs (Decidable (∀ _, _))

/-- The input leaves every line that is up visible, if they are before: an LPUART drives
    its line down only if no other one on the same input of the NVIC is up. -/
def KeepsVisible (b : Board) : Input → Prop
  | .lpuart i x => Lpuart.driven (b.lpuarts i) x = some false →
      ∀ j, j ≠ i → lpuartIrq j = lpuartIrq i → (b.lpuarts j).irq = false
  | .lpspi _ _ => True

/-- No LPUART is connected to the line of an LPSPI. -/
theorem lpuartIrq_ne_lpspiIrq : ∀ i j, lpuartIrq i ≠ lpspiIrq j := by decide

/-- An LPUART drives the net, or leaves it as it is. -/
theorem net_setLpuart (i : Fin nxpNumLpuarts) (x : Lpuart.Stimulus)
    (hcalls : (b.lpuarts i).calls = []) :
    net (b.setLpuart i { Lpuart.after (b.lpuarts i) x with calls := [] }
        (Lpuart.levels (Lpuart.after (b.lpuarts i) x).calls)) =
      (Lpuart.driven (b.lpuarts i) x).elim (net b) ((net b).drive lpuartIrq i) := by
  have hleft := Lpuart.after_eq hcalls x
  have hout : (fun j => (Function.update b.lpuarts i
      { Lpuart.after (b.lpuarts i) x with calls := [] } j).irq) =
        Function.update (fun j => (b.lpuarts j).irq) i
          ((Lpuart.driven (b.lpuarts i) x).getD (b.lpuarts i).irq) := by
    funext j
    rw [← hleft.irq_eq]
    by_cases hj : j = i
    · subst hj
      rw [Function.update_self, Function.update_self]
    · rw [Function.update_of_ne hj, Function.update_of_ne hj]
  simp only [net, Board.setLpuart, hout, driveAll_eq, hleft.levels_eq]
  cases Lpuart.driven (b.lpuarts i) x with
  | none => simp only [Option.getD_none, Option.elim_none, Function.update_eq_self]
  | some level => rfl

/-- Driving another input of the NVIC changes nothing for the LPUARTs. -/
theorem noneHidden_setLpspi (i : Fin nxpNumLpspis) (t : Lpspi.State 1 Lpspi.Sensors)
    (levels : List Bool) : NoneHidden (b.setLpspi i t levels) ↔ NoneHidden b := by
  have hnvic : ∀ j, (b.setLpspi i t levels).nvic (lpuartIrq j) = b.nvic (lpuartIrq j) := by
    intro j
    change driveAll b.nvic (lpspiIrq i) levels (lpuartIrq j) = _
    rw [driveAll_eq]
    cases levels.getLast? with
    | none => rfl
    | some level => exact Function.update_of_ne (lpuartIrq_ne_lpspiIrq j i) _ _
  simp only [NoneHidden, hnvic]
  rfl

theorem noneHidden_step_iff {x : Input} {r : Reply} (hcalls : ∀ i, (b.lpuarts i).calls = [])
    (hb : NoneHidden b) (h : step b x = .ok (r, b')) : NoneHidden b' ↔ KeepsVisible b x := by
  rcases step_ok h with ⟨i, y, rfl, rfl⟩ | ⟨i, a, r', t, rfl, -, -, rfl⟩
  · change (net _).Visible lpuartIrq ↔ _
    rw [net_setLpuart i y (hcalls i), KeepsVisible]
    cases Lpuart.driven (b.lpuarts i) y with
    | none => exact iff_of_true hb (by simp)
    | some level =>
      rw [Option.some.injEq]
      exact Net.visible_drive_iff (n := net b) hb i level
  · exact iff_of_true ((noneHidden_setLpspi i t _).2 hb) trivial

theorem lpuart_calls_step {x : Input} {r : Reply} (hcalls : ∀ i, (b.lpuarts i).calls = [])
    (h : step b x = .ok (r, b')) : ∀ i, (b'.lpuarts i).calls = [] := by
  rcases step_ok h with ⟨i, y, rfl, rfl⟩ | ⟨i, a, r', t, rfl, -, -, rfl⟩
  · intro j
    change (Function.update b.lpuarts i _ j).calls = []
    by_cases hj : j = i
    · rw [hj, Function.update_self]
    · rw [Function.update_of_ne hj]
      exact hcalls j
  · exact hcalls

/-- **No LPUART hides another one.** In a run from power on, on any inputs, every LPUART
    whose line is up is seen by the NVIC after every input exactly when every input keeps
    it so. Only an access of an LPSPI can stop the run. -/
theorem run_noneHidden_iff (rand : ℕ → ℤ) (xs : List Input) :
    (∃ e i a, run (atPowerOn rand) xs = .error e ∧ .lpspi i a ∈ xs) ∨
      ∃ h t, run (atPowerOn rand) xs = .ok (h, t) ∧
        ((∀ τ ∈ h, NoneHidden τ.post) ↔ ∀ τ ∈ h, KeepsVisible τ.pre τ.input) := by
  cases hr : run (atPowerOn rand) xs with
  | error e =>
    obtain ⟨js, x, ks, h, t, rfl, -, hx⟩ := Mealy.run_error_iff.1 hr
    cases x with
    | lpuart i y => rw [step_lpuart] at hx; exact absurd hx (by simp)
    | lpspi i a => exact .inl ⟨e, i, a, rfl, by simp⟩
  | ok r =>
    have hdown : ∀ i, ((atPowerOn rand).lpuarts i).irq = false := by
      intro i
      have hlevel : Lpuart.irqLevel Lpuart.statReset Lpuart.controlReset = false := by decide
      have hreset : Lpuart.Coherent ((atPowerOn rand).lpuarts i) := rfl
      exact hreset.trans hlevel
    refine .inr ⟨r.1, r.2, rfl, ?_⟩
    refine Mealy.run_forall_iff (I := fun b => ∀ i, (b.lpuarts i).calls = []) hr (fun _ => rfl)
      (fun i hup => absurd hup (Bool.eq_false_iff.1 (hdown i)))
      (fun _ _ htake hcalls => lpuart_calls_step hcalls htake)
      fun _ _ htake hcalls hb => noneHidden_step_iff hcalls hb htake

/-- LPUART 8 raises its line, as the interrupt of `TDRE` is enabled; then LPUART 9 drives
    its own down, where it already was, and hides it. -/
theorem run_hidden : ∃ h t, run (atPowerOn fun _ => 0)
    [.lpuart 8 (.event (.write 0x18 Lpuart.ctrlTie)), .lpuart 9 (.event (.write 0x18 0#32))] =
      .ok (h, t) ∧
    (t.lpuarts 8).irq = true ∧ t.nvic (lpuartIrq 8) = false ∧ ¬NoneHidden t :=
  ⟨_, _, rfl, by decide, by decide, by decide⟩

end S32K358.Soc
