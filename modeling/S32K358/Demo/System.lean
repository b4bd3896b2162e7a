import S32K358.Demo.Motor
import S32K358.Demo.Uart
import S32K358.LpuartUartIp.Send

/-!
# The demo from the sensor to the line

The tasks of the demo with both drivers, both devices and the sensor (`Firmware`): a read of
the sensor is a call of `Lpspi_Ip_SyncTransmit`, and a byte that is printed is one of
`Lpuart_Uart_Ip_SyncSend`, each on the model of its device. The scheduler chooses the tasks
to go next, and the backend of the UART may have bytes for the device at any access.

The drivers keep the tasks from nothing that they do with drivers of which it is only assumed
what they return (`Working.step`), so all that is known about the latter holds: on the line
are the reports on the speeds that the sensor generates, one after the other
(`firmware_output`).
-/

namespace S32K358.Demo

open Tasks (Blocked Inserted)
open Lpspi (Settled sensorBus Sensors oneSensor loopback)
open LpuartUartIp (Bench Traffic xHwConfigPB3 SendCall)
open Ssi (MotorSpeedSensor)
open Program (Ends NoError ends_noError_iff)

/-! ## The firmware -/

/-- The tasks, and the drivers with their devices. -/
structure Firmware (n : ℕ) where
  tasks : State
  spi : LpspiIp.World (Lpspi.State n Sensors)
  uart : LpuartUartIp.World Bench

/-- Why the firmware stops. -/
inductive Failure
  /-- The task to go next is blocked. -/
  | blocked
  /-- A driver stops at an assertion, or does not return. -/
  | stopped
  deriving DecidableEq, Repr

/-- The byte in the buffer of `Motor_Sensor_ReadValue`. -/
def byteOf (rx : LpspiIp.Buffer) : BitVec 8 := (rx.getD []).headD 0#8

/-- What a call of `Lpspi_Ip_SyncTransmit` came to. -/
def Outcome.of (status : LpspiIp.StatusType) (rx : LpspiIp.Buffer) : Outcome :=
  match status with
  | .success => .success (byteOf rx)
  | .timeout => .timeout (some (byteOf rx))
  | .fail | .fifoError => .fail

/-- `UART_send_byte`, which does not look at the status. -/
def uartSendByte {ε σ : Type} (p : Port LpuartUartIp.Reg ε σ) (byte : BitVec 8)
    (w : LpuartUartIp.World σ) : Except (Port.Stop ε) (Option (LpuartUartIp.World σ)) := do
  let r ← LpuartUartIp.syncSend p xHwConfigPB3 [byte] 1 100 w
  pure (r.map (·.2))

/-- The bytes that a statement sends, of which there is at most one. -/
def sendBytes {ε σ : Type} (p : Port LpuartUartIp.Reg ε σ) :
    List (BitVec 8) → LpuartUartIp.World σ → Except (Port.Stop ε) (Option (LpuartUartIp.World σ))
  | [], w => pure (some w)
  | c :: l, w => do
    match ← uartSendByte p c w with
    | none => pure none
    | some w => sendBytes p l w

section Machine

variable {n : ℕ} (errata : Bool) (fuel : ℕ) (traffic : ℕ → Traffic)

/-- The next thing that a task does is a read of the sensor. -/
def ReadsNext (s : State) (t : Task) : Prop :=
  ((program fun _ => .fail).todo s t).head? = some .motorSensorReadValue

instance (s : State) (t : Task) : Decidable (ReadsNext s t) :=
  inferInstanceAs (Decidable (_ = some Stmt.motorSensorReadValue))

/-- The transfer that a task is about to do, if any. -/
def transferNow (f : Firmware n) (t : Task) :
    Option (Outcome × LpspiIp.World (Lpspi.State n Sensors)) :=
  if ReadsNext f.tasks t then
    match (readValueCall f.tasks.mem.vars.receivedValue).run (LpspiIp.device sensorBus) errata fuel
      f.spi with
    | .ok (some (status, w)) => some (.of status w.state.rxBuffer, w)
    | _ => none
  else some (.fail, f.spi)

/-- A task goes on. -/
def Firmware.step (f : Firmware n) (t : Task) : Except Failure (Output × Firmware n) :=
  match transferNow errata fuel f t with
  | none => .error .stopped
  | some (r, spi) =>
    match (program fun _ => r).step f.tasks t with
    | .error _ => .error .blocked
    | .ok (o, tasks) =>
      match sendBytes (LpuartUartIp.device traffic) o.sent f.uart with
      | .ok (some uart) => .ok (o, ⟨tasks, spi, uart⟩)
      | _ => .error .stopped

/-- `main`, up to the start of the scheduler. -/
def boot (spi : LpspiIp.World (Lpspi.State n Sensors)) (uart : LpuartUartIp.World Bench)
    (receivedValue : BitVec 8) (buf : Text) : Except Failure (Firmware n) :=
  match LpuartUartIp.init (LpuartUartIp.device traffic) xHwConfigPB3 uart,
    LpspiIp.init (LpspiIp.device sensorBus) phyUnitConfig spi with
  | .ok uart, .ok spi => .ok ⟨atStart receivedValue buf, spi, uart⟩
  | _, _ => .error .stopped

end Machine

/-! ## The drivers in a step -/

variable {n : ℕ} {errata : Bool} {fuel : ℕ} {traffic : ℕ → Traffic} {rand : ℕ → ℤ} {k : ℕ}
  {outcome : ℕ → Outcome} {s s' : State} {t : Task} {o : Output}

/-- The driver of the LPSPI is at rest, and the sensor has generated `k` speeds. -/
def SpiReady (rand : ℕ → ℤ) (k : ℕ) (w : LpspiIp.World (Lpspi.State n Sensors)) : Prop :=
  ∃ x sensor, LpspiIp.Rested phyUnitConfig false x w ∧ x.ssi = oneSensor rand sensor k ∧
    loopback x.cfgr1 = false

/-- The driver of the LPUART is not sending, and has sent the characters `l`. -/
def UartReady (l : List (BitVec 8)) (w : LpuartUartIp.World Bench) : Prop :=
  ∃ st x, LpuartUartIp.Shows st x w ∧ st.registered = true ∧ st.isTxBusy = false ∧ x.sent = l

theorem valid_byte (c : BitVec 8) : (⟨[c], 1, 100⟩ : SendCall).Valid :=
  ⟨Nat.one_pos, Nat.le_refl 1, show 1 < 2 ^ 32 by decide, show 100 + 1 < 2 ^ 32 by decide⟩

theorem UartReady.sendByte {l : List (BitVec 8)} {w : LpuartUartIp.World Bench} (h : UartReady l w)
    (c : BitVec 8) :
    Ends NoError (uartSendByte (LpuartUartIp.device traffic) c w) fun r =>
      ∃ w', r = some w' ∧ UartReady (l ++ [c]) w' := by
  obtain ⟨st, x, hshows, hreg, hidle, rfl⟩ := h
  have hcall : Ends NoError (LpuartUartIp.syncSend (LpuartUartIp.device traffic)
    xHwConfigPB3 [c] 1 100 w) _ :=
    hshows.syncSend hreg hidle (valid_byte c)
  refine hcall.bind ?_
  rintro _ ⟨w', rfl, h'⟩
  refine Program.ends_pure ⟨w', rfl, _, _, h', hreg, rfl, ?_⟩
  rw [LpuartUartIp.View.afterSend, LpuartUartIp.sendingAll_eq]
  rfl

theorem UartReady.sendBytes {l : List (BitVec 8)} {w : LpuartUartIp.World Bench} (h : UartReady l w)
    (cs : List (BitVec 8)) :
    Ends NoError (sendBytes (LpuartUartIp.device traffic) cs w) fun r =>
      ∃ w', r = some w' ∧ UartReady (l ++ cs) w' := by
  induction cs generalizing l w with
  | nil => exact ⟨w, rfl, (List.append_nil l).symm ▸ h⟩
  | cons c cs ih =>
    have hbyte : Ends NoError (uartSendByte (LpuartUartIp.device traffic) c w) _ := h.sendByte c
    refine hbyte.bind ?_
    rintro _ ⟨w₁, rfl, h₁⟩
    refine (ih h₁).mono ?_
    rintro _ ⟨w₂, rfl, h₂⟩
    exact ⟨w₂, rfl, by rwa [List.append_assoc] at h₂⟩

/-- A read of the sensor gives the next speed. -/
theorem SpiReady.read {w : LpspiIp.World (Lpspi.State n Sensors)} (h : SpiReady rand k w)
    (hn : 0 < n)
    (hfuel : 2 < fuel) (errata : Bool) (rx : BitVec 8) :
    ∃ w', (readValueCall rx).run (LpspiIp.device sensorBus) errata fuel w =
      .ok (some (.success, w')) ∧
      w'.state.rxBuffer = some [speedByte rand k] ∧ SpiReady rand (k + 1) w' := by
  obtain ⟨x, sensor, hrest, hssi, hloop⟩ := h
  obtain ⟨hresult, hcfgr1, sensor', hssi'⟩ := transfer_sensor errata hssi hloop rx
  have hcall : Ends NoError ((readValueCall rx).run (LpspiIp.device sensorBus) errata fuel w) _ :=
    hrest.syncTransmit (valid_readValueCall rx hn) (by rwa [frames_readValueCall])
  obtain ⟨_, hrun, w', rfl, hrx, hrest'⟩ := ends_noError_iff.1 hcall
  rw [hresult] at hrun hrx
  exact ⟨w', hrun, hrx, _, sensor', hrest', hssi', hcfgr1 ▸ hloop⟩

/-! ## Steps -/

/-- The outcomes of the transfers, with the speeds of the sensor. -/
def speedOutcomes (rand : ℕ → ℤ) (k : ℕ) (i : ℕ) : Outcome := .success (speedByte rand (k + i))

/-- A statement other than a read of the sensor does not depend on the outcomes. -/
theorem exec_congr {outcome' : ℕ → Outcome} {st : Stmt} {m : Memory}
    (h : st = .motorSensorReadValue → outcome m.vars.transfers = outcome' m.vars.transfers) :
    exec outcome st m = exec outcome' st m := by
  cases st with
  | motorSensorReadValue =>
    simp only [exec, motorSensorReadValue, h rfl]
  | printLoop str => cases str <;> rfl
  | _ => rfl

theorem step_congr {outcome' : ℕ → Outcome}
    (h : ReadsNext s t → outcome s.mem.vars.transfers = outcome' s.mem.vars.transfers) :
    (program outcome).step s t = (program outcome').step s t := by
  have hsame : (program outcome').todo s t = (program outcome).todo s t := rfl
  rw [Tasks.Program.step, Tasks.Program.step, hsame]
  rcases htodo : (program outcome).todo s t with _ | ⟨st, l⟩
  · rfl
  · have hexec : (program outcome).exec st s.mem = (program outcome').exec st s.mem := by
      refine exec_congr fun hst => h ?_
      change ((program outcome).todo s t).head? = _
      rw [htodo, List.head?_cons, hst]
    simp only [hexec]

/-- The transfers are counted. -/
theorem transfers_step (h : (program outcome).step s t = .ok (o, s')) :
    s'.mem.vars.transfers = s.mem.vars.transfers + if ReadsNext s t then 1 else 0 := by
  obtain ⟨st, l, more, m, htodo, hexec, rfl⟩ := Tasks.Program.step_ok h
  have hiff : ReadsNext s t ↔ st = .motorSensorReadValue := by
    change ((program outcome).todo s t).head? = _ ↔ _
    rw [htodo, List.head?_cons, Option.some.injEq]
  simp only [hiff]
  cases exec_some hexec <;> rfl

/-- The drivers are ready, the UART has sent `l`, and the sensor had generated `k` speeds
    before the first of this run. -/
structure Working (rand : ℕ → ℤ) (k : ℕ) (l : List (BitVec 8)) (f : Firmware n) : Prop where
  spi : SpiReady rand (k + f.tasks.mem.vars.transfers) f.spi
  uart : UartReady l f.uart

variable {f : Firmware n} {l : List (BitVec 8)}

theorem Working.transferNow (h : Working rand k l f) (hn : 0 < n) (hfuel : 2 < fuel) (errata : Bool)
    (t : Task) :
    ∃ r spi, transferNow errata fuel f t = some (r, spi) ∧
      (ReadsNext f.tasks t → r = speedOutcomes rand k f.tasks.mem.vars.transfers) ∧
      SpiReady rand (k + (f.tasks.mem.vars.transfers + if ReadsNext f.tasks t then 1 else 0))
        spi := by
  rw [Demo.transferNow]
  by_cases hreads : ReadsNext f.tasks t
  · obtain ⟨w', hrun, hrx, hready⟩ := h.spi.read hn hfuel errata
      f.tasks.mem.vars.receivedValue
    rw [if_pos hreads, hrun]
    refine ⟨_, w', rfl, fun _ => ?_, ?_⟩
    · rw [hrx]
      rfl
    · rwa [if_pos hreads, ← Nat.add_assoc]
  · rw [if_neg hreads]
    refine ⟨.fail, f.spi, rfl, fun hr => absurd hr hreads, ?_⟩
    rw [if_neg hreads]
    exact h.spi

/-- A task goes on if and as it does when the transfers come to the speeds of the sensor. -/
theorem Working.step (h : Working rand k l f) (hn : 0 < n) (hfuel : 2 < fuel) (t : Task) :
    Ends (fun e => e = .blocked ∧ ∃ e', (program (speedOutcomes rand k)).step f.tasks t = .error e')
      (f.step errata fuel traffic t) fun r =>
        (program (speedOutcomes rand k)).step f.tasks t = .ok (r.1, r.2.tasks) ∧
          Working rand k (l ++ r.1.sent) r.2 := by
  obtain ⟨r, spi, hnow, hr, hspi⟩ := h.transferNow hn hfuel errata t
  have hsame : (program fun _ => r).step f.tasks t =
      (program (speedOutcomes rand k)).step f.tasks t :=
    step_congr hr
  rcases hstep : (program (speedOutcomes rand k)).step f.tasks t with e | ⟨o, s'⟩
  · simp only [Firmware.step, hnow, hsame, hstep]
    exact ⟨rfl, e, trivial⟩
  · have hsend : Ends NoError (sendBytes (LpuartUartIp.device traffic) o.sent f.uart) _ :=
      h.uart.sendBytes o.sent
    obtain ⟨_, hrun, uart, rfl, huart⟩ := ends_noError_iff.1 hsend
    simp only [Firmware.step, hnow, hsame, hstep, hrun]
    exact ⟨rfl, (transfers_step hstep).symm ▸ hspi, huart⟩

/-! ## Runs -/

theorem UartReady.sent_eq {w : LpuartUartIp.World Bench} (h : UartReady l w) :
    (LpuartUartIp.view w.hw).sent = l := by
  obtain ⟨st, x, hshows, -, -, rfl⟩ := h
  rw [hshows.view_eq]

theorem boot_working (traffic : ℕ → Traffic) {spi : LpspiIp.World (Lpspi.State n Sensors)}
    {uart : LpuartUartIp.World Bench}
    {sensor : MotorSpeedSensor} (hs : Settled spi.hw) (hssi : spi.hw.ssi = oneSensor rand sensor k)
    (hq : uart.hw.uart.calls = []) (hreg : uart.state.registered = false) (r₀ : BitVec 8)
    (buf : Text) :
    ∃ f, boot traffic spi uart r₀ buf = .ok f ∧ f.tasks = atStart r₀ buf ∧
      Working rand k (LpuartUartIp.view uart.hw).sent f := by
  have hshows : LpuartUartIp.Shows uart.state (LpuartUartIp.view uart.hw) uart := ⟨rfl, rfl, hq⟩
  have huart : Ends NoError (LpuartUartIp.init (LpuartUartIp.device traffic) xHwConfigPB3 uart) _ :=
    hshows.init hreg LpuartUartIp.valid_xHwConfigPB3
  have hspi : Ends NoError (LpspiIp.init (LpspiIp.device sensorBus) phyUnitConfig spi) _ :=
    LpspiIp.init_device sensorBus phyUnitConfig hs
  obtain ⟨uart', hrun, y, hy, hshows'⟩ := ends_noError_iff.1 huart
  obtain ⟨spi', hrun', hrest⟩ := ends_noError_iff.1 hspi
  have hloop : loopback phyUnitConfig.cfgr1 = false := by decide
  refine ⟨⟨atStart r₀ buf, spi', uart'⟩, ?_, rfl, ⟨_, sensor, hrest, hssi, hloop⟩,
    _, y, hshows', rfl, rfl, hy.sent_eq⟩
  simp only [boot, hrun, hrun']

variable {h : List (Mealy.Transition (Firmware n) Task Output)} {f' : Firmware n} {ts : List Task}

/-- The firmware stops only if the task to go next is blocked. -/
theorem Working.run_error {e : Failure} (hf : Working rand k l f) (hn : 0 < n) (hfuel : 2 < fuel)
    (hr : Mealy.run (Firmware.step errata fuel traffic) f ts = .error e) : e = .blocked := by
  refine Mealy.run_error (I := fun f => ∃ l, Working rand k l f) (D := fun _ => True)
    (E := fun e => e = .blocked) ?_ ?_ ⟨l, hf⟩ (fun _ _ => trivial) hr
  · rintro f t o f' ⟨l, hl⟩ - hstep
    have hends : Ends _ (f.step errata fuel traffic t) _ := hl.step hn hfuel t
    rw [hstep] at hends
    exact ⟨_, hends.2⟩
  · rintro f t e ⟨l, hl⟩ - hstep
    have hends : Ends _ (f.step errata fuel traffic t) _ := hl.step hn hfuel t
    rw [hstep] at hends
    exact hends.1

/-- Apart from the drivers, a run is one of the tasks with the speeds of the sensor, and what
    it prints is on the line. -/
theorem Working.run_ok (hf : Working rand k l f) (hn : 0 < n) (hfuel : 2 < fuel)
    (hr : Mealy.run (Firmware.step errata fuel traffic) f ts = .ok (h, f')) :
    ∃ ts' h', run (speedOutcomes rand k) f.tasks ts' = .ok (h', f'.tasks) ∧
      (LpuartUartIp.view f'.uart.hw).sent = l ++ Demo.uart h' := by
  have htake (l : List (BitVec 8)) (τ : Mealy.Transition (Firmware n) Task Output)
      (hτ : Mealy.Takes (Firmware.step errata fuel traffic) τ) (hl : Working rand k l τ.pre) :
      (program (speedOutcomes rand k)).step τ.pre.tasks τ.input = .ok (τ.output, τ.post.tasks) ∧
        Working rand k (l ++ τ.output.sent) τ.post := by
    have hends : Ends _ (τ.pre.step errata fuel traffic τ.input) _ := hl.step hn hfuel τ.input
    rwa [show τ.pre.step errata fuel traffic τ.input = _ from hτ] at hends
  have hinv := Mealy.run_invariant (I := fun f => ∃ l, Working rand k l f) hr ⟨l, hf⟩
    fun τ _ hτ ⟨l, hl⟩ => ⟨_, (htake l τ hτ hl).2⟩
  refine ⟨_, _, Mealy.run_maps Firmware.tasks (fun _ t => t) hr fun τ hτ hstep => ?_, ?_⟩
  · obtain ⟨⟨l, hl⟩, -⟩ := hinv.2 τ hτ
    exact (htake l τ hstep hl).1
  · have hsent := Mealy.run_ghost (fun l τ => l ++ τ.output.sent) (I := Working rand k) hr hf
      fun l τ _ hτ hl => (htake l τ hτ hl).2
    rw [hsent.uart.sent_eq, Demo.uart, List.flatMap_map]
    exact List.foldl_append_eq_append ..

/-- The report on a speed: what the two tasks print in a round. -/
def report (speed : BitVec 8) : List Text := outputA speed ++ outputB speed

/-- **The demo, from the sensor to the line.** Start `main` with any state of the LPUART, any
    settled one of the LPSPI, and the sensor on its bus, which has generated `k` speeds. The
    initialisation succeeds. Then, whatever the scheduler does, and whatever the backend has
    for the receiver of the LPUART, nothing but a blocked task stops the firmware, and what it
    has put on the line is, up to its end, the reports on the speeds of the sensor from the
    one number `k` on, none twice and none left out, with whole messages of `TaskCodeC`
    inserted between the calls of `print`. -/
theorem firmware_output (spi : LpspiIp.World (Lpspi.State n Sensors))
    (uart : LpuartUartIp.World Bench) (hs : Settled spi.hw) (hn : 0 < n) (hfuel : 2 < fuel)
    (sensor : MotorSpeedSensor) (hssi : spi.hw.ssi = oneSensor rand sensor k)
    (hq : uart.hw.uart.calls = []) (hreg : uart.state.registered = false) (errata : Bool)
    (traffic : ℕ → Traffic) (r₀ : BitVec 8) (buf : Text) :
    ∃ f₀, boot traffic spi uart r₀ buf = .ok f₀ ∧ ∀ ts : List Task,
      Ends (· = .blocked) (Mealy.run (Firmware.step errata fuel traffic) f₀ ts) fun r => ∃ m l out,
        Inserted wokeText ((List.range m).flatMap fun i => report (speedByte rand (k + i))) l ∧
        out <+: l.flatten ∧
        (LpuartUartIp.view r.2.uart.hw).sent = (LpuartUartIp.view uart.hw).sent ++ out := by
  obtain ⟨f₀, hboot, htasks, hworks⟩ := boot_working traffic hs hssi hq hreg r₀ buf
  refine ⟨f₀, hboot, fun ts => ?_⟩
  rcases hr : Mealy.run (Firmware.step errata fuel traffic) f₀ ts with e | ⟨h, f⟩
  · exact hworks.run_error hn hfuel hr
  · obtain ⟨ts', h', hr', hsent⟩ := hworks.run_ok hn hfuel hr
    rw [htasks] at hr'
    obtain ⟨-, -, m, rest, -, -, -, hscript⟩ := run_follows hr'
    have hround : script (speedOutcomes rand k) r₀ m =
        (List.range m).flatMap fun i =>
          round (speedOutcomes rand k i) (speedByte rand (k + i)) := rfl
    have hins := (run_inserted hr').append (.refl wokeText (rest.filterMap Mark.start?))
    rw [← List.filterMap_append, hscript, hround, List.filterMap_flatMap] at hins
    simp only [start?_round] at hins
    refine ⟨m, _, Demo.uart h', hins, ?_, hsent⟩
    rw [List.flatten_append, run_conserves_text hr', List.append_assoc]
    exact List.prefix_append _ _

/-- The board, as it is switched on. -/
theorem firmware_output_first : ∃ f₀,
    boot (fun _ => ⟨[], []⟩)
      ⟨LpspiIp.StateStructure.cleared, Lpspi.withSensor fun k => 300 + k⟩
      ⟨{ LpuartUartIp.StateStructure.cleared with registered := false }, .atPowerOn 40000000⟩
      0#8 [] = .ok f₀ ∧ ∀ ts : List Task,
        Ends (· = .blocked) (Mealy.run (Firmware.step true 3 fun _ => ⟨[], []⟩) f₀ ts) fun r =>
          ∃ m l out, Inserted wokeText ((List.range m).flatMap fun i =>
              report (speedByte (fun k => 300 + k) (0 + i))) l ∧
            out <+: l.flatten ∧ (LpuartUartIp.view r.2.uart.hw).sent = out :=
  firmware_output ⟨LpspiIp.StateStructure.cleared, Lpspi.withSensor fun k => 300 + k⟩
    ⟨{ LpuartUartIp.StateStructure.cleared with registered := false }, .atPowerOn 40000000⟩
    (Lpspi.powerOn_withSensor _).settled (by decide) (show 2 < 3 by decide) _ rfl rfl rfl true
    (fun _ => ⟨[], []⟩) 0#8 []

end S32K358.Demo
