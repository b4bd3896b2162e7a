import S32K358.Demo.Readings
import S32K358.Lpspi.Sensor
import S32K358.LpspiIp.Sync

/-!
# The demo on its driver, its device and its sensor

The calls of `Motor_Sensor_ReadValue` down to the sensor: the driver as the demo
configures it, on the device model, with the sensor of the board on its bus. All transfers
succeed, and the transfer number `k` receives the speed that the sensor generates for the
command number `k` (`session_readings`). Hence the tasks of the demo, in whatever order they
are scheduled, publish and check the speeds of the sensor one after the other, none twice
and none left out (`run_speeds`).
-/

namespace S32K358.Demo

open Lpspi (SsiBus Settled sensorBus Sensors oneSensor loopback bytesPerFrame)
open LpspiIp (Call View ExternalDevice Config StatusType Buffer World device)
open Ssi (MotorSpeedSensor generateRandomSpeed)

/-! ## The configuration -/

/-- `Lpspi_Ip_DeviceAttributes_SpiExternalDevice_0_Instance_2`. -/
def masterExternalDevice : ExternalDevice where
  ccr := 39#32 <<< 24 ||| 39#32 <<< 16 ||| 38#32 <<< 0 ||| 38#32 <<< 8
  tcr := 3#32 <<< 16 ||| 1#32 <<< 31 ||| 1#32 <<< 30 ||| 0#32 <<< 27 ||| 0#32 <<< 24 ||| 1#32 <<< 21
  halfDuplexCfgr1 := 1#32 <<< 26 ||| 3#32 <<< 27
  frameSize := 8
  lsb := true
  defaultData := 0#32
  transferType := .fullDuplex

/-- `Lpspi_Ip_PhyUnitConfig_SpiPhyUnit_0_Instance_2`. -/
def phyUnitConfig : Config where
  cr := 0#32
  cfgr1 := 0#32 <<< 24 ||| 0#32 <<< 8 ||| 1#32 <<< 0 ||| 0#32 <<< 1
  slaveMode := false
  transferMode := .polling

/-- `CMD_GET_SPEED`. -/
def cmdGetSpeed : BitVec 8 := 0xAA#8

/-- The call of `Motor_Sensor_ReadValue`, with a byte in `rx_buff`. -/
def readValueCall (rx : BitVec 8) : Call where
  device := masterExternalDevice
  txBuffer := some [cmdGetSpeed]
  rxBuffer := some [rx]
  length := 1
  timeOut := 1000

theorem command_masterExternalDevice :
    LpspiIp.command phyUnitConfig.slaveMode masterExternalDevice = 0xC0A30007#32 := rfl

theorem command_readValueCall (rx : BitVec 8) :
    LpspiIp.command phyUnitConfig.slaveMode (readValueCall rx).device = 0xC0A30007#32 :=
  command_masterExternalDevice

theorem frames_readValueCall (rx : BitVec 8) : (readValueCall rx).frames = 1 := by
  change LpspiIp.expectedFrames 8 1 = 1
  decide

theorem valid_readValueCall (rx : BitVec 8) {n : ℕ} (hn : 0 < n) :
    (readValueCall rx).Valid n phyUnitConfig.slaveMode where
  fullDuplex := rfl
  length_ne_zero := Nat.one_ne_zero
  length_mod := Nat.mod_one 1
  timeOut_ne_zero := OfNat.ofNat_ne_zero _
  le_tx := by
    rintro _ ⟨⟩
    exact le_rfl
  le_rx := by
    rintro _ ⟨⟩
    exact le_rfl
  bytes_ne_zero := by
    rw [command_readValueCall]
    decide
  unmasked := by
    rw [command_readValueCall]
    decide
  pcs_lt := by
    rw [command_readValueCall]
    exact hn

/-! ## A transfer with the sensor -/

variable {n : ℕ} {rand : ℕ → ℤ} {sensor : MotorSpeedSensor} {k : ℕ} {x : View n Sensors}
  {errata : Bool}

/-- The speed that the sensor generates at the call number `k` of `rand`, as a byte. -/
def speedByte (rand : ℕ → ℤ) (k : ℕ) : BitVec 8 := (generateRandomSpeed rand k).setWidth 8

theorem ssi_drive (go level : Bool) : (x.drive sensorBus go level).ssi = x.ssi := ite_self _

theorem exchange_sensor (hssi : x.ssi = oneSensor rand sensor k)
    (hloop : loopback x.cfgr1 = false) :
    (x.exchange sensorBus 0xAA#32).1 = (generateRandomSpeed rand k).setWidth 32 ∧
      ∃ sensor', (x.exchange sensorBus 0xAA#32).2.ssi = oneSensor rand sensor' (k + 1) := by
  have hanswer : (x.select sensorBus).answer sensorBus 0xAA#32 =
      ((generateRandomSpeed rand k).setWidth 32,
        oneSensor rand ⟨generateRandomSpeed rand k, generateRandomSpeed rand k⟩ (k + 1)) := by
    have hselect : (x.select sensorBus).ssi = oneSensor rand sensor k := (ssi_drive _ _).trans hssi
    have hloop' : loopback (x.select sensorBus).cfgr1 = false := hloop
    rw [View.answer, hloop', if_neg Bool.false_ne_true, hselect, Lpspi.transfer_oneSensor]
    exact if_pos rfl
  rw [View.exchange, hanswer]
  exact ⟨rfl, _, ssi_drive _ _⟩

/-- The low byte of the answer is stored. -/
theorem split_truncate (speed : BitVec 16) :
    Frame.split true 1 (LpspiIp.truncate 1 (speed.setWidth 32)) = [speed.setWidth 8] := by
  rw [Frame.split, Frame.splitFrom, Frame.splitFrom, List.singleton_inj]
  apply BitVec.eq_of_getLsbD_eq
  intro i hi
  rw [Frame.getLsbD_byteAt, LpspiIp.truncate, BitVec.getLsbD_ofNat, BitVec.getLsbD_setWidth,
    BitVec.toNat_setWidth, Nat.testBit_mod_two_pow, Nat.testBit_mod_two_pow]
  simp [hi, Frame.place, show i < 32 by omega, BitVec.getLsbD]

theorem ssi_started (errata : Bool) (cmd : BitVec 32) :
    (x.started sensorBus errata cmd).ssi = x.ssi := by
  cases errata with
  | true =>
    change (List.range' 0 n).foldl (fun ssi _ => ssi) x.ssi = x.ssi
    exact List.foldl_fixed' (fun _ => rfl) _
  | false => rfl

/-- A transfer of one frame. -/
theorem transfer_frame {β : Type} {bus : SsiBus β} {x : View n β} {slaveMode keepCs : Bool}
    {c : Call} {cmd v : BitVec 32} (htime : c.timeOut ≠ 1)
    (hcmd : LpspiIp.command slaveMode c.device = cmd)
    (hframes : LpspiIp.frames (bytesPerFrame cmd) c.device c.txBuffer 0 c.frames = [v]) :
    x.transfer bus errata slaveMode keepCs c =
      ((.success, c.rxBuffer.map (LpspiIp.put (LpspiIp.frameWidth c.device.frameSize) 0
        [LpspiIp.truncate (bytesPerFrame cmd)
          (((x.enabling 0#32).started bus errata cmd).exchange bus v).1])),
        (((x.enabling 0#32).started bus errata cmd).exchange bus v).2.released keepCs) := by
  rw [View.transfer, if_neg htime, hcmd, hframes]
  rfl

/-- A transfer of the command receives the next speed of the sensor. -/
theorem transfer_sensor (errata : Bool) (hssi : x.ssi = oneSensor rand sensor k)
    (hloop : loopback x.cfgr1 = false)
    (rx : BitVec 8) :
    let r := x.transfer sensorBus errata phyUnitConfig.slaveMode false (readValueCall rx)
    r.1 = (.success, some [speedByte rand k]) ∧ r.2.cfgr1 = x.cfgr1 ∧
      ∃ sensor', r.2.ssi = oneSensor rand sensor' (k + 1) := by
  obtain ⟨-, -, -, -, -, hcfgr1, -⟩ :=
    (x.enabling 0#32).started_frame sensorBus errata 0xC0A30007#32
  have hssi₀ : ((x.enabling 0#32).started sensorBus errata 0xC0A30007#32).ssi =
      oneSensor rand sensor k := (ssi_started errata 0xC0A30007#32).trans hssi
  obtain ⟨hanswer, sensor', hssi'⟩ := exchange_sensor hssi₀ (hcfgr1 ▸ hloop)
  have hframes : LpspiIp.frames (bytesPerFrame 0xC0A30007#32) (readValueCall rx).device
      (readValueCall rx).txBuffer 0 (readValueCall rx).frames = [0xAA#32] := by
    rw [frames_readValueCall]
    change LpspiIp.frames (bytesPerFrame 0xC0A30007#32) masterExternalDevice (some [cmdGetSpeed])
      0 1 = _
    decide
  have htransfer : x.transfer sensorBus errata phyUnitConfig.slaveMode false (readValueCall rx) =
      _ := transfer_frame (OfNat.ofNat_ne_one 1000) (command_readValueCall rx) hframes
  rw [hanswer] at htransfer
  rw [htransfer]
  refine ⟨?_, ?_, sensor', ?_⟩
  · change (_, some ([] ++ List.flatMap (Frame.split true 1)
      [LpspiIp.truncate 1 ((generateRandomSpeed rand k).setWidth 32)] ++ [])) = _
    rw [List.flatMap_singleton, split_truncate]
    rfl
  · exact (View.released_frame _ _).2.1.trans hcfgr1
  · exact (View.released_frame _ _).2.2.2.1.trans hssi'

theorem transfers_sensor (hssi : x.ssi = oneSensor rand sensor k)
    (hloop : loopback x.cfgr1 = false) (rxs : List (BitVec 8)) :
    (x.transfers sensorBus errata phyUnitConfig.slaveMode false (rxs.map readValueCall)).1 =
      (List.range' k rxs.length).map fun i => (.success, some [speedByte rand i]) := by
  induction rxs generalizing x sensor k with
  | nil => rfl
  | cons rx rxs ih =>
    obtain ⟨hresult, hcfgr1, sensor', hssi'⟩ := transfer_sensor errata hssi hloop rx
    rw [List.map_cons, View.transfers, List.length_cons, List.range'_succ, List.map_cons]
    exact congrArg₂ _ hresult (ih hssi' (hcfgr1 ▸ hloop))

/-! ## A session -/

variable {w : World (Lpspi.State n Sensors)} {fuel : ℕ}

/-- After the initialisation of the driver, whatever the
    state of the device was, the call number `i` of `Motor_Sensor_ReadValue` succeeds and
    leaves the speed that the sensor generates for the command number `i` in `rx_buff`,
    whatever was in it. -/
theorem session_readings (hs : Settled w.hw) (hn : 0 < n) (hfuel : 2 < fuel)
    (hssi : w.hw.ssi = oneSensor rand sensor k) (errata : Bool) (rxs : List (BitVec 8)) :
    ∃ w', LpspiIp.session (device sensorBus) errata phyUnitConfig fuel (rxs.map readValueCall) w =
      .ok (some ((List.range' k rxs.length).map fun i => (.success, some [speedByte rand i]),
        w')) := by
  have hcs : ∀ c ∈ rxs.map readValueCall,
      c.Valid n phyUnitConfig.slaveMode ∧ 2 * c.frames < fuel := by
    intro c hc
    obtain ⟨rx, -, rfl⟩ := List.mem_map.1 hc
    refine ⟨valid_readValueCall rx hn, ?_⟩
    rwa [frames_readValueCall]
  have hsession : Program.Ends Program.NoError (LpspiIp.session (device sensorBus) errata
      phyUnitConfig fuel (rxs.map readValueCall) w) _ := LpspiIp.session_ends hs hcs
  obtain ⟨_, hr, w', rfl, -⟩ := Program.ends_noError_iff.1 hsession
  have hinit : ((LpspiIp.view w.hw).inited sensorBus phyUnitConfig).ssi = oneSensor rand sensor k :=
    hssi
  have hloop : loopback phyUnitConfig.cfgr1 = false := by decide
  rw [transfers_sensor hinit hloop] at hr
  exact ⟨w', hr⟩

/-! ## The tasks -/

/-- The status that the driver returns. -/
def Outcome.status : Outcome → StatusType
  | .success _ => .success
  | .fail => .fail
  | .timeout _ => .timeout

/-- The outcomes of the transfers are those of the driver on its device, in a session of any
    length, with whatever there is in the buffer of each call. -/
def Realizes (errata : Bool) (fuel : ℕ) (w : World (Lpspi.State n Sensors))
    (outcome : ℕ → Outcome) : Prop :=
  ∀ rxs : List (BitVec 8), ∃ w',
    LpspiIp.session (device sensorBus) errata phyUnitConfig fuel (rxs.map readValueCall) w =
      .ok (some (rxs.mapIdx fun i rx => ((outcome i).status, some [(outcome i).rxBuffer rx]), w'))

variable {outcome : ℕ → Outcome} {r₀ : BitVec 8} {buf : Text} {ts : List Task} {h : List Step}
  {s : State}

/-- The outcomes are the speeds of the sensor. -/
theorem realizes_iff (hs : Settled w.hw) (hn : 0 < n) (hfuel : 2 < fuel)
    (hssi : w.hw.ssi = oneSensor rand sensor k) :
    Realizes errata fuel w outcome ↔ ∀ i, outcome i = .success (speedByte rand (k + i)) := by
  have hmap (rxs : List (BitVec 8)) : ((List.range' k rxs.length).map fun i =>
      (StatusType.success, some [speedByte rand i])) =
        rxs.mapIdx fun i _ => (StatusType.success, some [speedByte rand (k + i)]) :=
    List.ext_getElem (by simp) fun i _ _ => by simp
  constructor
  · intro hreal i
    obtain ⟨w₁, h₁⟩ := hreal (List.replicate (i + 1) 0#8)
    obtain ⟨w₂, h₂⟩ := session_readings hs hn hfuel hssi errata (List.replicate (i + 1) 0#8)
    rw [h₁, hmap] at h₂
    have heq := congrArg (fun l => l[i]?) (Prod.mk.inj (Option.some.inj (Except.ok.inj h₂))).1
    simp only [List.getElem?_mapIdx, List.getElem?_replicate_of_lt (Nat.lt_succ_self i),
      Option.map_some, Option.some.injEq, Prod.mk.injEq, List.cons.injEq, and_true] at heq
    obtain ⟨hstatus, hbyte⟩ := heq
    -- Only a success has this status, and it has the byte.
    match outcome i, hstatus, hbyte with
    | .success rx, _, hbyte => exact congrArg _ hbyte
  · intro hall rxs
    obtain ⟨w', h'⟩ := session_readings hs hn hfuel hssi errata rxs
    rw [hmap] at h'
    simp only [hall]
    exact ⟨w', h'⟩

/-- **The speeds of the demo.** However the tasks are scheduled, the value number `i` that
    is published, and the one that is compared with the threshold, is the speed that the
    sensor generates for the command number `i`. -/
theorem run_speeds (hs : Settled w.hw) (hn : 0 < n) (hfuel : 2 < fuel)
    (hssi : w.hw.ssi = oneSensor rand sensor k) (hreal : Realizes errata fuel w outcome)
    (hr : run outcome (atStart r₀ buf) ts = .ok (h, s)) :
    (∀ (i : ℕ) (v : BitVec 8), (published h)[i]? = some v → v = speedByte rand (k + i)) ∧
      ∀ (i : ℕ) (v : BitVec 8), (checked h)[i]? = some v → v = speedByte rand (k + i) := by
  have hall := (realizes_iff hs hn hfuel hssi).1 hreal
  have hreceived (i : ℕ) : received outcome r₀ (i + 1) = speedByte rand (k + i) := by
    rw [received, hall]
    rfl
  obtain ⟨-, -, hpublished, hchecked⟩ := run_rounds hr
  exact ⟨fun i v hv => (hpublished i v hv).trans (hreceived i),
    fun i v hv => (hchecked i v hv).trans (hreceived i)⟩

/-- A sensor for which `rand` counts up from 300, and a round of the two tasks. -/
theorem run_speeds_once : ∃ outcome h s,
    Realizes true 3 ⟨LpspiIp.StateStructure.cleared, Lpspi.withSensor fun k => 300 + k⟩ outcome ∧
    run outcome (atStart 0#8 []) oneCheck = .ok (h, s) ∧ checked h = [45#8] ∧
    ∀ (i : ℕ) (v : BitVec 8), (checked h)[i]? = some v →
      v = speedByte (fun k => 300 + k) (0 + i) := by
  have hs : Settled (Lpspi.withSensor fun k => 300 + k) := (Lpspi.powerOn_withSensor _).settled
  have hreal : Realizes true 3
      ⟨LpspiIp.StateStructure.cleared, Lpspi.withSensor fun k => 300 + k⟩ _ :=
    (realizes_iff hs (by decide) (by decide) rfl).2 fun _ => rfl
  have hmap : (run (fun i => .success (speedByte (fun k => 300 + k) (0 + i))) (atStart 0#8 [])
      oneCheck).map (fun r => checked r.1) = .ok [45#8] := by decide +kernel
  obtain ⟨⟨h, s⟩, hrun, hchecked⟩ := Mealy.exists_of_map_eq_ok hmap
  exact ⟨_, h, s, hreal, hrun, hchecked, (run_speeds hs (by decide) (by decide) rfl hreal hrun).2⟩

end S32K358.Demo
