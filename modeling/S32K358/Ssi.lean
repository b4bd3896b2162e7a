import Mathlib.Data.Int.Order.Basic
import Mathlib.Data.List.Basic

/-!
# The SPI bus and the motor speed sensor

The bus of `ssi.c` hands a word to its peripherals, one after the other, and combines
their answers. A peripheral may change the world while it answers: the sensor of
`motor_speed.c` calls `rand`, so its world is the number of calls made so far, and
the results of the calls (`rand`) are a parameter. A sensor that is realized seeds `rand`
with the time, so nothing is assumed about them, and the calls are counted anew.
-/

namespace S32K358.Ssi

/-! ## The bus -/

/-- `SSICSMode`. -/
inductive CsMode
  | none | low | high
  deriving DecidableEq, Repr

/-- `SSIPeripheralClass`, without the callbacks that no modelled class overrides. -/
structure PeripheralClass (γ ω : Type) where
  transfer : γ → BitVec 32 → ω → BitVec 32 × γ × ω
  csPolarity : CsMode

/-- `SSIPeripheral`, with the state of the device. -/
structure Peripheral (γ ω : Type) where
  spc : PeripheralClass γ ω
  cs : Bool
  dev : γ

variable {γ ω : Type}

/-- `ssi_transfer_raw_default`: a peripheral that is not selected answers zero. -/
def ssiTransferRawDefault (p : Peripheral γ ω) (val : BitVec 32) (w : ω) :
    BitVec 32 × Peripheral γ ω × ω :=
  if (p.cs ∧ p.spc.csPolarity = .high) ∨ (!p.cs ∧ p.spc.csPolarity = .low) ∨
      p.spc.csPolarity = .none then
    let (r, dev, w) := p.spc.transfer p.dev val w
    (r, { p with dev := dev }, w)
  else (0#32, p, w)

/-- The loop of `ssi_transfer` over the children of the bus. -/
def ssiTransferLoop (val : BitVec 32) :
    List (Peripheral γ ω) → BitVec 32 → ω → BitVec 32 × List (Peripheral γ ω) × ω
  | [], r, w => (r, [], w)
  | p :: children, r, w =>
    let (a, p, w) := ssiTransferRawDefault p val w
    let (r, children, w) := ssiTransferLoop val children (r ||| a) w
    (r, p :: children, w)

/-- `ssi_transfer`. -/
def ssiTransfer (children : List (Peripheral γ ω)) (val : BitVec 32) (w : ω) :
    BitVec 32 × List (Peripheral γ ω) × ω :=
  ssiTransferLoop val children 0#32 w

/-- A peripheral without a chip select, alone on its bus, gives the answers of the bus. -/
theorem ssiTransfer_singleton {p : Peripheral γ ω} (hp : p.spc.csPolarity = .none)
    (val : BitVec 32) (w : ω) :
    ssiTransfer [p] val w =
      ((p.spc.transfer p.dev val w).1, [{ p with dev := (p.spc.transfer p.dev val w).2.1 }],
        (p.spc.transfer p.dev val w).2.2) := by
  have hraw : ssiTransferRawDefault p val w = ((p.spc.transfer p.dev val w).1,
      { p with dev := (p.spc.transfer p.dev val w).2.1 }, (p.spc.transfer p.dev val w).2.2) :=
    if_pos (.inr (.inr hp))
  simp only [ssiTransfer, ssiTransferLoop, hraw, BitVec.zero_or]

/-! ## The sensor -/

/-- `MotorSpeedSensor`. -/
structure MotorSpeedSensor where
  lastSpeed : BitVec 16
  transferValue : BitVec 16
  deriving DecidableEq, Repr

def cmdGetSpeed : BitVec 32 := 0xAA#32

/-- `generate_random_speed`, at the call number `k` of `rand`. -/
def generateRandomSpeed (rand : ℕ → ℤ) (k : ℕ) : BitVec 16 := BitVec.ofInt 16 ((rand k).tmod 255)

/-- `motor_speed_sensor_transfer`. -/
def motorSpeedSensorTransfer (rand : ℕ → ℤ) (sensor : MotorSpeedSensor) (val : BitVec 32) (k : ℕ) :
    BitVec 32 × MotorSpeedSensor × ℕ :=
  let (sensor, k) :=
    if val = cmdGetSpeed then
      let speed := generateRandomSpeed rand k
      ({ lastSpeed := speed, transferValue := speed }, k + 1)
    else (sensor, k)
  (sensor.transferValue.setWidth 32, sensor, k)

/-- `motor_speed_sensor_realize`. It also calls `srand(time(NULL))`: the calls of `rand` are
    counted from there, and `rand` is what they give. -/
def motorSpeedSensorRealize : MotorSpeedSensor where
  lastSpeed := 0#16
  transferValue := 0#16

/-- The class of the sensor, which has no chip select. -/
def motorSpeedSensorClass (rand : ℕ → ℤ) : PeripheralClass MotorSpeedSensor ℕ where
  transfer := motorSpeedSensorTransfer rand
  csPolarity := .none

/-- A sensor on a bus. -/
def motorSpeedSensor (rand : ℕ → ℤ) (sensor : MotorSpeedSensor) :
    Peripheral MotorSpeedSensor ℕ where
  spc := motorSpeedSensorClass rand
  cs := false
  dev := sensor

/-- From the calls number `k` and `k'` on, `rand` and `rand'` give the same speeds. -/
def SameSpeeds (rand : ℕ → ℤ) (k : ℕ) (rand' : ℕ → ℤ) (k' : ℕ) : Prop :=
  ∀ j, generateRandomSpeed rand (k + j) = generateRandomSpeed rand' (k' + j)

/-- The speed after `m` commands, if the first one is the call number `k` of `rand`. -/
def speedAfter (rand : ℕ → ℤ) (k : ℕ) (before : BitVec 16) : ℕ → BitVec 16
  | 0 => before
  | m + 1 => generateRandomSpeed rand (k + m)

variable {rand : ℕ → ℤ}

theorem generateRandomSpeed_le (hrand : ∀ i, 0 ≤ rand i) (k : ℕ) :
    (generateRandomSpeed rand k).toNat ≤ 254 := by
  have hmod : (rand k).tmod 255 = rand k % 255 := Int.tmod_eq_emod_of_nonneg (hrand k)
  have hnonneg : 0 ≤ rand k % 255 := Int.emod_nonneg _ (by decide)
  have hlt : rand k % 255 < 255 := Int.emod_lt_of_pos _ (by decide)
  rw [generateRandomSpeed, hmod, BitVec.toNat_ofInt]
  omega

theorem speedAfter_le (hrand : ∀ i, 0 ≤ rand i) (k m : ℕ) :
    (speedAfter rand k 0#16 m).toNat ≤ 254 := by
  cases m with
  | zero => exact Nat.zero_le _
  | succ m => exact generateRandomSpeed_le hrand _

/-- The speed after one more command. -/
theorem speedAfter_succ (rand : ℕ → ℤ) (k : ℕ) (before : BitVec 16) (m : ℕ) :
    speedAfter rand k before (m + 1) = speedAfter rand (k + 1) (generateRandomSpeed rand k) m := by
  cases m with
  | zero => rfl
  | succ m => rw [speedAfter, speedAfter, Nat.add_right_comm, Nat.add_assoc]

end S32K358.Ssi
