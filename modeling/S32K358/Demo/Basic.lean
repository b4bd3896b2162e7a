import S32K358.Lib.Tasks

/-!
# The demo firmware

The tasks of `main.c` of the FreeRTOS demo. `ReadSpeedTask` reads the speed of the motor
from the sensor, publishes it in `g_last_speed` and prints it, `CheckSpeedTask` prints
whether it is high, and the two take turns with the semaphores `xSemaphore` and
`ySemaphore`. `TaskCodeC` prints a message whenever the timer wakes it with `zSemaphore`.
All print on the same UART, with the mutex `xMutex`.

A task may be preempted between any two statements, and in `print` also between any two
bytes, so the tasks and the callback of the timer (which the timer task calls again and
again) are a `Tasks.Program`. What the driver of the LPSPI does in each transfer
(`Outcome`) is a parameter.
-/

namespace S32K358.Demo

open Tasks

/-! ## Statements -/

/-- A string, without the zero at its end. -/
abbrev Text : Type := List (BitVec 8)

def text (str : String) : Text := str.toList.map fun c => BitVec.ofNat 8 c.toNat

def readingText : Text := text "=== Task A: Reading Speed ===\r\n"
def speedText : Text := text "Motor Speed: "
def rpmText : Text := text " RPM\r\n\r\n"
def checkingText : Text := text "=== Task B: Checking Speed ===\r\n"
def highText : Text := text "Status: ATTENZIONE, alta velocita'!\r\n\r\n"
def normalText : Text := text "Status: Velocita' normale.\r\n\r\n"
def wokeText : Text := text "=== Task C woke via Timer ===\r\n"

/-- `HIGH_SPEED_THRESHOLD`. -/
def highSpeedThreshold : ℕ := 200

/-- The semaphores and the mutex. -/
inductive Handle
  | xSemaphore | ySemaphore | zSemaphore | xMutex
  deriving DecidableEq, Repr

/-- What is printed: a string of the program, or the buffer of `ReadSpeedTask`. -/
inductive Arg
  | str (text : Text)
  | buf
  deriving DecidableEq, Repr

inductive Stmt
  /-- `vTaskDelayUntil(&last_wake, period)`. -/
  | vTaskDelayUntil
  /-- `xSemaphoreTake(q, portMAX_DELAY)`. -/
  | xSemaphoreTake (q : Handle)
  /-- `xSemaphoreGive(q)`. -/
  | xSemaphoreGive (q : Handle)
  /-- `print(str)`. -/
  | print (str : Arg)
  /-- The loop of `print`, with what is left of the string, and what follows it. -/
  | printLoop (str : Text)
  /-- `Motor_Sensor_ReadValue(CMD_GET_SPEED, &received_value)`. -/
  | motorSensorReadValue
  /-- `g_last_speed = received_value`. -/
  | setLastSpeed
  /-- `uint8_to_str(g_last_speed, buf)`. -/
  | uint8ToStr
  /-- `if (g_last_speed > HIGH_SPEED_THRESHOLD)`, with a `print` in each branch. -/
  | ifHighSpeed
  deriving DecidableEq, Repr

/-! ## Tasks -/

inductive Task
  | readSpeedTask | checkSpeedTask | taskCodeC | vTimerCallback
  deriving DecidableEq, Repr

def readSpeedTask : List Stmt :=
  [.vTaskDelayUntil, .xSemaphoreTake .xSemaphore, .print (.str readingText), .motorSensorReadValue,
    .setLastSpeed, .print (.str speedText), .uint8ToStr, .print .buf, .print (.str rpmText),
    .xSemaphoreGive .ySemaphore]

def checkSpeedTask : List Stmt :=
  [.vTaskDelayUntil, .xSemaphoreTake .ySemaphore, .print (.str checkingText), .ifHighSpeed,
    .xSemaphoreGive .xSemaphore]

def taskCodeC : List Stmt := [.xSemaphoreTake .zSemaphore, .print (.str wokeText)]

def vTimerCallback : List Stmt := [.xSemaphoreGive .zSemaphore]

def body : Task → List Stmt
  | .readSpeedTask => readSpeedTask
  | .checkSpeedTask => checkSpeedTask
  | .taskCodeC => taskCodeC
  | .vTimerCallback => vTimerCallback

/-! ## Execution -/

/-- What `Lpspi_Ip_SyncTransmit` does, with a buffer for one byte. -/
inductive Outcome
  /-- `LPSPI_IP_STATUS_SUCCESS`, with the byte received. -/
  | success (rx : BitVec 8)
  /-- `LPSPI_IP_STATUS_FAIL`: the device is busy, and the buffer is left as it is. -/
  | fail
  /-- `LPSPI_IP_TIMEOUT`, before or after the byte was received. -/
  | timeout (rx : Option (BitVec 8))
  deriving DecidableEq, Repr

/-- The buffer afterwards. -/
def Outcome.rxBuffer : Outcome → BitVec 8 → BitVec 8
  | .success rx, _ => rx
  | .fail, old => old
  | .timeout rx, old => rx.getD old

structure Vars where
  gLastSpeed : BitVec 8
  /-- `received_value`, of `ReadSpeedTask`. -/
  receivedValue : BitVec 8
  /-- `buf`, of `ReadSpeedTask`. -/
  buf : Text
  /-- The number of calls of `Lpspi_Ip_SyncTransmit`. -/
  transfers : ℕ
  deriving DecidableEq, Repr

structure Memory where
  sems : Handle → Semaphore 1
  vars : Vars

/-- What is seen of the tasks, apart from the UART. -/
inductive Mark
  /-- A call of `print` got the mutex. -/
  | start (str : Text)
  /-- `Lpspi_Ip_SyncTransmit` was called. -/
  | transfer (r : Outcome)
  /-- `g_last_speed` was written. -/
  | publish (speed : BitVec 8)
  /-- `g_last_speed` was read, to be printed. -/
  | format (speed : BitVec 8)
  /-- `g_last_speed` was compared with the threshold. -/
  | check (speed : BitVec 8)
  deriving DecidableEq, Repr

/-- What a statement gives off: the bytes sent on the UART, and marks. -/
structure Output where
  sent : List (BitVec 8)
  marks : List Mark
  deriving DecidableEq, Repr

/-- `Motor_Sensor_ReadValue`, which does not look at the status of the transfer. -/
def motorSensorReadValue (outcome : ℕ → Outcome) (v : Vars) : Vars :=
  { v with
    receivedValue := (outcome v.transfers).rxBuffer v.receivedValue
    transfers := v.transfers + 1 }

/-- `uint8_to_str`. -/
def uint8ToStr (value : BitVec 8) : Text :=
  (Nat.toDigits 10 value.toNat).map fun c => BitVec.ofNat 8 c.toNat

/-- What is printed in the branch taken for a speed. -/
def statusText (speed : BitVec 8) : Text :=
  if speed.toNat > highSpeedThreshold then highText else normalText

def Arg.eval (v : Vars) : Arg → Text
  | .str text => text
  | .buf => v.buf

def Memory.setSem (m : Memory) (q : Handle) (c : Semaphore 1) : Memory :=
  { m with sems := Function.update m.sems q c }

/-- The execution of a statement. -/
def exec (outcome : ℕ → Outcome) (st : Stmt) (m : Memory) : Option (List Stmt × Output × Memory) :=
  match st with
  | .vTaskDelayUntil => some ([], ⟨[], []⟩, m)
  | .xSemaphoreTake q => (m.sems q).take.map fun c => ([], ⟨[], []⟩, m.setSem q c)
  | .xSemaphoreGive q => some ([], ⟨[], []⟩, m.setSem q (m.sems q).give)
  | .print str =>
    -- The mutex is taken, and the loop comes next.
    (m.sems .xMutex).take.map fun c =>
      ([.printLoop (str.eval m.vars)], ⟨[], [.start (str.eval m.vars)]⟩, m.setSem .xMutex c)
  | .printLoop (c :: str) => some ([.printLoop str], ⟨[c], []⟩, m)
  | .printLoop [] => some ([], ⟨[], []⟩, m.setSem .xMutex (m.sems .xMutex).give)
  | .motorSensorReadValue =>
    some ([], ⟨[], [.transfer (outcome m.vars.transfers)]⟩,
      { m with vars := motorSensorReadValue outcome m.vars })
  | .setLastSpeed =>
    let speed := m.vars.receivedValue
    some ([], ⟨[], [.publish speed]⟩, { m with vars := { m.vars with gLastSpeed := speed } })
  | .uint8ToStr =>
    let speed := m.vars.gLastSpeed
    some ([], ⟨[], [.format speed]⟩, { m with vars := { m.vars with buf := uint8ToStr speed } })
  | .ifHighSpeed =>
    let speed := m.vars.gLastSpeed
    some ([.print (.str (statusText speed))], ⟨[], [.check speed]⟩, m)

/-- The tasks, as a program. -/
def program (outcome : ℕ → Outcome) : Program Task Stmt Memory Output where
  body := body
  exec := exec outcome

abbrev State : Type := Tasks.State Task Stmt Memory

/-- The transitions of the program. -/
abbrev Step : Type := Mealy.Transition State Task Output

/-- The run of the program in which the given tasks go on, one after the other. -/
abbrev run (outcome : ℕ → Outcome) (s : State) (ts : List Task) :
    Except Blocked (List Step × State) := Mealy.run (program outcome).step s ts

/-- The semaphores as `main` creates them. -/
def createdSems : Handle → Semaphore 1
  | .xSemaphore | .xMutex => ⟨1, Nat.le_refl 1⟩
  | .ySemaphore | .zSemaphore => ⟨0, Nat.zero_le 1⟩

/-- The scheduler has been started. The local variables are not initialised. -/
def atStart (receivedValue : BitVec 8) (buf : Text) : State where
  code _ := []
  mem := ⟨createdSems, ⟨0#8, receivedValue, buf, 0⟩⟩

end S32K358.Demo
