import S32K358.Lib.RingBuffer

/-!
# Byte FIFOs

The FIFOs of `util/fifo8.c`: circular byte buffers, whose `fifo8_push` and
`fifo8_pop` assert that there is room, resp. something, left. A failed assertion
kills the emulator; it is one of the `Fault`s a guest access may run into, along
with those the device models themselves have (a division by zero, an index out
of the bounds of an array).
-/

namespace S32K358

/-- What kills the emulator, or is undefined behaviour. -/
inductive Fault
  /-- `assert(fifo->num < fifo->capacity)` in `fifo8_push`. -/
  | fifoFull
  /-- `assert(fifo->num > 0)` in `fifo8_pop`. -/
  | fifoEmpty
  /-- A division by zero. -/
  | divByZero
  /-- An index out of the bounds of `cs_lines`. -/
  | csOutOfBounds
  deriving DecidableEq, Repr

/-- A byte FIFO of a given capacity. -/
abbrev Fifo8 (capacity : ℕ) := RingBuffer (BitVec 8) capacity

variable {n : ℕ}

/-- `fifo8_create`. The buffer is not initialised in C, but no byte of it is
    read before it is written. -/
def fifo8Create (capacity : ℕ) (h : 0 < capacity) : Fifo8 capacity :=
  RingBuffer.create (Vector.replicate capacity 0#8) h

def fifo8Reset (f : Fifo8 n) : Fifo8 n := f.reset

def fifo8NumUsed (f : Fifo8 n) : ℕ := f.num

def fifo8NumFree (f : Fifo8 n) : ℕ := n - f.num

def fifo8IsEmpty (f : Fifo8 n) : Bool := f.num == 0

def fifo8IsFull (f : Fifo8 n) : Bool := f.num == n

def fifo8Push (f : Fifo8 n) (data : BitVec 8) : Except Fault (Fifo8 n) :=
  if f.num < n then .ok (f.push data) else .error .fifoFull

def fifo8Pop (f : Fifo8 n) : Except Fault (BitVec 8 × Fifo8 n) :=
  match f.front? with
  | some data => .ok (data, f.pop)
  | none => .error .fifoEmpty

@[simp] theorem fifo8NumUsed_eq (f : Fifo8 n) : fifo8NumUsed f = f.num := rfl

@[simp] theorem fifo8NumFree_eq (f : Fifo8 n) : fifo8NumFree f = n - f.num := rfl

@[simp] theorem fifo8Reset_eq (f : Fifo8 n) : fifo8Reset f = f.reset := rfl

@[simp] theorem fifo8IsEmpty_eq_true {f : Fifo8 n} : fifo8IsEmpty f = true ↔ f.num = 0 :=
  beq_iff_eq

@[simp] theorem fifo8IsFull_eq_true {f : Fifo8 n} : fifo8IsFull f = true ↔ f.num = n :=
  beq_iff_eq

theorem fifo8Push_of_lt {f : Fifo8 n} {data : BitVec 8} (h : f.num < n) :
    fifo8Push f data = .ok (f.push data) := if_pos h

/-- A byte popped is the oldest one. -/
theorem fifo8Pop_of_contents {f : Fifo8 n} {data : BitVec 8} {l : List (BitVec 8)}
    (h : f.contents = data :: l) : fifo8Pop f = .ok (data, f.pop) := by
  rw [fifo8Pop, f.front?_eq, h, List.head?_cons]

end S32K358
