import Mathlib.Tactic

/-!
# Ring buffers

A queue of at most `n` elements in an array of `n` cells, used circularly: the
queue is the `num` cells from `head` on, wrapping around at the end of the
array. The structure carries its bounds, so that every cell of the queue is
one of the array.

What a ring buffer is for is its `contents`, the list of the elements queued,
oldest first: `push` appends to it (`contents_push`) and `pop` removes its
head (`contents_pop`), wherever in the array the queue happens to lie. When
there is no room, resp. nothing, left, they do nothing.
-/

/-- A queue of at most `n` elements, in a circular array. -/
structure RingBuffer (α : Type*) (n : ℕ) where
  /-- The cells, in use or not. -/
  data : Vector α n
  /-- The cell of the oldest element. -/
  head : ℕ
  /-- The number of elements queued. -/
  num : ℕ
  head_lt : head < n
  num_le : num ≤ n

namespace RingBuffer

variable {α : Type*} {n : ℕ}

/-- The cell of the `i`-th element. -/
def slot (r : RingBuffer α n) (i : ℕ) : Fin n :=
  ⟨(r.head + i) % n, Nat.mod_lt _ (Nat.zero_lt_of_lt r.head_lt)⟩

/-- The elements queued, oldest first. -/
def contents (r : RingBuffer α n) : List α :=
  (List.range r.num).map fun i => r.data.get (r.slot i)

/-- The empty queue in an array. -/
def create (data : Vector α n) (hn : 0 < n) : RingBuffer α n where
  data := data
  head := 0
  num := 0
  head_lt := hn
  num_le := Nat.zero_le n

/-- Forgetting the elements queued (their cells keep them). -/
def reset (r : RingBuffer α n) : RingBuffer α n :=
  create r.data (Nat.zero_lt_of_lt r.head_lt)

/-- Queueing an element, if there is room. -/
def push (r : RingBuffer α n) (x : α) : RingBuffer α n :=
  if h : r.num < n then
    { r with
      data := r.data.set (r.slot r.num) x (r.slot r.num).2
      num := r.num + 1
      num_le := h }
  else r

/-- The oldest element, if any. -/
def front? (r : RingBuffer α n) : Option α :=
  if r.num = 0 then none else some (r.data.get ⟨r.head, r.head_lt⟩)

/-- Removing the oldest element, if any. -/
def pop (r : RingBuffer α n) : RingBuffer α n :=
  if r.num = 0 then r
  else
    { r with
      head := (r.head + 1) % n
      num := r.num - 1
      head_lt := Nat.mod_lt _ (Nat.zero_lt_of_lt r.head_lt)
      num_le := (Nat.sub_le _ _).trans r.num_le }

/-! ## Contents -/

variable (r : RingBuffer α n)

@[simp] theorem length_contents : r.contents.length = r.num := by simp [contents]

@[simp] theorem contents_create (data : Vector α n) (hn : 0 < n) :
    (create data hn).contents = [] := rfl

@[simp] theorem num_create (data : Vector α n) (hn : 0 < n) : (create data hn).num = 0 := rfl

@[simp] theorem contents_reset : r.reset.contents = [] := rfl

@[simp] theorem num_reset : r.reset.num = 0 := rfl

/-- Different elements queued are in different cells. -/
theorem slot_ne {i j : ℕ} (hij : i < j) (hj : j < n) : (r.slot i : ℕ) ≠ r.slot j := by
  intro h
  have hmod : i ≡ j [MOD n] := Nat.ModEq.add_left_cancel' r.head h
  exact hij.ne (hmod.eq_of_lt_of_lt (hij.trans hj) hj)

/-- The new element goes to a cell outside the queue. -/
theorem contents_push {x : α} (h : r.num < n) : (r.push x).contents = r.contents ++ [x] := by
  have hold : ∀ i ∈ List.range r.num,
      (r.data.set (r.slot r.num) x (r.slot r.num).2).get (r.slot i) = r.data.get (r.slot i) := by
    intro i hi
    exact Vector.getElem_set_ne (r.slot r.num).2 (r.slot i).2
      (r.slot_ne (List.mem_range.1 hi) h).symm
  have hnew : (r.data.set (r.slot r.num) x (r.slot r.num).2).get (r.slot r.num) = x :=
    Vector.getElem_set_self _
  simp only [contents, push, dif_pos h, slot, List.range_succ, List.map_append, List.map_cons,
    List.map_nil] at hold hnew ⊢
  rw [List.map_congr_left hold, hnew]

theorem num_push {x : α} (h : r.num < n) : (r.push x).num = r.num + 1 := by
  simp [push, h]

theorem front?_eq : r.front? = r.contents.head? := by
  rcases Nat.eq_zero_or_pos r.num with h | h
  · simp [front?, contents, h]
  · obtain ⟨k, hk⟩ := Nat.exists_eq_succ_of_ne_zero h.ne'
    simp only [front?, contents, hk, List.range_succ_eq_map, List.map_cons, List.head?_cons,
      Nat.succ_ne_zero, if_false, slot, Nat.add_zero, Nat.mod_eq_of_lt r.head_lt]

/-- The queue starts one cell further on. -/
theorem contents_pop : r.pop.contents = r.contents.tail := by
  rcases Nat.eq_zero_or_pos r.num with h | h
  · simp [pop, contents, h]
  · obtain ⟨k, hk⟩ := Nat.exists_eq_succ_of_ne_zero h.ne'
    -- Wrapping around twice is wrapping around once.
    have hslot : ∀ i, (r.pop.slot i : ℕ) = r.slot (i + 1) := by
      intro i
      simp only [pop, hk, Nat.succ_ne_zero, if_false, slot]
      rw [Nat.mod_add_mod, Nat.add_assoc, Nat.add_comm 1 i]
    have hdata : r.pop.data = r.data := by simp [pop, hk]
    have hnum : r.pop.num = k := by simp [pop, hk]
    simp only [contents, hnum, hk, List.range_succ_eq_map, List.map_cons, List.tail_cons,
      List.map_map, hdata]
    refine List.map_congr_left fun i _ => ?_
    exact congrArg r.data.get (Fin.ext (hslot i))

theorem pop_of_num_eq_zero (h : r.num = 0) : r.pop = r := if_pos h

@[simp] theorem num_pop : r.pop.num = r.num - 1 := by
  unfold pop
  split
  · omega
  · rfl

/-! ## Several elements -/

/-- Queueing elements in turn. -/
def pushAll (r : RingBuffer α n) (l : List α) : RingBuffer α n := l.foldl push r

/-- Removing the `k` oldest elements. -/
def popN (r : RingBuffer α n) (k : ℕ) : RingBuffer α n := pop^[k] r

@[simp] theorem pushAll_nil : r.pushAll [] = r := rfl

@[simp] theorem pushAll_cons (x : α) (l : List α) :
    r.pushAll (x :: l) = (r.push x).pushAll l := rfl

@[simp] theorem popN_zero : r.popN 0 = r := rfl

theorem popN_succ (k : ℕ) : r.popN (k + 1) = r.pop.popN k := Function.iterate_succ_apply _ _ _

theorem contents_pushAll {l : List α} (h : r.num + l.length ≤ n) :
    (r.pushAll l).contents = r.contents ++ l := by
  induction l generalizing r with
  | nil => simp
  | cons x l ih =>
    rw [List.length_cons] at h
    have hroom : r.num < n := by omega
    rw [pushAll_cons, ih _ (by rw [num_push r hroom]; omega), contents_push r hroom,
      List.append_assoc, List.singleton_append]

theorem num_pushAll {l : List α} (h : r.num + l.length ≤ n) :
    (r.pushAll l).num = r.num + l.length := by
  rw [← length_contents, contents_pushAll r h, List.length_append, length_contents]

@[simp] theorem contents_popN (k : ℕ) : (r.popN k).contents = r.contents.drop k := by
  induction k generalizing r with
  | zero => simp
  | succ k ih => rw [popN_succ, ih, contents_pop, List.drop_tail]

@[simp] theorem num_popN (k : ℕ) : (r.popN k).num = r.num - k := by
  rw [← length_contents, contents_popN, List.length_drop, length_contents]

end RingBuffer
