import Mathlib.Data.List.Basic
import Mathlib.Logic.Function.Basic
import S32K358.Lib.Mealy

/-!
# Tasks that take turns

A program has some tasks, each of which repeats its body for ever. They share a memory,
and take turns in any order, one statement at a time. A statement may block its task,
e.g., until it gets a token from a `Semaphore`, and it may leave others to be executed
first, when it is a loop or a choice.

* `Program.step`: the tasks as a machine, whose inputs are the tasks to go next. A run
  that does not stop is one where no task goes on while it is blocked;
* `forall_code_step`, `forall_tail_step`: what holds of the statements of the bodies, and
  of those that are left by a statement, holds of what is left of the code;
* `alone`: what a task does if it runs alone, as far as it can be told statement by
  statement (`Describes`);
* `Inserted`: the traces of several tasks, some of which only insert copies of one element.
-/

namespace Tasks

/-! ## Semaphores -/

/-- A counting semaphore, with some of at most `max` tokens. -/
@[ext]
structure Semaphore (max : ℕ) where
  count : ℕ
  count_le : count ≤ max
  deriving DecidableEq, Repr

namespace Semaphore

variable {max : ℕ} {q r : Semaphore max}

/-- A token is taken, if there is one. -/
def take (q : Semaphore max) : Option (Semaphore max) :=
  if q.count = 0 then none else some ⟨q.count - 1, Nat.le_trans (Nat.sub_le _ _) q.count_le⟩

/-- A token is given back, unless all are there. -/
def give (q : Semaphore max) : Semaphore max := ⟨min (q.count + 1) max, Nat.min_le_right _ _⟩

theorem take_eq_some : q.take = some r ↔ q.count = r.count + 1 := by
  by_cases h : q.count = 0
  · simp only [take, h, if_true, reduceCtorEq]
  · simp only [take, h, if_false, Option.some.injEq, Semaphore.ext_iff]
    omega

@[simp] theorem count_give : q.give.count = min (q.count + 1) max := rfl

end Semaphore

/-! ## Programs -/

/-- A program with the tasks `T`, the statements `S`, the memory `μ` and the outputs `ο`. -/
structure Program (T S μ ο : Type*) where
  /-- What a task repeats. -/
  body : T → List S
  /-- What a statement leaves to be executed in its place, what it gives off, and the
      memory after it, unless it blocks. -/
  exec : S → μ → Option (List S × ο × μ)

/-- What the tasks have left of their bodies, and the memory. -/
structure State (T S μ : Type*) where
  code : T → List S
  mem : μ

/-- A task cannot go on. -/
inductive Blocked
  | blocked
  deriving DecidableEq, Repr

variable {T S μ ο : Type*} {P : Program T S μ ο} {s s' : State T S μ} {t : T} {o : ο}

/-- What a task has to do: if nothing is left, its body again. -/
def Program.todo (P : Program T S μ ο) (s : State T S μ) (t : T) : List S :=
  match s.code t with
  | [] => P.body t
  | st :: k => st :: k

/-- The program, as a machine: a task executes its next statement. -/
def Program.step [DecidableEq T] (P : Program T S μ ο) (s : State T S μ) (t : T) :
    Except Blocked (ο × State T S μ) :=
  match P.todo s t with
  | [] => .error .blocked
  | st :: k =>
    match P.exec st s.mem with
    | none => .error .blocked
    | some (more, o, m) => .ok (o, ⟨Function.update s.code t (more ++ k), m⟩)

theorem Program.todo_of_nil (h : s.code t = []) : P.todo s t = P.body t := by
  rw [todo, h]

theorem Program.todo_of_ne_nil (h : s.code t ≠ []) : P.todo s t = s.code t := by
  unfold todo
  split
  · contradiction
  · rw [‹s.code t = _›]

theorem Program.mem_of_mem_todo {st : S} (h : st ∈ P.todo s t) : st ∈ s.code t ∨ st ∈ P.body t := by
  by_cases hc : s.code t = []
  · exact .inr (todo_of_nil (P := P) hc ▸ h)
  · exact .inl (todo_of_ne_nil (P := P) hc ▸ h)

section Step

variable [DecidableEq T]

/-- A step of a task executes its next statement. -/
theorem Program.step_ok (h : P.step s t = .ok (o, s')) :
    ∃ st k more m, P.todo s t = st :: k ∧ P.exec st s.mem = some (more, o, m) ∧
      s' = ⟨Function.update s.code t (more ++ k), m⟩ := by
  rw [step] at h
  split at h
  · exact absurd h (by simp)
  · rename_i st k htodo
    split at h
    · exact absurd h (by simp)
    · rename_i more o' m hexec
      simp only [Except.ok.injEq, Prod.mk.injEq] at h
      exact ⟨st, k, more, m, htodo, h.1 ▸ hexec, h.2.symm⟩

/-- A task leaves the code of the others as it is. -/
theorem Program.code_of_ne {u : T} (h : P.step s t = .ok (o, s')) (hu : u ≠ t) :
    s'.code u = s.code u := by
  obtain ⟨st, k, more, m, -, -, rfl⟩ := step_ok h
  exact Function.update_of_ne hu _ _

/-! ## Statements of the code -/

/-- What holds of all statements of the bodies, and is handed on to those that are left by
    a statement, holds of the code. -/
theorem forall_code_step {p : T → S → Prop} (body : ∀ t, ∀ st ∈ P.body t, p t st)
    (more : ∀ t st m more o m', p t st → P.exec st m = some (more, o, m') → ∀ x ∈ more, p t x)
    (hs : ∀ u, ∀ st ∈ s.code u, p u st) (h : P.step s t = .ok (o, s')) :
    ∀ u, ∀ st ∈ s'.code u, p u st := by
  obtain ⟨st, k, left, m, htodo, hexec, rfl⟩ := Program.step_ok h
  have hall : ∀ x ∈ st :: k, p t x := fun x hx =>
    (Program.mem_of_mem_todo (htodo ▸ hx)).elim (hs t x) (body t x)
  refine (Function.forall_update_iff _ fun u c => ∀ x ∈ c, p u x).2 ⟨?_, fun u _ => hs u⟩
  intro x hx
  rcases List.mem_append.1 hx with hx | hx
  · exact more t st _ left _ _ (hall st List.mem_cons_self) hexec x hx
  · exact hall x (List.mem_cons_of_mem _ hx)

/-- What holds of all statements of the bodies, and of those that are left by a statement
    but for the first, holds of the code but for the next statement. -/
theorem forall_tail_step {p : S → Prop} (body : ∀ t, ∀ st ∈ P.body t, p st)
    (more : ∀ st m more o m', P.exec st m = some (more, o, m') → ∀ x ∈ more.tail, p x)
    (hs : ∀ u, ∀ st ∈ (s.code u).tail, p st) (h : P.step s t = .ok (o, s')) :
    ∀ u, ∀ st ∈ (s'.code u).tail, p st := by
  obtain ⟨st, k, left, m, htodo, hexec, rfl⟩ := Program.step_ok h
  have hk : ∀ x ∈ k, p x := by
    intro x hx
    by_cases hc : s.code t = []
    · rw [Program.todo_of_nil hc] at htodo
      exact body t x (htodo ▸ List.mem_cons_of_mem _ hx)
    · rw [Program.todo_of_ne_nil hc] at htodo
      exact hs t x (by rw [htodo]; exact hx)
  refine (Function.forall_update_iff _ fun _ (c : List S) => ∀ x ∈ c.tail, p x).2
    ⟨?_, fun u _ => hs u⟩
  intro x hx
  cases left with
  | nil => exact hk x (List.mem_of_mem_tail hx)
  | cons y left =>
    rcases List.mem_append.1 hx with hx | hx
    · exact more st _ _ _ _ hexec x hx
    · exact hk x hx

end Step

/-! ## Running alone -/

section Alone

variable {γ ν : Type*} {eff : S → ν → List γ × ν}

/-- What some statements do one after the other: the marks they make, and how a view of
    the memory changes. -/
def alone (eff : S → ν → List γ × ν) : List S → ν → List γ × ν
  | [], v => ([], v)
  | st :: k, v => ((eff st v).1 ++ (alone eff k (eff st v).2).1, (alone eff k (eff st v).2).2)

theorem alone_append (c d : List S) (v : ν) :
    alone eff (c ++ d) v =
      ((alone eff c v).1 ++ (alone eff d (alone eff c v).2).1,
        (alone eff d (alone eff c v).2).2) := by
  induction c generalizing v with
  | nil => rfl
  | cons st c ih => simp only [List.cons_append, alone, ih, List.append_assoc]

/-- A statement does what `eff` says: a part at once, and the rest by the statements it
    leaves. -/
def Describes (eff : S → ν → List γ × ν) (P : Program T S μ ο) (view : μ → ν)
    (marks : ο → List γ) : Prop :=
  ∀ st m more o m', P.exec st m = some (more, o, m') →
    eff st (view m) = (marks o ++ (alone eff more (view m')).1, (alone eff more (view m')).2)

theorem Describes.alone_cons {view : μ → ν} {marks : ο → List γ} {st : S} {k more : List S}
    {m m' : μ} (h : Describes eff P view marks) (hexec : P.exec st m = some (more, o, m')) :
    alone eff (st :: k) (view m) =
      (marks o ++ (alone eff (more ++ k) (view m')).1, (alone eff (more ++ k) (view m')).2) := by
  simp only [alone, alone_append, h st m more o m' hexec, List.append_assoc]

end Alone

/-! ## Insertions -/

/-- The second list is the first one with copies of `c` inserted. -/
inductive Inserted {α : Type*} (c : α) : List α → List α → Prop
  | nil : Inserted c [] []
  | keep (a : α) {l m : List α} : Inserted c l m → Inserted c (a :: l) (a :: m)
  | insert {l m : List α} : Inserted c l m → Inserted c l (c :: m)

namespace Inserted

variable {α : Type*} {c : α} {l m l' m' : List α}

theorem refl (c : α) : ∀ l : List α, Inserted c l l
  | [] => .nil
  | a :: l => .keep a (refl c l)

theorem append (h : Inserted c l m) (h' : Inserted c l' m') : Inserted c (l ++ l') (m ++ m') := by
  induction h with
  | nil => exact h'
  | keep a _ ih => exact .keep a ih
  | insert _ ih => exact .insert ih

theorem flatMap {β : Type*} {f g : β → List α} {xs : List β}
    (h : ∀ x ∈ xs, Inserted c (f x) (g x)) : Inserted c (xs.flatMap f) (xs.flatMap g) := by
  induction xs with
  | nil => exact .nil
  | cons x xs ih =>
    rw [List.flatMap_cons, List.flatMap_cons]
    exact (h x List.mem_cons_self).append (ih fun y hy => h y (List.mem_cons_of_mem _ hy))

end Inserted

end Tasks
