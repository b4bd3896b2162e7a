import Mathlib.Tactic.Common
import Mathlib.Data.Nat.Basic

/-!
# Programs that may stop, and their loops

A program in `Except` gives a result or stops with an error. What is proved of one is
how it ends (`Ends`): with an error of a certain kind, or with a result of a certain
kind. With no errors allowed (`NoError`), the program does not stop.

A loop (`Loop.run`) passes through its body until a pass leaves it with a result; it is
given the number of passes it may take, and gives `none` if this is not enough, so that
a loop that does not end is one that gives `none` however many passes it may take.

* `Loop.run_ends`: a loop whose passes keep an invariant and decrease a rank is left,
  with enough passes, as its last pass leaves it;
* `Loop.run_keeps`: a loop whose passes keep an invariant is left, if at all, as its last
  pass leaves it;
* `Loop.run_eq_none`: a loop whose passes never leave an invariant does not end.
-/

namespace Program

variable {ε α β : Type*}

/-- The program stops with an error of `E`, or gives a result of `Q`. -/
def Ends (E : ε → Prop) (x : Except ε α) (Q : α → Prop) : Prop :=
  match x with
  | .error e => E e
  | .ok a => Q a

/-- No error is allowed. -/
abbrev NoError (_ : ε) : Prop := False

/-- All errors are allowed. -/
abbrev AnyError (_ : ε) : Prop := True

variable {E : ε → Prop} {x : Except ε α} {Q : α → Prop} {a : α}

theorem ends_pure (h : Q a) : Ends E (pure a) Q := h

theorem Ends.mono {Q' : α → Prop} (h : Ends E x Q) (hQ : ∀ a, Q a → Q' a) : Ends E x Q' := by
  match x, h with
  | .error _, h => exact h
  | .ok a, h => exact hQ a h

/-- The first part of a program ends in the states that the second part starts in. -/
theorem Ends.bind {α β : Type _} {x : Except ε α} {Q : α → Prop} {f : α → Except ε β}
    {R : β → Prop} (h : Ends E x Q) (hf : ∀ a, Q a → Ends E (f a) R) : Ends E (x >>= f) R := by
  match x, h with
  | .error _, h => exact h
  | .ok a, h => exact hf a h

/-- The second part of a program may be replaced by one that is the same where it starts. -/
theorem Ends.bind_congr {α β : Type _} {x : Except ε α} {Q : α → Prop} {f g : α → Except ε β}
    (h : Ends E x Q) (hfg : ∀ a, Q a → f a = g a) : (x >>= f) = x >>= g := by
  match x, h with
  | .error _, _ => rfl
  | .ok a, h => exact hfg a h

theorem ends_ok_bind {α β : Type _} {a : α} {f : α → Except ε β} {R : β → Prop} :
    Ends E (.ok a >>= f) R ↔ Ends E (f a) R := Iff.rfl

theorem ends_ite {x y : Except ε α} {c : Prop} [Decidable c] (hx : c → Ends E x Q)
    (hy : ¬c → Ends E y Q) : Ends E (if c then x else y) Q := by
  split_ifs with h
  · exact hx h
  · exact hy h

theorem ends_map {f : α → β} {R : β → Prop} (h : Ends E x fun a => R (f a)) :
    Ends E (x.map f) R := by
  match x, h with
  | .error _, h => exact h
  | .ok _, h => exact h

theorem ends_noError_iff : Ends NoError x Q ↔ ∃ a, x = .ok a ∧ Q a := by
  match x with
  | .error _ => exact ⟨False.elim, nofun⟩
  | .ok a => exact ⟨fun h => ⟨a, rfl, h⟩, fun ⟨_, rfl, h⟩ => h⟩

/-- How a program ends, in terms of what it gives. -/
theorem ends_iff : Ends E x Q ↔ (∃ e, x = .error e ∧ E e) ∨ ∃ a, x = .ok a ∧ Q a := by
  match x with
  | .error e => simp [Ends]
  | .ok a => simp [Ends]

/-- What is proved of a program on its own, of any errors, adds to what it gives. -/
theorem Ends.and {Q' : α → Prop} (h : Ends E x Q) (h' : Ends AnyError x Q') :
    Ends E x fun a => Q a ∧ Q' a := by
  match x, h, h' with
  | .error _, h, _ => exact h
  | .ok _, h, h' => exact ⟨h, h'⟩

/-! ## Repetition -/

section Times

variable {f : α → Except ε α} {I D : α → Prop} {k : ℕ}

/-- A program is run `k` times. -/
def times (f : α → Except ε α) : ℕ → α → Except ε α
  | 0, a => .ok a
  | k + 1, a => f a >>= times f k

theorem times_ends (h : ∀ a, I a → Ends E (f a) I) (ha : I a) (k : ℕ) :
    Ends E (times f k a) I := by
  induction k generalizing a with
  | zero => exact ha
  | succ k ih => exact (h a ha).bind fun b hb => ih hb

/-- A program that keeps an invariant and decreases a rank until it is done, and that keeps
    what is done, is done when it has been run often enough. -/
theorem times_reaches (rank : α → ℕ)
    (hstep : ∀ a, I a → Ends E (f a) fun b => D b ∨ I b ∧ rank b < rank a)
    (hdone : ∀ a, D a → Ends E (f a) D) (ha : I a) (hk : rank a < k) :
    Ends E (times f k a) D := by
  induction k generalizing a with
  | zero => exact absurd hk (Nat.not_lt_zero _)
  | succ k ih =>
    refine (hstep a ha).bind fun b hb => ?_
    rcases hb with hb | ⟨hb, hlt⟩
    · exact times_ends hdone hb k
    · exact ih hb (by omega)

end Times

end Program

open Program

/-- What a pass through the body of a loop comes to: another pass, or a result. -/
inductive Pass (σ α : Type*)
  | next (s : σ)
  | exit (a : α)

namespace Loop

variable {σ α ε : Type*}

/-- At most `k` passes through the body of a loop. -/
def run (body : σ → Except ε (Pass σ α)) : ℕ → σ → Except ε (Option α)
  | 0, _ => .ok none
  | k + 1, s =>
    match body s with
    | .error e => .error e
    | .ok (.next t) => run body k t
    | .ok (.exit a) => .ok (some a)

variable {body : σ → Except ε (Pass σ α)} {s : σ} {k : ℕ} {E : ε → Prop} {I : σ → Prop}
  {Q : α → Prop}

/-- After a pass: the invariant holds again, with a smaller rank, or the loop is left. -/
def After (I : σ → Prop) (Q : α → Prop) (rank : σ → ℕ) (s : σ) : Pass σ α → Prop
  | .next t => I t ∧ rank t < rank s
  | .exit a => Q a

theorem run_ends (rank : σ → ℕ) (hpass : ∀ s, I s → Ends E (body s) (After I Q rank s))
    (hs : I s) (hk : rank s < k) : Ends E (run body k s) fun r => ∃ a, r = some a ∧ Q a := by
  induction k generalizing s with
  | zero => exact absurd hk (Nat.not_lt_zero _)
  | succ k ih =>
    have h := hpass s hs
    rw [run]
    match hb : body s with
    | .error e =>
      rw [hb] at h
      exact h
    | .ok (.next t) =>
      rw [hb] at h
      obtain ⟨hI, hlt⟩ : I t ∧ rank t < rank s := h
      exact ih hI (by omega)
    | .ok (.exit a) =>
      rw [hb] at h
      exact ⟨a, rfl, h⟩

/-- After a pass: the invariant holds again, or the loop is left. -/
def Keeps (I : σ → Prop) (Q : α → Prop) : Pass σ α → Prop
  | .next t => I t
  | .exit a => Q a

theorem Keeps.ite {x y : Pass σ α} {c : Prop} [Decidable c] (hx : c → Keeps I Q x)
    (hy : ¬c → Keeps I Q y) : Keeps I Q (if c then x else y) := by
  split_ifs with h
  · exact hx h
  · exact hy h

theorem run_keeps (hpass : ∀ s, I s → Ends E (body s) (Keeps I Q)) (hs : I s) (k : ℕ) :
    Ends E (run body k s) fun r => ∀ a, r = some a → Q a := by
  induction k generalizing s with
  | zero => exact nofun
  | succ k ih =>
    have h := hpass s hs
    rw [run]
    match hb : body s with
    | .error e =>
      rw [hb] at h
      exact h
    | .ok (.next t) =>
      rw [hb] at h
      exact ih h
    | .ok (.exit a) =>
      rw [hb] at h
      rintro _ ⟨⟩
      exact h

theorem run_eq_none (hpass : ∀ s, I s → ∃ t, body s = .ok (.next t) ∧ I t) (hs : I s) (k : ℕ) :
    run body k s = .ok none := by
  induction k generalizing s with
  | zero => rfl
  | succ k ih =>
    obtain ⟨t, ht, hI⟩ := hpass s hs
    rw [run, ht]
    exact ih hI

end Loop
