import S32K358.Lib.Program

/-!
# Drivers and the registers of their hardware

A driver sees its hardware through registers of 32 bits that it reads and writes
(`Port`); a read may change the hardware as well, and both may stop. The hardware is
any such machine. A driver is a program on its own variables and the hardware
(`World`), which stops if the hardware does, or on an assertion of its own, or when it
indexes a buffer out of its bounds.

Any hardware can be made to keep a log of the accesses made to it (`Port.logged`), so
that what a driver does to hardware it knows nothing about is a property of the log.
-/

/-- Hardware with registers `R` and a state of `σ`. -/
structure Port (R ε σ : Type) where
  read : σ → R → Except ε (BitVec 32 × σ)
  write : σ → R → BitVec 32 → Except ε σ

namespace Port

/-- Why a driver stops. -/
inductive Stop (ε : Type)
  /-- The hardware does. -/
  | hw (e : ε)
  /-- An assertion of the driver fails. -/
  | devAssert
  /-- A buffer is indexed out of its bounds. -/
  | outOfBounds
  deriving DecidableEq, Repr

/-- A driver, with the variables `τ`, and its hardware. -/
structure World (τ σ : Type) where
  state : τ
  hw : σ

variable {R ε σ τ : Type}

namespace World

/-- An assertion of the driver. -/
def devAssert (c : Prop) [Decidable c] (w : World τ σ) : Except (Stop ε) (World τ σ) :=
  if c then .ok w else .error .devAssert

/-- The variables of the driver are changed. -/
def upd (w : World τ σ) (f : τ → τ) : World τ σ := { w with state := f w.state }

variable (p : Port R ε σ)

def read (w : World τ σ) (r : R) : Except (Stop ε) (BitVec 32 × World τ σ) :=
  match p.read w.hw r with
  | .error e => .error (.hw e)
  | .ok (v, hw) => .ok (v, { w with hw := hw })

def write (w : World τ σ) (r : R) (v : BitVec 32) : Except (Stop ε) (World τ σ) :=
  match p.write w.hw r v with
  | .error e => .error (.hw e)
  | .ok hw => .ok { w with hw := hw }

/-- A register is read, and written back with a new value. -/
def modify (w : World τ σ) (r : R) (f : BitVec 32 → BitVec 32) : Except (Stop ε) (World τ σ) := do
  let (v, w) ← read p w r
  write p w r (f v)

variable {p} {w : World τ σ} {r : R} {v : BitVec 32} {hw : σ}

@[simp] theorem upd_state (f : τ → τ) : (w.upd f).state = f w.state := rfl

@[simp] theorem upd_hw (f : τ → τ) : (w.upd f).hw = w.hw := rfl

theorem devAssert_of {c : Prop} [Decidable c] (h : c) :
    (devAssert c w : Except (Stop ε) (World τ σ)) = .ok w := if_pos h

section Ends

open Program

variable {E : Stop ε → Prop}

/-- An assertion changes nothing. -/
theorem ends_devAssert {w : World τ σ} (c : Prop) [Decidable c] :
    Ends AnyError (devAssert c w : Except (Stop ε) (World τ σ)) (· = w) :=
  ends_ite (fun _ => rfl) fun _ => trivial

/-- A read ends as the hardware has it. -/
theorem ends_read {Q : BitVec 32 × World τ σ → Prop}
    (h : Ends (fun e => E (.hw e)) (p.read w.hw r) fun x => Q (x.1, { w with hw := x.2 })) :
    Ends E (w.read p r) Q := by
  rw [read]
  revert h
  rcases p.read w.hw r with e | ⟨v, hw⟩
  · exact id
  · exact id

/-- A write ends as the hardware has it. -/
theorem ends_write {Q : World τ σ → Prop}
    (h : Ends (fun e => E (.hw e)) (p.write w.hw r v) fun hw => Q { w with hw := hw }) :
    Ends E (w.write p r v) Q := by
  rw [write]
  revert h
  rcases p.write w.hw r v with e | hw
  · exact id
  · exact id

/-- Reads and writes leave the variables of the driver. -/
theorem read_keeps (r : R) : Ends AnyError (w.read p r) fun x => x.2.state = w.state := by
  refine ends_read ?_
  cases p.read w.hw r with
  | error e => exact trivial
  | ok x => exact rfl

theorem write_keeps (r : R) (v : BitVec 32) :
    Ends AnyError (w.write p r v) fun w' => w'.state = w.state := by
  refine ends_write ?_
  cases p.write w.hw r v with
  | error e => exact trivial
  | ok hw => exact rfl

end Ends

end World

/-! ## Calls that may not return -/

/-- Why a call of a driver does not give a result: it stops, or does not return. -/
inductive Halt (ε : Type)
  | stop (e : Stop ε)
  | forever

namespace Halt

variable {α : Type}

/-- The result of a call that may stop. -/
def ofStop : Except (Stop ε) α → Except (Halt ε) α
  | .error e => .error (.stop e)
  | .ok a => .ok a

/-- The result of a call that may not return. -/
def ofLoop : Except (Stop ε) (Option α) → Except (Halt ε) α
  | .error e => .error (.stop e)
  | .ok none => .error .forever
  | .ok (some a) => .ok a

section Ends

open Program

variable {E : Halt ε → Prop} {Q : α → Prop}

theorem ends_ofStop {x : Except (Stop ε) α} (h : Ends (fun e => E (.stop e)) x Q) :
    Ends E (ofStop x) Q := by
  cases x with
  | error e => exact h
  | ok a => exact h

/-- A call that returns gives what it returns. -/
theorem ends_ofLoop {x : Except (Stop ε) (Option α)}
    (h : Ends (fun e => E (.stop e)) x fun r => ∃ a, r = some a ∧ Q a) : Ends E (ofLoop x) Q := by
  rcases x with e | _ | a
  · exact h
  · obtain ⟨a, ha, -⟩ := h
    exact nomatch ha
  · obtain ⟨_, ha, hQ⟩ := h
    exact Option.some.inj ha ▸ hQ

/-- A call gives what it returns, if it does. -/
theorem ends_ofLoop_of_forever {x : Except (Stop ε) (Option α)} (hE : E .forever)
    (h : Ends (fun e => E (.stop e)) x fun r => ∀ a, r = some a → Q a) : Ends E (ofLoop x) Q := by
  rcases x with e | _ | a
  · exact h
  · exact hE
  · exact h a rfl

end Ends

end Halt

/-! ## The log of the accesses -/

/-- An access to a register. -/
inductive Access (R : Type)
  | read (r : R)
  | write (r : R) (v : BitVec 32)

/-- The hardware, with a log of the accesses made to it. -/
def logged (p : Port R ε σ) : Port R ε (σ × List (Access R)) where
  read s r :=
    match p.read s.1 r with
    | .error e => .error e
    | .ok (v, hw) => .ok (v, hw, s.2 ++ [.read r])
  write s r v :=
    match p.write s.1 r v with
    | .error e => .error e
    | .ok hw => .ok (hw, s.2 ++ [.write r v])

/-- The driver stops because its hardware does. -/
def Stop.IsHw : Stop ε → Prop
  | .hw _ => True
  | .devAssert | .outOfBounds => False

section Logged

open Program

variable {p : Port R ε σ} {w : World τ (σ × List (Access R))}

theorem logged_read_ends (r : R) : Ends Stop.IsHw (w.read p.logged r) fun x =>
    x.2.state = w.state ∧ x.2.hw.2 = w.hw.2 ++ [.read r] := by
  refine World.ends_read ?_
  change Ends _ (match p.read w.hw.1 r with | .error e => _ | .ok (v, hw) => _) _
  match p.read w.hw.1 r with
  | .error e => exact trivial
  | .ok (v, hw) => exact ⟨rfl, rfl⟩

theorem logged_write_ends (r : R) (v : BitVec 32) : Ends Stop.IsHw (w.write p.logged r v) fun x =>
    x.state = w.state ∧ x.hw.2 = w.hw.2 ++ [.write r v] := by
  refine World.ends_write ?_
  change Ends _ (match p.write w.hw.1 r v with | .error e => _ | .ok hw => _) _
  match p.write w.hw.1 r v with
  | .error e => exact trivial
  | .ok hw => exact ⟨rfl, rfl⟩

end Logged

end Port
