import Mathlib.Logic.Function.Basic
import Mathlib.Data.List.Basic
import Mathlib.Tactic.Simps.Basic

/-!
# Shared wires

Outputs are connected to wires, several of them possibly to the same one. A wire does
not combine the levels of its outputs: it has the level last driven on it by any of
them. So an output that goes down may hide another one that is still up:
`Net.visible_drive_iff` says when.
-/

/-- The levels of some outputs and of the wires they are connected to. -/
structure Net (ι κ : Type*) where
  out : ι → Bool
  wire : κ → Bool

namespace Net

variable {ι κ : Type*} [DecidableEq ι] [DecidableEq κ] {w : ι → κ} {n : Net ι κ}

/-- The output `i` is driven to a level. -/
@[simps]
def drive (w : ι → κ) (n : Net ι κ) (i : ι) (level : Bool) : Net ι κ where
  out := Function.update n.out i level
  wire := Function.update n.wire (w i) level

/-- All outputs that are up are seen on their wires. -/
def Visible (w : ι → κ) (n : Net ι κ) : Prop := ∀ i, n.out i = true → n.wire (w i) = true

/-- Driving an output leaves all outputs visible, unless it goes down and another one on
    its wire is up. -/
theorem visible_drive_iff (hn : n.Visible w) (i : ι) (level : Bool) :
    (n.drive w i level).Visible w ↔
      (level = false → ∀ j, j ≠ i → w j = w i → n.out j = false) := by
  constructor
  · rintro hv rfl j hj hw
    by_contra hup
    have hout : (n.drive w i false).out j = true := by
      rw [drive_out, Function.update_of_ne hj]
      exact eq_true_of_ne_false hup
    have hwire := hv j hout
    rw [hw, drive_wire, Function.update_self] at hwire
    exact Bool.false_ne_true hwire
  · intro hlow j hout
    by_cases hj : j = i
    · subst hj
      rw [drive_out, Function.update_self] at hout
      rw [drive_wire, Function.update_self]
      exact hout
    · rw [drive_out, Function.update_of_ne hj] at hout
      rw [drive_wire]
      by_cases hw : w j = w i
      · rw [hw, Function.update_self]
        by_contra hdown
        exact absurd hout (Bool.eq_false_iff.1 (hlow (eq_false_of_ne_true hdown) j hj hw))
      · rw [Function.update_of_ne hw]
        exact hn j hout

end Net

/-! ## Levels driven one after the other -/

variable {κ : Type*} [DecidableEq κ]

/-- A wire is driven to some levels in turn. -/
def driveAll (wires : κ → Bool) (k : κ) (levels : List Bool) : κ → Bool :=
  levels.foldl (fun wires level => Function.update wires k level) wires

/-- The last level stays. -/
theorem driveAll_eq (wires : κ → Bool) (k : κ) (levels : List Bool) :
    driveAll wires k levels = levels.getLast?.elim wires (Function.update wires k) := by
  induction levels generalizing wires with
  | nil => rfl
  | cons level levels ih =>
    rw [driveAll, List.foldl_cons, ← driveAll, ih]
    cases levels with
    | nil => rfl
    | cons level' levels =>
      rw [List.getLast?_cons_cons, List.getLast?_cons, Option.elim_some, Option.elim_some,
        Function.update_idem]
