import Mathlib.Tactic

/-!
# Flags in registers

A register is a bit vector, and a flag of it a mask. In C, the test `x & m` is
true when some bit of the mask is set (`any`); flags are set by `x |= m` and
cleared by `x &= ~m`; `assign` does either, and `assignIf` does so under a
condition, leaving the flag at its old value otherwise. The lemmas say how tests see
such updates: a flag just assigned reads as assigned, the others are unchanged.
A register is `Within` a mask if it has no bit outside it; setting flags of the mask
and clearing any flags keeps it so.

A field is a mask of consecutive bits, read by masking and shifting: it is at
most its mask (`toNat_field_le`) and depends only on the bits of the register
under it (`and_mask_congr`).
-/

namespace Bits

variable {w : ℕ} (x y m n : BitVec w)

/-- The truth value of `x & m` in C: some bit of the mask `m` is set in `x`. -/
def any : Bool := x &&& m != 0#w

/-- Setting or clearing the bits of the mask `m`, according to `b`. -/
def assign (b : Bool) : BitVec w := if b then x ||| m else x &&& ~~~m

/-- Setting or clearing the bits of the mask `m`, if `c`, and leaving them otherwise. -/
def assignIf (c b : Bool) : BitVec w := if c then assign x m b else x

theorem any_eq_false_iff : any x m = false ↔ x &&& m = 0#w := by simp [any]

theorem any_eq_true_iff : any x m = true ↔ ∃ i, x.getLsbD i = true ∧ m.getLsbD i = true := by
  rw [← not_iff_not, Bool.not_eq_true, any_eq_false_iff]
  constructor
  · rintro h ⟨i, hx, hm⟩
    have := congrArg (fun z => BitVec.getLsbD z i) h
    simp [hx, hm] at this
  · intro h
    apply BitVec.eq_of_getLsbD_eq
    intro i _
    rw [BitVec.getLsbD_and, BitVec.getLsbD_zero]
    by_contra hne
    rw [Bool.not_eq_false, Bool.and_eq_true] at hne
    exact h ⟨i, hne⟩

@[simp] theorem any_zero_left : any 0#w m = false := by simp [any]

@[simp] theorem any_or_left : any (x ||| y) m = (any x m || any y m) := by
  rw [Bool.eq_iff_iff, ← Bool.not_eq_false, ← Bool.not_eq_false (any x m || any y m),
    Bool.or_eq_false_iff]
  simp only [any_eq_false_iff, BitVec.and_or_distrib_right]
  exact not_congr BitVec.or_eq_zero_iff

@[simp] theorem any_or_right : any x (m ||| n) = (any x m || any x n) := by
  unfold any
  rw [BitVec.and_comm x, BitVec.and_comm x m, BitVec.and_comm x n]
  exact any_or_left m n x

/-- Flags just cleared read as clear. -/
@[simp] theorem any_clear_self : any (x &&& ~~~m) m = false := by
  rw [any_eq_false_iff, BitVec.and_assoc, BitVec.and_comm (~~~m), BitVec.and_not_self]
  exact BitVec.and_zero

variable {x y m n}

theorem or_clear (x m : BitVec w) : (x ||| m) &&& ~~~m = x &&& ~~~m := by
  apply BitVec.eq_of_getLsbD_eq
  intro i hi
  simp only [BitVec.getLsbD_and, BitVec.getLsbD_or, BitVec.getLsbD_not, hi, decide_true,
    Bool.true_and]
  cases m.getLsbD i <;> simp

/-- Clearing flags does not change the others. -/
theorem any_clear_of_disjoint (h : m &&& n = 0#w) : any (x &&& ~~~m) n = any x n := by
  have hn : ~~~m &&& n = n := by
    apply BitVec.eq_of_getLsbD_eq
    intro i hi
    have := congrArg (fun z => BitVec.getLsbD z i) h
    simp only [BitVec.getLsbD_and, BitVec.getLsbD_zero] at this
    cases hm : m.getLsbD i <;> cases hn : n.getLsbD i <;> simp_all
  rw [any, BitVec.and_assoc, hn, any]

/-- Clearing flags sets none. -/
theorem any_and_eq_false (h : any x m = false) (y : BitVec w) : any (x &&& y) m = false := by
  rw [any_eq_false_iff] at h ⊢
  rw [BitVec.and_comm x y, BitVec.and_assoc, h, BitVec.and_zero]

@[inherit_doc any_and_eq_false]
theorem any_of_any_clear (h : any (x &&& y) m = true) : any x m = true := by
  by_contra hx
  rw [any_and_eq_false (Bool.eq_false_iff.2 hx)] at h
  exact absurd h Bool.false_ne_true

theorem assign_decide (p : Prop) [Decidable p] :
    assign x m (decide p) = if p then x ||| m else x &&& ~~~m := by
  simp only [assign, decide_eq_true_eq]

theorem any_assign_self (hm : m ≠ 0#w) (b : Bool) : any (assign x m b) m = b := by
  cases b with
  | true =>
    rw [assign, if_pos rfl, any_or_left]
    simp [any, hm]
  | false => exact any_clear_self x m

theorem any_assign_of_disjoint (h : m &&& n = 0#w) (b : Bool) : any (assign x m b) n = any x n := by
  cases b with
  | true =>
    rw [assign, if_pos rfl, any_or_left, (any_eq_false_iff m n).2 h, Bool.or_false]
  | false => exact any_clear_of_disjoint h

@[simp] theorem assign_assign (a b : Bool) : assign (assign x m a) m b = assign x m b := by
  apply BitVec.eq_of_getLsbD_eq
  intro i hi
  cases a <;> cases b <;> cases hm : m[i] <;> simp [assign, hm, hi]

/-- Assignments of different flags commute. -/
theorem assign_comm (h : m &&& n = 0#w) (a b : Bool) :
    assign (assign x m a) n b = assign (assign x n b) m a := by
  apply BitVec.eq_of_getLsbD_eq
  intro i hi
  have := congrArg (fun z => BitVec.getLsbD z i) h
  simp only [BitVec.getLsbD_and, BitVec.getLsbD_zero] at this
  cases a <;> cases b <;> cases hm : m.getLsbD i <;> cases hn : n.getLsbD i <;>
    simp_all [assign]

theorem assignIf_assignIf (c b : Bool) : assignIf (assignIf x m c b) m c b = assignIf x m c b := by
  cases c with
  | true => exact assign_assign b b
  | false => rfl

theorem assignIf_comm (h : m &&& n = 0#w) (c a d b : Bool) :
    assignIf (assignIf x m c a) n d b = assignIf (assignIf x n d b) m c a := by
  cases c <;> cases d <;> first | rfl | exact assign_comm h a b

theorem any_assignIf_self (hm : m ≠ 0#w) (c b : Bool) :
    any (assignIf x m c b) m = if c then b else any x m := by
  cases c with
  | true => exact any_assign_self hm b
  | false => rfl

theorem any_assignIf_of_disjoint (h : m &&& n = 0#w) (c b : Bool) :
    any (assignIf x m c b) n = any x n := by
  cases c with
  | true => exact any_assign_of_disjoint h b
  | false => rfl

/-- Registers that agree on a mask agree on the fields under it. -/
theorem and_mask_congr (h : x &&& n = y &&& n) (hm : n &&& m = m) : x &&& m = y &&& m := by
  rw [← hm, ← BitVec.and_assoc, ← BitVec.and_assoc, h]

theorem any_mask_congr (h : x &&& n = y &&& n) (hm : n &&& m = m) : any x m = any y m := by
  rw [any, any, and_mask_congr h hm]

/-- A value of `k` bits has no others. -/
theorem and_eq_self_of_lt {k : ℕ} (hk : k ≤ w) (h : x.toNat < 2 ^ k) :
    x &&& BitVec.ofNat w (2 ^ k - 1) = x := by
  apply BitVec.eq_of_toNat_eq
  have hpow : 2 ^ k ≤ 2 ^ w := Nat.pow_le_pow_right (by decide) hk
  have hmask : 2 ^ k - 1 < 2 ^ w := by have := Nat.two_pow_pos k; omega
  rw [BitVec.toNat_and, BitVec.toNat_ofNat, Nat.mod_eq_of_lt hmask, Nat.and_two_pow_sub_one_eq_mod,
    Nat.mod_eq_of_lt h]

/-- The value of a field is at most its mask. -/
theorem toNat_field_le (x m : BitVec w) (k : ℕ) : ((x &&& m) >>> k).toNat ≤ (m >>> k).toNat := by
  simp only [BitVec.toNat_ushiftRight, BitVec.toNat_and, Nat.shiftRight_eq_div_pow]
  exact Nat.div_le_div_right Nat.and_le_right

/-- A field of `k` bits from bit `n` on. -/
theorem toNat_field_eq {m : BitVec w} {n k : ℕ} (h : (m >>> n).toNat = 2 ^ k - 1) (x : BitVec w) :
    ((x &&& m) >>> n).toNat = (x.extractLsb' n k).toNat := by
  rw [BitVec.toNat_ushiftRight] at h ⊢
  rw [BitVec.toNat_and, Nat.shiftRight_and_distrib, h, Nat.and_two_pow_sub_one_eq_mod,
    BitVec.extractLsb'_toNat]

/-- The test of a single bit. -/
theorem any_one_shiftLeft (x : BitVec w) {k : ℕ} (hk : k < w) :
    any x (1#w <<< k) = x.getLsbD k := by
  rw [Bool.eq_iff_iff, any_eq_true_iff]
  constructor
  · rintro ⟨i, hi, hk⟩
    have : i = k := by simp at hk; omega
    exact this ▸ hi
  · exact fun hx => ⟨k, hx, by simp [hk]⟩

theorem any_and_left (x y : BitVec w) {k : ℕ} (hk : k < w) :
    any (x &&& y) (1#w <<< k) = (any x (1#w <<< k) && any y (1#w <<< k)) := by
  rw [any_one_shiftLeft _ hk, any_one_shiftLeft _ hk, any_one_shiftLeft _ hk, BitVec.getLsbD_and]

/-- A single bit is cleared by a one. -/
theorem any_clear_left (x y : BitVec w) {k : ℕ} (hk : k < w) :
    any (x &&& ~~~y) (1#w <<< k) = (any x (1#w <<< k) && !any y (1#w <<< k)) := by
  rw [any_one_shiftLeft _ hk, any_one_shiftLeft _ hk, any_one_shiftLeft _ hk, BitVec.getLsbD_and,
    BitVec.getLsbD_not, decide_eq_true hk, Bool.true_and]

/-! ## Registers with unused bits -/

/-- The register has no bit outside the mask. -/
def Within (x m : BitVec w) : Prop := x &&& ~~~m = 0#w

instance (x m : BitVec w) : Decidable (Within x m) := inferInstanceAs (Decidable (_ = _))

theorem Within.or (hx : Within x m) (hy : Within y m) : Within (x ||| y) m := by
  rw [Within, BitVec.and_or_distrib_right, hx, hy, BitVec.or_zero]

theorem Within.and (hx : Within x m) (y : BitVec w) : Within (x &&& y) m := by
  rw [Within, BitVec.and_comm x y, BitVec.and_assoc, hx, BitVec.and_zero]

theorem Within.assign (hx : Within x m) (hn : Within n m) (b : Bool) :
    Within (assign x n b) m := by
  cases b with
  | true => exact hx.or hn
  | false => exact hx.and _

theorem Within.assignIf (hx : Within x m) (hn : Within n m) (c b : Bool) :
    Within (assignIf x n c b) m := by
  cases c with
  | true => exact hx.assign hn b
  | false => exact hx

/-- Setting the whole mask leaves nothing else. -/
theorem or_eq_of_within (hx : Within x m) : x ||| m = m := by
  apply BitVec.eq_of_getLsbD_eq
  intro i hi
  have hxi := congrArg (fun z => BitVec.getLsbD z i) hx
  simp only [BitVec.getLsbD_and, BitVec.getLsbD_not, hi, decide_true, Bool.true_and,
    BitVec.getLsbD_zero] at hxi
  rw [BitVec.getLsbD_or]
  cases hm : m.getLsbD i <;> simp_all

theorem Within.and_eq (hx : Within x m) : x &&& m = x := by
  apply BitVec.eq_of_getLsbD_eq
  intro i hi
  have hxi := congrArg (fun z => BitVec.getLsbD z i) hx
  simp only [BitVec.getLsbD_and, BitVec.getLsbD_not, hi, decide_true, Bool.true_and,
    BitVec.getLsbD_zero] at hxi ⊢
  cases hm : m.getLsbD i <;> simp_all

/-- Only the flags of the mask matter. -/
theorem Within.any_and (hx : Within x m) (n : BitVec w) : any x (n &&& m) = any x n := by
  rw [any, any, BitVec.and_comm n, ← BitVec.and_assoc, hx.and_eq]

/-- A flag outside the mask is clear. -/
theorem Within.any_eq_false (hx : Within x m) (hn : n &&& m = 0#w) : any x n = false := by
  rw [← hx.any_and, hn, any, BitVec.and_zero]
  exact bne_self_eq_false _

theorem within_one_shiftLeft {k : ℕ} (hk : k < w) (h : any m (1#w <<< k) = true) :
    Within (1#w <<< k) m := by
  rw [any_one_shiftLeft m hk] at h
  apply BitVec.eq_of_getLsbD_eq
  intro i hi
  by_cases hik : i = k
  · simp [hik, h]
  · have hbit : (1#w <<< k).getLsbD i = false := by
      simp
      omega
    rw [BitVec.getLsbD_and, hbit, Bool.false_and, BitVec.getLsbD_zero]

end Bits
