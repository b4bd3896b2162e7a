import Mathlib.Tactic

/-!
# Words as sequences of bytes

A *frame* of `b` bytes is sent least significant byte first (`lsbf`), or last:
its `i`-th byte is that of the word at the bit `place lsbf b i`. Words are
split into bytes, and joined from bytes, byte by byte.

* `toNat_join_split`: joining the bytes of a word gives the word back, as far
  as it fits in the frame, in either order, and `toNat_join_split_eq_iff` says
  when bytes joined in either order give the word cut to some bits;
* `words`: the words of a stream of whole frames; on streams of whole frames it
  is a homomorphism (`words_append`), it starts with the word of the first
  frame (`words_eq_cons`), and a split word is one frame (`words_split`);
* `stream`: the other way round, the stream of the frames of some words, each
  in its own order.
-/

namespace Frame

/-- The byte of `x` at the bit `k`. -/
def byteAt {w : ℕ} (x : BitVec w) (k : ℕ) : BitVec 8 := ((x >>> k) &&& 0xFF#w).setWidth 8

/-- The bit of a word the `i`-th byte of a frame of `b` bytes goes to. -/
def place (lsbf : Bool) (b i : ℕ) : ℕ := if lsbf then i * 8 else (b - 1 - i) * 8

/-- The bytes `i, …, i + k - 1` of the frame of a word. -/
def splitFrom {w : ℕ} (lsbf : Bool) (b : ℕ) (x : BitVec w) : (k i : ℕ) → List (BitVec 8)
  | 0, _ => []
  | k + 1, i => byteAt x (place lsbf b i) :: splitFrom lsbf b x k (i + 1)

/-- The bytes of the frame of a word. -/
def split {w : ℕ} (lsbf : Bool) (b : ℕ) (x : BitVec w) : List (BitVec 8) :=
  splitFrom lsbf b x b 0

/-- Joining bytes, from the `i`-th of the frame on, to a word. -/
def joinFrom {w : ℕ} (lsbf : Bool) (b : ℕ) : ℕ → List (BitVec 8) → BitVec w → BitVec w
  | _, [], x => x
  | i, c :: l, x => joinFrom lsbf b (i + 1) l (x ||| c.setWidth w <<< place lsbf b i)

/-- The word of the bytes of a frame. -/
def join {w : ℕ} (lsbf : Bool) (b : ℕ) (l : List (BitVec 8)) : BitVec w :=
  joinFrom lsbf b 0 l 0#w

/-- The words of a stream of frames (a partial frame at its end is left out). -/
def words {w : ℕ} (lsbf : Bool) (b : ℕ) (l : List (BitVec 8)) : List (BitVec w) :=
  (List.range (l.length / b)).map fun k => join lsbf b ((l.drop (k * b)).take b)

variable {w v : ℕ} {lsbf lsbf' : Bool} {b : ℕ}

/-! ## Splitting and joining -/

theorem getLsbD_byteAt (x : BitVec w) (k j : ℕ) :
    (byteAt x k).getLsbD j = (decide (j < 8) && x.getLsbD (k + j)) := by
  simp only [byteAt, BitVec.getLsbD_setWidth, BitVec.getLsbD_and, BitVec.getLsbD_ushiftRight]
  by_cases hj : j < 8
  · by_cases hw : k + j < w
    · have hff : (0xFF#w).getLsbD j = true := by
        rw [BitVec.getLsbD_ofNat, Bool.and_eq_true, decide_eq_true_eq]
        exact ⟨by omega, by interval_cases j <;> rfl⟩
      simp [hff]
    · simp [BitVec.getLsbD_of_ge x (k + j) (by omega)]
  · simp [hj]

@[simp] theorem length_splitFrom (x : BitVec w) (k i : ℕ) :
    (splitFrom lsbf b x k i).length = k := by
  induction k generalizing i with
  | zero => rfl
  | succ k ih => simp [splitFrom, ih]

@[simp] theorem length_split (x : BitVec w) : (split lsbf b x).length = b := length_splitFrom _ _ _

/-- The bits of joined bytes: those joined before, and those of the word the
    bytes are from, moved from the place of their byte to the one it goes to. -/
theorem getLsbD_joinFrom_splitFrom (x : BitVec v) (k i : ℕ) (y : BitVec w) {j : ℕ} (hj : j < w) :
    (joinFrom lsbf' b i (splitFrom lsbf b x k i) y).getLsbD j = true ↔
      y.getLsbD j = true ∨ ∃ c, i ≤ c ∧ c < i + k ∧ place lsbf' b c ≤ j ∧
        j < place lsbf' b c + 8 ∧ x.getLsbD (place lsbf b c + (j - place lsbf' b c)) = true := by
  induction k generalizing i y with
  | zero =>
    have hnone : ¬∃ c, i ≤ c ∧ c < i + 0 ∧ place lsbf' b c ≤ j ∧ j < place lsbf' b c + 8 ∧
        x.getLsbD (place lsbf b c + (j - place lsbf' b c)) = true := by
      rintro ⟨c, h₁, h₂, -⟩
      omega
    simp only [splitFrom, joinFrom, hnone, or_false]
  | succ k ih =>
    rw [splitFrom, joinFrom, ih, BitVec.getLsbD_or, Bool.or_eq_true, or_assoc]
    refine or_congr_right ?_
    -- The byte `i` comes first, the others are those of the rest of the loop.
    have hbyte : ((byteAt x (place lsbf b i)).setWidth w <<< place lsbf' b i).getLsbD j = true ↔
        place lsbf' b i ≤ j ∧ j < place lsbf' b i + 8 ∧
          x.getLsbD (place lsbf b i + (j - place lsbf' b i)) = true := by
      rw [BitVec.getLsbD_shiftLeft, BitVec.getLsbD_setWidth, getLsbD_byteAt]
      by_cases hle : place lsbf' b i ≤ j
      · have hlt : j - place lsbf' b i < 8 ↔ j < place lsbf' b i + 8 := by omega
        have hw : j - place lsbf' b i < w := by omega
        simp [hj, hle, hlt, hw]
      · simp [hle, show j < place lsbf' b i by omega]
    rw [hbyte]
    constructor
    · rintro (h | ⟨c, h₁, h₂, h₃⟩)
      · exact ⟨i, le_rfl, by omega, h⟩
      · exact ⟨c, by omega, by omega, h₃⟩
    · rintro ⟨c, h₁, h₂, h₃⟩
      rcases Nat.eq_or_lt_of_le h₁ with rfl | h₁
      · exact .inl h₃
      · exact .inr ⟨c, h₁, by omega, h₃⟩

/-- Every bit of a frame lies in one of its bytes. -/
theorem exists_place {j : ℕ} :
    (∃ c, c < b ∧ place lsbf b c ≤ j ∧ j < place lsbf b c + 8) ↔ j < 8 * b := by
  cases lsbf with
  | true =>
    simp only [place, if_true]
    exact ⟨fun ⟨c, _, _, _⟩ => by omega, fun h => ⟨j / 8, by omega, by omega, by omega⟩⟩
  | false =>
    simp only [place, Bool.false_eq_true, if_false]
    exact ⟨fun ⟨c, _, _, _⟩ => by omega, fun h => ⟨b - 1 - j / 8, by omega, by omega, by omega⟩⟩

/-- The bit of a frame where a bit goes if its bytes are reversed. -/
def mirror (b j : ℕ) : ℕ := (b - 1 - j / 8) * 8 + j % 8

/-- A frame joined in the order it was split in has its bits in their places, and
    otherwise the bytes are reversed. -/
theorem getLsbD_join_split (x : BitVec v) {j : ℕ} (hj : j < w) :
    (join lsbf' b (split lsbf b x) : BitVec w).getLsbD j =
      (decide (j < 8 * b) && x.getLsbD (if lsbf' = lsbf then j else mirror b j)) := by
  rw [Bool.eq_iff_iff, join, split, getLsbD_joinFrom_splitFrom _ _ _ _ hj, Bool.and_eq_true,
    decide_eq_true_eq, BitVec.getLsbD_zero]
  have hplace : ∀ c < b, place lsbf' b c ≤ j → j < place lsbf' b c + 8 → j < 8 * b ∧
      place lsbf b c + (j - place lsbf' b c) = if lsbf' = lsbf then j else mirror b j := by
    intro c hc h₁ h₂
    cases lsbf <;> cases lsbf' <;> simp [place, mirror] at h₁ h₂ ⊢ <;> omega
  constructor
  · rintro (h | ⟨c, -, hc, h₁, h₂, hx⟩)
    · exact absurd h Bool.false_ne_true
    · obtain ⟨hlt, hbit⟩ := hplace c (by omega) h₁ h₂
      exact ⟨hlt, hbit ▸ hx⟩
  · rintro ⟨hlt, hx⟩
    obtain ⟨c, hc, h₁, h₂⟩ := exists_place.2 hlt
    exact .inr ⟨c, c.zero_le, by omega, h₁, h₂, (hplace c hc h₁ h₂).2 ▸ hx⟩

/-- Joining the bytes of a word gives it back, as far as it fits in the frame. -/
theorem toNat_join_split (x : BitVec v) (hb : 8 * b ≤ w) :
    (join lsbf b (split lsbf b x) : BitVec w).toNat = x.toNat % 2 ^ (8 * b) := by
  have hbits : (join lsbf b (split lsbf b x) : BitVec w) = (x.setWidth (8 * b)).setWidth w := by
    apply BitVec.eq_of_getLsbD_eq
    intro j hj
    rw [getLsbD_join_split x hj, if_pos rfl]
    simp [hj]
  rw [hbits, BitVec.toNat_setWidth, BitVec.toNat_setWidth, Nat.mod_eq_of_lt]
  exact (Nat.mod_lt _ (Nat.two_pow_pos _)).trans_le (Nat.pow_le_pow_right (by omega) hb)

/-! ## Two orders -/

theorem splitFrom_congr {x : BitVec v} {y : BitVec w} {k i : ℕ}
    (h : ∀ c, i ≤ c → c < i + k → byteAt x (place lsbf b c) = byteAt y (place lsbf' b c)) :
    splitFrom lsbf b x k i = splitFrom lsbf' b y k i := by
  induction k generalizing i with
  | zero => rfl
  | succ k ih =>
    rw [splitFrom, splitFrom, h i le_rfl (by omega), ih fun c h₁ h₂ => h c (by omega) (by omega)]

theorem split_setWidth (h : v ≤ w) (x : BitVec v) :
    split lsbf b (x.setWidth w) = split lsbf b x := by
  refine splitFrom_congr fun c _ _ => BitVec.eq_of_getLsbD_eq fun r _ => ?_
  rw [getLsbD_byteAt, getLsbD_byteAt, BitVec.getLsbD_setWidth]
  by_cases hlt : place lsbf b c + r < w
  · rw [decide_eq_true hlt, Bool.true_and]
  · rw [BitVec.getLsbD_of_ge x _ (by omega), Bool.and_false]

/-- Frames of palindromes are the same in both orders. -/
theorem split_eq_split {x : BitVec v} (h : ∀ j < 8 * b, x.getLsbD (mirror b j) = x.getLsbD j) :
    split lsbf b x = split lsbf' b x := by
  refine splitFrom_congr fun c _ hc => BitVec.eq_of_getLsbD_eq fun r hr => ?_
  rw [getLsbD_byteAt, getLsbD_byteAt]
  have hlt : place lsbf b c + r < 8 * b := by
    cases lsbf <;> simp [place] <;> omega
  have hmirror : place lsbf' b c + r = place lsbf b c + r ∨
      place lsbf' b c + r = mirror b (place lsbf b c + r) := by
    cases lsbf <;> cases lsbf' <;> simp [place, mirror] <;> omega
  rcases hmirror with hsame | hmirror
  · rw [hsame]
  · rw [hmirror, h _ hlt]

/-- If a word with its bytes reversed is the word cut to `k` bits, with `k` in the last
    byte, then nothing is cut: this byte is also the first one. -/
theorem getLsbD_eq_false_of_mirror {x : BitVec v} {k : ℕ} (hk : 8 * (b - 1) < k)
    (h : ∀ j < 8 * b, x.getLsbD (mirror b j) = (decide (j < k) && x.getLsbD j)) {j : ℕ}
    (hj : j < 8 * b) (hkj : k ≤ j) : x.getLsbD j = false := by
  have hfirst : x.getLsbD (j % 8) = false := by
    have hmirror : mirror b j = j % 8 := by
      rw [mirror]
      omega
    rw [← hmirror, h j hj, decide_eq_false (Nat.not_lt.2 hkj), Bool.false_and]
  rcases Nat.lt_or_ge (j % 8) k with hlt | hge
  · have hmirror : mirror b (j % 8) = j := by
      rw [mirror]
      omega
    rw [← hmirror, h _ (by omega), hfirst, Bool.and_false]
  · have hsame : j % 8 = j := by omega
    rwa [hsame] at hfirst

theorem toNat_mod_lt_of_getLsbD {x : BitVec v} {k m : ℕ}
    (h : ∀ j < m, k ≤ j → x.getLsbD j = false) : x.toNat % 2 ^ m < 2 ^ k := by
  refine Nat.lt_pow_two_of_testBit _ fun j hj => ?_
  rw [Nat.testBit_mod_two_pow, BitVec.testBit_toNat]
  by_cases hm : j < m
  · rw [h j hm hj, Bool.and_false]
  · rw [decide_eq_false hm, Bool.false_and]

/-- A frame split in one order and joined in another gives the word, cut to a number of bits
    in the last byte, exactly if the word has no other bits in the frame, and the frame is
    the same in both orders. -/
theorem toNat_join_split_eq_iff (x : BitVec v) {k : ℕ} (hb : 8 * b ≤ w) (hk : 8 * (b - 1) < k)
    (hk' : k ≤ 8 * b) :
    (join lsbf' b (split lsbf b x) : BitVec w).toNat = x.toNat % 2 ^ k ↔
      x.toNat % 2 ^ (8 * b) < 2 ^ k ∧ split lsbf' b x = split lsbf b x := by
  constructor
  · intro h
    by_cases hsame : lsbf' = lsbf
    · subst hsame
      rw [toNat_join_split x hb] at h
      rw [h]
      exact ⟨Nat.mod_lt _ (Nat.two_pow_pos k), rfl⟩
    · have hbit : ∀ j < 8 * b, x.getLsbD (mirror b j) = (decide (j < k) && x.getLsbD j) := by
        intro j hj
        have hjoin : (join lsbf' b (split lsbf b x) : BitVec w).getLsbD j =
            (decide (j < 8 * b) && x.getLsbD (if lsbf' = lsbf then j else mirror b j)) :=
          getLsbD_join_split x (hj.trans_le hb)
        rw [if_neg hsame, decide_eq_true hj, Bool.true_and, ← BitVec.testBit_toNat, h,
          Nat.testBit_mod_two_pow, BitVec.testBit_toNat] at hjoin
        exact hjoin.symm
      have hhigh : ∀ j < 8 * b, k ≤ j → x.getLsbD j = false := fun j hj hkj =>
        getLsbD_eq_false_of_mirror hk hbit hj hkj
      refine ⟨toNat_mod_lt_of_getLsbD hhigh, split_eq_split fun j hj => ?_⟩
      rw [hbit j hj]
      rcases Nat.lt_or_ge j k with hlt | hge
      · rw [decide_eq_true hlt, Bool.true_and]
      · rw [hhigh j hj hge, Bool.and_false]
  · rintro ⟨hlt, heq⟩
    rw [← heq, toNat_join_split x hb, ← Nat.mod_mod_of_dvd x.toNat (Nat.pow_dvd_pow 2 hk'),
      Nat.mod_eq_of_lt hlt]

/-! ## Streams of frames -/

@[simp] theorem words_nil : (words lsbf b [] : List (BitVec w)) = [] := by simp [words]

theorem words_eq_cons {l : List (BitVec 8)} (hb : 0 < b) (hl : b ≤ l.length) :
    (words lsbf b l : List (BitVec w)) = join lsbf b (l.take b) :: words lsbf b (l.drop b) := by
  have hlen : l.length / b = (l.drop b).length / b + 1 := by
    rw [List.length_drop, Nat.div_eq_sub_div hb hl]
  simp only [words, hlen, List.range_succ_eq_map, List.map_cons, List.map_map, Nat.zero_mul,
    List.drop_zero, List.drop_drop]
  congr 1
  refine List.map_congr_left fun k _ => ?_
  simp [Nat.succ_mul, Nat.add_comm]

theorem words_append {l m : List (BitVec 8)} (hb : 0 < b) (hl : b ∣ l.length) :
    (words lsbf b (l ++ m) : List (BitVec w)) = words lsbf b l ++ words lsbf b m := by
  obtain ⟨k, hk⟩ := hl
  induction k generalizing l with
  | zero =>
    rw [List.eq_nil_of_length_eq_zero hk]
    simp
  | succ k ih =>
    have hle : b ≤ l.length := by rw [hk]; exact Nat.le_mul_of_pos_right b k.succ_pos
    have hrest : (l.drop b).length = b * k := by
      rw [List.length_drop, hk, Nat.mul_succ, Nat.add_sub_cancel]
    rw [words_eq_cons hb (by rw [List.length_append]; omega), words_eq_cons hb hle,
      List.take_append_of_le_length hle, List.drop_append_of_le_length hle, ih hrest,
      List.cons_append]

theorem words_split (hb : 0 < b) (x : BitVec v) :
    (words lsbf b (split lsbf b x) : List (BitVec w)) = [join lsbf b (split lsbf b x)] := by
  rw [words_eq_cons hb (length_split x).ge, List.take_of_length_le (length_split x).le,
    List.drop_eq_nil_of_le (length_split x).le, words_nil]

/-! ## Streams of split words -/

/-- The stream of the frames of some words, each with the order it is split in. -/
def stream {w : ℕ} (b : ℕ) (l : List (Bool × BitVec w)) : List (BitVec 8) :=
  l.flatMap fun x => split x.1 b x.2

variable {l m : List (Bool × BitVec w)} {x : Bool × BitVec w}

theorem stream_append : stream b (l ++ m) = stream b l ++ stream b m := List.flatMap_append

theorem stream_singleton : stream b [x] = split x.1 b x.2 := List.flatMap_singleton _ _

theorem length_stream : (stream b l).length = b * l.length := by
  induction l with
  | nil => rfl
  | cons x l ih =>
    rw [stream, List.flatMap_cons, List.length_append, length_split, ← stream, ih,
      List.length_cons, Nat.mul_succ, Nat.add_comm]

/-- The first frame of a stream is the one of its first word. -/
theorem take_stream : (stream b (x :: l)).take b = split x.1 b x.2 :=
  List.take_left' (length_split x.2)

theorem drop_stream : (stream b l).drop b = stream b (l.drop 1) := by
  cases l with
  | nil => exact List.drop_nil
  | cons x l => exact List.drop_left' (length_split x.2)

/-- A stream with a frame has a word. -/
theorem exists_of_le_stream (hb : 0 < b) (h : b ≤ (stream b l).length) : ∃ x m, l = x :: m := by
  cases l with
  | nil => exact absurd h (Nat.not_le.2 hb)
  | cons x m => exact ⟨x, m, rfl⟩

end Frame
