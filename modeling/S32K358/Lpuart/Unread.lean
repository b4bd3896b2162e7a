import S32K358.Lpuart.Receive

/-!
# The LPUART: unread bytes

A byte received should stay in the data register, with `RDRF` set and the backend held
off, until the guest reads it or the device is reset. Which byte that is (`unreadAfter`)
is followed through a run as a ghost variable: from what the backend hands over and
what the guest does, but not from the flag.

`RDRF` is an ordinary bit of `STAT` for a write of this register, however, which either
stores its value or clears all the bits that are not in it.
`run_unread_iff`: unread bytes are kept in exactly those runs where a write of `STAT`
has, while there is one, the bit of `RDRF` in its value.
-/

namespace S32K358.Lpuart

variable {s : State} {g : Option (BitVec 8)} {τ : Step}

/-! ## Unread bytes -/

/-- The event reads the data register or resets the device. -/
def Event.consumes : Event → Bool
  | .read offset _ => decide (Reg.ofOffset? offset = some .data)
  | .write offset value =>
    decide (Reg.ofOffset? offset = some .global) && Bits.any value globalRstMask
  | .poll _ => false
  | .reset => true

/-- The byte received in a transition: with the receiver off, those handed over are
    dropped. -/
def received (τ : Step) : Option (BitVec 8) :=
  if Bits.any τ.pre.cr ctrlRe then τ.output.delivered.getLast? else none

/-- The byte received and not yet read, after a transition. -/
def unreadAfter (g : Option (BitVec 8)) (τ : Step) : Option (BitVec 8) :=
  (received τ).or (if τ.input.consumes then none else g)

/-- The unread byte, if any, is in the data register, with `RDRF` set, and the backend is
    held off. -/
def Kept (g : Option (BitVec 8)) (s : State) : Prop :=
  ∀ c ∈ g, Bits.any s.sr statRdrf = true ∧ s.dr = c.setWidth 32 ∧ canReceive s = false

/-- A write of the status has the bit of `RDRF`. -/
def Event.KeepsRdrf : Event → Prop
  | .write offset value => Reg.ofOffset? offset = some .stat → Bits.any value statRdrf = true
  | _ => True

/-! ## Single events -/

theorem held_eq_singleton_iff {x : BitVec 32} :
    held s = [x] ↔ Bits.any s.sr statRdrf = true ∧ s.dr = x := by
  rw [held]
  cases Bits.any s.sr statRdrf <;> simp

theorem kept_iff : Kept g s ↔ ∀ c ∈ g, held s = [c.setWidth 32] := by
  refine forall₂_congr fun c _ => ?_
  rw [held_eq_singleton_iff, canReceive]
  cases Bits.any s.sr statRdrf <;> simp

theorem kept_none : Kept none s := fun _ hc => absurd hc (by simp)

theorem Kept.full (hs : Kept g s) (hg : g.isSome = true) : canReceive s = false := by
  obtain ⟨c, rfl⟩ := Option.isSome_iff_exists.1 hg
  exact (hs c rfl).2.2

/-- A write of the status keeps a byte held exactly if its value has the bit of `RDRF`. -/
theorem held_write_stat {offset : ℕ} {value x : BitVec 32} (hr : Reg.ofOffset? offset = some .stat)
    (h : held s = [x]) :
    held (write s offset value) = [x] ↔ Bits.any value statRdrf = true := by
  obtain ⟨hset, hdr⟩ := held_eq_singleton_iff.1 h
  rw [held_eq_singleton_iff, write, hr]
  dsimp only
  split_ifs with hsmall
  · -- The value is stored, with `TDRE`.
    have hor : Bits.any (value ||| statTdre) statRdrf = Bits.any value statRdrf := by
      rw [Bits.any_or_left, show Bits.any statTdre statRdrf = false by decide, Bool.or_false]
    rw [hor, and_iff_left hdr]
  · have hand : Bits.any (s.sr &&& value) statRdrf = Bits.any value statRdrf := by
      rw [statRdrf] at hset ⊢
      rw [Bits.any_and_left _ _ (by decide), hset, Bool.true_and]
    rw [hand, and_iff_left hdr]

theorem received_of_nil (h : τ.output.delivered = []) : received τ = none := by
  rw [received, h]
  exact ite_self _

/-- Without a byte handed over, an event keeps or consumes the unread one. -/
theorem unreadAfter_of_nil (h : τ.output.delivered = []) :
    unreadAfter g τ = if τ.input.consumes then none else g := by
  rw [unreadAfter, received_of_nil h, Option.none_or]

theorem unreadAfter_of_singleton {c : BitVec 8} (hre : Bits.any τ.pre.cr ctrlRe = true)
    (h : τ.output.delivered = [c]) : unreadAfter g τ = some c := by
  rw [unreadAfter, received, if_pos hre, h]
  rfl

/-- A byte that the backend hands over by itself is held, if it is received. -/
theorem kept_poll {l : List (BitVec 8)} {r : Reply} {t : State} (hs : Kept g s)
    (hd : r.delivered = (acceptInput s l).1) (ht : held t = held (acceptInput s l).2) :
    Kept (unreadAfter g ⟨s, .poll l, r, t⟩) t := by
  cases hcan : canReceive s with
  | false =>
    rw [acceptInput_of_full hcan] at hd ht
    rw [unreadAfter_of_nil hd, kept_iff, ht, ← kept_iff]
    exact hs
  | true =>
    -- The backend is let in only if there is no unread byte.
    have hg : g = none := by
      by_contra hne
      have hfull := hs.full (Option.isSome_iff_ne_none.2 hne)
      exact Bool.false_ne_true (hfull.symm.trans hcan)
    subst hg
    cases hre : Bits.any s.cr ctrlRe with
    | false =>
      have hnone : unreadAfter none ⟨s, .poll l, r, t⟩ = none := by
        rw [unreadAfter, received, hre]
        rfl
      rw [hnone]
      exact kept_none
    | true =>
      cases l with
      | nil =>
        rw [unreadAfter_of_nil hd]
        exact kept_none
      | cons c l =>
        rw [acceptInput_cons hre hcan] at hd ht
        rw [unreadAfter_of_singleton hre hd, kept_iff, ht, held_receive hre]
        simp

/-- A read of the data register consumes the unread byte, and what it lets in is held. -/
theorem kept_read_data {offset : ℕ} {l : List (BitVec 8)} {r : Reply} {t : State}
    (hr : Reg.ofOffset? offset = some .data) (hd : r.delivered = (read s offset l).2.1)
    (ht : held t = held (read s offset l).2.2) :
    Kept (unreadAfter g ⟨s, .read offset l, r, t⟩) t := by
  have hconsumes : (Event.read offset l).consumes = true := decide_eq_true hr
  cases hre : Bits.any s.cr ctrlRe with
  | false =>
    have hnone : unreadAfter g ⟨s, .read offset l, r, t⟩ = none := by
      rw [unreadAfter, received, hre, hconsumes]
      rfl
    rw [hnone]
    exact kept_none
  | true =>
    obtain ⟨u, hread, hheld, -⟩ := read_data hr hre l
    rw [hread] at hd ht
    cases l with
    | nil =>
      rw [unreadAfter_of_nil hd, hconsumes]
      exact kept_none
    | cons c l =>
      rw [unreadAfter_of_singleton hre hd, kept_iff, ht, hheld]
      simp

/-- A write keeps the unread byte, unless it resets the device, or clears `RDRF`. -/
theorem kept_write_iff {offset : ℕ} {value : BitVec 32} {r : Reply} {t : State} (hs : Kept g s)
    (hd : r.delivered = []) (ht : held t = held (write s offset value)) :
    Kept (unreadAfter g ⟨s, .write offset value, r, t⟩) t ↔
      (g.isSome = true → (Event.write offset value).KeepsRdrf) := by
  rw [unreadAfter_of_nil hd]
  cases hrst : (Event.write offset value).consumes with
  | true =>
    have hglobal : Reg.ofOffset? offset = some .global :=
      of_decide_eq_true (Bool.and_eq_true_iff.1 hrst).1
    exact iff_of_true kept_none fun _ hstat => absurd (hglobal.symm.trans hstat) (by decide)
  | false =>
    rw [if_neg Bool.false_ne_true, kept_iff, ht]
    rw [kept_iff] at hs
    by_cases hstat : Reg.ofOffset? offset = some .stat
    · cases g with
      | none => simp
      | some c =>
        have hheld : held (write s offset value) = [c.setWidth 32] ↔
          Bits.any value statRdrf = true := held_write_stat hstat (hs c rfl)
        simp only [Option.mem_def, Option.some.injEq, forall_eq', hheld, Option.isSome_some,
          Event.KeepsRdrf, hstat, true_imp_iff]
    · have hglobal : Reg.ofOffset? offset = some .global →
          Bits.any value globalRstMask = false := by
        intro hglobal
        simpa [Event.consumes, hglobal] using hrst
      rw [held_write hstat hglobal]
      exact iff_of_true hs fun _ h => absurd h hstat

theorem kept_after_iff (htake : Mealy.Takes step τ) (hs : Kept g τ.pre) :
    Kept (unreadAfter g τ) τ.post ↔ (g.isSome = true → τ.input.KeepsRdrf) := by
  obtain ⟨s, e, r, t⟩ := τ
  cases e with
  | reset =>
    obtain ⟨rfl, rfl⟩ : _ ∧ _ := by simpa [Mealy.Takes, step] using htake
    refine iff_of_true ?_ fun _ => trivial
    rw [unreadAfter_of_nil rfl]
    exact kept_none
  | write offset value =>
    obtain ⟨rfl, rfl⟩ : _ ∧ _ := by simpa [Mealy.Takes, step] using htake
    exact kept_write_iff hs rfl rfl
  | poll l =>
    obtain ⟨rfl, rfl⟩ : _ ∧ _ := by simpa [Mealy.Takes, step] using htake
    exact iff_of_true (kept_poll hs rfl rfl) fun _ => trivial
  | read offset l =>
    refine iff_of_true ?_ fun _ => trivial
    by_cases hr : Reg.ofOffset? offset = some .data
    · obtain ⟨rfl, rfl⟩ : _ ∧ _ := by simpa [Mealy.Takes, step] using htake
      exact kept_read_data hr rfl rfl
    · obtain ⟨v, hread⟩ := read_of_ne (s := s) hr l
      obtain ⟨rfl, rfl⟩ : _ ∧ _ := by simpa [Mealy.Takes, step, hread] using htake
      have hconsumes : (Event.read offset l).consumes = false := decide_eq_false hr
      rw [unreadAfter_of_nil rfl, hconsumes]
      exact hs

/-! ## Whole runs -/

/-- **Unread bytes.** In any run, a byte received is kept until the data register is read or
    the device is reset, if and only if every write of `STAT` while there is one has
    the bit of `RDRF` in its value. -/
theorem run_unread_iff (s : State) (es : List Event) : ∃ h t, run s es = .ok (h, t) ∧
    (Mealy.Along unreadAfter (fun g τ => Kept (unreadAfter g τ) τ.post) none h ↔
      Mealy.Along unreadAfter (fun g τ => g.isSome = true → τ.input.KeepsRdrf) none h) := by
  obtain ⟨h, t, hr⟩ := exists_run s es
  exact ⟨h, t, hr, Mealy.run_along_exact hr kept_none fun g τ _ htake hs =>
    kept_after_iff htake hs⟩

/-- A byte is received and `STAT` written, with zero, or with the value read from it before:
    the backend is let in again, and its next byte takes the place of the first, which
    nobody has read. -/
theorem run_unread_lost :
    (∃ h t, run listening [.poll [0x61#8], .write 0x14 0#32, .poll [0x62#8]] = .ok (h, t) ∧
      h.flatMap delivered = [0x61#32, 0x62#32] ∧ h.flatMap returned = [] ∧ held t = [0x62#32] ∧
      ¬Mealy.Along unreadAfter (fun g τ => Kept (unreadAfter g τ) τ.post) none h) ∧
    ∃ h t, run listening [.read 0x14 [], .poll [0x61#8], .write 0x14 0xC00000#32,
        .poll [0x62#8]] = .ok (h, t) ∧
      h.head?.bind (·.output.value) = some 0xC00000#32 ∧
      h.flatMap delivered = [0x61#32, 0x62#32] ∧ h.flatMap returned = [] ∧ held t = [0x62#32] ∧
      ¬Mealy.Along unreadAfter (fun g τ => Kept (unreadAfter g τ) τ.post) none h := by
  refine ⟨⟨_, _, rfl, rfl, rfl, rfl, ?_⟩, ⟨_, _, rfl, rfl, rfl, rfl, rfl, ?_⟩⟩
  · rintro ⟨-, hkept, -⟩
    exact absurd (hkept 0x61#8 rfl).1 (by decide)
  · rintro ⟨-, -, hkept, -⟩
    exact absurd (hkept 0x61#8 rfl).1 (by decide)

end S32K358.Lpuart
