import S32K358.Lpspi.Flags

/-!
# The LPSPI: the transmit flag

The flag `TDF` should be set only if the TX FIFO holds at most as many frames as its
watermark (`WithinWatermark`), and is then a promise of room: a value written next is
accepted (`PromisesRoom`).

An update of the status assigns `TDF` only at or below the watermark, so a FIFO that
fills up past it leaves the flag set. `run_tdf_iff` says in which runs it is right, in
terms of the levels of the FIFO only (`KeepsTdf`).
-/

namespace S32K358.Lpspi

variable {n : ℕ} {β : Type} {bus : SsiBus β} {s t : State n β} {a : Access}

/-- `TDF` is set only if the TX FIFO holds at most as many frames as the watermark. -/
def WithinWatermark (s : State n β) : Prop :=
  Bits.any s.sr srTdf = true → txWords s ≤ txwater s.fcr

instance (s : State n β) : Decidable (WithinWatermark s) := inferInstanceAs (Decidable (_ → _))

/-- If a guest reads `TDF` set, with the module enabled, then the value that it writes
    next is accepted, and `TEF` stays as it is. -/
def PromisesRoom (bus : SsiBus β) (s : State n β) : Prop :=
  ∀ (v : BitVec 32) (r₁ : Reply n) (s₁ : State n β), access bus s (.read 0x14) = .ok (r₁, s₁) →
    Bits.any (r₁.value.getD 0#32) srTdf = true → Bits.any s₁.cr crMen = true →
      accepts s₁ (.write 0x64 v) = some v ∧
        ∀ r₂ s₂, access bus s₁ (.write 0x64 v) = .ok (r₂, s₂) →
          Bits.any s₂.sr srTef = Bits.any s₁.sr srTef

/-! ## Levels -/

/-- The bytes in the TX FIFO after an access. -/
def txNumAfter (s : State n β) (a : Access) : ℕ :=
  if a.setsCr (crRst ||| crRtf) then 0
  else
    let k := (accepts s a).elim s.txFifo.num fun _ => s.txFifo.num + bytesPerFrame s.tcr
    (sending s a).elim k fun x => k - bytesPerFrame x.tcr

/-- The watermark after an access. -/
def txWatermarkAfter (s : State n β) : Access → ℕ
  | .read _ => s.txWatermark
  | .write addr v =>
    if Reg.ofOffset? addr = some .fcr then txwater v
    else if Reg.ofOffset? addr = some .cr ∧ Bits.any v crRst = true then 0
    else s.txWatermark

/-- The access leaves `TDF` right, if it is before: a FIFO above the watermark was so
    before, or had no room for a word. -/
def KeepsTdf (s : State n β) (a : Access) : Prop :=
  txWatermarkAfter s a < txNumAfter s a / bytesPerFrame (tcrAfter s a) →
    s.txWatermark < txWords s ∨ fifoByteCapacity < s.txFifo.num + 4

instance (s : State n β) (a : Access) : Decidable (KeepsTdf s a) :=
  inferInstanceAs (Decidable (_ → _ ∨ _))

theorem Effect.txNum_eq {v : Option (BitVec 32)} (h : Effect bus s a v t) :
    t.txFifo.num = txNumAfter s a := by
  have hqueued : ((accepts s a).elim s.txFifo fun v => (queued s v).txFifo).num =
      (accepts s a).elim s.txFifo.num fun _ => s.txFifo.num + bytesPerFrame s.tcr := by
    cases hacc : accepts s a with
    | none => rfl
    | some v => exact num_txFifo_queued (room_of_accepts hacc)
  rw [h.txFifo_eq, txAfter, txNumAfter]
  split_ifs
  · rfl
  · cases sending s a with
    | none => exact hqueued
    | some x => exact (RingBuffer.num_popN _ _).trans (congrArg (· - _) hqueued)

theorem Effect.txWatermark_eq {v : Option (BitVec 32)} (h : Effect bus s a v t) :
    t.txWatermark = txWatermarkAfter s a := by
  refine (congrArg Prod.fst h.watermarksAfter_eq).trans ?_
  rcases a with addr | ⟨addr, v⟩
  · rfl
  · rw [watermarksAfter, txWatermarkAfter]
    split_ifs <;> rfl

/-! ## The watermark -/

/-- A flag that is right is set exactly when it would be assigned so. -/
theorem tdf_eq_false_iff (hs : Settled s) (hp : WithinWatermark s) :
    Bits.any s.sr srTdf = false ↔
      s.txWatermark < txWords s ∨ fifoByteCapacity < s.txFifo.num + 4 := by
  have htdf : Bits.any s.sr srTdf = if txWords s ≤ s.txWatermark then
      decide (4 ≤ fifoByteCapacity - s.txFifo.num) else Bits.any s.sr srTdf :=
    hs.flag_eq (f := .tdf)
  rw [WithinWatermark, ← hs.txWatermark_eq] at hp
  by_cases hw : txWords s ≤ s.txWatermark
  · rw [htdf, if_pos hw, decide_eq_false_iff_not]
    omega
  · exact iff_of_true (Bool.eq_false_iff.2 (mt hp hw)) (.inl (Nat.not_le.1 hw))

/-- Above the watermark, `TDF` is clear after an access exactly when it was before. -/
theorem tdfBefore_eq_false_iff (hs : Settled s) (hp : WithinWatermark s)
    (h : txWatermarkAfter s a < txNumAfter s a / bytesPerFrame (tcrAfter s a)) :
    Bits.any (srBefore s a) srTdf = false ↔
      s.txWatermark < txWords s ∨ fifoByteCapacity < s.txFifo.num + 4 := by
  rw [← tdf_eq_false_iff hs hp]
  cases a with
  | read addr => exact Iff.rfl
  | write addr v =>
    rw [srBefore]
    split
    · -- A write of `SR` may clear the flag, but here it is clear already.
      rename_i hr
      have hlt : s.txWatermark < txWords s := by
        simpa [txWatermarkAfter, txNumAfter, tcrAfter, Access.setsCr, accepts, sending, hr,
          txWords] using h
      have hclear := (tdf_eq_false_iff hs hp).2 (.inl hlt)
      refine iff_of_true (Bool.eq_false_iff.2 fun hany => ?_) hclear
      rw [Bits.any_of_any_clear hany] at hclear
      exact absurd hclear (by decide)
    · -- A FIFO that is reset is not above the watermark.
      rename_i hr
      have hkeep : Bits.any v crRst = false ∧ Bits.any v crRtf = false := by
        rw [← Bool.or_eq_false_iff, ← Bits.any_or_right]
        by_contra hreset
        have hsets : Access.setsCr (crRst ||| crRtf) (.write addr v) = true := by
          rw [Access.setsCr, hr, eq_true_of_ne_false hreset]
          rfl
        rw [txNumAfter, if_pos hsets, Nat.zero_div] at h
        exact Nat.not_lt_zero _ h
      simp [hkeep, writeCr]
    · have htef : Bits.any srTef srTdf = false := by decide
      split_ifs <;> simp [htef]
    · exact Iff.rfl

theorem Effect.withinWatermark_iff {v : Option (BitVec 32)} (hs : Settled s)
    (hp : WithinWatermark s) (h : Effect bus s a v t) : WithinWatermark t ↔ KeepsTdf s a := by
  have htdf : Bits.any t.sr srTdf = if txWords t ≤ t.txWatermark then
      decide (4 ≤ fifoByteCapacity - t.txFifo.num) else Bits.any (srBefore s a) srTdf :=
    h.flagFrom (f := .tdf) hs
  have hwords : txWords t = txNumAfter s a / bytesPerFrame (tcrAfter s a) := by
    rw [txWords, h.txNum_eq, h.tcr_eq]
  rw [WithinWatermark, ← (h.watermarks_eq hs).1, KeepsTdf, ← hwords, ← h.txWatermark_eq]
  by_cases hw : txWords t ≤ t.txWatermark
  · exact iff_of_true (fun _ => hw) fun hlt => absurd hw (Nat.not_le.2 hlt)
  · have habove := Nat.not_le.1 hw
    rw [if_neg hw] at htdf
    rw [htdf, imp_iff_not hw, Bool.not_eq_true, imp_iff_right habove]
    rw [hwords, h.txWatermark_eq] at habove
    exact tdfBefore_eq_false_iff hs hp habove

/-! ## Room -/

/-- With room for a word, which no frame exceeds, a value is accepted. -/
theorem accepts_of_room {addr : ℕ} (v : BitVec 32) (hr : Reg.ofOffset? addr = some .tdr)
    (hmen : Bits.any s.cr crMen = true) (hroom : s.txFifo.num + 4 ≤ fifoByteCapacity) :
    accepts s (.write addr v) = some v := by
  have hb := bytesPerFrame_le s.tcr
  exact if_pos ⟨hr, hmen, by omega⟩

/-- Values that are accepted do not change `TEF`. -/
theorem tef_of_accepts {addr : ℕ} {v w : BitVec 32} {r : Reply n} (hs : Settled s)
    (hr : Reg.ofOffset? addr = some .tdr) (hacc : accepts s (.write addr v) = some w)
    (h : access bus s (.write addr v) = .ok (r, t)) :
    Bits.any t.sr srTef = Bits.any s.sr srTef := by
  obtain ⟨u, hu, -, rfl⟩ := effect_of_access hs.bytes_ne_zero h
  have htef := hu.flagFrom (f := .tef) hs
  rw [srBefore_of_room hr (room_of_accepts hacc)] at htef
  exact htef

theorem Settled.promisesRoom (bus : SsiBus β) (hs : Settled s) (hp : WithinWatermark s) :
    PromisesRoom bus s := by
  intro v r₁ s₁ hread hset hmen
  have hlook : Lpspi.access bus s (.read 0x14) = .ok (⟨some s.sr, []⟩, s) :=
    hs.access_look (.inl (by decide))
  rw [hlook, Except.ok.injEq, Prod.mk.injEq] at hread
  obtain ⟨rfl, rfl⟩ := hread
  have hroom : s.txFifo.num + 4 ≤ fifoByteCapacity := by
    by_contra hfull
    have hclear := (tdf_eq_false_iff hs hp).2 (.inr (Nat.not_le.1 hfull))
    exact absurd hset (Bool.eq_false_iff.1 hclear)
  have hacc : accepts s (.write 0x64 v) = some v := accepts_of_room v rfl hmen hroom
  exact ⟨hacc, fun r₂ s₂ h => tef_of_accepts hs rfl hacc h⟩

/-! ## Runs -/

/-- **The transmit flag.** In a run from power on, without commands whose frames have no
    bytes, `TDF` is right and a promise of room after every access exactly when every
    access keeps it right. -/
theorem run_tdf_iff (bus : SsiBus β) {s₀ : State n β} (h₀ : PowerOn bus s₀) (as : List Access)
    (ha : ∀ a ∈ as, a.Framed) :
    run bus s₀ as = .error .csOutOfBounds ∨ ∃ h t, run bus s₀ as = .ok (h, t) ∧
      ((∀ τ ∈ h, WithinWatermark τ.post ∧ PromisesRoom bus τ.post) ↔
        ∀ τ ∈ h, KeepsTdf τ.pre τ.input) := by
  have hp₀ : WithinWatermark s₀ := by
    obtain ⟨hz, ssi, -, -, -, rfl⟩ := powerOn_iff.1 h₀
    intro _
    exact (Nat.zero_div _).trans_le (Nat.zero_le _)
  have hexact : run bus s₀ as = .error .csOutOfBounds ∨ ∃ h t, run bus s₀ as = .ok (h, t) ∧
      ((∀ τ ∈ h, WithinWatermark τ.post) ↔ ∀ τ ∈ h, KeepsTdf τ.pre τ.input) :=
    run_exact h₀.settled hp₀ ha (fun _ => Iff.rfl) fun hs hp _ h => h.withinWatermark_iff hs hp
  rcases hexact with herr | ⟨h, t, hr, hiff⟩
  · exact .inl herr
  · refine .inr ⟨h, t, hr, ?_⟩
    rw [← hiff]
    constructor
    · exact fun hall τ hτ => (hall τ hτ).1
    · exact fun hall τ hτ =>
        ⟨hall τ hτ, ((run_settled hr h₀.settled).2 τ hτ).2.promisesRoom bus (hall τ hτ)⟩

/-- A word sent, and another one: `TDF` is a promise of room all the time. -/
theorem run_tdf_iff_two : ∃ h t,
    run SsiBus.empty bare [.write 0x10 1#32, .write 0x64 1#32, .write 0x64 2#32] = .ok (h, t) ∧
      (∀ τ ∈ h, KeepsTdf τ.pre τ.input) ∧
      ∀ τ ∈ h, WithinWatermark τ.post ∧ PromisesRoom SsiBus.empty τ.post := by
  rcases run_tdf_iff SsiBus.empty powerOn_bare
    [.write 0x10 1#32, .write 0x64 1#32, .write 0x64 2#32] (by decide) with herr | ⟨h, t, hr, hiff⟩
  · cases herr
  · have hkeeps : ∀ τ ∈ h, KeepsTdf τ.pre τ.input := by
      obtain ⟨rfl, rfl⟩ := Prod.mk.inj (Except.ok.inj hr)
      decide
    exact ⟨h, t, hr, hkeeps, hiff.2 hkeeps⟩

/-- A guest that does not read its answers fills the RX FIFO, and then the TX FIFO. -/
def flood (k : ℕ) : List Access := .write 0x10 1#32 :: List.replicate k (.write 0x64 0#32)

/-- After the fifth word, `TDF` is still set, with a frame in the FIFO and a watermark
    of zero; and after the eighth, with the FIFO full, so that the ninth overflows. -/
theorem run_not_withinWatermark :
    (∃ h t, run SsiBus.empty bare (flood 5) = .ok (h, t) ∧ Bits.any t.sr srTdf = true ∧
      txWords t = 1 ∧ txwater t.fcr = 0 ∧ ¬WithinWatermark t) ∧
    (∃ h t, run SsiBus.empty bare (flood 8) = .ok (h, t) ∧ Bits.any t.sr srTdf = true ∧
      Bits.any t.sr srTef = false ∧ accepts t (.write 0x64 0#32) = none) ∧
    ∃ h t, run SsiBus.empty bare (flood 9) = .ok (h, t) ∧ Bits.any t.sr srTef = true :=
  ⟨⟨_, _, rfl, rfl, rfl, rfl, by decide⟩, ⟨_, _, rfl, rfl, rfl, rfl⟩, _, _, rfl, rfl⟩

end S32K358.Lpspi
