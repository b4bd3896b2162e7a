import S32K358.Lpspi.Flags

/-!
# The LPSPI: flags and interrupts

The flag `RDF` should say that the RX FIFO holds more frames than its watermark
(`FollowsWatermark`), and the interrupt line that `TDF` or `RDF` is set and enabled
(`Coherent`).

* An update of the status assigns `RDF` only above the watermark, where it is set if
  there are *four bytes* (`RdfFrom`). So it never falls with the FIFO, and is clear
  with a few frames of less than a word. `run_rdf_iff` says in which runs it follows
  the watermark, in terms of the levels of the FIFO only (`KeepsRdf`).
* All writes end with an update of the line, but a read of `RDR` does not update it.
  `run_irq_iff` says in which runs the line is right: those where no such read
  takes the FIFO from four bytes or more to less, with frames above the watermark
  left, and the interrupt of `RDF` alone enabled (`KeepsIrq`).
-/

namespace S32K358.Lpspi

variable {n : ℕ} {β : Type} {bus : SsiBus β} {s t x : State n β} {a : Access}

/-! ## Flags -/

/-- `RDF` as an update of the status leaves it, if it was `b` before. -/
def RdfFrom (b : Bool) (s : State n β) : Prop :=
  Bits.any s.sr srRdf = if s.rxWatermark < rxWords s then decide (4 ≤ s.rxFifo.num) else b

theorem rdf_status : RdfFrom (Bits.any s.sr srRdf) (status s) := flag_status (f := .rdf)

theorem Settled.rdf_eq (hs : Settled s) : RdfFrom (Bits.any s.sr srRdf) s := hs.flag_eq (f := .rdf)

/-- `TDF` after an update of the status. -/
theorem tdf_status : Bits.any (status s).sr srTdf =
    if txWords s ≤ s.txWatermark then decide (4 ≤ fifoByteCapacity - s.txFifo.num)
    else Bits.any s.sr srTdf := flag_status (f := .tdf)

/-! ## The interrupt line -/

/-- The level last driven on the interrupt line is the one it should have. -/
def Coherent (s : State n β) : Prop := s.irq = irqLevel s

instance (s : State n β) : Decidable (Coherent s) := inferInstanceAs (Decidable (_ = _))

/-- The access leaves the line right, if it is before. Only a read of `RDR` may not,
    if it leaves more frames than the watermark, which `RDF` then does not show
    any more. -/
def KeepsIrq (s : State n β) : Access → Prop
  | .read addr => takes s (.read addr) = true →
      s.rxWatermark < (s.rxFifo.num - bytesPerFrame s.tcr) / bytesPerFrame s.tcr →
      4 ≤ s.rxFifo.num → s.rxFifo.num - bytesPerFrame s.tcr < 4 →
      Bits.any s.ier srRdf = false ∨ Bits.any s.sr srTdf = true ∧ Bits.any s.ier srTdf = true
  | .write _ _ => True

theorem irqLevel_eq : irqLevel s =
    (Bits.any s.sr srTdf && Bits.any s.ier srTdf ||
      Bits.any s.sr srRdf && Bits.any s.ier srRdf) := by
  rw [irqLevel, Bits.any_or_right, srTdf, srRdf, Bits.any_and_left _ _ (by decide),
    Bits.any_and_left _ _ (by decide)]

/-- Two flags that differ make the same interrupt only if masked. -/
theorem or_and_eq_iff : ∀ p r r' i : Bool,
    (p || r && i) = (p || r' && i) ↔ r = r' ∨ i = false ∨ p = true := by decide

theorem coherent_settle : Coherent (settle s) := rfl

/-- Taking a frame does not change `TDF`. -/
theorem tdf_take (hs : Settled s) :
    Bits.any (status (taken s)).sr srTdf = Bits.any s.sr srTdf := by
  have hsame : Bits.any (status (taken s)).sr srTdf = Bits.any (status s).sr srTdf := by
    rw [tdf_status, tdf_status]
    rfl
  rw [hsame, hs.status_eq]

theorem rdf_take : Bits.any (status (taken s)).sr srRdf =
    if s.rxWatermark < (s.rxFifo.num - bytesPerFrame s.tcr) / bytesPerFrame s.tcr then
      decide (4 ≤ s.rxFifo.num - bytesPerFrame s.tcr) else Bits.any s.sr srRdf := by
  have hnum : (taken s).rxFifo.num = s.rxFifo.num - bytesPerFrame s.tcr := RingBuffer.num_popN _ _
  rw [← hnum]
  exact rdf_status

/-- Taking a frame does not change `TDF`, and `RDF` only if frames above the watermark
    are left. -/
theorem coherent_take_iff {addr : ℕ} (hs : Settled s) (hp : Coherent s)
    (hr : Reg.ofOffset? addr = some .rdr) (h : s.rxFifo.num ≠ 0) :
    Coherent (status (taken s)) ↔ KeepsIrq s (.read addr) := by
  have htake : takes s (.read addr) = true := by simp [takes, hr, h]
  have hle : (s.rxFifo.num - bytesPerFrame s.tcr) / bytesPerFrame s.tcr ≤ rxWords s :=
    Nat.div_le_div_right (Nat.sub_le _ _)
  have hold : Bits.any s.sr srRdf = if s.rxWatermark < rxWords s then decide (4 ≤ s.rxFifo.num)
      else Bits.any s.sr srRdf := hs.rdf_eq
  have hirq : Coherent (status (taken s)) ↔ irqLevel s = irqLevel (status (taken s)) := by
    rw [← hp]
    rfl
  have hier : (status (taken s)).ier = s.ier := rfl
  rw [hirq, irqLevel_eq, irqLevel_eq, tdf_take hs, rdf_take, hier, or_and_eq_iff,
    Bool.and_eq_true_iff]
  constructor
  · rintro (hsame | hmasked) - hw h₄ hlt
    · rw [if_pos hw, hold, if_pos (hw.trans_le hle), decide_eq_decide] at hsame
      omega
    · exact hmasked
  · intro hkeeps
    by_cases hw : s.rxWatermark < (s.rxFifo.num - bytesPerFrame s.tcr) / bytesPerFrame s.tcr
    · -- Above the watermark also before, so `RDF` was up to date.
      rw [if_pos hw, hold, if_pos (hw.trans_le hle), decide_eq_decide]
      by_cases hfall : 4 ≤ s.rxFifo.num ∧ s.rxFifo.num - bytesPerFrame s.tcr < 4
      · exact .inr (hkeeps htake hw hfall.1 hfall.2)
      · exact .inl (by omega)
    · exact .inl (if_neg hw).symm

theorem Effect.coherent_iff {v : Option (BitVec 32)} (hs : Settled s) (hp : Coherent s)
    (h : Effect bus s a v t) : Coherent t ↔ KeepsIrq s a := by
  cases h with
  | look h =>
    rw [hs.status_eq]
    refine iff_of_true hp fun htake => ?_
    simp only [takes, decide_eq_true_eq] at htake
    exact absurd h (by tauto)
  | take hr h =>
    rw [hs.status_eq]
    exact coherent_take_iff hs hp hr h
  | ignore => exact iff_of_true hp trivial
  -- All other writes end with an update of the line.
  | _ => exact iff_of_true coherent_settle trivial

/-- **Coherence of the interrupt line.** In a run from power on, without commands
    whose frames have no bytes, the line is right after every access exactly when
    every access keeps it so. -/
theorem run_irq_iff (bus : SsiBus β) {s₀ : State n β} (h₀ : PowerOn bus s₀) (as : List Access)
    (ha : ∀ a ∈ as, a.Framed) :
    run bus s₀ as = .error .csOutOfBounds ∨ ∃ h t, run bus s₀ as = .ok (h, t) ∧
      ((∀ τ ∈ h, Coherent τ.post) ↔ ∀ τ ∈ h, KeepsIrq τ.pre τ.input) := by
  refine run_exact h₀.settled ?_ ha (fun _ => Iff.rfl) fun hs hp _ h => h.coherent_iff hs hp
  obtain ⟨hz, ssi, -, -, -, rfl⟩ := powerOn_iff.1 h₀
  exact coherent_settle

/-- A word sent and its answer read, with the interrupt of `RDF` enabled: the line is right
    all the time. -/
theorem run_irq_iff_once : ∃ h t,
    run SsiBus.empty bare [.write 0x10 1#32, .write 0x18 2#32, .write 0x64 1#32, .read 0x74] =
      .ok (h, t) ∧
      (∀ τ ∈ h, Coherent τ.post) ∧ ∀ τ ∈ h, KeepsIrq τ.pre τ.input := by
  rcases run_irq_iff SsiBus.empty powerOn_bare
    [.write 0x10 1#32, .write 0x18 2#32, .write 0x64 1#32, .read 0x74] (by decide)
    with herr | ⟨h, t, hr, hiff⟩
  · cases herr
  · have hcoherent : ∀ τ ∈ h, Coherent τ.post := by
      obtain ⟨rfl, rfl⟩ := Prod.mk.inj (Except.ok.inj hr)
      decide
    exact ⟨h, t, hr, hcoherent, hiff.1 hcoherent⟩

/-- With frames of a byte, of which four are received, reading one clears `RDF`, but
    the line, raised for it, stays up. -/
theorem run_not_coherent : ∃ h t, run SsiBus.empty bare
    [.write 0x10 1#32, .write 0x18 2#32, .write 0x60 7#32, .write 0x64 1#32, .write 0x64 2#32,
      .write 0x64 3#32, .write 0x64 4#32, .read 0x74] = .ok (h, t) ∧
    t.irq = true ∧ irqLevel t = false ∧ ¬Coherent t :=
  ⟨_, _, rfl, rfl, rfl, by decide⟩

/-! ## The watermark -/

/-- `RDF` is set exactly when the RX FIFO holds more frames than the watermark. -/
def FollowsWatermark (s : State n β) : Prop :=
  Bits.any s.sr srRdf = decide (rxwater s.fcr < rxWords s)

instance (s : State n β) : Decidable (FollowsWatermark s) := inferInstanceAs (Decidable (_ = _))

/-- The bytes in the RX FIFO after an access. -/
def rxNumAfter (s : State n β) (a : Access) : ℕ :=
  if a.setsCr (crRst ||| crRrf) then 0
  else if takes s a then s.rxFifo.num - bytesPerFrame s.tcr
  else (sending s a).elim s.rxFifo.num fun x =>
    if rxmsk x.tcr then s.rxFifo.num else s.rxFifo.num + bytesPerFrame x.tcr

/-- The watermark after an access. -/
def rxWatermarkAfter (s : State n β) : Access → ℕ
  | .read _ => s.rxWatermark
  | .write addr v =>
    if Reg.ofOffset? addr = some .fcr then rxwater v
    else if Reg.ofOffset? addr = some .cr ∧ Bits.any v crRst = true then 0
    else s.rxWatermark

/-- `RDF` before the last update of the status in an access. -/
def rdfBefore (s : State n β) : Access → Bool
  | .read _ => Bits.any s.sr srRdf
  | .write addr v =>
    -- The guest clears flags by writing ones to them.
    if Reg.ofOffset? addr = some .sr then Bits.any (s.sr &&& ~~~v) srRdf
    else if Reg.ofOffset? addr = some .cr ∧ Bits.any v crRst = true then false
    else Bits.any s.sr srRdf

/-- The access leaves `RDF` right, if it is before: the FIFO has a word, if it has more
    frames than the watermark, and it had not, if it has not. -/
def KeepsRdf (s : State n β) (a : Access) : Prop :=
  if rxWatermarkAfter s a < rxNumAfter s a / bytesPerFrame (tcrAfter s a) then 4 ≤ rxNumAfter s a
  else a.setsCr crRst = true ∨ rxWords s ≤ s.rxWatermark

theorem Effect.rxNum_eq {v : Option (BitVec 32)} (h : Effect bus s a v t) :
    t.rxFifo.num = rxNumAfter s a := by
  rw [h.rxFifo_eq, rxAfter, rxNumAfter]
  split_ifs with hrst htake
  · rfl
  · exact RingBuffer.num_popN _ _
  · cases hx : sending s a with
    | none => rfl
    | some x =>
      obtain ⟨addr, v, -, -, hready, hcase⟩ := sending_eq_some hx
      have hrx : x.rxFifo = s.rxFifo := by
        rcases hcase with ⟨-, rfl⟩ | ⟨-, rfl, -⟩ <;> rfl
      rw [← hrx]
      exact num_rxFifo_sendFrame hready

theorem Effect.rxWatermark_eq {v : Option (BitVec 32)} (h : Effect bus s a v t) :
    t.rxWatermark = rxWatermarkAfter s a := by
  refine (congrArg Prod.snd h.watermarksAfter_eq).trans ?_
  rcases a with addr | ⟨addr, v⟩
  · rfl
  · rw [watermarksAfter, rxWatermarkAfter]
    split_ifs <;> rfl

theorem any_srBefore_rdf : Bits.any (srBefore s a) srRdf = rdfBefore s a := by
  cases a with
  | read => rfl
  | write addr v =>
    have htdf : Bits.any srTdf srRdf = false := by decide
    have htef : Bits.any srTef srRdf = false := by decide
    rw [srBefore, rdfBefore]
    split
    · rename_i hr
      rw [if_pos hr]
    · rename_i hr
      have hne : Reg.ofOffset? addr ≠ some .sr := by simp [hr]
      have hcr : Bits.any (writeCr s v).sr srRdf = Bits.any s.sr srRdf := by
        simp only [writeCr]
        split_ifs <;> simp [htdf]
      rw [if_neg hne]
      cases hrst : Bits.any v crRst with
      | true =>
        rw [if_pos rfl, if_pos ⟨hr, rfl⟩]
        decide
      | false => simpa using hcr
    · rename_i hr
      simp only [hr]
      split_ifs <;> simp_all
    · rename_i h₁ h₂ _
      rw [if_neg h₁, if_neg fun h => h₂ h.1]

theorem Effect.rdfFrom {v : Option (BitVec 32)} (hs : Settled s) (h : Effect bus s a v t) :
    RdfFrom (rdfBefore s a) t := by
  rw [← any_srBefore_rdf]
  exact h.flagFrom (f := .rdf) hs

/-- At or below the watermark, `RDF` is clear after the access exactly when it was
    before, and a reset clears it. -/
theorem rdfBefore_eq_false_iff (hp : Bits.any s.sr srRdf = decide (s.rxWatermark < rxWords s))
    (h : ¬rxWatermarkAfter s a < rxNumAfter s a / bytesPerFrame (tcrAfter s a)) :
    rdfBefore s a = false ↔ a.setsCr crRst = true ∨ rxWords s ≤ s.rxWatermark := by
  cases a with
  | read addr => simp [rdfBefore, hp, Access.setsCr]
  | write addr v =>
    rw [rdfBefore]
    split_ifs with hsr hrst
    · -- A write of `SR` may clear the flag, but here it is clear already.
      have hle : rxWords s ≤ s.rxWatermark := by
        simpa [rxWatermarkAfter, rxNumAfter, tcrAfter, Access.setsCr, takes, sending, hsr,
          rxWords] using h
      refine iff_of_true (Bool.eq_false_iff.2 fun hany => ?_) (.inr hle)
      have hset := Bits.any_of_any_clear hany
      rw [hp, decide_eq_true_eq] at hset
      exact absurd hset (Nat.not_lt.2 hle)
    · exact iff_of_true rfl (.inl (by simp [Access.setsCr, hrst]))
    · have hno : Access.setsCr crRst (.write addr v) = false := by
        simpa [Access.setsCr] using hrst
      simp [hp, hno]

theorem Effect.followsWatermark_iff {v : Option (BitVec 32)} (hs : Settled s)
    (hp : FollowsWatermark s) (h : Effect bus s a v t) : FollowsWatermark t ↔ KeepsRdf s a := by
  have hset : Bits.any s.sr srRdf = decide (s.rxWatermark < rxWords s) := by
    rw [hs.rxWatermark_eq]
    exact hp
  have hrdf : Bits.any t.sr srRdf =
      if t.rxWatermark < rxWords t then decide (4 ≤ t.rxFifo.num) else rdfBefore s a :=
    h.rdfFrom hs
  have hwords : rxWords t = rxNumAfter s a / bytesPerFrame (tcrAfter s a) := by
    rw [rxWords, h.rxNum_eq, h.tcr_eq]
  rw [FollowsWatermark, ← (h.watermarks_eq hs).2, hrdf, hwords, h.rxWatermark_eq, h.rxNum_eq,
    KeepsRdf]
  split_ifs with hw
  · simp [hw]
  · rw [decide_eq_false hw]
    exact rdfBefore_eq_false_iff hset hw

/-- **The watermark.** In a run from power on, without commands whose frames have no
    bytes, `RDF` follows the watermark after every access exactly when every access
    keeps it so. -/
theorem run_rdf_iff (bus : SsiBus β) {s₀ : State n β} (h₀ : PowerOn bus s₀) (as : List Access)
    (ha : ∀ a ∈ as, a.Framed) :
    run bus s₀ as = .error .csOutOfBounds ∨ ∃ h t, run bus s₀ as = .ok (h, t) ∧
      ((∀ τ ∈ h, FollowsWatermark τ.post) ↔ ∀ τ ∈ h, KeepsRdf τ.pre τ.input) := by
  refine run_exact h₀.settled ?_ ha (fun _ => Iff.rfl) fun hs hp _ h => h.followsWatermark_iff hs hp
  obtain ⟨hz, ssi, -, -, -, rfl⟩ := powerOn_iff.1 h₀
  have hwords : rxWords (afterReset bus (realized hz n ssi)) = 0 := Nat.zero_div _
  have hclear : Bits.any (srTdf ||| srTcf) srRdf = false := by decide
  have hrdf : RdfFrom (Bits.any (srTdf ||| srTcf) srRdf) (afterReset bus (realized hz n ssi)) :=
    flag_afterReset (f := .rdf)
  rw [RdfFrom, hwords, if_neg (Nat.not_lt_zero _), hclear] at hrdf
  exact hrdf.trans (decide_eq_false (hwords ▸ Nat.not_lt_zero _)).symm

/-- A word sent, and another one: `RDF` follows the watermark. -/
theorem run_rdf_iff_two : ∃ h t,
    run SsiBus.empty bare [.write 0x10 1#32, .write 0x64 1#32, .write 0x64 2#32] = .ok (h, t) ∧
      (∀ τ ∈ h, FollowsWatermark τ.post) ∧ ∀ τ ∈ h, KeepsRdf τ.pre τ.input := by
  rcases run_rdf_iff SsiBus.empty powerOn_bare
    [.write 0x10 1#32, .write 0x64 1#32, .write 0x64 2#32] (by decide) with herr | ⟨h, t, hr, hiff⟩
  · cases herr
  · have hfollows : ∀ τ ∈ h, FollowsWatermark τ.post := by
      obtain ⟨rfl, rfl⟩ := Prod.mk.inj (Except.ok.inj hr)
      decide
    exact ⟨h, t, hr, hfollows, hiff.1 hfollows⟩

/-- After a word is sent and its answer read, `RDF` is still set, with the FIFO empty;
    and with frames of a byte, it is not set after one is received. -/
theorem run_not_followsWatermark :
    (∃ h t, run SsiBus.empty bare [.write 0x10 1#32, .write 0x64 1#32, .read 0x74] = .ok (h, t) ∧
      Bits.any t.sr srRdf = true ∧ rxWords t = 0 ∧ ¬FollowsWatermark t) ∧
    ∃ h t, run SsiBus.empty bare [.write 0x10 1#32, .write 0x60 7#32, .write 0x64 1#32] =
      .ok (h, t) ∧ Bits.any t.sr srRdf = false ∧ rxWords t = 1 ∧ ¬FollowsWatermark t :=
  ⟨⟨_, _, rfl, rfl, rfl, by decide⟩, _, _, rfl, rfl, rfl, by decide⟩

end S32K358.Lpspi
