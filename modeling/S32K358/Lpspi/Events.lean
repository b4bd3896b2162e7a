import S32K358.Lpspi.Filling
import S32K358.Lpspi.Representation

/-!
# The LPSPI: events and their interrupts

Every event that the device may report has a flag of `SR`, and, at the same place, a bit of
`IER` that enables its interrupt (`srEvents`). The line is driven for two of them only,
`TDF` and `RDF`. Of the others, the device never sets most, but it does set `TCF`,
from a reset on, and `TEF`.

`run_signalled_iff`: in all runs that enable no interrupts but some given ones, the line is
up after every write when a flag is set and enabled (`Signalled`), if and only if those of
`TCF` and `TEF` are not among them.
-/

namespace S32K358.Lpspi

variable {n : ℕ} {β : Type} {bus : SsiBus β} {s t : State n β} {a : Access}

/-! ## Events -/

def srWcf : BitVec 32 := 1#32 <<< 8
def srFcf : BitVec 32 := 1#32 <<< 9
def srDmf : BitVec 32 := 1#32 <<< 13

/-- The flags of events. -/
def srEvents : BitVec 32 :=
  srTdf ||| srRdf ||| srWcf ||| srFcf ||| srTcf ||| srTef ||| srRef ||| srDmf

/-- The line is up if the flag of an event is set and enabled. -/
def Signalled (s : State n β) : Prop := Bits.any (s.sr &&& s.ier) srEvents = true → s.irq = true

instance (s : State n β) : Decidable (Signalled s) := inferInstanceAs (Decidable (_ → _))

def Access.isWrite : Access → Bool
  | .read _ => false
  | .write _ _ => true

/-! ## Runs that do not enable `TCF` and `TEF` -/

/-- `IER` after an access. -/
def ierAfter (s : State n β) : Access → BitVec 32
  | .read _ => s.ier
  | .write addr v =>
    if Reg.ofOffset? addr = some .ier then v
    else if Reg.ofOffset? addr = some .cr ∧ Bits.any v crRst = true then 0#32
    else s.ier

theorem sendFrame_ier : (sendFrame bus s).ier = s.ier := by
  simp only [sendFrame, released, asserted]
  split_ifs <;> rfl

theorem Effect.ier_eq {v : Option (BitVec 32)} (h : Effect bus s a v t) : t.ier = ierAfter s a := by
  cases h with
  | look | take => rfl
  | ignore hr =>
    have h₁ : Reg.ofOffset? _ ≠ some .ier := fun h => absurd (hr _ h) (by decide)
    rw [ierAfter, if_neg h₁, if_neg fun h => (readOnly_ne hr).1 h.1]
  | reset hr hrst | control hr hrst =>
    simp only [ierAfter, hr, hrst]
    rfl
  | @configure _ _ r _ hr ht =>
    cases r <;> cases ht <;> simp only [ierAfter, hr] <;> rfl
  | clear hr | watermark hr | command hr | refuse hr | overflow hr | queue hr =>
    simp only [ierAfter, hr]
    rfl
  | @resume _ v hr =>
    change (sendFrame bus (Lpspi.command s v)).ier = _
    rw [sendFrame_ier]
    simp only [ierAfter, hr]
    rfl
  | @send _ v hr =>
    change (sendFrame bus (Lpspi.queued s v)).ier = _
    rw [sendFrame_ier]
    simp only [ierAfter, hr]
    rfl

/-- A frame taken does not raise the level of the line. -/
theorem irqLevel_take (hs : Settled s) (h : irqLevel (status (taken s)) = true) :
    irqLevel s = true := by
  have hle : (s.rxFifo.num - bytesPerFrame s.tcr) / bytesPerFrame s.tcr ≤ rxWords s :=
    Nat.div_le_div_right (Nat.sub_le _ _)
  have hrdf : Bits.any (status (taken s)).sr srRdf = true → Bits.any s.sr srRdf = true := by
    intro h
    rw [rdf_take] at h
    split_ifs at h with hw
    · -- Above the watermark also before, with more bytes.
      have hold : Bits.any s.sr srRdf = if s.rxWatermark < rxWords s then
        decide (4 ≤ s.rxFifo.num) else Bits.any s.sr srRdf := hs.rdf_eq
      rw [hold, if_pos (hw.trans_le hle)]
      exact decide_eq_true ((of_decide_eq_true h).trans (Nat.sub_le _ _))
    · exact h
  have hier : (status (taken s)).ier = s.ier := rfl
  rw [irqLevel_eq, Bool.or_eq_true, Bool.and_eq_true, Bool.and_eq_true, tdf_take hs, hier] at h
  rw [irqLevel_eq, Bool.or_eq_true, Bool.and_eq_true, Bool.and_eq_true]
  exact h.imp_right fun h => ⟨hrdf h.1, h.2⟩

/-- The line may be up for no reason, but is not down for none. -/
theorem Effect.irq_of_irqLevel {v : Option (BitVec 32)} (hs : Settled s)
    (hp : irqLevel s = true → s.irq = true) (h : Effect bus s a v t) :
    irqLevel t = true → t.irq = true := by
  cases h with
  | look =>
    rw [hs.status_eq]
    exact hp
  | take =>
    rw [hs.status_eq]
    exact fun hlevel => hp (irqLevel_take hs hlevel)
  | ignore => exact hp
  | _ => exact fun hlevel => hlevel

/-- The device between two accesses, when interrupts within a mask are enabled. -/
structure Enabling (m : BitVec 32) (s : State n β) : Prop where
  settled : Settled s
  cached : Cached s
  ier_within : Bits.Within s.ier m
  irq_of_irqLevel : irqLevel s = true → s.irq = true

variable {m : BitVec 32}

theorem ierAfter_within (hs : Bits.Within s.ier m) (ha : a.onWrite .ier (Bits.Within · m)) :
    Bits.Within (ierAfter s a) m := by
  cases a with
  | read addr => exact hs
  | write addr v =>
    rw [ierAfter]
    split_ifs with hier hrst
    · exact ha hier
    · exact BitVec.zero_and
    · exact hs

theorem Enabling.access {r : Reply n} (hs : Enabling m s) (ha : a.onWrite .ier (Bits.Within · m))
    (h : access bus s a = .ok (r, t)) : Enabling m t := by
  obtain ⟨u, hu, -, rfl⟩ := effect_of_access hs.settled.bytes_ne_zero h
  have hc := hu.cached hs.cached
  have hier : Bits.Within u.ier m := by
    rw [hu.ier_eq]
    exact ierAfter_within hs.ier_within ha
  have hirq := hu.irq_of_irqLevel hs.settled hs.irq_of_irqLevel
  exact ⟨hu.settled hs.settled, { hc with }, hier, hirq⟩

/-- Of the flags that the device sets, the line leaves out only `TCF` and `TEF`. -/
theorem Enabling.signalled (hs : Enabling m s) (hm : Bits.any m (srTcf ||| srTef) = false) :
    Signalled s := by
  intro hevent
  have hused : srEvents &&& srUsed = srTdf ||| srRdf ||| (srTcf ||| srTef) := by decide
  have hother : Bits.any (s.sr &&& s.ier) (srTcf ||| srTef) = false := by
    have hwithin : Bits.Within (s.ier &&& s.sr) m := hs.ier_within.and s.sr
    rw [BitVec.and_comm]
    refine hwithin.any_eq_false ?_
    rwa [BitVec.and_comm, ← Bits.any_eq_false_iff]
  rw [← (hs.cached.sr_within.and s.ier).any_and, hused, Bits.any_or_right, hother,
    Bool.or_false] at hevent
  exact hs.irq_of_irqLevel hevent

theorem PowerOn.enabling {s₀ : State n β} (h₀ : PowerOn bus s₀) : Enabling m s₀ := by
  have hset := h₀.settled
  have hc := h₀.cached
  obtain ⟨hz, d, -, -, -, rfl⟩ := powerOn_iff.1 h₀
  exact ⟨hset, hc, BitVec.zero_and, id⟩

theorem run_signalled {s₀ : State n β} {as : List Access} {h : List (Step n β)}
    (h₀ : PowerOn bus s₀) (ha : ∀ a ∈ as, a.onWrite .ier (Bits.Within · m))
    (hr : run bus s₀ as = .ok (h, t)) (hm : Bits.any m (srTcf ||| srTef) = false) :
    ∀ τ ∈ h, Signalled τ.post := by
  have hinv := Mealy.run_invariant (I := Enabling m) hr h₀.enabling fun τ hτ htake hpre =>
    hpre.access (ha _ (Mealy.run_takes hr τ hτ).2) htake
  exact fun τ hτ => (hinv.2 τ hτ).2.signalled hm

/-! ## Runs that enable one of them -/

variable {f : BitVec 32}

/-- The interrupt of a flag that is set is enabled alone, and the line goes down. -/
theorem access_ier (bus : SsiBus β) (hs : Settled s) (hf : f = srTcf ∨ f = srTef)
    (hset : Bits.any s.sr f = true) : ∃ r t, access bus s (.write 0x18 f) = .ok (r, t) ∧
      Bits.any (t.sr &&& t.ier) f = true ∧ t.irq = false := by
  have heff : Effect bus s (.write 0x18 f) none (settle { s with ier := f }) :=
    .configure (r := .ier) rfl rfl
  have hdisj : srTdf &&& f = 0#32 ∧ srRdf &&& f = 0#32 ∧ (srTdf ||| srRdf) &&& f = 0#32 := by
    rcases hf with rfl | rfl <;> decide
  refine ⟨_, _, heff.access_eq hs.bytes_ne_zero, ?_, ?_⟩
  · change Bits.any ((status { s with ier := f }).sr &&& f) f = true
    rw [Bits.any, BitVec.and_assoc, BitVec.and_self, ← Bits.any, any_status hdisj.1 hdisj.2.1]
    exact hset
  · change Bits.any ((status { s with ier := f }).sr &&& f) (srTdf ||| srRdf) = false
    rw [BitVec.and_comm _ f]
    have hwithin : Bits.Within f f := BitVec.and_not_self f
    exact (hwithin.and _).any_eq_false hdisj.2.2

/-- A value that there is no room for sets `TEF`. -/
theorem access_overflow (bus : SsiBus β) {v : BitVec 32} (hs : Settled s)
    (hmen : Bits.any s.cr crMen = true)
    (hfull : fifoByteCapacity < s.txFifo.num + bytesPerFrame s.tcr) :
    ∃ r t, access bus s (.write 0x64 v) = .ok (r, t) ∧ Settled t ∧
      Bits.any t.sr srTef = true := by
  have heff : Effect bus s (.write 0x64 v) none (settle { s with sr := s.sr ||| srTef }) :=
    .overflow rfl hmen hfull
  refine ⟨_, _, heff.access_eq hs.bytes_ne_zero, heff.settled hs, ?_⟩
  change Bits.any (status { s with sr := s.sr ||| srTef }).sr srTef = true
  rw [any_status (by decide) (by decide), Bits.any_or_left]
  exact Bool.or_eq_true_iff.2 (.inr (by decide))

/-- `TCF` is set from a reset on, and `TEF` by an overflow, which there is on any bus. -/
theorem PowerOn.exists_set {s₀ : State n β} (h₀ : PowerOn bus s₀) (hf : f = srTcf ∨ f = srTef) :
    ∃ as h s, (∀ a ∈ as, a.onWrite .ier (· = f)) ∧ run bus s₀ as = .ok (h, s) ∧
      Settled s ∧ Bits.any s.sr f = true := by
  rcases hf with rfl | rfl
  · have hset : Bits.any s₀.sr srTcf = true := by
      obtain ⟨hz, d, -, -, -, rfl⟩ := powerOn_iff.1 h₀
      change Bits.any (status (updateClockConfig (raised bus (resetRegs _)))).sr srTcf = true
      rw [any_status (by decide) (by decide)]
      exact (by decide : Bits.any (srTdf ||| srTcf) srTcf = true)
    exact ⟨[], [], s₀, by simp, rfl, h₀.settled, hset⟩
  · have hpcs : pcs 0x1F#32 < n := by
      obtain ⟨hz, d, -, h₁, -, -⟩ := powerOn_iff.1 h₀
      exact h₁
    -- Four words fill the RX FIFO, four more the TX FIFO, and the next one is too much.
    obtain ⟨r₁, s₁, r₂, s₂, hok₁, hok₂, hempty⟩ := h₀.commanded (v := 0x1F#32) (by decide)
    obtain ⟨h, s, hr, hs⟩ := hempty.fill bus 0#32 (k := 4) (by decide) hpcs (by decide)
    have hfull : fifoByteCapacity < s.txFifo.num + bytesPerFrame s.tcr := by
      rw [hs.tx, hs.tcr]
      decide
    obtain ⟨r, t, hok, ht, htef⟩ := access_overflow bus (v := 0#32) hs.settled hs.men hfull
    refine ⟨_, _, t, ?_, Mealy.run_snoc_of_ok (Mealy.run_cons_of_ok hok₁
      (Mealy.run_cons_of_ok hok₂ hr)) hok, ht, htef⟩
    intro a ha
    have hno : a = .write 0x10 1#32 ∨ a = .write 0x60 0x1F#32 ∨ a = .write 0x64 0#32 := by
      simpa [List.mem_replicate, or_assoc] using ha
    rcases hno with rfl | rfl | rfl <;> exact fun h => absurd h (by decide)

/-- With its interrupt enabled, such a flag leaves the line down. -/
theorem PowerOn.exists_not_signalled {s₀ : State n β} (h₀ : PowerOn bus s₀)
    (hf : f = srTcf ∨ f = srTef) : ∃ as h t, (∀ a ∈ as, a.onWrite .ier (· = f)) ∧
      run bus s₀ as = .ok (h, t) ∧ (∃ τ ∈ h, τ.input.isWrite = true ∧ τ.post = t) ∧
      Bits.any (t.sr &&& t.ier) f = true ∧ t.irq = false := by
  obtain ⟨as, h, s, ha, hr, hs, hset⟩ := h₀.exists_set hf
  obtain ⟨r, t, hok, hflag, hirq⟩ := access_ier bus hs hf hset
  refine ⟨as ++ [.write 0x18 f], _, t, ?_, Mealy.run_snoc_of_ok hr hok,
    ⟨⟨s, .write 0x18 f, r, t⟩, List.mem_append_right _ List.mem_cons_self, rfl, rfl⟩, hflag, hirq⟩
  rw [List.forall_mem_append, List.forall_mem_singleton]
  exact ⟨ha, fun _ => rfl⟩

/-- **Events and interrupts.** Let `m` be some interrupts. In all runs from power on that
    enable no others, the line is up after every write when the flag of an event is set
    and enabled, if and only if `TCF` and `TEF` are not among them. For each of the two
    that is, there is a run that ends with its flag set and enabled, and the line down. -/
theorem run_signalled_iff (bus : SsiBus β) {s₀ : State n β} (h₀ : PowerOn bus s₀)
    (m : BitVec 32) :
    ((∀ as h t, (∀ a ∈ as, a.onWrite .ier (Bits.Within · m)) → run bus s₀ as = .ok (h, t) →
      ∀ τ ∈ h, τ.input.isWrite = true → Signalled τ.post) ↔
        Bits.any m (srTcf ||| srTef) = false) ∧
    ∀ f, f = srTcf ∨ f = srTef → Bits.any m f = true → ∃ as h t,
      (∀ a ∈ as, a.onWrite .ier (Bits.Within · m)) ∧ run bus s₀ as = .ok (h, t) ∧
      (∃ τ ∈ h, τ.input.isWrite = true ∧ τ.post = t) ∧
      Bits.any (t.sr &&& t.ier) f = true ∧ t.irq = false := by
  have hdown : ∀ f, f = srTcf ∨ f = srTef → Bits.any m f = true → ∃ as h t,
      (∀ a ∈ as, a.onWrite .ier (Bits.Within · m)) ∧ run bus s₀ as = .ok (h, t) ∧
      (∃ τ ∈ h, τ.input.isWrite = true ∧ τ.post = t) ∧
      Bits.any (t.sr &&& t.ier) f = true ∧ t.irq = false := by
    intro f hf hm
    have hwithin : Bits.Within f m := by
      rcases hf with rfl | rfl
      · exact Bits.within_one_shiftLeft (by decide) hm
      · exact Bits.within_one_shiftLeft (by decide) hm
    obtain ⟨as, h, t, ha, hrest⟩ := h₀.exists_not_signalled hf
    exact ⟨as, h, t, fun a hmem => (ha a hmem).imp fun v hv => hv ▸ hwithin, hrest⟩
  refine ⟨⟨fun hall => ?_, fun hm as h t ha hr τ hτ _ => run_signalled h₀ ha hr hm τ hτ⟩, hdown⟩
  have hclear : ∀ f, f = srTcf ∨ f = srTef → Bits.any m f = false := by
    intro f hf
    by_contra hm
    obtain ⟨as, h, t, ha, hr, ⟨τ, hτ, hwrite, rfl⟩, hflag, hirq⟩ :=
      hdown f hf (Bool.of_not_eq_false hm)
    have hevent : Bits.any (τ.post.sr &&& τ.post.ier) srEvents = true := by
      have hor : srEvents = srEvents ||| f := by rcases hf with rfl | rfl <;> decide
      rw [hor, Bits.any_or_right, hflag, Bool.or_true]
    exact Bool.false_ne_true (hirq.symm.trans (hall as h τ.post ha hr τ hτ hwrite hevent))
  rw [Bits.any_or_right, hclear _ (.inl rfl), hclear _ (.inr rfl), Bool.or_false]

/-- The interrupts of the two watermarks, and a word sent. -/
theorem run_signalled_iff_watermarks : ∃ h t, run SsiBus.empty bare
      [.write 0x18 3#32, .write 0x10 1#32, .write 0x64 1#32] = .ok (h, t) ∧
    ∀ τ ∈ h, τ.input.isWrite = true → Signalled τ.post := by
  obtain ⟨h, t, hr⟩ : ∃ h t, run SsiBus.empty bare
      [.write 0x18 3#32, .write 0x10 1#32, .write 0x64 1#32] = .ok (h, t) := ⟨_, _, rfl⟩
  have hall := (run_signalled_iff SsiBus.empty powerOn_bare (srTdf ||| srRdf)).1.2 (by decide)
  exact ⟨h, t, hr, hall _ h t (by decide) hr⟩

/-- The interrupt of `TCF` is enabled, the flag cleared and a word sent: the transfer sets
    the flag. The interrupt of `TEF` is enabled, and the ninth word overflows: this sets
    the flag. The line stays down. -/
theorem run_not_signalled :
    (∃ h t, run SsiBus.empty bare [.write 0x10 1#32, .write 0x18 srTcf, .write 0x14 srTcf,
        .write 0x64 1#32] = .ok (h, t) ∧
      Bits.any t.sr srTcf = true ∧ t.ier = srTcf ∧ t.irq = false ∧ ¬Signalled t) ∧
    ∃ h t, run SsiBus.empty bare (.write 0x10 1#32 :: .write 0x18 srTef ::
        List.replicate 9 (.write 0x64 1#32)) = .ok (h, t) ∧
      Bits.any t.sr srTef = true ∧ t.ier = srTef ∧ t.irq = false ∧ ¬Signalled t :=
  ⟨⟨_, _, rfl, rfl, rfl, rfl, by decide⟩, ⟨_, _, rfl, rfl, rfl, rfl, by decide⟩⟩

end S32K358.Lpspi
