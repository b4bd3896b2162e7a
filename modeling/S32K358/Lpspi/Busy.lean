import S32K358.Lpspi.ChipSelect

/-!
# The LPSPI: the busy flag

Whether a transfer is going on is stored twice: in the field `busy`, and in the flag
`MBF` of `SR`. Transfers and resets change both alike (`Effect.any_mbf_eq`,
`Effect.busy_eq`), but a guest that clears flags of `SR` may clear `MBF`, too, and not
`busy`.

`run_mbf_iff`: they agree all along a run exactly when no write of `SR` does so while
the device is busy.
-/

namespace S32K358.Lpspi

variable {n : ℕ} {β : Type} {bus : SsiBus β} {s t x : State n β} {a : Access}

/-! ## Updates and transfers -/

@[simp] theorem any_mbf_status : Bits.any (status s).sr srMbf = Bits.any s.sr srMbf :=
  any_status (by decide) (by decide)

@[simp] theorem any_mbf_settle : Bits.any (settle s).sr srMbf = Bits.any s.sr srMbf :=
  any_mbf_status

theorem any_mbf_afterReset : Bits.any (afterReset bus s).sr srMbf = false := by
  rw [afterReset, any_mbf_settle]
  exact (by decide : Bits.any (srTdf ||| srTcf) srMbf = false)

theorem any_mbf_asserted (bus : SsiBus β) :
    Bits.any (asserted bus s).sr srMbf = (asserts s || Bits.any s.sr srMbf) := by
  have hmbf : Bits.any srMbf srMbf = true := by decide
  simp only [asserted]
  cases asserts s with
  | true => simp [hmbf]
  | false => rfl

theorem any_mbf_released :
    Bits.any (released bus s).sr srMbf = (Bits.any s.sr srMbf && !releases s) := by
  have htcf : Bits.any srTcf srMbf = false := by decide
  simp only [released, releases]
  cases fifo8IsEmpty s.txFifo && s.busy with
  | true => cases single s.tcr <;> simp [htcf]
  | false => simp

/-- A transfer sets `MBF` when it asserts the chip select, and clears it when it
    deasserts it. -/
theorem any_mbf_sendFrame : Bits.any (sendFrame bus x).sr srMbf =
    ((asserts x || Bits.any x.sr srMbf) && (sendFrame bus x).busy) := by
  have hbefore : Bits.any (exchanged bus (asserted bus x)).sr srMbf =
      (asserts x || Bits.any x.sr srMbf) := any_mbf_asserted bus
  rw [busy_sendFrame, sendFrame, any_mbf_settle, any_mbf_released, any_mbf_status, hbefore]

/-! ## Accesses -/

/-- The access writes a one to a flag of `SR` in a mask. -/
def Access.clearsSr (m : BitVec 32) : Access → Bool
  | .read _ => false
  | .write addr v => decide (Reg.ofOffset? addr = some .sr) && Bits.any v m

/-- `MBF` after an access. -/
def mbfAfter (bus : SsiBus β) (s : State n β) (a : Access) : Bool :=
  if a.setsCr crRst then false
  else (sending s a).elim (Bits.any s.sr srMbf && !a.clearsSr srMbf) fun x =>
    (asserts x || Bits.any x.sr srMbf) && (sendFrame bus x).busy

/-- Without a transfer, only writes of `CR` and `SR` change `MBF`. -/
theorem mbfAfter_of_ne {addr : ℕ} {v : BitVec 32} {r : Reg} (hr : Reg.ofOffset? addr = some r)
    (hcr : r ≠ .cr) (hsr : r ≠ .sr) (hx : sending s (.write addr v) = none) :
    mbfAfter bus s (.write addr v) = Bits.any s.sr srMbf := by
  simp [mbfAfter, Access.setsCr, Access.clearsSr, hx, hr, hcr, hsr]

theorem mbfAfter_of_sending {addr : ℕ} {v : BitVec 32} {r : Reg}
    (hr : Reg.ofOffset? addr = some r) (hcr : r ≠ .cr) (hx : sending s (.write addr v) = some x) :
    mbfAfter bus s (.write addr v) = Bits.any (sendFrame bus x).sr srMbf := by
  simp [mbfAfter, Access.setsCr, hx, hr, hcr, any_mbf_sendFrame]

theorem Effect.any_mbf_eq {v : Option (BitVec 32)} (h : Effect bus s a v t) :
    Bits.any t.sr srMbf = mbfAfter bus s a := by
  have htdf : Bits.any srTdf srMbf = false := by decide
  have htef : Bits.any srTef srMbf = false := by decide
  cases h with
  | look =>
    rw [any_mbf_status, mbfAfter, sending]
    simp [Access.setsCr, Access.clearsSr]
  | take =>
    have htaken : (taken (status s)).sr = (status s).sr := rfl
    rw [any_mbf_status, htaken, any_mbf_status, mbfAfter, sending]
    simp [Access.setsCr, Access.clearsSr]
  | @ignore addr w hr =>
    obtain ⟨hcr, htcr, htdr⟩ := readOnly_ne hr
    have hsr : Reg.ofOffset? addr ≠ some .sr := fun h => absurd (hr _ h) (by decide)
    simp [mbfAfter, Access.setsCr, Access.clearsSr, sending_of_ne htcr htdr, hcr, hsr]
  | reset hr hrst =>
    rw [any_mbf_afterReset]
    simp [mbfAfter, Access.setsCr, hr, hrst]
  | @control addr w hr hrst =>
    have hcr : Bits.any (writeCr s w).sr srMbf = Bits.any s.sr srMbf := by
      simp only [writeCr]
      split_ifs
      · rw [Bits.any_or_left, htdf, Bool.or_false]
      · rfl
    rw [any_mbf_settle, hcr]
    simp [mbfAfter, Access.setsCr, Access.clearsSr, sending_of_ne, hr, hrst]
  | @clear addr w hr =>
    have hclear : Bits.any (s.sr &&& ~~~w) srMbf = (Bits.any s.sr srMbf && !Bits.any w srMbf) :=
      Bits.any_clear_left s.sr w (by decide)
    rw [any_mbf_settle, hclear]
    simp [mbfAfter, Access.setsCr, Access.clearsSr, sending_of_ne, hr]
  | @configure addr w r u hr ht =>
    obtain ⟨-, -, -, hsr, -⟩ := configure_frame ht
    obtain ⟨hcr, htcr, htdr⟩ := configure_ne ht
    have hne : r ≠ .sr := by
      rintro rfl
      exact absurd ht (by simp [Lpspi.configure])
    have hx : sending s (.write addr w) = none :=
      sending_of_ne (by simp [hr, htcr]) (by simp [hr, htdr])
    rw [any_mbf_settle, hsr, mbfAfter_of_ne hr hcr hne hx]
  | @watermark addr w hr =>
    have hx : sending s (.write addr w) = none := sending_of_ne (by simp [hr]) (by simp [hr])
    rw [any_mbf_settle, any_mbf_status, mbfAfter_of_ne hr (by decide) (by decide) hx]
    rfl
  | command hr hv h =>
    rw [any_mbf_settle, updateClockConfig_sr, command_sr,
      mbfAfter_of_ne hr (by decide) (by decide) (by rw [sending_of_tcr hr, if_neg h])]
  | resume hr hv hmen h hcs =>
    rw [any_mbf_settle, updateClockConfig_sr,
      mbfAfter_of_sending hr (by decide) (by rw [sending_of_tcr hr, if_pos ⟨hmen, h⟩])]
  | refuse hr hmen =>
    rw [any_mbf_settle, mbfAfter_of_ne hr (by decide) (by decide)]
    rw [sending_of_tdr hr, if_neg (by simp [hmen])]
  | overflow hr hmen h =>
    rw [any_mbf_settle, mbfAfter_of_ne hr (by decide) (by decide), Bits.any_or_left, htef,
      Bool.or_false]
    rw [sending_of_tdr hr, if_neg fun hgo => absurd hgo.2.1 (Nat.not_le.2 h)]
  | queue hr hmen hroom h =>
    rw [any_mbf_settle, queued_sr, mbfAfter_of_ne hr (by decide) (by decide)]
    rw [sending_of_tdr hr, if_neg fun hgo => h hgo.2.2]
  | send hr hmen hroom h hcs =>
    rw [any_mbf_settle, mbfAfter_of_sending hr (by decide)]
    rw [sending_of_tdr hr, if_pos ⟨hmen, hroom, h⟩]

/-- `MBF` is set only while busy. -/
theorem Effect.mbf {v : Option (BitVec 32)} (hs : Bits.any s.sr srMbf = true → s.busy = true)
    (h : Effect bus s a v t) : Bits.any t.sr srMbf = true → t.busy = true := by
  rw [h.any_mbf_eq, h.busy_eq, mbfAfter, csAfter]
  split_ifs
  · exact id
  · cases sending s a with
    | none => exact fun hmbf => hs (Bool.and_eq_true_iff.1 hmbf).1
    | some x => exact fun hmbf => (Bool.and_eq_true_iff.1 hmbf).2

/-! ## Runs -/

/-- The flag agrees with the field. -/
def MbfAgrees (s : State n β) : Prop := Bits.any s.sr srMbf = s.busy

instance (s : State n β) : Decidable (MbfAgrees s) := inferInstanceAs (Decidable (_ = _))

/-- The access does not clear `MBF` while the device is busy. -/
def KeepsMbf (s : State n β) (a : Access) : Prop :=
  a.onWrite .sr fun v => s.busy = true → Bits.any v srMbf = false

instance (s : State n β) (a : Access) : Decidable (KeepsMbf s a) :=
  inferInstanceAs (Decidable (a.onWrite .sr _))

theorem keepsMbf_iff : KeepsMbf s a ↔ (s.busy = true → a.clearsSr srMbf = false) := by
  cases a with
  | read addr => exact iff_of_true trivial fun _ => rfl
  | write addr v =>
    simp only [KeepsMbf, Access.onWrite, Access.clearsSr]
    by_cases hr : Reg.ofOffset? addr = some .sr <;> simp [hr]

/-- A reset, or a transfer, is not a write of `SR`. -/
theorem clearsSr_of_setsCr {m m' : BitVec 32} (h : a.setsCr m = true) :
    a.clearsSr m' = false := by
  cases a with
  | read addr => rfl
  | write addr v =>
    have hr : Reg.ofOffset? addr = some .cr := of_decide_eq_true (Bool.and_eq_true_iff.1 h).1
    simp [Access.clearsSr, hr]

theorem clearsSr_of_sending {m : BitVec 32} (h : sending s a = some x) :
    a.clearsSr m = false := by
  obtain ⟨addr, v, rfl, -, -, ⟨hr, -⟩ | ⟨hr, -⟩⟩ := sending_eq_some h
  · simp [Access.clearsSr, hr]
  · simp [Access.clearsSr, hr]

theorem sr_busy_of_sending (h : sending s a = some x) : x.sr = s.sr ∧ x.busy = s.busy := by
  obtain ⟨addr, v, rfl, -, -, ⟨-, rfl⟩ | ⟨-, rfl, -⟩⟩ := sending_eq_some h
  · exact ⟨rfl, rfl⟩
  · exact ⟨rfl, rfl⟩

theorem Effect.mbfAgrees_iff {v : Option (BitVec 32)} (hs : MbfAgrees s) (h : Effect bus s a v t) :
    MbfAgrees t ↔ KeepsMbf s a := by
  rw [MbfAgrees] at hs
  rw [MbfAgrees, h.any_mbf_eq, h.busy_eq, mbfAfter, csAfter, keepsMbf_iff]
  cases hrst : a.setsCr crRst with
  | true => exact iff_of_true rfl fun _ => clearsSr_of_setsCr hrst
  | false =>
    simp only [Bool.false_eq_true, if_false]
    cases hx : sending s a with
    | none =>
      rw [hs]
      cases s.busy <;> simp
    | some x =>
      refine iff_of_true ?_ fun _ => clearsSr_of_sending hx
      obtain ⟨hsr, hbusy⟩ := sr_busy_of_sending hx
      cases hasserts : asserts x with
      | true => simp only [Option.elim_some, hasserts, Bool.true_or, Bool.true_and]
      | false =>
        -- The transfer was busy before, and `MBF` set.
        have hxbusy : x.busy = true := by simpa using (Bool.or_eq_false_iff.1 hasserts).1
        simp only [Option.elim_some, hasserts, hsr, hs, ← hbusy, hxbusy, Bool.or_true,
          Bool.true_and]

theorem PowerOn.mbfAgrees {s₀ : State n β} (h₀ : PowerOn bus s₀) : MbfAgrees s₀ := by
  obtain ⟨hz, d, -, -, -, rfl⟩ := powerOn_iff.1 h₀
  exact any_mbf_afterReset

/-- **The busy flag.** In a run from power on, on any accesses, `MBF` is set exactly while
    the device is busy, after every access, if and only if no write of `SR` clears it
    while the device is busy. -/
theorem run_mbf_iff (bus : SsiBus β) {s₀ t : State n β} {as : List Access} {h : List (Step n β)}
    (h₀ : PowerOn bus s₀) (hr : run bus s₀ as = .ok (h, t)) :
    (∀ τ ∈ h, MbfAgrees τ.post) ↔ ∀ τ ∈ h, KeepsMbf τ.pre τ.input :=
  run_ok_exact hr h₀.settled h₀.mbfAgrees (fun _ => Iff.rfl) fun _ hs _ heff =>
    heff.mbfAgrees_iff hs

/-- A word sent in continuous mode, and a write of `SR` that clears other flags. -/
theorem run_mbf_iff_once : ∃ h t, run SsiBus.empty bare
      [.write 0x10 1#32, .write 0x60 0x4000001F#32, .write 0x64 1#32, .write 0x14 0x400#32] =
        .ok (h, t) ∧
    t.busy = true ∧ ((∀ τ ∈ h, MbfAgrees τ.post) ↔ ∀ τ ∈ h, KeepsMbf τ.pre τ.input) := by
  obtain ⟨h, t, hr, hbusy⟩ : ∃ h t, run SsiBus.empty bare
      [.write 0x10 1#32, .write 0x60 0x4000001F#32, .write 0x64 1#32, .write 0x14 0x400#32] =
        .ok (h, t) ∧ t.busy = true := ⟨_, _, rfl, rfl⟩
  exact ⟨h, t, hr, hbusy, run_mbf_iff SsiBus.empty powerOn_bare hr⟩

/-- A word sent in continuous mode, and `SR` written back as it reads: the device is
    busy, but `MBF` is clear. -/
theorem run_mbf_cleared : ∃ h t, run SsiBus.empty bare
      [.write 0x10 1#32, .write 0x60 0x4000001F#32, .write 0x64 1#32, .read 0x14,
        .write 0x14 0x01000403#32] = .ok (h, t) ∧
    h.map (·.output.value) = [none, none, none, some 0x01000403#32, none] ∧
    t.busy = true ∧ Bits.any t.sr srMbf = false := ⟨_, _, rfl, rfl, rfl, rfl⟩

end S32K358.Lpspi
