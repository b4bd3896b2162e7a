import S32K358.Lpspi.Busy

/-!
# The LPSPI: release

Once the TX FIFO is empty, and unless the transfer is continuous, the device should
be idle: not busy, and no peripheral selected (`Idle`). It is released by the
transfer that drains the FIFO, and only there, which misses two ways to get to such
a state during a transfer: resetting the FIFO, and ending a continuous transfer
by a command (`LeavesIdle`).

`run_idle_iff`: as long as no command selects another line during a transfer, the
device is idle all along a run exactly when its accesses avoid both.
-/

namespace S32K358.Lpspi

variable {n : ℕ} {β : Type} {bus : SsiBus β} {s t x : State n β} {a : Access}

/-- The access leaves the device idle, if it is before.

    * The TX FIFO is reset only when not busy, or in a continuous transfer.
    * With the TX FIFO empty, a command that does not continue a transfer is written
      only when not busy. -/
def LeavesIdle (s : State n β) : Access → Prop
  | .read _ => True
  | .write addr v =>
    (Reg.ofOffset? addr = some .cr → Bits.any v crRst = false → Bits.any v crRtf = true →
      single s.tcr = true → s.busy = false) ∧
    (Reg.ofOffset? addr = some .tcr → s.txFifo.num = 0 → single v = true → s.busy = false)

/-- The access does not select another line while busy. -/
def KeepsPcs (s : State n β) (a : Access) : Prop :=
  a.onWrite .tcr fun v => s.busy = true → pcs v = pcs s.tcr

instance (s : State n β) (a : Access) : Decidable (KeepsPcs s a) :=
  inferInstanceAs (Decidable (a.onWrite .tcr fun v => s.busy = true → pcs v = pcs s.tcr))

/-- The access leaves all lines active low. -/
abbrev Access.ActiveLow (n : ℕ) (a : Access) : Prop :=
  a.onWrite .cfgr1 fun v => ∀ i : Fin n, csActiveHigh v i = false

/-! ## Between transfers -/

/-- Between the accesses of a run that does not select another line while busy: all
    lines are inactive when not busy. -/
structure Orderly (s : State n β) : Prop extends InSelection s where
  activeLow (i : Fin n) : csActiveHigh s.cfgr1 i = false
  rest (i : Fin n) : s.busy = false → s.csLines[i] = true
  mbf : Bits.any s.sr srMbf = true → s.busy = true

theorem PowerOn.orderly {s₀ : State n β} (h₀ : PowerOn bus s₀) : Orderly s₀ := by
  refine ⟨h₀.inSelection, ?_, ?_, ?_⟩ <;> obtain ⟨hz, ssi, -, -, -, rfl⟩ := powerOn_iff.1 h₀
  · exact fun i => Bits.any_zero_left _
  · intro i _
    change (Vector.replicate n true)[i] = true
    simp
  · intro h
    exact absurd (any_mbf_afterReset.symm.trans h) Bool.false_ne_true

theorem Orderly.keepsSelect (hs : Orderly s) (hpol : a.ActiveLow n) (hpcs : KeepsPcs s a) :
    KeepsSelect s a := by
  cases a with
  | read addr => exact trivial
  | write addr v =>
    refine ⟨fun hr hne i hi => ?_, fun hr i hne => ?_⟩
    · -- Another line is selected only when not busy, when all are inactive.
      have hbusy : s.busy = false := Bool.eq_false_iff.2 fun hb => hne (hpcs hr hb)
      rw [hs.rest i hbusy, hs.activeLow]
      rfl
    · exact absurd ((hpol hr i).trans (hs.activeLow i).symm) hne

theorem Orderly.csLines_eq (hs : Orderly s) (hb : s.busy = false) :
    s.csLines = Vector.replicate n true :=
  Vector.ext fun i hi => (hs.rest ⟨i, hi⟩ hb).trans (Vector.getElem_replicate hi).symm

/-- A transfer that ends leaves all lines inactive. -/
theorem csLines_of_released (h : Selected (frame bus x))
    (hlow : ∀ i : Fin n, csActiveHigh x.cfgr1 i = false) (hb : (sendFrame bus x).busy = false) :
    (sendFrame bus x).csLines = Vector.replicate n true := by
  refine Vector.ext fun i hi => ?_
  rw [Vector.getElem_replicate]
  by_cases hp : i = pcs x.tcr
  · have hrel : releases (status (exchanged bus (asserted bus x))) = true := by
      simpa [busy_sendFrame] using hb
    simp [csLines_sendFrame, hrel, ← hp, hlow ⟨i, hi⟩]
  · have hrest := (selects_sendFrame h).rest ⟨i, hi⟩ hp
    rw [hlow] at hrest
    exact hrest

theorem activeLow_cfgr1After (hs : ∀ i : Fin n, csActiveHigh s.cfgr1 i = false)
    (ha : a.ActiveLow n) (i : Fin n) : csActiveHigh (cfgr1After s a) i = false := by
  cases a with
  | read addr => exact hs i
  | write addr v =>
    rw [cfgr1After]
    split_ifs with h₁ h₂
    · exact ha h₁ i
    · exact Bits.any_zero_left _
    · exact hs i

theorem Effect.rest {v : Option (BitVec 32)} (hs : Orderly s) (hpol : a.ActiveLow n)
    (hpcs : KeepsPcs s a) (h : Effect bus s a v t) (hb : t.busy = false) :
    t.csLines = Vector.replicate n true := by
  rw [h.busy_eq, csAfter] at hb
  rw [h.csLines_eq, csAfter]
  split_ifs at hb ⊢ with hrst
  · rfl
  · cases hx : sending s a with
    | none =>
      rw [hx] at hb
      exact hs.csLines_eq hb
    | some x =>
      rw [hx] at hb
      obtain ⟨-, hcfgr1, -⟩ := sending_frame hx
      have hlow : ∀ i : Fin n, csActiveHigh x.cfgr1 i = false := fun i => by
        rw [hcfgr1]
        exact activeLow_cfgr1After hs.activeLow hpol i
      have hsel : Selected (frame bus x) :=
        hs.selects.selected hs.pcs_lt (hs.keepsSelect hpol hpcs) hx
      change (sendFrame bus x).busy = false at hb
      change (sendFrame bus x).csLines = _
      exact csLines_of_released hsel hlow hb

theorem Orderly.access {r : Reply n} (hs : Orderly s) (hn : 1 ≤ n) (ha : a.Selecting n)
    (hpol : a.ActiveLow n) (hpcs : KeepsPcs s a) (h : access bus s a = .ok (r, t)) :
    Orderly t := by
  have hsel := hs.toInSelection.access hn ha (hs.keepsSelect hpol hpcs) h
  obtain ⟨u, hu, -, rfl⟩ := effect_of_access hs.settled.bytes_ne_zero h
  have hlow : ∀ i : Fin n, csActiveHigh u.cfgr1 i = false := fun i => by
    rw [hu.cfgr1_eq]
    exact activeLow_cfgr1After hs.activeLow hpol i
  have hmbf : Bits.any u.sr srMbf = true → u.busy = true := hu.mbf hs.mbf
  refine ⟨hsel, hlow, fun i hb => ?_, hmbf⟩
  change u.csLines[i] = true
  rw [hu.rest hs hpol hpcs hb]
  simp

/-! ## Idle states -/

/-- With the TX FIFO empty and the transfer not continuous, the device is not busy. -/
def Quiet (s : State n β) : Prop := s.txFifo.num = 0 → single s.tcr = true → s.busy = false

theorem quiet_settle : Quiet (settle s) ↔ Quiet s := Iff.rfl

theorem quiet_updateClockConfig : Quiet (updateClockConfig s) ↔ Quiet s := Iff.rfl

/-- The lines and `MBF` follow. -/
theorem Orderly.idle_iff (hs : Orderly s) : Idle s ↔ Quiet s := by
  refine ⟨fun h h₁ h₂ => (h h₁ h₂).1, fun h h₁ h₂ => ?_⟩
  have hb := h h₁ h₂
  refine ⟨hb, Bool.eq_false_iff.2 fun hm => ?_, fun i => ?_⟩
  · exact absurd (hs.mbf hm) (by simp [hb])
  · rw [hs.rest i hb, hs.activeLow]
    rfl

/-- The transfer that drains the FIFO releases the device. -/
theorem quiet_sendFrame : Quiet (sendFrame bus x) := by
  intro hnum hx
  have hempty : fifo8IsEmpty (exchanged bus (asserted bus x)).txFifo = true :=
    fifo8IsEmpty_eq_true.2 hnum
  have hsingle : single x.tcr = true := hx
  have hrel : releases (status (exchanged bus (asserted bus x))) =
      (fifo8IsEmpty (exchanged bus (asserted bus x)).txFifo && true && single x.tcr) := rfl
  rw [busy_sendFrame, hrel, hempty, hsingle]
  rfl

/-- What the accesses leave. -/
theorem Effect.quiet_iff {v : Option (BitVec 32)} (hs : Settled s) (hp : Quiet s)
    (h : Effect bus s a v t) : Quiet t ↔ LeavesIdle s a := by
  cases h with
  | look | take => exact iff_of_true hp trivial
  | ignore hr =>
    obtain ⟨h₁, h₂, -⟩ := readOnly_ne hr
    exact iff_of_true hp ⟨fun h => absurd h h₁, fun h => absurd h h₂⟩
  | reset hr hrst =>
    refine iff_of_true (fun _ _ => rfl) ⟨fun _ h => ?_, by rw [hr]; simp⟩
    exact absurd (hrst.symm.trans h) (by simp)
  | @control _ v hr hrst =>
    have htx : (settle (writeCr s v)).txFifo =
        if Bits.any v crRtf then s.txFifo.reset else s.txFifo := rfl
    have hbusy : (settle (writeCr s v)).busy = s.busy := rfl
    have htcr : (settle (writeCr s v)).tcr = s.tcr := rfl
    rw [LeavesIdle, Quiet, htx, hbusy, htcr, hr, hrst]
    cases Bits.any v crRtf with
    | true => simp
    | false => simpa [Quiet] using hp
  | clear hr | watermark hr | refuse hr | overflow hr =>
    exact iff_of_true hp ⟨by rw [hr]; simp, by rw [hr]; simp⟩
  | configure hr ht =>
    obtain ⟨htcr, htx, -, -, -, -, hbusy, -⟩ := configure_frame ht
    obtain ⟨h₁, h₂, -⟩ := configure_ne ht
    rw [Quiet, settle_txFifo, settle_tcr, settle_busy, htx, htcr, hbusy]
    exact iff_of_true hp ⟨by rw [hr]; simp [h₁], by rw [hr]; simp [h₂]⟩
  | command hr =>
    exact ⟨fun h => ⟨by rw [hr]; simp, fun _ => h⟩, fun h => h.2 hr⟩
  | @resume _ v hr hv hmen h hcs =>
    -- The FIFO is not empty before: it has a frame.
    have hne : s.txFifo.num ≠ 0 := by
      have hle : bytesPerFrame v ≤ s.txFifo.num := h.1
      omega
    rw [quiet_settle, quiet_updateClockConfig]
    exact iff_of_true quiet_sendFrame ⟨by rw [hr]; simp, fun _ h => absurd h hne⟩
  | @queue _ v hr hmen hroom h =>
    have hne : (queued s v).txFifo.num ≠ 0 := by
      rw [num_txFifo_queued hroom]
      have := hs.bytes_pos
      omega
    exact iff_of_true (fun h => absurd h hne) ⟨by rw [hr]; simp, by rw [hr]; simp⟩
  | send hr =>
    rw [quiet_settle]
    exact iff_of_true quiet_sendFrame ⟨by rw [hr]; simp, by rw [hr]; simp⟩

/-- **Release.** In a run from power on, with commands that select existing lines, all
    of them active low, and no other line selected while busy, the device is idle
    after every access exactly when every access leaves it so. -/
theorem run_idle_iff (bus : SsiBus β) {s₀ : State n β} (h₀ : PowerOn bus s₀) (as : List Access)
    (ha : ∀ a ∈ as, a.Selecting n) (hpol : ∀ a ∈ as, a.ActiveLow n) :
    run bus s₀ as = .error .divByZero ∨ ∃ h t, run bus s₀ as = .ok (h, t) ∧
      ((∀ τ ∈ h, KeepsPcs τ.pre τ.input) →
        ((∀ τ ∈ h, Idle τ.post) ↔ ∀ τ ∈ h, LeavesIdle τ.pre τ.input)) := by
  cases hr : run bus s₀ as with
  | error e => exact .inl (by rw [run_eq_divByZero h₀ ha hr])
  | ok r =>
    obtain ⟨h, t⟩ := r
    refine .inr ⟨h, t, rfl, fun hpcs => ?_⟩
    have hstep : ∀ τ ∈ h, Mealy.Takes (access bus) τ → Orderly τ.pre → Orderly τ.post := by
      intro τ hτ htake hs
      have hin := (Mealy.run_takes hr τ hτ).2
      exact hs.access h₀.pcs_lt.1 (ha _ hin) (hpol _ hin) (hpcs τ hτ) htake
    refine Mealy.run_forall_iff (I := Orderly) (P := Idle) hr h₀.orderly ?_ hstep ?_
    · rw [h₀.orderly.idle_iff]
      obtain ⟨hz, ssi, -, -, -, rfl⟩ := powerOn_iff.1 h₀
      exact fun _ _ => rfl
    · -- The lines and `MBF` are right anyway; what matters is the flag.
      intro τ hτ htake hs hidle
      have hpost := hstep τ hτ htake hs
      obtain ⟨u, hu, -, heq⟩ := effect_of_access hs.settled.bytes_ne_zero htake
      have hquiet : Quiet τ.post ↔ Quiet u := by
        rw [heq]
        rfl
      rw [hpost.idle_iff, hquiet]
      exact hu.quiet_iff hs.settled (hs.idle_iff.1 hidle)

/-- A word sent on the only line, which is released. -/
theorem run_idle_iff_once : ∃ h t,
    run SsiBus.empty bare [.write 0x10 1#32, .write 0x64 1#32] = .ok (h, t) ∧
      (∀ τ ∈ h, Idle τ.post) ∧ ∀ τ ∈ h, LeavesIdle τ.pre τ.input := by
  rcases run_idle_iff SsiBus.empty powerOn_bare [.write 0x10 1#32, .write 0x64 1#32]
    (by decide) (by decide) with herr | ⟨h, t, hr, hiff⟩
  · cases herr
  · have hidle : (∀ τ ∈ h, KeepsPcs τ.pre τ.input) ∧ ∀ τ ∈ h, Idle τ.post := by
      obtain ⟨rfl, rfl⟩ := Prod.mk.inj (Except.ok.inj hr)
      decide
    exact ⟨h, t, hr, hidle.2, (hiff hidle.1).1 hidle.2⟩

/-- A continuous transfer of a word ended by a command, and a transfer of words that
    had to wait, with the TX FIFO reset after the first: the device stays busy and its
    line active. -/
theorem run_not_idle :
    (∃ h t, run SsiBus.empty bare [.write 0x10 1#32, .write 0x60 0x4000001F#32, .write 0x64 1#32,
        .write 0x60 0x1F#32] = .ok (h, t) ∧ t.txFifo.num = 0 ∧ single t.tcr = true ∧
      t.busy = true ∧ t.csLines = #v[false] ∧ ¬Idle t) ∧
    ∃ h t, run SsiBus.empty bare [.write 0x10 1#32, .write 0x64 1#32, .write 0x64 2#32,
        .write 0x64 3#32, .write 0x64 4#32, .write 0x64 5#32, .write 0x64 6#32, .read 0x74,
        .write 0x64 7#32, .write 0x10 0x101#32] = .ok (h, t) ∧ t.txFifo.num = 0 ∧
      single t.tcr = true ∧ t.busy = true ∧ t.csLines = #v[false] ∧ ¬Idle t :=
  ⟨⟨_, _, rfl, rfl, rfl, rfl, rfl, by decide⟩, _, _, rfl, rfl, rfl, rfl, rfl, by decide⟩

end S32K358.Lpspi
