import S32K358.Lpspi.Run

/-!
# The LPSPI: chip selects

A frame goes to the peripherals whose chip-select lines are active, so the line
selected by the command should exist and be active during an exchange, and the
others should not be (`Selected`). The device does not check the number of the
line, and drives it only at the start of a transfer and at its end, with the
polarity and the number in the registers then:

* `run_inBounds_iff`: a run indexes the lines out of bounds exactly at an access
  that drives a line that does not exist (`InBounds`), which needs a command
  selecting one;
* `selected_frame_iff`: what the lines must be before an access for its frame to
  be exchanged with the right ones active;
* `run_selected`: this is so if, during a transfer, neither the line selected nor
  its polarity changes, and the polarity of the other lines never does
  (`KeepsSelect`).

What the lines should be once a transfer is over (`Idle`) is stated here too; when
they are is the matter of the module on release.
-/

namespace S32K358.Lpspi

variable {n : ℕ} {β : Type} {bus : SsiBus β} {s t x : State n β} {a : Access}

/-! ## Indexing the lines -/

/-- If the access flushes the TX FIFO and has to drive a chip-select line, the
    line exists. -/
def InBounds (s : State n β) (a : Access) : Prop :=
  ∀ x, sending s a = some x → x.txFifo.num ≠ 0 → asserts x = true → pcs x.tcr < n

theorem txFifo_ne_zero_of_sending (hb : bytesPerFrame s.tcr ≠ 0) (ha : a.Framed)
    (hx : sending s a = some x) : x.txFifo.num ≠ 0 := by
  obtain ⟨addr, v, rfl, -, hready, ⟨hr, rfl⟩ | ⟨hr, rfl, -⟩⟩ := sending_eq_some hx
  · have hv : bytesPerFrame (command s v).tcr ≠ 0 := ha hr
    have := hready.1
    omega
  · have hv : bytesPerFrame (queued s v).tcr ≠ 0 := hb
    have := hready.1
    omega

/-- A command without bytes stops the device, on a line that does not exist if it
    has to drive one. -/
theorem access_eq_outOfBounds_of_eq_zero {addr : ℕ} {v : BitVec 32}
    (hr : Reg.ofOffset? addr = some .tcr) (hv : bytesPerFrame v = 0) :
    access bus s (.write addr v) = .error .csOutOfBounds ↔ ¬InBounds s (.write addr v) := by
  -- Without bytes, a frame is always ready, but is only sent from a FIFO with some.
  have hready : Ready (command s v) := by
    refine ⟨hv.trans_le (Nat.zero_le _), fun _ => ?_⟩
    change s.rxFifo.num + bytesPerFrame v ≤ fifoByteCapacity
    rw [hv]
    exact s.rxFifo.num_le
  have htx : (command s v).txFifo.num = s.txFifo.num := rfl
  have htcr : (command s v).tcr = v := rfl
  rw [access_of_eq_zero hr hv, InBounds, sending_of_tcr hr]
  by_cases hmen : Bits.any s.cr crMen = true
  · simp only [hmen, hready, and_self, if_true, Option.some.injEq, forall_eq', true_and, htx, htcr,
      Classical.not_imp, Nat.not_lt]
    split_ifs with h <;> simp [h]
  · simp [hmen]

/-- An access indexes the lines out of bounds exactly when it drives a line that
    does not exist. -/
theorem access_eq_outOfBounds_iff (hb : bytesPerFrame s.tcr ≠ 0) :
    access bus s a = .error .csOutOfBounds ↔ ¬InBounds s a := by
  by_cases ha : a.Framed
  · rw [access_eq_error_iff hb ha, outOfBounds_iff ha, InBounds]
    constructor
    · rintro ⟨-, x, hx, hcs, hn⟩ h
      exact absurd (h x hx (txFifo_ne_zero_of_sending hb ha hx) hcs) (Nat.not_lt.2 hn)
    · intro h
      push Not at h
      obtain ⟨x, hx, -, hcs, hn⟩ := h
      exact ⟨rfl, x, hx, hcs, hn⟩
  · obtain ⟨addr, v, rfl, hr, hv⟩ := exists_of_not_framed ha
    exact access_eq_outOfBounds_of_eq_zero hr hv

/-- The access does not write a command selecting a line that does not exist. -/
abbrev Access.Selecting (n : ℕ) (a : Access) : Prop := a.onWrite .tcr fun v => pcs v < n

theorem pcs_tcrAfter_lt (hs : pcs s.tcr < n) (hn : 1 ≤ n) (ha : a.Selecting n) :
    pcs (tcrAfter s a) < n :=
  (tcrAfter_iff (P := fun v => pcs v < n) hs fun _ => hn).2 ha

theorem pcs_lt_of_access {r : Reply n} (hs : Settled s) (hlt : pcs s.tcr < n) (hn : 1 ≤ n)
    (ha : a.Selecting n) (h : access bus s a = .ok (r, t)) : pcs t.tcr < n := by
  obtain ⟨u, hu, -, rfl⟩ := effect_of_access hs.bytes_ne_zero h
  change pcs u.tcr < n
  rw [hu.tcr_eq]
  exact pcs_tcrAfter_lt hlt hn ha

theorem inBounds_of_selecting (hs : pcs s.tcr < n) (ha : a.Selecting n) : InBounds s a := by
  intro x hx _ _
  obtain ⟨addr, v, rfl, -, -, ⟨hr, rfl⟩ | ⟨hr, rfl, -⟩⟩ := sending_eq_some hx
  · exact ha hr
  · exact hs

theorem PowerOn.pcs_lt {s₀ : State n β} (h₀ : PowerOn bus s₀) : 1 ≤ n ∧ pcs s₀.tcr < n := by
  obtain ⟨hz, ssi, -, hn, -, rfl⟩ := powerOn_iff.1 h₀
  have hpcs : pcs (atPowerOn bus hz n ssi).tcr = 0 := by
    change pcs 0x1F#32 = 0
    decide
  exact ⟨hn, hpcs ▸ hn⟩

/-- With commands that select existing lines only, a run stops only on one whose
    frames have no bytes. -/
theorem run_eq_divByZero {s₀ : State n β} {as : List Access} {e : Fault} (h₀ : PowerOn bus s₀)
    (ha : ∀ a ∈ as, a.Selecting n) (hr : run bus s₀ as = .error e) : e = .divByZero := by
  obtain ⟨hn, hpcs⟩ := h₀.pcs_lt
  refine Mealy.run_error (I := fun s => Settled s ∧ pcs s.tcr < n) (E := (· = .divByZero))
    ?_ ?_ ⟨h₀.settled, hpcs⟩ ha hr
  · rintro s a o t ⟨hs, hlt⟩ ha htake
    exact ⟨hs.access htake, pcs_lt_of_access hs hlt hn ha htake⟩
  · rintro s a e ⟨hs, hlt⟩ ha hstop
    -- It cannot be a line out of bounds, so it is a command without bytes.
    have hin : InBounds s a := inBounds_of_selecting hlt ha
    have hne : e ≠ .csOutOfBounds := by
      rintro rfl
      exact (access_eq_outOfBounds_iff hs.bytes_ne_zero).1 hstop hin
    by_cases hf : a.Framed
    · exact absurd ((access_eq_error_iff hs.bytes_ne_zero hf).1 hstop).1 hne
    · obtain ⟨addr, v, rfl, hr, hv⟩ := exists_of_not_framed hf
      rw [access_of_eq_zero hr hv, Except.error.injEq] at hstop
      split_ifs at hstop
      · exact absurd hstop.symm hne
      · exact hstop.symm

/-- **Indexing.** A run from power on indexes the chip-select lines out of bounds
    exactly when one of its accesses, in the state it is made in, drives a line
    that does not exist; and never, if all commands select existing lines. -/
theorem run_inBounds_iff (bus : SsiBus β) {s₀ : State n β} (h₀ : PowerOn bus s₀)
    (as : List Access) :
    (run bus s₀ as ≠ .error .csOutOfBounds ↔
      ∀ js a ks h t, as = js ++ a :: ks → run bus s₀ js = .ok (h, t) → InBounds t a) ∧
    ((∀ a ∈ as, a.Selecting n) → run bus s₀ as ≠ .error .csOutOfBounds) := by
  refine ⟨?_, fun ha hr => absurd (run_eq_divByZero h₀ ha hr) (by simp)⟩
  have hiff : ∀ {js h t a}, run bus s₀ js = .ok (h, t) →
      (access bus t a = .error .csOutOfBounds ↔ ¬InBounds t a) := fun hjs =>
    access_eq_outOfBounds_iff (run_settled hjs h₀.settled).1.bytes_ne_zero
  rw [Ne, Mealy.run_error_iff]
  constructor
  · intro hnot js a ks h t heq hjs
    by_contra hout
    exact hnot ⟨js, a, ks, h, t, heq, hjs, (hiff hjs).2 hout⟩
  · rintro hin ⟨js, a, ks, h, t, heq, hjs, hstop⟩
    exact (hiff hjs).1 hstop (hin js a ks h t heq hjs)

/-- A word sent on the only line. -/
theorem run_inBounds_iff_once :
    (run SsiBus.empty bare [.write 0x10 1#32, .write 0x64 1#32] ≠ .error .csOutOfBounds ↔
      ∀ js a ks h t, [.write 0x10 1#32, .write 0x64 1#32] = js ++ a :: ks →
        run SsiBus.empty bare js = .ok (h, t) → InBounds t a) ∧
    ((∀ a ∈ [.write 0x10 1#32, .write 0x64 1#32], Access.Selecting 1 a) →
      run SsiBus.empty bare [.write 0x10 1#32, .write 0x64 1#32] ≠ .error .csOutOfBounds) :=
  run_inBounds_iff SsiBus.empty powerOn_bare _

/-- With the one line of the SoC, a word sent under `PCS = 1` does it. -/
theorem run_outOfBounds : run SsiBus.empty bare
    [.write 0x10 1#32, .write 0x60 0x0100001F#32, .write 0x64 1#32] = .error .csOutOfBounds := rfl

/-! ## The lines after an access -/

/-- The levels of the lines after an access, and whether a transfer goes on. -/
def csAfter (bus : SsiBus β) (s : State n β) (a : Access) : Vector Bool n × Bool :=
  -- A reset drives all lines high: their polarities are reset, too.
  if a.setsCr crRst then (Vector.replicate n true, false)
  else (sending s a).elim (s.csLines, s.busy) fun x =>
    ((sendFrame bus x).csLines, (sendFrame bus x).busy)

/-- A transfer drives the line selected inactive again, if it ends it. -/
theorem csLines_sendFrame : (sendFrame bus x).csLines =
    if releases (status (exchanged bus (asserted bus x))) then
      (frame bus x).csLines.setIfInBounds (pcs x.tcr) (!csActiveHigh x.cfgr1 (pcs x.tcr))
    else (frame bus x).csLines := rfl

theorem busy_sendFrame :
    (sendFrame bus x).busy = !releases (status (exchanged bus (asserted bus x))) := rfl

theorem Effect.cs_eq {v : Option (BitVec 32)} (h : Effect bus s a v t) :
    (t.csLines, t.busy) = csAfter bus s a := by
  cases h with
  | look | take => rfl
  | ignore hr =>
    obtain ⟨h₁, h₂, h₃⟩ := readOnly_ne hr
    simp [csAfter, Access.setsCr, sending_of_ne h₂ h₃, h₁]
  | reset hr hrst =>
    simp only [csAfter, Access.setsCr, hr, hrst]
    rfl
  | control hr hrst =>
    simp only [csAfter, Access.setsCr, sending, hr, hrst]
    rfl
  | configure hr ht =>
    obtain ⟨h₁, h₂, h₃⟩ := configure_ne ht
    obtain ⟨-, -, -, -, -, -, hbusy, hlines⟩ := configure_frame ht
    simp [csAfter, Access.setsCr, sending_of_ne, hr, h₁, h₂, h₃, hbusy, hlines]
  | clear hr | watermark hr =>
    simp only [csAfter, Access.setsCr, sending, hr]
    rfl
  | command hr hv h =>
    simp only [csAfter, Access.setsCr, sending_of_tcr hr, hr, if_neg h]
    rfl
  | resume hr hv hmen h hcs =>
    simp only [csAfter, Access.setsCr, sending_of_tcr hr, hr, if_pos (And.intro hmen h)]
    rfl
  | refuse hr hmen =>
    simp only [csAfter, Access.setsCr, sending_of_tdr hr, hr, hmen]
    rfl
  | overflow hr hmen h =>
    simp only [csAfter, Access.setsCr, sending_of_tdr hr, hr, Nat.not_le.2 h]
    simp
  | queue hr hmen hroom h =>
    simp only [csAfter, Access.setsCr, sending_of_tdr hr, hr, h]
    simp [queued]
  | send hr hmen hroom h hcs =>
    simp only [csAfter, Access.setsCr, sending_of_tdr hr, hr,
      if_pos (And.intro hmen (And.intro hroom h))]
    rfl

theorem Effect.csLines_eq {v : Option (BitVec 32)} (h : Effect bus s a v t) :
    t.csLines = (csAfter bus s a).1 := congrArg Prod.fst h.cs_eq

theorem Effect.busy_eq {v : Option (BitVec 32)} (h : Effect bus s a v t) :
    t.busy = (csAfter bus s a).2 := congrArg Prod.snd h.cs_eq

/-! ## Selection -/

/-- The levels of the lines under a command and some polarities: the lines not
    selected are inactive, and the one selected is active during a transfer. -/
structure Selects (tcr cfgr1 : BitVec 32) (busy : Bool) (lines : Vector Bool n) : Prop where
  rest (i : Fin n) : (i : ℕ) ≠ pcs tcr → lines[i] = !csActiveHigh cfgr1 i
  held (i : Fin n) : (i : ℕ) = pcs tcr → busy = true → lines[i] = csActiveHigh cfgr1 i

/-- The line selected, and no other, is active when the frame is exchanged. -/
def Selected (x : Exchange n) : Prop :=
  ∀ i : Fin n, x.csLines[i] =
    if (i : ℕ) = pcs x.tcr then csActiveHigh x.cfgr1 i else !csActiveHigh x.cfgr1 i

instance (x : Exchange n) : Decidable (Selected x) := Nat.decidableForallFin _

/-- If the TX FIFO is empty and the transfer not continuous, the device is not busy,
    and no chip-select line is active. -/
def Idle (s : State n β) : Prop :=
  s.txFifo.num = 0 → single s.tcr = true →
    s.busy = false ∧ Bits.any s.sr srMbf = false ∧
      ∀ i : Fin n, s.csLines[i] = !csActiveHigh s.cfgr1 i

instance (s : State n β) : Decidable (Idle s) :=
  inferInstanceAs (Decidable (_ → _ → _ ∧ _ ∧ _))

section Lines

variable {tcr cfgr1 : BitVec 32} {b c : Bool} {lines : Vector Bool n}

theorem selected_iff {x : Exchange n} : Selected x ↔ Selects x.tcr x.cfgr1 true x.csLines := by
  constructor
  · intro h
    exact ⟨fun i hi => (h i).trans (if_neg hi), fun i hi _ => (h i).trans (if_pos hi)⟩
  · intro h i
    split_ifs with hi
    · exact h.held i hi rfl
    · exact h.rest i hi

theorem Selects.mono (h : Selects tcr cfgr1 b lines) (hbc : c = true → b = true) :
    Selects tcr cfgr1 c lines :=
  ⟨h.rest, fun i hi hc => h.held i hi (hbc hc)⟩

/-- Driving the line selected leaves the others to be inactive. -/
theorem selects_drive_iff {level : Bool} (hl : b = true → level = csActiveHigh cfgr1 (pcs tcr)) :
    Selects tcr cfgr1 b (lines.setIfInBounds (pcs tcr) level) ↔ Selects tcr cfgr1 false lines := by
  have hne : ∀ i : Fin n, (i : ℕ) ≠ pcs tcr →
      (lines.setIfInBounds (pcs tcr) level)[i] = lines[i] := fun i hi => by
    rw [Fin.getElem_fin, Vector.getElem_setIfInBounds_ne _ (Ne.symm hi)]
    rfl
  constructor
  · intro h
    exact ⟨fun i hi => (hne i hi).symm.trans (h.rest i hi), fun _ _ hf => absurd hf (by simp)⟩
  · intro h
    refine ⟨fun i hi => (hne i hi).trans (h.rest i hi), fun i hi hb => ?_⟩
    have hself : (lines.setIfInBounds (pcs tcr) level)[i] = level := by
      simp [Fin.getElem_fin, hi]
    rw [hself, hl hb, hi]

end Lines

/-- A frame is sent to the line selected exactly when the other lines are inactive
    before, and this one is active already, if it is not driven now. -/
theorem selected_frame_iff :
    Selected (frame bus x) ↔ Selects x.tcr x.cfgr1 (!asserts x) x.csLines := by
  have hlines : (frame bus x).csLines = if asserts x then
      x.csLines.setIfInBounds (pcs x.tcr) (csActiveHigh x.cfgr1 (pcs x.tcr)) else x.csLines := rfl
  rw [selected_iff, hlines]
  cases asserts x with
  | true => exact selects_drive_iff fun _ => rfl
  | false => exact Iff.rfl

/-- At the end of a transfer, the line selected is driven inactive. -/
theorem selects_sendFrame (h : Selected (frame bus x)) :
    Selects x.tcr x.cfgr1 (sendFrame bus x).busy (sendFrame bus x).csLines := by
  have hsel : Selects x.tcr x.cfgr1 true (frame bus x).csLines := selected_iff.1 h
  rw [csLines_sendFrame, busy_sendFrame]
  cases releases (status (exchanged bus (asserted bus x))) with
  | true => exact (selects_drive_iff (by simp)).2 (hsel.mono (by simp))
  | false => exact hsel

/-- The access keeps the lines right.

    * A command selecting another line is written only when the line selected
      before is inactive.
    * The polarity of a line changes only if it is the one selected and no transfer
      is going on. -/
def KeepsSelect (s : State n β) : Access → Prop
  | .read _ => True
  | .write addr v =>
    (Reg.ofOffset? addr = some .tcr → pcs v ≠ pcs s.tcr →
      ∀ i : Fin n, (i : ℕ) = pcs s.tcr → s.csLines[i] = !csActiveHigh s.cfgr1 i) ∧
    (Reg.ofOffset? addr = some .cfgr1 → ∀ i : Fin n,
      csActiveHigh v i ≠ csActiveHigh s.cfgr1 i → (i : ℕ) = pcs s.tcr ∧ s.busy = false)

/-- Writing the command or the polarities does not drive the lines. -/
theorem Selects.after (hs : Selects s.tcr s.cfgr1 s.busy s.csLines) (hlt : pcs s.tcr < n)
    (ha : KeepsSelect s a) (hrst : a.setsCr crRst = false) :
    Selects (tcrAfter s a) (cfgr1After s a) s.busy s.csLines := by
  cases a with
  | read addr => exact hs
  | write addr v =>
    obtain ⟨htcr, hpol⟩ := ha
    have hno : ¬(Reg.ofOffset? addr = some .cr ∧ Bits.any v crRst = true) := by
      simpa [Access.setsCr] using hrst
    rw [tcrAfter, cfgr1After, if_neg hno, if_neg hno]
    -- Either register is written, or none of the two.
    by_cases h₁ : Reg.ofOffset? addr = some .tcr
    · rw [if_pos h₁, if_neg (by rw [h₁]; decide)]
      by_cases hv : pcs v = pcs s.tcr
      · exact ⟨fun i hi => hs.rest i (hv ▸ hi), fun i hi => hs.held i (hv ▸ hi)⟩
      · have hold := htcr h₁ hv
        -- The line selected before is inactive, so no transfer is going on.
        have hidle : ¬s.busy = true := fun hb =>
          absurd ((hs.held ⟨_, hlt⟩ rfl hb).symm.trans (hold ⟨_, hlt⟩ rfl)) (by simp)
        refine ⟨fun i _ => ?_, fun _ _ hb => absurd hb hidle⟩
        by_cases hi : (i : ℕ) = pcs s.tcr
        · exact hold i hi
        · exact hs.rest i hi
    · rw [if_neg h₁]
      by_cases h₂ : Reg.ofOffset? addr = some .cfgr1
      · rw [if_pos h₂]
        refine ⟨fun i hi => ?_, fun i hi hb => ?_⟩
        · have hsame : csActiveHigh v i = csActiveHigh s.cfgr1 i :=
            not_not.1 fun hne => hi (hpol h₂ i hne).1
          rw [hsame]
          exact hs.rest i hi
        · have hsame : csActiveHigh v i = csActiveHigh s.cfgr1 i :=
            not_not.1 fun hne => absurd (hpol h₂ i hne).2 (by simp [hb])
          rw [hsame]
          exact hs.held i hi hb
      · rw [if_neg h₂]
        exact hs

/-- A frame is sent under the registers in force after the access, from lines as
    they were before. -/
theorem sending_frame (hx : sending s a = some x) :
    x.tcr = tcrAfter s a ∧ x.cfgr1 = cfgr1After s a ∧ x.busy = s.busy ∧ x.csLines = s.csLines ∧
      a.setsCr crRst = false := by
  obtain ⟨addr, v, rfl, -, -, ⟨hr, rfl⟩ | ⟨hr, rfl, -⟩⟩ := sending_eq_some hx <;>
    simp [tcrAfter, cfgr1After, Access.setsCr, hr, command, queued]

theorem selects_reset (cfgr1 tcr : BitVec 32) (h : cfgr1 = 0#32) :
    Selects tcr cfgr1 false (Vector.replicate n true) := by
  subst h
  exact ⟨fun i _ => by simp [csActiveHigh], fun _ _ hb => absurd hb (by simp)⟩

/-- A frame is sent to the line selected, if the access keeps the lines right. -/
theorem Selects.selected (hs : Selects s.tcr s.cfgr1 s.busy s.csLines) (hlt : pcs s.tcr < n)
    (ha : KeepsSelect s a) (hx : sending s a = some x) : Selected (frame bus x) := by
  obtain ⟨htcr, hcfgr1, hbusy, hlines, hrst⟩ := sending_frame hx
  have hsel := hs.after hlt ha hrst
  rw [← htcr, ← hcfgr1, ← hbusy, ← hlines] at hsel
  refine selected_frame_iff.2 (hsel.mono fun hnot => ?_)
  -- A line that is not driven again is that of a transfer going on.
  rw [asserts] at hnot
  cases hb : x.busy <;> simp [hb] at hnot ⊢

theorem Effect.selects {v : Option (BitVec 32)} (hs : Selects s.tcr s.cfgr1 s.busy s.csLines)
    (hlt : pcs s.tcr < n) (ha : KeepsSelect s a) (h : Effect bus s a v t) :
    Selects t.tcr t.cfgr1 t.busy t.csLines := by
  rw [h.tcr_eq, h.cfgr1_eq, h.csLines_eq, h.busy_eq]
  cases hrst : a.setsCr crRst with
  | true =>
    have hcfgr1 : cfgr1After s a = 0#32 := by
      cases a with
      | read addr => exact absurd hrst (by simp [Access.setsCr])
      | write addr v =>
        simp only [Access.setsCr, Bool.and_eq_true, decide_eq_true_eq] at hrst
        simp [cfgr1After, hrst]
    rw [csAfter, if_pos hrst]
    exact selects_reset _ _ hcfgr1
  | false =>
    rw [csAfter, hrst]
    cases hx : sending s a with
    | none => exact hs.after hlt ha hrst
    | some x =>
      obtain ⟨htcr, hcfgr1, -⟩ := sending_frame hx
      rw [← htcr, ← hcfgr1]
      exact selects_sendFrame (hs.selected hlt ha hx)

/-! ## Frames sent along a run -/

/-- The frames an access exchanges, seen in its reply. -/
theorem mem_exchanges_iff {r : Reply n} {y : Exchange n} (hs : Settled s)
    (h : access bus s a = .ok (r, t)) :
    y ∈ exchanges r.calls ↔ ∃ x, sending s a = some x ∧ frame bus x = y := by
  obtain ⟨u, hu, hcalls, -⟩ := effect_of_access hs.bytes_ne_zero h
  rw [hcalls, hs.exchanges_eq hu]
  simp

/-- Between the accesses of a run that keeps the lines right, they are. -/
structure InSelection (s : State n β) : Prop where
  settled : Settled s
  pcs_lt : pcs s.tcr < n
  selects : Selects s.tcr s.cfgr1 s.busy s.csLines

theorem PowerOn.inSelection {s₀ : State n β} (h₀ : PowerOn bus s₀) : InSelection s₀ := by
  refine ⟨h₀.settled, h₀.pcs_lt.2, ?_⟩
  obtain ⟨hz, ssi, -, -, -, rfl⟩ := powerOn_iff.1 h₀
  exact selects_reset _ _ rfl

theorem InSelection.access {r : Reply n} (hs : InSelection s) (hn : 1 ≤ n) (ha : a.Selecting n)
    (hkeep : KeepsSelect s a) (h : access bus s a = .ok (r, t)) : InSelection t := by
  refine ⟨hs.settled.access h, pcs_lt_of_access hs.settled hs.pcs_lt hn ha h, ?_⟩
  obtain ⟨u, hu, -, rfl⟩ := effect_of_access hs.settled.bytes_ne_zero h
  change Selects u.tcr u.cfgr1 u.busy u.csLines
  exact hu.selects hs.selects hs.pcs_lt hkeep

theorem run_inSelection {s₀ : State n β} {as : List Access} {h : List (Step n β)}
    (h₀ : PowerOn bus s₀) (ha : ∀ a ∈ as, a.Selecting n) (hr : run bus s₀ as = .ok (h, t))
    (hkeep : ∀ τ ∈ h, KeepsSelect τ.pre τ.input) : ∀ τ ∈ h,
      InSelection τ.pre ∧ InSelection τ.post :=
  (Mealy.run_invariant (I := InSelection) hr h₀.inSelection fun τ hτ htake hs =>
    hs.access h₀.pcs_lt.1 (ha _ (Mealy.run_takes hr τ hτ).2) (hkeep τ hτ) htake).2

/-- **Selection.** In a run from power on, with commands that select existing lines,
    the line selected, and no other, is active at the exchange of a frame exactly
    when, before the access, the other lines are inactive, and this one is active
    already, if it is not driven now. This is so in all exchanges, if all accesses
    keep the lines right. -/
theorem run_selected (bus : SsiBus β) {s₀ : State n β} (h₀ : PowerOn bus s₀) (as : List Access)
    (ha : ∀ a ∈ as, a.Selecting n) :
    run bus s₀ as = .error .divByZero ∨ ∃ h t, run bus s₀ as = .ok (h, t) ∧
      (∀ τ ∈ h, (∀ y ∈ exchanges τ.output.calls, Selected y) ↔
        ∀ x, sending τ.pre τ.input = some x → Selects x.tcr x.cfgr1 (!asserts x) x.csLines) ∧
      ((∀ τ ∈ h, KeepsSelect τ.pre τ.input) →
        ∀ τ ∈ h, ∀ y ∈ exchanges τ.output.calls, Selected y) := by
  cases hr : run bus s₀ as with
  | error e => exact .inl (by rw [run_eq_divByZero h₀ ha hr])
  | ok r =>
    obtain ⟨h, t⟩ := r
    have hset := (run_settled hr h₀.settled).2
    have htake := Mealy.run_takes hr
    refine .inr ⟨h, t, rfl, fun τ hτ => ?_, fun hkeep τ hτ y hy => ?_⟩
    · constructor
      · intro hsel x hx
        exact selected_frame_iff.1 (hsel _ ((mem_exchanges_iff (hset τ hτ).1 (htake τ hτ).1).2
          ⟨x, hx, rfl⟩))
      · intro hsel y hy
        obtain ⟨x, hx, rfl⟩ := (mem_exchanges_iff (hset τ hτ).1 (htake τ hτ).1).1 hy
        exact selected_frame_iff.2 (hsel x hx)
    · obtain ⟨x, hx, rfl⟩ := (mem_exchanges_iff (hset τ hτ).1 (htake τ hτ).1).1 hy
      have hpre := (run_inSelection h₀ ha hr hkeep τ hτ).1
      exact hpre.selects.selected hpre.pcs_lt (hkeep τ hτ) hx

/-- A word sent on the only line, whose polarity is changed before: it is high at the
    exchange. -/
theorem run_selected_once : ∃ h t,
    run SsiBus.empty bare [.write 0x10 1#32, .write 0x24 0x01000000#32, .write 0x64 1#32] =
      .ok (h, t) ∧
      (h.flatMap fun τ => exchanges τ.output.calls).map (·.csLines) = [#v[true]] ∧
      (∀ τ ∈ h, ∀ y ∈ exchanges τ.output.calls, Selected y) ∧
      ∀ τ ∈ h, ∀ x, sending τ.pre τ.input = some x →
        Selects x.tcr x.cfgr1 (!asserts x) x.csLines := by
  rcases run_selected SsiBus.empty powerOn_bare
    [.write 0x10 1#32, .write 0x24 0x01000000#32, .write 0x64 1#32] (by decide)
    with herr | ⟨h, t, hr, hiff, -⟩
  · cases herr
  · have hselected : (h.flatMap fun τ => exchanges τ.output.calls).map (·.csLines) = [#v[true]] ∧
        ∀ τ ∈ h, ∀ y ∈ exchanges τ.output.calls, Selected y := by
      obtain ⟨rfl, rfl⟩ := Prod.mk.inj (Except.ok.inj hr)
      exact ⟨rfl, by decide⟩
    exact ⟨h, t, hr, hselected.1, hselected.2, fun τ hτ => (hiff τ hτ).1 (hselected.2 τ hτ)⟩

/-- Two lines, a continuous transfer on the first, then a command selecting the second:
    its frame is exchanged with the first line still active, and the second not. And
    one line, whose polarity is changed during a continuous transfer: the next frame
    is exchanged with the line inactive. -/
theorem run_not_selected :
    (∃ h t, run SsiBus.empty (atPowerOn SsiBus.empty 80000000 2 ())
        [.write 0x10 1#32, .write 0x60 0x4000001F#32, .write 0x64 1#32,
          .write 0x60 0x4100001F#32, .write 0x64 2#32] = .ok (h, t) ∧
      ∃ τ ∈ h, ∃ y ∈ exchanges τ.output.calls, y.csLines = #v[false, true] ∧ pcs y.tcr = 1 ∧
        ¬Selected y) ∧
    ∃ h t, run SsiBus.empty bare
        [.write 0x10 1#32, .write 0x60 0x4000001F#32, .write 0x64 1#32,
          .write 0x24 0x01000000#32, .write 0x64 2#32] = .ok (h, t) ∧
      ∃ τ ∈ h, ∃ y ∈ exchanges τ.output.calls, ¬Selected y := by
  refine ⟨⟨_, _, rfl, _, .tail _ (.tail _ (.tail _ (.tail _ (.head _)))), _, .head _, rfl, rfl,
    by decide⟩, _, _, rfl, _, .tail _ (.tail _ (.tail _ (.tail _ (.head _)))), _, .head _,
    by decide⟩

end S32K358.Lpspi
