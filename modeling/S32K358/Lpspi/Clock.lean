import S32K358.Lpspi.Simulation

/-!
# The LPSPI: clock settings and transfers

The fields of the clock in the command register, `CPOL`, `CPHA` and `PRESCALE`,
are only logged, and should not interfere with transfers. But the header
defines them on bits that it also gives to `CONTC`, `CONT` and `LSBF`.

What an observer sees of a run are the words on the bus and the levels of the
chip-select and interrupt lines (`Signal`), and the values of all registers but
`TCR` itself. `run_clock_alike`: two runs whose commands differ in the clock
fields only look the same if those commands, moreover, agree on `LSBF` and on
whether one of `CONT` and `CONTC` is set. The relation between the states of the
two runs is `Like`: they differ at most in the bits of `TCR` that transfers
ignore.
-/

namespace S32K358.Lpspi

variable {n : ℕ} {β : Type} {bus : SsiBus β} {s s' t : State n β}

/-! ## What is observed -/

/-- What is observed of a call: all but the log of the clock. -/
inductive Signal
  | irq (level : Bool)
  | cs (line : ℕ) (level : Bool)
  | word (txData : BitVec 32) (loopback : Bool)
  deriving DecidableEq, Repr

def Call.signal? : Call n → Option Signal
  | .setIrq level => some (.irq level)
  | .setCs line level => some (.cs line level)
  | .exchange x => some (.word x.txData x.loopback)
  | .clockConfig _ _ _ _ => none

/-- What is observed of some calls. -/
def signals (l : List (Call n)) : List Signal := l.filterMap Call.signal?

theorem signals_append (l m : List (Call n)) : signals (l ++ m) = signals l ++ signals m :=
  List.filterMap_append

theorem signals_clockLog : signals (clockLog s) = [] := by
  simp only [clockLog]
  split_ifs <;> rfl

/-- Two accesses and their replies look the same: but for reads of `TCR`, the
    values, and in any case the signals. -/
def LooksSame (a : Access) (r : Reply n) (_ : Access) (r' : Reply n) : Prop :=
  ((∀ addr, a = .read addr → Reg.ofOffset? addr ≠ some .tcr) → r.value = r'.value) ∧
    signals r.calls = signals r'.calls

/-! ## Commands -/

/-- The fields of the clock, as the header defines them. -/
def tcrClockMask : BitVec 32 := tcrCpol ||| tcrCpha ||| tcrPrescaleMask

/-- The accesses are the same, but that commands may differ in the clock fields. -/
def SameButClock : Access → Access → Prop
  | .read addr, .read addr' => addr = addr'
  | .write addr v, .write addr' v' => addr = addr' ∧
      if Reg.ofOffset? addr = some .tcr then v &&& ~~~tcrClockMask = v' &&& ~~~tcrClockMask
      else v = v'
  | _, _ => False

instance : DecidableRel SameButClock
  | .read addr, .read addr' => inferInstanceAs (Decidable (addr = addr'))
  | .write _ _, .write _ _ => inferInstanceAs (Decidable (_ ∧ _))
  | .read _, .write _ _ | .write _ _, .read _ => inferInstanceAs (Decidable False)

/-- If the accesses write commands, these agree on the byte order and on whether
    the transfer is continuous. -/
def SameMode : Access → Access → Prop
  | .write addr v, .write _ v' =>
      Reg.ofOffset? addr = some .tcr → lsbf v = lsbf v' ∧ single v = single v'
  | _, _ => True

instance : DecidableRel SameMode
  | .write _ _, .write _ _ => inferInstanceAs (Decidable (_ → _))
  | .read _, .read _ | .read _, .write _ _ | .write _ _, .read _ => inferInstanceAs (Decidable True)

/-- The commands make the same transfers. -/
structure SameTransfer (v v' : BitVec 32) : Prop where
  framesz_eq : framesz v = framesz v'
  pcs_eq : pcs v = pcs v'
  rxmsk_eq : rxmsk v = rxmsk v'
  lsbf_eq : lsbf v = lsbf v'
  single_eq : single v = single v'

theorem SameTransfer.frameSize_eq {v v' : BitVec 32} (h : SameTransfer v v') :
    frameSize v = frameSize v' := by
  rw [frameSize, frameSize, h.framesz_eq]

theorem SameTransfer.bytes_eq {v v' : BitVec 32} (h : SameTransfer v v') :
    bytesPerFrame v = bytesPerFrame v' := by
  rw [bytesPerFrame, bytesPerFrame, h.frameSize_eq]

/-- Outside the clock fields, a command has the frame size, the chip select and the
    masks of the transfer. -/
theorem sameTransfer_of_mask {v v' : BitVec 32}
    (h : v &&& ~~~tcrClockMask = v' &&& ~~~tcrClockMask) (hl : lsbf v = lsbf v')
    (hs : single v = single v') : SameTransfer v v' where
  framesz_eq := by
    rw [framesz, framesz, Bits.and_mask_congr h (by decide)]
  pcs_eq := by
    rw [pcs, pcs, Bits.and_mask_congr h (by decide)]
  rxmsk_eq := Bits.any_mask_congr h (by decide)
  lsbf_eq := hl
  single_eq := hs

/-! ## The simulation -/

/-- The states differ at most in the command, which makes the same transfers, and in
    unobservable calls. -/
def Like (s s' : State n β) : Prop :=
  ∃ v c, s' = { s with tcr := v, calls := c } ∧ SameTransfer s.tcr v ∧ signals s.calls = signals c

/-- An update that does not depend on the command, and does not change it. -/
theorem Like.map (h : Like s s') {f : State n β → State n β}
    (hf : ∀ v c, f { s with tcr := v, calls := c } = { f s with tcr := v, calls := c })
    (htcr : (f s).tcr = s.tcr) (hcalls : (f s).calls = s.calls) : Like (f s) (f s') := by
  obtain ⟨v, c, rfl, ht, hc⟩ := h
  exact ⟨v, c, hf v c, htcr ▸ ht, hcalls ▸ hc⟩

theorem Like.status (h : Like s s') : Like (status s) (status s') := by
  obtain ⟨v, c, rfl, ht, hc⟩ := h
  refine ⟨v, c, ?_, ht, hc⟩
  simp only [Lpspi.status, statusSr, txWords, rxWords, ht.bytes_eq]
  rfl

theorem Like.settle (h : Like s s') : Like (settle s) (settle s') := by
  obtain ⟨v, c, hs, ht, hc⟩ := h.status
  have hlevel : irqLevel (Lpspi.status s') = irqLevel (Lpspi.status s) := by
    rw [hs]
    rfl
  refine ⟨v, c ++ [.setIrq (irqLevel (Lpspi.status s))], ?_, ht, ?_⟩
  · rw [Lpspi.settle, hlevel, hs]
    rfl
  · change signals (_ ++ [_]) = _
    rw [signals_append, signals_append, hc]

theorem Like.updateClockConfig (h : Like s s') :
    Like (updateClockConfig s) (updateClockConfig s') := by
  obtain ⟨v, c, rfl, ht, hc⟩ := h
  refine ⟨v, _, rfl, ht, ?_⟩
  change signals (_ ++ _) = signals (_ ++ _)
  rw [signals_append, signals_append, signals_clockLog, signals_clockLog, hc]

theorem Like.asserts (h : Like s s') : asserts s' = asserts s := by
  obtain ⟨v, c, rfl, ht, hc⟩ := h
  rw [Lpspi.asserts, Lpspi.asserts, ht.single_eq]

theorem Like.releases (h : Like s s') : releases s' = releases s := by
  obtain ⟨v, c, rfl, ht, hc⟩ := h
  rw [Lpspi.releases, Lpspi.releases, ht.single_eq]

theorem Like.ready (h : Like s s') : Ready s' ↔ Ready s := by
  obtain ⟨v, c, rfl, ht, hc⟩ := h
  rw [Ready, Ready, ht.bytes_eq, ht.rxmsk_eq]

theorem Like.asserted (h : Like s s') : Like (asserted bus s) (asserted bus s') := by
  have ha := h.asserts
  obtain ⟨v, c, rfl, ht, hc⟩ := h
  refine ⟨v, c ++ if Lpspi.asserts s then [.setCs (pcs s.tcr) (csActiveHigh s.cfgr1 (pcs s.tcr))]
    else [], ?_, ht, ?_⟩
  · simp only [Lpspi.asserted, ha, ht.pcs_eq]
  · change signals (_ ++ _) = _
    rw [signals_append, signals_append, hc]

theorem Like.released (h : Like s s') : Like (released bus s) (released bus s') := by
  have hr := h.releases
  obtain ⟨v, c, rfl, ht, hc⟩ := h
  refine ⟨v, c ++ if Lpspi.releases s then
    [.setCs (pcs s.tcr) (!csActiveHigh s.cfgr1 (pcs s.tcr))] else [], ?_, ht, ?_⟩
  · simp only [Lpspi.released, hr, ht.pcs_eq, ht.single_eq]
  · change signals (_ ++ _) = _
    rw [signals_append, signals_append, hc]

theorem Like.txWord (h : Like s s') : txWord s' = txWord s := by
  obtain ⟨v, c, rfl, ht, hc⟩ := h
  rw [Lpspi.txWord, Lpspi.txWord, ht.lsbf_eq, ht.bytes_eq]

theorem Like.exchanged (h : Like s s') : Like (exchanged bus s) (exchanged bus s') := by
  have hw := h.txWord
  obtain ⟨v, c, rfl, ht, hc⟩ := h
  refine ⟨v, (Lpspi.exchanged bus { s with tcr := v, calls := c }).calls, ?_, ht, ?_⟩
  · simp only [Lpspi.exchanged, hw, ht.bytes_eq, ht.rxmsk_eq, ht.lsbf_eq, answer]
  · change signals (_ ++ _) = signals (_ ++ _)
    rw [signals_append, signals_append, hc, ← hw]
    rfl

/-- A frame is sent the same way. -/
theorem Like.sendFrame (h : Like s s') : Like (sendFrame bus s) (sendFrame bus s') :=
  h.asserted.exchanged.status.released.settle

theorem Like.command (h : Like s s') {v v' : BitVec 32} (hv : SameTransfer v v') :
    Like (command s v) (command s' v') := by
  obtain ⟨w, c, rfl, ht, hc⟩ := h
  -- The flag `continuous_mode` is the opposite of `single`.
  have hmode : Bits.any v' (tcrCont ||| tcrContc) = Bits.any v (tcrCont ||| tcrContc) := by
    have := hv.single_eq
    simp only [single, cont, contc, ← Bool.not_or, Bool.not_inj_iff] at this
    rw [Bits.any_or_right, Bits.any_or_right, this]
  refine ⟨v', c, ?_, hv, hc⟩
  simp only [Lpspi.command, hv.frameSize_eq, hmode]

theorem Like.queued (h : Like s s') (v : BitVec 32) : Like (queued s v) (queued s' v) := by
  obtain ⟨w, c, rfl, ht, hc⟩ := h
  refine ⟨w, c, ?_, ht, hc⟩
  simp only [Lpspi.queued, ht.lsbf_eq, ht.bytes_eq]

theorem Like.rxWord (h : Like s s') : rxWord s' = rxWord s := by
  obtain ⟨v, c, rfl, ht, hc⟩ := h
  rw [Lpspi.rxWord, Lpspi.rxWord, ht.lsbf_eq, ht.bytes_eq]

theorem Like.taken (h : Like s s') : Like (taken s) (taken s') := by
  have hw := h.rxWord
  obtain ⟨v, c, rfl, ht, hc⟩ := h
  refine ⟨v, c, ?_, ht, hc⟩
  simp only [Lpspi.taken, hw, ht.bytes_eq]

theorem Like.afterReset (h : Like s s') : Like (afterReset bus s) (afterReset bus s') := by
  obtain ⟨v, c, rfl, ht, hc⟩ := h
  -- The reset forgets both commands.
  have hraised : Like (raised bus (resetRegs s))
      (raised bus (resetRegs { s with tcr := v, calls := c })) := by
    refine ⟨0x1F#32, _, rfl, ⟨rfl, rfl, rfl, rfl, rfl⟩, ?_⟩
    change signals (s.calls ++ _) = signals (c ++ _)
    rw [signals_append, signals_append, hc]
  exact hraised.updateClockConfig.settle

theorem Like.peek (h : Like s s') {r : Option Reg} (hr : r ≠ some .tcr) : peek s' r = peek s r := by
  obtain ⟨v, c, rfl, ht, hc⟩ := h
  rcases r with _ | r
  · rfl
  · cases r <;> first | rfl | exact absurd rfl hr

theorem Like.configure (h : Like s s') {v : BitVec 32} {r : Reg} (ht : configure s v r = some t) :
    ∃ t', Lpspi.configure s' v r = some t' ∧ Like t t' := by
  cases r <;> simp only [Lpspi.configure, reduceCtorEq, Option.some.injEq] at ht <;> subst ht
  case ier =>
    exact ⟨_, rfl, h.map (f := fun s => { s with ier := v }) (fun _ _ => rfl) rfl rfl⟩
  case der =>
    exact ⟨_, rfl, h.map (f := fun s => { s with der := v }) (fun _ _ => rfl) rfl rfl⟩
  case cfgr0 =>
    exact ⟨_, rfl, h.map (f := fun s => { s with cfgr0 := v }) (fun _ _ => rfl) rfl rfl⟩
  case cfgr1 =>
    exact ⟨_, rfl, (h.map (f := fun s => { s with cfgr1 := v }) (fun _ _ => rfl) rfl
      rfl).updateClockConfig⟩
  case ccr =>
    exact ⟨_, rfl, (h.map (f := fun s => { s with ccr := v }) (fun _ _ => rfl) rfl
      rfl).updateClockConfig⟩
  case ccr1 =>
    exact ⟨_, rfl, (h.map (f := fun s => { s with ccr1 := v }) (fun _ _ => rfl) rfl
      rfl).updateClockConfig⟩

theorem Like.sameTransfer (h : Like s s') : SameTransfer s.tcr s'.tcr := by
  obtain ⟨v, c, rfl, ht, -⟩ := h
  exact ht

/-- Commands that make the same transfers keep the states alike. -/
theorem simulation_like (bus : SsiBus β) : Simulation (n := n) bus SameTransfer Like where
  cr_eq h := by
    obtain ⟨v, c, rfl, -⟩ := h
    rfl
  bytes_eq h := h.sameTransfer.bytes_eq.symm
  pcs_eq h := h.sameTransfer.pcs_eq.symm
  txNum_eq h := by
    obtain ⟨v, c, rfl, -⟩ := h
    rfl
  rxNum_eq h := by
    obtain ⟨v, c, rfl, -⟩ := h
    rfl
  ready_iff := Like.ready
  asserts_eq := Like.asserts
  rxWord_eq := Like.rxWord
  status := Like.status
  settle := Like.settle
  updateClockConfig := Like.updateClockConfig
  sendFrame h _ := h.sendFrame
  taken := Like.taken
  afterReset := Like.afterReset
  command hv h := h.command hv
  queued v h _ := h.queued v
  writeCr v h := h.map (f := (writeCr · v)) (fun _ _ => rfl) rfl rfl
  writeFcr v h := h.map (f := (writeFcr · v)) (fun _ _ => rfl) rfl rfl
  setSr f h := h.map (f := fun s => { s with sr := f s.sr }) (fun _ _ => rfl) rfl rfl
  configure h hc := h.configure hc

/-- Commands that differ in the clock fields, but agree on the mode, make the same
    transfers. -/
theorem SameButClock.like {a a' : Access} (hsame : SameButClock a a') (hmode : SameMode a a') :
    a.Like SameTransfer a' := by
  rcases a with addr | ⟨addr, v⟩ <;> rcases a' with addr' | ⟨addr', v'⟩
  · exact hsame
  · exact hsame.elim
  · exact hsame.elim
  · obtain ⟨rfl, hsame⟩ := hsame
    refine ⟨rfl, ?_⟩
    split_ifs at hsame ⊢ with hr
    · exact sameTransfer_of_mask hsame (hmode hr).1 (hmode hr).2
    · exact hsame

/-! ## Runs -/

/-- The relation between the states of the two runs. -/
structure Twins (s s' : State n β) : Prop where
  left : Settled s
  right : Settled s'
  like : Like s s'

theorem Twins.clear {t' : State n β} (h : Twins s s') {a a' : Access} {v v' : Option (BitVec 32)}
    (he : Effect bus s a v t) (he' : Effect bus s' a' v' t') (hlike : Like t t') :
    Twins { t with calls := [] } { t' with calls := [] } where
  left := he.settled h.left
  right := he'.settled h.right
  like := by
    obtain ⟨w, c, rfl, hw, -⟩ := hlike
    exact ⟨w, [], rfl, hw, rfl⟩

/-- But for reads of `TCR`, the values are the same. -/
theorem Like.value_eq {u u' : State n β} (h : Like u u') {a : Access} {v v' : Option (BitVec 32)}
    (hval : Simulation.SameValue u u' a v v')
    (ha : ∀ addr, a = .read addr → Reg.ofOffset? addr ≠ some .tcr) : v = v' := by
  rcases hval with hval | ⟨addr, rfl, rfl, rfl⟩
  · exact hval
  · rw [h.peek (ha addr rfl)]

/-- One step of the two runs. -/
theorem twins_step (h : Twins s s') {a a' : Access} (hsame : SameButClock a a')
    (hmode : SameMode a a') :
    (∃ r u r' u', access bus s a = .ok (r, u) ∧ access bus s' a' = .ok (r', u') ∧
      LooksSame a r a' r' ∧ Twins u u') ∨
    ∃ e, access bus s a = .error e ∧ access bus s' a' = .error e := by
  have hstep := (simulation_like bus).access h.left h.right h.like (hsame.like hmode)
  refine hstep.imp_left ?_
  rintro ⟨v, u, v', u', he, he', hlike, hval, hok, hok'⟩
  refine ⟨_, _, _, _, hok, hok', ⟨hlike.value_eq hval, ?_⟩, h.clear he he' hlike⟩
  obtain ⟨w, c, rfl, -, hsig⟩ := hlike
  exact hsig

/-- **Clock settings.** Two runs from power on, whose commands differ in the clock
    fields only, look the same, if these commands agree on the byte order and on
    whether the transfer is continuous. -/
theorem run_clock_alike (bus : SsiBus β) {s₀ : State n β} (h₀ : PowerOn bus s₀)
    {as as' : List Access}
    (has : List.Forall₂ (fun a a' => SameButClock a a' ∧ SameMode a a') as as') :
    Mealy.Alike LooksSame (run bus s₀ as) (run bus s₀ as') := by
  have htwins : Twins s₀ s₀ :=
    ⟨h₀.settled, h₀.settled, s₀.tcr, s₀.calls, rfl, ⟨rfl, rfl, rfl, rfl, rfl⟩, rfl⟩
  refine Mealy.run_simulates (R := Twins) ?_ htwins has
  intro s s' a a' h ⟨hsame, hmode⟩
  exact twins_step h hsame hmode

/-- Commands with different prescalers. -/
theorem run_clock_alike_prescale : Mealy.Alike LooksSame
    (run SsiBus.empty bare [.write 0x10 1#32, .write 0x60 0x0800001F#32, .write 0x64 1#32])
    (run SsiBus.empty bare [.write 0x10 1#32, .write 0x60 0x2000001F#32, .write 0x64 1#32]) :=
  run_clock_alike SsiBus.empty powerOn_bare (by decide)

theorem signals_of_alike {x y : Except Fault (List (Step n β) × State n β)}
    (h : Mealy.Alike LooksSame x y) :
    x.map (fun r => r.1.map fun τ => signals τ.output.calls) =
      y.map fun r => r.1.map fun τ => signals τ.output.calls :=
  h.observe_eq (f := fun r => signals r.calls) fun _ _ _ _ hsame => hsame.2

/-- Setting `CPHA` keeps the chip select asserted after the transfer, as it sets
    `CONT`. -/
theorem run_cpha_not_alike :
    List.Forall₂ SameButClock [.write 0x10 1#32, .write 0x60 0x0000001F#32, .write 0x64 1#32]
      [.write 0x10 1#32, .write 0x60 0x4000001F#32, .write 0x64 1#32] ∧
    ¬Mealy.Alike LooksSame
      (run SsiBus.empty bare [.write 0x10 1#32, .write 0x60 0x0000001F#32, .write 0x64 1#32])
      (run SsiBus.empty bare [.write 0x10 1#32, .write 0x60 0x4000001F#32, .write 0x64 1#32]) :=
  ⟨by decide, fun h => absurd (signals_of_alike h) (by decide)⟩

end S32K358.Lpspi
