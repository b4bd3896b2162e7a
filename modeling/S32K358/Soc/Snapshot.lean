import S32K358.Soc.Board
import S32K358.Soc.Migration

/-!
# A snapshot of the board

The board is saved, and loaded into one that has just been realized and reset
(`restore`). The guest can tell a board by the values it reads, and the bus of an LPSPI by
the words handed to it (`observe`). What the LPSPIs save is enough, but the LPUARTs and the
sensors save nothing: they have to be as they are after a reset (`Fresh`), and `rand`, which
the sensors of the new board have seeded again, has to go on with the speeds that the old
one would have given (`SameSpeeds`). Otherwise the guest finds out
(`restore_indistinguishable_iff`), by reading a register of an LPUART, or by sending words
to a sensor.
-/

namespace S32K358.Soc

open Ssi Lpspi

variable {rand rand' : ℕ → ℤ} {b b' : Board}

/-- The board `b`, saved and loaded into a board that has just been realized and reset,
    whose sensors have seeded `rand` anew: from now on it gives `rand'`. The NVIC restores
    its inputs. -/
def restore (rand' : ℕ → ℤ) (b : Board) : Board where
  lpuarts := (atPowerOn rand').lpuarts
  lpspis i := load ((atPowerOn rand').lpspis i) (save (b.lpspis i))
  rands := (atPowerOn rand').rands
  nvic := b.nvic

/-- What is observed of a step: the value read, if any, and the words handed to the bus. -/
def observe : Reply → Option (BitVec 32) × List (BitVec 32)
  | .lpuart r => (r.value, [])
  | .lpspi r => (r.value, words r.calls)

/-- What is observed of the run of the board on some inputs. -/
def observed (b : Board) (xs : List Input) :
    Except Fault (List (Option (BitVec 32) × List (BitVec 32))) :=
  (run b xs).map fun r => r.1.map fun τ => observe τ.output

/-- On all inputs, the same is observed of both boards. -/
def Indistinguishable (b b' : Board) : Prop := ∀ xs, observed b xs = observed b' xs

/-- The registers of the LPUART have the values of a reset. -/
structure AtReset (s : Lpuart.State) : Prop where
  gb_eq : s.gb = Lpuart.globalReset
  baudRateConfig_eq : s.baudRateConfig = Lpuart.baudReset
  sr_eq : s.sr = Lpuart.statReset
  cr_eq : s.cr = Lpuart.controlReset
  dr_eq : s.dr = Lpuart.dataReset

/-- What is not saved is as it is after a reset: the registers of the LPUARTs, and the
    speeds of the sensors. -/
structure Fresh (b : Board) : Prop where
  lpuarts : ∀ i, AtReset (b.lpuarts i)
  sensors : ∀ i, ∀ p ∈ (b.lpspis i).ssi.1, p.dev.transferValue = 0#16

/-! ## The sensors of a board -/

/-- The LPSPI is settled, and its sensor, after `k` calls of `rand`, transfers the last
    speed. -/
def Intact (rand : ℕ → ℤ) (k : ℕ) (s : Lpspi.State 1 Sensors) : Prop :=
  Settled s ∧ ∃ v, s.ssi = oneSensor rand ⟨v, v⟩ k

theorem settled_lend {s : Lpspi.State 1 Sensors} (h : Settled s) (k : ℕ) : Settled (lend s k) :=
  h.replace _ _ _ _ h.calls_eq

theorem Intact.lend {s : Lpspi.State 1 Sensors} {k : ℕ} (hs : Intact rand k s) (l : ℕ) :
    Intact rand l (lend s l) := by
  obtain ⟨hset, v, hssi⟩ := hs
  exact ⟨settled_lend hset l, v, congrArg (·.1, l) hssi⟩

theorem Intact.access {s t : Lpspi.State 1 Sensors} {k : ℕ} {a : Access} {r : Lpspi.Reply 1}
    (hs : Intact rand k s) (h : access sensorBus s a = .ok (r, t)) : ∃ l, Intact rand l t := by
  obtain ⟨hset, v, hssi⟩ := hs
  obtain ⟨u, hu, -, rfl⟩ := effect_of_access hset.bytes_ne_zero h
  have hbus := hu.ssi_eq unselected_sensorBus
  cases hx : sending s a with
  | none =>
    rw [hx, Option.elim_none, hssi] at hbus
    exact ⟨k, hu.settled hset, v, hbus⟩
  | some x =>
    rw [hx, Option.elim_some, answer, (sending_same hx).1, hssi, transfer_oneSensor] at hbus
    split_ifs at hbus
    · exact ⟨k, hu.settled hset, v, hbus⟩
    · exact ⟨k + 1, hu.settled hset, _, hbus⟩
    · exact ⟨k, hu.settled hset, v, hbus⟩

theorem intact_step {x : Input} {r : Reply} (hb : ∀ i, Intact rand 0 (b.lpspis i))
    (h : step b x = .ok (r, b')) : ∀ i, Intact rand 0 (b'.lpspis i) := by
  rcases step_ok h with ⟨i, y, rfl, rfl⟩ | ⟨i, a, r, t, rfl, ha, -, rfl⟩
  · exact hb
  · obtain ⟨k, ht⟩ := ((hb i).lend b.rands).access ha
    exact (Function.forall_update_iff _ fun _ => Intact rand 0).2 ⟨ht.lend 0, fun j _ => hb j⟩

theorem Reachable.intact (hb : Reachable rand b) : ∀ i, Intact rand 0 (b.lpspis i) := by
  obtain ⟨b₀, xs, h, rfl, hr⟩ := hb
  have h₀ : ∀ i, Intact rand 0 ((atPowerOn rand).lpspis i) := fun _ =>
    ⟨(powerOn_withSensor rand).settled, 0#16, rfl⟩
  exact (Mealy.run_invariant (I := fun b => ∀ i, Intact rand 0 (b.lpspis i)) hr h₀
    fun τ _ htake hpre => intact_step hpre htake).1

/-! ## Boards that are the same but for levels -/

/-- A sensor on each bus, in the same state, with the results of `rand`. -/
def SameSensor (rand rand' : ℕ → ℤ) (c d : Sensors) : Prop :=
  ∃ sensor, c.1 = [motorSpeedSensor rand sensor] ∧ d.1 = [motorSpeedSensor rand' sensor]

/-- The sensors will give the same speeds, too. -/
def Twins (rand rand' : ℕ → ℤ) (c d : Sensors) : Prop :=
  SameSensor rand rand' c d ∧ SameSpeeds rand c.2 rand' d.2

theorem Twins.eq_oneSensor {c d : Sensors} (h : Twins rand rand' c d) :
    ∃ sensor, c = oneSensor rand sensor c.2 ∧ d = oneSensor rand' sensor d.2 := by
  obtain ⟨⟨sensor, hc, hd⟩, -⟩ := h
  exact ⟨sensor, Prod.ext hc rfl, Prod.ext hd rfl⟩

theorem sameSpeeds_succ {k k' : ℕ} (h : SameSpeeds rand k rand' k') :
    SameSpeeds rand (k + 1) rand' (k' + 1) := fun j => by
  rw [Nat.add_right_comm k, Nat.add_right_comm k', Nat.add_assoc, Nat.add_assoc]
  exact h (j + 1)

theorem respects_twins (rand rand' : ℕ → ℤ) : sensorBus.Respects (Twins rand rand') where
  setCs _ _ h := h
  transfer {c d} w h := by
    obtain ⟨sensor, hc, hd⟩ := h.eq_oneSensor
    have hspeeds : SameSpeeds rand c.2 rand' d.2 := h.2
    have hspeed : generateRandomSpeed rand c.2 = generateRandomSpeed rand' d.2 := hspeeds 0
    rw [hc, hd, transfer_oneSensor, transfer_oneSensor, hspeed]
    split_ifs
    · exact ⟨rfl, ⟨_, rfl, rfl⟩, sameSpeeds_succ hspeeds⟩
    · exact ⟨rfl, ⟨_, rfl, rfl⟩, hspeeds⟩

/-- The boards differ at most in frequencies and levels, and their sensors have the same
    speeds, now and later. -/
structure Same (rand rand' : ℕ → ℤ) (b b' : Board) : Prop where
  lpuarts : ∀ i, Lpuart.SameRegs (b.lpuarts i) (b'.lpuarts i)
  lpspis : ∀ i, Settled (b.lpspis i) ∧ Settled (b'.lpspis i) ∧
    SameRegs (SameSensor rand rand') (b.lpspis i) (b'.lpspis i)
  speeds : SameSpeeds rand b.rands rand' b'.rands

/-- LPSPIs to which the counts of calls of `rand` are lent. -/
theorem lend_twins {s s' : Lpspi.State 1 Sensors} {k k' : ℕ}
    (h : SameRegs (SameSensor rand rand') s s') (hk : SameSpeeds rand k rand' k') :
    SameRegs (Twins rand rand') (lend s k) (lend s' k') := by
  obtain ⟨clk, q, c, d, l, hd, rfl⟩ := h
  exact ⟨clk, q, c, (d.1, k'), l, ⟨hd, hk⟩, rfl⟩

/-- The counts are given back. -/
theorem twins_lend {s s' : Lpspi.State 1 Sensors} (h : SameRegs (Twins rand rand') s s') :
    SameRegs (SameSensor rand rand') (lend s 0) (lend s' 0) ∧
      SameSpeeds rand s.ssi.2 rand' s'.ssi.2 := by
  obtain ⟨clk, q, c, d, l, ⟨hd, hk⟩, rfl⟩ := h
  exact ⟨⟨clk, q, c, (d.1, 0), l, hd, rfl⟩, hk⟩

theorem update_rel {α β γ : Type} [DecidableEq α] {R : β → γ → Prop} {f : α → β} {g : α → γ}
    {i : α} {x : β} {y : γ} (h : R x y) (hfg : ∀ j, R (f j) (g j)) (j : α) :
    R (Function.update f i x j) (Function.update g i y j) := by
  rcases eq_or_ne j i with rfl | hj
  · simpa using h
  · simpa [hj] using hfg j

/-- The same is observed of an input, or both boards stop, and they differ no more
    afterwards. -/
theorem Same.step (h : Same rand rand' b b') (x : Input) :
    (∃ o t o' t', step b x = .ok (o, t) ∧ Soc.step b' x = .ok (o', t') ∧
      observe o = observe o' ∧ Same rand rand' t t') ∨
    ∃ e, Soc.step b x = .error e ∧ Soc.step b' x = .error e := by
  cases x with
  | lpuart i x =>
    obtain ⟨hres, hafter⟩ := Lpuart.sameRegs_after (h.lpuarts i) x
    refine .inl ⟨_, _, _, _, step_lpuart b i x, step_lpuart b' i x, ?_,
      update_rel hafter h.lpuarts, h.lpspis, h.speeds⟩
    rw [observe, observe, hres]
  | lpspi i a =>
    obtain ⟨hs, hs', hsame⟩ := h.lpspis i
    have hboth := sameRegs_access (respects_twins rand rand') (settled_lend hs b.rands)
      (settled_lend hs' b'.rands) (lend_twins hsame h.speeds) a
    rcases hboth with ⟨r, t, r', t', ha, ha', hv, hw, ht⟩ | ⟨e, ha, ha'⟩
    · obtain ⟨hregs, hspeeds⟩ := twins_lend ht
      have hpost : Settled (lend t 0) ∧ Settled (lend t' 0) ∧
          SameRegs (SameSensor rand rand') (lend t 0) (lend t' 0) :=
        ⟨settled_lend ((settled_lend hs _).access ha) 0,
          settled_lend ((settled_lend hs' _).access ha') 0, hregs⟩
      refine .inl ⟨_, _, _, _, step_lpspi_ok ha, step_lpspi_ok ha', ?_, h.lpuarts,
        update_rel (R := fun s s' => Settled s ∧ Settled s' ∧
          SameRegs (SameSensor rand rand') s s') hpost h.lpspis, hspeeds⟩
      rw [observe, observe, hv, hw]
    · exact .inr ⟨e, step_lpspi_error ha, step_lpspi_error ha'⟩

theorem Same.indistinguishable (h : Same rand rand' b b') : Indistinguishable b b' := fun _ =>
  (Mealy.run_simulates (R := Same rand rand') (J := Eq)
    (Q := fun _ o _ o' => observe o = observe o')
    (fun _ _ x _ hb hx => hx ▸ hb.step x) h (List.forall₂_eq_eq_eq ▸ rfl)).observe_eq
    fun _ _ _ _ ho => ho

/-! ## Telling boards apart -/

/-- A run of an LPSPI is one of the board. -/
theorem run_lpspi {i : Fin nxpNumLpspis} {as : List Access} {h : List (Lpspi.Step 1 Sensors)}
    {t : Lpspi.State 1 Sensors}
    (hr : Lpspi.run sensorBus (lend (b.lpspis i) b.rands) as = .ok (h, t)) :
    ∃ h' b', run b (as.map (.lpspi i)) = .ok (h', b') ∧
      h'.map (fun τ => (observe τ.output).1) = h.map (·.output.value) ∧
      lend (b'.lpspis i) b'.rands = t := by
  induction as generalizing b h with
  | nil =>
    obtain ⟨rfl, rfl⟩ := Mealy.run_nil_ok hr
    exact ⟨[], b, rfl, rfl, rfl⟩
  | cons a as ih =>
    obtain ⟨r, s, h', ha, hrest, rfl⟩ := Mealy.run_cons_ok hr
    have hlend : lend ((b.setLpspi i s (r.calls.filterMap lpspiLevel?)).lpspis i)
        (b.setLpspi i s (r.calls.filterMap lpspiLevel?)).rands = s := by
      simp only [Board.setLpspi, Function.update_self]
      rfl
    rw [← hlend] at hrest
    obtain ⟨h'', b', hrun, hval, hend⟩ := ih hrest
    exact ⟨_, b', Mealy.run_cons_of_ok (step_lpspi_ok ha) hrun, congrArg (r.value :: ·) hval, hend⟩

theorem observed_read (b : Board) (i : Fin nxpNumLpuarts) (offset : ℕ) :
    observed b [.lpuart i (.event (.read offset []))] =
      .ok [(some (Lpuart.read (b.lpuarts i) offset []).1, [])] := by
  simp only [observed, run, Mealy.run, step_lpuart]
  rfl

/-- A word that is not a command shows what the sensor transfers. -/
theorem transfer_zero (sensor : MotorSpeedSensor) (k : ℕ) :
    (sensorBus.transfer (oneSensor rand sensor k) 0#32).1 = sensor.transferValue.setWidth 32 := by
  rw [transfer_oneSensor, if_neg (by decide)]

/-- Boards that cannot be told apart have the same registers in their LPUARTs. -/
theorem Indistinguishable.read_eq (h : Indistinguishable b b') (i : Fin nxpNumLpuarts)
    (offset : ℕ) :
    (Lpuart.read (b.lpuarts i) offset []).1 = (Lpuart.read (b'.lpuarts i) offset []).1 := by
  have hobs := h [.lpuart i (.event (.read offset []))]
  rw [observed_read, observed_read] at hobs
  simpa using hobs

/-- The sensors of boards that cannot be told apart answer the same. -/
theorem Indistinguishable.transfer_eq (h : Indistinguishable b b') {i : Fin nxpNumLpspis}
    (hs : Settled (b.lpspis i)) (hs' : Settled (b'.lpspis i)) (w : BitVec 32) :
    (sensorBus.transfer ((b.lpspis i).ssi.1, b.rands) w).1 =
      (sensorBus.transfer ((b'.lpspis i).ssi.1, b'.rands) w).1 := by
  obtain ⟨l, t, hr, hval, -⟩ := run_probe unselected_sensorBus (settled_lend hs b.rands) le_rfl w
  obtain ⟨l', t', hr', hval', -⟩ :=
    run_probe unselected_sensorBus (settled_lend hs' b'.rands) le_rfl w
  obtain ⟨m, c, hrun, hm, -⟩ := run_lpspi hr
  obtain ⟨m', c', hrun', hm', -⟩ := run_lpspi hr'
  have hobs := h ((probe w).map (.lpspi i))
  rw [observed, observed, hrun, hrun'] at hobs
  have hlist := congrArg (List.map Prod.fst) (Except.ok.inj hobs)
  rw [List.map_map, List.map_map] at hlist
  have hlast := ((hm.trans hval).symm.trans hlist).trans (hm'.trans hval')
  simpa [lend] using hlast

/-- What is observed of a run that goes on. -/
theorem observed_append {c : Board} {xs : List Input}
    {h : List (Mealy.Transition Board Input Reply)} (hr : run b xs = .ok (h, c))
    (ys : List Input) : observed b (xs ++ ys) =
      (observed c ys).map ((h.map fun τ => observe τ.output) ++ ·) := by
  simp only [observed, run, Mealy.run_append_of_ok hr]
  cases Mealy.run step c ys with
  | error e => rfl
  | ok r => exact congrArg Except.ok List.map_append

/-- Boards that cannot be told apart cannot be told apart later. -/
theorem Indistinguishable.after_run {c c' : Board} {xs : List Input}
    {h h' : List (Mealy.Transition Board Input Reply)} (hind : Indistinguishable b b')
    (hr : run b xs = .ok (h, c)) (hr' : run b' xs = .ok (h', c')) : Indistinguishable c c' := by
  intro ys
  have hsame : (h.map fun τ => observe τ.output) = h'.map fun τ => observe τ.output := by
    have hfirst := hind xs
    rw [observed, observed, hr, hr'] at hfirst
    exact Except.ok.inj hfirst
  have hboth := hind (xs ++ ys)
  rw [observed_append hr, observed_append hr', hsame] at hboth
  generalize observed c ys = x, observed c' ys = x' at hboth
  cases x <;> cases x' <;> simp_all [Except.map]

/-- Asking the sensor of an LPSPI for its speed calls `rand` once. -/
theorem run_getSpeed (hb : ∀ i, Intact rand 0 (b.lpspis i)) (i : Fin nxpNumLpspis) :
    ∃ h c, run b ((probe cmdGetSpeed).map (.lpspi i)) = .ok (h, c) ∧ c.rands = b.rands + 1 ∧
      ∀ j, Intact rand 0 (c.lpspis j) := by
  obtain ⟨hset, v, hssi⟩ := hb i
  obtain ⟨l, t, hr, -, hbus⟩ :=
    run_probe unselected_sensorBus (settled_lend hset b.rands) le_rfl cmdGetSpeed
  obtain ⟨h, c, hrun, -, hend⟩ := run_lpspi hr
  have hlent : (lend (b.lpspis i) b.rands).ssi = oneSensor rand ⟨v, v⟩ b.rands :=
    congrArg (·.1, b.rands) hssi
  rw [hlent, transfer_oneSensor, if_pos rfl] at hbus
  refine ⟨h, c, hrun, ?_, ?_⟩
  · exact congrArg Prod.snd ((congrArg State.ssi hend).trans hbus)
  · exact (Mealy.run_invariant (I := fun b => ∀ i, Intact rand 0 (b.lpspis i)) hrun hb
      fun τ _ htake hpre => intact_step hpre htake).1

/-- The answer to a command is the next speed. -/
theorem transfer_getSpeed (sensor : MotorSpeedSensor) (k : ℕ) :
    (sensorBus.transfer (oneSensor rand sensor k) cmdGetSpeed).1 =
      (generateRandomSpeed rand k).setWidth 32 := by
  rw [transfer_oneSensor, if_pos rfl]

theorem eq_of_setWidth_eq {v v' : BitVec 16} (h : v.setWidth 32 = v'.setWidth 32) : v = v' := by
  have hv := congrArg (BitVec.setWidth 16) h
  rwa [BitVec.setWidth_setWidth (by decide), BitVec.setWidth_setWidth (by decide),
    BitVec.setWidth_eq, BitVec.setWidth_eq] at hv

/-- The sensors of boards that cannot be told apart have the same speeds. -/
theorem Indistinguishable.sameSpeeds (h : Indistinguishable b b')
    (hb : ∀ i, Intact rand 0 (b.lpspis i)) (hb' : ∀ i, Intact rand' 0 (b'.lpspis i)) :
    SameSpeeds rand b.rands rand' b'.rands := by
  intro j
  induction j generalizing b b' with
  | zero =>
    obtain ⟨hset, v, hssi⟩ := hb 0
    obtain ⟨hset', v', hssi'⟩ := hb' 0
    have hanswer := h.transfer_eq hset hset' cmdGetSpeed
    rw [hssi, hssi'] at hanswer
    exact eq_of_setWidth_eq ((transfer_getSpeed ⟨v, v⟩ b.rands).symm.trans
      (hanswer.trans (transfer_getSpeed ⟨v', v'⟩ b'.rands)))
  | succ j ih =>
    -- Both sensors are asked once, and the boards still cannot be told apart.
    obtain ⟨l, c, hr, hrands, hc⟩ := run_getSpeed hb 0
    obtain ⟨l', c', hr', hrands', hc'⟩ := run_getSpeed hb' 0
    have hlater := ih (h.after_run hr hr') hc hc'
    rwa [hrands, hrands', Nat.add_right_comm, Nat.add_right_comm b'.rands] at hlater

/-! ## Snapshots -/

theorem intact_restore {i : Fin nxpNumLpspis} (hs : Settled (b.lpspis i)) :
    Intact rand' 0 ((restore rand' b).lpspis i) :=
  ⟨hs.replace _ _ _ _ rfl, 0#16, rfl⟩

/-- If what is not saved is as it is after a reset, and `rand` goes on with the same speeds,
    nothing gets lost. -/
theorem Fresh.same (h : Fresh b) (hb : ∀ i, Intact rand 0 (b.lpspis i))
    (hspeeds : SameSpeeds rand b.rands rand' 0) : Same rand rand' b (restore rand' b) where
  lpuarts i := by
    obtain ⟨hgb, hbaud, hsr, hcr, hdr⟩ := h.lpuarts i
    refine ⟨lpuartClk i, (Lpuart.atPowerOn (lpuartClk i)).irq, [], ?_⟩
    rw [hgb, hbaud, hsr, hcr, hdr]
    rfl
  lpspis i := by
    obtain ⟨hset, v, hssi⟩ := hb i
    have hv : v = 0#16 := h.sensors i (motorSpeedSensor rand ⟨v, v⟩) (by simp [hssi, oneSensor])
    subst hv
    have hload : Intact rand' 0 ((restore rand' b).lpspis i) := intact_restore hset
    exact ⟨hset, hload.1, sameRegs_load ⟨_, congrArg Prod.fst hssi, rfl⟩⟩
  speeds := hspeeds

/-- **Snapshots.** Let `rand'` be what `rand` gives after the sensors of the new board have
    seeded it. A board that is saved and loaded goes on as it would have, for all the guest
    reads and all the words handed to a bus, exactly if its LPUARTs and sensors are as they
    are after a reset, and `rand'` leads to the speeds that `rand` would still have led to. -/
theorem restore_indistinguishable_iff (hb : Reachable rand b) (rand' : ℕ → ℤ) :
    Indistinguishable b (restore rand' b) ↔ Fresh b ∧ SameSpeeds rand b.rands rand' 0 := by
  have hintact : ∀ i, Intact rand' 0 ((restore rand' b).lpspis i) := fun i =>
    intact_restore (hb.intact i).1
  refine ⟨fun h => ⟨⟨fun i => ?_, fun i p hp => ?_⟩, h.sameSpeeds hb.intact hintact⟩,
    fun h => (h.1.same hb.intact h.2).indistinguishable⟩
  · exact ⟨h.read_eq i 0x08, h.read_eq i 0x10, h.read_eq i 0x14, h.read_eq i 0x18,
      h.read_eq i 0x1C⟩
  · obtain ⟨hset, v, hssi⟩ := hb.intact i
    have hanswer := h.transfer_eq hset (hintact i).1 0#32
    rw [hssi] at hanswer hp
    obtain rfl := List.mem_singleton.1 hp
    exact eq_of_setWidth_eq ((transfer_zero ⟨v, v⟩ _).symm.trans
      (hanswer.trans (transfer_zero motorSpeedSensorRealize _)))

theorem fresh_atPowerOn (rand : ℕ → ℤ) : Fresh (atPowerOn rand) where
  lpuarts _ := ⟨rfl, rfl, rfl, rfl, rfl⟩
  sensors _ p hp := by
    obtain rfl := List.mem_singleton.1 hp
    rfl

theorem reachable_atPowerOn (rand : ℕ → ℤ) : Reachable rand (atPowerOn rand) :=
  ⟨_, [], [], rfl, rfl⟩

/-- An LPSPI has been enabled, and nothing else been done, and `rand` goes on with other
    results that lead to the same speeds: a snapshot loses nothing. -/
theorem restore_indistinguishable_enabled : ∃ b, Reachable (fun _ => 300) b ∧
    (b.lpspis 0).cr = crMen ∧ Indistinguishable b (restore (fun _ => 555) b) := by
  have heff := enable_effect sensorBus (withSensor fun _ => 300)
  have hstep := step_lpspi_ok (b := atPowerOn fun _ => 300) (i := 0)
    (heff.access_eq (powerOn_withSensor _).settled.bytes_ne_zero)
  have hb : Reachable (fun _ => 300) _ :=
    ⟨_, [.lpspi 0 (.write 0x10 crMen)], _, rfl, Mealy.run_cons_of_ok hstep rfl⟩
  have hspeeds : SameSpeeds (fun _ => 300) 0 (fun _ => 555) 0 := fun _ =>
    (by decide : BitVec.ofInt 16 (Int.tmod 300 255) = BitVec.ofInt 16 (Int.tmod 555 255))
  refine ⟨_, hb, rfl, (restore_indistinguishable_iff hb fun _ => 555).2 ⟨⟨?_, ?_⟩, hspeeds⟩⟩
  · exact (fresh_atPowerOn fun _ => 300).lpuarts
  · exact (Function.forall_update_iff _ fun _ (s : Lpspi.State 1 Sensors) => ∀ p ∈ s.ssi.1,
      p.dev.transferValue = 0#16).2
        ⟨(fresh_atPowerOn fun _ => 300).sensors 0, fun j _ => (fresh_atPowerOn _).sensors j⟩

/-- A snapshot loses the receiver enabled in an LPUART, and the speed of a sensor that has
    been asked for it, even if `rand` goes on as it would have. If it does not, a snapshot of
    a board that is as it was switched on loses the speeds still to come. -/
theorem restore_forgets :
    (∃ h b, run (atPowerOn fun _ => 300) [.lpuart 0 (.event (.write 0x18 Lpuart.ctrlRe))] =
        .ok (h, b) ∧
      observed b [.lpuart 0 (.event (.read 0x18 []))] = .ok [(some Lpuart.ctrlRe, [])] ∧
      observed (restore (fun _ => 300) b) [.lpuart 0 (.event (.read 0x18 []))] =
        .ok [(some 0#32, [])]) ∧
    (∃ h b, run (atPowerOn fun _ => 300) ((probe cmdGetSpeed).map (.lpspi 0)) = .ok (h, b) ∧
      ¬Indistinguishable b (restore (fun _ => 300) b)) ∧
    ¬Indistinguishable (atPowerOn fun _ => 300)
      (restore (fun _ => 301) (atPowerOn fun _ => 300)) := by
  refine ⟨?_, ?_, fun hind => ?_⟩
  · have hstep := step_lpuart (atPowerOn fun _ => 300) 0 (.event (.write 0x18 Lpuart.ctrlRe))
    exact ⟨_, _, Mealy.run_cons_of_ok hstep rfl, observed_read .., observed_read ..⟩
  · obtain ⟨l, t, hr, -, hssi⟩ := run_probe unselected_sensorBus
      (settled_lend ((reachable_atPowerOn fun _ => 300).intact 0).1 0) le_rfl cmdGetSpeed
    obtain ⟨h, b, hrun, -, hend⟩ := run_lpspi hr
    have hb : Reachable (fun _ => 300) b := ⟨_, _, h, rfl, hrun⟩
    refine ⟨h, b, hrun, fun hind => ?_⟩
    -- The sensor has measured 45, and one that has just been realized answers 0.
    have hbus : ((b.lpspis 0).ssi.1, b.rands) = oneSensor (fun _ => 300) ⟨45#16, 45#16⟩ 1 := by
      refine (congrArg State.ssi hend).trans (hssi.trans ?_)
      exact congrArg Prod.snd ((transfer_oneSensor motorSpeedSensorRealize 0 cmdGetSpeed).trans
        (if_pos rfl))
    have hintact : Intact (fun _ => 300) 0 ((restore (fun _ => 300) b).lpspis 0) :=
      intact_restore (hb.intact 0).1
    have hanswer := hind.transfer_eq (hb.intact 0).1 hintact.1 0#32
    rw [hbus, transfer_zero] at hanswer
    have hwide : (45#16).setWidth 32 = (0#16).setWidth 32 :=
      hanswer.trans (transfer_zero motorSpeedSensorRealize _)
    exact absurd hwide (by decide)
  · -- The next speed would have been 45, and is 46.
    have hb := (reachable_atPowerOn fun _ => 300).intact
    have hspeeds : SameSpeeds (fun _ => 300) 0 (fun _ => 301) 0 :=
      hind.sameSpeeds hb fun i => intact_restore (hb i).1
    have hspeed : BitVec.ofInt 16 (Int.tmod 300 255) = BitVec.ofInt 16 (Int.tmod 301 255) :=
      hspeeds 0
    exact absurd hspeed (by decide)

end S32K358.Soc
