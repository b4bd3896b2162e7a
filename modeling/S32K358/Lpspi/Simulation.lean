import S32K358.Lpspi.Run

/-!
# The LPSPI: simulations

Two devices that run side by side, on the same accesses or on accesses that differ in
their commands only (`Access.Like`), do the same as long as their states stay related.
What a relation owes for this are the conditions of `Simulation`: it determines what the
conditions of the effects of an access look at, and the updates of the state that
accesses are made of keep it. The cases of an access are gone through once, here:

* `Simulation.effect`, `Simulation.outOfBounds`: related states have related effects;
* `Simulation.access`: related states give replies that belong to related effects, or
  stop the same way.
-/

namespace S32K358.Lpspi

variable {n : ℕ} {β : Type}

/-- The accesses are the same, but that commands may differ as `J` says. -/
def Access.Like (J : BitVec 32 → BitVec 32 → Prop) : Access → Access → Prop
  | .read addr, .read addr' => addr = addr'
  | .write addr v, .write addr' v' => addr = addr' ∧
      if Reg.ofOffset? addr = some .tcr then J v v' else v = v'
  | _, _ => False

theorem Access.like_refl {J : BitVec 32 → BitVec 32 → Prop} (hJ : ∀ v, J v v) (a : Access) :
    a.Like J a := by
  rcases a with addr | ⟨addr, v⟩
  · rfl
  · refine ⟨rfl, ?_⟩
    split_ifs
    · exact hJ v
    · rfl

/-- The relation `Q` between states is kept by accesses that are alike, for commands
    related by `J`. -/
structure Simulation (bus : SsiBus β) (J : BitVec 32 → BitVec 32 → Prop)
    (Q : State n β → State n β → Prop) : Prop where
  cr_eq {s s' : State n β} : Q s s' → s'.cr = s.cr
  bytes_eq {s s' : State n β} : Q s s' → bytesPerFrame s'.tcr = bytesPerFrame s.tcr
  pcs_eq {s s' : State n β} : Q s s' → pcs s'.tcr = pcs s.tcr
  txNum_eq {s s' : State n β} : Q s s' → s'.txFifo.num = s.txFifo.num
  rxNum_eq {s s' : State n β} : Q s s' → s'.rxFifo.num = s.rxFifo.num
  ready_iff {s s' : State n β} : Q s s' → (Ready s' ↔ Ready s)
  asserts_eq {s s' : State n β} : Q s s' → asserts s' = asserts s
  rxWord_eq {s s' : State n β} : Q s s' → rxWord s' = rxWord s
  status {s s' : State n β} : Q s s' → Q (status s) (status s')
  settle {s s' : State n β} : Q s s' → Q (settle s) (settle s')
  updateClockConfig {s s' : State n β} : Q s s' →
    Q (updateClockConfig s) (updateClockConfig s')
  sendFrame {s s' : State n β} : Q s s' → Ready s → Q (sendFrame bus s) (sendFrame bus s')
  taken {s s' : State n β} : Q s s' → Q (taken s) (taken s')
  afterReset {s s' : State n β} : Q s s' → Q (afterReset bus s) (afterReset bus s')
  command {s s' : State n β} {v v' : BitVec 32} : J v v' → Q s s' → Q (command s v) (command s' v')
  queued {s s' : State n β} (v : BitVec 32) : Q s s' →
    s.txFifo.num + bytesPerFrame s.tcr ≤ fifoByteCapacity → Q (queued s v) (queued s' v)
  writeCr {s s' : State n β} (v : BitVec 32) : Q s s' → Q (writeCr s v) (writeCr s' v)
  writeFcr {s s' : State n β} (v : BitVec 32) : Q s s' → Q (writeFcr s v) (writeFcr s' v)
  setSr {s s' : State n β} (f : BitVec 32 → BitVec 32) : Q s s' →
    Q { s with sr := f s.sr } { s' with sr := f s'.sr }
  configure {s s' t : State n β} {v : BitVec 32} {r : Reg} : Q s s' → configure s v r = some t →
    ∃ t', Lpspi.configure s' v r = some t' ∧ Q t t'

namespace Simulation

variable {bus : SsiBus β} {J : BitVec 32 → BitVec 32 → Prop} {Q : State n β → State n β → Prop}
  {s s' t : State n β} {a a' : Access}

theorem men_eq (hQ : Simulation bus J Q) (h : Q s s') :
    Bits.any s'.cr crMen = Bits.any s.cr crMen := by rw [hQ.cr_eq h]

theorem room_eq (hQ : Simulation bus J Q) (h : Q s s') :
    s'.txFifo.num + bytesPerFrame s'.tcr = s.txFifo.num + bytesPerFrame s.tcr := by
  rw [hQ.txNum_eq h, hQ.bytes_eq h]

/-- Commands that are related have frames of the same size, on the same line. -/
theorem command_eq (hQ : Simulation bus J Q) (h : Q s s') {v v' : BitVec 32} (hv : J v v') :
    bytesPerFrame v' = bytesPerFrame v ∧ pcs v' = pcs v := by
  have hcmd := hQ.command hv h
  have hb := hQ.bytes_eq hcmd
  have hpcs := hQ.pcs_eq hcmd
  rw [command_tcr, command_tcr] at hb hpcs
  exact ⟨hb, hpcs⟩

/-- The values of an access in two related states: the same, or those of a register
    read without side effects. -/
def SameValue (t t' : State n β) (a : Access) (v v' : Option (BitVec 32)) : Prop :=
  v = v' ∨ ∃ addr, a = .read addr ∧ v = some (peek t (Reg.ofOffset? addr)) ∧
    v' = some (peek t' (Reg.ofOffset? addr))

/-- Commands do the same. -/
theorem effect_command (hQ : Simulation bus J Q) (h : Q s s') {addr : ℕ} {v v' : BitVec 32}
    {o : Option (BitVec 32)} (hr : Reg.ofOffset? addr = some .tcr) (hv : J v v')
    (he : Effect bus s (.write addr v) o t) :
    ∃ t', Effect bus s' (.write addr v') o t' ∧ Q t t' := by
  have hcmd := hQ.command hv h
  obtain ⟨hb, hpcs⟩ := hQ.command_eq h hv
  cases he with
  | command _ hbytes hready =>
    refine ⟨_, .command hr (hb.trans_ne hbytes) ?_, hQ.settle (hQ.updateClockConfig hcmd)⟩
    rwa [hQ.men_eq h, hQ.ready_iff hcmd]
  | resume _ hbytes hmen hready hcs =>
    refine ⟨_, .resume hr (hb.trans_ne hbytes) ((hQ.men_eq h).trans hmen)
      ((hQ.ready_iff hcmd).2 hready) ?_,
      hQ.settle (hQ.updateClockConfig (hQ.sendFrame hcmd hready))⟩
    rwa [hQ.asserts_eq hcmd, hpcs]
  | ignore hr' => exact absurd (hr' _ hr) (by decide)
  | configure hr' hc =>
    have hne := (configure_ne hc).2.1
    rw [hr, Option.some.injEq] at hr'
    exact absurd hr'.symm hne
  | reset hr' | control hr' | clear hr' | watermark hr' | refuse hr' | overflow hr' | queue hr'
  | send hr' => exact absurd (hr.symm.trans hr') (by decide)

/-- Accesses other than commands do the same. -/
theorem effect_of_ne (hQ : Simulation bus J Q) (h : Q s s') {o : Option (BitVec 32)}
    (ha : ∀ addr v, a = .write addr v → Reg.ofOffset? addr ≠ some .tcr)
    (he : Effect bus s a o t) :
    ∃ o' t', Effect bus s' a o' t' ∧ Q t t' ∧ SameValue t t' a o o' := by
  cases he with
  | @look addr hl =>
    rw [← hQ.rxNum_eq h] at hl
    exact ⟨_, _, .look hl, hQ.status h, .inr ⟨addr, rfl, rfl, rfl⟩⟩
  | take hr hne =>
    rw [← hQ.rxNum_eq h] at hne
    exact ⟨_, _, .take hr hne, hQ.status (hQ.taken (hQ.status h)),
      .inl (congrArg some (hQ.rxWord_eq h).symm)⟩
  | ignore hr => exact ⟨_, _, .ignore hr, h, .inl rfl⟩
  | reset hr hrst => exact ⟨_, _, .reset hr hrst, hQ.afterReset h, .inl rfl⟩
  | control hr hrst => exact ⟨_, _, .control hr hrst, hQ.settle (hQ.writeCr _ h), .inl rfl⟩
  | @clear addr v hr => exact ⟨_, _, .clear hr, hQ.settle (hQ.setSr (· &&& ~~~v) h), .inl rfl⟩
  | configure hr hc =>
    obtain ⟨t', hc', ht'⟩ := hQ.configure h hc
    exact ⟨_, _, .configure hr hc', hQ.settle ht', .inl rfl⟩
  | watermark hr =>
    exact ⟨_, _, .watermark hr, hQ.settle (hQ.status (hQ.writeFcr _ h)), .inl rfl⟩
  | command hr | resume hr => exact absurd hr (ha _ _ rfl)
  | refuse hr hmen => exact ⟨_, _, .refuse hr ((hQ.men_eq h).trans hmen), hQ.settle h, .inl rfl⟩
  | overflow hr hmen hfull =>
    rw [← hQ.room_eq h] at hfull
    exact ⟨_, _, .overflow hr ((hQ.men_eq h).trans hmen) hfull,
      hQ.settle (hQ.setSr (· ||| srTef) h), .inl rfl⟩
  | @queue addr v hr hmen hroom hready =>
    have hq := hQ.queued v h hroom
    rw [← hQ.room_eq h] at hroom
    exact ⟨_, _, .queue hr ((hQ.men_eq h).trans hmen) hroom (mt (hQ.ready_iff hq).1 hready),
      hQ.settle hq, .inl rfl⟩
  | @send addr v hr hmen hroom hready hcs =>
    have hq := hQ.queued v h hroom
    rw [← hQ.room_eq h] at hroom
    refine ⟨_, _, .send hr ((hQ.men_eq h).trans hmen) hroom ((hQ.ready_iff hq).2 hready) ?_,
      hQ.settle (hQ.sendFrame hq hready), .inl rfl⟩
    rwa [hQ.asserts_eq hq, hQ.pcs_eq h]

/-- Accesses that are alike have related effects in related states. -/
theorem effect (hQ : Simulation bus J Q) (h : Q s s') (ha : a.Like J a') {o : Option (BitVec 32)}
    (he : Effect bus s a o t) :
    ∃ o' t', Effect bus s' a' o' t' ∧ Q t t' ∧ SameValue t t' a o o' := by
  rcases a with addr | ⟨addr, v⟩ <;> rcases a' with addr' | ⟨addr', v'⟩
  · obtain rfl : addr = addr' := ha
    exact hQ.effect_of_ne h (fun _ _ h => by cases h) he
  · exact ha.elim
  · exact ha.elim
  · obtain ⟨rfl, hv⟩ := ha
    by_cases hr : Reg.ofOffset? addr = some .tcr
    · rw [if_pos hr] at hv
      obtain ⟨t', he', ht'⟩ := hQ.effect_command h hr hv he
      exact ⟨_, t', he', ht', .inl rfl⟩
    · rw [if_neg hr] at hv
      subst hv
      exact hQ.effect_of_ne h (fun _ _ h => by cases h; exact hr) he

/-- An access that is out of bounds in a state is so in a related one. -/
theorem outOfBounds (hQ : Simulation bus J Q) (h : Q s s') (ha : a.Like J a')
    (ho : OutOfBounds s a) : OutOfBounds s' a' := by
  cases ho with
  | @resume addr v hr hv hmen hready hcs =>
    rcases a' with addr' | ⟨addr', v'⟩
    · exact ha.elim
    · obtain ⟨rfl, hJ⟩ := ha
      rw [if_pos hr] at hJ
      have hcmd := hQ.command hJ h
      obtain ⟨hb, hpcs⟩ := hQ.command_eq h hJ
      refine .resume hr (hb.trans_ne hv) ((hQ.men_eq h).trans hmen)
        ((hQ.ready_iff hcmd).2 hready) ?_
      rwa [hQ.asserts_eq hcmd, hpcs]
  | @send addr v hr hmen hroom hready hcs =>
    rcases a' with addr' | ⟨addr', v'⟩
    · exact ha.elim
    · obtain ⟨rfl, hv⟩ := ha
      rw [if_neg (by rw [hr]; decide)] at hv
      subst hv
      have hq := hQ.queued v h hroom
      refine .send hr ((hQ.men_eq h).trans hmen) (by rwa [hQ.room_eq h])
        ((hQ.ready_iff hq).2 hready) ?_
      rwa [hQ.asserts_eq hq, hQ.pcs_eq h]

/-- A command whose frames have no bytes stops both devices the same way. -/
theorem access_of_not_framed (hQ : Simulation bus J Q) (h : Q s s') (ha : a.Like J a')
    (hnot : ¬a.Framed) : ∃ e, access bus s a = .error e ∧ access bus s' a' = .error e := by
  obtain ⟨addr, v, rfl, hr, hv⟩ := exists_of_not_framed hnot
  rcases a' with addr' | ⟨addr', v'⟩
  · exact ha.elim
  · obtain ⟨rfl, hJ⟩ := ha
    rw [if_pos hr] at hJ
    obtain ⟨hb, hpcs⟩ := hQ.command_eq h hJ
    refine ⟨_, access_of_eq_zero hr hv, ?_⟩
    rw [access_of_eq_zero hr (hb.trans hv), hQ.men_eq h, hQ.txNum_eq h,
      hQ.asserts_eq (hQ.command hJ h), hpcs]

/-- **Simulation, access by access.** Two settled devices in related states, on accesses
    that are alike, have related effects, or stop the same way. -/
theorem access (hQ : Simulation bus J Q) (hs : Settled s) (hs' : Settled s') (h : Q s s')
    (ha : a.Like J a') :
    (∃ o u o' u', Effect bus s a o u ∧ Effect bus s' a' o' u' ∧ Q u u' ∧ SameValue u u' a o o' ∧
      Lpspi.access bus s a = .ok (⟨o, u.calls⟩, { u with calls := [] }) ∧
      Lpspi.access bus s' a' = .ok (⟨o', u'.calls⟩, { u' with calls := [] })) ∨
    ∃ e, Lpspi.access bus s a = .error e ∧ Lpspi.access bus s' a' = .error e := by
  by_cases hframed : a.Framed
  · rcases exists_effect bus s hframed with ⟨o, u, he⟩ | ho
    · obtain ⟨o', u', he', hu, hval⟩ := hQ.effect h ha he
      exact .inl ⟨o, u, o', u', he, he', hu, hval, he.access_eq hs.bytes_ne_zero,
        he'.access_eq hs'.bytes_ne_zero⟩
    · exact .inr ⟨_, ho.access_eq hs.bytes_ne_zero,
        (hQ.outOfBounds h ha ho).access_eq hs'.bytes_ne_zero⟩
  · exact .inr (hQ.access_of_not_framed h ha hframed)

end Simulation

end S32K358.Lpspi
