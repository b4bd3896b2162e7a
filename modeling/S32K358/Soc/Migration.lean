import S32K358.Lpspi.Sensor
import S32K358.Lpspi.Simulation
import S32K358.Lpuart.Interrupt

/-!
# Saving and loading the state of a device

The migration framework saves the fields that the `VMStateDescription` of a device lists,
and loads them into a device that has just been reset. The LPSPI has one
(`Lpspi.save`, `Lpspi.load`); it does not list the frequency of the clock, the levels
driven on lines, and what is on the bus. The LPUART and the sensor have none.

Two devices that differ in the frequency and in the levels only (`SameRegs`), with
peripherals that cannot be told apart on their buses, answer the same, now and later: no
access reads these fields back.
-/

namespace S32K358.Lpspi

variable {n : ℕ} {β : Type} {bus : SsiBus β} {s s' t : State n β} {a : Access} {w : BitVec 32}

/-! ## The LPSPI -/

/-- The fields of `vmstate_nxps32k358_lpspi`, but for the number of chip selects, which is
    fixed. -/
structure VmState where
  txFifo : Fifo8 fifoByteCapacity
  rxFifo : Fifo8 fifoByteCapacity
  busy : Bool
  txWatermark : ℕ
  rxWatermark : ℕ
  frameSize : ℕ
  continuousMode : Bool
  verid : BitVec 32
  param : BitVec 32
  cr : BitVec 32
  sr : BitVec 32
  ier : BitVec 32
  der : BitVec 32
  cfgr0 : BitVec 32
  cfgr1 : BitVec 32
  ccr : BitVec 32
  ccr1 : BitVec 32
  fcr : BitVec 32
  fsr : BitVec 32
  tcr : BitVec 32
  tdr : BitVec 32
  rsr : BitVec 32
  rdr : BitVec 32

def save (s : State n β) : VmState := { s with }

/-- The fields are loaded into the device `s`. -/
def load (s : State n β) (v : VmState) : State n β := { v, s with }

/-- The peripherals related by `R` answer the same, and stay related, whatever they see. -/
structure SsiBus.Respects (bus : SsiBus β) (R : β → β → Prop) : Prop where
  transfer {d d' : β} (w : BitVec 32) : R d d' → (bus.transfer d' w).1 = (bus.transfer d w).1 ∧
    R (bus.transfer d w).2 (bus.transfer d' w).2
  setCs {d d' : β} (line : ℕ) (level : Bool) : R d d' →
    R (bus.setCs d line level) (bus.setCs d' line level)

/-- The states differ at most in the frequency of the clock, the levels driven on lines,
    and the calls, and what is on their buses is related by `R`. -/
def SameRegs (R : β → β → Prop) (s s' : State n β) : Prop :=
  ∃ k q c d l, R s.ssi d ∧ s' = { s with clk := k, irq := q, csLines := c, ssi := d, calls := l }

variable {R : β → β → Prop}

/-- What is saved is loaded. -/
theorem sameRegs_load (h : R s.ssi s'.ssi) : SameRegs R s (load s' (save s)) :=
  ⟨s'.clk, s'.irq, s'.csLines, s'.ssi, s'.calls, h, rfl⟩

/-- A device stays settled if the frequency, the levels and the bus are replaced. -/
theorem Settled.replace (hs : Settled s) (k : ℕ) (q : Bool) (c : Vector Bool n) (d : β)
    {l : List (Call n)} (hl : l = []) :
    Settled { s with clk := k, irq := q, csLines := c, ssi := d, calls := l } where
  bytes_ne_zero := hs.bytes_ne_zero
  status_eq := congrArg (fun u : State n β =>
    { u with clk := k, irq := q, csLines := c, ssi := d, calls := l }) hs.status_eq
  txWatermark_eq := hs.txWatermark_eq
  rxWatermark_eq := hs.rxWatermark_eq
  calls_eq := hl

theorem SameRegs.map {f : State n β → State n β} (h : SameRegs R s s')
    (hf : ∀ k q c d l, R s.ssi d →
      SameRegs R (f s) (f { s with clk := k, irq := q, csLines := c, ssi := d, calls := l })) :
    SameRegs R (f s) (f s') := by
  obtain ⟨k, q, c, d, l, hd, rfl⟩ := h
  exact hf k q c d l hd

theorem SameRegs.status (h : SameRegs R s s') : SameRegs R (status s) (status s') :=
  h.map fun _ _ _ _ _ hd => ⟨_, _, _, _, _, hd, rfl⟩

theorem SameRegs.settle (h : SameRegs R s s') : SameRegs R (settle s) (settle s') :=
  h.status.map (f := fun s => setIrq s (irqLevel s)) fun _ _ _ _ _ hd => ⟨_, _, _, _, _, hd, rfl⟩

theorem SameRegs.updateClockConfig (h : SameRegs R s s') :
    SameRegs R (updateClockConfig s) (updateClockConfig s') :=
  h.map fun _ _ _ _ _ hd => ⟨_, _, _, _, _, hd, rfl⟩

/-- A line that may be driven. -/
theorem SsiBus.Respects.ite_setCs (hR : bus.Respects R) {d d' : β} (h : R d d') (p : Prop)
    [Decidable p] (line : ℕ) (level : Bool) :
    R (if p then bus.setCs d line level else d) (if p then bus.setCs d' line level else d') := by
  split_ifs
  · exact hR.setCs line level h
  · exact h

theorem SameRegs.asserted (hR : bus.Respects R) (h : SameRegs R s s') :
    SameRegs R (asserted bus s) (asserted bus s') :=
  h.map fun _ _ _ _ _ hd => ⟨_, _, _, _, _, hR.ite_setCs hd _ _ _, rfl⟩

theorem SameRegs.answer (hR : bus.Respects R) (h : SameRegs R s s') (w : BitVec 32) :
    (answer bus s' w).1 = (answer bus s w).1 ∧
      R (Lpspi.answer bus s w).2 (Lpspi.answer bus s' w).2 := by
  obtain ⟨k, q, c, d, l, hd, rfl⟩ := h
  simp only [Lpspi.answer]
  split_ifs
  · exact ⟨rfl, hd⟩
  · exact hR.transfer w hd

theorem SameRegs.exchanged (hR : bus.Respects R) (h : SameRegs R s s') :
    SameRegs R (exchanged bus s) (exchanged bus s') := by
  obtain ⟨hvalue, hbus⟩ := h.answer hR (txWord s)
  obtain ⟨k, q, c, d, l, hd, rfl⟩ := h
  refine ⟨k, q, c, _, l ++ [.exchange ⟨txWord s, (Lpspi.answer bus s (txWord s)).1,
    loopback s.cfgr1, s.tcr, s.cfgr1, c⟩], hbus, ?_⟩
  rw [← hvalue]
  simp only [Lpspi.exchanged, ← hvalue]
  rfl

theorem SameRegs.released (hR : bus.Respects R) (h : SameRegs R s s') :
    SameRegs R (released bus s) (released bus s') :=
  h.map fun _ _ _ _ _ hd => ⟨_, _, _, _, _, hR.ite_setCs hd _ _ _, rfl⟩

theorem SameRegs.sendFrame (hR : bus.Respects R) (h : SameRegs R s s') :
    SameRegs R (sendFrame bus s) (sendFrame bus s') :=
  ((((h.asserted hR).exchanged hR).status).released hR).settle

theorem SameRegs.command (h : SameRegs R s s') (v : BitVec 32) :
    SameRegs R (command s v) (command s' v) :=
  h.map (f := (Lpspi.command · v)) fun _ _ _ _ _ hd => ⟨_, _, _, _, _, hd, rfl⟩

theorem SameRegs.queued (h : SameRegs R s s') (v : BitVec 32) :
    SameRegs R (queued s v) (queued s' v) :=
  h.map (f := (Lpspi.queued · v)) fun _ _ _ _ _ hd => ⟨_, _, _, _, _, hd, rfl⟩

/-- All lines are driven high. -/
theorem SsiBus.Respects.foldl_setCs (hR : bus.Respects R) (lines : List ℕ) {d d' : β}
    (h : R d d') :
    R (lines.foldl (fun ssi i => bus.setCs ssi i true) d)
      (lines.foldl (fun ssi i => bus.setCs ssi i true) d') := by
  induction lines generalizing d d' with
  | nil => exact h
  | cons i lines ih => exact ih (hR.setCs i true h)

theorem SameRegs.afterReset (hR : bus.Respects R) (h : SameRegs R s s') :
    SameRegs R (afterReset bus s) (afterReset bus s') :=
  (h.map (f := fun s => raised bus (resetRegs s)) fun _ _ _ _ _ hd =>
    ⟨_, _, _, _, _, hR.foldl_setCs _ hd, rfl⟩).updateClockConfig.settle

theorem SameRegs.configure (h : SameRegs R s s') {v : BitVec 32} {r : Reg}
    (ht : configure s v r = some t) :
    ∃ t', Lpspi.configure s' v r = some t' ∧ SameRegs R t t' := by
  obtain ⟨k, q, c, d, l, hd, rfl⟩ := h
  cases r <;> simp only [Lpspi.configure, reduceCtorEq, Option.some.injEq] at ht <;> subst ht <;>
    exact ⟨_, rfl, _, _, _, _, _, hd, rfl⟩

theorem SameRegs.peek (h : SameRegs R s s') (r : Option Reg) : peek s' r = peek s r := by
  obtain ⟨k, q, c, d, l, -, rfl⟩ := h
  rcases r with _ | r
  · rfl
  · cases r <;> rfl

theorem SameRegs.taken (h : SameRegs R s s') : SameRegs R (taken s) (taken s') :=
  h.map fun _ _ _ _ _ hd => ⟨_, _, _, _, _, hd, rfl⟩

/-- No access depends on the fields that differ. -/
theorem simulation_sameRegs (hR : bus.Respects R) :
    Simulation (n := n) bus Eq (SameRegs R) where
  cr_eq := fun ⟨_, _, _, _, _, _, h⟩ => h ▸ rfl
  bytes_eq := fun ⟨_, _, _, _, _, _, h⟩ => h ▸ rfl
  pcs_eq := fun ⟨_, _, _, _, _, _, h⟩ => h ▸ rfl
  txNum_eq := fun ⟨_, _, _, _, _, _, h⟩ => h ▸ rfl
  rxNum_eq := fun ⟨_, _, _, _, _, _, h⟩ => h ▸ rfl
  ready_iff := fun ⟨_, _, _, _, _, _, h⟩ => h ▸ Iff.rfl
  asserts_eq := fun ⟨_, _, _, _, _, _, h⟩ => h ▸ rfl
  rxWord_eq := fun ⟨_, _, _, _, _, _, h⟩ => h ▸ rfl
  status := SameRegs.status
  settle := SameRegs.settle
  updateClockConfig := SameRegs.updateClockConfig
  sendFrame h _ := h.sendFrame hR
  taken := SameRegs.taken
  afterReset := SameRegs.afterReset hR
  command := by
    rintro s s' v _ rfl h
    exact h.command v
  queued v h _ := h.queued v
  writeCr v h := h.map (f := (writeCr · v)) fun _ _ _ _ _ hd => ⟨_, _, _, _, _, hd, rfl⟩
  writeFcr v h := h.map (f := (writeFcr · v)) fun _ _ _ _ _ hd => ⟨_, _, _, _, _, hd, rfl⟩
  setSr f h := h.map (f := fun s => { s with sr := f s.sr }) fun _ _ _ _ _ hd =>
    ⟨_, _, _, _, _, hd, rfl⟩
  configure h hc := h.configure hc

theorem SameRegs.value_eq (h : SameRegs R s s') {v v' : Option (BitVec 32)}
    (hval : Simulation.SameValue s s' a v v') : v = v' := by
  rcases hval with hval | ⟨addr, -, rfl, rfl⟩
  · exact hval
  · rw [h.peek]

/-- The words handed to the bus among some calls. -/
def words (l : List (Call n)) : List (BitVec 32) :=
  ((exchanges l).filter (!·.loopback)).map (·.txData)

theorem SameRegs.symm (h : SameRegs R s s') : SameRegs (flip R) s' s := by
  obtain ⟨k, q, c, d, l, hd, rfl⟩ := h
  exact ⟨s.clk, s.irq, s.csLines, s.ssi, s.calls, hd, rfl⟩

theorem SameRegs.sending {x : State n β} (h : SameRegs R s s') (hx : sending s a = some x) :
    ∃ x', Lpspi.sending s' a = some x' ∧ SameRegs R x x' := by
  obtain ⟨addr, v, rfl, hmen, hready, ⟨hr, rfl⟩ | ⟨hr, rfl, hroom⟩⟩ := sending_eq_some hx
  · refine ⟨Lpspi.command s' v, ?_, h.command v⟩
    obtain ⟨k, q, c, d, l, -, rfl⟩ := h
    rw [sending_of_tcr hr]
    exact if_pos ⟨hmen, hready⟩
  · refine ⟨Lpspi.queued s' v, ?_, h.queued v⟩
    obtain ⟨k, q, c, d, l, -, rfl⟩ := h
    rw [sending_of_tdr hr]
    exact if_pos ⟨hmen, hroom, hready⟩

/-- The same word is handed to the bus, if any. -/
theorem SameRegs.words_eq (h : SameRegs R s s') (a : Access) :
    (((Lpspi.sending s' a).toList.map (frame bus)).filter (!·.loopback)).map (·.txData) =
      (((Lpspi.sending s a).toList.map (frame bus)).filter (!·.loopback)).map (·.txData) := by
  cases hx : Lpspi.sending s a with
  | some x =>
    obtain ⟨x', hx', k, q, c, d, l, -, rfl⟩ := h.sending hx
    rw [hx']
    simp only [Option.toList_some, List.map_cons, List.map_nil, List.filter_cons, List.filter_nil]
    change List.map _ (if (!loopback x.cfgr1) = true then _ else _) =
      List.map _ (if (!loopback x.cfgr1) = true then _ else _)
    split_ifs <;> rfl
  | none =>
    cases hx' : Lpspi.sending s' a with
    | none => rfl
    | some x' =>
      obtain ⟨x, hx'', -⟩ := h.symm.sending hx'
      rw [hx] at hx''
      exact absurd hx'' (by simp)

/-- **What is saved is enough.** Two LPSPIs that differ at most in the frequency and in
    levels, with peripherals that answer the same, give the same values, hand the same words
    to the bus, or stop the same way, and differ no more afterwards. -/
theorem sameRegs_access (hR : bus.Respects R) (hs : Settled s) (hs' : Settled s')
    (h : SameRegs R s s') (a : Access) :
    (∃ r t r' t', access bus s a = .ok (r, t) ∧ access bus s' a = .ok (r', t') ∧
      r.value = r'.value ∧ words r.calls = words r'.calls ∧ SameRegs R t t') ∨
    ∃ e, access bus s a = .error e ∧ access bus s' a = .error e := by
  have hstep := (simulation_sameRegs hR).access hs hs' h (a.like_refl fun _ => rfl)
  refine hstep.imp_left ?_
  rintro ⟨v, u, v', u', he, he', hsame, hval, hok, hok'⟩
  refine ⟨_, _, _, _, hok, hok', hsame.value_eq hval, ?_, ?_⟩
  · rw [words, words, he.exchanges_eq, he'.exchanges_eq, hs.calls_eq, hs'.calls_eq]
    exact (h.words_eq a).symm
  · obtain ⟨k, q, c, d, l, hd, rfl⟩ := hsame
    exact ⟨k, q, c, d, [], hd, rfl⟩

/-! ## What is on the bus -/

/-- The device is reset and enabled, a word is sent, and the answer read. -/
def probe (w : BitVec 32) : List Access :=
  [.write 0x10 crRst, .write 0x10 crMen, .write 0x64 w, .read 0x74]

/-- The device after its reset, enabled. -/
def probing (bus : SsiBus β) (s : State n β) : State n β :=
  { settle (writeCr { afterReset bus s with calls := [] } crMen) with calls := [] }

theorem reset_effect (bus : SsiBus β) (s : State n β) :
    Effect bus s (.write 0x10 crRst) none (afterReset bus s) := .reset rfl (by decide)

theorem enable_effect (bus : SsiBus β) (s : State n β) :
    Effect bus s (.write 0x10 crMen) none (settle (writeCr s crMen)) := .control rfl (by decide)

/-- The device is ready to send frames of a word. -/
theorem aligned_probing (bus : SsiBus β) (hs : Settled s) (hn : 1 ≤ n) :
    Aligned 4 false (probing bus s) where
  settled := (enable_effect bus _).settled ((reset_effect bus s).settled hs)
  bytes_eq := (by decide : bytesPerFrame 0x1F#32 = 4)
  lsbf_eq := (by decide : lsbf 0x1F#32 = false)
  rxmsk_eq := (by decide : rxmsk 0x1F#32 = false)
  pcs_lt := (show pcs 0x1F#32 = 0 by decide).trans_lt hn
  tx_dvd := dvd_zero 4
  rx_dvd := dvd_zero 4

theorem men_probing : Bits.any (probing bus s).cr crMen = true := by
  change Bits.any (crMen &&& ~~~(crRst ||| crRtf ||| crRrf)) crMen = true
  decide

/-- Both FIFOs are empty, and have room for a frame. -/
theorem room_probing :
    (probing bus s).txFifo.num + bytesPerFrame (probing bus s).tcr ≤ fifoByteCapacity := by
  change 0 + bytesPerFrame 0x1F#32 ≤ fifoByteCapacity
  decide

theorem ready_probing (v : BitVec 32) : Ready (queued (probing bus s) v) := by
  have hroom : (probing bus s).txFifo.num + bytesPerFrame (probing bus s).tcr ≤
      fifoByteCapacity := room_probing
  refine ⟨?_, fun _ => hroom⟩
  rw [num_txFifo_queued hroom]
  exact Nat.le_add_left _ _

theorem send_effect (bus : SsiBus β) (s : State n β) (w : BitVec 32) (hn : 1 ≤ n) :
    Effect bus (probing bus s) (.write 0x64 w) none
      (settle (sendFrame bus (queued (probing bus s) w))) := by
  have hpcs : pcs (probing bus s).tcr = 0 := (by decide : pcs 0x1F#32 = 0)
  refine .send rfl men_probing room_probing (ready_probing _) fun h => ?_
  rw [hpcs] at h
  omega

theorem sending_probing (w : BitVec 32) : sending (probing bus s) (.write 0x64 w) =
    some (queued (probing bus s) w) := by
  rw [sending_of_tdr rfl, if_pos ⟨men_probing, room_probing, ready_probing _⟩]

/-- The frame exchanged while probing. -/
theorem exchanges_probing (hn : 1 ≤ n) :
    exchanges (settle (sendFrame bus (queued (probing bus s) w))).calls =
      [frame bus (queued (probing bus s) w)] := by
  rw [(send_effect bus s w hn).exchanges_eq, sending_probing]
  rfl

/-- The word sent is the one written. -/
theorem txData_probing (hs : Settled s) (hn : 1 ≤ n) :
    (frame bus (queued (probing bus s) w)).txData = w := by
  have hal := aligned_probing bus hs hn
  have hacc : accepts (probing bus s) (.write 0x64 w) = some w :=
    if_pos ⟨rfl, men_probing, room_probing⟩
  have hempty : fifoWords false 4 (probing bus s).txFifo = [] := fifoWords_of_num_eq_zero rfl
  have hdata : Access.Data (.write 0x64 w) := rfl
  have htx := (send_effect bus s w hn).conserves_tx hal hdata.transfers (probing bus s)
  rw [hempty, accepted_eq hal.bytes_eq, hacc, handed, exchanges_probing hn] at htx
  exact BitVec.eq_of_toNat_eq ((List.cons.inj htx).1.symm.trans (Nat.mod_eq_of_lt w.isLt))

/-- The answer to it is that of the bus. -/
theorem answer_probing (hcs : bus.Unselected) (hs : Settled s) (hn : 1 ≤ n) :
    answer bus (queued (probing bus s) w) (txWord (queued (probing bus s) w)) =
      bus.transfer s.ssi w := by
  have hssi : (probing bus s).ssi = s.ssi := ssi_afterReset hcs
  have hword : txWord (queued (probing bus s) w) = w := txData_probing hs hn
  have hloop : loopback (queued (probing bus s) w).cfgr1 = false :=
    (by decide : loopback 0#32 = false)
  rw [hword, answer, hloop, if_neg Bool.false_ne_true, ← hssi]
  rfl

/-- The RX FIFO holds the answer after the word has been sent. -/
theorem rxWord_probing (hcs : bus.Unselected) (hs : Settled s) (hn : 1 ≤ n) {p : State n β}
    (hp : settle (sendFrame bus (queued (probing bus s) w)) = p) :
    p.rxFifo.num ≠ 0 ∧ rxWord { p with calls := [] } = (bus.transfer s.ssi w).1 := by
  have hal := aligned_probing bus hs hn
  have hdata : Access.Data (.write 0x64 w) := rfl
  have hsend := send_effect bus s w hn
  have hex : exchanges (settle (sendFrame bus (queued (probing bus s) w))).calls =
      [frame bus (queued (probing bus s) w)] := exchanges_probing hn
  rw [hp] at hsend hex
  have hal' : Aligned 4 false { p with calls := [] } := hsend.aligned hal hdata.transfers
  have hheld : fifoWords false 4 p.rxFifo = [(bus.transfer s.ssi w).1.toNat] := by
    have hempty : fifoWords false 4 (probing bus s).rxFifo = [] := fifoWords_of_num_eq_zero rfl
    have hrx := hsend.conserves_rx hal hdata.transfers (probing bus s)
    rw [hempty, answered, hex] at hrx
    rw [← answer_probing hcs hs hn, ← rxData_frame hcs, ← Nat.mod_eq_of_lt (BitVec.isLt _)]
    exact hrx.symm
  have hnum : p.rxFifo.num ≠ 0 := by
    intro hzero
    rw [fifoWords_of_num_eq_zero hzero] at hheld
    exact absurd hheld (by simp)
  refine ⟨hnum, ?_⟩
  have hle : 4 ≤ p.rxFifo.num := Nat.le_of_dvd (Nat.pos_of_ne_zero hnum) hal'.rx_dvd
  rw [fifoWords_popN (by decide) hle] at hheld
  refine BitVec.eq_of_toNat_eq (Eq.trans ?_ (List.cons.inj hheld).1)
  rw [rxWord, hal'.bytes_eq, hal'.lsbf_eq]

/-- Probing reads what the bus answers. -/
theorem run_probe (hcs : bus.Unselected) (hs : Settled s) (hn : 1 ≤ n) (w : BitVec 32) :
    ∃ h t, run bus s (probe w) = .ok (h, t) ∧
      h.map (·.output.value) = [none, none, none, some (bus.transfer s.ssi w).1] ∧
      t.ssi = (bus.transfer s.ssi w).2 := by
  have hal := aligned_probing bus hs hn
  have hreset := (reset_effect bus s).access_eq hs.bytes_ne_zero
  have henable := (enable_effect bus { afterReset bus s with calls := [] }).access_eq
    ((reset_effect bus s).settled hs).bytes_ne_zero
  have hsend := send_effect bus s w hn
  have hssi := hsend.ssi_eq hcs
  rw [sending_probing, Option.elim_some, answer_probing hcs hs hn] at hssi
  generalize hp : settle (sendFrame bus (queued (probing bus s) w)) = p at hsend hssi
  obtain ⟨hnum, hword⟩ := rxWord_probing hcs hs hn hp
  have htake : Effect bus { p with calls := [] } (.read 0x74) _ _ := .take rfl hnum
  rw [hword] at htake
  have hpost := (htake.ssi_eq hcs).trans hssi
  have hset : Settled { p with calls := [] } := hsend.settled hal.settled
  exact ⟨_, _, Mealy.run_cons_of_ok hreset (Mealy.run_cons_of_ok henable
    (Mealy.run_cons_of_ok (hsend.access_eq hal.settled.bytes_ne_zero)
      (Mealy.run_cons_of_ok (htake.access_eq hset.bytes_ne_zero) rfl))), rfl, hpost⟩

end S32K358.Lpspi

namespace S32K358.Lpuart

variable {s s' : State}

/-! ## The LPUART -/

/-- The states differ at most in the frequency of the clock, the level driven on the
    interrupt line, and the calls. -/
def SameRegs (s s' : State) : Prop := ∃ k q l, s' = { s with clk := k, irq := q, calls := l }

theorem SameRegs.map {f : State → State} (h : SameRegs s s')
    (hf : ∀ k q l, SameRegs (f s) (f { s with clk := k, irq := q, calls := l })) :
    SameRegs (f s) (f s') := by
  obtain ⟨k, q, l, rfl⟩ := h
  exact hf k q l

theorem SameRegs.updateIrq (h : SameRegs s s') : SameRegs (updateIrq s) (updateIrq s') :=
  h.map fun _ _ _ => ⟨_, _, _, rfl⟩

theorem SameRegs.receive (h : SameRegs s s') (buf : List (BitVec 8)) :
    SameRegs (receive s buf) (receive s' buf) := by
  have hsame := h
  obtain ⟨k, q, l, rfl⟩ := hsame
  cases buf with
  | nil => exact h
  | cons c buf =>
    cases hre : Bits.any s.cr ctrlRe with
    | true =>
      rw [receive_of_re hre, receive_of_re (s := { s with clk := k, irq := q, calls := l }) hre]
      exact ⟨_, _, _, rfl⟩
    | false =>
      simp only [Lpuart.receive, hre, Bool.not_false, if_true]
      exact h

theorem SameRegs.dr_eq (h : SameRegs s s') : s'.dr = s.dr := by
  obtain ⟨k, q, l, rfl⟩ := h
  rfl

theorem SameRegs.canReceive (h : SameRegs s s') : canReceive s' = canReceive s := by
  obtain ⟨k, q, l, rfl⟩ := h
  rfl

theorem SameRegs.acceptInput (h : SameRegs s s') (l : List (BitVec 8)) :
    (acceptInput s' l).1 = (acceptInput s l).1 ∧
      SameRegs (Lpuart.acceptInput s l).2 (Lpuart.acceptInput s' l).2 := by
  induction l generalizing s s' with
  | nil => exact ⟨rfl, h⟩
  | cons c l ih =>
    obtain ⟨hd, ht⟩ := ih (h.receive [c])
    rw [Lpuart.acceptInput, Lpuart.acceptInput, h.canReceive]
    split
    · exact ⟨congrArg (c :: ·) hd, ht⟩
    · exact ⟨rfl, h⟩

theorem SameRegs.read (h : SameRegs s s') (offset : ℕ) (l : List (BitVec 8)) :
    (read s' offset l).1 = (read s offset l).1 ∧
      (Lpuart.read s' offset l).2.1 = (Lpuart.read s offset l).2.1 ∧
      SameRegs (Lpuart.read s offset l).2.2 (Lpuart.read s' offset l).2.2 := by
  have hsame := h
  obtain ⟨k, q, m, rfl⟩ := hsame
  simp only [Lpuart.read]
  cases Reg.ofOffset? offset with
  | none => exact ⟨rfl, rfl, h⟩
  | some r =>
    cases r with
    | global | baud | stat | ctrl => exact ⟨rfl, rfl, h⟩
    | data =>
      have hclear : SameRegs { s with sr := s.sr &&& ~~~statRdrf }
          { s with sr := s.sr &&& ~~~statRdrf, clk := k, irq := q, calls := m } := ⟨k, q, m, rfl⟩
      obtain ⟨hd, ht⟩ := hclear.acceptInput l
      exact ⟨ht.updateIrq.dr_eq, hd, ht.updateIrq⟩

theorem SameRegs.write (h : SameRegs s s') (offset : ℕ) (value : BitVec 32) :
    SameRegs (write s offset value) (write s' offset value) := by
  have hsame := h
  obtain ⟨k, q, m, rfl⟩ := hsame
  simp only [Lpuart.write]
  cases Reg.ofOffset? offset with
  | none => exact h
  | some r =>
    cases r with
    | baud | ctrl => exact ⟨_, _, _, rfl⟩
    | global | stat =>
      dsimp only
      split_ifs <;> exact ⟨_, _, _, rfl⟩
    | data =>
      dsimp only
      split_ifs
      · exact ⟨_, _, _, rfl⟩
      · exact h

/-- Two LPUARTs that differ at most in the frequency and in the level of the line give the
    same values, and differ no more afterwards. -/
theorem sameRegs_after (h : SameRegs s s') (i : Stimulus) :
    result s' i = result s i ∧
      SameRegs { after s i with calls := [] } { after s' i with calls := [] } := by
  have hafter : result s' i = result s i ∧ SameRegs (after s i) (after s' i) := by
    rcases i with (⟨offset, l⟩ | ⟨offset, value⟩ | l | _) | buf
    · obtain ⟨hv, hd, ht⟩ := h.read offset l
      exact ⟨by rw [result, result, hv, hd], ht⟩
    · exact ⟨rfl, h.write offset value⟩
    · obtain ⟨hd, ht⟩ := h.acceptInput l
      exact ⟨by rw [result, result, hd], ht⟩
    · exact ⟨rfl, h.map (f := reset) fun _ _ _ => ⟨_, _, _, rfl⟩⟩
    · exact ⟨rfl, h.receive buf⟩
  obtain ⟨hres, k, q, l, ht⟩ := hafter
  exact ⟨hres, k, q, [], by rw [ht]⟩

end S32K358.Lpuart
