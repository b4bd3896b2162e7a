import S32K358.Lpspi.Simulation

/-!
# The LPSPI: the reset by software

A write of `CR` with `RST` set leaves the device as it was at power on, but for what is
left in the cells of the FIFOs, which is never read back, and for the peripherals on the
bus, which keep their state.

Two devices that differ in these only (`Agree`) cannot be told apart, as long as their
peripherals answer alike (`SsiBus.Alike`): they are in a simulation
(`simulation_agree`), and so are a device that has been reset and one that has just been
powered on (`reset_powerOn`).
-/

namespace S32K358.Lpspi

variable {n : ℕ} {β : Type} {bus : SsiBus β}

/-! ## Peripherals that answer alike -/

/-- What the peripherals on a bus see of the device. -/
inductive SsiBus.Event
  | transfer (w : BitVec 32)
  | setCs (line : ℕ) (level : Bool)

/-- The answers of the peripherals to what they see. -/
def SsiBus.answers (bus : SsiBus β) : β → List SsiBus.Event → List (BitVec 32)
  | _, [] => []
  | d, .transfer w :: l => (bus.transfer d w).1 :: bus.answers (bus.transfer d w).2 l
  | d, .setCs line level :: l => bus.answers (bus.setCs d line level) l

/-- The peripherals give the same answers, whatever they see. -/
def SsiBus.Alike (bus : SsiBus β) (d d' : β) : Prop := ∀ l, bus.answers d l = bus.answers d' l

variable {d d' : β}

theorem SsiBus.Alike.transfer (h : bus.Alike d d') (w : BitVec 32) :
    (bus.transfer d' w).1 = (bus.transfer d w).1 ∧
      bus.Alike (bus.transfer d w).2 (bus.transfer d' w).2 :=
  ⟨(List.cons.inj (h [.transfer w])).1.symm, fun l => (List.cons.inj (h (.transfer w :: l))).2⟩

theorem SsiBus.Alike.setCs (h : bus.Alike d d') (line : ℕ) (level : Bool) :
    bus.Alike (bus.setCs d line level) (bus.setCs d' line level) := fun l =>
  h (.setCs line level :: l)

/-- The chip-select lines are driven high one after the other. -/
theorem SsiBus.Alike.foldl (h : bus.Alike d d') (lines : List ℕ) :
    bus.Alike (lines.foldl (fun d i => bus.setCs d i true) d)
      (lines.foldl (fun d i => bus.setCs d i true) d') := by
  induction lines generalizing d d' with
  | nil => exact h
  | cons i lines ih => exact ih (h.setCs i true)

/-! ## States that cannot be told apart -/

/-- The states differ at most in the unused cells of the FIFOs, and in the peripherals,
    which answer alike. -/
structure Agree (bus : SsiBus β) (s s' : State n β) : Prop where
  rest : s' = { s with txFifo := s'.txFifo, rxFifo := s'.rxFifo, ssi := s'.ssi }
  tx : s'.txFifo.contents = s.txFifo.contents
  rx : s'.rxFifo.contents = s.rxFifo.contents
  ssi : bus.Alike s.ssi s'.ssi

variable {s s' t : State n β}

theorem num_eq_of_contents {c : ℕ} {f g : Fifo8 c} (h : f.contents = g.contents) :
    f.num = g.num := by
  rw [← f.length_contents, h, g.length_contents]

theorem isEmpty_eq_of_contents {c : ℕ} {f g : Fifo8 c} (h : f.contents = g.contents) :
    fifo8IsEmpty f = fifo8IsEmpty g := by
  rw [Bool.eq_iff_iff, fifo8IsEmpty_eq_true, fifo8IsEmpty_eq_true, num_eq_of_contents h]

theorem Agree.exists_eq (h : Agree bus s s') :
    ∃ f g d, s' = { s with txFifo := f, rxFifo := g, ssi := d } := ⟨_, _, _, h.rest⟩

theorem Agree.txNum_eq (h : Agree bus s s') : s'.txFifo.num = s.txFifo.num :=
  num_eq_of_contents h.tx

theorem Agree.rxNum_eq (h : Agree bus s s') : s'.rxFifo.num = s.rxFifo.num :=
  num_eq_of_contents h.rx

/-- Updates that have nothing to do with the FIFOs and the bus. -/
theorem Agree.map (h : Agree bus s s') {F : State n β → State n β}
    (hF : ∀ f g d, F { s with txFifo := f, rxFifo := g, ssi := d } =
      { F s with txFifo := f, rxFifo := g, ssi := d })
    (hkeep : ∀ s, (F s).txFifo = s.txFifo ∧ (F s).rxFifo = s.rxFifo ∧ (F s).ssi = s.ssi) :
    Agree bus (F s) (F s') where
  rest := by
    obtain ⟨htx, hrx, hssi⟩ := hkeep s'
    rw [htx, hrx, hssi, ← hF, ← h.rest]
  tx := by rw [(hkeep s').1, (hkeep s).1, h.tx]
  rx := by rw [(hkeep s').2.1, (hkeep s).2.1, h.rx]
  ssi := by
    rw [(hkeep s').2.2, (hkeep s).2.2]
    exact h.ssi

theorem Agree.status (h : Agree bus s s') : Agree bus (status s) (status s') where
  rest := by
    have htx := h.txNum_eq
    have hrx := h.rxNum_eq
    obtain ⟨f, g, d, rfl⟩ := h.exists_eq
    dsimp only at htx hrx
    simp only [Lpspi.status, statusSr, txWords, rxWords, htx, hrx]
    rfl
  tx := h.tx
  rx := h.rx
  ssi := h.ssi

theorem Agree.settle (h : Agree bus s s') : Agree bus (settle s) (settle s') :=
  h.status.map (F := fun s => setIrq s (irqLevel s)) (fun _ _ _ => rfl) fun _ => ⟨rfl, rfl, rfl⟩

theorem Agree.updateClockConfig (h : Agree bus s s') :
    Agree bus (updateClockConfig s) (updateClockConfig s') :=
  h.map (fun _ _ _ => rfl) fun _ => ⟨rfl, rfl, rfl⟩

theorem Agree.command (h : Agree bus s s') (v : BitVec 32) :
    Agree bus (command s v) (command s' v) :=
  h.map (F := (Lpspi.command · v)) (fun _ _ _ => rfl) fun _ => ⟨rfl, rfl, rfl⟩

theorem Agree.asserts (h : Agree bus s s') : asserts s' = asserts s := by
  rw [h.rest]
  rfl

theorem Agree.asserted (h : Agree bus s s') : Agree bus (asserted bus s) (asserted bus s') where
  rest := by
    obtain ⟨f, g, d, rfl⟩ := h.exists_eq
    rfl
  tx := h.tx
  rx := h.rx
  ssi := by
    have hssi := h.ssi
    obtain ⟨f, g, d, rfl⟩ := h.exists_eq
    simp only [Lpspi.asserted, h.asserts]
    split_ifs
    · exact hssi.setCs _ _
    · exact hssi

theorem Agree.txWord (h : Agree bus s s') : txWord s' = txWord s := by
  rw [Lpspi.txWord, Lpspi.txWord, h.tx, h.rest]

theorem Agree.rxWord (h : Agree bus s s') : rxWord s' = rxWord s := by
  rw [Lpspi.rxWord, Lpspi.rxWord, h.rx, h.rest]

/-- Words are answered the same, in the loopback as over the bus. -/
theorem Agree.answer (h : Agree bus s s') (w : BitVec 32) :
    (answer bus s' w).1 = (answer bus s w).1 ∧
      bus.Alike (answer bus s w).2 (answer bus s' w).2 := by
  have hcfgr1 : s'.cfgr1 = s.cfgr1 := by rw [h.rest]
  simp only [Lpspi.answer, hcfgr1]
  split_ifs
  · exact ⟨rfl, h.ssi⟩
  · exact h.ssi.transfer w

theorem Agree.ready (h : Agree bus s s') : Ready s' ↔ Ready s := by
  have htcr : s'.tcr = s.tcr := by rw [h.rest]
  rw [Ready, Ready, h.txNum_eq, h.rxNum_eq, htcr]

/-- The contents of the RX FIFO after an exchange, for which there is room. -/
theorem contents_rxFifo_exchanged (hready : Ready s) :
    (exchanged bus s).rxFifo.contents = if rxmsk s.tcr then s.rxFifo.contents else
      s.rxFifo.contents ++
        Frame.split (lsbf s.tcr) (bytesPerFrame s.tcr) (answer bus s (txWord s)).1 := by
  simp only [exchanged]
  cases hm : rxmsk s.tcr with
  | true => rfl
  | false =>
    rw [if_neg Bool.false_ne_true, if_neg Bool.false_ne_true, RingBuffer.contents_pushAll]
    rw [Frame.length_split]
    exact hready.2 hm

theorem Agree.exchanged (h : Agree bus s s') (hready : Ready s) :
    Agree bus (exchanged bus s) (exchanged bus s') where
  rest := by
    have hword := h.txWord
    have hans := (h.answer (Lpspi.txWord s)).1
    obtain ⟨f, g, d, rfl⟩ := h.exists_eq
    simp only [Lpspi.exchanged, hword, hans]
  tx := by
    have htcr : s'.tcr = s.tcr := by rw [h.rest]
    simp only [Lpspi.exchanged, RingBuffer.contents_popN, h.tx, htcr]
  rx := by
    have htcr : s'.tcr = s.tcr := by rw [h.rest]
    rw [contents_rxFifo_exchanged hready, contents_rxFifo_exchanged (h.ready.2 hready), h.txWord,
      (h.answer _).1, h.rx, htcr]
  ssi := by
    simp only [Lpspi.exchanged, h.txWord]
    exact (h.answer _).2

theorem Agree.releases (h : Agree bus s s') : releases s' = releases s := by
  have hempty := isEmpty_eq_of_contents h.tx
  rw [Lpspi.releases, Lpspi.releases, hempty, h.rest]

theorem Agree.released (h : Agree bus s s') : Agree bus (released bus s) (released bus s') where
  rest := by
    have hempty := isEmpty_eq_of_contents h.tx
    have hrel := h.releases
    obtain ⟨f, g, d, rfl⟩ := h.exists_eq
    dsimp only at hempty
    simp only [Lpspi.released, hrel, hempty]
  tx := h.tx
  rx := h.rx
  ssi := by
    have hssi := h.ssi
    obtain ⟨f, g, d, rfl⟩ := h.exists_eq
    simp only [Lpspi.released, h.releases]
    split_ifs
    · exact hssi.setCs _ _
    · exact hssi

theorem Agree.sendFrame (h : Agree bus s s') (hready : Ready s) :
    Agree bus (sendFrame bus s) (sendFrame bus s') :=
  (h.asserted.exchanged hready).status.released.settle

theorem Agree.taken (h : Agree bus s s') : Agree bus (taken s) (taken s') where
  rest := by
    have hword := h.rxWord
    obtain ⟨f, g, d, rfl⟩ := h.exists_eq
    simp only [Lpspi.taken, hword]
  tx := h.tx
  rx := by
    have htcr : s'.tcr = s.tcr := by rw [h.rest]
    simp only [Lpspi.taken, RingBuffer.contents_popN, h.rx, htcr]
  ssi := h.ssi

theorem Agree.queued (h : Agree bus s s') {v : BitVec 32}
    (hroom : s.txFifo.num + bytesPerFrame s.tcr ≤ fifoByteCapacity) :
    Agree bus (queued s v) (queued s' v) where
  rest := by
    obtain ⟨f, g, d, rfl⟩ := h.exists_eq
    rfl
  tx := by
    have htcr : s'.tcr = s.tcr := by rw [h.rest]
    have hroom' : s'.txFifo.num + bytesPerFrame s.tcr ≤ fifoByteCapacity := by rwa [h.txNum_eq]
    simp only [Lpspi.queued, htcr]
    rw [RingBuffer.contents_pushAll, RingBuffer.contents_pushAll, h.tx]
    · rwa [Frame.length_split]
    · rwa [Frame.length_split]
  rx := h.rx
  ssi := h.ssi

theorem Agree.writeCr (h : Agree bus s s') (v : BitVec 32) :
    Agree bus (writeCr s v) (writeCr s' v) where
  rest := by
    obtain ⟨f, g, d, rfl⟩ := h.exists_eq
    rfl
  tx := by
    simp only [Lpspi.writeCr]
    split_ifs
    · rfl
    · exact h.tx
  rx := by
    simp only [Lpspi.writeCr]
    split_ifs
    · rfl
    · exact h.rx
  ssi := h.ssi

theorem Agree.configure (h : Agree bus s s') {v : BitVec 32} {r : Reg}
    (ht : configure s v r = some t) :
    ∃ t', Lpspi.configure s' v r = some t' ∧ Agree bus t t' := by
  cases r <;> simp only [Lpspi.configure, reduceCtorEq, Option.some.injEq] at ht <;> subst ht
  case ier =>
    exact ⟨_, rfl, h.map (F := fun s => { s with ier := v }) (fun _ _ _ => rfl)
      fun _ => ⟨rfl, rfl, rfl⟩⟩
  case der =>
    exact ⟨_, rfl, h.map (F := fun s => { s with der := v }) (fun _ _ _ => rfl)
      fun _ => ⟨rfl, rfl, rfl⟩⟩
  case cfgr0 =>
    exact ⟨_, rfl, h.map (F := fun s => { s with cfgr0 := v }) (fun _ _ _ => rfl)
      fun _ => ⟨rfl, rfl, rfl⟩⟩
  case cfgr1 =>
    exact ⟨_, rfl, (h.map (F := fun s => { s with cfgr1 := v }) (fun _ _ _ => rfl)
      fun _ => ⟨rfl, rfl, rfl⟩).updateClockConfig⟩
  case ccr =>
    exact ⟨_, rfl, (h.map (F := fun s => { s with ccr := v }) (fun _ _ _ => rfl)
      fun _ => ⟨rfl, rfl, rfl⟩).updateClockConfig⟩
  case ccr1 =>
    exact ⟨_, rfl, (h.map (F := fun s => { s with ccr1 := v }) (fun _ _ _ => rfl)
      fun _ => ⟨rfl, rfl, rfl⟩).updateClockConfig⟩

theorem Agree.peek (h : Agree bus s s') (r : Option Reg) : peek s' r = peek s r := by
  obtain ⟨f, g, d, rfl⟩ := h.exists_eq
  rcases r with _ | r
  · rfl
  · cases r <;> rfl

/-- After a reset, all that is left of the past is the frequency of the clock, the calls,
    and the peripherals. -/
theorem agree_afterReset (hclk : s'.clk = s.clk) (hcalls : s'.calls = s.calls)
    (hssi : bus.Alike (afterReset bus s).ssi (afterReset bus s').ssi) :
    Agree bus (afterReset bus s) (afterReset bus s') where
  rest := by
    obtain ⟨clk⟩ := s
    obtain ⟨clk'⟩ := s'
    dsimp only at hclk hcalls
    subst hclk hcalls
    rfl
  tx := rfl
  rx := rfl
  ssi := hssi

theorem Agree.afterReset (h : Agree bus s s') :
    Agree bus (afterReset bus s) (afterReset bus s') :=
  agree_afterReset (by rw [h.rest]) (by rw [h.rest]) (h.ssi.foldl _)

/-- The states cannot be told apart. -/
theorem simulation_agree (bus : SsiBus β) : Simulation (n := n) bus Eq (Agree bus) where
  cr_eq h := by rw [h.rest]
  bytes_eq h := by rw [h.rest]
  pcs_eq h := by rw [h.rest]
  txNum_eq := Agree.txNum_eq
  rxNum_eq := Agree.rxNum_eq
  ready_iff := Agree.ready
  asserts_eq := Agree.asserts
  rxWord_eq := Agree.rxWord
  status := Agree.status
  settle := Agree.settle
  updateClockConfig := Agree.updateClockConfig
  sendFrame := Agree.sendFrame
  taken := Agree.taken
  afterReset := Agree.afterReset
  command := by
    rintro s s' v _ rfl h
    exact h.command v
  queued _ h := h.queued
  writeCr v h := h.writeCr v
  writeFcr v h := h.map (F := (writeFcr · v)) (fun _ _ _ => rfl) fun _ => ⟨rfl, rfl, rfl⟩
  setSr f h := h.map (F := fun s => { s with sr := f s.sr }) (fun _ _ _ => rfl)
    fun _ => ⟨rfl, rfl, rfl⟩
  configure h hc := h.configure hc

theorem Agree.value_eq (h : Agree bus s s') {a : Access} {v v' : Option (BitVec 32)}
    (hval : Simulation.SameValue s s' a v v') : v = v' := by
  rcases hval with hval | ⟨addr, -, rfl, rfl⟩
  · exact hval
  · rw [h.peek]

theorem Agree.clear (h : Agree bus s s') :
    Agree bus { s with calls := [] } { s' with calls := [] } :=
  h.map (F := fun s => { s with calls := [] }) (fun _ _ _ => rfl) fun _ => ⟨rfl, rfl, rfl⟩

/-- One access gives the same reply, or stops the same way. -/
theorem Agree.access (hs : Settled s) (hs' : Settled s') (h : Agree bus s s') (a : Access) :
    (∃ r u u', access bus s a = .ok (r, u) ∧ access bus s' a = .ok (r, u') ∧ Agree bus u u') ∨
    ∃ e, Lpspi.access bus s a = .error e ∧ Lpspi.access bus s' a = .error e := by
  refine ((simulation_agree bus).access hs hs' h (a.like_refl fun _ => rfl)).imp_left ?_
  rintro ⟨v, u, v', u', he, he', hagree, hval, hok, hok'⟩
  have hcalls : u'.calls = u.calls := by rw [hagree.rest]
  rw [← hagree.value_eq hval, hcalls] at hok'
  exact ⟨_, _, _, hok, hok', hagree.clear⟩

/-! ## Runs -/

/-- What a guest and the world see of a run: its replies, or the fault it stops with. -/
def replies (x : Except Fault (List (Step n β) × State n β)) : Except Fault (List (Reply n)) :=
  x.map fun r => r.1.map (·.output)

/-- Two devices that cannot be told apart by an access cannot be told apart by a run. -/
theorem Agree.replies_eq (hs : Settled s) (hs' : Settled s') (h : Agree bus s s')
    (as : List Access) : replies (run bus s as) = replies (run bus s' as) := by
  have halike : Mealy.Alike (fun _ r _ r' => r = r') (run bus s as) (run bus s' as) := by
    refine Mealy.run_simulates (J := Eq)
      (R := fun s s' => Settled s ∧ Settled s' ∧ Agree bus s s') ?_ ⟨hs, hs', h⟩ (by simp)
    rintro s s' a _ ⟨hs, hs', h⟩ rfl
    rcases h.access hs hs' a with ⟨r, u, u', hok, hok', hu⟩ | herror
    · exact .inl ⟨r, u, r, u', hok, hok', rfl, hs.access hok, hs'.access hok', hu⟩
    · exact .inr herror
  have hsame : ∀ (a : Access) (r : Reply n) (a' : Access) (r' : Reply n), r = r' → id r = id r' :=
    fun _ _ _ _ hr => hr
  exact halike.observe_eq hsame

/-- The clock keeps its frequency. -/
theorem Effect.clk_eq {a : Access} {v : Option (BitVec 32)} (h : Effect bus s a v t) :
    t.clk = s.clk := by
  cases h with
  | configure hr ht =>
    obtain ⟨_, _, _, _, _, _, _, rfl⟩ := configure_eq ht
    rfl
  | _ => rfl

theorem run_clk_eq {as : List Access} {h : List (Step n β)} (hs : Settled s)
    (hr : run bus s as = .ok (h, t)) : t.clk = s.clk := by
  refine (Mealy.run_invariant (I := fun u => Settled u ∧ u.clk = s.clk) hr ⟨hs, rfl⟩ ?_).1.2
  rintro τ - hτ ⟨hpre, hclk⟩
  obtain ⟨u, hu, -, hpost⟩ := effect_of_access hpre.bytes_ne_zero hτ
  refine ⟨hpre.access hτ, ?_⟩
  rw [hpost]
  exact hu.clk_eq.trans hclk

/-- At power on, the device is as after a reset. -/
theorem PowerOn.exists_agree {s₁ : State n β} (h₁ : PowerOn bus s₁) (hcalls : s.calls = [])
    (hclk : s₁.clk = s.clk) (hssi : bus.Alike (afterReset bus s).ssi s₁.ssi) :
    Agree bus { afterReset bus s with calls := [] } s₁ := by
  obtain ⟨hz, d, -, -, -, rfl⟩ := powerOn_iff.1 h₁
  have hagree : Agree bus (afterReset bus s) (afterReset bus (realized hz n d)) :=
    agree_afterReset hclk hcalls.symm hssi
  exact hagree.clear

/-- **Reset by software.** Whatever the device has done since power on, a write of `CR`
    with `RST` set, whatever else it sets, drives all chip selects high and the interrupt
    line low, and empties the FIFOs. From then on, the device cannot be told apart from
    one at power on, with the same clock and peripherals that answer alike; there is
    one. -/
theorem reset_powerOn (bus : SsiBus β) {s₀ s : State n β} {as : List Access} {h : List (Step n β)}
    (h₀ : PowerOn bus s₀) (hr : run bus s₀ as = .ok (h, s)) {addr : ℕ} {v : BitVec 32}
    (haddr : Reg.ofOffset? addr = some .cr) (hv : Bits.any v crRst = true) :
    ∃ r t, access bus s (.write addr v) = .ok (r, t) ∧
      t.csLines = Vector.replicate n true ∧ t.irq = false ∧
      fifo8IsEmpty t.txFifo = true ∧ fifo8IsEmpty t.rxFifo = true ∧
      (∃ s₁ : State n β, PowerOn bus s₁ ∧ s₁.clk = s₀.clk ∧ bus.Alike t.ssi s₁.ssi) ∧
      ∀ s₁ : State n β, PowerOn bus s₁ → s₁.clk = s₀.clk → bus.Alike t.ssi s₁.ssi →
        ∀ later, replies (run bus t later) = replies (run bus s₁ later) := by
  have hs : Settled s := (run_settled hr h₀.settled).1
  have hclk : s.clk = s₀.clk := run_clk_eq h₀.settled hr
  have heff : Effect bus s (.write addr v) none (afterReset bus s) := .reset haddr hv
  have hirq : (afterReset bus s).irq = false := by
    change Bits.any (_ &&& 0#32) _ = false
    rw [BitVec.and_zero, Bits.any_zero_left]
  refine ⟨_, _, heff.access_eq hs.bytes_ne_zero, rfl, hirq, rfl, rfl, ?_, ?_⟩
  · -- The device may be powered on with the peripherals as they are now.
    obtain ⟨hz, d, hhz, h₁, h₄, rfl⟩ := powerOn_iff.1 h₀
    exact ⟨atPowerOn bus hz n s.ssi, powerOn_iff.2 ⟨hz, s.ssi, hhz, h₁, h₄, rfl⟩, rfl,
      fun _ => rfl⟩
  · intro s₁ h₁ hclk₁ hssi later
    have hagree := h₁.exists_agree hs.calls_eq (hclk₁.trans hclk.symm) hssi
    exact hagree.replies_eq (heff.settled hs) h₁.settled later

/-- The accesses of a guest that sends a word in continuous mode, with all interrupts
    enabled. -/
def startingFrame : List Access :=
  [.write 0x10 1#32, .write 0x18 3#32, .write 0x60 0x4000001F#32, .write 0x64 0x5A#32]

theorem run_startingFrame : ∃ h s, run SsiBus.empty bare startingFrame = .ok (h, s) ∧
    s.rxFifo.num = 4 ∧ s.busy = true ∧ s.irq = true := ⟨_, _, rfl, rfl, rfl, rfl⟩

/-- A reset with all bits of `CR` set, with a frame started and an answer queued. -/
theorem reset_powerOn_busy : ∃ h s r t, run SsiBus.empty bare startingFrame = .ok (h, s) ∧
    s.rxFifo.num = 4 ∧ s.busy = true ∧ s.irq = true ∧
    access SsiBus.empty s (.write 0x10 0xFFFFFFFF#32) = .ok (r, t) ∧
      ∀ later, replies (run SsiBus.empty t later) = replies (run SsiBus.empty bare later) := by
  obtain ⟨h, s, hr, hrx, hbusy, hirq⟩ := run_startingFrame
  obtain ⟨r, t, hok, -, -, -, -, -, hsame⟩ := reset_powerOn (v := 0xFFFFFFFF#32) SsiBus.empty
    powerOn_bare hr (rfl : Reg.ofOffset? 0x10 = some .cr) (by decide)
  exact ⟨h, s, r, t, hr, hrx, hbusy, hirq, hok, hsame bare powerOn_bare rfl fun _ => rfl⟩

end S32K358.Lpspi
