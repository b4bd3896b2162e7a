import S32K358.Lpspi.Flags

/-!
# The LPSPI: what leaves the device alone

An access updates the status of the device even if it does nothing else. Between two
accesses the status is up to date already (`Settled`), so such an update changes
nothing, and whatever is refused is refused as a whole:

* `run_reads`: reads of registers change nothing, but for a read of `RDR` that takes a
  frame;
* `tdr_rejected`: a write of `TDR` that is refused changes nothing but the level of the
  interrupt line, and `TEF`, if it was refused for want of room, which is the only way
  to set it;
* `flush_allOrNothing`: a call of `lpspi_flush_txfifo` does nothing, or transfers one
  whole frame, unless the chip select of the frame does not exist.
-/

namespace S32K358.Lpspi

variable {n : ℕ} {β : Type} {bus : SsiBus β} {s t : State n β}

/-! ## Reads -/

/-- A read at the offset takes no frame from the RX FIFO. -/
def Inert (s : State n β) (addr : ℕ) : Prop := Reg.ofOffset? addr ≠ some .rdr ∨ s.rxFifo.num = 0

instance (s : State n β) (addr : ℕ) : Decidable (Inert s addr) :=
  inferInstanceAs (Decidable (_ ∨ _))

/-- A read that gives the value of the register, makes no calls and changes nothing. -/
def look (s : State n β) (addr : ℕ) : Step n β :=
  ⟨s, .read addr, ⟨some (peek s (Reg.ofOffset? addr)), []⟩, s⟩

theorem Settled.run_look (hs : Settled s) {l : List ℕ} (hl : ∀ addr ∈ l, Inert s addr) :
    run bus s (l.map .read) = .ok (l.map (look s), s) := by
  induction l with
  | nil => rfl
  | cons addr l ih =>
    rw [List.forall_mem_cons] at hl
    exact Mealy.run_cons_of_ok (hs.access_look hl.1) (ih hl.2)

/-- **Reads are pure.** In every state reached from power on, reads that take no frame
    leave the whole device as it is, and each gives the value its register has, whatever
    is read before it and in whatever order. -/
theorem run_reads (bus : SsiBus β) {s : State n β} (hs : Reachable bus s) {l l' : List ℕ}
    (hl : ∀ addr ∈ l, Inert s addr) (hperm : l.Perm l') :
    run bus s (l.map .read) = .ok (l.map (look s), s) ∧
      run bus s (l'.map .read) = .ok (l'.map (look s), s) :=
  ⟨hs.settled.run_look hl,
    hs.settled.run_look fun addr haddr => hl addr (hperm.mem_iff.2 haddr)⟩

/-- Registers read in two orders after a frame has been received and read. -/
theorem run_reads_status : ∃ s : State 1 Unit, Reachable SsiBus.empty s ∧
    Inert s 0x14 ∧ Inert s 0x74 ∧
    run SsiBus.empty s [.read 0x14, .read 0x74] = .ok ([look s 0x14, look s 0x74], s) ∧
    run SsiBus.empty s [.read 0x74, .read 0x14] = .ok ([look s 0x74, look s 0x14], s) := by
  obtain ⟨h, s, hr, hrx⟩ : ∃ h s, run SsiBus.empty bare
      [.write 0x10 1#32, .write 0x64 1#32, .read 0x74] = .ok (h, s) ∧ s.rxFifo.num = 0 :=
    ⟨_, _, rfl, rfl⟩
  have hs : Reachable SsiBus.empty s := ⟨bare, _, h, powerOn_bare, hr⟩
  have hl : ∀ addr ∈ [0x14, 0x74], Inert s addr := fun _ _ => .inr hrx
  exact ⟨s, hs, .inr hrx, .inr hrx, run_reads SsiBus.empty hs hl (.swap 0x74 0x14 [])⟩

/-! ## Writes of `TDR` that are refused -/

/-- An overflow is not undone by an update of the status. -/
theorem status_overflow (hs : status s = s) :
    status { s with sr := s.sr ||| srTef } = { s with sr := s.sr ||| srTef } := by
  have htdf : srTef &&& srTdf = 0#32 := by decide
  have hrdf : srTef &&& srRdf = 0#32 := by decide
  have hsr : statusSr { s with sr := s.sr ||| srTef } = statusSr s ||| srTef := by
    -- Setting a flag is an assignment, and commutes with those of the update.
    change Bits.assignIf (Bits.assignIf (Bits.assignIf s.sr srTef true true) srTdf _ _) srRdf _ _ =
      Bits.assignIf (statusSr s) srTef true true
    rw [Bits.assignIf_comm htdf, Bits.assignIf_comm hrdf]
    rfl
  calc status { s with sr := s.sr ||| srTef }
      = { status s with sr := statusSr { s with sr := s.sr ||| srTef } } := rfl
    _ = { status s with sr := (status s).sr ||| srTef } := by rw [hsr]; rfl
    _ = { s with sr := s.sr ||| srTef } := by rw [hs]

/-- `TEF` does not raise the interrupt. -/
theorem irqLevel_overflow : irqLevel { s with sr := s.sr ||| srTef } = irqLevel s := by
  have htef : Bits.any (srTef &&& s.ier) (srTdf ||| srRdf) = false :=
    ((by decide : Bits.Within srTef srTef).and s.ier).any_eq_false (by decide)
  change Bits.any ((s.sr ||| srTef) &&& s.ier) (srTdf ||| srRdf) = _
  rw [BitVec.and_or_distrib_right, Bits.any_or_left, htef, Bool.or_false, irqLevel]

/-- A device that does nothing but to drive its interrupt line. -/
theorem access_of_settle {addr : ℕ} {v : BitVec 32} {u : State n β} (hs : Settled s)
    (heff : Effect bus s (.write addr v) none (settle u)) (hu : status u = u) (hc : u.calls = []) :
    access bus s (.write addr v) =
      .ok (⟨none, [.setIrq (irqLevel u)]⟩, { u with irq := irqLevel u }) := by
  have hclear : { u with calls := [] } = u := by rw [← hc]
  have hcalls : (settle u).calls = [.setIrq (irqLevel u)] := by
    rw [settle, hu]
    change u.calls ++ _ = _
    rw [hc, List.nil_append]
  have hpost : { settle u with calls := [] } = { u with irq := irqLevel u } := by
    rw [settle, hu]
    conv_rhs => rw [← hclear]
    rfl
  rw [heff.access_eq hs.bytes_ne_zero, hcalls, hpost]

/-- The access writes `TDR` while the device is enabled and has no room for a frame. -/
def Overflows (s : State n β) : Access → Prop
  | .read _ => False
  | .write addr _ => Reg.ofOffset? addr = some .tdr ∧ Bits.any s.cr crMen = true ∧
      fifo8NumFree s.txFifo < bytesPerFrame s.tcr

theorem fifo8NumFree_lt_iff {c b : ℕ} {f : Fifo8 c} : fifo8NumFree f < b ↔ c < f.num + b := by
  have := f.num_le
  rw [fifo8NumFree_eq]
  omega

/-- Only an overflow sets `TEF`. -/
theorem overflows_of_tef {a : Access} {r : Reply n} (hs : Settled s)
    (ha : access bus s a = .ok (r, t)) (hbefore : Bits.any s.sr srTef = false)
    (hafter : Bits.any t.sr srTef = true) : Overflows s a := by
  obtain ⟨u, hu, -, rfl⟩ := effect_of_access hs.bytes_ne_zero ha
  have hflag : Bits.any u.sr srTef = Bits.any (srBefore s a) srTef := hu.flagFrom (f := .tef) hs
  have hset : Bits.any (srBefore s a) srTef = true := hflag.symm.trans hafter
  cases a with
  | read addr => exact absurd (hset.symm.trans hbefore) (by decide)
  | write addr v =>
    rw [srBefore] at hset
    split at hset
    · exact absurd (Bits.any_of_any_clear hset) (by rw [hbefore]; decide)
    · -- A reset sets `TDF` and `TCF`, and the one of the TX FIFO sets `TDF`.
      have htdf : Bits.any (srTdf ||| srTcf) srTef = false := by decide
      have hcr : Bits.any (writeCr s v).sr srTef = false := by
        simp only [writeCr]
        split_ifs
        · rw [Bits.any_or_left, hbefore]
          decide
        · exact hbefore
      split_ifs at hset
      · exact absurd (hset.symm.trans htdf) (by decide)
      · exact absurd (hset.symm.trans hcr) (by decide)
    · rename_i hr
      split_ifs at hset with hfull
      · exact ⟨hr, hfull.1, fifo8NumFree_lt_iff.2 hfull.2⟩
      · exact absurd (hset.symm.trans hbefore) (by decide)
    · exact absurd (hset.symm.trans hbefore) (by decide)

/-- **Refused data.** In every state reached from power on, a write of `TDR` that is
    refused, because the device is not enabled or has no room for a frame, drives the
    interrupt line and nothing else, and changes nothing, but that `TEF` is set in the
    second case. No other access sets it. -/
theorem tdr_rejected (bus : SsiBus β) {s : State n β} (hs : Reachable bus s) :
    (∀ addr v, Reg.ofOffset? addr = some .tdr → Bits.any s.cr crMen = false →
      access bus s (.write addr v) =
        .ok (⟨none, [.setIrq (irqLevel s)]⟩, { s with irq := irqLevel s })) ∧
    (∀ addr v, Reg.ofOffset? addr = some .tdr → Bits.any s.cr crMen = true →
      fifo8NumFree s.txFifo < bytesPerFrame s.tcr →
      access bus s (.write addr v) = .ok (⟨none, [.setIrq (irqLevel s)]⟩,
        { s with sr := s.sr ||| srTef, irq := irqLevel s })) ∧
    ∀ a r t, access bus s a = .ok (r, t) → Bits.any s.sr srTef = false →
      Bits.any t.sr srTef = true → Overflows s a := by
  have hset := hs.settled
  refine ⟨fun addr v hr hmen => ?_, fun addr v hr hmen hfull => ?_, fun a r t ha => ?_⟩
  · exact access_of_settle hset (.refuse hr hmen) hset.status_eq hset.calls_eq
  · have heff : Effect bus s (.write addr v) none (settle { s with sr := s.sr ||| srTef }) :=
      .overflow hr hmen (fifo8NumFree_lt_iff.1 hfull)
    rw [access_of_settle hset heff (status_overflow hset.status_eq) hset.calls_eq,
      irqLevel_overflow]
  · exact overflows_of_tef hset ha

/-- Four words fill the RX FIFO, four more the TX FIFO, and one is refused. -/
theorem tdr_rejected_full : ∃ s : State 1 Unit, Reachable SsiBus.empty s ∧
    Bits.any s.cr crMen = true ∧ fifo8NumFree s.txFifo < bytesPerFrame s.tcr ∧
    access SsiBus.empty s (.write 0x64 9#32) = .ok (⟨none, [.setIrq (irqLevel s)]⟩,
      { s with sr := s.sr ||| srTef, irq := irqLevel s }) := by
  obtain ⟨h, s, hr, hmen, hfull⟩ : ∃ h s, run SsiBus.empty bare [.write 0x10 1#32, .write 0x64 1#32,
      .write 0x64 2#32, .write 0x64 3#32, .write 0x64 4#32, .write 0x64 5#32, .write 0x64 6#32,
      .write 0x64 7#32, .write 0x64 8#32] = .ok (h, s) ∧ Bits.any s.cr crMen = true ∧
      fifo8NumFree s.txFifo < bytesPerFrame s.tcr := ⟨_, _, rfl, rfl, by decide⟩
  have hs : Reachable SsiBus.empty s := ⟨bare, _, h, powerOn_bare, hr⟩
  exact ⟨s, hs, hmen, hfull, (tdr_rejected SsiBus.empty hs).2.1 0x64 9#32 rfl hmen hfull⟩

/-! ## Transfers -/

/-- The conditions on which `lpspi_flush_txfifo` returns at once: there is not enough
    data, or no space for the answer. -/
def Blocked (s : State n β) : Prop :=
  fifo8NumUsed s.txFifo < bytesPerFrame s.tcr ∨
    rxmsk s.tcr = false ∧ fifo8NumFree s.rxFifo < bytesPerFrame s.tcr

instance (s : State n β) : Decidable (Blocked s) := inferInstanceAs (Decidable (_ ∨ _))

/-- One frame has been transferred, over the bus or in the loopback: its bytes are the
    oldest of the TX FIFO, and the bytes of its answer the newest of the RX FIFO, unless
    it is masked. -/
structure Transferred (bus : SsiBus β) (s t : State n β) : Prop where
  exchange : exchanges t.calls = exchanges s.calls ++ [frame bus s]
  tx : t.txFifo.contents = s.txFifo.contents.drop (bytesPerFrame s.tcr)
  word : (frame bus s).txData = Frame.join (lsbf s.tcr) (bytesPerFrame s.tcr)
    (s.txFifo.contents.take (bytesPerFrame s.tcr))
  rx : t.rxFifo.contents = s.rxFifo.contents ++ if rxmsk s.tcr then [] else
    Frame.split (lsbf s.tcr) (bytesPerFrame s.tcr) (frame bus s).rxData
  rxNum : t.rxFifo.num = s.rxFifo.num + if rxmsk s.tcr then 0 else bytesPerFrame s.tcr
  tcf : Bits.any t.sr srTcf = (Bits.any s.sr srTcf || fifo8IsEmpty t.txFifo)

/-- A call of `lpspi_flush_txfifo` does nothing, or transfers one whole frame. -/
def AllOrNothing (bus : SsiBus β) (s : State n β) : Prop :=
  ∃ t, flushTxfifo bus s = .ok t ∧ if Blocked s then t = s else Transferred bus s t

theorem not_blocked_iff : ¬Blocked s ↔ Ready s := by
  rw [Blocked, not_or, fifo8NumUsed_eq, fifo8NumFree_lt_iff, Nat.not_lt, not_and, Nat.not_lt, Ready]

theorem any_tcf_asserted : Bits.any (asserted bus s).sr srTcf = Bits.any s.sr srTcf := by
  have hmbf : Bits.any srMbf srTcf = false := by decide
  simp only [asserted]
  split_ifs <;> simp [hmbf]

theorem any_tcf_released (hbusy : s.busy = true) :
    Bits.any (released bus s).sr srTcf = (Bits.any s.sr srTcf || fifo8IsEmpty s.txFifo) := by
  have htcf : Bits.any srTcf srTcf = true := by decide
  simp only [released, hbusy, Bool.and_true]
  cases hempty : fifo8IsEmpty s.txFifo with
  | true => simp [htcf]
  | false => simp

/-- A transfer sets `TCF` if it drains the FIFO. -/
theorem any_tcf_sendFrame : Bits.any (sendFrame bus s).sr srTcf =
    (Bits.any s.sr srTcf || fifo8IsEmpty (sendFrame bus s).txFifo) := by
  have hdisj : srTdf &&& srTcf = 0#32 ∧ srRdf &&& srTcf = 0#32 := by decide
  calc Bits.any (sendFrame bus s).sr srTcf
      = Bits.any (released bus (status (exchanged bus (asserted bus s)))).sr srTcf :=
        any_status hdisj.1 hdisj.2
    _ = (Bits.any (status (exchanged bus (asserted bus s))).sr srTcf ||
          fifo8IsEmpty (sendFrame bus s).txFifo) := any_tcf_released rfl
    _ = (Bits.any (asserted bus s).sr srTcf || fifo8IsEmpty (sendFrame bus s).txFifo) := by
        rw [any_status hdisj.1 hdisj.2]
        rfl
    _ = (Bits.any s.sr srTcf || fifo8IsEmpty (sendFrame bus s).txFifo) := by rw [any_tcf_asserted]

theorem transferred_sendFrame (hready : Ready s) : Transferred bus s (sendFrame bus s) where
  exchange := exchanges_sendFrame
  tx := RingBuffer.contents_popN _ _
  word := rfl
  rx := by
    have hrx : (sendFrame bus s).rxFifo = if rxmsk s.tcr then s.rxFifo else s.rxFifo.pushAll
        (Frame.split (lsbf s.tcr) (bytesPerFrame s.tcr) (frame bus s).rxData) := rfl
    rw [hrx]
    split_ifs with hm
    · rw [List.append_nil]
    · rw [RingBuffer.contents_pushAll]
      rw [Frame.length_split]
      exact hready.2 ((Bool.not_eq_true _).mp hm)
  rxNum := by
    rw [num_rxFifo_sendFrame hready]
    split_ifs <;> rfl
  tcf := any_tcf_sendFrame

theorem allOrNothing_iff (hb : bytesPerFrame s.tcr ≠ 0) :
    AllOrNothing bus s ↔ ¬(Ready s ∧ asserts s = true ∧ n ≤ pcs s.tcr) := by
  by_cases hready : Ready s
  · have hblocked : ¬Blocked s := not_blocked_iff.2 hready
    rw [AllOrNothing, flushTxfifo_eq hb hready]
    by_cases hcs : asserts s = true ∧ n ≤ pcs s.tcr
    · simp [hready, hcs]
    · refine iff_of_true ⟨_, if_neg hcs, ?_⟩ fun h => hcs h.2
      rw [if_neg hblocked]
      exact transferred_sendFrame hready
  · have hblocked : Blocked s := by
      by_contra h
      exact hready (not_blocked_iff.1 h)
    refine iff_of_true ⟨s, flushTxfifo_of_not_ready hready, ?_⟩ fun h => hready h.1
    rw [if_pos hblocked]

/-- **Transfers are all or nothing.** In every state whose frames have bytes, a call of
    `lpspi_flush_txfifo` does nothing, if it is blocked, and otherwise transfers one
    whole frame, unless it is to assert a chip select that does not exist. No run
    transfers a frame while the device is not enabled. -/
theorem flush_allOrNothing (bus : SsiBus β) :
    (∀ s : State n β, bytesPerFrame s.tcr ≠ 0 →
      (AllOrNothing bus s ↔ ¬(¬Blocked s ∧ asserts s = true ∧ n ≤ pcs s.tcr))) ∧
    ∀ (s₀ : State n β) as h t, PowerOn bus s₀ → run bus s₀ as = .ok (h, t) →
      ∀ τ ∈ h, exchanges τ.output.calls ≠ [] → Bits.any τ.pre.cr crMen = true := by
  refine ⟨fun s hb => ?_, fun s₀ as h t h₀ hr τ hτ hex => ?_⟩
  · rw [not_blocked_iff]
    exact allOrNothing_iff hb
  · have hpre : Settled τ.pre := ((run_settled hr h₀.settled).2 τ hτ).1
    obtain ⟨u, hu, hcalls, -⟩ := effect_of_access hpre.bytes_ne_zero (Mealy.run_takes hr τ hτ).1
    rw [hcalls, hpre.exchanges_eq hu] at hex
    cases hx : sending τ.pre τ.input with
    | none =>
      rw [hx] at hex
      exact absurd rfl hex
    | some x =>
      obtain ⟨addr, v, -, hmen, -⟩ := sending_eq_some hx
      exact hmen

/-- Five words, of which the last waits for space, and the space: the next transfer is one
    of a whole frame. -/
theorem flush_allOrNothing_five : ∃ h s, run SsiBus.empty bare [.write 0x10 1#32, .write 0x64 1#32,
      .write 0x64 2#32, .write 0x64 3#32, .write 0x64 4#32, .write 0x64 5#32, .read 0x74] =
        .ok (h, s) ∧
    ¬Blocked s ∧ AllOrNothing SsiBus.empty s ∧
    (h.flatMap fun τ => exchanges τ.output.calls).length = 4 ∧
    ∀ τ ∈ h, exchanges τ.output.calls ≠ [] → Bits.any τ.pre.cr crMen = true := by
  obtain ⟨hall, hmen⟩ := flush_allOrNothing (n := 1) SsiBus.empty
  obtain ⟨h, s, hr, hb, hblocked, hpcs, hlen⟩ : ∃ h s, run SsiBus.empty bare [.write 0x10 1#32,
      .write 0x64 1#32, .write 0x64 2#32, .write 0x64 3#32, .write 0x64 4#32, .write 0x64 5#32,
      .read 0x74] = .ok (h, s) ∧ bytesPerFrame s.tcr ≠ 0 ∧ ¬Blocked s ∧ pcs s.tcr < 1 ∧
      (h.flatMap fun τ => exchanges τ.output.calls).length = 4 :=
    ⟨_, _, rfl, by decide, by decide, by decide, rfl⟩
  exact ⟨h, s, hr, hblocked, (hall s hb).2 fun hcs => hpcs.not_ge hcs.2.2, hlen,
    hmen bare _ h s powerOn_bare hr⟩

/-- Five words, of which the last waits for space, a command that selects the second of
    one line, and the space. -/
theorem flush_outOfBounds : ∃ h s, run SsiBus.empty bare [.write 0x10 1#32, .write 0x64 1#32,
      .write 0x64 2#32, .write 0x64 3#32, .write 0x64 4#32, .write 0x64 5#32,
      .write 0x60 0x0100001F#32, .read 0x74] = .ok (h, s) ∧
    bytesPerFrame s.tcr = 4 ∧ ¬Blocked s ∧
    flushTxfifo SsiBus.empty s = .error .csOutOfBounds ∧ ¬AllOrNothing SsiBus.empty s := by
  obtain ⟨h, s, hr, hb, hblocked, hstop⟩ : ∃ h s, run SsiBus.empty bare [.write 0x10 1#32,
      .write 0x64 1#32, .write 0x64 2#32, .write 0x64 3#32, .write 0x64 4#32, .write 0x64 5#32,
      .write 0x60 0x0100001F#32, .read 0x74] = .ok (h, s) ∧ bytesPerFrame s.tcr = 4 ∧ ¬Blocked s ∧
      flushTxfifo SsiBus.empty s = .error .csOutOfBounds := ⟨_, _, rfl, rfl, by decide, rfl⟩
  refine ⟨h, s, hr, hb, hblocked, hstop, ?_⟩
  rintro ⟨t, hok, -⟩
  rw [hstop] at hok
  exact absurd hok (by simp)

end S32K358.Lpspi
