import S32K358.Lpspi.ChipSelect
import S32K358.Lpspi.Filling

/-!
# The LPSPI: counts of frames

The FIFOs hold bytes, but the guest sees frames: `FSR` counts the whole frames of the
size in force, and `RXEMPTY` says that there is none. Reads of `RDR` also take what
is left of a frame, and the FIFOs have room for sixteen bytes, whatever the frames.

* `run_rxempty_iff`: `RXEMPTY` and `RXCOUNT` tell the truth about reads of `RDR` all
  along a run exactly when every command leaves whole frames in the RX FIFO;
* `run_fourWords_iff`: the FIFOs are four frames deep for frames of more than 24 bits
  only.
-/

namespace S32K358.Lpspi

variable {n : ℕ} {β : Type} {bus : SsiBus β} {s t : State n β} {a : Access}

/-! ## The fields of `FSR` -/

/-- `TXCOUNT`. -/
def txcount (fsr : BitVec 32) : ℕ := ((fsr >>> fsrTxcountShift) &&& 0xFF#32).toNat

/-- `RXCOUNT`. -/
def rxcount (fsr : BitVec 32) : ℕ := ((fsr >>> fsrRxcountShift) &&& 0xFF#32).toNat

/-- Both counts are at most the bytes in a FIFO. -/
theorem words_le (s : State n β) :
    txWords s ≤ fifoByteCapacity ∧ rxWords s ≤ fifoByteCapacity :=
  ⟨(Nat.div_le_self _ _).trans s.txFifo.num_le, (Nat.div_le_self _ _).trans s.rxFifo.num_le⟩

theorem count_fsr : ∀ i j : Fin 17,
    txcount (BitVec.ofNat 32 i <<< fsrRxcountShift ||| BitVec.ofNat 32 j <<< fsrTxcountShift) = j ∧
    rxcount (BitVec.ofNat 32 i <<< fsrRxcountShift ||| BitVec.ofNat 32 j <<< fsrTxcountShift)
      = i := by
  decide +kernel

theorem Settled.count_eq (hs : Settled s) :
    txcount s.fsr = txWords s ∧ rxcount s.fsr = rxWords s := by
  obtain ⟨htx, hrx⟩ := words_le s
  have hfsr : s.fsr = BitVec.ofNat 32 (rxWords s) <<< fsrRxcountShift |||
      BitVec.ofNat 32 (txWords s) <<< fsrTxcountShift := by
    conv_lhs => rw [← hs.status_eq]
    rfl
  rw [hfsr]
  exact count_fsr ⟨rxWords s, Nat.lt_succ_of_le hrx⟩ ⟨txWords s, Nat.lt_succ_of_le htx⟩

theorem Settled.any_rxempty (hs : Settled s) :
    Bits.any s.rsr rsrRxempty = decide (rxWords s = 0) := by
  have hrsr : s.rsr = Bits.assign s.rsr rsrRxempty (decide (rxWords s = 0)) := by
    conv_lhs => rw [← hs.status_eq]
    rfl
  rw [hrsr]
  exact Bits.any_assign_self (by decide) _

/-! ## Reads of `RDR` -/

/-- `RXEMPTY` tells the truth about a read of `RDR` that follows: if it is set, the read
    gives zero and consumes nothing, and otherwise it gives the first frame, which is
    there as a whole, and consumes it. -/
def TellsRxempty (bus : SsiBus β) (s : State n β) : Prop :=
  ∃ r t, access bus s (.read 0x74) = .ok (r, t) ∧
    if Bits.any s.rsr rsrRxempty = true then
      r.value = some 0#32 ∧ t.rxFifo.contents = s.rxFifo.contents
    else
      bytesPerFrame s.tcr ≤ s.rxFifo.num ∧ r.value = some (rxWord s) ∧
        t.rxFifo.contents = s.rxFifo.contents.drop (bytesPerFrame s.tcr)

/-- The transition consumes data of the RX FIFO. -/
def consumes (τ : Step n β) : Bool := decide (τ.post.rxFifo.num < τ.pre.rxFifo.num)

/-- `RXCOUNT` is the number of reads of `RDR` that will consume data. -/
def TellsRxcount (bus : SsiBus β) (s : State n β) : Prop :=
  ∀ k, ∃ h t, run bus s (List.replicate k (.read 0x74)) = .ok (h, t) ∧
    h.countP consumes = min k (rxcount s.fsr)

theorem access_rdr_of_eq_zero (hs : Settled s) (h : s.rxFifo.num = 0) :
    access bus s (.read 0x74) = .ok (⟨some 0#32, []⟩, s) := hs.access_look (.inr h)

theorem access_rdr_of_ne_zero (bus : SsiBus β) (hs : Settled s) (h : s.rxFifo.num ≠ 0) :
    ∃ t, access bus s (.read 0x74) = .ok (⟨some (rxWord s), []⟩, t) ∧ Settled t ∧ t.tcr = s.tcr ∧
      t.rxFifo = s.rxFifo.popN (bytesPerFrame s.tcr) := by
  have heff : Effect bus s (.read 0x74) (some (rxWord s)) (status (taken (status s))) :=
    .take rfl h
  have hok := heff.access_eq hs.bytes_ne_zero
  have hcalls : (status (taken (status s))).calls = [] := hs.calls_eq
  rw [hcalls] at hok
  exact ⟨_, hok, heff.settled hs, rfl, rfl⟩

/-- Whatever `RXEMPTY` says, it is wrong only if there is a part of a frame, and no
    frame. -/
theorem Settled.tellsRxempty_iff (bus : SsiBus β) (hs : Settled s) :
    TellsRxempty bus s ↔ (s.rxFifo.num < bytesPerFrame s.tcr → s.rxFifo.num = 0) := by
  have hempty : rxWords s = 0 ↔ s.rxFifo.num < bytesPerFrame s.tcr :=
    Nat.div_eq_zero_iff_lt (Nat.pos_of_ne_zero hs.bytes_ne_zero)
  simp only [TellsRxempty, hs.any_rxempty, decide_eq_true_eq, hempty]
  by_cases hnum : s.rxFifo.num = 0
  · refine iff_of_true ⟨_, _, access_rdr_of_eq_zero hs hnum, ?_⟩ fun _ => hnum
    have hlt : s.rxFifo.num < bytesPerFrame s.tcr := by have := hs.bytes_ne_zero; omega
    rw [if_pos hlt]
    exact ⟨rfl, rfl⟩
  · obtain ⟨t, hok, -, -, hrx⟩ := access_rdr_of_ne_zero bus hs hnum
    have hpop : t.rxFifo.contents = s.rxFifo.contents.drop (bytesPerFrame s.tcr) := by
      rw [hrx, RingBuffer.contents_popN]
    rw [imp_iff_not hnum, Nat.not_lt]
    constructor
    · rintro ⟨r, u, hok', htruth⟩
      obtain ⟨rfl, rfl⟩ : _ ∧ _ := by simpa [hok] using hok'
      split_ifs at htruth with hlt
      · -- The part of a frame would be consumed.
        have hsame := congrArg List.length (htruth.2.symm.trans hpop)
        simp only [List.length_drop, RingBuffer.length_contents] at hsame
        omega
      · exact htruth.1
    · intro hle
      refine ⟨_, t, hok, ?_⟩
      rw [if_neg (Nat.not_lt.2 hle)]
      exact ⟨hle, rfl, hpop⟩

/-- The number of frames in some bytes, with a part of one, after a frame is taken. -/
theorem frames_succ {m b : ℕ} (hb : 0 < b) (hm : m ≠ 0) :
    (m + b - 1) / b = (m - b + b - 1) / b + 1 := by
  have hadd : m + b - 1 = m - 1 + b := by omega
  rw [hadd, Nat.add_div_right _ hb]
  rcases Nat.lt_or_ge m b with hlt | hle
  · rw [Nat.div_eq_of_lt (show m - 1 < b by omega),
      Nat.div_eq_of_lt (show m - b + b - 1 < b by omega)]
  · rw [Nat.sub_add_cancel hle]

/-- There is no part of a frame if and only if whole frames are all there is. -/
theorem frames_eq_iff {m b : ℕ} (hb : 0 < b) : (m + b - 1) / b = m / b ↔ b ∣ m := by
  constructor
  · intro h
    have hlt := Nat.lt_div_mul_add (a := m + b - 1) hb
    have hle := Nat.div_mul_le_self m b
    rw [h] at hlt
    exact ⟨m / b, by rw [Nat.mul_comm]; omega⟩
  · rintro ⟨k, rfl⟩
    have hadd : b * k + b - 1 = b - 1 + b * k := by omega
    rw [hadd, Nat.add_mul_div_left _ _ hb, Nat.mul_div_cancel_left _ hb,
      Nat.div_eq_of_lt (show b - 1 < b by omega), Nat.zero_add]

/-- The reads of `RDR` that consume data: one for each frame, or part of one. -/
theorem run_rdr (bus : SsiBus β) (hs : Settled s) (k : ℕ) :
    ∃ h t, run bus s (List.replicate k (.read 0x74)) = .ok (h, t) ∧
      h.countP consumes =
        min k ((s.rxFifo.num + bytesPerFrame s.tcr - 1) / bytesPerFrame s.tcr) := by
  have hpos := Nat.pos_of_ne_zero hs.bytes_ne_zero
  induction k generalizing s with
  | zero => exact ⟨[], s, rfl, by simp⟩
  | succ k ih =>
    by_cases hnum : s.rxFifo.num = 0
    · obtain ⟨h, t, hr, hcount⟩ := ih hs hpos
      have hnone : (s.rxFifo.num + bytesPerFrame s.tcr - 1) / bytesPerFrame s.tcr = 0 := by
        rw [Nat.div_eq_zero_iff_lt hpos]
        omega
      refine ⟨_, t, Mealy.run_cons_of_ok (access_rdr_of_eq_zero hs hnum) hr, ?_⟩
      rw [hnone, Nat.min_zero] at hcount ⊢
      rw [List.countP_cons_of_neg (by simp [consumes]), hcount]
    · obtain ⟨u, hok, hset, htcr, hrx⟩ := access_rdr_of_ne_zero bus hs hnum
      have hunum : u.rxFifo.num = s.rxFifo.num - bytesPerFrame s.tcr := by
        rw [hrx, RingBuffer.num_popN]
      obtain ⟨h, t, hr, hcount⟩ := ih hset (htcr ▸ hpos)
      rw [hunum, htcr] at hcount
      refine ⟨_, t, Mealy.run_cons_of_ok hok hr, ?_⟩
      -- One read less to be made, and one frame, or part of one, less to be read.
      have hlt : u.rxFifo.num < s.rxFifo.num := by omega
      have hconsumes : consumes ⟨s, .read 0x74, ⟨some (rxWord s), []⟩, u⟩ = true :=
        decide_eq_true hlt
      rw [List.countP_cons_of_pos hconsumes, hcount, frames_succ hpos hnum,
        Nat.add_min_add_right]

theorem Settled.tellsRxcount_iff (bus : SsiBus β) (hs : Settled s) :
    TellsRxcount bus s ↔ bytesPerFrame s.tcr ∣ s.rxFifo.num := by
  rw [← frames_eq_iff (Nat.pos_of_ne_zero hs.bytes_ne_zero)]
  constructor
  · intro h
    -- All reads that consume data are made, and one more.
    obtain ⟨h, t, hr, hcount⟩ :=
      h ((s.rxFifo.num + bytesPerFrame s.tcr - 1) / bytesPerFrame s.tcr + 1)
    obtain ⟨h', t', hr', hcount'⟩ := run_rdr bus hs
      ((s.rxFifo.num + bytesPerFrame s.tcr - 1) / bytesPerFrame s.tcr + 1)
    obtain ⟨rfl, rfl⟩ : h = h' ∧ t = t' := by simpa [hr] using hr'
    rw [hcount, hs.count_eq.2] at hcount'
    rw [rxWords] at hcount'
    omega
  · intro h k
    obtain ⟨h', t, hr, hcount⟩ := run_rdr bus hs k
    exact ⟨h', t, hr, by rw [hcount, h, hs.count_eq.2, rxWords]⟩

theorem Settled.tellsRx_iff (bus : SsiBus β) (hs : Settled s) :
    TellsRxempty bus s ∧ TellsRxcount bus s ↔ bytesPerFrame s.tcr ∣ s.rxFifo.num := by
  rw [hs.tellsRxempty_iff, hs.tellsRxcount_iff, and_iff_right_iff_imp]
  exact fun hdvd hlt => Nat.eq_zero_of_dvd_of_lt hdvd hlt

/-- The frames that are left by an access other than a reset. -/
theorem dvd_tcrAfter_iff (hs : bytesPerFrame s.tcr ∣ s.rxFifo.num)
    (hrst : a.setsCr (crRst ||| crRrf) = false) : bytesPerFrame (tcrAfter s a) ∣ s.rxFifo.num ↔
      a.onWrite .tcr fun v => bytesPerFrame v ∣ s.rxFifo.num := by
  rw [Access.setsCr_or, Bool.or_eq_false_iff] at hrst
  exact tcrAfter_iff (P := fun v => bytesPerFrame v ∣ s.rxFifo.num) hs
    fun h => absurd (hrst.1.symm.trans h) (by decide)

/-- Whole frames stay whole frames, of the size in force, unless a command changes it. -/
theorem Effect.rx_dvd_iff {v : Option (BitVec 32)} (hs : bytesPerFrame s.tcr ∣ s.rxFifo.num)
    (h : Effect bus s a v t) : bytesPerFrame t.tcr ∣ t.rxFifo.num ↔
      a.onWrite .tcr fun v => bytesPerFrame v ∣ s.rxFifo.num := by
  rw [h.tcr_eq, h.rxNum_eq, rxNumAfter]
  cases hrst : a.setsCr (crRst ||| crRrf) with
  | true =>
    refine iff_of_true (dvd_zero _) ?_
    cases a with
    | read addr => exact trivial
    | write addr v =>
      have hr : Reg.ofOffset? addr = some .cr := of_decide_eq_true (Bool.and_eq_true_iff.1 hrst).1
      exact fun htcr => absurd (hr.symm.trans htcr) (by decide)
  | false =>
    rw [if_neg Bool.false_ne_true]
    cases htakes : takes s a with
    | true =>
      -- Only a read takes a frame, and it takes a whole one.
      cases a with
      | read addr => exact iff_of_true (Nat.dvd_sub hs (dvd_refl _)) trivial
      | write addr v => exact absurd htakes Bool.false_ne_true
    | false =>
      rw [if_neg Bool.false_ne_true, ← dvd_tcrAfter_iff hs hrst]
      cases hx : sending s a with
      | none => rfl
      | some x =>
        rw [← (sending_frame hx).1, Option.elim_some]
        split_ifs
        · rfl
        · exact Nat.dvd_add_self_right

/-- **`RXEMPTY` and `RXCOUNT`.** In a run from power on, they tell the truth about the
    reads of `RDR` that follow, after every access, if and only if every command finds
    whole frames of its size in the RX FIFO. -/
theorem run_rxempty_iff (bus : SsiBus β) {s₀ t : State n β} {as : List Access}
    {h : List (Step n β)} (h₀ : PowerOn bus s₀) (hr : run bus s₀ as = .ok (h, t)) :
    (∀ τ ∈ h, TellsRxempty bus τ.post ∧ TellsRxcount bus τ.post) ↔
      ∀ τ ∈ h, τ.input.onWrite .tcr fun v => bytesPerFrame v ∣ τ.pre.rxFifo.num := by
  have hinit : bytesPerFrame s₀.tcr ∣ s₀.rxFifo.num := by
    obtain ⟨hz, d, -, -, -, rfl⟩ := powerOn_iff.1 h₀
    exact dvd_zero _
  have hexact := run_ok_exact (P := fun s => bytesPerFrame s.tcr ∣ s.rxFifo.num) hr h₀.settled
    hinit (fun _ => Iff.rfl) fun _ hs _ heff => heff.rx_dvd_iff hs
  rw [← hexact]
  have hset := (run_settled hr h₀.settled).2
  exact forall₂_congr fun τ hτ => (hset τ hτ).2.tellsRx_iff bus

/-- A frame of a byte received and read, and another size. -/
theorem run_rxempty_iff_once : ∃ h t, run SsiBus.empty bare [.write 0x10 1#32, .write 0x60 7#32,
      .write 0x64 1#32, .read 0x74, .write 0x60 0x1F#32] = .ok (h, t) ∧
    ((∀ τ ∈ h, TellsRxempty SsiBus.empty τ.post ∧ TellsRxcount SsiBus.empty τ.post) ↔
      ∀ τ ∈ h, τ.input.onWrite .tcr fun v => bytesPerFrame v ∣ τ.pre.rxFifo.num) := by
  obtain ⟨h, t, hr⟩ : ∃ h t, run SsiBus.empty bare [.write 0x10 1#32, .write 0x60 7#32,
      .write 0x64 1#32, .read 0x74, .write 0x60 0x1F#32] = .ok (h, t) := ⟨_, _, rfl⟩
  exact ⟨h, t, hr, run_rxempty_iff SsiBus.empty powerOn_bare hr⟩

/-- A frame of a byte received in the loopback, and the size changed to a word: `RSR`
    reads with `RXEMPTY` set, and `FSR` with `RXCOUNT` zero, but the next read of `RDR`
    consumes the byte, and gives it in place of a word. -/
theorem run_rxempty_lies : ∃ h t, run SsiBus.empty bare [.write 0x10 1#32, .write 0x24 0x100#32,
      .write 0x60 7#32, .write 0x64 0x5A#32, .write 0x60 0x1F#32, .read 0x70, .read 0x5C,
      .read 0x74] = .ok (h, t) ∧
    h.map (·.output.value) = [none, none, none, none, none, some rsrRxempty, some 0#32,
      some 0x5A000000#32] ∧
    h.map (·.post.rxFifo.num) = [0, 0, 0, 1, 1, 1, 1, 0] := ⟨_, _, rfl, rfl, rfl⟩

/-! ## The depth of the FIFOs -/

/-- `LPSPI_FIFO_WORD_DEPTH`. -/
def fifoWordDepth : ℕ := 4

/-- `NumberOfWrites` of the driver, `LPSPI_IP_FIFO_SIZE_U8 - TXCOUNT`, a `uint8`. -/
def numberOfWrites (fsr : BitVec 32) : BitVec 8 := 4#8 - BitVec.ofNat 8 (txcount fsr)

/-- The values accepted, but not yet transferred, after a transition. -/
def untransferredAfter (p : ℕ) (τ : Step n β) : ℕ :=
  if τ.input.setsCr (crRst ||| crRtf) then 0
  else p + (accepts τ.pre τ.input).toList.length - (exchanges τ.output.calls).length

/-- The values accepted, but not yet transferred, after a history. -/
def untransferred (h : List (Step n β)) : ℕ := h.foldl untransferredAfter 0

/-- After the history `h`, which ends in `t`, the FIFOs have been four words deep: so say
    the counts, there are no more values than that waiting, and the driver does not
    subtract too much. -/
structure FourWords (h : List (Step n β)) (t : State n β) : Prop where
  tx : txcount t.fsr ≤ fifoWordDepth
  rx : rxcount t.fsr ≤ fifoWordDepth
  waiting : untransferred h ≤ fifoWordDepth
  writes : (numberOfWrites t.fsr).toNat + txcount t.fsr = fifoWordDepth

/-- While frames have `b` bytes, the TX FIFO has `b` for each value that waits. -/
theorem num_txFifo_untransferred {b p : ℕ} {τ : Step n β} (htake : Mealy.Takes (access bus) τ)
    (hs : Settled τ.pre) (hb : bytesPerFrame τ.pre.tcr = b)
    (hb' : bytesPerFrame (tcrAfter τ.pre τ.input) = b) (hp : τ.pre.txFifo.num = b * p) :
    τ.post.txFifo.num = b * untransferredAfter p τ := by
  obtain ⟨u, hu, hcalls, hpost⟩ := effect_of_access hs.bytes_ne_zero htake
  have hnum : τ.post.txFifo.num = txNumAfter τ.pre τ.input := by
    rw [hpost]
    exact hu.txNum_eq
  rw [hnum, txNumAfter, untransferredAfter]
  cases τ.input.setsCr (crRst ||| crRtf) with
  | true => rfl
  | false =>
    have hx : ∀ x, sending τ.pre τ.input = some x → bytesPerFrame x.tcr = b := fun x hx => by
      rw [(sending_frame hx).1, hb']
    rw [if_neg Bool.false_ne_true, if_neg Bool.false_ne_true, hcalls, hs.exchanges_eq hu,
      List.length_map, Nat.mul_sub, Nat.mul_add,
      ← hp, hb]
    cases hsend : sending τ.pre τ.input with
    | none => cases accepts τ.pre τ.input <;> simp
    | some x => cases accepts τ.pre τ.input <;> simp [hx x hsend]

/-- Commands with frames of more than 24 bits have frames of a word. -/
theorem bytesPerFrame_of_frameSize {v : BitVec 32} (h₁ : 25 ≤ frameSize v) (h₂ : frameSize v ≤ 32) :
    bytesPerFrame v = 4 := by
  have hdiv : (frameSize v + 7) / 8 = 4 := by omega
  simp [bytesPerFrame, hdiv]

/-- The same along a run that holds the number of bytes. A reset makes it four. -/
theorem run_untransferred {b p : ℕ} {as : List Access} {h : List (Step n β)}
    (hr : run bus s as = .ok (h, t)) (hs : Settled s) (hb : bytesPerFrame s.tcr = b)
    (ha : ∀ a ∈ as, a.onWrite .tcr (fun v => bytesPerFrame v = b) ∧
      (a.setsCr crRst = true → b = 4)) (hp : s.txFifo.num = b * p) :
    Settled t ∧ bytesPerFrame t.tcr = b ∧ t.txFifo.num = b * h.foldl untransferredAfter p := by
  refine Mealy.run_ghost untransferredAfter
    (I := fun p s => Settled s ∧ bytesPerFrame s.tcr = b ∧ s.txFifo.num = b * p) hr ⟨hs, hb, hp⟩ ?_
  intro p τ hτ htake ⟨hs, hb, hp⟩
  obtain ⟨hwrite, hrst⟩ := ha _ (Mealy.run_takes hr τ hτ).2
  have hb' : bytesPerFrame (tcrAfter τ.pre τ.input) = b :=
    (tcrAfter_iff (P := fun v => bytesPerFrame v = b) hb fun h => by rw [hrst h]; decide).2 hwrite
  obtain ⟨u, hu, -, hpost⟩ := effect_of_access hs.bytes_ne_zero htake
  have htcr : τ.post.tcr = tcrAfter τ.pre τ.input := by
    rw [hpost]
    exact hu.tcr_eq
  exact ⟨hs.access htake, (congrArg bytesPerFrame htcr).trans hb',
    num_txFifo_untransferred htake hs hb hb' hp⟩

/-- With frames of a word, the FIFOs are four deep. -/
theorem run_fourWords {s₀ : State n β} {as : List Access} {h : List (Step n β)}
    (h₀ : PowerOn bus s₀) (ha : ∀ a ∈ as, a.onWrite .tcr fun v => bytesPerFrame v = 4)
    (hr : run bus s₀ as = .ok (h, t)) : FourWords h t := by
  have hword : bytesPerFrame s₀.tcr = 4 := by
    obtain ⟨hz, d, -, -, -, rfl⟩ := powerOn_iff.1 h₀
    exact (by decide : bytesPerFrame 0x1F#32 = 4)
  obtain ⟨hset, hb, hp⟩ := run_untransferred (p := 0) hr h₀.settled hword
    (fun a hmem => ⟨ha a hmem, fun _ => rfl⟩) h₀.num_eq.1
  rw [← untransferred] at hp
  have htx : t.txFifo.num ≤ 16 := t.txFifo.num_le
  have hrx : t.rxFifo.num ≤ 16 := t.rxFifo.num_le
  obtain ⟨htxc, hrxc⟩ := hset.count_eq
  rw [txWords, hb] at htxc
  rw [rxWords, hb] at hrxc
  have hle : txcount t.fsr ≤ 4 := by omega
  refine ⟨hle, ?_, ?_, ?_⟩
  · change rxcount t.fsr ≤ 4
    omega
  · change untransferred h ≤ 4
    omega
  · rw [numberOfWrites]
    have : ∀ c ≤ 4, (4#8 - BitVec.ofNat 8 c).toNat + c = fifoWordDepth := by decide
    exact this _ hle

/-! ### Small frames -/

theorem untransferredAfter_zero {τ : Step n β} (h : accepts τ.pre τ.input = none) :
    untransferredAfter 0 τ = 0 := by
  rw [untransferredAfter, h]
  split_ifs
  · rfl
  · exact Nat.zero_sub _

/-- With frames of less than a word, values may fill the RX FIFO with more than four
    frames, and then the TX FIFO. -/
theorem exists_not_fourWords {s₀ : State n β} {v : BitVec 32} (h₀ : PowerOn bus s₀)
    (hv : bytesPerFrame v ≠ 0) (hv₃ : bytesPerFrame v ≤ 3) (hm : rxmsk v = false)
    (hpcs : pcs v < n) :
    ∃ m h t, run bus s₀ (.write 0x10 1#32 :: .write 0x60 v ::
        List.replicate m (.write 0x64 0#32)) = .ok (h, t) ∧
      4 < txcount t.fsr ∧ 4 < rxcount t.fsr ∧ 4 < untransferred h ∧
      4 < (numberOfWrites t.fsr).toNat := by
  obtain ⟨r₁, s₁, r₂, s₂, hok₁, hok₂, hfill⟩ := h₀.commanded hv
  have hpos := Nat.pos_of_ne_zero hv
  have hfit : 5 * bytesPerFrame v ≤ fifoByteCapacity := by
    change 5 * bytesPerFrame v ≤ 16
    omega
  have hcap : 5 ≤ fifoByteCapacity / bytesPerFrame v := (Nat.le_div_iff_mul_le hpos).2 hfit
  obtain ⟨h, t, hr, ht⟩ := hfill.fill bus 0#32 hm hpcs hfit
  generalize fifoByteCapacity / bytesPerFrame v = c at hcap hr ht
  have hwait : h.foldl untransferredAfter 0 = 5 := by
    have hnum := (run_untransferred (b := bytesPerFrame v) (p := 0) hr hfill.settled
      (by rw [hfill.tcr]) (fun a ha => ?_) (by rw [hfill.tx, Nat.zero_mul, Nat.mul_zero])).2.2
    · rw [ht.tx, Nat.mul_comm] at hnum
      exact (Nat.eq_of_mul_eq_mul_left hpos hnum).symm
    · rw [List.eq_of_mem_replicate ha]
      exact ⟨fun h => absurd h (by decide), fun h => absurd h (by decide)⟩
  have htxc : txcount t.fsr = 5 := by
    rw [ht.settled.count_eq.1, txWords, ht.tx, ht.tcr, Nat.mul_div_cancel _ hpos]
  have hrxc : rxcount t.fsr = c := by
    rw [ht.settled.count_eq.2, rxWords, ht.rx, ht.tcr, Nat.mul_div_cancel _ hpos]
  refine ⟨c + 5, _, t, Mealy.run_cons_of_ok hok₁ (Mealy.run_cons_of_ok hok₂ hr), ?_, ?_, ?_, ?_⟩
  · rw [htxc]
    decide
  · rw [hrxc]
    exact hcap
  · rw [untransferred, List.foldl_cons, List.foldl_cons, untransferredAfter_zero rfl,
      untransferredAfter_zero rfl, hwait]
    decide
  · rw [numberOfWrites, htxc]
    decide

/-- The smaller frame sizes, as commands. -/
theorem small_frameSize : ∀ i : Fin 24, frameSize (BitVec.ofNat 32 i) = i + 1 ∧
    bytesPerFrame (BitVec.ofNat 32 i) ≠ 0 ∧ bytesPerFrame (BitVec.ofNat 32 i) ≤ 3 ∧
    rxmsk (BitVec.ofNat 32 i) = false ∧ pcs (BitVec.ofNat 32 i) = 0 := by decide

/-- So there is a run for each of these sizes. -/
theorem exists_not_fourWords_of_lt {s₀ : State n β} (h₀ : PowerOn bus s₀) {k : ℕ} (hk : 1 ≤ k)
    (hlt : k < 25) : ∃ as h t, (∀ a ∈ as, a.onWrite .tcr fun v => frameSize v = k) ∧
      run bus s₀ as = .ok (h, t) ∧ 4 < txcount t.fsr ∧ 4 < rxcount t.fsr ∧
      4 < untransferred h ∧ 4 < (numberOfWrites t.fsr).toNat := by
  obtain ⟨hsize, hv, hv₃, hm, hpcs⟩ := small_frameSize ⟨k - 1, by omega⟩
  have hn : 1 ≤ n := by
    obtain ⟨hz, d, -, h₁, -, -⟩ := powerOn_iff.1 h₀
    exact h₁
  obtain ⟨m, h, t, hr, hbounds⟩ := exists_not_fourWords h₀ hv hv₃ hm (hpcs.trans_lt hn)
  refine ⟨_, h, t, ?_, hr, hbounds⟩
  rw [List.forall_mem_cons, List.forall_mem_cons]
  refine ⟨fun h => absurd h (by decide), fun _ => ?_, fun a ha => ?_⟩
  · exact hsize.trans (Nat.sub_add_cancel hk)
  · rw [List.eq_of_mem_replicate ha]
    exact fun h => absurd h (by decide)

/-- **The depth of the FIFOs.** Let `K` be some frame sizes of at most 32 bits. The FIFOs
    are four words deep in all runs from power on whose commands have them if and only if
    they are all of more than 24 bits. Otherwise there is a run that breaks every bound:
    of both counts, of the values that wait, and of the driver. -/
theorem run_fourWords_iff (bus : SsiBus β) {s₀ : State n β} (h₀ : PowerOn bus s₀) {K : Set ℕ}
    (hK : ∀ k ∈ K, 1 ≤ k ∧ k ≤ 32) :
    ((∀ as h t, (∀ a ∈ as, a.onWrite .tcr fun v => frameSize v ∈ K) →
      run bus s₀ as = .ok (h, t) → FourWords h t) ↔ ∀ k ∈ K, 25 ≤ k) ∧
    ((∃ k ∈ K, k < 25) → ∃ as h t, (∀ a ∈ as, a.onWrite .tcr fun v => frameSize v ∈ K) ∧
      run bus s₀ as = .ok (h, t) ∧ 4 < txcount t.fsr ∧ 4 < rxcount t.fsr ∧
      4 < untransferred h ∧ 4 < (numberOfWrites t.fsr).toNat) := by
  have hsmall : ∀ k ∈ K, k < 25 → ∃ as h t,
      (∀ a ∈ as, a.onWrite .tcr fun v => frameSize v ∈ K) ∧ run bus s₀ as = .ok (h, t) ∧
      4 < txcount t.fsr ∧ 4 < rxcount t.fsr ∧ 4 < untransferred h ∧
      4 < (numberOfWrites t.fsr).toNat := by
    intro k hk hlt
    obtain ⟨as, h, t, ha, hrest⟩ := exists_not_fourWords_of_lt h₀ (hK k hk).1 hlt
    exact ⟨as, h, t, fun a hmem => (ha a hmem).imp fun v hv => hv ▸ hk, hrest⟩
  refine ⟨⟨fun hall k hk => ?_, fun hall as h t ha hr => ?_⟩, fun ⟨k, hk, hlt⟩ => hsmall k hk hlt⟩
  · by_contra hlt
    obtain ⟨as, h, t, ha, hr, htx, -⟩ := hsmall k hk (Nat.not_le.1 hlt)
    exact absurd (hall as h t ha hr).tx (Nat.not_le.2 htx)
  · exact run_fourWords h₀ (fun a hmem => (ha a hmem).imp fun v hv =>
      bytesPerFrame_of_frameSize (hall _ hv) (hK _ hv).2) hr

/-- Two words sent, on the bare device. -/
theorem run_fourWords_iff_word : ∃ h t, run SsiBus.empty bare [.write 0x10 1#32,
    .write 0x60 0x1F#32, .write 0x64 1#32, .write 0x64 2#32] = .ok (h, t) ∧ FourWords h t := by
  obtain ⟨h, t, hr⟩ : ∃ h t, run SsiBus.empty bare [.write 0x10 1#32, .write 0x60 0x1F#32,
      .write 0x64 1#32, .write 0x64 2#32] = .ok (h, t) := ⟨_, _, rfl⟩
  have hall := (run_fourWords_iff SsiBus.empty powerOn_bare (K := {32}) (by simp)).1.2 (by simp)
  exact ⟨h, t, hr, hall _ h t (by decide) hr⟩

/-- Frames of a byte: sixteen fill the RX FIFO, and five more wait, one more than the
    driver takes the TX FIFO to hold. -/
theorem run_not_fourWords : ∃ h t, run SsiBus.empty bare (.write 0x10 1#32 :: .write 0x60 7#32 ::
      List.replicate 21 (.write 0x64 0x5A#32)) = .ok (h, t) ∧
    frameSize 7#32 = 8 ∧ txcount t.fsr = 5 ∧ rxcount t.fsr = 16 ∧ untransferred h = 5 ∧
    numberOfWrites t.fsr = 255#8 := ⟨_, _, rfl, rfl, rfl, rfl, rfl, rfl⟩

end S32K358.Lpspi
