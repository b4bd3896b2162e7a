import S32K358.Lpspi.Run

/-!
# The LPSPI: the data path

Between resets of the FIFOs, and as long as the format of the frames stays the
same, the words written to `TDR` are the words sent followed by those in the TX
FIFO, and the answers to the words sent are the words read from `RDR` followed
by those in the RX FIFO. Nothing is lost, duplicated or reordered, although
words are split into bytes and joined again on the way, and although a write
may send an older word than its own.

The invariant is that the FIFOs hold whole frames (`Aligned`): only then is the
stream of bytes of a FIFO a stream of words, on which an access acts as on a
queue (`Effect.conserves_tx`, `Effect.conserves_rx`).
-/

namespace S32K358.Lpspi

variable {n : ℕ} {β : Type} {bus : SsiBus β} {s t : State n β} {b : ℕ} {l : Bool}

/-! ## What goes in and out -/

/-- The words in a FIFO. -/
def fifoWords {c : ℕ} (l : Bool) (b : ℕ) (f : Fifo8 c) : List ℕ :=
  (Frame.words l b f.contents : List (BitVec 32)).map BitVec.toNat

/-- The word of an accepted write of `TDR`, as far as it fits in a frame. -/
def accepted (b : ℕ) (τ : Step n β) : List ℕ :=
  match τ.input with
  | .read _ => []
  | .write addr v =>
    if Reg.ofOffset? addr = some .tdr ∧ Bits.any τ.pre.cr crMen = true ∧
        b ≤ fifo8NumFree τ.pre.txFifo then [v.toNat % 2 ^ (8 * b)] else []

/-- The words handed to the bus, or looped back. -/
def handed (τ : Step n β) : List ℕ := (exchanges τ.output.calls).map (·.txData.toNat)

/-- The answers to them, as far as they fit in a frame. -/
def answered (b : ℕ) (τ : Step n β) : List ℕ :=
  (exchanges τ.output.calls).map (·.rxData.toNat % 2 ^ (8 * b))

/-- The value of a read of `RDR` that found data. -/
def returned (τ : Step n β) : List ℕ :=
  match τ.input with
  | .read addr =>
    if Reg.ofOffset? addr = some .rdr ∧ fifo8NumUsed τ.pre.rxFifo ≠ 0 then
      τ.output.value.toList.map BitVec.toNat
    else []
  | .write _ _ => []

/-! ## Frames in FIFOs -/

theorem fifoWords_pushAll {c w : ℕ} {f : Fifo8 c} (hb : 0 < b) (hb' : b ≤ 4) (hf : b ∣ f.num)
    (hroom : f.num + b ≤ c) (x : BitVec w) :
    fifoWords l b (f.pushAll (Frame.split l b x)) =
      fifoWords l b f ++ [x.toNat % 2 ^ (8 * b)] := by
  have hlen : f.num + (Frame.split l b x).length ≤ c := by rwa [Frame.length_split]
  have hdvd : b ∣ f.contents.length := by rwa [f.length_contents]
  have hword : (Frame.join l b (Frame.split l b x) : BitVec 32).toNat = x.toNat % 2 ^ (8 * b) :=
    Frame.toNat_join_split x (by omega)
  rw [fifoWords, f.contents_pushAll hlen, Frame.words_append hb hdvd, Frame.words_split hb,
    List.map_append, List.map_cons, hword]
  rfl

theorem fifoWords_popN {c : ℕ} {f : Fifo8 c} (hb : 0 < b) (hle : b ≤ f.num) :
    fifoWords l b f =
      (Frame.join l b (f.contents.take b) : BitVec 32).toNat :: fifoWords l b (f.popN b) := by
  rw [fifoWords, Frame.words_eq_cons hb (by rwa [f.length_contents]), List.map_cons, fifoWords,
    f.contents_popN]

/-! ## Accesses that keep the format -/

/-- The device between two accesses, with frames of `b` bytes in the order `l`, and
    whole ones in its FIFOs. -/
structure Aligned (b : ℕ) (l : Bool) (s : State n β) : Prop where
  settled : Settled s
  bytes_eq : bytesPerFrame s.tcr = b
  lsbf_eq : lsbf s.tcr = l
  rxmsk_eq : rxmsk s.tcr = false
  pcs_lt : pcs s.tcr < n
  tx_dvd : b ∣ s.txFifo.num
  rx_dvd : b ∣ s.rxFifo.num

/-- The command keeps the format of the frames: `b` bytes in the order `l`, of which
    the answers are stored, with one of the `n` chip selects. -/
def KeepsFormat (n b : ℕ) (l : Bool) (v : BitVec 32) : Prop :=
  bytesPerFrame v = b ∧ lsbf v = l ∧ rxmsk v = false ∧ pcs v < n

instance (n b : ℕ) (l : Bool) : DecidablePred (KeepsFormat n b l) :=
  fun _ => inferInstanceAs (Decidable (_ ∧ _ ∧ _ ∧ _))

/-- The access neither resets the device or a FIFO, nor changes the format. -/
structure Access.Transfers (n b : ℕ) (l : Bool) (a : Access) : Prop where
  cr : a.onWrite .cr fun v => Bits.any v (crRst ||| crRtf ||| crRrf) = false
  tcr : a.onWrite .tcr (KeepsFormat n b l)

instance (n b : ℕ) (l : Bool) (a : Access) : Decidable (a.Transfers n b l) :=
  decidable_of_iff (a.onWrite .cr (fun v => Bits.any v (crRst ||| crRtf ||| crRrf) = false) ∧
    a.onWrite .tcr (KeepsFormat n b l)) ⟨fun h => ⟨h.1, h.2⟩, fun h => ⟨h.1, h.2⟩⟩

variable {a : Access} {v : Option (BitVec 32)} {x : State n β}

theorem Aligned.bytes_pos (hs : Aligned b l s) : 0 < b := hs.bytes_eq ▸ hs.settled.bytes_pos

theorem Aligned.bytes_le (hs : Aligned b l s) : b ≤ 4 := hs.bytes_eq ▸ bytesPerFrame_le s.tcr

theorem Aligned.onWrite_tcr (hs : Aligned b l s) : KeepsFormat n b l s.tcr :=
  ⟨hs.bytes_eq, hs.lsbf_eq, hs.rxmsk_eq, hs.pcs_lt⟩

/-- The TX FIFO, with the word the access queues. -/
def filled (s : State n β) (a : Access) : Fifo8 fifoByteCapacity :=
  (accepts s a).elim s.txFifo fun v => (queued s v).txFifo

theorem Access.Transfers.not_setsCr (ha : a.Transfers n b l) {m : BitVec 32}
    (hm : (crRst ||| crRtf ||| crRrf) &&& m = m) : a.setsCr m = false := by
  cases a with
  | read addr => rfl
  | write addr v =>
    by_cases hr : Reg.ofOffset? addr = some .cr
    · have hv : Bits.any v (crRst ||| crRtf ||| crRrf) = false := ha.cr hr
      have hm' : Bits.any v m = false := by
        rw [Bits.any_eq_false_iff] at hv ⊢
        rw [← hm, ← BitVec.and_assoc, hv, BitVec.zero_and]
      simp [setsCr, hm']
    · simp [setsCr, hr]

/-- A frame is sent from the FIFOs as they are, with the word just queued. -/
theorem fifos_of_sending (hx : sending s a = some x) :
    x.txFifo = filled s a ∧ x.rxFifo = s.rxFifo := by
  obtain ⟨addr, v, rfl, hmen, -, ⟨hr, rfl⟩ | ⟨hr, rfl, hroom⟩⟩ := sending_eq_some hx
  · refine ⟨?_, rfl⟩
    simp [filled, accepts, hr, command]
  · refine ⟨?_, rfl⟩
    simp [filled, accepts, hr, hmen, hroom]

/-- A frame is sent in the format, from the TX FIFO as filled by the access. -/
theorem Aligned.sending (hs : Aligned b l s) (ha : a.Transfers n b l)
    (hx : sending s a = some x) : KeepsFormat n b l x.tcr ∧ Ready x ∧
      x.txFifo = filled s a ∧ x.rxFifo = s.rxFifo ∧ x.cfgr1 = s.cfgr1 := by
  obtain ⟨htx, hrx⟩ := fifos_of_sending hx
  obtain ⟨addr, v, rfl, hmen, hready, ⟨hr, rfl⟩ | ⟨hr, rfl, hroom⟩⟩ := sending_eq_some hx
  · exact ⟨ha.tcr hr, hready, htx, hrx, rfl⟩
  · exact ⟨hs.onWrite_tcr, hready, htx, hrx, rfl⟩

theorem Effect.txFifo_filled (hs : Aligned b l s) (ha : a.Transfers n b l)
    (h : Effect bus s a v t) :
    t.txFifo = if (Lpspi.sending s a).isSome then (filled s a).popN b else filled s a := by
  rw [h.txFifo_eq, txAfter, ha.not_setsCr (by decide)]
  cases hx : Lpspi.sending s a with
  | none => rfl
  | some x =>
    have hb : bytesPerFrame x.tcr = b := (hs.sending ha hx).1.1
    simp [filled, hb]

/-! ## Conservation, access by access -/

theorem accepted_eq (hb : bytesPerFrame s.tcr = b) {r : Reply n} {u : State n β} :
    accepted b ⟨s, a, r, u⟩ = (accepts s a).toList.map (·.toNat % 2 ^ (8 * b)) := by
  cases a with
  | read addr => rfl
  | write addr w =>
    have hle := s.txFifo.num_le
    have hfree : b ≤ fifo8NumFree s.txFifo ↔ s.txFifo.num + b ≤ fifoByteCapacity := by
      rw [fifo8NumFree_eq]
      omega
    simp only [accepted, accepts, hfree, hb]
    split <;> rfl

theorem Aligned.room_of_accepts (hs : Aligned b l s) {w : BitVec 32}
    (hw : accepts s a = some w) : s.txFifo.num + b ≤ fifoByteCapacity :=
  hs.bytes_eq ▸ Lpspi.room_of_accepts hw

/-- A word accepted is queued behind those in the TX FIFO. -/
theorem Aligned.fifoWords_filled (hs : Aligned b l s) {r : Reply n} {u : State n β} :
    fifoWords l b s.txFifo ++ accepted b ⟨s, a, r, u⟩ = fifoWords l b (filled s a) := by
  rw [accepted_eq hs.bytes_eq, filled]
  cases hw : accepts s a with
  | none => simp
  | some w =>
    rw [Option.elim_some, queued, Frame.split_setWidth (by decide), hs.bytes_eq, hs.lsbf_eq,
      fifoWords_pushAll hs.bytes_pos hs.bytes_le hs.tx_dvd (hs.room_of_accepts hw)]
    rfl

/-- The words an access takes into and gives from the TX FIFO. -/
theorem Effect.conserves_tx (hs : Aligned b l s) (ha : a.Transfers n b l)
    (h : Effect bus s a v t) (u : State n β) :
    fifoWords l b s.txFifo ++ accepted b ⟨s, a, ⟨v, t.calls⟩, u⟩ =
      handed ⟨s, a, ⟨v, t.calls⟩, u⟩ ++ fifoWords l b t.txFifo := by
  rw [hs.fifoWords_filled, handed, hs.settled.exchanges_eq h, h.txFifo_filled hs ha]
  cases hx : Lpspi.sending s a with
  | none => rfl
  | some x =>
    obtain ⟨⟨hb, hl, -, -⟩, hready, htx, -, -⟩ := hs.sending ha hx
    have hle : b ≤ (filled s a).num := by
      rw [← htx, ← hb]
      exact hready.1
    -- The word sent is the first one of the filled FIFO.
    have hword : (frame bus x).txData = Frame.join l b ((filled s a).contents.take b) := by
      rw [← hb, ← hl, ← htx]
      rfl
    rw [fifoWords_popN hs.bytes_pos hle, ← hword]
    rfl

theorem Effect.returned_eq (h : Effect bus s a v t) {c : List (Call n)} {u : State n β} :
    returned ⟨s, a, ⟨v, c⟩, u⟩ = if takes s a then [(rxWord s).toNat] else [] := by
  cases h with
  | @look addr h =>
    have hnot : ¬(Reg.ofOffset? addr = some .rdr ∧ s.rxFifo.num ≠ 0) := by tauto
    simp [returned, takes, hnot]
  | take hr h => simp [returned, takes, hr, h]
  | _ => rfl

theorem Aligned.room_of_sending (hs : Aligned b l s) (ha : a.Transfers n b l) {x : State n β}
    (hx : Lpspi.sending s a = some x) : s.rxFifo.num + b ≤ fifoByteCapacity := by
  obtain ⟨⟨hb, -, hm, -⟩, hready, -, hrx, -⟩ := hs.sending ha hx
  rw [← hrx, ← hb]
  exact hready.2 hm

/-- The words an access takes into and gives from the RX FIFO. -/
theorem Effect.conserves_rx (hs : Aligned b l s) (ha : a.Transfers n b l)
    (h : Effect bus s a v t) (u : State n β) :
    fifoWords l b s.rxFifo ++ answered b ⟨s, a, ⟨v, t.calls⟩, u⟩ =
      returned ⟨s, a, ⟨v, t.calls⟩, u⟩ ++ fifoWords l b t.rxFifo := by
  rw [answered, hs.settled.exchanges_eq h, h.returned_eq, h.rxFifo_eq, rxAfter,
    ha.not_setsCr (by decide), if_neg Bool.false_ne_true]
  cases htake : takes s a with
  | true =>
    obtain ⟨addr, rfl, hne⟩ : ∃ addr, a = .read addr ∧ s.rxFifo.num ≠ 0 := by
      cases a with
      | read addr => exact ⟨addr, rfl, (of_decide_eq_true htake).2⟩
      | write addr w => exact absurd htake Bool.false_ne_true
    -- The FIFO holds whole frames, so there is one to be read.
    have hle : b ≤ s.rxFifo.num := Nat.le_of_dvd (Nat.pos_of_ne_zero hne) hs.rx_dvd
    rw [fifoWords_popN hs.bytes_pos hle, if_pos rfl, if_pos rfl, hs.bytes_eq]
    simp only [Lpspi.sending, rxWord, hs.bytes_eq, hs.lsbf_eq]
    simp
  | false =>
    -- Otherwise the answer of a frame sent, if any, is queued.
    rw [if_neg Bool.false_ne_true, if_neg Bool.false_ne_true, List.nil_append]
    cases hx : Lpspi.sending s a with
    | none => simp
    | some x =>
      obtain ⟨hb, hl, hm, -⟩ := (hs.sending ha hx).1
      have hroom := hs.room_of_sending ha hx
      simp only [Option.elim_some, hm, Bool.false_eq_true, if_false, hb, hl]
      rw [fifoWords_pushAll hs.bytes_pos hs.bytes_le hs.rx_dvd hroom]
      rfl

/-! ## Whole runs -/

theorem dvd_num_pushAll {c w : ℕ} {f : Fifo8 c} (hf : b ∣ f.num) (hroom : f.num + b ≤ c)
    (x : BitVec w) : b ∣ (f.pushAll (Frame.split l b x)).num := by
  have hlen : f.num + (Frame.split l b x).length ≤ c := by rwa [Frame.length_split]
  rw [f.num_pushAll hlen, Frame.length_split]
  exact Nat.dvd_add hf (dvd_refl b)

theorem dvd_num_popN {c : ℕ} {f : Fifo8 c} (hf : b ∣ f.num) : b ∣ (f.popN b).num := by
  rw [f.num_popN]
  exact Nat.dvd_sub hf (dvd_refl b)

theorem Aligned.dvd_filled (hs : Aligned b l s) : b ∣ (filled s a).num := by
  rw [filled]
  cases hw : accepts s a with
  | none => exact hs.tx_dvd
  | some w =>
    have h := dvd_num_pushAll (l := l) hs.tx_dvd (hs.room_of_accepts hw) (w.setWidth 64)
    rwa [Option.elim_some, queued, hs.bytes_eq, hs.lsbf_eq]

theorem Aligned.keepsFormat_tcrAfter (hs : Aligned b l s) (ha : a.Transfers n b l) :
    KeepsFormat n b l (tcrAfter s a) := by
  have hrst : a.setsCr crRst = false := ha.not_setsCr (by decide)
  exact (tcrAfter_iff hs.onWrite_tcr fun h => absurd (hrst.symm.trans h) (by decide)).2 ha.tcr

/-- The FIFOs hold whole frames after an access, too. -/
theorem Effect.aligned (hs : Aligned b l s) (ha : a.Transfers n b l) (h : Effect bus s a v t) :
    Aligned b l { t with calls := [] } := by
  have hfmt : KeepsFormat n b l t.tcr := h.tcr_eq ▸ hs.keepsFormat_tcrAfter ha
  have hset : Settled { t with calls := [] } := h.settled hs.settled
  have htx : b ∣ t.txFifo.num := by
    rw [h.txFifo_filled hs ha]
    split
    · exact dvd_num_popN hs.dvd_filled
    · exact hs.dvd_filled
  have hrx : b ∣ t.rxFifo.num := by
    rw [h.rxFifo_eq, rxAfter, ha.not_setsCr (by decide), if_neg Bool.false_ne_true, hs.bytes_eq]
    split
    · exact dvd_num_popN hs.rx_dvd
    · cases hx : Lpspi.sending s a with
      | none => exact hs.rx_dvd
      | some x =>
        obtain ⟨hb, -, hm, -⟩ := (hs.sending ha hx).1
        rw [Option.elim_some, hm, if_neg Bool.false_ne_true, hb]
        exact dvd_num_pushAll hs.rx_dvd (hs.room_of_sending ha hx) _
  exact ⟨hset, hfmt.1, hfmt.2.1, hfmt.2.2.1, hfmt.2.2.2, htx, hrx⟩

/-- An access that keeps the format does not stop. -/
theorem Aligned.access (bus : SsiBus β) (hs : Aligned b l s) (ha : a.Transfers n b l) :
    ∃ v t, Effect bus s a v t ∧
      access bus s a = .ok (⟨v, t.calls⟩, { t with calls := [] }) := by
  have hframed : a.Framed := by
    cases a with
    | read addr => exact trivial
    | write addr w => exact fun hr h₀ => hs.bytes_pos.ne' ((ha.tcr hr).1.symm.trans h₀)
  rcases exists_effect bus s hframed with ⟨v, t, h⟩ | ho
  · exact ⟨v, t, h, h.access_eq hs.settled.bytes_ne_zero⟩
  · obtain ⟨x, hx, -, hn⟩ := (outOfBounds_iff hframed).1 ho
    exact absurd (hs.sending ha hx).1.2.2.2 (Nat.not_lt.2 hn)

theorem accepted_mod (τ : Step n β) : (accepted b τ).map (· % 2 ^ (8 * b)) = accepted b τ := by
  unfold accepted
  split
  · rfl
  · split
    · rw [List.map_cons, Nat.mod_mod, List.map_nil]
    · rfl

/-- In loopback mode, the answer to a word is the word. -/
theorem Effect.answered_eq_handed (hs : Aligned b l s) (ha : a.Transfers n b l)
    (hloop : loopback s.cfgr1 = true) (h : Effect bus s a v t) (u : State n β) :
    answered b ⟨s, a, ⟨v, t.calls⟩, u⟩ =
      (handed ⟨s, a, ⟨v, t.calls⟩, u⟩).map (· % 2 ^ (8 * b)) := by
  rw [answered, handed, hs.settled.exchanges_eq h]
  cases hx : Lpspi.sending s a with
  | none => rfl
  | some x =>
    have hloop' : loopback (asserted bus x).cfgr1 = true := by
      rw [← hloop, ← (hs.sending ha hx).2.2.2.2]
      rfl
    have hrx : (frame bus x).rxData = (frame bus x).txData := by
      change (answer bus (asserted bus x) (txWord x)).1 = txWord x
      rw [answer, if_pos hloop']
    simp [hrx]

variable {as : List Access} {h : List (Step n β)}

/-- All along a run that keeps the format, the FIFOs hold whole frames. -/
theorem run_aligned (hr : run bus s as = .ok (h, t)) (hs : Aligned b l s)
    (ha : ∀ a ∈ as, a.Transfers n b l) : Aligned b l t ∧ ∀ τ ∈ h, Aligned b l τ.pre := by
  have hinv := Mealy.run_invariant (I := Aligned b l) hr hs fun τ hτ htake hpre => by
    obtain ⟨u, hu, -, hpost⟩ := effect_of_access hpre.settled.bytes_ne_zero htake
    exact hpost ▸ hu.aligned hpre (ha _ (Mealy.run_takes hr τ hτ).2)
  exact ⟨hinv.1, fun τ hτ => (hinv.2 τ hτ).1⟩

/-- A run that keeps the format goes to its end. -/
theorem run_transfers_ok (bus : SsiBus β) (hs : Aligned b l s)
    (ha : ∀ a ∈ as, a.Transfers n b l) : ∃ h t, run bus s as = .ok (h, t) := by
  refine Mealy.run_ok (I := Aligned b l) (D := Access.Transfers n b l) (fun s a hs ha => ?_) hs ha
  obtain ⟨v, t, h, hok⟩ := hs.access bus ha
  exact ⟨_, _, hok, h.aligned hs ha⟩

/-- A property of the effects, in a run that keeps the format, of its transitions. -/
theorem run_effects {P : Step n β → Prop} (hr : run bus s as = .ok (h, t)) (hs : Aligned b l s)
    (ha : ∀ a ∈ as, a.Transfers n b l)
    (hP : ∀ {s a v t}, Aligned b l s → a.Transfers n b l → Effect bus s a v t →
      P ⟨s, a, ⟨v, t.calls⟩, { t with calls := [] }⟩) : ∀ τ ∈ h, P τ := by
  intro τ hτ
  have hpre := (run_aligned hr hs ha).2 τ hτ
  obtain ⟨htake, hin⟩ := Mealy.run_takes hr τ hτ
  obtain ⟨u, hu, hcalls, hpost⟩ := effect_of_access hpre.settled.bytes_ne_zero htake
  have h := hP hpre (ha _ hin) hu
  rwa [← hcalls, ← hpost] at h

/-- The TX FIFO, over a run. -/
theorem run_conserves_tx (hr : run bus s as = .ok (h, t)) (hs : Aligned b l s)
    (ha : ∀ a ∈ as, a.Transfers n b l) :
    fifoWords l b s.txFifo ++ h.flatMap (accepted b) =
      h.flatMap handed ++ fifoWords l b t.txFifo := by
  have hstep : ∀ τ ∈ h, fifoWords l b τ.pre.txFifo ++ accepted b τ =
      handed τ ++ fifoWords l b τ.post.txFifo :=
    run_effects hr hs ha fun hs ha h => h.conserves_tx hs ha _
  exact Mealy.run_conserves (fun s : State n β => fifoWords l b s.txFifo) hr hstep

/-- The RX FIFO, over a run. -/
theorem run_conserves_rx (hr : run bus s as = .ok (h, t)) (hs : Aligned b l s)
    (ha : ∀ a ∈ as, a.Transfers n b l) :
    fifoWords l b s.rxFifo ++ h.flatMap (answered b) =
      h.flatMap returned ++ fifoWords l b t.rxFifo := by
  have hstep : ∀ τ ∈ h, fifoWords l b τ.pre.rxFifo ++ answered b τ =
      returned τ ++ fifoWords l b τ.post.rxFifo :=
    run_effects hr hs ha fun hs ha h => h.conserves_rx hs ha _
  exact Mealy.run_conserves (fun s : State n β => fifoWords l b s.rxFifo) hr hstep

/-- Loopback mode lasts, if no write of `CFGR1` leaves it. -/
theorem run_loopback (hr : run bus s as = .ok (h, t)) (hs : Aligned b l s)
    (ha : ∀ a ∈ as, a.Transfers n b l) (hloop : loopback s.cfgr1 = true)
    (hcfg : ∀ a ∈ as, a.onWrite .cfgr1 (loopback · = true)) :
    ∀ τ ∈ h, loopback τ.pre.cfgr1 = true := by
  have hinv := Mealy.run_invariant
    (I := fun s => Settled s ∧ loopback s.cfgr1 = true) hr ⟨hs.settled, hloop⟩ ?_
  · exact fun τ hτ => (hinv.2 τ hτ).1.2
  · intro τ hτ htake ⟨hset, hpre⟩
    have hin := (Mealy.run_takes hr τ hτ).2
    obtain ⟨u, hu, -, hpost⟩ := effect_of_access hset.bytes_ne_zero htake
    refine ⟨hset.access htake, ?_⟩
    have hcfgr1 : τ.post.cfgr1 = cfgr1After τ.pre τ.input := by
      rw [← hu.cfgr1_eq, hpost]
    rw [hcfgr1]
    have hcfg' := hcfg _ hin
    have hrst : τ.input.setsCr crRst = false := (ha _ hin).not_setsCr (by decide)
    generalize τ.input = a at hcfg' hrst ⊢
    cases a with
    | read addr => exact hpre
    | write addr w =>
      rw [cfgr1After]
      split_ifs with h₁ h₂
      · exact hcfg' h₁
      · exact absurd hrst (by simp [Access.setsCr, h₂.1, h₂.2])
      · exact hpre

theorem fifoWords_of_num_eq_zero {c : ℕ} {f : Fifo8 c} (hf : f.num = 0) : fifoWords l b f = [] := by
  rw [fifoWords, List.eq_nil_of_length_eq_zero (f.length_contents.trans hf), Frame.words_nil]
  rfl

/-- **The data path.** From a state with empty FIFOs, in a run that resets nothing
    and keeps the format of the frames (`b` bytes, the byte order, answers stored,
    an existing chip select), the words accepted by `TDR` are those handed to the
    bus followed by those in the TX FIFO, and the answers of the bus are those
    read from `RDR` followed by those in the RX FIFO. In loopback mode, the reads
    are thus a prefix of the writes. -/
theorem dataPath_in_order (bus : SsiBus β) {s : State n β} (hs : Reachable bus s)
    (htx : s.txFifo.num = 0) (hrx : s.rxFifo.num = 0) (hmask : rxmsk s.tcr = false)
    (hpcs : pcs s.tcr < n) (as : List Access)
    (ha : ∀ a ∈ as, a.Transfers n (bytesPerFrame s.tcr) (lsbf s.tcr)) :
    let b := bytesPerFrame s.tcr
    let l := lsbf s.tcr
    ∃ h t, run bus s as = .ok (h, t) ∧ 1 ≤ b ∧ b ≤ 4 ∧
      (b ∣ t.txFifo.num ∧ b ∣ t.rxFifo.num) ∧
      h.flatMap (accepted b) = h.flatMap handed ++ fifoWords l b t.txFifo ∧
      h.flatMap (answered b) = h.flatMap returned ++ fifoWords l b t.rxFifo ∧
      (loopback s.cfgr1 = true → (∀ a ∈ as, a.onWrite .cfgr1 (loopback · = true)) →
        h.flatMap returned <+: h.flatMap (accepted b)) := by
  intro b l
  have hal : Aligned b l s :=
    ⟨hs.settled, rfl, rfl, hmask, hpcs, htx ▸ dvd_zero b, hrx ▸ dvd_zero b⟩
  obtain ⟨h, t, hr⟩ := run_transfers_ok bus hal ha
  have hW := run_conserves_tx hr hal ha
  have hR := run_conserves_rx hr hal ha
  rw [fifoWords_of_num_eq_zero htx, List.nil_append] at hW
  rw [fifoWords_of_num_eq_zero hrx, List.nil_append] at hR
  have ht := (run_aligned hr hal ha).1
  refine ⟨h, t, hr, hal.bytes_pos, hal.bytes_le, ⟨ht.tx_dvd, ht.rx_dvd⟩, hW, hR, ?_⟩
  intro hloop hcfg
  -- The answers are the words handed over, which are the first ones accepted.
  have hanswered : h.flatMap (answered b) = (h.flatMap handed).map (· % 2 ^ (8 * b)) := by
    rw [List.map_flatMap]
    have hstep := run_effects hr hal ha (P := fun τ => loopback τ.pre.cfgr1 = true →
      answered b τ = (handed τ).map (· % 2 ^ (8 * b)))
      fun hs ha h hloop => h.answered_eq_handed hs ha hloop _
    exact List.flatMap_congr fun τ hτ => hstep τ hτ (run_loopback hr hal ha hloop hcfg τ hτ)
  have haccepted : (h.flatMap (accepted b)).map (· % 2 ^ (8 * b)) = h.flatMap (accepted b) := by
    rw [List.map_flatMap]
    exact List.flatMap_congr fun τ _ => accepted_mod τ
  calc h.flatMap returned
      <+: h.flatMap (answered b) := hR ▸ List.prefix_append _ _
    _ = (h.flatMap handed).map (· % 2 ^ (8 * b)) := hanswered
    _ <+: (h.flatMap (accepted b)).map (· % 2 ^ (8 * b)) :=
      (hW ▸ List.prefix_append _ _ : h.flatMap handed <+: h.flatMap (accepted b)).map _
    _ = h.flatMap (accepted b) := haccepted

/-- A word sent in continuous mode and read back. -/
theorem dataPath_in_order_once : ∃ h t,
    run SsiBus.empty bare [.write 0x10 1#32, .write 0x60 0x4000001F#32,
      .write 0x64 0xCAFE0001#32, .read 0x74] = .ok (h, t) ∧
      h.flatMap (accepted 4) = h.flatMap handed ++ fifoWords false 4 t.txFifo ∧
      h.flatMap (answered 4) = h.flatMap returned ++ fifoWords false 4 t.rxFifo := by
  obtain ⟨h, t, hr, -, -, -, hW, hR, -⟩ := dataPath_in_order SsiBus.empty powerOn_bare.reachable
    rfl rfl (by decide) (by decide) [.write 0x10 1#32, .write 0x60 0x4000001F#32,
      .write 0x64 0xCAFE0001#32, .read 0x74] (by decide)
  exact ⟨h, t, hr, hW, hR⟩

end S32K358.Lpspi
