import S32K358.Lpspi.Effect

/-!
# The LPSPI: runs

The device between two accesses of a run from power on: its frames have bytes,
its status is up to date, its watermarks are those of `FCR`, and it is not in the
middle of an access (`Settled`). All runs stay in such states, and, as long as no command has
frames without bytes, stop only if a chip-select line does not exist.
-/

namespace S32K358.Lpspi

variable {n : ℕ} {β : Type} {bus : SsiBus β} {s t : State n β}

/-! ## Updates of the status, again -/

theorem statusSr_status : statusSr (status s) = statusSr s := by
  have hdisj : srTdf &&& srRdf = 0#32 := by decide
  -- The second update makes the same assignments, which commute.
  have hagain : statusSr (status s) = Bits.assignIf
      (Bits.assignIf (statusSr s) srTdf (decide (txWords s ≤ s.txWatermark))
        (decide (4 ≤ fifoByteCapacity - s.txFifo.num)))
      srRdf (decide (s.rxWatermark < rxWords s)) (decide (4 ≤ s.rxFifo.num)) := rfl
  rw [hagain, statusSr, Bits.assignIf_comm hdisj, Bits.assignIf_assignIf,
    Bits.assignIf_comm hdisj, Bits.assignIf_assignIf]

/-- An update of the status right after another one does nothing. -/
theorem status_status : status (status s) = status s := by
  have hrsr : (status (status s)).rsr = (status s).rsr := Bits.assign_assign _ _
  calc status (status s)
      = { status s with sr := statusSr (status s), rsr := (status (status s)).rsr } := rfl
    _ = status s := by rw [statusSr_status, hrsr]; rfl

theorem status_settle : status (settle s) = settle s := by
  have h : status (settle s) = setIrq (status (status s)) (irqLevel (status s)) := rfl
  rw [h, status_status, settle]

/-! ## Settled states -/

/-- The device between two accesses. -/
structure Settled (s : State n β) : Prop where
  bytes_ne_zero : bytesPerFrame s.tcr ≠ 0
  status_eq : status s = s
  txWatermark_eq : s.txWatermark = txwater s.fcr
  rxWatermark_eq : s.rxWatermark = rxwater s.fcr
  calls_eq : s.calls = []

theorem Settled.bytes_pos (hs : Settled s) : 0 < bytesPerFrame s.tcr :=
  Nat.pos_of_ne_zero hs.bytes_ne_zero

/-- The state right after power on. -/
def atPowerOn (bus : SsiBus β) (hz n : ℕ) (ssi : β) : State n β :=
  { afterReset bus (realized hz n ssi) with calls := [] }

theorem powerOn_iff {s₀ : State n β} : PowerOn bus s₀ ↔
    ∃ hz ssi, hz ≠ 0 ∧ 1 ≤ n ∧ n ≤ 4 ∧ s₀ = atPowerOn bus hz n ssi := by
  constructor
  · rintro ⟨clk, ssi, dev, s, hdev, hs, rfl⟩
    rcases clk with _ | hz
    · exact absurd hdev (by simp [realize])
    · rw [realize] at hdev
      split_ifs at hdev with hhz hn
      rw [Except.ok.injEq] at hdev
      rw [doReset_eq, Except.ok.injEq, ← hdev] at hs
      exact ⟨hz, ssi, hhz, by omega, by omega, by rw [← hs, atPowerOn]⟩
  · rintro ⟨hz, ssi, hhz, h₁, h₄, rfl⟩
    refine ⟨some hz, ssi, realized hz n ssi, _, ?_, doReset_eq, rfl⟩
    rw [realize, if_neg hhz, if_neg (by omega)]

/-- An LPSPI as the SoC has it, with a clock of 80 MHz and one chip-select line,
    but on a bus without peripherals, right after power on. -/
def bare : State 1 Unit := atPowerOn SsiBus.empty 80000000 1 ()

theorem powerOn_bare : PowerOn SsiBus.empty bare :=
  powerOn_iff.2 ⟨80000000, (), by decide, by decide, by decide, rfl⟩

theorem settled_clear (hb : bytesPerFrame t.tcr ≠ 0) (h : status t = t)
    (hw : t.txWatermark = txwater t.fcr ∧ t.rxWatermark = rxwater t.fcr) :
    Settled { t with calls := [] } where
  bytes_ne_zero := hb
  status_eq := by
    conv_rhs => rw [← h]
    rfl
  txWatermark_eq := hw.1
  rxWatermark_eq := hw.2
  calls_eq := rfl

theorem watermarks_afterReset : (afterReset bus s).txWatermark = txwater (afterReset bus s).fcr ∧
    (afterReset bus s).rxWatermark = rxwater (afterReset bus s).fcr := by
  change 0 = txwater 0#32 ∧ 0 = rxwater 0#32
  decide

theorem status_afterReset : status (afterReset bus s) = afterReset bus s := by
  rw [afterReset, status_settle]

theorem PowerOn.settled {s₀ : State n β} (h₀ : PowerOn bus s₀) : Settled s₀ := by
  obtain ⟨hz, ssi, -, -, -, rfl⟩ := powerOn_iff.1 h₀
  have hb : bytesPerFrame (afterReset bus (realized hz n ssi)).tcr ≠ 0 := by
    change bytesPerFrame 0x1F#32 ≠ 0
    decide
  exact settled_clear hb status_afterReset watermarks_afterReset

/-- A configuration changes neither the command nor the FIFOs nor the status. -/
theorem configure_frame {v : BitVec 32} {r : Reg} (ht : configure s v r = some t) :
    t.tcr = s.tcr ∧ t.txFifo = s.txFifo ∧ t.rxFifo = s.rxFifo ∧ t.sr = s.sr ∧ t.cr = s.cr ∧
      t.rxWatermark = s.rxWatermark ∧ t.busy = s.busy ∧ t.csLines = s.csLines := by
  obtain ⟨_, _, _, _, _, _, _, rfl⟩ := configure_eq ht
  exact ⟨rfl, rfl, rfl, rfl, rfl, rfl, rfl, rfl⟩

theorem readOnly_ne {addr : ℕ} (hr : ∀ r, Reg.ofOffset? addr = some r → r.readOnly = true) :
    Reg.ofOffset? addr ≠ some .cr ∧ Reg.ofOffset? addr ≠ some .tcr ∧
      Reg.ofOffset? addr ≠ some .tdr := by
  refine ⟨fun h => ?_, fun h => ?_, fun h => ?_⟩ <;> exact absurd (hr _ h) (by decide)

theorem configure_ne {v : BitVec 32} {r : Reg} (ht : configure s v r = some t) :
    r ≠ .cr ∧ r ≠ .tcr ∧ r ≠ .tdr := by
  cases r <;> simp [configure] at ht ⊢

/-- The command in force after an access. -/
def tcrAfter (s : State n β) : Access → BitVec 32
  | .read _ => s.tcr
  | .write addr v =>
    if Reg.ofOffset? addr = some .tcr then v
    else if Reg.ofOffset? addr = some .cr ∧ Bits.any v crRst = true then 0x1F#32
    else s.tcr

theorem Effect.tcr_eq {a : Access} {v : Option (BitVec 32)} (h : Effect bus s a v t) :
    t.tcr = tcrAfter s a := by
  cases h with
  | look | take => rfl
  | ignore hr =>
    obtain ⟨h₁, h₂, -⟩ := readOnly_ne hr
    rw [tcrAfter, if_neg h₂, if_neg fun h => h₁ h.1]
  | reset hr hrst | control hr hrst =>
    simp only [tcrAfter, hr, hrst]
    rfl
  | configure hr ht =>
    obtain ⟨htcr, -⟩ := configure_frame ht
    obtain ⟨h₁, h₂, -⟩ := configure_ne ht
    simp [tcrAfter, hr, htcr, h₁, h₂]
  | clear hr | watermark hr | command hr | resume hr | refuse hr | overflow hr | queue hr
  | send hr => simp [tcrAfter, hr, writeFcr]

/-- `CFGR1` after an access. -/
def cfgr1After (s : State n β) : Access → BitVec 32
  | .read _ => s.cfgr1
  | .write addr v =>
    if Reg.ofOffset? addr = some .cfgr1 then v
    else if Reg.ofOffset? addr = some .cr ∧ Bits.any v crRst = true then 0#32
    else s.cfgr1

theorem Effect.cfgr1_eq {a : Access} {v : Option (BitVec 32)} (h : Effect bus s a v t) :
    t.cfgr1 = cfgr1After s a := by
  cases h with
  | look | take => rfl
  | ignore hr =>
    have h₁ : Reg.ofOffset? _ ≠ some .cfgr1 := fun h => absurd (hr _ h) (by decide)
    rw [cfgr1After, if_neg h₁, if_neg fun h => (readOnly_ne hr).1 h.1]
  | reset hr hrst | control hr hrst =>
    simp only [cfgr1After, hr, hrst]
    rfl
  | @configure _ _ r _ hr ht =>
    cases r <;> simp only [Lpspi.configure, reduceCtorEq, Option.some.injEq] at ht <;>
      subst ht <;> simp only [cfgr1After, hr] <;> rfl
  | clear hr | watermark hr | command hr | resume hr | refuse hr | overflow hr | queue hr
  | send hr => simp [cfgr1After, hr, writeFcr]

theorem Effect.bytes_ne_zero {a : Access} {v : Option (BitVec 32)} (hb : bytesPerFrame s.tcr ≠ 0)
    (h : Effect bus s a v t) : bytesPerFrame t.tcr ≠ 0 := by
  cases h with
  | reset =>
    change bytesPerFrame 0x1F#32 ≠ 0
    decide
  | command _ hv | resume _ hv => simpa using hv
  | configure _ ht =>
    obtain ⟨htcr, -⟩ := configure_frame ht
    exact htcr ▸ hb
  | send => simpa using hb
  | _ => exact hb

theorem Effect.status_eq {a : Access} {v : Option (BitVec 32)} (hs : status s = s)
    (h : Effect bus s a v t) : status t = t := by
  cases h with
  | look | take => exact status_status
  | ignore => exact hs
  | _ => exact status_settle

/-- The watermarks are the fields of `FCR`. -/
theorem Effect.watermarks_eq {a : Access} {v : Option (BitVec 32)} (hs : Settled s)
    (h : Effect bus s a v t) : t.txWatermark = txwater t.fcr ∧ t.rxWatermark = rxwater t.fcr := by
  have hw := And.intro hs.txWatermark_eq hs.rxWatermark_eq
  cases h with
  | reset => exact watermarks_afterReset
  | watermark => exact ⟨rfl, rfl⟩
  | configure hr ht =>
    obtain ⟨_, _, _, _, _, _, _, rfl⟩ := configure_eq ht
    exact hw
  | look | take | ignore | control => exact hw
  | clear | command | resume | refuse | overflow | queue | send => simpa using hw

/-- The watermarks after an access. -/
def watermarksAfter (s : State n β) : Access → ℕ × ℕ
  | .read _ => (s.txWatermark, s.rxWatermark)
  | .write addr v =>
    if Reg.ofOffset? addr = some .fcr then (txwater v, rxwater v)
    else if Reg.ofOffset? addr = some .cr ∧ Bits.any v crRst = true then (0, 0)
    else (s.txWatermark, s.rxWatermark)

theorem Effect.watermarksAfter_eq {a : Access} {v : Option (BitVec 32)} (h : Effect bus s a v t) :
    (t.txWatermark, t.rxWatermark) = watermarksAfter s a := by
  cases h with
  | look | take => rfl
  | ignore hr =>
    have h₁ : Reg.ofOffset? _ ≠ some .fcr := fun h => absurd (hr _ h) (by decide)
    rw [watermarksAfter, if_neg h₁, if_neg fun h => (readOnly_ne hr).1 h.1]
  | reset hr hrst | control hr hrst =>
    simp only [watermarksAfter, hr, hrst]
    rfl
  | @configure _ _ r _ hr ht =>
    cases r <;> simp only [Lpspi.configure, reduceCtorEq, Option.some.injEq] at ht <;>
      subst ht <;> simp [watermarksAfter, hr]
  | watermark hr =>
    simp only [watermarksAfter, hr]
    rfl
  | clear hr | command hr | resume hr | refuse hr | overflow hr | queue hr | send hr =>
    simp [watermarksAfter, hr]

theorem Effect.settled {a : Access} {v : Option (BitVec 32)} (hs : Settled s)
    (h : Effect bus s a v t) : Settled { t with calls := [] } :=
  settled_clear (h.bytes_ne_zero hs.bytes_ne_zero) (h.status_eq hs.status_eq) (h.watermarks_eq hs)

theorem Settled.access {a : Access} {r : Reply n} (hs : Settled s)
    (h : access bus s a = .ok (r, t)) : Settled t := by
  obtain ⟨u, hu, -, rfl⟩ := effect_of_access hs.bytes_ne_zero h
  exact hu.settled hs

/-- Reading a register, apart from taking a frame, changes nothing. -/
theorem Settled.access_look {addr : ℕ} (hs : Settled s)
    (h : Reg.ofOffset? addr ≠ some .rdr ∨ s.rxFifo.num = 0) :
    Lpspi.access bus s (.read addr) = .ok (⟨some (peek s (Reg.ofOffset? addr)), []⟩, s) := by
  have hclear : { s with calls := [] } = s := by rw [← hs.calls_eq]
  rw [access_read (read_of_ne hs.bytes_ne_zero h), hs.status_eq, hs.calls_eq, hclear]

/-! ## Frames sent -/

/-- The state from which the access sends a frame, if it does. -/
def sending (s : State n β) : Access → Option (State n β)
  | .read _ => none
  | .write addr v =>
    -- A command sends what is queued; data may send an older frame than its own.
    if Reg.ofOffset? addr = some .tcr ∧ Bits.any s.cr crMen = true ∧ Ready (command s v) then
      some (command s v)
    else if Reg.ofOffset? addr = some .tdr ∧ Bits.any s.cr crMen = true ∧
        s.txFifo.num + bytesPerFrame s.tcr ≤ fifoByteCapacity ∧ Ready (queued s v) then
      some (queued s v)
    else none

/-- The frame sent from a state. -/
def frame (bus : SsiBus β) (s : State n β) : Exchange n :=
  ⟨txWord s, (answer bus (asserted bus s) (txWord s)).1, loopback s.cfgr1, s.tcr, s.cfgr1,
    (asserted bus s).csLines⟩

def Call.exchange? : Call n → Option (Exchange n)
  | .exchange x => some x
  | _ => none

/-- The frames exchanged among some calls. -/
def exchanges (l : List (Call n)) : List (Exchange n) := l.filterMap Call.exchange?

@[simp] theorem exchanges_nil : exchanges ([] : List (Call n)) = [] := rfl

@[simp] theorem exchanges_append (l m : List (Call n)) :
    exchanges (l ++ m) = exchanges l ++ exchanges m := List.filterMap_append

@[simp] theorem exchanges_settle : exchanges (settle s).calls = exchanges s.calls := by
  change exchanges (s.calls ++ [.setIrq _]) = _
  simp [exchanges, Call.exchange?]

@[simp] theorem exchanges_updateClockConfig :
    exchanges (updateClockConfig s).calls = exchanges s.calls := by
  have hlog : exchanges (clockLog s) = [] := by
    simp only [clockLog]
    split_ifs <;> rfl
  rw [updateClockConfig, exchanges_append, hlog, List.append_nil]

theorem exchanges_setCs (c : Bool) (i : ℕ) (level : Bool) :
    exchanges (if c then [Call.setCs (n := n) i level] else []) = [] := by
  cases c <;> rfl

@[simp] theorem exchanges_sendFrame :
    exchanges (sendFrame bus s).calls = exchanges s.calls ++ [frame bus s] := by
  have hassert : exchanges (asserted bus s).calls = exchanges s.calls := by
    rw [asserted, exchanges_append, exchanges_setCs, List.append_nil]
  have hexchange : (exchanged bus (asserted bus s)).calls =
      (asserted bus s).calls ++ [.exchange (frame bus s)] := rfl
  have hrelease : ∀ x : State n β, exchanges (released bus x).calls = exchanges x.calls := by
    intro x
    rw [released, exchanges_append, exchanges_setCs, List.append_nil]
  have hstatus : ∀ x : State n β, (status x).calls = x.calls := fun _ => rfl
  rw [sendFrame, exchanges_settle, hrelease, hstatus, hexchange, exchanges_append, hassert]
  rfl

theorem exchanges_configure {v : BitVec 32} {r : Reg} (ht : configure s v r = some t) :
    exchanges t.calls = exchanges s.calls := by
  cases r <;> simp only [configure, reduceCtorEq, Option.some.injEq] at ht <;> subst ht
  all_goals first | rfl | exact exchanges_updateClockConfig

theorem exchanges_afterReset : exchanges (afterReset bus s).calls = exchanges s.calls := by
  have hcs : ∀ l : List ℕ, exchanges (l.map fun i => Call.setCs (n := n) i true) = [] := by
    intro l
    induction l with
    | nil => rfl
    | cons i l ih => exact ih
  have hraised : exchanges (raised bus (resetRegs s)).calls = exchanges s.calls := by
    change exchanges (s.calls ++ (List.range' 0 n).map fun i => Call.setCs i true) = _
    rw [exchanges_append, hcs, List.append_nil]
  rw [afterReset, exchanges_settle, exchanges_updateClockConfig, hraised]

theorem sending_of_tcr {addr : ℕ} {v : BitVec 32} (hr : Reg.ofOffset? addr = some .tcr) :
    sending s (.write addr v) =
      if Bits.any s.cr crMen = true ∧ Ready (command s v) then some (command s v) else none := by
  simp [sending, hr]

theorem sending_of_tdr {addr : ℕ} {v : BitVec 32} (hr : Reg.ofOffset? addr = some .tdr) :
    sending s (.write addr v) =
      if Bits.any s.cr crMen = true ∧ s.txFifo.num + bytesPerFrame s.tcr ≤ fifoByteCapacity ∧
        Ready (queued s v) then some (queued s v) else none := by
  simp [sending, hr]

theorem sending_of_ne {addr : ℕ} {v : BitVec 32} (h₁ : Reg.ofOffset? addr ≠ some .tcr)
    (h₂ : Reg.ofOffset? addr ≠ some .tdr) : sending s (.write addr v) = none := by
  simp [sending, h₁, h₂]

/-- The frames an access exchanges. -/
theorem Effect.exchanges_eq {a : Access} {v : Option (BitVec 32)} (h : Effect bus s a v t) :
    exchanges t.calls = exchanges s.calls ++ (sending s a).toList.map (frame bus) := by
  cases h with
  | look | take => simp [sending, status, taken]
  | ignore hr =>
    rw [sending_of_ne (fun h => by simpa [Reg.readOnly] using hr _ h)
      (fun h => by simpa [Reg.readOnly] using hr _ h)]
    simp
  | reset hr => simp [sending_of_ne, hr, exchanges_afterReset]
  | control hr => simp [sending_of_ne, hr, writeCr]
  | clear hr => simp [sending_of_ne, hr]
  | @configure _ _ r _ hr ht =>
    have hne : r ≠ .tcr ∧ r ≠ .tdr := by
      cases r <;> simp [Lpspi.configure] at ht ⊢
    simp [sending_of_ne, hr, hne, exchanges_configure ht]
  | watermark hr => simp [sending_of_ne, hr, status, writeFcr]
  | command hr hv h => simp [sending_of_tcr hr, h]
  | resume hr hv hmen h hcs => simp [sending_of_tcr hr, hmen, h]
  | refuse hr hmen => simp [sending_of_tdr hr, hmen]
  | overflow hr hmen h => simp [sending_of_tdr hr, Nat.not_le.2 h]
  | queue hr hmen hroom h => simp [sending_of_tdr hr, h]
  | send hr hmen hroom h hcs => simp [sending_of_tdr hr, hmen, hroom, h]

theorem Settled.exchanges_eq {a : Access} {v : Option (BitVec 32)} (hs : Settled s)
    (h : Effect bus s a v t) : exchanges t.calls = (sending s a).toList.map (frame bus) := by
  rw [h.exchanges_eq, hs.calls_eq, exchanges_nil, List.nil_append]

theorem sending_eq_some {a : Access} (h : sending s a = some t) :
    ∃ addr v, a = .write addr v ∧ Bits.any s.cr crMen = true ∧ Ready t ∧
      (Reg.ofOffset? addr = some .tcr ∧ t = command s v ∨
        Reg.ofOffset? addr = some .tdr ∧ t = queued s v ∧
          s.txFifo.num + bytesPerFrame s.tcr ≤ fifoByteCapacity) := by
  cases a with
  | read addr => exact absurd h (by simp [sending])
  | write addr v =>
    rw [sending] at h
    split_ifs at h with h₁ h₂
    · obtain ⟨rfl⟩ := h
      exact ⟨addr, v, rfl, h₁.2.1, h₁.2.2, .inl ⟨h₁.1, rfl⟩⟩
    · obtain ⟨rfl⟩ := h
      exact ⟨addr, v, rfl, h₂.2.1, h₂.2.2.2, .inr ⟨h₂.1, rfl, h₂.2.2.1⟩⟩

/-- An access is out of bounds if it sends a frame whose chip select is to be
    driven and does not exist. -/
theorem outOfBounds_iff {a : Access} (ha : a.Framed) :
    OutOfBounds s a ↔ ∃ x, sending s a = some x ∧ asserts x = true ∧ n ≤ pcs x.tcr := by
  constructor
  · rintro (⟨hr, hv, hmen, h, hcs⟩ | ⟨hr, hmen, hroom, h, hcs⟩)
    · exact ⟨_, by rw [sending_of_tcr hr, if_pos ⟨hmen, h⟩], hcs⟩
    · exact ⟨_, by rw [sending_of_tdr hr, if_pos ⟨hmen, hroom, h⟩], hcs⟩
  · rintro ⟨x, hx, hcs⟩
    obtain ⟨addr, v, rfl, hmen, h, ⟨hr, rfl⟩ | ⟨hr, rfl, hroom⟩⟩ := sending_eq_some hx
    · exact .resume hr (ha hr) hmen h hcs
    · exact .send hr hmen hroom h hcs

/-! ## The FIFOs after an access -/

theorem num_txFifo_sendFrame :
    (sendFrame bus s).txFifo.num = s.txFifo.num - bytesPerFrame s.tcr :=
  RingBuffer.num_popN _ _

theorem num_rxFifo_sendFrame (h : Ready s) : (sendFrame bus s).rxFifo.num =
    if rxmsk s.tcr then s.rxFifo.num else s.rxFifo.num + bytesPerFrame s.tcr := by
  have hrx : (sendFrame bus s).rxFifo = if rxmsk s.tcr then s.rxFifo else
      s.rxFifo.pushAll (Frame.split (lsbf s.tcr) (bytesPerFrame s.tcr) (frame bus s).rxData) := rfl
  rw [hrx]
  cases hm : rxmsk s.tcr with
  | true => rfl
  | false =>
    have hroom := h.2 hm
    rw [if_neg Bool.false_ne_true, if_neg Bool.false_ne_true, RingBuffer.num_pushAll,
      Frame.length_split]
    rwa [Frame.length_split]

theorem num_txFifo_queued {v : BitVec 32}
    (h : s.txFifo.num + bytesPerFrame s.tcr ≤ fifoByteCapacity) :
    (queued s v).txFifo.num = s.txFifo.num + bytesPerFrame s.tcr := by
  rw [queued, RingBuffer.num_pushAll, Frame.length_split]
  rwa [Frame.length_split]

/-- The value that the access queues in the TX FIFO, if it does. -/
def accepts (s : State n β) : Access → Option (BitVec 32)
  | .read _ => none
  | .write addr v =>
    if Reg.ofOffset? addr = some .tdr ∧ Bits.any s.cr crMen = true ∧
        s.txFifo.num + bytesPerFrame s.tcr ≤ fifoByteCapacity then some v else none

theorem room_of_accepts {a : Access} {v : BitVec 32} (h : accepts s a = some v) :
    s.txFifo.num + bytesPerFrame s.tcr ≤ fifoByteCapacity := by
  cases a with
  | read => exact absurd h (by simp [accepts])
  | write addr w =>
    rw [accepts] at h
    split_ifs at h with hacc
    exact hacc.2.2

/-- The access takes a frame from the RX FIFO. -/
def takes (s : State n β) : Access → Bool
  | .read addr => decide (Reg.ofOffset? addr = some .rdr ∧ s.rxFifo.num ≠ 0)
  | .write _ _ => false

/-- The access sets one of the bits of `CR` in a mask. -/
def Access.setsCr (m : BitVec 32) : Access → Bool
  | .read _ => false
  | .write addr v => decide (Reg.ofOffset? addr = some .cr) && Bits.any v m

theorem Access.setsCr_or (a : Access) (m m' : BitVec 32) :
    a.setsCr (m ||| m') = (a.setsCr m || a.setsCr m') := by
  cases a with
  | read addr => rfl
  | write addr v => rw [setsCr, setsCr, setsCr, Bits.any_or_right, Bool.and_or_distrib_left]

/-- What holds of the command in force, and of the one after a reset, holds of the one after
    an access exactly if it holds of one that the access writes. -/
theorem tcrAfter_iff {a : Access} {P : BitVec 32 → Prop} (hs : P s.tcr)
    (hrst : a.setsCr crRst = true → P 0x1F#32) : P (tcrAfter s a) ↔ a.onWrite .tcr P := by
  cases a with
  | read addr => exact iff_of_true hs trivial
  | write addr v =>
    rw [tcrAfter]
    split_ifs with h₁ h₂
    · exact ⟨fun h _ => h, fun h => h h₁⟩
    · exact iff_of_true (hrst (by simp [Access.setsCr, h₂.1, h₂.2])) fun h => absurd h h₁
    · exact iff_of_true hs fun h => absurd h h₁

/-- The TX FIFO after an access. -/
def txAfter (s : State n β) (a : Access) : Fifo8 fifoByteCapacity :=
  if a.setsCr (crRst ||| crRtf) then s.txFifo.reset
  else
    let f := (accepts s a).elim s.txFifo fun v => (queued s v).txFifo
    (sending s a).elim f fun x => f.popN (bytesPerFrame x.tcr)

/-- The RX FIFO after an access. -/
def rxAfter (bus : SsiBus β) (s : State n β) (a : Access) : Fifo8 fifoByteCapacity :=
  if a.setsCr (crRst ||| crRrf) then s.rxFifo.reset
  else if takes s a then s.rxFifo.popN (bytesPerFrame s.tcr)
  else (sending s a).elim s.rxFifo fun x =>
    if rxmsk x.tcr then s.rxFifo
    else s.rxFifo.pushAll (Frame.split (lsbf x.tcr) (bytesPerFrame x.tcr) (frame bus x).rxData)

theorem Effect.txFifo_eq {a : Access} {v : Option (BitVec 32)} (h : Effect bus s a v t) :
    t.txFifo = txAfter s a := by
  cases h with
  | look | take => rfl
  | ignore hr =>
    obtain ⟨h₁, h₂, h₃⟩ := readOnly_ne hr
    simp [txAfter, Access.setsCr, accepts, sending, h₁, h₂, h₃]
  | reset hr hrst =>
    simp only [txAfter, Access.setsCr, hr, Bits.any_or_right, hrst]
    rfl
  | control hr hrst =>
    simp [txAfter, Access.setsCr, accepts, sending, hr, hrst, writeCr]
  | clear hr => simp [txAfter, Access.setsCr, accepts, sending, hr]
  | configure hr ht =>
    obtain ⟨h₁, h₂, h₃⟩ := configure_ne ht
    simp [txAfter, Access.setsCr, accepts, sending, hr, h₁, h₂, h₃, (configure_frame ht).2.1]
  | watermark hr =>
    simp [txAfter, Access.setsCr, accepts, sending, hr, writeFcr]
  | command hr hv h =>
    simp only [txAfter, Access.setsCr, accepts, sending_of_tcr hr, hr, if_neg h]
    rfl
  | resume hr hv hmen h hcs =>
    simp only [txAfter, Access.setsCr, accepts, sending_of_tcr hr, hr, if_pos (And.intro hmen h)]
    rfl
  | refuse hr hmen => simp [txAfter, Access.setsCr, accepts, sending, hr, hmen]
  | overflow hr hmen h => simp [txAfter, Access.setsCr, accepts, sending, hr, Nat.not_le.2 h]
  | queue hr hmen hroom h =>
    simp [txAfter, Access.setsCr, accepts, sending_of_tdr, hr, hmen, hroom, h]
  | @send addr v hr hmen hroom h hcs =>
    have hacc : accepts s (.write addr v) = some v := if_pos ⟨hr, hmen, hroom⟩
    have hgo := And.intro hmen (And.intro hroom h)
    simp only [txAfter, Access.setsCr, hacc, sending_of_tdr hr, hr, if_pos hgo]
    rfl

theorem Effect.rxFifo_eq {a : Access} {v : Option (BitVec 32)} (h : Effect bus s a v t) :
    t.rxFifo = rxAfter bus s a := by
  cases h with
  | look h =>
    have hnot : ∀ {addr : ℕ}, (Reg.ofOffset? addr ≠ some .rdr ∨ s.rxFifo.num = 0) →
        ¬(Reg.ofOffset? addr = some .rdr ∧ s.rxFifo.num ≠ 0) := by tauto
    simp only [rxAfter, Access.setsCr, takes, hnot h]
    rfl
  | take hr h => simp [rxAfter, Access.setsCr, takes, hr, h, taken]
  | ignore hr =>
    obtain ⟨h₁, h₂, h₃⟩ := readOnly_ne hr
    simp [rxAfter, Access.setsCr, takes, sending, h₁, h₂, h₃]
  | reset hr hrst =>
    simp only [rxAfter, Access.setsCr, hr, Bits.any_or_right, hrst]
    rfl
  | control hr hrst => simp [rxAfter, Access.setsCr, takes, sending, hr, hrst, writeCr]
  | clear hr => simp [rxAfter, Access.setsCr, takes, sending, hr]
  | configure hr ht =>
    obtain ⟨h₁, h₂, h₃⟩ := configure_ne ht
    simp [rxAfter, Access.setsCr, takes, sending, hr, h₁, h₂, h₃, (configure_frame ht).2.2.1]
  | watermark hr => simp [rxAfter, Access.setsCr, takes, sending, hr, writeFcr]
  | command hr hv h =>
    simp only [rxAfter, Access.setsCr, takes, sending_of_tcr hr, hr, if_neg h]
    rfl
  | resume hr hv hmen h hcs =>
    simp only [rxAfter, Access.setsCr, takes, sending_of_tcr hr, hr, if_pos (And.intro hmen h)]
    rfl
  | refuse hr hmen => simp [rxAfter, Access.setsCr, takes, sending, hr, hmen]
  | overflow hr hmen h => simp [rxAfter, Access.setsCr, takes, sending, hr, Nat.not_le.2 h]
  | queue hr hmen hroom h => simp [rxAfter, Access.setsCr, takes, sending_of_tdr, hr, h]
  | send hr hmen hroom h hcs =>
    have hgo := And.intro hmen (And.intro hroom h)
    simp only [rxAfter, Access.setsCr, takes, sending_of_tdr hr, hr, if_pos hgo]
    rfl

/-! ## Runs -/

/-- A transition of the device. -/
abbrev Step (n : ℕ) (β : Type) : Type := Mealy.Transition (State n β) Access (Reply n)

/-- The run of the device on the accesses of a guest. -/
abbrev run (bus : SsiBus β) (s : State n β) (as : List Access) :
    Except Fault (List (Step n β) × State n β) :=
  Mealy.run (access bus) s as

/-- The states the device reaches from power on. -/
abbrev Reachable (bus : SsiBus β) (s : State n β) : Prop :=
  Mealy.Reachable (access bus) (PowerOn bus) s

variable {as : List Access} {h : List (Step n β)}

theorem run_settled (hr : run bus s as = .ok (h, t)) (hs : Settled s) :
    Settled t ∧ ∀ τ ∈ h, Settled τ.pre ∧ Settled τ.post :=
  Mealy.run_invariant hr hs fun _ _ hτ hpre => hpre.access hτ

theorem PowerOn.reachable {s₀ : State n β} (h₀ : PowerOn bus s₀) : Reachable bus s₀ :=
  ⟨s₀, [], [], h₀, rfl⟩

theorem Reachable.settled (h : Reachable bus s) : Settled s := by
  obtain ⟨s₀, as, h, h₀, hr⟩ := h
  exact (run_settled hr h₀.settled).1

/-- Without a bad command, a run stops only on a chip-select line that does not
    exist. -/
theorem run_eq_error {e : Fault} (hs : Settled s) (ha : ∀ a ∈ as, a.Framed)
    (hr : run bus s as = .error e) : e = .csOutOfBounds :=
  Mealy.run_error (E := (· = .csOutOfBounds)) (fun _ _ _ _ hs _ h => hs.access h)
    (fun _ _ _ hs ha h => ((access_eq_error_iff hs.bytes_ne_zero ha).1 h).1) hs ha hr

/-- If the effect of an access leads to `P` exactly when `C` holds before it, then `P`
    holds after all accesses of a run exactly when `C` holds before them all. -/
theorem run_ok_exact {P : State n β → Prop} {C : State n β → Access → Prop}
    (hr : run bus s as = .ok (h, t)) (hs : Settled s) (hp : P s)
    (hclear : ∀ t, P { t with calls := [] } ↔ P t)
    (hexact : ∀ {s a v t}, Settled s → P s → a.Framed → Effect bus s a v t → (P t ↔ C s a)) :
    (∀ τ ∈ h, P τ.post) ↔ ∀ τ ∈ h, C τ.pre τ.input := by
  -- Exactness of the effects is exactness of the transitions of the run.
  refine Mealy.run_forall_iff (I := Settled) hr hs hp (fun _ _ hτ hpre => hpre.access hτ) ?_
  intro τ hτ htake hset hpre
  obtain ⟨u, hu, -, hpost⟩ := effect_of_access hset.bytes_ne_zero htake
  rw [hpost, hclear]
  exact hexact hset hpre (framed_of_access htake) hu

/-- A run without a bad command goes to its end, or stops on a chip-select line that
    does not exist. If, moreover, the effect of an access leads to `P` exactly when
    `C` holds before it, then `P` holds after all accesses of the run exactly when
    `C` holds before them all. -/
theorem run_exact {P : State n β → Prop} {C : State n β → Access → Prop}
    (hs : Settled s) (hp : P s) (ha : ∀ a ∈ as, a.Framed)
    (hclear : ∀ t, P { t with calls := [] } ↔ P t)
    (hexact : ∀ {s a v t}, Settled s → P s → a.Framed → Effect bus s a v t → (P t ↔ C s a)) :
    run bus s as = .error .csOutOfBounds ∨ ∃ h t, run bus s as = .ok (h, t) ∧
      ((∀ τ ∈ h, P τ.post) ↔ ∀ τ ∈ h, C τ.pre τ.input) := by
  cases hr : run bus s as with
  | error e => exact .inl (by rw [run_eq_error hs ha hr])
  | ok r =>
    exact .inr ⟨r.1, r.2, rfl, run_ok_exact hr hs hp hclear hexact⟩

end S32K358.Lpspi
