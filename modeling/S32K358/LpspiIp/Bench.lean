import S32K358.LpspiIp.Basic
import S32K358.Lpspi.Interrupt

/-!
# The LPSPI as the hardware of its driver

The device model, as hardware with registers (`device`), and what the driver has to
know of it (`View`): the control, command and configuration registers, the bytes in the
FIFOs, the flags of errors and what is enabled of the interrupts, and the side of the
peripherals, i.e. the chip-select lines and the bus. What the accesses of the driver do to
the view is an equation each; in particular, a word written to an idle device is exchanged
at once (`View.exchange`), and its answer queued.
-/

namespace S32K358.Lpspi

/-- The offset of a register. -/
def Reg.offset : Reg → ℕ
  | .verid => 0x00
  | .param => 0x04
  | .cr => 0x10
  | .sr => 0x14
  | .ier => 0x18
  | .der => 0x1C
  | .cfgr0 => 0x20
  | .cfgr1 => 0x24
  | .ccr => 0x40
  | .ccr1 => 0x44
  | .fcr => 0x58
  | .fsr => 0x5C
  | .tcr => 0x60
  | .tdr => 0x64
  | .rsr => 0x70
  | .rdr => 0x74

@[simp] theorem Reg.ofOffset?_offset (r : Reg) : Reg.ofOffset? r.offset = some r := by
  cases r <;> rfl

end S32K358.Lpspi

namespace S32K358.LpspiIp

open Lpspi (Reg SsiBus State Settled Effect Access access status settle bytesPerFrame lsbf rxmsk pcs
  single csActiveHigh loopback fifoByteCapacity)
open Program

variable {n : ℕ} {β : Type}

/-- The device, with the registers that the driver accesses. -/
def device (bus : SsiBus β) : Port Reg Fault (State n β) where
  read s r :=
    match access bus s (.read r.offset) with
    | .error e => .error e
    | .ok (reply, t) => .ok (reply.value.getD 0#32, t)
  write s r v :=
    match access bus s (.write r.offset v) with
    | .error e => .error e
    | .ok (_, t) => .ok t

/-- What the driver has to know of the device. -/
@[ext]
structure View (n : ℕ) (β : Type) where
  cr : BitVec 32
  tcr : BitVec 32
  cfgr1 : BitVec 32
  tx : List (BitVec 8)
  rx : List (BitVec 8)
  busy : Bool
  csLines : Vector Bool n
  ssi : β
  /-- `REF` or `TEF` is set. -/
  faults : Bool
  ier : BitVec 32
  rxWatermark : ℕ

/-- The view of a state. -/
def view (s : State n β) : View n β :=
  ⟨s.cr, s.tcr, s.cfgr1, s.txFifo.contents, s.rxFifo.contents, s.busy, s.csLines, s.ssi,
    Bits.any s.sr (srRef ||| srTef), s.ier, s.rxWatermark⟩

namespace View

variable (bus : SsiBus β)

/-- The bytes received are others. -/
def holding (x : View n β) (l : List (BitVec 8)) : View n β := { x with rx := l }

/-- The bytes to be sent are others. -/
def queueing (x : View n β) (l : List (BitVec 8)) : View n β := { x with tx := l }

/-- The command is another. -/
def commanded (x : View n β) (cmd : BitVec 32) : View n β := { x with tcr := cmd }

/-- The flags are cleared. -/
def cleared (x : View n β) : View n β := { x with faults := false }

/-- The interrupts enabled are others. -/
def enabling (x : View n β) (v : BitVec 32) : View n β := { x with ier := v }

/-- The chip select of the command is driven, if it is to be. -/
def drive (x : View n β) (go level : Bool) : View n β :=
  { x with
    csLines := if go then x.csLines.setIfInBounds (pcs x.tcr) level else x.csLines
    ssi := if go then bus.setCs x.ssi (pcs x.tcr) level else x.ssi }

/-- The answer to a word, and the bus after it. -/
def answer (x : View n β) (word : BitVec 32) : BitVec 32 × β :=
  if loopback x.cfgr1 then (word, x.ssi) else bus.transfer x.ssi word

/-- The chip select is asserted, unless the device is busy with a continuous transfer. -/
def select (x : View n β) : View n β :=
  { x.drive bus (!x.busy || single x.tcr) (csActiveHigh x.cfgr1 (pcs x.tcr)) with busy := true }

/-- The chip select is deasserted, unless the transfer is continuous. -/
def deselect (x : View n β) : View n β :=
  { x.drive bus (single x.tcr) (!csActiveHigh x.cfgr1 (pcs x.tcr)) with
    busy := x.busy && !single x.tcr }

/-- A word is exchanged. -/
def exchange (x : View n β) (word : BitVec 32) : BitVec 32 × View n β :=
  (((x.select bus).answer bus word).1,
    View.deselect bus { x.select bus with ssi := ((x.select bus).answer bus word).2 })

/-- Everything is reset. -/
def reset (x : View n β) : View n β :=
  { cr := 0#32
    tcr := 0x1F#32
    cfgr1 := 0#32
    tx := []
    rx := []
    busy := false
    csLines := Vector.replicate n true
    ssi := (List.range' 0 n).foldl (fun ssi i => bus.setCs ssi i true) x.ssi
    faults := false
    ier := 0#32
    rxWatermark := 0 }

/-- The control register is written, without `RST`. -/
def control (x : View n β) (v : BitVec 32) : View n β :=
  { x with
    cr := v &&& ~~~(Lpspi.crRst ||| Lpspi.crRtf ||| Lpspi.crRrf)
    tx := if Bits.any v Lpspi.crRtf then [] else x.tx
    rx := if Bits.any v Lpspi.crRrf then [] else x.rx }

end View

variable {bus : SsiBus β} {s t : State n β}

/-- An update of the status makes no difference. -/
theorem view_status (s : State n β) : view (status s) = view s :=
  View.ext rfl rfl rfl rfl rfl rfl rfl rfl (Lpspi.any_status (by decide) (by decide)) rfl rfl

theorem view_settle (s : State n β) : view { settle s with calls := [] } = view s := view_status s

/-! ## Reads -/

theorem device_read {v : BitVec 32} {r : Reg} (hs : Settled s)
    (h : Effect bus s (.read r.offset) (some v) t) :
    (device bus).read s r = .ok (v, { t with calls := [] }) := by
  simp only [device, h.access_eq hs.bytes_ne_zero, Option.getD_some]

theorem device_write (bus : SsiBus β) {v : BitVec 32} {r : Reg} (hs : Settled s)
    (h : Effect bus s (.write r.offset v) none t) :
    (device bus).write s r v = .ok { t with calls := [] } ∧ Settled { t with calls := [] } := by
  refine ⟨?_, h.settled hs⟩
  simp only [device, h.access_eq hs.bytes_ne_zero]

/-- A read of a register other than `RDR` changes nothing. -/
theorem read_peek {r : Reg} (hs : Settled s) (hr : r ≠ .rdr) :
    (device bus).read s r = .ok (Lpspi.peek s (some r), s) := by
  have h : Reg.ofOffset? r.offset ≠ some .rdr ∨ s.rxFifo.num = 0 := .inl (by simpa using hr)
  simp only [device, hs.access_look h, Reg.ofOffset?_offset, Option.getD_some]

theorem rxcount_fsr : ∀ i : Fin 5,
    rxcount (BitVec.ofNat 32 i <<< 16 ||| BitVec.ofNat 32 0 <<< 0) = i ∧
    txcount (BitVec.ofNat 32 i <<< 16 ||| BitVec.ofNat 32 0 <<< 0) = 0 := by decide

/-- The frame of a word and its bytes. -/
theorem join_split_eq {lsbf : Bool} {b : ℕ} (hb : b ≤ 4) {k : ℕ} (v : BitVec k) :
    (Frame.join lsbf b (Frame.split lsbf b v) : BitVec 32) =
      BitVec.ofNat 32 (v.toNat % 2 ^ (8 * b)) := by
  have hpow : 2 ^ (8 * b) ≤ 2 ^ 32 := Nat.pow_le_pow_right (by decide) (by omega)
  have hlt : v.toNat % 2 ^ (8 * b) < 2 ^ (8 * b) := Nat.mod_lt _ (Nat.two_pow_pos _)
  apply BitVec.eq_of_toNat_eq
  rw [Frame.toNat_join_split v (by omega), BitVec.toNat_ofNat,
    Nat.mod_eq_of_lt (hlt.trans_le hpow)]

/-- The bits of a word that fit in a frame of `b` bytes. -/
def truncate (b : ℕ) (v : BitVec 32) : BitVec 32 := BitVec.ofNat 32 (v.toNat % 2 ^ (8 * b))

/-- The bytes of some words in a FIFO. -/
def bytes (tcr : BitVec 32) (words : List (BitVec 32)) : List (BitVec 8) :=
  words.flatMap (Frame.split (lsbf tcr) (bytesPerFrame tcr))

theorem length_bytes (tcr : BitVec 32) (words : List (BitVec 32)) :
    (bytes tcr words).length = bytesPerFrame tcr * words.length := by
  rw [bytes, List.length_flatMap]
  simp [Nat.mul_comm]

theorem bytes_cons (tcr a : BitVec 32) (words : List (BitVec 32)) :
    bytes tcr (a :: words) = Frame.split (lsbf tcr) (bytesPerFrame tcr) a ++ bytes tcr words :=
  List.flatMap_cons

/-- `FSR` counts the answers, with nothing to be sent. -/
theorem counts_fsr {words : List (BitVec 32)} (hs : Settled s) (htx : (view s).tx = [])
    (hrx : (view s).rx = bytes s.tcr words) (hlen : words.length ≤ 4) :
    rxcount (Lpspi.peek s (some .fsr)) = words.length ∧ txcount (Lpspi.peek s (some .fsr)) = 0 := by
  have htxnum : s.txFifo.num = 0 := by
    rw [← s.txFifo.length_contents]
    exact congrArg List.length htx
  have hrxnum : s.rxFifo.num = bytesPerFrame s.tcr * words.length := by
    rw [← s.rxFifo.length_contents, ← length_bytes]
    exact congrArg List.length hrx
  have hfsr : s.fsr = BitVec.ofNat 32 (s.rxFifo.num / bytesPerFrame s.tcr) <<< 16 |||
      BitVec.ofNat 32 (s.txFifo.num / bytesPerFrame s.tcr) <<< 0 := by
    conv_lhs => rw [← hs.status_eq]
    rfl
  change rxcount s.fsr = _ ∧ txcount s.fsr = _
  rw [hfsr, htxnum, hrxnum, Nat.mul_div_cancel_left _ hs.bytes_pos, Nat.zero_div]
  exact rxcount_fsr ⟨words.length, by omega⟩

theorem txcount_fsr : ∀ (i : Fin 17) (j : Fin 5),
    txcount (BitVec.ofNat 32 i <<< 16 ||| BitVec.ofNat 32 j <<< 0) = j := by decide

/-- `FSR` counts the words to be sent, of which the driver has no more than four. -/
theorem txcount_queue {queue : List (BitVec 32)} (hs : Settled s)
    (htx : (view s).tx = bytes s.tcr queue) (hlen : queue.length ≤ 4) :
    txcount (Lpspi.peek s (some .fsr)) = queue.length := by
  have htxnum : s.txFifo.num = bytesPerFrame s.tcr * queue.length := by
    rw [← s.txFifo.length_contents, ← length_bytes]
    exact congrArg List.length htx
  have hrx : s.rxFifo.num / bytesPerFrame s.tcr < 17 :=
    (Nat.div_le_self _ _).trans_lt (Nat.lt_succ_of_le s.rxFifo.num_le)
  have hfsr : s.fsr = BitVec.ofNat 32 (s.rxFifo.num / bytesPerFrame s.tcr) <<< 16 |||
      BitVec.ofNat 32 (s.txFifo.num / bytesPerFrame s.tcr) <<< 0 := by
    conv_lhs => rw [← hs.status_eq]
    rfl
  change txcount s.fsr = _
  rw [hfsr, htxnum, Nat.mul_div_cancel_left _ hs.bytes_pos]
  exact txcount_fsr ⟨_, hrx⟩ ⟨queue.length, by omega⟩

/-- With nothing to be sent, `TDF` is set, and `RDF` if there are four bytes of answers. -/
theorem flags_sr {words : List (BitVec 32)} (hs : Settled s) (htx : (view s).tx = [])
    (hrx : (view s).rx = bytes s.tcr words) :
    Bits.any (Lpspi.peek s (some .sr)) srTdf = true ∧
      ((view s).rxWatermark < words.length → Bits.any (Lpspi.peek s (some .sr)) srRdf =
        decide (4 ≤ bytesPerFrame s.tcr * words.length)) := by
  have htxnum : s.txFifo.num = 0 := by
    rw [← s.txFifo.length_contents]
    exact congrArg List.length htx
  have hrxnum : s.rxFifo.num = bytesPerFrame s.tcr * words.length := by
    rw [← s.rxFifo.length_contents, ← length_bytes]
    exact congrArg List.length hrx
  have hsr : s.sr = Lpspi.statusSr s := by
    conv_lhs => rw [← hs.status_eq]
    rfl
  have hsent : Lpspi.txWords s = 0 := by rw [Lpspi.txWords, htxnum, Nat.zero_div]
  have hwords : Lpspi.rxWords s = words.length := by
    rw [Lpspi.rxWords, hrxnum, Nat.mul_div_cancel_left _ hs.bytes_pos]
  change Bits.any s.sr Lpspi.srTdf = _ ∧ (s.rxWatermark < _ → Bits.any s.sr Lpspi.srRdf = _)
  rw [hsr, Lpspi.statusSr, hsent, hwords, htxnum, hrxnum]
  constructor
  · rw [Bits.any_assignIf_of_disjoint (by decide), Bits.any_assignIf_self (by decide),
      if_pos (decide_eq_true (Nat.zero_le _))]
    rfl
  · intro hlt
    rw [Bits.any_assignIf_self (by decide), if_pos (decide_eq_true hlt)]

/-- A read of `RDR` takes the oldest answer. -/
theorem read_rdr (bus : SsiBus β) {a : BitVec 32} {words : List (BitVec 32)} (hs : Settled s)
    (hrx : (view s).rx = bytes s.tcr (a :: words)) :
    ∃ t, (device bus).read s .rdr = .ok (truncate (bytesPerFrame s.tcr) a, t) ∧ Settled t ∧
      view t = (view s).holding (bytes s.tcr words) := by
  have hcontents : s.rxFifo.contents =
      Frame.split (lsbf s.tcr) (bytesPerFrame s.tcr) a ++ bytes s.tcr words := by
    rw [← bytes_cons]
    exact hrx
  have hnum : s.rxFifo.num ≠ 0 := by
    have := hs.bytes_pos
    rw [← s.rxFifo.length_contents, hcontents, List.length_append, Frame.length_split]
    omega
  have he : Effect bus s (.read Reg.rdr.offset) (some (Lpspi.rxWord s))
      (status (Lpspi.taken (status s))) := .take (Reg.ofOffset?_offset .rdr) hnum
  have hword : Lpspi.rxWord s = truncate (bytesPerFrame s.tcr) a := by
    rw [Lpspi.rxWord, hcontents, List.take_left' (Frame.length_split a)]
    exact join_split_eq (Lpspi.bytesPerFrame_le _) a
  refine ⟨_, by rw [device_read hs he, hword], he.settled hs, ?_⟩
  have hrest : (s.rxFifo.popN (bytesPerFrame s.tcr)).contents = bytes s.tcr words := by
    rw [RingBuffer.contents_popN, hcontents, List.drop_left' (Frame.length_split a)]
  rw [← hrest]
  exact (view_status (Lpspi.taken (status s))).trans
    (congrArg (fun x : View n β => x.holding _) (view_status s))

/-- A write leaves the interrupt line as it should be. -/
theorem coherent_write {r : Reg} {v : BitVec 32} (hs : Settled s) (hr : r.readOnly = false)
    (h : (device bus).write s r v = .ok t) : Settled t ∧ Lpspi.Coherent t := by
  have haccess : ∃ reply, access bus s (.write r.offset v) = .ok (reply, t) := by
    rw [device] at h
    dsimp only at h
    split at h
    · cases h
    · next reply u hu => exact ⟨reply, Except.ok.inj h ▸ hu⟩
  obtain ⟨reply, hok⟩ := haccess
  obtain ⟨u, hu, -, rfl⟩ := Lpspi.effect_of_access hs.bytes_ne_zero hok
  refine ⟨hu.settled hs, ?_⟩
  generalize reply.value = val at hu
  cases hu with
  | ignore hro => exact absurd (hro r (Reg.ofOffset?_offset r)) (by simp [hr])
  | _ => exact Lpspi.coherent_settle

/-! ## Writes of the configuration -/

theorem write_configure (bus : SsiBus β) {r : Reg} {v : BitVec 32} {u : State n β} {x : View n β}
    (hs : Settled s)
    (hu : Lpspi.configure s v r = some u) (hx : view u = x) :
    ∃ t, (device bus).write s r v = .ok t ∧ Settled t ∧ view t = x := by
  obtain ⟨hw, ht⟩ := device_write bus hs (.configure (Reg.ofOffset?_offset r) hu)
  exact ⟨_, hw, ht, (view_settle u).trans hx⟩

/-- A write of the DMA or the clock register changes nothing that matters. -/
theorem write_plain (bus : SsiBus β) {r : Reg} (v : BitVec 32) (hs : Settled s)
    (hr : r = .der ∨ r = .ccr) :
    ∃ t, (device bus).write s r v = .ok t ∧ Settled t ∧ view t = view s := by
  rcases hr with rfl | rfl
  · exact write_configure bus hs rfl rfl
  · exact write_configure bus hs rfl rfl

theorem write_ier (bus : SsiBus β) (v : BitVec 32) (hs : Settled s) :
    ∃ t, (device bus).write s .ier v = .ok t ∧ Settled t ∧ view t = (view s).enabling v :=
  write_configure bus hs rfl rfl

theorem write_fcr (bus : SsiBus β) (v : BitVec 32) (hs : Settled s) :
    ∃ t, (device bus).write s .fcr v = .ok t ∧ Settled t ∧
      view t = { view s with rxWatermark := Lpspi.rxwater v } := by
  obtain ⟨hw, ht⟩ := device_write bus (v := v) hs (.watermark (Reg.ofOffset?_offset .fcr))
  exact ⟨_, hw, ht, (view_settle _).trans (view_status _)⟩

/-- The flags are cleared by a write of all of them that are set. -/
theorem write_sr (bus : SsiBus β) {v : BitVec 32} (hs : Settled s)
    (hv : Bits.any (s.sr &&& ~~~v) (srRef ||| srTef) = false) :
    ∃ t, (device bus).write s .sr v = .ok t ∧ Settled t ∧ view t = (view s).cleared := by
  obtain ⟨hw, ht⟩ := device_write bus (v := v) hs (.clear (Reg.ofOffset?_offset .sr))
  refine ⟨_, hw, ht, (view_settle _).trans ?_⟩
  exact View.ext rfl rfl rfl rfl rfl rfl rfl rfl hv rfl rfl

theorem write_cfgr1 (bus : SsiBus β) (v : BitVec 32) (hs : Settled s) :
    ∃ t, (device bus).write s .cfgr1 v = .ok t ∧ Settled t ∧
      view t = { view s with cfgr1 := v } := write_configure bus hs rfl rfl

theorem write_cr {v : BitVec 32} (hs : Settled s) (hv : Bits.any v Lpspi.crRst = false) :
    ∃ t, (device bus).write s .cr v = .ok t ∧ Settled t ∧ view t = (view s).control v := by
  obtain ⟨hw, ht⟩ := device_write bus (r := .cr) hs (.control (Reg.ofOffset?_offset .cr) hv)
  refine ⟨_, hw, ht, ?_⟩
  have htx : (if Bits.any v Lpspi.crRtf then fifo8Reset s.txFifo else s.txFifo).contents =
      if Bits.any v Lpspi.crRtf then [] else s.txFifo.contents := by split_ifs <;> rfl
  have hrx : (if Bits.any v Lpspi.crRrf then fifo8Reset s.rxFifo else s.rxFifo).contents =
      if Bits.any v Lpspi.crRrf then [] else s.rxFifo.contents := by split_ifs <;> rfl
  refine (view_settle _).trans (View.ext rfl rfl rfl htx hrx rfl rfl rfl ?_ rfl rfl)
  change Bits.any (if Bits.any v Lpspi.crRtf then s.sr ||| Lpspi.srTdf else s.sr) _ = _
  split_ifs
  · rw [Bits.any_or_left]
    exact Bool.or_false _
  · rfl

theorem write_cr_rst {v : BitVec 32} (hs : Settled s) (hv : Bits.any v Lpspi.crRst = true) :
    ∃ t, (device bus).write s .cr v = .ok t ∧ Settled t ∧ view t = (view s).reset bus := by
  obtain ⟨hw, ht⟩ := device_write bus (r := .cr) hs (.reset (Reg.ofOffset?_offset .cr) hv)
  have hview : view (Lpspi.updateClockConfig (Lpspi.raised bus (Lpspi.resetRegs s))) =
      (view s).reset bus := by
    refine View.ext rfl rfl rfl rfl rfl rfl rfl rfl ?_ rfl rfl
    have hsr : (Lpspi.updateClockConfig (Lpspi.raised bus (Lpspi.resetRegs s))).sr =
        Lpspi.srTdf ||| Lpspi.srTcf := rfl
    have hflags : Bits.any (Lpspi.srTdf ||| Lpspi.srTcf) (srRef ||| srTef) = false := by decide
    exact (congrArg (Bits.any · (srRef ||| srTef)) hsr).trans hflags
  exact ⟨_, hw, ht, (view_settle _).trans hview⟩

/-- A command with which no frame can be sent. -/
theorem write_tcr_idle (bus : SsiBus β) {v : BitVec 32} (hs : Settled s) (hv : bytesPerFrame v ≠ 0)
    (hidle : ¬Lpspi.Ready (Lpspi.command s v)) :
    ∃ t, (device bus).write s .tcr v = .ok t ∧ Settled t ∧ view t = (view s).commanded v := by
  obtain ⟨hw, ht⟩ := device_write bus (r := .tcr) hs
    (.command (Reg.ofOffset?_offset .tcr) hv fun h => hidle h.2)
  exact ⟨_, hw, ht, view_settle _⟩

/-- A command written with nothing queued sends nothing. -/
theorem write_tcr (bus : SsiBus β) {v : BitVec 32} (hs : Settled s) (htx : (view s).tx = [])
    (hv : bytesPerFrame v ≠ 0) :
    ∃ t, (device bus).write s .tcr v = .ok t ∧ Settled t ∧ view t = (view s).commanded v := by
  have hnum : s.txFifo.num = 0 := by
    rw [← s.txFifo.length_contents]
    exact congrArg List.length htx
  refine write_tcr_idle bus hs hv fun hready => ?_
  have hle : bytesPerFrame v ≤ s.txFifo.num := hready.1
  omega

/-- A command written with no room for an answer sends nothing either. -/
theorem write_tcr_full (bus : SsiBus β) {v : BitVec 32} (hs : Settled s) (hv : bytesPerFrame v ≠ 0)
    (hmask : rxmsk v = false)
    (hfull : fifoByteCapacity < (view s).rx.length + bytesPerFrame v) :
    ∃ t, (device bus).write s .tcr v = .ok t ∧ Settled t ∧ view t = (view s).commanded v := by
  refine write_tcr_idle bus hs hv fun hready => ?_
  have hle : s.rxFifo.num + bytesPerFrame v ≤ fifoByteCapacity := hready.2 hmask
  rw [← s.rxFifo.length_contents] at hle
  exact absurd hle hfull.not_ge

/-! ## Writes of data -/

/-! A frame is asserted, exchanged and released as the view has it. -/

theorem view_asserted (q : State n β) : view (Lpspi.asserted bus q) = (view q).select bus := by
  refine View.ext rfl rfl rfl rfl rfl rfl rfl rfl ?_ rfl rfl
  change Bits.any (if Lpspi.asserts q then q.sr ||| Lpspi.srMbf else q.sr) _ = _
  split_ifs
  · rw [Bits.any_or_left]
    exact Bool.or_false _
  · rfl

theorem view_exchanged (bus : SsiBus β) {q : State n β} (hlast : q.txFifo.num = bytesPerFrame q.tcr)
    (hmask : rxmsk q.tcr = false)
    (hroom : q.rxFifo.num + bytesPerFrame q.tcr ≤ fifoByteCapacity) :
    view (Lpspi.exchanged bus q) =
      { view q with
        tx := []
        rx := q.rxFifo.contents ++
          Frame.split (lsbf q.tcr) (bytesPerFrame q.tcr)
            ((view q).answer bus (Lpspi.txWord q)).1
        ssi := ((view q).answer bus (Lpspi.txWord q)).2 } := by
  have htx : (q.txFifo.popN (bytesPerFrame q.tcr)).contents = [] := by
    rw [RingBuffer.contents_popN, List.drop_eq_nil_of_le]
    rw [RingBuffer.length_contents, hlast]
  have hanswer : (view q).answer bus (Lpspi.txWord q) = Lpspi.answer bus q (Lpspi.txWord q) := rfl
  rw [hanswer, view, Lpspi.exchanged]
  dsimp only
  rw [hmask, if_neg Bool.false_ne_true, htx,
    RingBuffer.contents_pushAll _ (by rwa [Frame.length_split])]
  rfl

theorem view_released (bus : SsiBus β) {q : State n β} (htx : q.txFifo.num = 0)
    (hbusy : q.busy = true) :
    view (Lpspi.released bus q) = (view q).deselect bus := by
  have hif : Lpspi.releases q = single q.tcr := by
    rw [Lpspi.releases, fifo8IsEmpty_eq_true.2 htx, hbusy, Bool.true_and, Bool.true_and]
  -- `MBF` and `TCF` are no errors.
  have hflags : Bits.any (if fifo8IsEmpty q.txFifo && q.busy then
      (if single q.tcr then q.sr &&& ~~~Lpspi.srMbf else q.sr) ||| Lpspi.srTcf else q.sr)
      (srRef ||| srTef) = Bits.any q.sr (srRef ||| srTef) := by
    have hmbf : Bits.any (q.sr &&& ~~~Lpspi.srMbf) (srRef ||| srTef) =
        Bits.any q.sr (srRef ||| srTef) := Bits.any_clear_of_disjoint (by decide)
    split_ifs <;> simp only [Bits.any_or_left, hmbf] <;> exact Bool.or_false _
  rw [Lpspi.released, view]
  dsimp only
  rw [hif, hflags]
  rfl

/-- A frame that is alone in the TX FIFO is sent. -/
theorem view_sendFrame (bus : SsiBus β) {q : State n β} (hlast : q.txFifo.num = bytesPerFrame q.tcr)
    (hmask : rxmsk q.tcr = false)
    (hroom : q.rxFifo.num + bytesPerFrame q.tcr ≤ fifoByteCapacity) :
    view (Lpspi.sendFrame bus q) =
      { ((view q).exchange bus (Lpspi.txWord q)).2 with
        tx := []
        rx := q.rxFifo.contents ++
          Frame.split (lsbf q.tcr) (bytesPerFrame q.tcr)
            ((view q).exchange bus (Lpspi.txWord q)).1 } := by
  have hx := view_exchanged bus (q := Lpspi.asserted bus q) hlast hmask hroom
  rw [view_asserted] at hx
  have hempty : (status (Lpspi.exchanged bus (Lpspi.asserted bus q))).txFifo.num = 0 := by
    rw [← RingBuffer.length_contents]
    exact congrArg (fun x : View n β => x.tx.length) hx
  have hr := view_released bus hempty rfl
  have hview : view (status (Lpspi.exchanged bus (Lpspi.asserted bus q))) =
      view (Lpspi.exchanged bus (Lpspi.asserted bus q)) := view_status _
  rw [hview, hx] at hr
  exact (view_status _).trans hr

/-- A word written with nothing queued, and with room for its answer, is exchanged. -/
theorem write_tdr (bus : SsiBus β) {v : BitVec 32} {words : List (BitVec 32)} (hs : Settled s)
    (hmen : Bits.any s.cr Lpspi.crMen = true) (htx : (view s).tx = [])
    (hrx : (view s).rx = bytes s.tcr words)
    (hroom : bytesPerFrame s.tcr * (words.length + 1) ≤ fifoByteCapacity)
    (hmask : rxmsk s.tcr = false) (hpcs : pcs s.tcr < n) :
    ∃ t, (device bus).write s .tdr v = .ok t ∧ Settled t ∧
      view t = ((view s).exchange bus (truncate (bytesPerFrame s.tcr) v)).2.holding
        (bytes s.tcr (words ++ [((view s).exchange bus
          (truncate (bytesPerFrame s.tcr) v)).1])) := by
  have hnum : s.txFifo.num = 0 := by
    rw [← s.txFifo.length_contents]
    exact congrArg List.length htx
  have hrxnum : s.rxFifo.num = bytesPerFrame s.tcr * words.length := by
    rw [← s.rxFifo.length_contents, ← length_bytes]
    exact congrArg List.length hrx
  have hcap := Lpspi.bytesPerFrame_le_capacity s.tcr
  have htxroom : s.txFifo.num + bytesPerFrame s.tcr ≤ fifoByteCapacity := by omega
  have hrxroom : s.rxFifo.num + bytesPerFrame s.tcr ≤ fifoByteCapacity := by
    rwa [hrxnum, ← Nat.mul_succ]
  -- The frame is alone in the TX FIFO.
  have hqueued : (Lpspi.queued s v).txFifo.contents =
      Frame.split (lsbf s.tcr) (bytesPerFrame s.tcr) v := by
    have htx' : s.txFifo.contents = [] := htx
    rw [Lpspi.queued, RingBuffer.contents_pushAll _ (by rwa [Frame.length_split]), htx',
      List.nil_append, Frame.split_setWidth (by decide)]
  have hready : Lpspi.Ready (Lpspi.queued s v) := by
    refine ⟨?_, fun _ => hrxroom⟩
    rw [← RingBuffer.length_contents, hqueued, Frame.length_split]
    exact le_rfl
  have he : Effect bus s (.write Reg.tdr.offset v) none
      (settle (Lpspi.sendFrame bus (Lpspi.queued s v))) :=
    .send (Reg.ofOffset?_offset .tdr) hmen htxroom hready fun h => absurd h.2 (Nat.not_le.2 hpcs)
  obtain ⟨hw, ht⟩ := device_write bus hs he
  refine ⟨_, hw, ht, ?_⟩
  have hword : Lpspi.txWord (Lpspi.queued s v) = truncate (bytesPerFrame s.tcr) v := by
    rw [Lpspi.txWord, hqueued]
    change Frame.join (lsbf s.tcr) (bytesPerFrame s.tcr) (List.take (bytesPerFrame s.tcr) _) = _
    rw [List.take_of_length_le (Frame.length_split v).le]
    exact join_split_eq (Lpspi.bytesPerFrame_le _) v
  have hlast : (Lpspi.queued s v).txFifo.num = bytesPerFrame s.tcr := by
    rw [← RingBuffer.length_contents, hqueued, Frame.length_split]
  have hsend := view_sendFrame bus (q := Lpspi.queued s v) hlast hmask hrxroom
  rw [hword] at hsend
  have hbytes : bytes s.tcr (words ++ [((view s).exchange bus
      (truncate (bytesPerFrame s.tcr) v)).1]) = s.rxFifo.contents ++
      Frame.split (lsbf s.tcr) (bytesPerFrame s.tcr)
        ((view s).exchange bus (truncate (bytesPerFrame s.tcr) v)).1 := by
    have hrx' : s.rxFifo.contents = bytes s.tcr words := hrx
    rw [bytes, List.flatMap_append, ← bytes, ← hrx', List.flatMap_singleton]
  rw [hbytes]
  exact (view_settle _).trans
    (hsend.trans (View.ext rfl rfl rfl htx.symm rfl rfl rfl rfl rfl rfl rfl))

/-- A word written with no room for its answer is queued. -/
theorem write_tdr_queue (bus : SsiBus β) {v : BitVec 32} {queue : List (BitVec 32)} (hs : Settled s)
    (hmen : Bits.any s.cr Lpspi.crMen = true) (htx : (view s).tx = bytes s.tcr queue)
    (hroom : bytesPerFrame s.tcr * (queue.length + 1) ≤ fifoByteCapacity)
    (hmask : rxmsk s.tcr = false)
    (hfull : fifoByteCapacity < (view s).rx.length + bytesPerFrame s.tcr) :
    ∃ t, (device bus).write s .tdr v = .ok t ∧ Settled t ∧
      view t = (view s).queueing (bytes s.tcr (queue ++ [v])) := by
  have hnum : s.txFifo.num = bytesPerFrame s.tcr * queue.length := by
    rw [← s.txFifo.length_contents, ← length_bytes]
    exact congrArg List.length htx
  have htxroom : s.txFifo.num + bytesPerFrame s.tcr ≤ fifoByteCapacity := by
    rwa [hnum, ← Nat.mul_succ]
  have hidle : ¬Lpspi.Ready (Lpspi.queued s v) := by
    intro hready
    have hle : s.rxFifo.num + bytesPerFrame s.tcr ≤ fifoByteCapacity := hready.2 hmask
    rw [← s.rxFifo.length_contents] at hle
    exact absurd hle hfull.not_ge
  have he : Effect bus s (.write Reg.tdr.offset v) none (settle (Lpspi.queued s v)) :=
    .queue (Reg.ofOffset?_offset .tdr) hmen htxroom hidle
  obtain ⟨hw, ht⟩ := device_write bus hs he
  refine ⟨_, hw, ht, (view_settle _).trans ?_⟩
  have hqueued : (Lpspi.queued s v).txFifo.contents = bytes s.tcr (queue ++ [v]) := by
    have htx' : s.txFifo.contents = bytes s.tcr queue := htx
    rw [Lpspi.queued, RingBuffer.contents_pushAll _ (by rwa [Frame.length_split]), htx',
      Frame.split_setWidth (by decide), bytes, bytes, List.flatMap_append, List.flatMap_singleton]
  exact View.ext rfl rfl rfl hqueued rfl rfl rfl rfl rfl rfl rfl

end S32K358.LpspiIp
