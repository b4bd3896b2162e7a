import S32K358.LpspiIp.AnyHardware
import S32K358.LpspiIp.Bench

/-!
# The LPSPI driver on its device

What the parts of the driver do on the device, as functions of the variables of the
driver and the view of the device (`Shows`): a transfer is started with empty FIFOs
(`View.started`), frames pushed are exchanged at once (`pushFrames_ends`), and frames
read are the answers, in order (`readFrames_ends`).
-/

namespace S32K358.LpspiIp

open Lpspi (Reg SsiBus State Settled bytesPerFrame rxmsk pcs)
open Program Port

variable {n : ℕ} {β : Type}

/-! ## Views of a transfer -/

namespace View

variable (bus : SsiBus β)

/-- Words are exchanged, one after the other: the answers, and the view after them. -/
def exchanges (x : View n β) : List (BitVec 32) → List (BitVec 32) × View n β
  | [] => ([], x)
  | v :: vs =>
    ((x.exchange bus v).1 :: ((x.exchange bus v).2.exchanges vs).1,
      ((x.exchange bus v).2.exchanges vs).2)

/-- Words are exchanged, with some answers waiting to be read. -/
def pushed (x : View n β) (words vs : List (BitVec 32)) : View n β :=
  (x.exchanges bus vs).2.holding (bytes x.tcr (words ++ (x.exchanges bus vs).1))

/-- The FIFOs are emptied, by a reset if the erratum applies. -/
def emptied (errata : Bool) (x : View n β) : View n β :=
  if errata then { x.reset bus with cfgr1 := x.cfgr1 } else x.control (x.cr ||| (crRtf ||| crRrf))

/-- The device is disabled, emptied and enabled, and given a command. -/
def started (errata : Bool) (cmd : BitVec 32) (x : View n β) : View n β :=
  let y := ((x.control (x.cr &&& ~~~crMen)).emptied bus errata).cleared
  (y.control (y.cr ||| crMen)).commanded cmd

theorem control_reset (x : View n β) :
    (x.reset bus).control ((x.reset bus).cr &&& ~~~crRst) = x.reset bus := by
  simp [control, reset]

/-- The control register keeps no request. -/
theorem any_control (x : View n β) (v : BitVec 32) :
    Bits.any (x.control v).cr crRst = false ∧
      Bits.any (x.control v).cr crMen = Bits.any v crMen := by
  simp only [control]
  constructor
  · rw [crRst, Bits.any_clear_left _ _ (by decide)]
    exact Bool.and_false _
  · rw [crMen, Bits.any_clear_left _ _ (by decide)]
    exact Bool.and_true _

/-- FIFOs that are empty stay so. -/
theorem control_empty {x : View n β} (htx : x.tx = []) (hrx : x.rx = []) (v : BitVec 32) :
    (x.control v).tx = [] ∧ (x.control v).rx = [] :=
  ⟨(congrArg (ite _ []) htx).trans (ite_self _), (congrArg (ite _ []) hrx).trans (ite_self _)⟩

theorem emptied_frame (x : View n β) (errata : Bool) :
    Bits.any (x.emptied bus errata).cr crRst = false ∧ (x.emptied bus errata).tx = [] ∧
      (x.emptied bus errata).rx = [] ∧ (x.emptied bus errata).cfgr1 = x.cfgr1 := by
  rw [emptied]
  split_ifs
  · exact ⟨Bits.any_zero_left _, rfl, rfl, rfl⟩
  · have hrtf : Bits.any (x.cr ||| (crRtf ||| crRrf)) Lpspi.crRtf = true := by
      rw [Bits.any_or_left, Bool.or_eq_true]
      exact .inr rfl
    have hrrf : Bits.any (x.cr ||| (crRtf ||| crRrf)) Lpspi.crRrf = true := by
      rw [Bits.any_or_left, Bool.or_eq_true]
      exact .inr rfl
    exact ⟨(x.any_control _).1, if_pos hrtf, if_pos hrrf, rfl⟩

theorem cleared_frame (x : View n β) (errata : Bool) :
    Bits.any (x.emptied bus errata).cleared.cr crRst = false ∧
      (x.emptied bus errata).cleared.tx = [] ∧ (x.emptied bus errata).cleared.rx = [] := by
  obtain ⟨hrst, htx, hrx, -⟩ := x.emptied_frame bus errata
  exact ⟨hrst, htx, hrx⟩

/-- `CONT` and `CONTC`, as the driver has them, are cleared, unless the chip select is to be
    kept. -/
def released (x : View n β) (keepCs : Bool) : View n β :=
  if !keepCs && Bits.any x.tcr tcrCont then x.commanded (x.tcr &&& ~~~(tcrCont ||| tcrContc))
  else x

theorem released_frame (x : View n β) (keepCs : Bool) :
    (x.released keepCs).cr = x.cr ∧ (x.released keepCs).cfgr1 = x.cfgr1 ∧
      (x.released keepCs).csLines = x.csLines ∧ (x.released keepCs).ssi = x.ssi ∧
      (x.released keepCs).rxWatermark = x.rxWatermark := by
  rw [released]
  split_ifs <;> exact ⟨rfl, rfl, rfl, rfl, rfl⟩

/-- Words can be exchanged: the device is enabled, has nothing to send, and a command
    with a chip select that there is. Data received is not masked. -/
structure Open (x : View n β) : Prop where
  men : Bits.any x.cr crMen = true
  tx_eq : x.tx = []
  unmasked : rxmsk x.tcr = false
  pcs_lt : pcs x.tcr < n

theorem emptied_rxWatermark (x : View n β) (errata : Bool) (hx : x.rxWatermark = 0) :
    (x.emptied bus errata).rxWatermark = 0 := by
  rw [emptied]
  split_ifs
  · rfl
  · exact hx

theorem started_rxWatermark (x : View n β) (errata : Bool) (cmd : BitVec 32)
    (hx : x.rxWatermark = 0) : (x.started bus errata cmd).rxWatermark = 0 :=
  (x.control (x.cr &&& ~~~crMen)).emptied_rxWatermark bus errata hx

/-- A transfer starts with empty FIFOs, whatever was in them. -/
theorem started_frame (x : View n β) (errata : Bool) (cmd : BitVec 32) :
    Bits.any (x.started bus errata cmd).cr crRst = false ∧
      Bits.any (x.started bus errata cmd).cr crMen = true ∧ (x.started bus errata cmd).tcr = cmd ∧
      (x.started bus errata cmd).tx = [] ∧ (x.started bus errata cmd).rx = [] ∧
      (x.started bus errata cmd).cfgr1 = x.cfgr1 ∧ (x.started bus errata cmd).faults = false := by
  obtain ⟨-, htx, hrx, hcfgr1⟩ := (x.control (x.cr &&& ~~~crMen)).emptied_frame bus errata
  generalize hy : (x.control (x.cr &&& ~~~crMen)).emptied bus errata = y at htx hrx hcfgr1
  have hmen : Bits.any (y.cr ||| crMen) crMen = true := by
    rw [Bits.any_or_left, Bool.or_eq_true]
    exact .inr rfl
  rw [started, hy]
  obtain ⟨htx', hrx'⟩ := control_empty htx hrx (y.cr ||| crMen)
  exact ⟨(y.any_control _).1, (y.any_control _).2.trans hmen, rfl, htx', hrx', hcfgr1, rfl⟩

theorem started_open {x : View n β} {errata : Bool} {cmd : BitVec 32} (hmask : rxmsk cmd = false)
    (hpcs : pcs cmd < n) : (x.started bus errata cmd).Open := by
  obtain ⟨-, hmen, htcr, htx, -⟩ := x.started_frame bus errata cmd
  exact ⟨hmen, htx, htcr ▸ hmask, htcr ▸ hpcs⟩

variable {bus} {x : View n β}

theorem exchanges_append (vs us : List (BitVec 32)) :
    x.exchanges bus (vs ++ us) =
      ((x.exchanges bus vs).1 ++ ((x.exchanges bus vs).2.exchanges bus us).1,
        ((x.exchanges bus vs).2.exchanges bus us).2) := by
  induction vs generalizing x with
  | nil => rfl
  | cons v vs ih => simp only [List.cons_append, exchanges, ih]

theorem length_exchanges (vs : List (BitVec 32)) : (x.exchanges bus vs).1.length = vs.length := by
  induction vs generalizing x with
  | nil => rfl
  | cons v vs ih => simp only [exchanges, List.length_cons, ih]

/-- Only the side of the peripherals changes, and whether the device is busy. -/
theorem exchanges_frame (bus : SsiBus β) (x : View n β) (vs : List (BitVec 32)) :
    (x.exchanges bus vs).2.cr = x.cr ∧ (x.exchanges bus vs).2.tcr = x.tcr ∧
      (x.exchanges bus vs).2.cfgr1 = x.cfgr1 ∧ (x.exchanges bus vs).2.tx = x.tx ∧
      (x.exchanges bus vs).2.rx = x.rx ∧ (x.exchanges bus vs).2.faults = x.faults ∧
      (x.exchanges bus vs).2.ier = x.ier ∧ (x.exchanges bus vs).2.rxWatermark = x.rxWatermark := by
  induction vs generalizing x with
  | nil => exact ⟨rfl, rfl, rfl, rfl, rfl, rfl, rfl, rfl⟩
  | cons v vs ih => exact ih (x.exchange bus v).2

@[simp] theorem holding_tcr (l : List (BitVec 8)) : (x.holding l).tcr = x.tcr := rfl

@[simp] theorem holding_rx (l : List (BitVec 8)) : (x.holding l).rx = l := rfl

@[simp] theorem exchange_tcr (v : BitVec 32) : (x.exchange bus v).2.tcr = x.tcr := rfl

/-- What has been received does not matter. -/
theorem exchanges_holding (l : List (BitVec 8)) (vs : List (BitVec 32)) :
    (x.holding l).exchanges bus vs =
      ((x.exchanges bus vs).1, (x.exchanges bus vs).2.holding l) := by
  induction vs generalizing x with
  | nil => rfl
  | cons v vs ih =>
    have hnext : ((x.exchange bus v).2.holding l).exchanges bus vs = _ := ih
    rw [exchanges, show ((x.holding l).exchange bus v).2 = (x.exchange bus v).2.holding l from rfl,
      hnext]
    rfl

end View

/-- The command of a transfer that sends frames. -/
def command (slaveMode : Bool) (d : ExternalDevice) : BitVec 32 :=
  let cmd := if d.transferType = .transmit then transferCommand d ||| tcrRxmsk
    else transferCommand d
  if slaveMode then cmd &&& ~~~tcrCont else cmd

theorem commandInit_eq {ε σ : Type} {p : Port Reg ε σ} {w : World σ}
    (hfirst : w.state.firstCmd = true) (htype : w.state.externalDevice.transferType ≠ .receive) :
    commandInit p w = (do
      let type := w.state.externalDevice.transferType
      let w ← w.write p .tcr (command w.state.phyUnitConfig.slaveMode w.state.externalDevice)
      let w ← enableSlave p w
      pure (if type = .fullDuplex then
        w.upd fun st => { st with currentTxFifoSlot := st.currentTxFifoSlot - 1 } else w)) := by
  simp [commandInit, command, hfirst, htype]

/-- Commands with the same field of the frame size. -/
theorem bytesPerFrame_congr {tcr tcr' : BitVec 32}
    (h : tcr &&& Lpspi.tcrFrameszMask = tcr' &&& Lpspi.tcrFrameszMask) :
    bytesPerFrame tcr = bytesPerFrame tcr' := by
  rw [bytesPerFrame, bytesPerFrame, Lpspi.frameSize, Lpspi.frameSize, Lpspi.framesz,
    Lpspi.framesz, h]

/-- `CONT` and `CONTC` are no part of the frame size. -/
theorem bytesPerFrame_clearCs (tcr : BitVec 32) :
    bytesPerFrame (tcr &&& ~~~(tcrCont ||| tcrContc)) = bytesPerFrame tcr := by
  refine bytesPerFrame_congr ?_
  rw [BitVec.and_assoc]
  exact congrArg (tcr &&& ·) (by decide)

/-! ## Accesses -/

/-- The driver has the variables `st`, and the device the view `x`. -/
structure Shows (st : StateStructure) (x : View n β) (w : World (State n β)) : Prop where
  state_eq : w.state = st
  settled : Settled w.hw
  view_eq : view w.hw = x

variable {bus : SsiBus β} {st : StateStructure} {x y : View n β} {w : World (State n β)}

/-- A read of a register other than `RDR` does nothing. -/
theorem read_eq {r : Reg} (hs : Settled w.hw) (hr : r ≠ .rdr) :
    w.read (device bus) r = .ok (Lpspi.peek w.hw (some r), w) := by
  have hread : (device bus).read w.hw r = _ := read_peek hs hr
  simp only [World.read, hread]

/-! ## Buffers -/

/-- Words are stored in a buffer, from the word number `i` on. -/
def put (width i : ℕ) (words : List (BitVec 32)) (buffer : List (BitVec 8)) : List (BitVec 8) :=
  buffer.take (width * i) ++ words.flatMap (Frame.split true width) ++
    buffer.drop (width * (i + words.length))

section Put

variable {width i : ℕ} {words words' : List (BitVec 32)} {b : List (BitVec 8)}

theorem length_flatMap_split (width : ℕ) (words : List (BitVec 32)) :
    (words.flatMap (Frame.split true width)).length = width * words.length := by
  rw [List.length_flatMap]
  simp [Nat.mul_comm]

theorem put_nil : put width i [] = id := by
  funext b
  simp [put]

theorem length_put (h : width * (i + words.length) ≤ b.length) :
    (put width i words b).length = b.length := by
  rw [Nat.mul_add] at h
  rw [put, Nat.mul_add]
  simp only [List.length_append, List.length_take, List.length_drop, length_flatMap_split]
  omega

theorem store_eq_put {a : BitVec 32} (h : width * (i + 1) ≤ b.length) :
    store width b i a = some (put width i [a] b) := by
  rw [store, if_pos (by rwa [← Nat.mul_succ]), put, List.flatMap_singleton]
  rfl

theorem put_put (h : width * (i + words.length + words'.length) ≤ b.length) :
    put width (i + words.length) words' (put width i words b) =
      put width i (words ++ words') b := by
  have htake : (b.take (width * i) ++ words.flatMap (Frame.split true width)).length =
      width * (i + words.length) := by
    rw [List.length_append, List.length_take, length_flatMap_split, Nat.mul_add]
    rw [Nat.mul_add, Nat.mul_add] at h
    omega
  have hdrop : width * (i + words.length + words'.length) - width * (i + words.length) +
      width * (i + words.length) = width * (i + (words ++ words').length) := by
    rw [List.length_append, Nat.mul_add, Nat.mul_add, Nat.mul_add, Nat.mul_add]
    omega
  rw [put, put, put, List.take_left' htake, List.flatMap_append, List.drop_append, htake,
    List.drop_eq_nil_of_le (htake.le.trans (Nat.mul_le_mul_left _ (by omega))), List.nil_append,
    List.drop_drop]
  simp only [List.append_assoc]
  rw [Nat.add_comm, hdrop]

theorem Fits.map_put {m : ℕ} {buffer : Buffer} (h : Fits width m buffer)
    (hm : i + words.length ≤ m) : Fits width m (buffer.map (put width i words)) := by
  intro b' hb'
  obtain ⟨b, hb, rfl⟩ := Option.map_eq_some_iff.1 hb'
  rw [length_put ((Nat.mul_le_mul_left _ hm).trans (h b hb))]
  exact h b hb

end Put

/-- Words are stored in the buffer of the driver, from the word number `i` on. -/
def stored (st : StateStructure) (i : ℕ) (words : List (BitVec 32)) : StateStructure :=
  { st with
    rxBuffer := st.rxBuffer.map (put (frameWidth st.externalDevice.frameSize) i words) }

theorem stored_nil (i : ℕ) : stored st i [] = st := by
  rw [stored, put_nil, Option.map_id_apply]

theorem stored_stored {i : ℕ} {words words' : List (BitVec 32)}
    (h : Fits (frameWidth st.externalDevice.frameSize) (i + words.length + words'.length)
      st.rxBuffer) :
    stored (stored st i words) (i + words.length) words' = stored st i (words ++ words') := by
  simp only [stored, Option.map_map]
  congr 1
  refine Option.map_congr fun b hb => ?_
  exact put_put (h b hb)

/-- The slot of the command is free. -/
def freed (st : StateStructure) : StateStructure :=
  { st with
    currentTxFifoSlot :=
      if st.rxIndex = 0 then (st.currentTxFifoSlot + 1) % 2 ^ 8 else st.currentTxFifoSlot }

/-- The variables after some words have been read, if any. -/
def received (st : StateStructure) : List (BitVec 32) → StateStructure
  | [] => st
  | a :: words =>
    { stored (freed st) st.rxIndex (a :: words) with
      rxIndex := st.rxIndex + (a :: words).length
      currentTxFifoSlot := ((freed st).currentTxFifoSlot + (a :: words).length) % 2 ^ 8 }

theorem received_of_ne_nil {words : List (BitVec 32)} (h : words ≠ []) :
    received st words =
      { stored (freed st) st.rxIndex words with
        rxIndex := st.rxIndex + words.length
        currentTxFifoSlot := ((freed st).currentTxFifoSlot + words.length) % 2 ^ 8 } := by
  obtain ⟨a, words, rfl⟩ := List.exists_cons_of_ne_nil h
  rfl

/-- The word of the frame number `i` of a transfer. -/
def frameWord (d : ExternalDevice) (tx : Buffer) (i : ℕ) : BitVec 32 :=
  match tx with
  | none => d.defaultData
  | some b => (load (frameWidth d.frameSize) b i).getD 0#32

/-- The frames `i, …, i + k - 1` of a transfer, as they are sent. -/
def frames (bytes : ℕ) (d : ExternalDevice) (tx : Buffer) (i k : ℕ) : List (BitVec 32) :=
  (List.range' i k).map fun j => truncate bytes (frameWord d tx j)

theorem frames_succ (bytes : ℕ) (d : ExternalDevice) (tx : Buffer) (i k : ℕ) :
    frames bytes d tx i (k + 1) =
      truncate bytes (frameWord d tx i) :: frames bytes d tx (i + 1) k := by
  rw [frames, List.range'_succ, List.map_cons, ← frames]

theorem frames_append (bytes : ℕ) (d : ExternalDevice) (tx : Buffer) (i k l : ℕ) :
    frames bytes d tx i (k + l) = frames bytes d tx i k ++ frames bytes d tx (i + k) l := by
  rw [frames, frames, frames, ← List.map_append, ← List.range'_append_1]

theorem length_frames (bytes : ℕ) (d : ExternalDevice) (tx : Buffer) (i k : ℕ) :
    (frames bytes d tx i k).length = k := by
  rw [frames, List.length_map, List.length_range']

namespace Shows

theorem upd {st' : StateStructure} (h : Shows st x w) {f : StateStructure → StateStructure}
    (hf : f st = st') : Shows st' x (w.upd f) :=
  ⟨(congrArg f h.state_eq).trans hf, h.settled, h.view_eq⟩

theorem read (h : Shows st x w) {r : Reg} (hr : r ≠ .rdr) :
    Ends NoError (w.read (device bus) r) fun a =>
      a.1 = Lpspi.peek w.hw (some r) ∧ Shows st x a.2 := by
  rw [read_eq h.settled hr]
  exact ⟨rfl, h⟩

theorem write (h : Shows st x w) {r : Reg} {v : BitVec 32}
    (hw : ∃ t, (device bus).write w.hw r v = .ok t ∧ Settled t ∧ view t = y) :
    Ends NoError (w.write (device bus) r v) (Shows st y) := by
  obtain ⟨t, ht, hs, hv⟩ := hw
  refine World.ends_write ?_
  rw [ht]
  exact ⟨h.state_eq, hs, hv⟩

/-- A write to a register that the driver has just read. -/
theorem modify (h : Shows st x w) {r : Reg} {f : BitVec 32 → BitVec 32} (hr : r ≠ .rdr)
    (hw : ∃ t, (device bus).write w.hw r (f (Lpspi.peek w.hw (some r))) = .ok t ∧ Settled t ∧
      view t = y) : Ends NoError (w.modify (device bus) r f) (Shows st y) := by
  obtain ⟨t, ht, hs, hv⟩ := hw
  have hread : (device bus).read w.hw r = _ := read_peek h.settled hr
  simp only [World.modify, World.read, hread]
  refine World.ends_write ?_
  dsimp only
  rw [ht]
  exact ⟨h.state_eq, hs, hv⟩

theorem cr_eq (h : Shows st x w) : Lpspi.peek w.hw (some .cr) = x.cr := by
  rw [← h.view_eq]
  rfl

theorem tcr_eq (h : Shows st x w) : Lpspi.peek w.hw (some .tcr) = x.tcr := by
  rw [← h.view_eq]
  rfl

theorem cfgr1_eq (h : Shows st x w) : Lpspi.peek w.hw (some .cfgr1) = x.cfgr1 := by
  rw [← h.view_eq]
  rfl

theorem modify_cr (h : Shows st x w) {f : BitVec 32 → BitVec 32}
    (hf : Bits.any (f x.cr) crRst = false) :
    Ends NoError (w.modify (device bus) .cr f) (Shows st (x.control (f x.cr))) := by
  refine h.modify (by decide) ?_
  rw [h.cr_eq, ← h.view_eq] at *
  exact write_cr h.settled hf

theorem modifyCfgr1 (h : Shows st x w) (f : BitVec 32 → BitVec 32) :
    Ends NoError (w.modify (device bus) .cfgr1 f) (Shows st { x with cfgr1 := f x.cfgr1 }) := by
  refine h.modify (by decide) ?_
  rw [h.cfgr1_eq, ← h.view_eq]
  exact write_cfgr1 bus _ h.settled

theorem writeDer (h : Shows st x w) (v : BitVec 32) :
    Ends NoError (w.write (device bus) .der v) (Shows st x) := by
  refine h.write ?_
  rw [← h.view_eq]
  exact write_plain bus v h.settled (.inl rfl)

theorem writeIer (h : Shows st x w) (v : BitVec 32) :
    Ends NoError (w.write (device bus) .ier v) (Shows st (x.enabling v)) := by
  refine h.write ?_
  rw [← h.view_eq]
  exact write_ier bus v h.settled

/-! ## The start of a transfer -/

theorem errataHandle (h : Shows st x w) :
    Ends NoError (errataHandle (device bus) w)
      (Shows st { x.reset bus with cfgr1 := x.cfgr1 }) := by
  rw [LpspiIp.errataHandle]
  refine (h.read (by decide)).bind ?_
  rintro ⟨cfgr1, w₁⟩ ⟨hcfgr1, h₁⟩
  rw [h.cfgr1_eq] at hcfgr1
  have hrst : Bits.any (x.cr ||| crRst) crRst = true := by
    rw [Bits.any_or_left, Bool.or_eq_true]
    exact .inr rfl
  have hreset : Ends NoError (w₁.modify (device bus) .cr (· ||| crRst))
      (Shows st (x.reset bus)) := by
    refine h₁.modify (by decide) ?_
    rw [h₁.cr_eq, ← h₁.view_eq] at *
    exact write_cr_rst h₁.settled hrst
  refine hreset.bind fun w₂ h₂ => ?_
  refine (h₂.modify_cr (Bits.any_clear_self _ _)).bind fun w₃ h₃ => ?_
  rw [View.control_reset] at h₃
  refine h₃.write ?_
  have hw := write_cfgr1 bus cfgr1 h₃.settled
  rw [h₃.view_eq, show cfgr1 = x.cfgr1 from hcfgr1] at hw
  rwa [show cfgr1 = x.cfgr1 from hcfgr1]

theorem emptyFifos {errata : Bool} (h : Shows st x w) (hcr : Bits.any x.cr crRst = false) :
    Ends NoError (emptyFifos (device bus) errata w) (Shows st (x.emptied bus errata)) := by
  rw [LpspiIp.emptyFifos, View.emptied]
  split_ifs
  · exact h.errataHandle
  · refine h.modify_cr ?_
    rw [Bits.any_or_left, hcr]
    rfl

/-- The flags that are set are cleared, if those of the errors are among what is written
    back. -/
theorem clearSr (h : Shows st x w) {m : BitVec 32} (hm : ~~~m &&& (srRef ||| srTef) = 0#32) :
    Ends NoError (w.modify (device bus) .sr (· &&& m)) (Shows st x.cleared) := by
  refine h.modify (by decide) ?_
  have hv : Bits.any (w.hw.sr &&& ~~~(w.hw.sr &&& m)) (srRef ||| srTef) = false := by
    have hclear : w.hw.sr &&& ~~~(w.hw.sr &&& m) = w.hw.sr &&& ~~~m := by
      rw [BitVec.not_and, BitVec.and_or_distrib_left, BitVec.and_not_self]
      exact BitVec.zero_or
    rw [hclear, Bits.any, BitVec.and_assoc, hm, BitVec.and_zero]
    rfl
  have hw := write_sr bus h.settled hv
  rwa [h.view_eq] at hw

/-- The module is disabled, emptied and, unless it is a slave, enabled. -/
theorem firstCmdInit {errata : Bool} (h : Shows st x w) (hfirst : st.firstCmd = true)
    (hcr : Bits.any x.cr crRst = false) :
    Ends NoError (firstCmdInit (device bus) errata w) (Shows st
      (let y := ((x.control (x.cr &&& ~~~crMen)).emptied bus errata).cleared
      if st.phyUnitConfig.slaveMode then y else y.control (y.cr ||| crMen))) := by
  have hdis : Bits.any (x.cr &&& ~~~crMen) crRst = false := by
    rw [Bits.any_clear_of_disjoint (by decide), hcr]
  rw [LpspiIp.firstCmdInit, h.state_eq, hfirst, Bool.not_true, if_neg Bool.false_ne_true]
  refine (h.modify_cr hdis).bind fun w₁ h₁ => ?_
  refine (h₁.emptyFifos (x.any_control _).1).bind fun w₂ h₂ => ?_
  obtain ⟨hrst, -⟩ := (x.control (x.cr &&& ~~~crMen)).emptied_frame bus errata
  generalize (x.control (x.cr &&& ~~~crMen)).emptied bus errata = y at h₂ hrst ⊢
  refine (h₂.clearSr (by decide)).bind fun w₃ h₃ => ?_
  rw [h₃.state_eq]
  dsimp only
  split_ifs
  · exact ends_pure h₃
  · have hccr := write_plain bus st.externalDevice.ccr h₃.settled (.inr rfl)
    rw [h₃.view_eq] at hccr
    refine (h₃.write hccr).bind fun w₄ h₄ => h₄.modify_cr ?_
    change Bits.any (y.cr ||| crMen) crRst = false
    rw [Bits.any_or_left, hrst]
    rfl

/-- A command is written, with nothing queued. -/
theorem writeTcr (h : Shows st x w) (htx : x.tx = []) {v : BitVec 32} (hv : bytesPerFrame v ≠ 0) :
    Ends NoError (w.write (device bus) .tcr v) (Shows st (x.commanded v)) := by
  refine h.write ?_
  rw [← h.view_eq] at htx ⊢
  exact write_tcr bus h.settled htx hv

/-- The command of a transfer is written. -/
theorem commandInit (bus : SsiBus β) (h : Shows st x w) (hfirst : st.firstCmd = true)
    (htype : st.externalDevice.transferType ≠ .receive) (hcr : Bits.any x.cr crRst = false)
    (htx : x.tx = [])
    (hb : bytesPerFrame (command st.phyUnitConfig.slaveMode st.externalDevice) ≠ 0) :
    Ends NoError (commandInit (device bus) w)
      (Shows
        { st with
          currentTxFifoSlot :=
            if st.externalDevice.transferType = .fullDuplex then st.currentTxFifoSlot - 1
            else st.currentTxFifoSlot }
        (View.commanded (if st.phyUnitConfig.slaveMode then x.control (x.cr ||| crMen) else x)
          (command st.phyUnitConfig.slaveMode st.externalDevice))) := by
  rw [commandInit_eq (by rwa [h.state_eq]) (by rwa [h.state_eq]), h.state_eq]
  dsimp only
  refine (h.writeTcr htx hb).bind fun w₁ h₁ => ?_
  have henable : Ends NoError (LpspiIp.enableSlave (device bus) w₁) (Shows st
      (View.commanded (if st.phyUnitConfig.slaveMode then x.control (x.cr ||| crMen) else x)
        (command st.phyUnitConfig.slaveMode st.externalDevice))) := by
    rw [LpspiIp.enableSlave, h₁.state_eq]
    split_ifs with hslave
    · have hmen : Bits.any (x.cr ||| crMen) crRst = false := by
        rw [Bits.any_or_left, hcr]
        rfl
      exact h₁.modify_cr hmen
    · exact ends_pure h₁
  refine henable.bind fun w₂ h₂ => ends_pure ?_
  by_cases hfull : st.externalDevice.transferType = .fullDuplex
  · simp only [if_pos hfull]
    exact h₂.upd rfl
  · simp only [if_neg hfull]
    exact h₂

/-- A transfer that sends frames is started. -/
theorem transmitTxInit {errata : Bool} {tx : Buffer} {length : ℕ} (h : Shows st x w)
    (hfirst : st.firstCmd = true) (htype : st.externalDevice.transferType ≠ .receive)
    (hcr : Bits.any x.cr crRst = false)
    (hb : bytesPerFrame (command st.phyUnitConfig.slaveMode st.externalDevice) ≠ 0) :
    Ends NoError (transmitTxInit (device bus) errata tx length w)
      (Shows
        { st with
          currentTxFifoSlot :=
            if st.externalDevice.transferType = .fullDuplex then st.currentTxFifoSlot - 1
            else st.currentTxFifoSlot
          txIndex := 0
          txBuffer := if st.externalDevice.transferType = .fullDuplex then tx else st.txBuffer
          expectedFifoWrites := expectedFrames st.externalDevice.frameSize length }
        (x.started bus errata (command st.phyUnitConfig.slaveMode st.externalDevice))) := by
  rw [LpspiIp.transmitTxInit]
  refine (h.firstCmdInit hfirst hcr).bind fun w₁ h₁ => ?_
  obtain ⟨hrst, htx, hrx⟩ := (x.control (x.cr &&& ~~~crMen)).cleared_frame bus errata
  rw [View.started]
  generalize ((x.control (x.cr &&& ~~~crMen)).emptied bus errata).cleared = y at h₁ hrst htx hrx ⊢
  dsimp only at h₁ ⊢
  -- A slave is enabled after its command, a master before.
  have hcommand : Ends NoError (LpspiIp.commandInit (device bus) w₁)
      (Shows
        { st with
          currentTxFifoSlot :=
            if st.externalDevice.transferType = .fullDuplex then st.currentTxFifoSlot - 1
            else st.currentTxFifoSlot }
        ((y.control (y.cr ||| crMen)).commanded
          (command st.phyUnitConfig.slaveMode st.externalDevice))) := by
    cases hslave : st.phyUnitConfig.slaveMode with
    | true =>
      rw [hslave, if_pos rfl] at h₁
      have hc := h₁.commandInit bus hfirst htype hrst htx hb
      rwa [hslave, if_pos rfl] at hc
    | false =>
      rw [hslave, if_neg Bool.false_ne_true] at h₁
      have hc := h₁.commandInit bus hfirst htype (y.any_control _).1
        (View.control_empty htx hrx _).1 hb
      rwa [hslave, if_neg Bool.false_ne_true] at hc
  exact hcommand.bind fun w₂ h₂ => ends_pure (h₂.upd rfl)

/-! ## Frames -/

theorem readRdr {a : BitVec 32} {words : List (BitVec 32)} (h : Shows st x w)
    (hrx : x.rx = bytes x.tcr (a :: words)) :
    Ends NoError (w.read (device bus) .rdr) fun y =>
      y.1 = truncate (bytesPerFrame x.tcr) a ∧ Shows st (x.holding (bytes x.tcr words)) y.2 := by
  have hview := h.view_eq
  subst hview
  obtain ⟨t, ht, hs, hv⟩ := read_rdr bus h.settled hrx
  refine World.ends_read ?_
  rw [ht]
  exact ⟨rfl, h.state_eq, hs, hv⟩

theorem storeData {i : ℕ} (h : Shows st x w)
    (hfits : Fits (frameWidth st.externalDevice.frameSize) (i + 1) st.rxBuffer) (data : BitVec 32) :
    Ends NoError (storeData w i data : Except (Stop Fault) _) (Shows (stored st i [data]) x) := by
  rw [LpspiIp.storeData, h.state_eq, stored]
  cases hb : st.rxBuffer with
  | none => exact ⟨by rw [h.state_eq, Option.map_none, ← hb], h.settled, h.view_eq⟩
  | some b =>
    simp only [store_eq_put (hfits b hb)]
    exact h.upd rfl

/-- Answers are read from the RX FIFO, in order, and stored in the buffer. -/
theorem readFrames {i k : ℕ} {answers words : List (BitVec 32)} (h : Shows st x w)
    (hk : answers.length = k) (hrx : x.rx = bytes x.tcr (answers ++ words))
    (hfits : Fits (frameWidth st.externalDevice.frameSize) (i + k) st.rxBuffer) :
    Ends NoError (readFrames (device bus) k i w)
      (Shows (stored st i (answers.map (truncate (bytesPerFrame x.tcr))))
        (x.holding (bytes x.tcr words))) := by
  induction k generalizing i w st x answers with
  | zero =>
    obtain rfl := List.length_eq_zero_iff.1 hk
    rw [List.map_nil, stored_nil]
    rw [List.nil_append] at hrx
    rw [← hrx]
    exact h
  | succ k ih =>
    obtain ⟨a, answers, rfl⟩ := List.exists_cons_of_length_eq_add_one hk
    rw [LpspiIp.readFrames]
    refine (h.readRdr hrx).bind ?_
    rintro ⟨data, w₁⟩ ⟨hdata, h₁⟩
    refine (h₁.storeData (hfits.mono (by omega)) data).bind fun w₂ h₂ => ?_
    have hfits₂ : Fits (frameWidth st.externalDevice.frameSize) (i + 1 + k)
        (stored st i [data]).rxBuffer := by
      refine Fits.map_put ?_ (by simp)
      exact hfits.mono (by omega)
    refine (ih h₂ (Nat.succ.inj hk) rfl hfits₂).mono fun w₃ h₃ => ?_
    have hlen : (answers.map (truncate (bytesPerFrame x.tcr))).length = k := by
      rw [List.length_map]
      exact Nat.succ.inj hk
    have hst : stored (stored st i [data]) (i + 1) (answers.map (truncate (bytesPerFrame x.tcr))) =
        stored st i ([data] ++ answers.map (truncate (bytesPerFrame x.tcr))) :=
      stored_stored (by rwa [hlen, List.length_singleton, Nat.add_assoc, Nat.add_comm 1])
    rw [show data = _ from hdata] at hst h₃
    rw [List.map_cons, ← List.singleton_append, ← hst]
    exact h₃

theorem frameData {i : ℕ} (h : Shows st x w)
    (hfits : Fits (frameWidth st.externalDevice.frameSize) (i + 1) st.txBuffer) :
    (frameData w i : Except (Stop Fault) _) =
      .ok (frameWord st.externalDevice st.txBuffer i) := by
  rw [LpspiIp.frameData, h.state_eq, frameWord.eq_def]
  cases hb : st.txBuffer with
  | none => rfl
  | some b =>
    obtain ⟨v, hv⟩ := load_isSome (hfits b hb)
    simp only [hv, Option.getD_some]

theorem writeTdr {words : List (BitVec 32)} (h : Shows st x w) (ho : x.Open)
    (hrx : x.rx = bytes x.tcr words)
    (hroom : bytesPerFrame x.tcr * (words.length + 1) ≤ Lpspi.fifoByteCapacity) (v : BitVec 32) :
    Ends NoError (w.write (device bus) .tdr v)
      (Shows st ((x.exchange bus (truncate (bytesPerFrame x.tcr) v)).2.holding
        (bytes x.tcr (words ++ [(x.exchange bus (truncate (bytesPerFrame x.tcr) v)).1])))) := by
  have hview := h.view_eq
  subst hview
  exact h.write (write_tdr bus h.settled ho.men ho.tx_eq hrx hroom ho.unmasked ho.pcs_lt)

/-- Frames pushed are exchanged at once, if there is room for their answers. -/
theorem pushFrames {i k : ℕ} {words : List (BitVec 32)} (h : Shows st x w) (ho : x.Open)
    (hrx : x.rx = bytes x.tcr words)
    (hroom : bytesPerFrame x.tcr * (words.length + k) ≤ Lpspi.fifoByteCapacity)
    (hfits : Fits (frameWidth st.externalDevice.frameSize) (i + k) st.txBuffer) :
    Ends NoError (pushFrames (device bus) k i w)
      (Shows st (x.pushed bus words
        (frames (bytesPerFrame x.tcr) st.externalDevice st.txBuffer i k))) := by
  induction k generalizing i w x words with
  | zero =>
    have hx : x.holding (bytes x.tcr (words ++ [])) = x := by
      rw [List.append_nil, ← hrx]
      rfl
    exact hx.symm ▸ h
  | succ k ih =>
    rw [LpspiIp.pushFrames, h.frameData (hfits.mono (by omega)), frames_succ, View.pushed,
      View.exchanges]
    have hfirst : bytesPerFrame x.tcr * (words.length + 1) ≤ Lpspi.fifoByteCapacity :=
      (Nat.mul_le_mul_left _ (by omega)).trans hroom
    refine (h.writeTdr ho hrx hfirst _).bind fun w₁ h₁ => ?_
    have hfits₁ : Fits (frameWidth st.externalDevice.frameSize) (i + 1 + k) st.txBuffer := by
      rwa [Nat.add_right_comm]
    have hroom₁ : ∀ a : BitVec 32, bytesPerFrame x.tcr * ((words ++ [a]).length + k) ≤
        Lpspi.fifoByteCapacity := by
      intro a
      rwa [List.length_append, List.length_singleton, Nat.add_assoc, Nat.add_comm 1]
    have hend := ih h₁ ⟨ho.men, ho.tx_eq, ho.unmasked, ho.pcs_lt⟩ rfl (hroom₁ _) hfits₁
    simp only [View.pushed, View.holding_tcr, View.exchange_tcr, View.exchanges_holding,
      List.append_assoc, List.singleton_append] at hend
    exact hend

/-! ## The parts of a pass -/

theorem counts {words : List (BitVec 32)} (h : Shows st x w) (htx : x.tx = [])
    (hrx : x.rx = bytes x.tcr words) (hlen : words.length ≤ 4) :
    rxcount (Lpspi.peek w.hw (some .fsr)) = words.length ∧
      txcount (Lpspi.peek w.hw (some .fsr)) = 0 := by
  have hview := h.view_eq
  subst hview
  exact counts_fsr h.settled htx hrx hlen

theorem flags {words : List (BitVec 32)} (h : Shows st x w) (htx : x.tx = [])
    (hrx : x.rx = bytes x.tcr words) :
    Bits.any (Lpspi.peek w.hw (some .sr)) srTdf = true ∧
      (x.rxWatermark < words.length → Bits.any (Lpspi.peek w.hw (some .sr)) srRdf =
        decide (4 ≤ bytesPerFrame x.tcr * words.length)) := by
  have hview := h.view_eq
  subst hview
  exact flags_sr h.settled htx hrx

/-- All answers that wait are read. -/
theorem receiveData {words : List (BitVec 32)} (h : Shows st x w) (htx : x.tx = [])
    (hrx : x.rx = bytes x.tcr words) (hlen : words.length ≤ 4)
    (hle : st.rxIndex + words.length ≤ st.expectedFifoReads)
    (hfits : Fits (frameWidth st.externalDevice.frameSize) st.expectedFifoReads st.rxBuffer) :
    Ends NoError (receiveData (device bus) w) fun y => y.1 = !words.isEmpty ∧
      Shows (received st (words.map (truncate (bytesPerFrame x.tcr)))) (x.holding []) y.2 := by
  rw [LpspiIp.receiveData]
  refine (h.read (by decide)).bind ?_
  rintro ⟨fsr, w₁⟩ ⟨hfsr, h₁⟩
  dsimp only at hfsr h₁ ⊢
  rw [hfsr, (h.counts htx hrx hlen).1, h₁.state_eq]
  cases words with
  | nil =>
    rw [if_pos List.length_nil]
    have hx : x.holding [] = x := by
      rw [show ([] : List (BitVec 8)) = x.rx from hrx.symm]
      rfl
    exact ends_pure ⟨rfl, hx.symm ▸ h₁⟩
  | cons a words =>
    have hmin : min (a :: words).length (st.expectedFifoReads - st.rxIndex) =
        (a :: words).length := by omega
    rw [if_neg (by simp), hmin, readDataFromFifo, bind_assoc]
    have hfree : Shows (freed st) x (freeCommandSlot w₁) := h₁.upd rfl
    rw [hfree.state_eq]
    refine (hfree.readFrames rfl (by rwa [List.append_nil]) (hfits.mono hle)).bind fun w₂ h₂ => ?_
    refine ends_pure ⟨rfl, ?_⟩
    rw [List.map_cons, received, ← List.map_cons, List.length_map]
    refine ⟨?_, h₂.settled, h₂.view_eq⟩
    rw [World.upd_state, World.upd_state, h₂.state_eq]
    rfl

/-- Frames are pushed, and exchanged. -/
theorem transmitData {words : List (BitVec 32)} {m : ℕ}
    {done : World (State n β) → Except (Stop Fault) (World (State n β))} (h : Shows st x w)
    (ho : x.Open) (hrx : x.rx = bytes x.tcr words) (hlen : words.length + m ≤ 4)
    (hne : st.expectedFifoWrites ≠ st.txIndex)
    (hm : m = min st.currentTxFifoSlot (st.expectedFifoWrites - st.txIndex)) (hpos : 0 < m)
    (hfits : Fits (frameWidth st.externalDevice.frameSize) (st.txIndex + m) st.txBuffer) :
    Ends NoError (transmitData (device bus) done w) fun y => y.1 = true ∧
      Shows
        { st with
          txIndex := st.txIndex + m
          currentTxFifoSlot := st.currentTxFifoSlot - m }
        (x.pushed bus words
          (frames (bytesPerFrame x.tcr) st.externalDevice st.txBuffer st.txIndex m)) y.2 := by
  rw [LpspiIp.transmitData, h.state_eq, if_neg (by omega), if_pos hne]
  dsimp only
  rw [← hm, pushDataToFifo, bind_assoc, h.state_eq]
  have hroom : bytesPerFrame x.tcr * (words.length + m) ≤ Lpspi.fifoByteCapacity :=
    Nat.mul_le_mul (Lpspi.bytesPerFrame_le _) hlen
  refine (h.pushFrames ho hrx hroom hfits).bind fun w₁ h₁ => ends_pure ⟨rfl, ?_⟩
  refine ⟨?_, h₁.settled, h₁.view_eq⟩
  rw [World.upd_state, World.upd_state, h₁.state_eq]

/-- All frames have been pushed. -/
theorem transmitData_done {P : World (State n β) → Prop}
    {done : World (State n β) → Except (Stop Fault) (World (State n β))} (h : Shows st x w)
    (hslot : st.currentTxFifoSlot ≠ 0) (heq : st.expectedFifoWrites = st.txIndex)
    (hdone : Ends NoError (done w) P) :
    Ends NoError (LpspiIp.transmitData (device bus) done w) fun y => y.1 = false ∧ P y.2 := by
  rw [LpspiIp.transmitData, h.state_eq, if_neg hslot, if_neg (not_not.2 heq)]
  exact hdone.bind fun w₁ h₁ => ends_pure ⟨rfl, h₁⟩

/-- The bits of the command are cleared, without a transfer. -/
theorem releaseCs (h : Shows st x w) (htx : x.tx = []) (hb : bytesPerFrame x.tcr ≠ 0) :
    Ends NoError (releaseCs (device bus) w) (Shows st (x.released st.keepCs)) := by
  rw [LpspiIp.releaseCs, h.state_eq, View.released]
  cases hkeep : st.keepCs with
  | true => exact h
  | false =>
    rw [if_neg Bool.false_ne_true]
    refine (h.read (by decide)).bind ?_
    rintro ⟨tcr, w₁⟩ ⟨htcr, h₁⟩
    rw [show tcr = x.tcr from htcr.trans h.tcr_eq, Bool.not_false, Bool.true_and]
    dsimp only
    split_ifs
    · refine h₁.modify (by decide) ?_
      rw [h₁.tcr_eq]
      rw [← h₁.view_eq] at htx hb ⊢
      exact write_tcr bus h₁.settled htx (by rwa [bytesPerFrame_clearCs])
    · exact ends_pure h₁

end Shows

end S32K358.LpspiIp
