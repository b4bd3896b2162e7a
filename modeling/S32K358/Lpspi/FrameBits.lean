import S32K358.Lpspi.ChipSelect
import S32K358.Lpspi.DataPath

/-!
# The LPSPI: the bits of a frame

A frame has `FRAMESZ + 1` bits, but the FIFOs hold whole bytes, and nothing masks the
bits of the last one that are not in the frame. The order of its bytes is that of the
command in force when it is queued, and when it is taken, and these may differ.

What the frame carries is followed through a run by two ghost queues (`Queues`): the
values accepted and not yet transferred, and the answers received and not yet read. As
long as the size of frames is held while data is queued (`HoldsSize`), the FIFOs are
the streams of the frames of these queues (`Carries`).

`run_frameBits_iff`: in such a run, the words handed over and the values read are cut to
the size of the frame exactly when the values and answers that they are for have no
other bits in the bytes of the frame, and their bytes are not reversed in between, or
are the same both ways (`Intact`).
-/

namespace S32K358.Lpspi

variable {n : ℕ} {β : Type} {bus : SsiBus β} {s t x : State n β} {a : Access} {τ : Step n β}

/-! ## Ghost queues -/

/-- The values accepted and not yet transferred, and the answers not yet read, each with
    the order of the bytes in which it is queued. -/
structure Queues where
  tx : List (Bool × BitVec 32)
  rx : List (Bool × BitVec 32)

/-- The values, with the one that a transition accepts. -/
def Queues.filled (g : Queues) (τ : Step n β) : List (Bool × BitVec 32) :=
  g.tx ++ (accepts τ.pre τ.input).toList.map fun v => (lsbf τ.pre.tcr, v)

/-- The queues after a transition. -/
@[simps]
def Queues.after (g : Queues) (τ : Step n β) : Queues where
  tx := if τ.input.setsCr (crRst ||| crRtf) then []
    else (g.filled τ).drop (exchanges τ.output.calls).length
  rx := if τ.input.setsCr (crRst ||| crRrf) then []
    else if takes τ.pre τ.input then g.rx.drop 1
    else g.rx ++ ((exchanges τ.output.calls).filter fun x => !rxmsk x.tcr).map
      fun x => (lsbf x.tcr, x.rxData)

/-- A word handed over is the oldest value, cut to the size of the frame, and a value read
    is the oldest answer, cut to it. -/
def CarriesBits (g : Queues) (τ : Step n β) : Prop :=
  (∀ y ∈ exchanges τ.output.calls, ∃ e, (g.filled τ).head? = some e ∧
    y.txData.toNat = e.2.toNat % 2 ^ frameSize y.tcr) ∧
  (takes τ.pre τ.input = true → ∃ e w, g.rx.head? = some e ∧ τ.output.value = some w ∧
    w.toNat = e.2.toNat % 2 ^ frameSize τ.pre.tcr)

/-- The bytes of a frame hold no more bits of the value than the frame has, and they are the
    same in the order in force as in the one they were queued in. -/
def Intact (tcr : BitVec 32) (e : Bool × BitVec 32) : Prop :=
  e.2.toNat % 2 ^ (8 * bytesPerFrame tcr) < 2 ^ frameSize tcr ∧
    Frame.split (lsbf tcr) (bytesPerFrame tcr) e.2 = Frame.split e.1 (bytesPerFrame tcr) e.2

instance (tcr : BitVec 32) (e : Bool × BitVec 32) : Decidable (Intact tcr e) :=
  inferInstanceAs (Decidable (_ ∧ _))

/-- The value and the answer that a transition moves are left intact by their frames. -/
def MovesIntact (g : Queues) (τ : Step n β) : Prop :=
  (∀ y ∈ exchanges τ.output.calls, ∀ e, (g.filled τ).head? = some e → Intact y.tcr e) ∧
  (takes τ.pre τ.input = true → ∀ e, g.rx.head? = some e → Intact τ.pre.tcr e)

/-- Frames have at most 32 bits, and while data is queued, a command does not change
    their size. -/
def HoldsSize (s : State n β) (a : Access) : Prop :=
  a.onWrite .tcr fun v => frameSize v ≤ 32 ∧
    (s.txFifo.num = 0 ∧ s.rxFifo.num = 0 ∨ frameSize v = frameSize s.tcr)

instance (s : State n β) (a : Access) : Decidable (HoldsSize s a) :=
  inferInstanceAs (Decidable (a.onWrite .tcr _))

/-! ## The FIFOs as streams -/

/-- The FIFOs hold the frames of the queues, of `b` bytes each. -/
structure Streams (b : ℕ) (g : Queues) (s : State n β) : Prop where
  tx : s.txFifo.contents = Frame.stream b g.tx
  rx : s.rxFifo.contents = Frame.stream b g.rx

/-- Between two accesses, they do so with the size in force. -/
structure Carries (g : Queues) (s : State n β) : Prop
    extends Streams (bytesPerFrame s.tcr) g s where
  settled : Settled s
  size_le : frameSize s.tcr ≤ 32

theorem eq_nil_of_stream {b : ℕ} {l : List (Bool × BitVec 32)} {f : Fifo8 fifoByteCapacity}
    (hb : b ≠ 0) (h : f.contents = Frame.stream b l) (hf : f.num = 0) : l = [] := by
  have hlen := congrArg List.length h
  rw [f.length_contents, hf, Frame.length_stream] at hlen
  exact List.length_eq_zero_iff.1 ((Nat.mul_eq_zero.1 hlen.symm).resolve_left hb)

/-- What is queued is so with the size after the access, too, if it holds it and does not
    reset the device. -/
theorem Carries.streams {g : Queues} (h : Carries g s) (ha : HoldsSize s a)
    (hrst : a.setsCr crRst = false) :
    Streams (bytesPerFrame (tcrAfter s a)) g s ∧ frameSize (tcrAfter s a) ≤ 32 := by
  refine (tcrAfter_iff (P := fun v => Streams (bytesPerFrame v) g s ∧ frameSize v ≤ 32)
    ⟨h.toStreams, h.size_le⟩ fun h => absurd (hrst.symm.trans h) (by decide)).2 (ha.imp ?_)
  rintro v ⟨hle, ⟨htx, hrx⟩ | hsize⟩
  · -- Nothing is queued, of whatever size.
    have hgtx := eq_nil_of_stream h.settled.bytes_ne_zero h.tx htx
    have hgrx := eq_nil_of_stream h.settled.bytes_ne_zero h.rx hrx
    refine ⟨⟨?_, ?_⟩, hle⟩
    · rw [h.tx, hgtx]
      rfl
    · rw [h.rx, hgrx]
      rfl
  · have hbytes : bytesPerFrame v = bytesPerFrame s.tcr := by
      rw [bytesPerFrame, bytesPerFrame, hsize]
    rw [hbytes]
    exact ⟨h.toStreams, hle⟩

/-! ## Accesses -/

theorem tcrAfter_of_accepts {v : BitVec 32} (h : accepts s a = some v) : tcrAfter s a = s.tcr := by
  cases a with
  | read addr => rfl
  | write addr w =>
    rw [accepts] at h
    split_ifs at h with hacc
    simp [tcrAfter, hacc.1]

theorem tcrAfter_of_reset (h : a.setsCr crRst = true) : tcrAfter s a = 0x1F#32 := by
  cases a with
  | read addr => exact absurd h Bool.false_ne_true
  | write addr v =>
    rw [Access.setsCr, Bool.and_eq_true, decide_eq_true_eq] at h
    simp [tcrAfter, h.1, h.2]

theorem tcrAfter_of_takes (h : takes s a = true) : tcrAfter s a = s.tcr := by
  cases a with
  | read addr => rfl
  | write addr w => exact absurd h Bool.false_ne_true

/-- The transition is one of the device, in a state between two accesses. -/
theorem effect_of_takes (hs : Settled τ.pre) (htake : Mealy.Takes (access bus) τ) :
    ∃ u, Effect bus τ.pre τ.input τ.output.value u ∧ τ.post = { u with calls := [] } ∧
      exchanges τ.output.calls = (sending τ.pre τ.input).toList.map (frame bus) := by
  obtain ⟨u, hu, hcalls, hpost⟩ := effect_of_access hs.bytes_ne_zero htake
  refine ⟨u, hu, hpost, ?_⟩
  rw [hcalls, hs.exchanges_eq hu]

/-! ## What an access does to the streams -/

variable {g : Queues}

theorem contents_filled (h : Streams (bytesPerFrame (tcrAfter τ.pre τ.input)) g τ.pre) :
    (filled τ.pre τ.input).contents =
      Frame.stream (bytesPerFrame (tcrAfter τ.pre τ.input)) (g.filled τ) := by
  rw [filled, Queues.filled]
  cases hacc : accepts τ.pre τ.input with
  | none =>
    rw [Option.toList_none, List.map_nil, List.append_nil]
    exact h.tx
  | some v =>
    have hroom := room_of_accepts hacc
    have htx := h.tx
    rw [tcrAfter_of_accepts hacc] at htx ⊢
    rw [Option.elim_some, queued, RingBuffer.contents_pushAll _ (by rwa [Frame.length_split]), htx,
      Option.toList_some, List.map_singleton, Frame.stream_append, Frame.stream_singleton,
      Frame.split_setWidth (by decide)]

/-- The oldest value, of which a frame is sent. -/
theorem exists_filled (h : Streams (bytesPerFrame (tcrAfter τ.pre τ.input)) g τ.pre)
    (hx : sending τ.pre τ.input = some x) (hb : bytesPerFrame x.tcr ≠ 0) :
    ∃ e l, g.filled τ = e :: l := by
  obtain ⟨-, -, -, -, hready, -⟩ := sending_eq_some hx
  have hle := hready.1
  rw [(fifos_of_sending hx).1, ← RingBuffer.length_contents, contents_filled h,
    ← (sending_frame hx).1] at hle
  exact Frame.exists_of_le_stream (Nat.pos_of_ne_zero hb) hle

theorem contents_txAfter (h : Streams (bytesPerFrame (tcrAfter τ.pre τ.input)) g τ.pre)
    (hex : exchanges τ.output.calls = (sending τ.pre τ.input).toList.map (frame bus)) :
    (txAfter τ.pre τ.input).contents =
      Frame.stream (bytesPerFrame (tcrAfter τ.pre τ.input)) (g.after τ).tx := by
  rw [txAfter, Queues.after_tx]
  split_ifs with hflush
  · rfl
  · change ((sending τ.pre τ.input).elim (filled τ.pre τ.input) _).contents = _
    rw [hex]
    cases hx : sending τ.pre τ.input with
    | none => exact contents_filled h
    | some x =>
      rw [Option.elim_some, RingBuffer.contents_popN]
      change (filled τ.pre τ.input).contents.drop _ = _
      rw [contents_filled h, (sending_frame hx).1, Frame.drop_stream]
      rfl

theorem contents_rxAfter (h : Streams (bytesPerFrame (tcrAfter τ.pre τ.input)) g τ.pre)
    (hex : exchanges τ.output.calls = (sending τ.pre τ.input).toList.map (frame bus)) :
    (rxAfter bus τ.pre τ.input).contents =
      Frame.stream (bytesPerFrame (tcrAfter τ.pre τ.input)) (g.after τ).rx := by
  rw [rxAfter, Queues.after_rx]
  split_ifs with hflush htake
  · rfl
  · have hrx := h.rx
    rw [tcrAfter_of_takes htake] at hrx ⊢
    rw [RingBuffer.contents_popN, hrx, Frame.drop_stream]
  · rw [hex]
    cases hx : sending τ.pre τ.input with
    | none =>
      change τ.pre.rxFifo.contents = Frame.stream _ (g.rx ++ [])
      rw [List.append_nil, h.rx]
    | some x =>
      obtain ⟨-, -, -, -, hready, -⟩ := sending_eq_some hx
      rw [Option.elim_some, Option.toList_some, List.map_singleton, ← (sending_frame hx).1]
      cases hm : rxmsk x.tcr with
      | true =>
        have hnone : [frame bus x].filter (fun y => !rxmsk y.tcr) = [] := by simp [frame, hm]
        rw [if_pos rfl, hnone, List.map_nil, List.append_nil, h.rx, (sending_frame hx).1]
      | false =>
        have hroom := hready.2 hm
        have hone : [frame bus x].filter (fun y => !rxmsk y.tcr) = [frame bus x] := by
          simp [frame, hm]
        rw [(fifos_of_sending hx).2] at hroom
        rw [if_neg Bool.false_ne_true,
          RingBuffer.contents_pushAll _ (by rwa [Frame.length_split]), hone, List.map_singleton,
          h.rx, ← (sending_frame hx).1, Frame.stream_append, Frame.stream_singleton]
        rfl

/-- The queues follow the FIFOs. -/
theorem Carries.after (h : Carries g τ.pre) (ha : HoldsSize τ.pre τ.input)
    (htake : Mealy.Takes (access bus) τ) : Carries (g.after τ) τ.post := by
  obtain ⟨u, hu, hpost, hex⟩ := effect_of_takes h.settled htake
  have hset := hu.settled h.settled
  rw [hpost]
  cases hrst : τ.input.setsCr crRst with
  | true =>
    -- Nothing is queued after a reset.
    have htx : (g.after τ).tx = [] := by simp [Access.setsCr_or, hrst]
    have hrx : (g.after τ).rx = [] := by simp [Access.setsCr_or, hrst]
    refine ⟨⟨?_, ?_⟩, hset, ?_⟩
    · change u.txFifo.contents = _
      rw [hu.txFifo_eq, htx, txAfter, Access.setsCr_or, hrst]
      rfl
    · change u.rxFifo.contents = _
      rw [hu.rxFifo_eq, hrx, rxAfter, Access.setsCr_or, hrst]
      rfl
    · change frameSize u.tcr ≤ 32
      rw [hu.tcr_eq, tcrAfter_of_reset hrst]
      decide
  | false =>
    obtain ⟨hstreams, hsize⟩ := h.streams ha hrst
    refine ⟨⟨?_, ?_⟩, hset, ?_⟩
    · change u.txFifo.contents = Frame.stream (bytesPerFrame u.tcr) _
      rw [hu.txFifo_eq, hu.tcr_eq]
      exact contents_txAfter hstreams hex
    · change u.rxFifo.contents = Frame.stream (bytesPerFrame u.tcr) _
      rw [hu.rxFifo_eq, hu.tcr_eq]
      exact contents_rxAfter hstreams hex
    · change frameSize u.tcr ≤ 32
      rwa [hu.tcr_eq]

/-! ## The bits of a frame -/

theorem frameSize_bytes {tcr : BitVec 32} (hb : bytesPerFrame tcr ≠ 0) (h : frameSize tcr ≤ 32) :
    8 * (bytesPerFrame tcr - 1) < frameSize tcr ∧ frameSize tcr ≤ 8 * bytesPerFrame tcr := by
  simp only [bytesPerFrame] at hb ⊢
  split_ifs at hb ⊢ <;> omega

/-- The first word of a stream is cut to the size of the frame exactly if it is intact. -/
theorem toNat_word_eq_iff {tcr : BitVec 32} (hb : bytesPerFrame tcr ≠ 0)
    (hsize : frameSize tcr ≤ 32) (e : Bool × BitVec 32) (l : List (Bool × BitVec 32)) :
    (Frame.join (lsbf tcr) (bytesPerFrame tcr)
        ((Frame.stream (bytesPerFrame tcr) (e :: l)).take (bytesPerFrame tcr)) : BitVec 32).toNat =
      e.2.toNat % 2 ^ frameSize tcr ↔ Intact tcr e := by
  have hle := bytesPerFrame_le tcr
  obtain ⟨hlow, hhigh⟩ := frameSize_bytes hb hsize
  rw [Frame.take_stream]
  exact Frame.toNat_join_split_eq_iff e.2 (by omega) hlow hhigh

theorem Effect.value_of_takes {v : Option (BitVec 32)} (h : Effect bus s a v t)
    (htake : takes s a = true) : v = some (rxWord s) := by
  cases h with
  | look h =>
    have hrdr := of_decide_eq_true htake
    exact absurd hrdr (by tauto)
  | take => rfl
  | _ => exact absurd htake Bool.false_ne_true

/-- The oldest answer, that is read. -/
theorem Carries.exists_rx (h : Carries g s) (htake : takes s a = true) :
    ∃ e l, g.rx = e :: l := by
  have hne : s.rxFifo.num ≠ 0 := by
    cases a with
    | read addr => exact (of_decide_eq_true htake).2
    | write addr v => exact absurd htake Bool.false_ne_true
  cases hrx : g.rx with
  | nil =>
    have hnil := congrArg List.length h.rx
    rw [hrx, RingBuffer.length_contents] at hnil
    exact absurd hnil hne
  | cons e l => exact ⟨e, l, rfl⟩

/-- A transition carries the bits of frames exactly if what it moves is left intact. -/
theorem Carries.bits_iff (h : Carries g τ.pre) (ha : HoldsSize τ.pre τ.input)
    (htake : Mealy.Takes (access bus) τ) : CarriesBits g τ ↔ MovesIntact g τ := by
  obtain ⟨u, hu, -, hex⟩ := effect_of_takes h.settled htake
  refine and_congr ?_ ?_
  · rw [hex]
    cases hx : sending τ.pre τ.input with
    | none => simp
    | some x =>
      obtain ⟨htcr, -, -, -, hrst⟩ := sending_frame hx
      obtain ⟨hstreams, hsize⟩ := h.streams ha hrst
      have hb : bytesPerFrame x.tcr ≠ 0 := by
        rw [htcr, ← hu.tcr_eq]
        exact hu.bytes_ne_zero h.settled.bytes_ne_zero
      obtain ⟨e, l, he⟩ := exists_filled hstreams hx hb
      rw [← htcr] at hsize
      have hiff := toNat_word_eq_iff hb hsize e l
      have hcontents : x.txFifo.contents = Frame.stream (bytesPerFrame x.tcr) (e :: l) := by
        rw [(fifos_of_sending hx).1, contents_filled hstreams, he, htcr]
      rw [← hcontents] at hiff
      rw [he, Option.toList_some, List.map_singleton]
      simp only [List.mem_singleton, forall_eq, List.head?_cons, Option.some.injEq,
        exists_eq_left', forall_eq']
      exact hiff
  · cases htk : takes τ.pre τ.input with
    | false => simp
    | true =>
      obtain ⟨e, l, he⟩ := h.exists_rx htk
      have hiff := toNat_word_eq_iff h.settled.bytes_ne_zero h.size_le e l
      rw [← he, ← h.rx] at hiff
      rw [hu.value_of_takes htk, he]
      simp only [true_imp_iff, List.head?_cons, Option.some.injEq, exists_and_left,
        exists_eq_left', forall_eq']
      exact hiff

/-! ## Whole runs -/

theorem PowerOn.carries {s₀ : State n β} (h₀ : PowerOn bus s₀) : Carries ⟨[], []⟩ s₀ := by
  have hset := h₀.settled
  obtain ⟨hz, d, -, -, -, rfl⟩ := powerOn_iff.1 h₀
  exact ⟨⟨rfl, rfl⟩, hset, (by decide : frameSize 0x1F#32 ≤ 32)⟩

/-- **The bits of frames.** In a run from power on that holds the size of frames while data
    is queued, every word handed over is the value it is sent for, and every value read
    the answer it is for, cut to the size of the frame, if and only if their frames leave
    all these values and answers intact. -/
theorem run_frameBits_iff (bus : SsiBus β) {s₀ t : State n β} {as : List Access}
    {h : List (Step n β)} (h₀ : PowerOn bus s₀) (hr : run bus s₀ as = .ok (h, t))
    (hheld : ∀ τ ∈ h, HoldsSize τ.pre τ.input) :
    Mealy.Along Queues.after CarriesBits ⟨[], []⟩ h ↔
      Mealy.Along Queues.after MovesIntact ⟨[], []⟩ h := by
  refine Mealy.run_along_iff (I := Carries) hr h₀.carries ?_ ?_
  · intro g τ hτ htake hg
    exact hg.after (hheld τ hτ) htake
  · intro g τ hτ htake hg
    exact hg.bits_iff (hheld τ hτ) htake

/-- Frames of 12 bits, in the loopback. -/
theorem run_frameBits_iff_twelve : ∃ h t, run SsiBus.empty bare [.write 0x10 1#32,
      .write 0x24 0x100#32, .write 0x60 0xB#32, .write 0x64 0xABC#32, .read 0x74] = .ok (h, t) ∧
    (Mealy.Along Queues.after CarriesBits ⟨[], []⟩ h ↔
      Mealy.Along Queues.after MovesIntact ⟨[], []⟩ h) := by
  obtain ⟨h, t, hr, hheld⟩ : ∃ h t, run SsiBus.empty bare [.write 0x10 1#32,
      .write 0x24 0x100#32, .write 0x60 0xB#32, .write 0x64 0xABC#32, .read 0x74] = .ok (h, t) ∧
      ∀ τ ∈ h, HoldsSize τ.pre τ.input := ⟨_, _, rfl, by decide⟩
  exact ⟨h, t, hr, run_frameBits_iff SsiBus.empty powerOn_bare hr hheld⟩

/-- A value of 16 bits, in a frame of 12: all of them are handed over, and come back in
    the loopback. -/
theorem run_frameBits_uncut : ∃ h t, run SsiBus.empty bare [.write 0x10 1#32,
      .write 0x24 0x100#32, .write 0x60 0xB#32, .write 0x64 0xFFFF#32, .read 0x74] = .ok (h, t) ∧
    frameSize t.tcr = 12 ∧ (∀ τ ∈ h, HoldsSize τ.pre τ.input) ∧
    (h.flatMap fun τ => (exchanges τ.output.calls).map (·.txData)) = [0xFFFF#32] ∧
    h.getLast?.bind (·.output.value) = some 0xFFFF#32 ∧
    ¬Mealy.Along Queues.after CarriesBits ⟨[], []⟩ h := by
  refine ⟨_, _, rfl, by decide, by decide, by decide, by decide, ?_⟩
  rintro ⟨-, -, -, ⟨hsent, -⟩, -⟩
  obtain ⟨e, he, hword⟩ := hsent _ List.mem_cons_self
  obtain rfl : (false, 0xFFFF#32) = e := Option.some.inj he
  exact absurd hword (by decide)

end S32K358.Lpspi
