import S32K358.LpuartUartIp.Listen

/-!
# Receiving by polling

What the driver does with the bytes that it hears. `Sees` adds the receiver (`Hears`) to what
the driver and the device show (`Shows`). A character is stored with its lower byte first
(`Stores`); one that has been stored has been heard, unless the loop that waits for it was
left because the time was out. `Sees.syncReceive` is `Lpuart_Uart_Ip_SyncReceive` on the
device, whatever the backend has for the receiver meanwhile.
-/

namespace S32K358.LpuartUartIp

open Program Port OsIf

/-! ## The driver, the device and what is heard -/

/-- The driver has the state structure `st`, the device shows the view `x`, its receiver is as
    `e` says, and the bytes `l` have been heard. -/
structure Sees (st : StateStructure) (x : View) (e : Ear) (l : List (BitVec 8))
    (w : World Bench) : Prop extends Shows st x w, Hears e l w.hw

/-- A bit of `CTRL` that is neither one of a character nor the receiver's. -/
def Ordinary (m : BitVec 32) : Prop := m &&& ~~~ctrlDataBits = m ∧ m &&& ctrlRe = 0#32

instance (m : BitVec 32) : Decidable (Ordinary m) := inferInstanceAs (Decidable (_ ∧ _))

/-- Some bits of `CTRL` are assigned, one after the other. -/
def View.switch (x : View) (l : List (BitVec 32 × Bool)) : View :=
  l.foldl (fun x a => x.assign a.1 a.2) x

/-- A bit has what it was assigned last, if it was. -/
theorem any_switch (x : View) {l : List (BitVec 32 × Bool)} {m : BitVec 32}
    (h : (m != 0#32 && l.all fun a => a.1 == m || a.1 &&& m == 0#32) = true) :
    Bits.any (x.switch l).cr m =
      l.foldl (fun enable a => if a.1 = m then a.2 else enable) (Bits.any x.cr m) := by
  obtain ⟨hm, hl⟩ : m ≠ 0#32 ∧ ∀ a ∈ l, a.1 = m ∨ a.1 &&& m = 0#32 := by
    simpa only [Bool.and_eq_true, bne_iff_ne, List.all_eq_true, Bool.or_eq_true, beq_iff_eq] using h
  clear h
  induction l generalizing x with
  | nil => rfl
  | cons a l ih =>
    obtain ⟨ha, hl⟩ := List.forall_mem_cons.1 hl
    have hhead : Bits.any (x.assign a.1 a.2).cr m = if a.1 = m then a.2 else Bits.any x.cr m := by
      split_ifs with heq
      · rw [← heq] at hm ⊢
        exact Bits.any_assign_self hm a.2
      · exact Bits.any_assign_of_disjoint (ha.resolve_left heq) a.2
    rw [View.switch, List.foldl_cons, List.foldl_cons, ← hhead]
    exact ih (x.assign a.1 a.2) hl

/-- What is known of the receiver after a read of the data register. -/
def View.earAfter (x : View) : Ear := if Bits.any x.cr ctrlRe then .listening else .closed

theorem earAfter_off (x : View) : (x.assign ctrlRe false).earAfter = .closed := by
  rw [View.earAfter, View.assign, Bits.any_assign_self (by decide)]
  rfl

namespace Sees

variable {traffic : ℕ → Traffic} {st : StateStructure} {x : View} {e : Ear} {l : List (BitVec 8)}
  {w : World Bench} {m : BitVec 32}

theorem upd (h : Sees st x e l w) (f : StateStructure → StateStructure) :
    Sees (f st) x e l (w.upd f) := { h.toShows.upd f, h.toHears with }

theorem listening (h : Sees st x e l w) : Sees st x .listening l w := { h with ear := trivial }

theorem assign (h : Sees st x e l w) (hm : Ordinary m) (enable : Bool) :
    Ends NoError (w.modify (device traffic) .ctrl (insert m (bit m enable)))
      (Sees st (x.assign m enable) e l) :=
  ((h.toShows.assign hm.1 enable).and (h.toHears.assign hm.2 enable)).mono fun _ h' =>
    { h'.1, h'.2 with }

theorem setReceiverCmd (h : Sees st x e l w) (enable : Bool) :
    Ends NoError (setReceiverCmd (device traffic) enable w)
      (Sees st (x.assign ctrlRe enable) .listening l) :=
  ((h.toShows.assign (by decide) enable).and (h.toHears.setReceiver _)).mono fun _ h' =>
    { h'.1, h'.2 with }

theorem getIntMode (h : Sees st x e l w) (hm : ctrlDataBits &&& m = 0#32) :
    Ends NoError (getIntMode (device traffic) m w) fun a =>
      a.1 = Bits.any x.cr m ∧ Sees st x e l a.2 :=
  ((h.toShows.getIntMode hm).and (h.toHears.getIntMode m)).mono
    fun _ h' => ⟨h'.1.1, { h'.1.2, h'.2 with }⟩

theorem getStatusFlag (h : Sees st x e l w) (hm : statRdrf &&& m = 0#32) :
    Ends NoError (getStatusFlag (device traffic) m w) fun a =>
      a.1 = Bits.any x.flags m ∧ Sees st x e l a.2 :=
  ((h.toShows.getStatusFlag hm).and (h.toHears.getStatusFlag m)).mono
    fun _ h' => ⟨h'.1.1, { h'.1.2, h'.2 with }⟩

/-- A receiver that is found to hold a byte holds one. -/
theorem getRdrf (h : Sees st x e l w) :
    Ends NoError (LpuartUartIp.getStatusFlag (device traffic) statRdrf w) fun a =>
      Sees st x (if a.1 then .full else e) l a.2 ∧ (e = .closed → a.1 = false) := by
  have hhears : Ends AnyError (LpuartUartIp.getStatusFlag (device traffic) statRdrf w) fun a =>
      Hears e l a.2.hw ∧ a.1 = Bits.any a.2.hw.uart.sr statRdrf := by
    refine h.toHears.readStat.bind ?_
    rintro ⟨v, w₁⟩ ⟨h₁, hv⟩
    exact ends_pure ⟨h₁, congrArg (Bits.any · statRdrf) hv⟩
  refine ((h.toShows.getFlag statRdrf).and hhears).mono ?_
  rintro ⟨set, w₁⟩ ⟨hshows, hears, hset⟩
  obtain rfl : set = Bits.any w₁.hw.uart.sr statRdrf := hset
  constructor
  · cases hfull : Bits.any w₁.hw.uart.sr statRdrf with
    | true => exact { hshows, hears with ear := hfull }
    | false => exact { hshows, hears with }
  · rintro rfl
    exact hears.ear.2

theorem getDataBit (h : Sees st x e l w) (m : BitVec 32) :
    Ends NoError (LpuartUartIp.getIntMode (device traffic) m w) fun a => Sees st x e l a.2 := by
  have hshows : Ends NoError (LpuartUartIp.getIntMode (device traffic) m w) fun a =>
      Shows st x a.2 := (h.toShows.read .ctrl).bind fun _ ha => ends_pure ha.2
  exact (hshows.and (h.toHears.getIntMode m)).mono fun _ h' => { h'.1, h'.2 with }

theorem re_eq (h : Shows st x w) : Bits.any w.hw.uart.cr ctrlRe = Bits.any x.cr ctrlRe := by
  have hre : ctrlDataBits &&& ctrlRe = 0#32 := by decide
  rw [← h.view_eq]
  exact (Bits.any_clear_of_disjoint hre).symm

theorem getchar (h : Sees st x e l w) :
    Ends NoError (getchar (device traffic) w) fun a =>
      ∃ d, (d = [] ∨ d = [a.1]) ∧ (e = .full → d = [a.1]) ∧
        Sees st x x.earAfter (l ++ d) a.2 := by
  have hshows : Ends NoError (LpuartUartIp.getchar (device traffic) w) fun a => Shows st x a.2 :=
    (h.toShows.read .data).bind fun _ ha => ends_pure ha.2
  refine (hshows.and h.toHears.getchar).mono ?_
  rintro ⟨data, w₁⟩ ⟨h₁, d, hd, hfull, hears, hclosed⟩
  refine ⟨d, hd, hfull, ?_⟩
  rw [re_eq h.toShows] at hclosed
  rw [View.earAfter]
  cases hre : Bits.any x.cr ctrlRe with
  | true => exact { h₁, hears with }
  | false => exact { h₁, hclosed hre with }

end Sees

/-! ## The start of a call -/

section Start

variable {α : Type} {w : World Bench} {n : ℕ} {b : StateStructure → Bool} {r : World Bench → α}
  {k : World Bench → Except (Stop Empty) α} {Q : α → Prop}

/-- A call that finds the driver busy returns at once. -/
theorem ends_busy (hn : n > 0) (hreg : w.state.registered = true) (hbusy : b w.state = true)
    (h : Q (r w)) :
    Ends NoError (do
      let w ← w.devAssert (n > 0)
      let w ← w.devAssert (w.state.registered = true)
      if b w.state then pure (r w) else k w) Q := by
  rw [World.devAssert_of hn]
  refine ends_ok_bind.2 ?_
  rw [World.devAssert_of hreg]
  refine ends_ok_bind.2 ?_
  rw [if_pos hbusy]
  exact ends_pure h

/-- One that finds it idle goes on. -/
theorem ends_idle (hn : n > 0) (hreg : w.state.registered = true) (hidle : b w.state = false)
    (h : Ends NoError (k w) Q) :
    Ends NoError (do
      let w ← w.devAssert (n > 0)
      let w ← w.devAssert (w.state.registered = true)
      if b w.state then pure (r w) else k w) Q := by
  rw [World.devAssert_of hn]
  refine ends_ok_bind.2 ?_
  rw [World.devAssert_of hreg]
  refine ends_ok_bind.2 ?_
  rw [hidle, if_neg Bool.false_ne_true]
  exact h

end Start

/-! ## A character -/

/-- The lower byte that is stored of a character. -/
def charOf (n : BitCountPerChar) (data : BitVec 8) : BitVec 8 :=
  if n = .seven then data &&& 0x7F#8 else data

namespace StateStructure

/-- There is room in the buffer for what is to be received. -/
structure Receivable (st : StateStructure) : Prop where
  fits : st.rxIndex + st.rxSize ≤ st.rxBuff.length
  size_lt : st.rxSize < 2 ^ 32

/-- What has been stored. -/
def filled (st : StateStructure) : List (BitVec 8) := st.rxBuff.take st.rxIndex

/-- Some bytes are stored. -/
def storing (st : StateStructure) (bytes : List (BitVec 8)) : StateStructure :=
  { st with
    rxBuff := st.filled ++ bytes ++ st.rxBuff.drop (st.rxIndex + bytes.length)
    rxIndex := st.rxIndex + bytes.length
    rxSize := st.rxSize - bytes.length }

variable {st : StateStructure} {bytes : List (BitVec 8)}

theorem Receivable.length_filled (h : st.Receivable) : st.filled.length = st.rxIndex := by
  have := h.fits
  rw [filled, List.length_take]
  omega

theorem Receivable.filled_storing (h : st.Receivable) (bytes : List (BitVec 8)) :
    (st.storing bytes).filled = st.filled ++ bytes := by
  have hlength : (st.filled ++ bytes).length = st.rxIndex + bytes.length := by
    rw [List.length_append, h.length_filled]
  exact List.take_left' hlength

theorem Receivable.storing (h : st.Receivable) (hle : bytes.length ≤ st.rxSize) :
    (st.storing bytes).Receivable where
  fits := by
    have := h.fits
    have := h.length_filled
    simp only [StateStructure.storing, List.length_append, List.length_drop]
    omega
  size_lt := Nat.lt_of_le_of_lt (Nat.sub_le _ _) h.size_lt

theorem Receivable.storing_storing (h : st.Receivable) (as bs : List (BitVec 8)) :
    (st.storing as).storing bs = st.storing (as ++ bs) := by
  have hdrop : (st.storing as).rxBuff.drop (st.rxIndex + as.length + bs.length) =
      st.rxBuff.drop (st.rxIndex + (as.length + bs.length)) := by
    have hlength : (st.filled ++ as).length = st.rxIndex + as.length := by
      rw [List.length_append, h.length_filled]
    rw [StateStructure.storing, ← hlength, List.drop_length_add_append, List.drop_drop, hlength,
      Nat.add_assoc]
  change ({ st.storing as with
    rxBuff := (st.storing as).filled ++ bs ++
      (st.storing as).rxBuff.drop (st.rxIndex + as.length + bs.length)
    rxIndex := st.rxIndex + as.length + bs.length
    rxSize := st.rxSize - as.length - bs.length } : StateStructure) = _
  rw [h.filled_storing, hdrop]
  simp only [StateStructure.storing, List.length_append, List.append_assoc, Nat.add_assoc,
    Nat.sub_sub]

end StateStructure

section Character

variable {traffic : ℕ → Traffic} {st : StateStructure} {x : View} {e : Ear} {l : List (BitVec 8)}
  {w : World Bench} {c : UserConfig}

/-- A byte is stored, and not yet counted. -/
def StateStructure.storingByte (st : StateStructure) (data : BitVec 8) : StateStructure :=
  { st with rxBuff := st.rxBuff.set st.rxIndex data, rxIndex := st.rxIndex + 1 }

theorem Sees.storeByte (h : Sees st x e l w) (hlt : st.rxIndex < st.rxBuff.length)
    (data : BitVec 8) :
    Ends NoError (storeByte data w : Except (Stop Empty) _) (Sees (st.storingByte data) x e l) := by
  rw [LpuartUartIp.storeByte, h.state_eq, if_pos hlt]
  exact ends_pure (h.upd fun st => st.storingByte data)

theorem Sees.decRxSize (h : Sees st x e l w) {k : ℕ} (hk : k ≤ st.rxSize)
    (hlt : st.rxSize < 2 ^ 32) :
    Sees { st with rxSize := st.rxSize - k } x e l (decRxSize k w) := by
  have h' : Sees { st with rxSize := uint32Sub st.rxSize k } x e l (LpuartUartIp.decRxSize k w) :=
    h.upd fun st => { st with rxSize := uint32Sub st.rxSize k }
  rwa [uint32Sub_eq hk hlt] at h'

theorem StateStructure.storing_one (hlt : st.rxIndex < st.rxBuff.length) (a : BitVec 8) :
    { st.storingByte a with rxSize := st.rxSize - 1 } = st.storing [a] := by
  rw [StateStructure.storingByte, List.set_eq_take_append_cons_drop, if_pos hlt,
    StateStructure.storing, StateStructure.filled, List.append_assoc]
  rfl

theorem StateStructure.Receivable.storing_two (hst : st.Receivable) (hsize : 2 ≤ st.rxSize)
    (a b : BitVec 8) :
    { (st.storingByte a).storingByte b with rxSize := st.rxSize - 2 } = st.storing [a, b] := by
  have hfits := hst.fits
  have hst' : (st.storing [a]).Receivable := hst.storing (by rw [List.length_singleton]; omega)
  have hlt : (st.storing [a]).rxIndex < (st.storing [a]).rxBuff.length := by
    have hfits' := hst'.fits
    have hsize' : (st.storing [a]).rxSize = st.rxSize - 1 := rfl
    omega
  have hone : { st.storingByte a with rxSize := st.rxSize - 1 } = st.storing [a] :=
    StateStructure.storing_one (by omega) a
  have htwo := StateStructure.storing_one hlt b
  rw [hst.storing_storing, ← hone] at htwo
  exact htwo

theorem Sees.storeOne (h : Sees st x e l w) (hst : st.Receivable) (hpos : 0 < st.rxSize)
    (data : BitVec 8) :
    Ends NoError (do
      let w ← LpuartUartIp.storeByte data w
      pure (LpuartUartIp.decRxSize 1 w) : Except (Stop Empty) _)
      (Sees (st.storing [data]) x e l) := by
  have hfits := hst.fits
  refine (h.storeByte (by omega) data).bind fun w₁ h₁ => ends_pure ?_
  rw [← StateStructure.storing_one (by omega)]
  exact h₁.decRxSize (show 1 ≤ st.rxSize from hpos) hst.size_lt

theorem Sees.storeData16 (h : Sees st x e l w) (hst : st.Receivable) (hpos : 0 < st.rxSize)
    (data : BitVec 16) :
    Ends NoError (storeData16 data w : Except (Stop Empty) _) fun w' => ∃ highs : List (BitVec 8),
      highs.length + 1 = min 2 st.rxSize ∧
        Sees (st.storing (data.setWidth 8 :: highs)) x e l w' := by
  have hfits := hst.fits
  rw [LpuartUartIp.storeData16, h.state_eq]
  refine ends_ite (fun hone => ?_) fun hone => ?_
  · exact (h.storeOne hst hpos _).mono fun w' h' => ⟨[], by simp [hone], h'⟩
  · refine (h.storeByte (by omega) _).bind fun w₁ h₁ => ?_
    have hlt : st.rxIndex + 1 < (st.rxBuff.set st.rxIndex (data.setWidth 8)).length := by
      rw [List.length_set]
      omega
    refine (h₁.storeByte hlt _).bind fun w₂ h₂ => ends_pure ⟨[(data >>> 8).setWidth 8], ?_, ?_⟩
    · simp only [List.length_singleton]
      omega
    · rw [← hst.storing_two (by omega)]
      exact h₂.decRxSize (show 2 ≤ st.rxSize by omega) hst.size_lt

theorem setWidth_or_shiftLeft (high : BitVec 16) {k : ℕ} (hk : 8 ≤ k) (low : BitVec 16) :
    (high <<< k ||| low).setWidth 8 = low.setWidth 8 := by
  apply BitVec.eq_of_getLsbD_eq
  intro i hi
  simp only [BitVec.getLsbD_setWidth, hi, decide_true, Bool.true_and, BitVec.getLsbD_or,
    BitVec.getLsbD_shiftLeft]
  simp only [show i < k by omega, decide_true, Bool.not_true, Bool.and_false, Bool.false_and,
    Bool.false_or]

/-- The lower byte of a character of 9 bits is heard if the receiver holds a byte. -/
theorem Sees.getchar9 (h : Sees st x e l w) :
    Ends NoError (getchar9 (device traffic) w) fun a =>
      ∃ d, (d = [] ∨ d = [a.1.setWidth 8]) ∧ (e = .full → d = [a.1.setWidth 8]) ∧
        Sees st x x.earAfter (l ++ d) a.2 := by
  refine (h.getDataBit ctrlR8t9).bind ?_
  rintro ⟨r8t9, w₁⟩ h₁
  refine (Sees.getchar h₁).bind ?_
  rintro ⟨data, w₂⟩ h₂
  have hlow : ((BitVec.ofBool r8t9).setWidth 16 <<< 8 ||| data.setWidth 16).setWidth 8 = data := by
    rw [setWidth_or_shiftLeft _ (by decide), BitVec.setWidth_setWidth_of_le _ (by decide),
      BitVec.setWidth_eq]
  refine ends_pure ?_
  rw [hlow]
  exact h₂

theorem Sees.getchar10 (h : Sees st x e l w) :
    Ends NoError (getchar10 (device traffic) w) fun a =>
      ∃ d, (d = [] ∨ d = [a.1.setWidth 8]) ∧ (e = .full → d = [a.1.setWidth 8]) ∧
        Sees st x x.earAfter (l ++ d) a.2 := by
  refine (h.getDataBit ctrlR9t8).bind ?_
  rintro ⟨r9t8, w₁⟩ h₁
  refine (Sees.getchar9 h₁).bind ?_
  rintro ⟨data, w₂⟩ h₂
  refine ends_pure ?_
  rw [setWidth_or_shiftLeft _ (by decide)]
  exact h₂

/-- `Lpuart_Uart_Ip_GetData` stores a character, whose lower byte is heard if the receiver
    holds a byte. -/
theorem Sees.getData (h : Sees st x e l w) (hst : st.Receivable) (hpos : 0 < st.rxSize) :
    Ends NoError (getData (device traffic) c w) fun w' => ∃ a highs d,
      highs.length + 1 = min (charBytes c.bitCountPerChar) st.rxSize ∧
      (d = [] ∨ d = [a]) ∧ (e = .full → d = [a]) ∧
      Sees (st.storing (charOf c.bitCountPerChar a :: highs)) x x.earAfter (l ++ d) w' := by
  rw [LpuartUartIp.getData]
  cases hn : c.bitCountPerChar with
  | seven =>
    refine h.getchar.bind ?_
    rintro ⟨a, w₁⟩ ⟨d, hd, hfull, h₁⟩
    refine (h₁.storeOne hst hpos (a &&& 0x7F#8)).mono fun w₂ h₂ => ?_
    exact ⟨a, [], d, (Nat.min_eq_left hpos).symm, hd, hfull, by rw [charOf, if_pos rfl]; exact h₂⟩
  | eight =>
    refine h.getchar.bind ?_
    rintro ⟨a, w₁⟩ ⟨d, hd, hfull, h₁⟩
    refine (h₁.storeOne hst hpos a).mono fun w₂ h₂ => ?_
    exact ⟨a, [], d, (Nat.min_eq_left hpos).symm, hd, hfull,
      by rw [charOf, if_neg (by decide)]; exact h₂⟩
  | nine =>
    refine (h.getchar9).bind ?_
    rintro ⟨data, w₁⟩ ⟨d, hd, hfull, h₁⟩
    refine (h₁.storeData16 hst hpos data).mono ?_
    rintro w₂ ⟨highs, hhighs, h₂⟩
    exact ⟨_, highs, d, hhighs, hd, hfull, by rw [charOf, if_neg (by decide)]; exact h₂⟩
  | ten =>
    refine (h.getchar10).bind ?_
    rintro ⟨data, w₁⟩ ⟨d, hd, hfull, h₁⟩
    refine (h₁.storeData16 hst hpos data).mono ?_
    rintro w₂ ⟨highs, hhighs, h₂⟩
    exact ⟨_, highs, d, hhighs, hd, hfull, by rw [charOf, if_neg (by decide)]; exact h₂⟩

end Character

/-- The characters with the lower bytes `as` are stored, one after the other. -/
inductive Stores (n : BitCountPerChar) (st : StateStructure) :
    List (BitVec 8) → StateStructure → Prop
  | nil : Stores n st [] st
  | snoc {as : List (BitVec 8)} {st' : StateStructure} {a : BitVec 8} {highs : List (BitVec 8)} :
    Stores n st as st' → 0 < st'.rxSize →
      highs.length + 1 = min (charBytes n) st'.rxSize →
        Stores n st (as ++ [a]) (st'.storing (charOf n a :: highs))

theorem Stores.receivable {n : BitCountPerChar} {st st' : StateStructure} {as : List (BitVec 8)}
    (h : Stores n st as st') (hst : st.Receivable) : st'.Receivable := by
  induction h with
  | nil => exact hst
  | snoc _ _ hhighs ih => exact ih.storing (by rw [List.length_cons]; omega)

/-- Nothing but the buffer changes. -/
theorem Stores.eq {n : BitCountPerChar} {st st' : StateStructure} {as : List (BitVec 8)}
    (h : Stores n st as st') : st' =
      { st with rxBuff := st'.rxBuff, rxIndex := st'.rxIndex, rxSize := st'.rxSize } := by
  induction h with
  | nil => rfl
  | snoc _ _ _ ih =>
    rw [ih]
    rfl

theorem Stores.eq_of_nil {n : BitCountPerChar} {st st' : StateStructure} {as : List (BitVec 8)}
    (h : Stores n st as st') (has : as = []) : st' = st := by
  cases h with
  | nil => rfl
  | snoc => exact absurd has (List.concat_ne_nil _ _)

/-! ## Receiving by polling -/

section Polling

variable {traffic : ℕ → Traffic} {st : StateStructure} {x : View} {e : Ear} {l : List (BitVec 8)}
  {w : World Bench} {c : UserConfig} {timeoutTicks elapsedTicks : ℕ}

/-- The loop that waits for a character: it finds one, or the time is out. -/
theorem Sees.awaitRdrf (h : Sees st x .listening l w) (htime : timeoutTicks + 1 < 2 ^ 32)
    (helapsed : elapsedTicks ≤ timeoutTicks) :
    Ends NoError (awaitFlag (device traffic) statRdrf timeoutTicks elapsedTicks w) fun r =>
      ∃ s, r = some s ∧ elapsedTicks ≤ s.2 ∧
        (Sees st x .full l s.1 ∧ s.2 ≤ timeoutTicks ∨
          Sees st x .listening l s.1 ∧ timeoutTicks ≤ s.2 ∧ s.2 ≤ timeoutTicks + 1) := by
  refine Loop.run_ends (I := fun s => elapsedTicks ≤ s.2 ∧ s.2 ≤ timeoutTicks ∧
    Sees st x .listening l s.1) (fun s => timeoutTicks - s.2) ?_ ⟨le_rfl, helapsed, h⟩ (by omega)
  rintro ⟨w', e'⟩ ⟨hle, hin, h'⟩
  dsimp only at hle hin h'
  refine h'.getRdrf.bind ?_
  rintro ⟨set, w₁⟩ ⟨h₁, -⟩
  refine ends_pure ?_
  dsimp only at h₁ ⊢
  rw [checkTimeout_eq (by omega)]
  cases set with
  | true => exact ⟨hle, .inl ⟨h₁, hin⟩⟩
  | false =>
    by_cases hout : e' + 1 ≥ timeoutTicks
    · rw [if_neg Bool.false_ne_true]
      dsimp only
      rw [decide_eq_true hout, if_pos rfl]
      exact ⟨Nat.le_succ_of_le hle, .inr ⟨h₁, hout, Nat.succ_le_succ hin⟩⟩
    · rw [if_neg Bool.false_ne_true]
      dsimp only
      rw [decide_eq_false hout, if_neg Bool.false_ne_true]
      refine ⟨⟨Nat.le_succ_of_le hle, by omega, h₁⟩, ?_⟩
      dsimp only
      omega

/-- No error is flagged. -/
def View.NoErrors (x : View) : Prop :=
  Bits.any x.flags (statOr ||| statNf ||| statFe ||| statPf) = false

instance (x : View) : Decidable x.NoErrors := inferInstanceAs (Decidable (_ = _))

theorem View.NoErrors.any (h : x.NoErrors) {m : BitVec 32}
    (hm : m ∈ [statOr, statFe, statNf, statPf]) : Bits.any x.flags m = false := by
  simp only [View.NoErrors, Bits.any_or_right, Bool.or_eq_false_iff] at h
  simp only [List.mem_cons, List.not_mem_nil, or_false] at hm
  obtain ⟨⟨⟨hor, hnf⟩, hfe⟩, hpf⟩ := h
  rcases hm with rfl | rfl | rfl | rfl
  · exact hor
  · exact hfe
  · exact hnf
  · exact hpf

theorem Sees.checkErrors (h : Sees st x e l w) {flags : List (BitVec 32 × StatusType)}
    (hflags : ∀ f ∈ flags, statRdrf &&& f.1 = 0#32 ∧ Bits.any x.flags f.1 = false)
    (mask : BitVec 32) :
    Ends NoError (checkErrors (device traffic) flags mask w) fun a =>
      a.1 = mask ∧ Sees st x e l a.2 := by
  induction flags generalizing w with
  | nil => exact ends_pure ⟨rfl, h⟩
  | cons f flags ih =>
    obtain ⟨hdisjoint, hclear⟩ := hflags f List.mem_cons_self
    refine (h.getStatusFlag hdisjoint).bind ?_
    rintro ⟨set, w₁⟩ ⟨rfl, h₁⟩
    rw [hclear]
    exact ih h₁ fun f' hf' => hflags f' (List.mem_cons_of_mem f hf')

theorem errorFlags_clear (hx : x.NoErrors) :
    ∀ f ∈ errorFlags, statRdrf &&& f.1 = 0#32 ∧ Bits.any x.flags f.1 = false := by
  simp only [errorFlags, List.mem_cons, List.not_mem_nil, or_false, forall_eq_or_imp, forall_eq]
  exact ⟨⟨by decide, hx.any (by decide)⟩, ⟨by decide, hx.any (by decide)⟩,
    ⟨by decide, hx.any (by decide)⟩, by decide, hx.any (by decide)⟩

/-- In the loop of `Lpuart_Uart_Ip_StartGetData`: the characters `as` have been heard and
    stored, and once the time is out another one may have been stored that has not been
    heard. -/
structure Receiving (n : BitCountPerChar) (st : StateStructure) (x : View) (l : List (BitVec 8))
    (timeoutTicks : ℕ) (as stale : List (BitVec 8)) (st' : StateStructure)
    (s : World Bench × ℕ) : Prop where
  sees : Sees st' x .listening (l ++ as) s.1
  stores : Stores n st (as ++ stale) st'
  stale_le : stale.length ≤ 1
  stale_out : stale ≠ [] → timeoutTicks ≤ s.2
  started : as ++ stale = [] → s.2 = 0 ∨ timeoutTicks ≤ 1

/-- The loop is left when all characters have been stored, or the time is out. -/
structure Received (n : BitCountPerChar) (st : StateStructure) (x : View) (l : List (BitVec 8))
    (timeoutTicks : ℕ) (as stale : List (BitVec 8)) (st' : StateStructure)
    (s : World Bench × ℕ) : Prop extends Receiving n st x l timeoutTicks as stale st' s where
  done : st'.rxSize = 0 ∨ timeoutTicks ≤ s.2
  elapsed_le : s.2 ≤ timeoutTicks + 2

variable {n : BitCountPerChar} {as stale : List (BitVec 8)} {st' : StateStructure}
  {s : World Bench × ℕ}

/-- A character is stored: it has been heard, or the time is out. -/
theorem Receiving.getData (hst : st.Receivable)
    (hstores : Stores c.bitCountPerChar st (as ++ []) st') (hpos : 0 < st'.rxSize)
    (hsees : Sees st' x e (l ++ as) s.1) (he : e = .full ∨ timeoutTicks ≤ s.2) :
    Ends NoError (getData (device traffic) c s.1) fun w' => ∃ as stale st'',
      Receiving c.bitCountPerChar st x l timeoutTicks as stale st'' (w', s.2) := by
  rw [List.append_nil] at hstores
  refine (hsees.getData (hstores.receivable hst) hpos).mono ?_
  rintro w' ⟨a, highs, d, hhighs, hd, hfull, h'⟩
  have hsnoc := hstores.snoc (a := a) hpos hhighs
  rcases hd with rfl | rfl
  · -- The character has not been heard.
    have hout : timeoutTicks ≤ s.2 := he.resolve_left fun hfull' => nomatch hfull hfull'
    rw [List.append_nil] at h'
    exact ⟨as, [a], _, h'.listening, hsnoc, le_rfl, fun _ => hout,
      fun hnil => absurd hnil (List.concat_ne_nil a as)⟩
  · rw [List.append_assoc] at h'
    refine ⟨as ++ [a], [], _, h'.listening, ?_, Nat.zero_le 1, fun hne => absurd rfl hne, ?_⟩
    · rw [List.append_nil]
      exact hsnoc
    · rw [List.append_nil]
      exact fun hnil => absurd hnil (List.concat_ne_nil a as)

theorem Receiving.pass (hst : st.Receivable) (hx : x.NoErrors)
    (htime : timeoutTicks + 3 < 2 ^ 32) (helapsed : s.2 ≤ timeoutTicks + 1)
    (hs : Receiving c.bitCountPerChar st x l timeoutTicks as stale st' s) :
    Ends NoError (receivePass (device traffic) c timeoutTicks s)
      (Loop.After
        (fun s => s.2 ≤ timeoutTicks + 1 ∧
          ∃ as stale st', Receiving c.bitCountPerChar st x l timeoutTicks as stale st' s)
        (fun r => ∃ s, r = some s ∧
          ∃ as stale st', Received c.bitCountPerChar st x l timeoutTicks as stale st' s)
        (fun s => timeoutTicks + 1 - s.2) s) := by
  obtain ⟨w, e⟩ := s
  dsimp only at helapsed
  have hstate : w.state = st' := hs.sees.state_eq
  rw [receivePass, hstate, checkTimeout_eq (by omega)]
  by_cases hdone : st'.rxSize = 0
  · rw [if_pos hdone]
    exact ⟨(w, e), rfl, as, stale, st', hs, .inl hdone, Nat.le_succ_of_le helapsed⟩
  rw [if_neg hdone]
  dsimp only
  by_cases hout : e + 1 ≥ timeoutTicks
  · -- The time is out before the wait, and nothing more is stored.
    rw [decide_eq_true hout, if_pos rfl]
    have hstarted : as ++ stale = [] → e + 1 = 0 ∨ timeoutTicks ≤ 1 := fun hnil =>
      .inr ((hs.started hnil).elim (fun he => by dsimp only at he; omega) id)
    exact ⟨(w, e + 1), rfl, as, stale, st',
      { hs with
        stale_out := fun hne => Nat.le_succ_of_le (hs.stale_out hne)
        started := hstarted }, .inr hout, Nat.succ_le_succ helapsed⟩
  rw [decide_eq_false hout, if_neg Bool.false_ne_true]
  -- A character that has not been heard would have been stored after the time was out.
  obtain rfl : stale = [] := by
    by_contra hne
    have hle : timeoutTicks ≤ e := hs.stale_out hne
    omega
  refine (hs.sees.awaitRdrf (by omega) (by omega)).bind ?_
  rintro _ ⟨⟨w₁, e₁⟩, rfl, hle, hfound⟩
  dsimp only at hle hfound
  obtain ⟨ear, h₁, hear, hle'⟩ : ∃ ear, Sees st' x ear (l ++ as) w₁ ∧
      (ear = .full ∨ timeoutTicks ≤ e₁) ∧ e₁ ≤ timeoutTicks + 1 := by
    rcases hfound with ⟨h₁, hin⟩ | ⟨h₁, hlate, hle'⟩
    · exact ⟨.full, h₁, .inl rfl, Nat.le_succ_of_le hin⟩
    · exact ⟨.listening, h₁, .inr hlate, hle'⟩
  refine (h₁.checkErrors (errorFlags_clear hx) 0#32).bind ?_
  rintro ⟨mask, w₂⟩ ⟨rfl, h₂⟩
  rw [if_pos rfl]
  refine (Receiving.getData (s := (w₂, e₁)) hst hs.stores (Nat.pos_of_ne_zero hdone) h₂
    hear).bind fun w₃ hw₃ => ?_
  refine ends_pure ⟨⟨hle', hw₃⟩, ?_⟩
  dsimp only
  omega

theorem Sees.receiveLoop (h : Sees st x .listening l w) (hst : st.Receivable) (hx : x.NoErrors)
    (htime : timeoutTicks + 3 < 2 ^ 32) :
    Ends NoError (Loop.run (receivePass (device traffic) c timeoutTicks) (timeoutTicks + 2) (w, 0))
      fun r => ∃ s, r.join = some s ∧
        ∃ as stale st', Received c.bitCountPerChar st x l timeoutTicks as stale st' s := by
  have hstart : Receiving c.bitCountPerChar st x l timeoutTicks [] [] st (w, 0) :=
    ⟨(List.append_nil l).symm ▸ h, .nil, Nat.zero_le 1, fun hne => absurd rfl hne,
      fun _ => .inl rfl⟩
  have hrun : Ends NoError
      (Loop.run (receivePass (device traffic) c timeoutTicks) (timeoutTicks + 2) (w, 0)) _ :=
    Loop.run_ends (I := fun s => s.2 ≤ timeoutTicks + 1 ∧
        ∃ as stale st', Receiving c.bitCountPerChar st x l timeoutTicks as stale st' s)
      (fun s => timeoutTicks + 1 - s.2) (fun s ⟨hle, _, _, _, hs⟩ => hs.pass hst hx htime hle)
      ⟨Nat.zero_le _, [], [], st, hstart⟩ (show timeoutTicks + 1 - 0 < timeoutTicks + 2 by omega)
  refine hrun.mono ?_
  rintro _ ⟨_, rfl, s, rfl, hs⟩
  exact ⟨s, rfl, hs⟩

/-- A call of `Lpuart_Uart_Ip_SyncReceive`, with the buffer as it is before. -/
structure ReceiveCall where
  rxBuff : List (BitVec 8)
  rxSize : ℕ
  timeout : ℕ
  deriving DecidableEq, Repr

/-- The call passes the assertions, the buffer is as large as it says, and the timeout leaves
    the counter a few ticks before it overflows. -/
structure ReceiveCall.Valid (q : ReceiveCall) : Prop where
  size_pos : 0 < q.rxSize
  size_le : q.rxSize ≤ q.rxBuff.length
  size_lt : q.rxSize < 2 ^ 32
  timeout_lt : q.timeout + 3 < 2 ^ 32

/-- The state structure at the start of a reception. -/
def StateStructure.receiving (st : StateStructure) (rxBuff : List (BitVec 8)) (rxSize : ℕ) :
    StateStructure :=
  { st with
    isRxBusy := true, rxBuff := rxBuff, rxIndex := 0, rxSize := rxSize, receiveStatus := .busy }

/-- If there is time for it, a character is stored, heard or not. -/
theorem Received.stored (hs : Received n st x l timeoutTicks as stale st' s)
    (hpos : 0 < st.rxSize) (htime : 2 ≤ timeoutTicks) : as ++ stale ≠ [] := by
  intro hnil
  have hsame := hs.stores.eq_of_nil hnil
  have hdone := hs.done
  have hstarted := hs.started hnil
  rw [hsame] at hdone
  omega

/-- The view after a call: the receiver is off, and so is its interrupt. -/
def View.afterReceive (x : View) : View :=
  x.switch [(ctrlRie, false), (ctrlRe, true), (ctrlRe, false)]

/-- What a call comes to: the characters `as` have been heard and stored, another one that was
    stored has not been heard, and a last one, that was heard, is dropped. -/
structure ReceiveCall.Result (q : ReceiveCall) (n : BitCountPerChar) (st : StateStructure)
    (as stale dropped : List (BitVec 8)) (status : StatusType) (st' : StateStructure) : Prop where
  stores : Stores n (st.receiving q.rxBuff q.rxSize) (as ++ stale) st'
  stale_le : stale.length ≤ 1
  dropped_le : dropped.length ≤ 1
  stored : 2 ≤ q.timeout → as ++ stale ≠ []
  status_eq : status = .success ∧ stale = [] ∧ st'.rxSize = 0 ∨ status = .timeout

theorem finalReceiveStatus_busy (out : Bool) (rxSize : ℕ) :
    finalReceiveStatus out rxSize .busy = if out then .timeout else .success := by
  cases out <;> simp [finalReceiveStatus]

theorem Received.receiveEnd {q : ReceiveCall}
    (hs : Received n (st.receiving q.rxBuff q.rxSize) x l q.timeout as stale st' s)
    (hq : q.Valid) :
    Ends NoError (receiveEnd (device traffic) q.timeout s.2 s.1) fun r => ∃ d,
      q.Result n st as stale d r.1 st' ∧
      Sees { st' with receiveStatus := r.1, isRxBusy := false } (x.assign ctrlRe false) .closed
        (l ++ as ++ d) r.2 := by
  have hsees := hs.sees
  have hstatus : st'.receiveStatus = .busy := by rw [hs.stores.eq]; rfl
  have helapsed := hs.elapsed_le
  have htime := hq.timeout_lt
  rw [LpuartUartIp.receiveEnd, hsees.state_eq, hstatus, finalReceiveStatus_busy,
    checkTimeout_eq (by omega)]
  refine ((hsees.upd fun st => { st with receiveStatus := _ }).setReceiverCmd false).bind
    fun w₁ h₁ => ?_
  refine (h₁.upd fun st => { st with isRxBusy := false }).getchar.bind ?_
  rintro ⟨data, w₂⟩ ⟨d, hd, -, h₂⟩
  rw [earAfter_off] at h₂
  refine ends_pure ⟨d, ⟨hs.stores, hs.stale_le, ?_, hs.stored hq.size_pos, ?_⟩, h₂⟩
  · rcases hd with rfl | rfl
    · exact Nat.zero_le 1
    · exact le_rfl
  · -- The status is decided by a last look at the clock, whatever has been stored.
    dsimp only
    by_cases hout : s.2 + 1 ≥ q.timeout
    · exact .inr (by rw [decide_eq_true hout, if_pos rfl])
    · refine .inl ⟨by rw [decide_eq_false hout, if_neg Bool.false_ne_true], ?_, ?_⟩
      · by_contra hne
        have := hs.stale_out hne
        omega
      · exact hs.done.resolve_right (by omega)

/-- `Lpuart_Uart_Ip_SyncReceive` on the device. -/
theorem Sees.syncReceive {q : ReceiveCall} (h : Sees st x e l w) (hreg : st.registered = true)
    (hidle : st.isRxBusy = false) (hx : x.NoErrors) (hq : q.Valid) :
    Ends NoError (syncReceive (device traffic) c q.rxBuff q.rxSize q.timeout w) fun r =>
      ∃ status w' as stale d st', r = some (status, w') ∧
        q.Result c.bitCountPerChar st as stale d status st' ∧
        Sees { st' with receiveStatus := status, isRxBusy := false } x.afterReceive .closed
          (l ++ as ++ d) w' := by
  refine ends_idle (b := StateStructure.isRxBusy) hq.size_pos (by rw [h.state_eq, hreg])
    (by rw [h.state_eq, hidle]) ?_
  have h₀ : Sees (st.receiving q.rxBuff q.rxSize) x e l (w.upd fun st =>
    st.receiving q.rxBuff q.rxSize) := h.upd fun st => st.receiving q.rxBuff q.rxSize
  refine (h₀.assign (m := ctrlRie) (by decide) false).bind fun w₁ h₁ => ?_
  refine (h₁.setReceiverCmd true).bind fun w₂ h₂ => ?_
  have hst : (st.receiving q.rxBuff q.rxSize).Receivable :=
    ⟨(Nat.zero_add _).trans_le hq.size_le, hq.size_lt⟩
  refine (h₂.receiveLoop (c := c) hst hx hq.timeout_lt).bind ?_
  rintro r ⟨⟨w₃, e₃⟩, hr, as, stale, st', hs⟩
  rw [hr]
  refine (hs.receiveEnd hq).bind ?_
  rintro ⟨status, w₄⟩ ⟨d, hresult, h₄⟩
  exact ends_pure ⟨status, w₄, as, stale, d, st', rfl, hresult, h₄⟩

end Polling

end S32K358.LpuartUartIp
