import S32K358.LpuartUartIp.Send

/-!
# The receiver of the device, as the driver has it

What a `View` leaves out: the bytes that the driver has read from the data register while
`RDRF` was set (`heard`), and what it knows of the receiver at a moment (`Ear`). The backend
may hand over a byte before any access, so a receiver that is on may come to hold a byte
without the driver doing anything; one that is off does not.
-/

namespace S32K358.LpuartUartIp

open Lpuart (Event Step Stimulus after srAfter crAfter returned)
open Program Port OsIf

/-! ## What is heard -/

/-- The bytes that were read from the data register with `RDRF` set, in some transitions. -/
def heard (log : List Step) : List (BitVec 8) := (log.flatMap returned).map (·.setWidth 8)

/-- What is known of the receiver. -/
inductive Ear
  /-- It is off, and holds nothing. -/
  | closed
  /-- Nothing. -/
  | listening
  /-- It holds a byte. -/
  | full

def Ear.Of : Ear → Lpuart.State → Prop
  | .closed, s => Bits.any s.cr ctrlRe = false ∧ Bits.any s.sr statRdrf = false
  | .listening, _ => True
  | .full, s => Bits.any s.sr statRdrf = true

/-- The receiver is as `e` says, and the bytes `l` have been heard. -/
structure Hears (e : Ear) (l : List (BitVec 8)) (b : Bench) : Prop where
  ear : e.Of b.uart
  heard_eq : heard b.log = l
  quiet : b.uart.calls = []

variable {e : Ear} {l : List (BitVec 8)} {b : Bench}

theorem heard_take (b : Bench) (ev : Event) :
    heard (b.take ev).2.log = heard b.log ++
      (returned ⟨b.uart, ev, (b.take ev).1, (b.take ev).2.uart⟩).map (·.setWidth 8) := by
  rw [take_eq]
  simp only [heard, List.flatMap_append, List.map_append, List.flatMap_singleton]

theorem uart_take (b : Bench) (ev : Event) :
    (b.take ev).2.uart = { after b.uart (.event ev) with calls := [] } := by
  rw [take_eq]

/-- Flags and the receiver do not depend on what is recorded. -/
theorem ear_of_eq {s t : Lpuart.State} (hsr : t.sr = s.sr) (hcr : t.cr = s.cr) (h : e.Of s) :
    e.Of t := by
  cases e with
  | closed => exact ⟨hcr ▸ h.1, hsr ▸ h.2⟩
  | listening => exact trivial
  | full => exact (congrArg (Bits.any · statRdrf) hsr).trans h

/-- An event that is not a read of the data register is not heard. -/
theorem Hears.take (h : Hears e l b) {ev : Event}
    (hev : ∀ offset bytes, ev = .read offset bytes → Lpuart.Reg.ofOffset? offset ≠ some .data)
    (hear : ∀ t, t.sr = srAfter b.uart (.event ev) → t.cr = crAfter b.uart (.event ev) → e.Of t) :
    Hears e l (b.take ev).2 := by
  have hleft := Lpuart.after_eq h.quiet (.event ev)
  refine ⟨?_, ?_, calls_take b ev⟩
  · rw [uart_take]
    exact hear _ hleft.sr_eq hleft.cr_eq
  have hnone : ∀ r t, returned ⟨b.uart, ev, r, t⟩ = [] := by
    intro r t
    cases ev with
    | read offset bytes => exact if_neg fun hr => hev offset bytes rfl hr.1
    | write offset value => rfl
    | poll bytes => rfl
    | reset => rfl
  rw [heard_take, hnone, List.map_nil, List.append_nil]
  exact h.heard_eq

theorem Hears.polled (h : Hears e l b) (t : Traffic) : Hears e l (b.polled t) := by
  have h' : Hears e l { b with time := b.time + 1 } := { h with }
  refine h'.take nofun fun s hsr hcr => ?_
  have hear := h.ear
  -- The backend is refused by a receiver that is off, and by one that holds a byte.
  cases e with
  | closed =>
    have hoff : Lpuart.receives b.uart t.before = false := by
      rw [Lpuart.receives, show Bits.any b.uart.cr Lpuart.ctrlRe = false from hear.1,
        Bool.false_and]
    rw [srAfter, hoff, Bool.and_false, if_neg Bool.false_ne_true] at hsr
    exact ear_of_eq hsr hcr hear
  | listening => exact trivial
  | full =>
    have hfull : Lpuart.canReceive b.uart = false := by
      rw [Lpuart.canReceive, show Bits.any b.uart.sr Lpuart.statRdrf = true from hear]
      rfl
    rw [srAfter, hfull, Bool.false_and, if_neg Bool.false_ne_true] at hsr
    exact ear_of_eq hsr hcr hear

theorem Reg.ofOffset?_offset_eq_data (r : Reg) :
    Lpuart.Reg.ofOffset? r.offset = some .data ↔ r = .data := by
  cases r <;> decide

theorem Hears.takeRead (h : Hears e l b) {r : Reg} (hr : r ≠ .data) (bytes : List (BitVec 8)) :
    Hears e l (b.take (.read r.offset bytes)).2 := by
  have hdata : Lpuart.Reg.ofOffset? r.offset ≠ some .data :=
    fun hr' => hr (r.ofOffset?_offset_eq_data.1 hr')
  refine h.take ?_ fun s hsr hcr => ?_
  · rintro _ _ ⟨⟩
    exact hdata
  · rw [srAfter, if_neg hdata] at hsr
    exact ear_of_eq hsr hcr h.ear

theorem returned_read {s t : Lpuart.State} {offset : ℕ} {bytes : List (BitVec 8)}
    {r : Lpuart.Reply} : returned ⟨s, .read offset bytes, r, t⟩ =
      if Lpuart.Reg.ofOffset? offset = some .data ∧ Bits.any s.sr statRdrf = true then
        r.value.toList
      else [] := rfl

/-- A read of the data register is heard if `RDRF` is set. It leaves a receiver that is off
    without a byte. -/
theorem Hears.takeReadData (h : Hears e l b) (bytes : List (BitVec 8)) :
    Hears .listening (l ++ if Bits.any b.uart.sr statRdrf then
        [((b.take (.read Reg.data.offset bytes)).1.value.getD 0#32).setWidth 8] else [])
      (b.take (.read Reg.data.offset bytes)).2 ∧
    (Bits.any b.uart.cr ctrlRe = false →
      Ear.closed.Of (b.take (.read Reg.data.offset bytes)).2.uart) := by
  refine ⟨⟨trivial, ?_, calls_take b _⟩, fun hre => ?_⟩
  · obtain ⟨v, hv⟩ : ∃ v, (b.take (.read Reg.data.offset bytes)).1.value = some v := by
      rw [take_eq]
      exact ⟨_, rfl⟩
    rw [heard_take, h.heard_eq, returned_read, hv]
    cases hfull : Bits.any b.uart.sr statRdrf with
    | true =>
      rw [if_pos ⟨Reg.data.ofOffset?_offset_eq_data.2 rfl, rfl⟩]
      rfl
    | false =>
      rw [if_neg fun hr => Bool.false_ne_true hr.2]
      rfl
  · -- The read invites the backend to hand over another byte, in vain.
    have hleft := Lpuart.after_eq h.quiet (.event (.read Reg.data.offset bytes))
    have hoff : Lpuart.receives b.uart bytes = false := by
      rw [Lpuart.receives, show Bits.any b.uart.cr Lpuart.ctrlRe = false from hre, Bool.false_and]
    rw [uart_take]
    refine ⟨(congrArg (Bits.any · ctrlRe) hleft.cr_eq).trans hre,
      (congrArg (Bits.any · statRdrf) hleft.sr_eq).trans ?_⟩
    rw [srAfter, if_pos (Reg.data.ofOffset?_offset_eq_data.2 rfl), hoff, if_neg Bool.false_ne_true]
    exact Bits.any_clear_self _ _

/-! ## Accesses -/

variable {traffic : ℕ → Traffic} {w : World Bench}

theorem Hears.read (h : Hears e l w.hw) {r : Reg} (hr : r ≠ .data) :
    Ends AnyError (w.read (device traffic) r) fun a => Hears e l a.2.hw := by
  refine World.ends_read ?_
  rw [device_read]
  exact (h.polled _).takeRead hr _

theorem Hears.cr_polled (h : Hears e l b) (t : Traffic) : (b.polled t).uart.cr = b.uart.cr :=
  (congrArg Lpuart.State.cr (uart_take _ _)).trans
    (Lpuart.after_eq (s := b.uart) h.quiet (.event (.poll _))).cr_eq

/-- A write is not heard; it has to leave the receiver as it is. -/
theorem Hears.write (h : Hears e l w.hw) {r : Reg} {value : BitVec 32}
    (hear : ∀ s t : Lpuart.State, s.cr = w.hw.uart.cr → e.Of s →
      t.sr = srAfter s (.event (.write r.offset value)) →
      t.cr = crAfter s (.event (.write r.offset value)) → e.Of t) :
    Ends AnyError (w.write (device traffic) r value) fun w' => Hears e l w'.hw := by
  refine World.ends_write ?_
  have h' := h.polled (traffic w.hw.time)
  have hwrite : Hears e l (Bench.take _ (.write r.offset value)).2 :=
    h'.take nofun fun t => hear _ t (h.cr_polled _) h'.ear
  exact hwrite

/-- Neither the speed nor a character that is sent changes anything for the receiver. -/
theorem Hears.writeOther (h : Hears e l w.hw) {r : Reg} (hr : r ≠ .stat ∧ r ≠ .ctrl)
    (value : BitVec 32) :
    Ends AnyError (w.write (device traffic) r value) fun w' => Hears e l w'.hw := by
  refine h.write fun s t _ hear hsr hcr => ?_
  have hrdrf : Bits.any t.sr statRdrf = Bits.any s.sr statRdrf := by
    rw [hsr]
    cases r with
    | stat => exact absurd rfl hr.1
    | ctrl => exact absurd rfl hr.2
    | baud | fifo => rfl
    | data =>
      change Bits.any (if value < 0xF000#32 then s.sr ||| statTdre else s.sr) statRdrf = _
      split_ifs
      · rw [Bits.any_or_left, show Bits.any statTdre statRdrf = false by decide, Bool.or_false]
      · rfl
  have hre : t.cr = s.cr := by
    cases r with
    | stat => exact absurd rfl hr.1
    | ctrl => exact absurd rfl hr.2
    | baud | fifo | data => exact hcr
  cases e with
  | closed => exact ⟨hre ▸ hear.1, hrdrf ▸ hear.2⟩
  | listening => exact trivial
  | full => exact hrdrf.trans hear

/-- What is read from `STAT` is what is in it. -/
theorem Hears.readStat (h : Hears e l w.hw) : Ends AnyError (w.read (device traffic) .stat)
    fun a => Hears e l a.2.hw ∧ a.1 = a.2.hw.uart.sr := by
  refine Ends.and (h.read (by decide)) (World.ends_read ?_)
  rw [device_read, take_eq]
  rfl

@[inherit_doc Hears.readStat]
theorem Hears.readCtrl (h : Hears e l w.hw) : Ends AnyError (w.read (device traffic) .ctrl)
    fun a => Hears e l a.2.hw ∧ a.1 = a.2.hw.uart.cr := by
  refine Ends.and (h.read (by decide)) (World.ends_read ?_)
  rw [device_read, take_eq]
  rfl

/-- `CTRL` is changed, but for the receiver. -/
theorem Hears.modifyCtrl (h : Hears e l w.hw) {f : BitVec 32 → BitVec 32}
    (hf : ∀ v, Bits.any (f v) ctrlRe = Bits.any v ctrlRe) :
    Ends AnyError (w.modify (device traffic) .ctrl f) fun w' => Hears e l w'.hw := by
  refine h.readCtrl.bind ?_
  rintro ⟨v, w₁⟩ ⟨h₁, hv⟩
  refine h₁.write fun s t hs hear hsr hcr => ?_
  have hre : Bits.any t.cr ctrlRe = Bits.any s.cr ctrlRe :=
    calc Bits.any t.cr ctrlRe = Bits.any (f v) ctrlRe := congrArg (Bits.any · ctrlRe) hcr
      _ = Bits.any v ctrlRe := hf v
      _ = Bits.any s.cr ctrlRe := congrArg (Bits.any · ctrlRe) (hv.trans hs.symm)
  have hrdrf : t.sr = s.sr := hsr
  cases e with
  | closed => exact ⟨hre.trans hear.1, hrdrf ▸ hear.2⟩
  | listening => exact trivial
  | full => exact (congrArg (Bits.any · statRdrf) hrdrf).trans hear

theorem Hears.assign (h : Hears e l w.hw) {m : BitVec 32} (hm : m &&& ctrlRe = 0#32)
    (enable : Bool) :
    Ends AnyError (w.modify (device traffic) .ctrl (insert m (bit m enable)))
      fun w' => Hears e l w'.hw :=
  h.modifyCtrl fun v => by rw [insert_bit, Bits.any_assign_of_disjoint hm]

/-- A receiver that is turned on may hear anything, and one that is turned off still hold a
    byte. -/
theorem Hears.setReceiver (h : Hears e l w.hw) (f : BitVec 32 → BitVec 32) :
    Ends AnyError (w.modify (device traffic) .ctrl f) fun w' => Hears .listening l w'.hw := by
  have h' : Hears .listening l w.hw := { h with ear := trivial }
  refine h'.readCtrl.bind ?_
  rintro ⟨v, w₁⟩ ⟨h₁, -⟩
  exact h₁.write fun _ _ _ _ _ _ => trivial

/-- A write of `STAT` sets no flag of a receiver that is off. -/
theorem Hears.modifyStat (h : Hears .closed l w.hw) (f : BitVec 32 → BitVec 32)
    (hf : ∀ v, ¬f v ≤ 0x3FF#32) :
    Ends AnyError (w.modify (device traffic) .stat f) fun w' => Hears .closed l w'.hw := by
  refine h.readStat.bind ?_
  rintro ⟨v, w₁⟩ ⟨h₁, -⟩
  refine h₁.write fun s t hs hear hsr hcr => ?_
  refine ⟨hcr ▸ hear.1, ?_⟩
  rw [hsr]
  change Bits.any (if f v ≤ 0x3FF#32 then f v ||| statTdre else s.sr &&& f v) statRdrf = false
  rw [if_neg (hf v)]
  exact Bits.any_and_eq_false hear.2 _

/-- `Lpuart_Uart_Ip_Getchar` is heard if `RDRF` is set. -/
theorem Hears.getchar (h : Hears e l w.hw) : Ends AnyError (getchar (device traffic) w) fun a =>
    ∃ d, (d = [] ∨ d = [a.1]) ∧ (e = .full → d = [a.1]) ∧ Hears .listening (l ++ d) a.2.hw ∧
      (Bits.any w.hw.uart.cr ctrlRe = false → Hears .closed (l ++ d) a.2.hw) := by
  refine Ends.bind (World.ends_read ?_) fun a ha => ends_pure ha
  rw [device_read]
  have hcr := h.cr_polled (traffic w.hw.time)
  have h' := h.polled (traffic w.hw.time)
  obtain ⟨hheard, hclosed⟩ := h'.takeReadData (traffic w.hw.time).during
  cases hfull : Bits.any (w.hw.polled (traffic w.hw.time)).uart.sr statRdrf with
  | true =>
    rw [hfull, if_pos rfl] at hheard
    exact ⟨_, .inr rfl, fun _ => rfl, hheard, fun hre =>
      { hheard with ear := hclosed (hcr ▸ hre) }⟩
  | false =>
    rw [hfull, if_neg Bool.false_ne_true] at hheard
    refine ⟨[], .inl rfl, ?_, hheard, fun hre => { hheard with ear := hclosed (hcr ▸ hre) }⟩
    rintro rfl
    exact absurd (hfull.symm.trans h'.ear) Bool.false_ne_true

/-! ### Sending is not heard -/

variable {c : UserConfig}

theorem Hears.getStatusFlag (h : Hears e l w.hw) (m : BitVec 32) :
    Ends AnyError (getStatusFlag (device traffic) m w) fun a => Hears e l a.2.hw :=
  h.readStat.bind fun _ ha => ends_pure ha.1

theorem Hears.getIntMode (h : Hears e l w.hw) (m : BitVec 32) :
    Ends AnyError (getIntMode (device traffic) m w) fun a => Hears e l a.2.hw :=
  h.readCtrl.bind fun _ ha => ends_pure ha.1

theorem Hears.putchar (h : Hears e l w.hw) (ch : BitVec 8) :
    Ends AnyError (putchar (device traffic) ch w) fun w' => Hears e l w'.hw :=
  h.writeOther (by decide) _

theorem Hears.takeByte (h : Hears e l w.hw) :
    Ends AnyError (takeByte w : Except (Stop Empty) _) fun a => Hears e l a.2.hw := by
  rw [LpuartUartIp.takeByte]
  split
  · exact trivial
  · exact h

theorem Hears.decTxSize (h : Hears e l w.hw) (k : ℕ) : Hears e l (decTxSize k w).hw := by
  rw [LpuartUartIp.decTxSize, World.upd_hw]
  exact h

theorem Hears.takeData16 (h : Hears e l w.hw) :
    Ends AnyError (takeData16 w : Except (Stop Empty) _) fun a => Hears e l a.2.hw := by
  refine h.takeByte.bind ?_
  rintro ⟨low, w₁⟩ h₁
  refine ends_ite (fun _ => ends_pure (Hears.decTxSize h₁ 1)) fun _ => ?_
  refine (Hears.takeByte h₁).bind ?_
  rintro ⟨high, w₂⟩ h₂
  exact ends_pure (Hears.decTxSize h₂ 2)

theorem any_insert_bit {m n : BitVec 32} (hm : m &&& n = 0#32) (enable : Bool) (v : BitVec 32) :
    Bits.any (insert m (bit m enable) v) n = Bits.any v n := by
  rw [insert_bit, Bits.any_assign_of_disjoint hm]

theorem Hears.putData (h : Hears e l w.hw) :
    Ends AnyError (putData (device traffic) c w) fun w' => Hears e l w'.hw := by
  have hr9t8 : ctrlR9t8 &&& ctrlRe = 0#32 := by decide
  have hr8t9 : ctrlR8t9 &&& ctrlRe = 0#32 := by decide
  refine ends_ite (fun _ => ?_) fun _ => ?_
  · refine h.takeByte.bind ?_
    rintro ⟨data, w₁⟩ h₁
    exact (Hears.decTxSize h₁ 1).putchar data
  · refine h.takeData16.bind ?_
    rintro ⟨data, w₁⟩ h₁
    refine ends_ite (fun _ => ?_) fun _ => ?_
    · exact (Hears.modifyCtrl h₁ fun v => any_insert_bit hr9t8 _ v).bind fun w₂ h₂ => h₂.putchar _
    · refine (Hears.modifyCtrl h₁ fun v => ?_).bind fun w₂ h₂ => h₂.putchar _
      rw [any_insert_bit hr8t9, any_insert_bit hr9t8]

theorem Hears.awaitFlag (h : Hears e l w.hw) (m : BitVec 32) (timeoutTicks elapsedTicks : ℕ) :
    Ends AnyError (awaitFlag (device traffic) m timeoutTicks elapsedTicks w)
      fun r => ∀ s, r = some s → Hears e l s.1.hw := by
  refine Loop.run_keeps (I := fun s => Hears e l s.1.hw) ?_ h _
  rintro ⟨w', e⟩ h'
  refine (Hears.getStatusFlag h' m).bind ?_
  rintro ⟨set, w₁⟩ h₁
  refine ends_pure ?_
  exact Loop.Keeps.ite (fun _ => h₁) fun _ => Loop.Keeps.ite (fun _ => h₁) fun _ => h₁

theorem Hears.sendPass (timeoutTicks : ℕ) {s : World Bench × ℕ} (h : Hears e l s.1.hw) :
    Ends AnyError (sendPass (device traffic) c timeoutTicks s)
      (Loop.Keeps (fun s => Hears e l s.1.hw) fun r => ∀ s, r = some s → Hears e l s.1.hw) := by
  obtain ⟨w, elapsedTicks⟩ := s
  have hexit : ∀ e' : ℕ, ∀ s', some (w, e') = some s' → Hears e l s'.1.hw := by
    rintro e' _ ⟨⟩
    exact h
  refine ends_ite (fun _ => ends_pure (hexit _)) fun _ =>
    ends_ite (fun _ => ends_pure (hexit _)) fun _ => ?_
  refine (Hears.putData h).bind fun w₁ h₁ => (h₁.awaitFlag _ _ _).bind fun r hr => ?_
  rcases r with _ | s
  · have hnone : ∀ s : World Bench × ℕ, none = some s → Hears e l s.1.hw :=
      fun _ hs => nomatch hs
    exact ends_pure hnone
  · have hs : Hears e l s.1.hw := hr s rfl
    exact ends_pure hs

theorem Hears.sendEnd (h : Hears e l w.hw) (timeoutTicks elapsedTicks : ℕ) :
    Ends AnyError (sendEnd (device traffic) timeoutTicks elapsedTicks w)
      fun a => Hears e l a.2.hw :=
  (h.assign (m := ctrlTe) (by decide) false).bind fun _ h₁ => ends_pure h₁

theorem Hears.syncSend (h : Hears e l w.hw) (txBuff : List (BitVec 8)) (txSize timeout : ℕ) :
    Ends AnyError (syncSend (device traffic) c txBuff txSize timeout w)
      fun r => ∀ a, r = some a → Hears e l a.2.hw := by
  refine (World.ends_devAssert _).bind ?_
  rintro _ rfl
  refine (World.ends_devAssert _).bind ?_
  rintro w rfl
  refine ends_ite (fun _ => ends_pure ?_) fun _ => ?_
  · rintro _ ⟨⟩
    exact h
  have h₀ : Hears e l (w.upd fun st => { st with
    isTxBusy := true, txBuff := txBuff, txSize := txSize, transmitStatus := .busy }).hw := h
  refine (h₀.assign (m := ctrlTie) (by decide) false).bind fun w₁ h₁ => ?_
  refine (h₁.assign (m := ctrlTcie) (by decide) false).bind fun w₂ h₂ => ?_
  refine (h₂.assign (m := ctrlTe) (by decide) true).bind fun w₃ h₃ => ?_
  refine (Loop.run_keeps (fun s hs => Hears.sendPass _ hs) h₃ _).bind fun r hr => ?_
  have hnone : ∀ a : StatusType × World Bench, none = some a → Hears e l a.2.hw :=
    fun _ ha => nomatch ha
  rcases r with _ | _ | ⟨w₄, e₄⟩
  · exact ends_pure hnone
  · exact ends_pure hnone
  · have h₄ : Hears e l w₄.hw := hr _ rfl _ rfl
    refine (h₄.sendEnd _ _).bind fun a ha => ends_pure ?_
    rintro _ ⟨⟩
    exact ha

/-! ### Neither is the initialisation -/

theorem Hears.modifyOther (h : Hears e l w.hw) {r : Reg} (hr : r ≠ .data ∧ r ≠ .stat ∧ r ≠ .ctrl)
    (f : BitVec 32 → BitVec 32) :
    Ends AnyError (w.modify (device traffic) r f) fun w' => Hears e l w'.hw :=
  (h.read hr.1).bind fun _ ha => Hears.writeOther ha hr.2 _

theorem Hears.writeCtrl (h : Hears .closed l w.hw) {value : BitVec 32}
    (hvalue : Bits.any value ctrlRe = false) :
    Ends AnyError (w.write (device traffic) .ctrl value) fun w' => Hears .closed l w'.hw := by
  refine h.write fun s t _ hear hsr hcr => ⟨?_, ?_⟩
  · rw [hcr]
    exact hvalue
  · rw [hsr]
    exact hear.2

/-- The bits of the modes do not turn the receiver on. -/
theorem Hears.modifyModes (h : Hears .closed l w.hw) {m v : BitVec 32}
    (hv : Bits.Within v ctrlModes) :
    Ends AnyError (w.modify (device traffic) .ctrl (insert m v)) fun w' =>
      Hears .closed l w'.hw := by
  refine h.readCtrl.bind ?_
  rintro ⟨cr, w₁⟩ ⟨h₁, hcr⟩
  obtain rfl : cr = w₁.hw.uart.cr := hcr
  refine Hears.writeCtrl h₁ ?_
  rw [insert, Bits.any_or_left, Bits.any_and_eq_false h₁.ear.1, hv.any_eq_false (by decide),
    Bool.or_false]

theorem Hears.hwInit (h : Hears .closed l w.hw) :
    Ends AnyError (hwInit (device traffic) w) fun w' => Hears .closed l w'.hw := by
  refine (h.writeOther (r := .baud) (by decide) _).bind fun w₁ h₁ => ?_
  refine (h₁.write fun s t _ hear hsr hcr => ⟨?_, ?_⟩).bind fun w₂ h₂ => h₂.writeCtrl (by decide)
  · rw [hcr]
    exact hear.1
  · rw [hsr]
    exact Bits.any_and_eq_false hear.2 _

theorem Hears.setBitCountPerChar (h : Hears .closed l w.hw) (n : BitCountPerChar)
    (parity : Bool) :
    Ends AnyError (setBitCountPerChar (device traffic) n parity w) fun w' =>
      Hears .closed l w'.hw := by
  obtain ⟨m, v, hv, heq⟩ := bitCount_modes n parity
  rw [LpuartUartIp.setBitCountPerChar, heq]
  refine ends_ite (fun _ => h.modifyOther (by decide) _) fun _ => ?_
  exact (h.modifyModes hv).bind fun w₁ h₁ => h₁.modifyOther (by decide) _

theorem Hears.init (h : Hears .closed l w.hw) :
    Ends AnyError (init (device traffic) c w) fun w' => Hears .closed l w'.hw := by
  refine (World.ends_devAssert _).bind ?_
  rintro _ rfl
  refine (World.ends_devAssert _).bind ?_
  rintro _ rfl
  refine (World.ends_devAssert _).bind ?_
  rintro _ rfl
  refine (World.ends_devAssert _).bind ?_
  rintro w rfl
  have h₀ : Hears .closed l (w.upd fun _ => .cleared).hw := h
  refine h₀.hwInit.bind fun w₁ h₁ => ?_
  refine Ends.bind (ends_ite (fun _ => h₁.modifyOther (by decide) _) fun _ => ends_pure h₁)
    fun w₂ h₂ => ?_
  refine (h₂.modifyOther (r := .baud) (by decide) _).bind fun w₃ h₃ => ?_
  refine (h₃.modifyOther (r := .baud) (by decide) _).bind fun w₄ h₄ => ?_
  refine (h₄.setBitCountPerChar _ _).bind fun w₅ h₅ => ?_
  refine Ends.bind (Q := fun w' => Hears .closed l w'.hw) ?_ fun w₆ h₆ => ?_
  · refine (h₅.modifyModes ?_).bind fun w₆ h₆ => h₆.modifyModes ?_
    · cases c.parityMode <;> decide
    · cases c.parityMode <;> decide
  · exact (h₆.modifyOther (r := .baud) (by decide) _).bind fun w₇ h₇ => ends_pure h₇

end S32K358.LpuartUartIp
