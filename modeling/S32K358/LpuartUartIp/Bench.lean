import S32K358.Lpuart.Backend
import S32K358.Lpuart.Receive
import S32K358.LpuartUartIp.Basic

/-!
# The LPUART driver on its device

The device model as hardware of the driver (`device`). Meanwhile, the backend may have
bytes for the device, which it hands over before any access or, invited, during a read of
the data register; what it has at each access is a parameter (`Traffic`). The transitions
of the device are logged.

What an access does is said in terms of a `View`, which leaves out what is received: the
registers but for `RDRF` and for the bits of characters with more than eight bits, and what
the backend has been told.
-/

namespace S32K358.LpuartUartIp

open Lpuart (Event Reply Step Stimulus Call after result stimulate_eq srAfter crAfter)
open Program Port

/-! ## The device -/

/-- The offset of a register, of which the device does not implement `FIFO`. -/
def Reg.offset : Reg → ℕ
  | .baud => 0x10
  | .stat => 0x14
  | .ctrl => 0x18
  | .data => 0x1C
  | .fifo => 0x28

/-- The bytes that the backend has before and during an access. -/
structure Traffic where
  before : List (BitVec 8)
  during : List (BitVec 8)
  deriving DecidableEq, Repr

/-- The device, the number of the accesses made to it, and its transitions. -/
structure Bench where
  uart : Lpuart.State
  time : ℕ
  log : List Step

/-- The device takes an event. -/
def Bench.take (b : Bench) (e : Event) : Reply × Bench :=
  match Lpuart.step b.uart e with
  | .ok (r, u) => (r, { b with uart := u, log := b.log ++ [⟨b.uart, e, r, u⟩] })

/-- The backend hands over what it can before an access. -/
def Bench.polled (b : Bench) (t : Traffic) : Bench :=
  ({ b with time := b.time + 1 }.take (.poll t.before)).2

/-- The device as hardware, with the traffic at each access. -/
def device (traffic : ℕ → Traffic) : Port Reg Empty Bench where
  read b r :=
    let t := traffic b.time
    let (reply, b) := (b.polled t).take (.read r.offset t.during)
    .ok (reply.value.getD 0#32, b)
  write b r value := .ok ((b.polled (traffic b.time)).take (.write r.offset value)).2

/-! ## The view -/

/-- What is seen of the device and its backend, apart from what is received. -/
@[ext]
structure View where
  clk : ℕ
  /-- `CTRL` but for `R8T9` and `R9T8`. -/
  cr : BitVec 32
  baud : BitVec 32
  /-- `STAT` but for `RDRF`. -/
  flags : BitVec 32
  /-- The characters sent. -/
  sent : List (BitVec 8)
  /-- The speed that the backend was given last. -/
  speed : Option ℤ
  deriving DecidableEq, Repr

/-- `R8T9` and `R9T8`. -/
def ctrlDataBits : BitVec 32 := ctrlR8t9 ||| ctrlR9t8

def sentChar? : Call → Option (BitVec 8)
  | .writeAll ch => some ch
  | _ => none

/-- The characters sent in some transitions. -/
def sent (log : List Step) : List (BitVec 8) :=
  log.flatMap fun τ => τ.output.calls.filterMap sentChar?

/-- The speeds set in some transitions. -/
def speeds (log : List Step) : List ℤ := log.flatMap fun τ => Lpuart.speeds τ.output.calls

def view (b : Bench) : View where
  clk := b.uart.clk
  cr := b.uart.cr &&& ~~~ctrlDataBits
  baud := b.uart.baudRateConfig
  flags := b.uart.sr &&& ~~~statRdrf
  sent := sent b.log
  speed := (speeds b.log).getLast?

/-- The view after a register is written. -/
def View.written (x : View) (r : Reg) (value : BitVec 32) : View :=
  match r with
  | .baud => { x with baud := value, speed := some (Lpuart.passed (Lpuart.speedOf x.clk value)) }
  | .stat =>
    { x with
      flags := if value ≤ 0x3FF#32 then (value ||| statTdre) &&& ~~~statRdrf
        else x.flags &&& value }
  | .ctrl => { x with cr := value &&& ~~~ctrlDataBits }
  | .data =>
    if value < 0xF000#32 then
      { x with sent := x.sent ++ [value.setWidth 8], flags := x.flags ||| statTdre }
    else x
  | .fifo => x

/-- A value that is not small clears flags. -/
theorem View.written_stat (x : View) {value : BitVec 32} (h : ¬value ≤ 0x3FF#32) :
    x.written .stat value = { x with flags := x.flags &&& value } := by
  simp only [written, if_neg h]

variable {b : Bench} {e : Event} {t : Traffic}

theorem take_eq (b : Bench) (e : Event) :
    b.take e = (⟨(result b.uart (.event e)).1, (result b.uart (.event e)).2,
        (after b.uart (.event e)).calls⟩,
      { b with
        uart := { after b.uart (.event e) with calls := [] }
        log := b.log ++ [⟨b.uart, e, ⟨(result b.uart (.event e)).1, (result b.uart (.event e)).2,
          (after b.uart (.event e)).calls⟩, { after b.uart (.event e) with calls := [] }⟩] }) := by
  have h : Lpuart.step b.uart e = .ok _ := stimulate_eq b.uart (.event e)
  rw [Bench.take, h]

theorem calls_take (b : Bench) (e : Event) : (b.take e).2.uart.calls = [] := by
  rw [take_eq]

theorem sentChars_after (hq : b.uart.calls = []) (e : Event) :
    (after b.uart (.event e)).calls.filterMap sentChar? =
      (Lpuart.backendCalls b.uart (.event e)).filterMap sentChar? := by
  rw [← Lpuart.toBackend_after hq, Lpuart.toBackend, List.filterMap_filter]
  congr 1
  funext c
  cases c <;> rfl

/-- What an event does to the view. -/
theorem view_take (hq : b.uart.calls = []) (e : Event) : view (b.take e).2 =
    { clk := b.uart.clk
      cr := crAfter b.uart (.event e) &&& ~~~ctrlDataBits
      baud := Lpuart.baudAfter b.uart (.event e)
      flags := srAfter b.uart (.event e) &&& ~~~statRdrf
      sent := sent b.log ++ (Lpuart.backendCalls b.uart (.event e)).filterMap sentChar?
      speed := (speeds b.log ++ ((Stimulus.event e).baud?.map fun value =>
        Lpuart.passed (Lpuart.speedOf b.uart.clk value)).toList).getLast? } := by
  have hleft := Lpuart.after_eq hq (.event e)
  have htells := Lpuart.after_tells b.uart (.event e)
  rw [← sentChars_after hq, ← Lpuart.speeds_after hq, take_eq]
  refine View.ext htells.clk_eq (congrArg (· &&& ~~~ctrlDataBits) hleft.cr_eq) htells.baud_eq
    (congrArg (· &&& ~~~statRdrf) hleft.sr_eq) ?_ ?_
  · simp [view, sent]
  · simp [view, speeds]

theorem clear_rdrf_of_or (x : BitVec 32) (c : Prop) [Decidable c] :
    (if c then x ||| statRdrf else x) &&& ~~~statRdrf = x &&& ~~~statRdrf := by
  split_ifs
  · exact Bits.or_clear _ _
  · rfl

theorem view_polled (hq : b.uart.calls = []) (t : Traffic) : view (b.polled t) = view b := by
  have hq' : { b with time := b.time + 1 }.uart.calls = [] := hq
  rw [Bench.polled, view_take hq']
  exact View.ext rfl rfl rfl (clear_rdrf_of_or _ _) (List.append_nil _)
    (congrArg List.getLast? (List.append_nil _))

theorem view_take_read (hq : b.uart.calls = []) (offset : ℕ) (l : List (BitVec 8)) :
    view (b.take (.read offset l)).2 = view b := by
  rw [view_take hq]
  refine View.ext rfl rfl rfl ?_ (List.append_nil _) (congrArg List.getLast? (List.append_nil _))
  change (if _ then if _ then b.uart.sr &&& ~~~statRdrf ||| statRdrf else b.uart.sr &&& ~~~statRdrf
    else b.uart.sr) &&& ~~~statRdrf = b.uart.sr &&& ~~~statRdrf
  split_ifs
  · rw [Bits.or_clear, BitVec.and_assoc, BitVec.and_self]
  · rw [BitVec.and_assoc, BitVec.and_self]
  · rfl

theorem view_take_write (hq : b.uart.calls = []) (r : Reg) (value : BitVec 32) :
    view (b.take (.write r.offset value)).2 = (view b).written r value := by
  rw [view_take hq]
  cases r with
  | baud =>
    exact View.ext rfl rfl rfl rfl (List.append_nil _) List.getLast?_concat
  | stat =>
    refine View.ext rfl rfl rfl ?_ (List.append_nil _) (congrArg List.getLast? (List.append_nil _))
    change (if value ≤ 0x3FF#32 then value ||| statTdre else b.uart.sr &&& value) &&& ~~~statRdrf =
      if value ≤ 0x3FF#32 then (value ||| statTdre) &&& ~~~statRdrf
        else b.uart.sr &&& ~~~statRdrf &&& value
    split_ifs
    · rfl
    · rw [BitVec.and_assoc, BitVec.and_comm value, ← BitVec.and_assoc]
  | ctrl =>
    exact View.ext rfl rfl rfl rfl (List.append_nil _) (congrArg List.getLast? (List.append_nil _))
  | data =>
    by_cases hsend : value < 0xF000#32
    · rw [View.written, if_pos hsend]
      refine View.ext rfl rfl rfl ?_ ?_ (congrArg List.getLast? (List.append_nil _))
      · change (if value < 0xF000#32 then b.uart.sr ||| statTdre else b.uart.sr) &&& ~~~statRdrf =
          b.uart.sr &&& ~~~statRdrf ||| statTdre
        have htdre : statTdre &&& ~~~statRdrf = statTdre := by decide
        rw [if_pos hsend, BitVec.and_or_distrib_right]
        exact congrArg _ htdre
      · change sent b.log ++ List.filterMap sentChar?
          (if value < 0xF000#32 then [.writeAll (value.setWidth 8)] else []) = _
        rw [if_pos hsend]
        rfl
    · rw [View.written, if_neg hsend]
      refine View.ext rfl rfl rfl ?_ ?_ (congrArg List.getLast? (List.append_nil _))
      · change (if value < 0xF000#32 then b.uart.sr ||| statTdre else b.uart.sr) &&& ~~~statRdrf = _
        rw [if_neg hsend]
        rfl
      · change sent b.log ++ List.filterMap sentChar?
          (if value < 0xF000#32 then [.writeAll (value.setWidth 8)] else []) = _
        rw [if_neg hsend]
        exact List.append_nil _
  | fifo =>
    exact View.ext rfl rfl rfl rfl (List.append_nil _) (congrArg List.getLast? (List.append_nil _))

/-! ## Accesses -/

/-- The driver has the state structure `st`, and the device shows the view `x`. -/
structure Shows (st : StateStructure) (x : View) (w : World Bench) : Prop where
  state_eq : w.state = st
  view_eq : view w.hw = x
  quiet : w.hw.uart.calls = []

/-- What the view says about the value of a register. -/
def View.Reads (x : View) (r : Reg) (value : BitVec 32) : Prop :=
  match r with
  | .baud => value = x.baud
  | .stat => value &&& ~~~statRdrf = x.flags
  | .ctrl => value &&& ~~~ctrlDataBits = x.cr
  | .data | .fifo => True

variable {traffic : ℕ → Traffic} {st : StateStructure} {x : View} {w : World Bench}

theorem Shows.upd (h : Shows st x w) (f : StateStructure → StateStructure) :
    Shows (f st) x (w.upd f) :=
  ⟨congrArg f h.state_eq, h.view_eq, h.quiet⟩

theorem reads_take (b : Bench) (r : Reg) (l : List (BitVec 8)) :
    (view b).Reads r ((b.take (.read r.offset l)).1.value.getD 0#32) := by
  rw [take_eq]
  cases r <;> first | rfl | exact trivial

theorem device_read (traffic : ℕ → Traffic) (b : Bench) (r : Reg) : (device traffic).read b r =
    .ok (((b.polled (traffic b.time)).take
        (.read r.offset (traffic b.time).during)).1.value.getD 0#32,
      ((b.polled (traffic b.time)).take (.read r.offset (traffic b.time).during)).2) := rfl

theorem Shows.polled (h : Shows st x w) (t : Traffic) :
    view (w.hw.polled t) = x ∧ (w.hw.polled t).uart.calls = [] :=
  ⟨(view_polled h.quiet t).trans h.view_eq, calls_take _ _⟩

theorem Shows.read (h : Shows st x w) (r : Reg) :
    Ends NoError (w.read (device traffic) r) fun a => x.Reads r a.1 ∧ Shows st x a.2 := by
  obtain ⟨hview, hq⟩ := h.polled (traffic w.hw.time)
  refine World.ends_read ?_
  rw [device_read]
  generalize w.hw.polled (traffic w.hw.time) = b at hview hq ⊢
  exact ⟨hview ▸ reads_take b r _, h.state_eq, (view_take_read hq _ _).trans hview,
    calls_take b (.read r.offset _)⟩

theorem Shows.write (h : Shows st x w) (r : Reg) (value : BitVec 32) :
    Ends NoError (w.write (device traffic) r value) (Shows st (x.written r value)) := by
  obtain ⟨hview, hq⟩ := h.polled (traffic w.hw.time)
  refine World.ends_write ?_
  change Ends _ (.ok ((w.hw.polled (traffic w.hw.time)).take (.write r.offset value)).2) _
  generalize w.hw.polled (traffic w.hw.time) = b at hview hq ⊢
  exact ⟨h.state_eq, hview ▸ view_take_write hq r value, calls_take b (.write r.offset value)⟩

theorem Shows.modify (h : Shows st x w) (r : Reg) (f : BitVec 32 → BitVec 32) :
    Ends NoError (w.modify (device traffic) r f) fun w' =>
      ∃ value, x.Reads r value ∧ Shows st (x.written r (f value)) w' := by
  refine (h.read r).bind ?_
  rintro ⟨v, w₁⟩ ⟨hv, h₁⟩
  exact (h₁.write r (f v)).mono fun w₂ h₂ => ⟨v, hv, h₂⟩

/-! ## Bits of `CTRL` and flags of `STAT` -/

/-- A bit of `CTRL` is set or cleared. -/
def View.assign (x : View) (m : BitVec 32) (enable : Bool) : View :=
  { x with cr := Bits.assign x.cr m enable }

theorem insert_bit (m x : BitVec 32) (enable : Bool) :
    insert m (bit m enable) x = Bits.assign x m enable := by
  cases enable with
  | true =>
    change x &&& ~~~m ||| m = x ||| m
    apply BitVec.eq_of_getLsbD_eq
    intro i hi
    simp only [BitVec.getLsbD_or, BitVec.getLsbD_and, BitVec.getLsbD_not, hi, decide_true,
      Bool.true_and]
    cases m.getLsbD i <;> simp
  | false => exact BitVec.or_zero

theorem clear_assign {m k : BitVec 32} (h : m &&& ~~~k = m) (x : BitVec 32) (enable : Bool) :
    Bits.assign x m enable &&& ~~~k = Bits.assign (x &&& ~~~k) m enable := by
  cases enable with
  | true =>
    change (x ||| m) &&& ~~~k = x &&& ~~~k ||| m
    rw [BitVec.and_or_distrib_right, h]
  | false =>
    change x &&& ~~~m &&& ~~~k = x &&& ~~~k &&& ~~~m
    rw [BitVec.and_assoc, BitVec.and_comm (~~~m), BitVec.and_assoc]

/-- A bit of `CTRL` that is not one of a character is set or cleared. -/
theorem Shows.assign (h : Shows st x w) {m : BitVec 32} (hm : m &&& ~~~ctrlDataBits = m)
    (enable : Bool) :
    Ends NoError (w.modify (device traffic) .ctrl (insert m (bit m enable)))
      (Shows st (x.assign m enable)) := by
  refine (h.modify .ctrl _).mono ?_
  rintro w' ⟨value, hvalue, hw'⟩
  have hcr : insert m (bit m enable) value &&& ~~~ctrlDataBits = Bits.assign x.cr m enable := by
    rw [insert_bit, clear_assign hm, hvalue]
  change Shows st { x with cr := _ } w' at hw'
  rwa [hcr] at hw'

/-- The bits of a character are not seen. -/
theorem Shows.assignDataBits (h : Shows st x w) {f : BitVec 32 → BitVec 32}
    (hf : ∀ v, f v &&& ~~~ctrlDataBits = v &&& ~~~ctrlDataBits) :
    Ends NoError (w.modify (device traffic) .ctrl f) (Shows st x) := by
  refine (h.modify .ctrl _).mono ?_
  rintro w' ⟨value, hvalue, hw'⟩
  change Shows st { x with cr := _ } w' at hw'
  rwa [hf, hvalue] at hw'

theorem Shows.getIntMode (h : Shows st x w) {m : BitVec 32} (hm : ctrlDataBits &&& m = 0#32) :
    Ends NoError (getIntMode (device traffic) m w) fun a =>
      a.1 = Bits.any x.cr m ∧ Shows st x a.2 := by
  refine (h.read .ctrl).bind ?_
  rintro ⟨v, w₁⟩ ⟨hv, h₁⟩
  refine ends_pure ⟨?_, h₁⟩
  rw [← show v &&& ~~~ctrlDataBits = x.cr from hv]
  exact (Bits.any_clear_of_disjoint hm).symm

/-- A flag other than `RDRF` is seen. -/
theorem Shows.getStatusFlag (h : Shows st x w) {m : BitVec 32} (hm : statRdrf &&& m = 0#32) :
    Ends NoError (getStatusFlag (device traffic) m w) fun a =>
      a.1 = Bits.any x.flags m ∧ Shows st x a.2 := by
  refine (h.read .stat).bind ?_
  rintro ⟨v, w₁⟩ ⟨hv, h₁⟩
  refine ends_pure ⟨?_, h₁⟩
  rw [← show v &&& ~~~statRdrf = x.flags from hv]
  exact (Bits.any_clear_of_disjoint hm).symm

/-- `RDRF` is not seen. -/
theorem Shows.getFlag (h : Shows st x w) (m : BitVec 32) :
    Ends NoError (LpuartUartIp.getStatusFlag (device traffic) m w) fun a => Shows st x a.2 := by
  refine (h.read .stat).bind ?_
  rintro ⟨v, w₁⟩ ⟨-, h₁⟩
  exact ends_pure h₁

end S32K358.LpuartUartIp
