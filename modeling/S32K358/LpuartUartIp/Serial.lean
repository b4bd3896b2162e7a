import S32K358.Lib.Mealy
import S32K358.LpuartUartIp.Interrupts

/-!
# The LPUART driver as a serial line

An application calls the driver in any order, and the interrupt handler runs between the calls
(`Op`). A `Serial` is what all this is for: the characters that have been sent and those that a
transmission still has, the bytes that have been heard and those in the buffer of a reception.
`Serial.Step` says what a call may make of it; what is on the line when is left open. Every
call of the driver on the device is such a step (`Represents.call`), and what the application
can ask for is what the `Serial` has (`Represents.status`).
-/

namespace S32K358.LpuartUartIp

open Program Port OsIf

/-! ## The calls of an application -/

/-- A call of the driver by an application, or an interrupt. -/
inductive Op
  | syncSend (q : SendCall)
  | asyncSend (txBuff : List (BitVec 8)) (txSize : ℕ)
  | abortSendingData
  | syncReceive (q : ReceiveCall)
  | asyncReceive (rxBuff : List (BitVec 8)) (rxSize : ℕ)
  | abortReceivingData
  | deinit
  | irqHandler
  deriving DecidableEq, Repr

namespace Op

/-- The call passes the assertions, buffers are as large as it says, and timeouts are not too
    large. -/
def Valid : Op → Prop
  | .syncSend q => q.Valid
  | .asyncSend txBuff txSize => 0 < txSize ∧ txSize ≤ txBuff.length ∧ txSize < 2 ^ 32
  | .syncReceive q => q.Valid
  | .asyncReceive rxBuff rxSize => 0 < rxSize ∧ rxSize ≤ rxBuff.length ∧ rxSize < 2 ^ 32
  | .abortSendingData | .abortReceivingData | .deinit | .irqHandler => True

/-- A transmission is to be started. -/
def Sends : Op → Prop
  | .syncSend _ | .asyncSend _ _ => True
  | _ => False

/-- A reception is to be started. -/
def Receives : Op → Prop
  | .syncReceive _ | .asyncReceive _ _ => True
  | _ => False

/-- The call itself. -/
def call {ε σ : Type} (p : Port Reg ε σ) (c : UserConfig) (w : World σ) :
    Op → Except (Halt ε) (StatusType × World σ)
  | .syncSend q => Halt.ofLoop (LpuartUartIp.syncSend p c q.txBuff q.txSize q.timeout w)
  | .asyncSend txBuff txSize => Halt.ofStop (LpuartUartIp.asyncSend p c txBuff txSize w)
  | .abortSendingData => Halt.ofLoop (LpuartUartIp.abortSendingData p c w)
  | .syncReceive q => Halt.ofLoop (LpuartUartIp.syncReceive p c q.rxBuff q.rxSize q.timeout w)
  | .asyncReceive rxBuff rxSize => Halt.ofStop (LpuartUartIp.asyncReceive p c rxBuff rxSize w)
  | .abortReceivingData => Halt.ofLoop (LpuartUartIp.abortReceivingData p c w)
  | .deinit => Halt.ofStop (LpuartUartIp.deinit p w)
  | .irqHandler => (Halt.ofLoop (LpuartUartIp.irqHandler p c w)).map (.success, ·)

end Op

/-- The driver, as a machine on the calls. -/
def run {ε σ : Type} (p : Port Reg ε σ) (c : UserConfig) (w : World σ) (os : List Op) :
    Except (Halt ε) (List (Mealy.Transition (World σ) Op StatusType) × World σ) :=
  Mealy.run (fun w o => o.call p c w) w os

/-! ## A serial line -/

/-- Characters are stored in a buffer with `l` bytes in it and room for `k` more: of the lower
    bytes `as`, each with an upper one if it has one and there is room for it. -/
inductive Fills (n : BitCountPerChar) (l : List (BitVec 8)) (k : ℕ) :
    List (BitVec 8) → List (BitVec 8) → ℕ → Prop
  | nil : Fills n l k [] l k
  | snoc {as l' : List (BitVec 8)} {k' : ℕ} {a : BitVec 8} {highs : List (BitVec 8)} :
    Fills n l k as l' k' → 0 < k' → highs.length + 1 = min (charBytes n) k' →
      Fills n l k (as ++ [a]) (l' ++ charOf n a :: highs) (k' - (highs.length + 1))

theorem Stores.fills {n : BitCountPerChar} {st st' : StateStructure} {as : List (BitVec 8)}
    (h : Stores n st as st') (hst : st.Receivable) :
    Fills n st.filled st.rxSize as st'.filled st'.rxSize := by
  induction h with
  | nil => exact .nil
  | snoc hstores hpos hhighs ih =>
    rw [(hstores.receivable hst).filled_storing]
    exact ih.snoc hpos hhighs

/-- What the driver has made of the line. -/
structure Serial where
  /-- The characters that have been sent. -/
  sent : List (BitVec 8)
  /-- The bytes that a transmission by interrupts has left, if there is one. -/
  left : Option (List (BitVec 8))
  /-- The device asks for characters. -/
  ready : Bool
  transmitStatus : StatusType
  /-- The bytes that have been heard. -/
  heard : List (BitVec 8)
  /-- The bytes stored in the buffer of the last reception. -/
  stored : List (BitVec 8)
  /-- The number of bytes that a reception by interrupts waits for, if there is one. -/
  room : Option ℕ
  receiveStatus : StatusType
  deriving DecidableEq, Repr

/-- What a call may come to. -/
inductive Serial.Step (n : BitCountPerChar) : Serial → Op → StatusType → Serial → Prop
  | syncSend {g : Serial} {q : SendCall} : g.left = none →
    Step n g (.syncSend q) (q.status n) { g with
      sent := g.sent ++ q.sentChars n
      ready := g.ready || !(q.sentChars n).isEmpty
      transmitStatus := q.status n }
  | asyncSend {g : Serial} {txBuff : List (BitVec 8)} {txSize : ℕ} : g.left = none →
    Step n g (.asyncSend txBuff txSize) .success
      { g with left := some (txBuff.take txSize), transmitStatus := .busy }
  | sendBusy {g : Serial} {o : Op} : o.Sends → g.left ≠ none → Step n g o .busy g
  /-- The end of the transmission cannot be waited for. -/
  | abortSending {g : Serial} : g.left ≠ none →
    Step n g .abortSendingData .error { g with left := none, transmitStatus := .timeout }
  | nothingToSend {g : Serial} : g.left = none →
    Step n g .abortSendingData (abortStatus g.transmitStatus) g
  /-- A timeout may leave a character in the buffer that has not been heard, and the end of
      the call drop one that has. -/
  | syncReceive {g : Serial} {q : ReceiveCall} {as stale dropped l : List (BitVec 8)} {k : ℕ}
      {status : StatusType} : g.room = none → Fills n [] q.rxSize (as ++ stale) l k →
    stale.length ≤ 1 → dropped.length ≤ 1 → (2 ≤ q.timeout → as ++ stale ≠ []) →
    status = .success ∧ stale = [] ∧ k = 0 ∨ status = .timeout →
    Step n g (.syncReceive q) status
      { g with heard := g.heard ++ as ++ dropped, stored := l, receiveStatus := status }
  | asyncReceive {g : Serial} {rxBuff : List (BitVec 8)} {rxSize : ℕ} : g.room = none →
    Step n g (.asyncReceive rxBuff rxSize) .success
      { g with stored := [], room := some rxSize, receiveStatus := .busy }
  | receiveBusy {g : Serial} {o : Op} : o.Receives → g.room ≠ none → Step n g o .busy g
  | abortReceiving {g : Serial} {dropped : List (BitVec 8)} : g.room ≠ none →
    dropped.length ≤ 1 →
    Step n g .abortReceivingData .error
      { g with heard := g.heard ++ dropped, room := none, receiveStatus := .timeout }
  | nothingToReceive {g : Serial} : g.room = none →
    Step n g .abortReceivingData (abortStatus g.receiveStatus) g
  /-- There is no time to wait for the end of transfers, even if there are none. -/
  | deinit {g : Serial} : Step n g .deinit .error g
  | irqReceive {g : Serial} {a : BitVec 8} {l : List (BitVec 8)} {k k' : ℕ} : g.room = some k →
    Fills n g.stored k [a] l k' → k' ≠ 0 →
    Step n g .irqHandler .success
      { g with heard := g.heard ++ [a], stored := l, room := some k' }
  | irqReceiveLast {g : Serial} {a : BitVec 8} {l dropped : List (BitVec 8)} {k : ℕ} :
    g.room = some k → Fills n g.stored k [a] l 0 → dropped.length ≤ 1 →
    Step n g .irqHandler .success
      { g with
        heard := g.heard ++ [a] ++ dropped, stored := l, room := none, receiveStatus := .success }
  | irqSend {g : Serial} {a : BitVec 8} {l : List (BitVec 8)} : g.left = some (a :: l) →
    g.ready = true →
    Step n g .irqHandler .success
      { g with sent := g.sent ++ [a], left := some ((a :: l).drop (charBytes n)) }
  | irqNothing {g : Serial} : g.ready = false ∨ (∀ l ∈ g.left, l = []) →
    Step n g .irqHandler .success g

/-! ## What represents it -/

/-- The interrupt of the transmitter is on exactly if there is something left to be sent. -/
def Serial.pending (g : Serial) : Bool := g.left.any (!·.isEmpty)

/-- The flags of the device: no error is flagged, and `TC` is never set. -/
structure Flagged (flags : BitVec 32) (ready : Bool) : Prop where
  tdre_eq : Bits.any flags statTdre = ready
  tc_eq : Bits.any flags statTc = false
  noErrors : Bits.any flags (statOr ||| statNf ||| statFe ||| statPf) = false

/-- What the driver and its device have of a serial line. -/
structure Pictures (g : Serial) (st : StateStructure) (x : View) : Prop where
  registered : st.registered = true
  flagged : Flagged x.flags g.ready
  sent_eq : x.sent = g.sent
  txBusy_eq : st.isTxBusy = g.left.isSome
  unsent_eq : ∀ l ∈ g.left, st.txSize ≤ st.txBuff.length ∧ st.txSize < 2 ^ 32 ∧ st.unsent = l
  tie_eq : Bits.any x.cr ctrlTie = g.pending
  transmitStatus_eq : st.transmitStatus = g.transmitStatus
  rxBusy_eq : st.isRxBusy = g.room.isSome
  room_eq : ∀ k ∈ g.room, 0 < k ∧ k < 2 ^ 32 ∧ st.rxSize = k ∧
    st.rxIndex + st.rxSize ≤ st.rxBuff.length ∧ g.receiveStatus = .busy
  filled_eq : st.filled = g.stored
  rie_eq : Bits.any x.cr ctrlRie = g.room.isSome
  receiveStatus_eq : st.receiveStatus = g.receiveStatus

/-- The receiver is on during a reception by interrupts. -/
def Serial.ear (g : Serial) : Ear := if g.room.isSome then .listening else .closed

/-- The driver and its device represent a serial line. -/
def Represents (g : Serial) (w : World Bench) : Prop :=
  ∃ st x, Pictures g st x ∧ Sees st x g.ear g.heard w

/-- What a call comes to: what it gives and leaves are those of a step. -/
def Follows (n : BitCountPerChar) (g : Serial) (o : Op) (a : StatusType × World Bench) : Prop :=
  ∃ g', g.Step n o a.1 g' ∧ Represents g' a.2

/-! ### The view -/

section View

variable {x : View}

theorem cr_afterSend (l : List (BitVec 8)) : (x.afterSend l).cr =
    (x.switch [(ctrlTie, false), (ctrlTcie, false), (ctrlTe, true), (ctrlTe, false)]).cr := by
  rw [View.afterSend, sendingAll_eq]
  rfl

theorem tie_serving (a : BitVec 8) (last : Bool) :
    Bits.any (x.serving a last).cr ctrlTie = (!last && Bits.any x.cr ctrlTie) := by
  cases last with
  | true => exact any_switch (x.sending a) (by decide)
  | false => rfl

theorem rie_serving (a : BitVec 8) (last : Bool) :
    Bits.any (x.serving a last).cr ctrlRie = Bits.any x.cr ctrlRie := by
  cases last with
  | true => exact any_switch (x.sending a) (by decide)
  | false => rfl

theorem Flagged.sending {flags : BitVec 32} {ready : Bool} (h : Flagged flags ready) :
    Flagged (flags ||| statTdre) true where
  tdre_eq := by
    rw [Bits.any_or_left, show Bits.any statTdre statTdre = true by decide, Bool.or_true]
  tc_eq := by rw [Bits.any_or_left, h.tc_eq]; decide
  noErrors := by rw [Bits.any_or_left, h.noErrors]; decide

theorem Flagged.afterSend {ready : Bool} (h : Flagged x.flags ready) (l : List (BitVec 8)) :
    Flagged (x.afterSend l).flags (ready || !l.isEmpty) := by
  rw [View.afterSend, sendingAll_eq]
  change Flagged (if l = [] then x.flags else x.flags ||| statTdre) _
  cases l with
  | nil => rw [List.isEmpty_nil, Bool.not_true, Bool.or_false]; exact h
  | cons a l => rw [List.isEmpty_cons, Bool.not_false, Bool.or_true]; exact h.sending

theorem Flagged.clearingErrors {ready : Bool} (h : Flagged x.flags ready) :
    Flagged x.clearingErrors.flags ready where
  tdre_eq := by
    rw [View.clearingErrors, statTdre, Bits.any_and_left _ _ (by decide)]
    exact (Bool.and_true _).trans h.tdre_eq
  tc_eq := Bits.any_and_eq_false h.tc_eq _
  noErrors := Bits.any_and_eq_false h.noErrors _

end View

section Calls

variable {traffic : ℕ → Traffic} {c : UserConfig} {g : Serial} {st : StateStructure} {x : View}
  {w : World Bench}

theorem Pictures.registered_of (hp : Pictures g st x) (h : Sees st x g.ear g.heard w) :
    w.state.registered = true := by
  rw [h.state_eq, hp.registered]

/-- A call that gives a status at once and leaves everything as it is. -/
theorem follows_of_step {o : Op} {status : StatusType} (hp : Pictures g st x)
    (h : Sees st x g.ear g.heard w) (hstep : g.Step c.bitCountPerChar o status g) :
    Follows c.bitCountPerChar g o (status, w) := ⟨g, hstep, st, x, hp, h⟩

/-! ### Transmissions -/

theorem syncSend_step (hp : Pictures g st x) (h : Sees st x g.ear g.heard w) {q : SendCall}
    (hq : q.Valid) :
    Ends NoError ((Op.syncSend q).call (device traffic) c w)
      (Follows c.bitCountPerChar g (.syncSend q)) := by
  refine Halt.ends_ofLoop ?_
  cases hleft : g.left with
  | some l =>
    have hbusy : w.state.isTxBusy = true := by rw [h.state_eq, hp.txBusy_eq, hleft]; rfl
    have hne : g.left ≠ none := Option.ne_none_iff_exists'.2 ⟨l, hleft⟩
    exact ends_busy (b := StateStructure.isTxBusy) hq.size_pos (hp.registered_of h) hbusy
      ⟨_, rfl, follows_of_step hp h (.sendBusy trivial hne)⟩
  | none =>
    refine (h.syncSend hp.registered (by rw [hp.txBusy_eq, hleft]; rfl) hq).mono ?_
    rintro _ ⟨w', rfl, h'⟩
    -- The call has cleared `TIE`, and no transmission by interrupts is left.
    refine ⟨_, rfl, _, .syncSend hleft, _, _, ?_, h'⟩
    exact { hp with
      flagged := hp.flagged.afterSend _
      sent_eq := by rw [View.afterSend, sendingAll_eq, ← hp.sent_eq]; rfl
      txBusy_eq := by rw [hleft]; rfl
      unsent_eq := by rw [hleft]; exact fun _ hl => absurd hl (Option.not_mem_none _)
      tie_eq := by rw [cr_afterSend, any_switch x (by decide), Serial.pending, hleft]; rfl
      transmitStatus_eq := rfl
      rie_eq := by rw [cr_afterSend, ← hp.rie_eq]; exact any_switch x (by decide) }

theorem asyncSend_step (hp : Pictures g st x) (h : Sees st x g.ear g.heard w)
    (hc : c.transferType = .usingInterrupts) {txBuff : List (BitVec 8)} {txSize : ℕ}
    (hvalid : (Op.asyncSend txBuff txSize).Valid) :
    Ends NoError ((Op.asyncSend txBuff txSize).call (device traffic) c w)
      (Follows c.bitCountPerChar g (.asyncSend txBuff txSize)) := by
  obtain ⟨hpos, hle, hlt⟩ := hvalid
  refine Halt.ends_ofStop ?_
  cases hleft : g.left with
  | some l =>
    have hbusy : w.state.isTxBusy = true := by rw [h.state_eq, hp.txBusy_eq, hleft]; rfl
    have hne : g.left ≠ none := Option.ne_none_iff_exists'.2 ⟨l, hleft⟩
    exact ends_busy (b := StateStructure.isTxBusy) hpos (hp.registered_of h) hbusy
      (follows_of_step hp h (.sendBusy trivial hne))
  | none =>
    refine (h.asyncSend hp.registered (by rw [hp.txBusy_eq, hleft]; rfl) hc hpos).mono ?_
    rintro ⟨_, w'⟩ ⟨rfl, h'⟩
    refine ⟨_, .asyncSend hleft, _, _, ?_, h'⟩
    have hne : (txBuff.take txSize).isEmpty = false := by
      rw [List.isEmpty_eq_false_iff, ← List.length_pos_iff, List.length_take]
      omega
    exact { hp with
      txBusy_eq := rfl
      unsent_eq := by
        rintro _ ⟨⟩
        exact ⟨hle, hlt, rfl⟩
      tie_eq := by rw [Serial.pending, Option.any_some, hne]; exact any_switch x (by decide)
      transmitStatus_eq := rfl
      rie_eq := hp.rie_eq ▸ any_switch x (by decide) }

theorem abortSendingData_step (hp : Pictures g st x) (h : Sees st x g.ear g.heard w)
    (hc : c.transferType = .usingInterrupts) :
    Ends NoError (Op.abortSendingData.call (device traffic) c w)
      (Follows c.bitCountPerChar g .abortSendingData) := by
  refine Halt.ends_ofLoop ?_
  cases hleft : g.left with
  | some l =>
    refine (h.abortSendingData hp.registered hc (by rw [hp.txBusy_eq, hleft]; rfl)
      hp.flagged.tc_eq).mono ?_
    rintro _ ⟨w', rfl, h'⟩
    refine ⟨_, rfl, _, .abortSending (Option.ne_none_iff_exists'.2 ⟨l, hleft⟩), _, _, ?_, h'⟩
    exact { hp with
      txBusy_eq := rfl
      unsent_eq := fun _ hl => absurd hl (Option.not_mem_none _)
      tie_eq := any_switch x (by decide)
      transmitStatus_eq := rfl
      rie_eq := hp.rie_eq ▸ any_switch x (by decide) }
  | none =>
    have hidle : w.state.isTxBusy = false := by rw [h.state_eq, hp.txBusy_eq, hleft]; rfl
    rw [abortSendingData, World.devAssert_of (hp.registered_of h)]
    refine ends_ok_bind.2 ?_
    rw [hidle, if_neg Bool.false_ne_true, h.state_eq, hp.transmitStatus_eq]
    exact ends_pure ⟨_, rfl, follows_of_step hp h (.nothingToSend hleft)⟩

/-! ### Receptions -/

theorem Serial.ear_none (hroom : g.room = none) : g.ear = .closed := by
  rw [Serial.ear, hroom]
  rfl

theorem syncReceive_step (hp : Pictures g st x) (h : Sees st x g.ear g.heard w) {q : ReceiveCall}
    (hq : q.Valid) :
    Ends NoError ((Op.syncReceive q).call (device traffic) c w)
      (Follows c.bitCountPerChar g (.syncReceive q)) := by
  refine Halt.ends_ofLoop ?_
  cases hroom : g.room with
  | some k =>
    have hbusy : w.state.isRxBusy = true := by rw [h.state_eq, hp.rxBusy_eq, hroom]; rfl
    have hne : g.room ≠ none := Option.ne_none_iff_exists'.2 ⟨k, hroom⟩
    exact ends_busy (b := StateStructure.isRxBusy) hq.size_pos (hp.registered_of h) hbusy
      ⟨_, rfl, follows_of_step hp h (.receiveBusy trivial hne)⟩
  | none =>
    refine (h.syncReceive hp.registered (by rw [hp.rxBusy_eq, hroom]; rfl)
      hp.flagged.noErrors hq).mono ?_
    rintro _ ⟨status, w', as, stale, d, st', rfl, hresult, h'⟩
    have hst : (st.receiving q.rxBuff q.rxSize).Receivable :=
      ⟨(Nat.zero_add _).trans_le hq.size_le, hq.size_lt⟩
    have hfills := hresult.stores.fills hst
    -- But for the buffer, the state structure is that of the start.
    obtain ⟨rxBuff, rxIndex, rxSize, rfl⟩ : ∃ rxBuff rxIndex rxSize, st' =
        { st.receiving q.rxBuff q.rxSize with
          rxBuff := rxBuff, rxIndex := rxIndex, rxSize := rxSize } :=
      ⟨_, _, _, hresult.stores.eq⟩
    rw [← Serial.ear_none hroom] at h'
    refine ⟨_, rfl, _, .syncReceive hroom hfills hresult.stale_le hresult.dropped_le
      hresult.stored hresult.status_eq, _, _, ?_, h'⟩
    exact { hp with
      tie_eq := hp.tie_eq ▸ any_switch x (by decide)
      rxBusy_eq := by rw [hroom]; rfl
      room_eq := by rw [hroom]; exact fun _ hk => absurd hk (Option.not_mem_none _)
      filled_eq := rfl
      rie_eq := by rw [hroom]; exact any_switch x (by decide)
      receiveStatus_eq := rfl }

theorem asyncReceive_step (hp : Pictures g st x) (h : Sees st x g.ear g.heard w)
    (hc : c.transferType = .usingInterrupts) {rxBuff : List (BitVec 8)} {rxSize : ℕ}
    (hvalid : (Op.asyncReceive rxBuff rxSize).Valid) :
    Ends NoError ((Op.asyncReceive rxBuff rxSize).call (device traffic) c w)
      (Follows c.bitCountPerChar g (.asyncReceive rxBuff rxSize)) := by
  obtain ⟨hpos, hle, hlt⟩ := hvalid
  refine Halt.ends_ofStop ?_
  cases hroom : g.room with
  | some k =>
    have hbusy : w.state.isRxBusy = true := by rw [h.state_eq, hp.rxBusy_eq, hroom]; rfl
    have hne : g.room ≠ none := Option.ne_none_iff_exists'.2 ⟨k, hroom⟩
    exact ends_busy (b := StateStructure.isRxBusy) hpos (hp.registered_of h) hbusy
      (follows_of_step hp h (.receiveBusy trivial hne))
  | none =>
    rw [Serial.ear_none hroom] at h
    refine (h.asyncReceive hp.registered (by rw [hp.rxBusy_eq, hroom]; rfl) hc hpos).mono ?_
    rintro ⟨_, w'⟩ ⟨rfl, h'⟩
    refine ⟨_, .asyncReceive hroom, _, _, ?_, h'⟩
    exact { hp with
      flagged := hp.flagged.clearingErrors
      tie_eq := hp.tie_eq ▸ any_switch x.clearingErrors (by decide)
      rxBusy_eq := rfl
      room_eq := by
        rintro _ ⟨⟩
        exact ⟨hpos, hlt, rfl, (Nat.zero_add _).trans_le hle, rfl⟩
      filled_eq := rfl
      rie_eq := any_switch x.clearingErrors (by decide)
      receiveStatus_eq := rfl }

theorem abortReceivingData_step (hp : Pictures g st x) (h : Sees st x g.ear g.heard w)
    (hc : c.transferType = .usingInterrupts) :
    Ends NoError (Op.abortReceivingData.call (device traffic) c w)
      (Follows c.bitCountPerChar g .abortReceivingData) := by
  refine Halt.ends_ofLoop ?_
  cases hroom : g.room with
  | some k =>
    refine (h.listening.abortReceivingData hp.registered hc
      (by rw [hp.rxBusy_eq, hroom]; rfl)).mono ?_
    rintro _ ⟨w', d, rfl, hd, h'⟩
    refine ⟨_, rfl, _, .abortReceiving (Option.ne_none_iff_exists'.2 ⟨k, hroom⟩) hd, _, _,
      ?_, h'⟩
    exact { hp with
      flagged := Flagged.clearingErrors (x := x.stopReceiving) hp.flagged
      tie_eq := hp.tie_eq ▸ any_switch x (by decide)
      rxBusy_eq := rfl
      room_eq := fun _ hk => absurd hk (Option.not_mem_none _)
      rie_eq := any_switch x (by decide)
      receiveStatus_eq := rfl }
  | none =>
    have hidle : w.state.isRxBusy = false := by rw [h.state_eq, hp.rxBusy_eq, hroom]; rfl
    rw [abortReceivingData, World.devAssert_of (hp.registered_of h)]
    refine ends_ok_bind.2 ?_
    rw [hidle, if_neg Bool.false_ne_true, h.state_eq, hp.receiveStatus_eq]
    exact ends_pure ⟨_, rfl, follows_of_step hp h (.nothingToReceive hroom)⟩

theorem deinit_step (hp : Pictures g st x) (h : Sees st x g.ear g.heard w) :
    Ends NoError (Op.deinit.call (device traffic) c w) (Follows c.bitCountPerChar g .deinit) := by
  refine Halt.ends_ofStop ?_
  rw [deinit, World.devAssert_of (hp.registered_of h)]
  refine ends_ok_bind.2 ?_
  rw [if_pos (checkTimeout_zero _)]
  exact ends_pure (follows_of_step hp h .deinit)

/-! ### Interrupts -/

theorem Pictures.serviceable (hp : Pictures g st x) : g.ear = .closed ∨ Serviceable st x := by
  cases hroom : g.room with
  | none => exact .inl (Serial.ear_none hroom)
  | some k =>
    obtain ⟨hpos, hlt, rfl, hfits, -⟩ := hp.room_eq k hroom
    exact .inr ⟨by rw [hp.rie_eq, hroom]; rfl, ⟨hfits, hlt⟩, hpos⟩

theorem Pictures.sendable (hp : Pictures g st x) {l : List (BitVec 8)} (hleft : g.left = some l) :
    st.Sendable :=
  have ⟨hle, hlt, _⟩ := hp.unsent_eq l hleft
  ⟨hle, hlt⟩

/-- The end of the handler, when there is nothing to be sent. -/
theorem Sees.irqEnd {e : Ear} {l : List (BitVec 8)} (h : Sees st x e l w) (isReturn : Bool)
    (hoff : isReturn = true ∨ Bits.any x.flags statTdre = false ∨ Bits.any x.cr ctrlTie = false)
    (htc : Bits.any x.flags statTc = false) :
    Ends NoError (do
      let (isReturn, w) ← LpuartUartIp.irqTransmit (device traffic) c isReturn w
      LpuartUartIp.irqComplete (device traffic) c isReturn w)
      fun r => ∃ w', r = some w' ∧ Sees st x e l w' :=
  (h.irqTransmit_off isReturn hoff).bind fun a ha => Sees.irqComplete ha htc a.1

/-- A character has been received, and there is room for another one. -/
theorem Pictures.irqReceive (hp : Pictures g st x) {n : BitCountPerChar} {a : BitVec 8}
    {st' : StateStructure} {k : ℕ} (hroom : g.room = some k) (hstores : Stores n st [a] st')
    (hne : st'.rxSize ≠ 0) :
    Pictures { g with heard := g.heard ++ [a], stored := st'.filled, room := some st'.rxSize }
      st' x := by
  obtain ⟨hpos, hlt, rfl, hfits, hstatus⟩ := hp.room_eq k hroom
  have hst' := hstores.receivable ⟨hfits, hlt⟩
  obtain ⟨rxBuff, rxIndex, rxSize, rfl⟩ : ∃ rxBuff rxIndex rxSize, st' =
      { st with rxBuff := rxBuff, rxIndex := rxIndex, rxSize := rxSize } :=
    ⟨_, _, _, hstores.eq⟩
  have hbusy : g.room.isSome = true := by rw [hroom]; rfl
  exact { hp with
    rxBusy_eq := hp.rxBusy_eq.trans hbusy
    room_eq := by
      rintro _ ⟨⟩
      exact ⟨Nat.pos_of_ne_zero hne, hst'.size_lt, rfl, hst'.fits, hstatus⟩
    filled_eq := rfl
    rie_eq := hp.rie_eq.trans hbusy }

/-- The last character has been received. -/
theorem Pictures.irqReceiveLast (hp : Pictures g st x) {n : BitCountPerChar} {a : BitVec 8}
    {st' : StateStructure} {k : ℕ} (hroom : g.room = some k) (hstores : Stores n st [a] st')
    (d : List (BitVec 8)) :
    Pictures
      { g with
        heard := g.heard ++ [a] ++ d, stored := st'.filled, room := none
        receiveStatus := .success }
      { st' with isRxBusy := false, receiveStatus := completedStatus st'.receiveStatus }
      x.stopReceiving := by
  obtain ⟨-, -, -, -, hstatus⟩ := hp.room_eq k hroom
  obtain ⟨rxBuff, rxIndex, rxSize, rfl⟩ : ∃ rxBuff rxIndex rxSize, st' =
      { st with rxBuff := rxBuff, rxIndex := rxIndex, rxSize := rxSize } :=
    ⟨_, _, _, hstores.eq⟩
  exact { hp with
    tie_eq := hp.tie_eq ▸ any_switch x (by decide)
    rxBusy_eq := rfl
    room_eq := fun _ hk => absurd hk (Option.not_mem_none _)
    filled_eq := rfl
    rie_eq := any_switch x (by decide)
    receiveStatus_eq := congrArg completedStatus (hp.receiveStatus_eq.trans hstatus) }

theorem charTaken_eq (st : StateStructure) (n : BitCountPerChar) :
    st.charTaken n = st.charsTaken n 1 := by
  rw [StateStructure.charsTaken, Nat.mul_one]
  rfl

/-- A character has been sent. -/
theorem Pictures.irqSend (hp : Pictures g st x) (n : BitCountPerChar) {a : BitVec 8}
    {l : List (BitVec 8)} (hleft : g.left = some (a :: l)) (hready : g.ready = true) :
    Pictures { g with sent := g.sent ++ [a], left := some ((a :: l).drop (charBytes n)) }
      (st.charTaken n) (x.serving a (decide ((st.charTaken n).txSize = 0))) := by
  have hst' : (st.charTaken n).Sendable := by
    rw [charTaken_eq]
    exact sendable_charsTaken (hp.sendable hleft) n 1
  have hunsent : (st.charTaken n).unsent = (a :: l).drop (charBytes n) := by
    rw [charTaken_eq, unsent_charsTaken, Nat.mul_one, (hp.unsent_eq _ hleft).2.2]
  -- The handler clears `TIE` when it finds nothing left.
  have hlast : decide ((st.charTaken n).txSize = 0) = ((a :: l).drop (charBytes n)).isEmpty := by
    rw [← hunsent, Bool.eq_iff_iff, decide_eq_true_iff, List.isEmpty_iff, unsent_eq_nil_iff hst']
  have htie : Bits.any x.cr ctrlTie = true := by rw [hp.tie_eq, Serial.pending, hleft]; rfl
  have hserving : ∀ last, (x.serving a last).flags = x.flags ||| statTdre ∧
      (x.serving a last).sent = x.sent ++ [a] := fun last => by cases last <;> exact ⟨rfl, rfl⟩
  exact { hp with
    flagged := by
      rw [(hserving _).1]
      exact hready.symm ▸ hp.flagged.sending
    sent_eq := by rw [(hserving _).2, hp.sent_eq]
    txBusy_eq := hp.txBusy_eq.trans (by rw [hleft]; rfl)
    unsent_eq := by
      rintro _ ⟨⟩
      exact ⟨hst'.size_le, hst'.size_lt, hunsent⟩
    tie_eq := by rw [tie_serving, hlast, htie, Bool.and_true]; rfl
    rie_eq := (rie_serving a _).trans hp.rie_eq }

/-- The handler, when it has received nothing. -/
theorem irqHandler_transmit (hp : Pictures g st x) (h : Sees st x g.ear g.heard w)
    (hc : c.callback = none) :
    Ends NoError (do
      let (isReturn, w) ← irqTransmit (device traffic) c false w
      irqComplete (device traffic) c isReturn w)
      fun r => ∃ w', r = some w' ∧ Follows c.bitCountPerChar g .irqHandler (.success, w') := by
  by_cases hsend : g.ready = true ∧ ∃ a l, g.left = some (a :: l)
  · obtain ⟨hready, a, l, hleft⟩ := hsend
    have hp' := hp.irqSend c.bitCountPerChar hleft hready
    have htie : Bits.any x.cr ctrlTie = true := by rw [hp.tie_eq, Serial.pending, hleft]; rfl
    refine (h.irqTransmit_on hc (hp.flagged.tdre_eq.trans hready) htie (hp.sendable hleft)
      (hp.unsent_eq _ hleft).2.2).bind fun r hr => ?_
    refine (Sees.irqComplete hr hp'.flagged.tc_eq r.1).mono ?_
    rintro _ ⟨w', rfl, h'⟩
    exact ⟨w', rfl, _, .irqSend hleft hready, _, _, hp', h'⟩
  · -- Either `TDRE` is clear, or `TIE` is.
    have hoff : g.ready = false ∨ ∀ l ∈ g.left, l = [] := by
      refine (Bool.eq_false_or_eq_true g.ready).symm.imp_right fun hready l hl => ?_
      cases l with
      | nil => rfl
      | cons a l => exact absurd ⟨hready, a, l, hl⟩ hsend
    have htie : (∀ l ∈ g.left, l = []) → Bits.any x.cr ctrlTie = false := by
      intro hnil
      rw [hp.tie_eq, Serial.pending]
      cases hleft : g.left with
      | none => rfl
      | some l => rw [hnil l hleft]; rfl
    refine (h.irqEnd false (.inr (hoff.imp hp.flagged.tdre_eq.trans htie))
      hp.flagged.tc_eq).mono ?_
    rintro _ ⟨w', rfl, h'⟩
    exact ⟨w', rfl, follows_of_step hp h' (.irqNothing hoff)⟩

theorem irqHandler_step (hp : Pictures g st x) (h : Sees st x g.ear g.heard w)
    (hc : c.callback = none) :
    Ends NoError (Op.irqHandler.call (device traffic) c w)
      (Follows c.bitCountPerChar g .irqHandler) := by
  refine ends_map (Halt.ends_ofLoop ?_)
  rw [irqHandler, if_pos (hp.registered_of h)]
  refine (h.errIrqHandler hp.flagged.noErrors).bind ?_
  rintro _ ⟨w₁, rfl, h₁⟩
  refine (h₁.irqReceive hc hp.serviceable).bind ?_
  rintro _ ⟨isReturn, w₂, rfl, ⟨rfl, hopen, a, st', hstores, hreceived⟩ | ⟨rfl, h₂⟩⟩
  · -- A handler that has received a character does not send one.
    obtain ⟨k, hroom⟩ : ∃ k, g.room = some k :=
      Option.ne_none_iff_exists'.1 fun hroom => hopen (Serial.ear_none hroom)
    obtain ⟨-, hlt, hsize, hfits, -⟩ := hp.room_eq k hroom
    have hfills := hstores.fills ⟨hfits, by rw [hsize]; exact hlt⟩
    rw [hp.filled_eq, hsize] at hfills
    rcases hreceived with ⟨hne, h₂⟩ | ⟨hzero, d, hd, h₂⟩
    · refine (h₂.irqEnd true (.inl rfl) hp.flagged.tc_eq).mono ?_
      rintro _ ⟨w', rfl, h'⟩
      exact ⟨w', rfl, _, .irqReceive hroom hfills hne, _, _, hp.irqReceive hroom hstores hne, h'⟩
    · refine (h₂.irqEnd true (.inl rfl) hp.flagged.tc_eq).mono ?_
      rintro _ ⟨w', rfl, h'⟩
      rw [hzero] at hfills
      exact ⟨w', rfl, _, .irqReceiveLast hroom hfills hd, _, _,
        hp.irqReceiveLast hroom hstores d, h'⟩
  · exact irqHandler_transmit hp h₂ hc

/-- A call, from a state that represents a serial line, is a step of it. -/
theorem Represents.call (h : Represents g w) (htype : c.transferType = .usingInterrupts)
    (hcallback : c.callback = none) {o : Op} (ho : o.Valid) :
    Ends NoError (o.call (device traffic) c w) (Follows c.bitCountPerChar g o) := by
  obtain ⟨st, x, hp, hsees⟩ := h
  cases o with
  | syncSend q => exact syncSend_step hp hsees ho
  | asyncSend txBuff txSize => exact asyncSend_step hp hsees htype ho
  | abortSendingData => exact abortSendingData_step hp hsees htype
  | syncReceive q => exact syncReceive_step hp hsees ho
  | asyncReceive rxBuff rxSize => exact asyncReceive_step hp hsees htype ho
  | abortReceivingData => exact abortReceivingData_step hp hsees htype
  | deinit => exact deinit_step hp hsees
  | irqHandler => exact irqHandler_step hp hsees hcallback

theorem Represents.run (h : Represents g w) (traffic : ℕ → Traffic)
    (htype : c.transferType = .usingInterrupts) (hcallback : c.callback = none) {os : List Op}
    (hos : ∀ o ∈ os, o.Valid) :
    ∃ τs w' g', LpuartUartIp.run (device traffic) c w os = .ok (τs, w') ∧
      Mealy.Path (Serial.Step c.bitCountPerChar) g (τs.map fun τ => (τ.input, τ.output)) g' ∧
      Represents g' w' := by
  refine Mealy.run_path (fun g w o hw ho => ?_) h hos
  obtain ⟨⟨status, w'⟩, hcall, g', hstep, h'⟩ :=
    ends_noError_iff.1 (hw.call htype hcallback ho)
  exact ⟨status, w', g', hcall, hstep, h'⟩

/-- What an application sees of a serial line. -/
theorem Represents.status (h : Represents g w) (htype : c.transferType = .usingInterrupts) :
    (getTransmitStatus c w : Except (Stop Empty) _) =
        .ok (g.transmitStatus, some (g.left.elim 0 List.length)) ∧
      (getReceiveStatus c w : Except (Stop Empty) _) =
        .ok (g.receiveStatus, some (g.room.getD 0)) := by
  obtain ⟨st, x, hp, hsees⟩ := h
  have hstate := hsees.state_eq
  have hreg : w.state.registered = true := hstate ▸ hp.registered
  constructor
  · rw [getTransmitStatus, World.devAssert_of hreg]
    refine congrArg Except.ok (Prod.ext ?_ ?_)
    · exact (congrArg StateStructure.transmitStatus hstate).trans hp.transmitStatus_eq
    · dsimp only
      rw [if_pos htype, hstate, hp.txBusy_eq]
      cases hleft : g.left with
      | none => rfl
      | some l =>
        obtain ⟨hle, -, hl⟩ := hp.unsent_eq l hleft
        rw [Option.elim_some, ← hl, StateStructure.unsent, List.length_take, Nat.min_eq_left hle]
        rfl
  · rw [getReceiveStatus, World.devAssert_of hreg]
    refine congrArg Except.ok (Prod.ext ?_ ?_)
    · exact (congrArg StateStructure.receiveStatus hstate).trans hp.receiveStatus_eq
    · dsimp only
      rw [if_pos htype, hstate, hp.rxBusy_eq]
      cases hroom : g.room with
      | none => rfl
      | some k =>
        obtain ⟨-, -, hsize, -⟩ := hp.room_eq k hroom
        rw [Option.getD_some, ← hsize]
        rfl

end Calls

end S32K358.LpuartUartIp
