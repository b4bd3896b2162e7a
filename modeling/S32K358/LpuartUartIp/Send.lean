import S32K358.LpuartUartIp.BaudRate

/-!
# Sending by polling

`Lpuart_Uart_Ip_SyncSend` on the device, whatever the backend has for the receiver meanwhile
(`Shows.syncSend`): the characters of the buffer are sent in their order, each exactly once,
but no more of them than the timeout has ticks, less one. The driver reports a timeout even
if the last character has been sent with the last tick but one.

The device sends eight bits of a character, so of a buffer with characters of nine or ten
bits it sends every other byte (`wire`).
-/

namespace S32K358.LpuartUartIp

open Program Port OsIf
open Lpuart (passed)

/-! ## Characters -/

/-- The number of bytes that a character has in a buffer. -/
def charBytes : BitCountPerChar → ℕ
  | .seven | .eight => 1
  | .nine | .ten => 2

/-- The lower bytes of characters of two bytes, the last of which may have only one. -/
def lowBytes : List (BitVec 8) → List (BitVec 8)
  | [] => []
  | [a] => [a]
  | a :: _ :: l => a :: lowBytes l

/-- What the device sends of a buffer. -/
def wire (n : BitCountPerChar) (l : List (BitVec 8)) : List (BitVec 8) :=
  if charBytes n = 1 then l else lowBytes l

theorem charBytes_eq (n : BitCountPerChar) :
    ((n = .seven ∨ n = .eight) ∧ charBytes n = 1) ∨
      (¬(n = .seven ∨ n = .eight) ∧ charBytes n = 2) := by
  cases n <;> simp [charBytes]

theorem wire_nil (n : BitCountPerChar) : wire n [] = [] := by
  rw [wire]
  exact ite_self _

theorem wire_cons (n : BitCountPerChar) (a : BitVec 8) (l : List (BitVec 8)) :
    wire n (a :: l) = a :: wire n ((a :: l).drop (charBytes n)) := by
  rcases charBytes_eq n with ⟨-, hn⟩ | ⟨-, hn⟩
  · simp only [wire, hn, if_true, List.drop_succ_cons, List.drop_zero]
  · simp only [wire, hn, OfNat.ofNat_ne_one, if_false, List.drop_succ_cons]
    cases l with
    | nil => rfl
    | cons b l => rfl

theorem wire_drop (n : BitCountPerChar) (k : ℕ) (l : List (BitVec 8)) :
    wire n (l.drop (charBytes n * k)) = (wire n l).drop k := by
  induction k generalizing l with
  | zero => rfl
  | succ k ih =>
    rw [Nat.mul_succ, Nat.add_comm, ← List.drop_drop, ih]
    cases l with
    | nil => simp only [List.drop_nil, wire_nil]
    | cons a l => rw [wire_cons n a l, List.drop_succ_cons]

/-! ## A character -/

variable {traffic : ℕ → Traffic} {st : StateStructure} {x : View} {w : World Bench}
  {c : UserConfig}

theorem uint32Sub_eq {a b : ℕ} (hb : b ≤ a) (ha : a < 2 ^ 32) : uint32Sub a b = a - b := by
  rw [uint32Sub, show a + 2 ^ 32 - b = a - b + 2 ^ 32 by omega, Nat.add_mod_right,
    Nat.mod_eq_of_lt (by omega)]

/-- What is to be sent is in the buffer. -/
structure StateStructure.Sendable (st : StateStructure) : Prop where
  size_le : st.txSize ≤ st.txBuff.length
  size_lt : st.txSize < 2 ^ 32

/-- What is left to be sent. -/
def StateStructure.unsent (st : StateStructure) : List (BitVec 8) := st.txBuff.take st.txSize

/-- A character is taken from the buffer. -/
def StateStructure.charTaken (st : StateStructure) (n : BitCountPerChar) : StateStructure :=
  { st with
    txBuff := st.txBuff.drop (min (charBytes n) st.txSize)
    txSize := st.txSize - min (charBytes n) st.txSize }

/-- A character is sent. -/
def View.sending (x : View) (ch : BitVec 8) : View :=
  { x with sent := x.sent ++ [ch], flags := x.flags ||| statTdre }

theorem Shows.decTxSize (h : Shows st x w) (k : ℕ) :
    Shows { st with txSize := uint32Sub st.txSize k } x (decTxSize k w) :=
  h.upd fun st => { st with txSize := uint32Sub st.txSize k }

theorem takeByte_eq {a : BitVec 8} {l : List (BitVec 8)} (h : w.state.txBuff = a :: l) :
    (takeByte w : Except (Stop Empty) _) = .ok (a, w.upd fun st => { st with txBuff := l }) := by
  rw [takeByte, h]
  rfl

theorem Shows.putchar (h : Shows st x w) (ch : BitVec 8) :
    Ends NoError (putchar (device traffic) ch w) (Shows st (x.sending ch)) := by
  have hlt : ch.setWidth 32 < 0xF000#32 := by
    rw [BitVec.lt_def, BitVec.toNat_setWidth]
    have := ch.isLt
    change _ < 0xF000
    omega
  have hch : (ch.setWidth 32).setWidth 8 = ch := by
    rw [BitVec.setWidth_setWidth_of_le _ (by decide), BitVec.setWidth_eq]
  refine (h.write .data (ch.setWidth 32)).mono fun w' hw' => ?_
  rw [View.written, if_pos hlt, hch] at hw'
  exact hw'

theorem clear_insert_dataBits {m v : BitVec 32} (hm : m &&& ~~~ctrlDataBits = 0#32)
    (hv : v &&& ~~~ctrlDataBits = 0#32) (u : BitVec 32) :
    insert m v u &&& ~~~ctrlDataBits = u &&& ~~~ctrlDataBits := by
  have hm' : ~~~m &&& ~~~ctrlDataBits = ~~~ctrlDataBits := by
    rw [← BitVec.not_or]
    congr 1
    exact Bits.or_eq_of_within hm
  rw [insert, BitVec.and_or_distrib_right, hv, BitVec.or_zero, BitVec.and_assoc, hm']

theorem bit_dataBits {m : BitVec 32} (hm : m &&& ~~~ctrlDataBits = 0#32) (enable : Bool) :
    bit m enable &&& ~~~ctrlDataBits = 0#32 := by
  cases enable with
  | true => exact hm
  | false => exact BitVec.zero_and

theorem Shows.putchar9 (h : Shows st x w) (data : BitVec 16) :
    Ends NoError (putchar9 (device traffic) data w) (Shows st (x.sending (data.setWidth 8))) := by
  have hr9t8 : ctrlR9t8 &&& ~~~ctrlDataBits = 0#32 := by decide
  refine (h.assignDataBits fun v => ?_).bind fun w' h' => h'.putchar _
  exact clear_insert_dataBits hr9t8 (bit_dataBits hr9t8 _) v

theorem Shows.putchar10 (h : Shows st x w) (data : BitVec 16) :
    Ends NoError (putchar10 (device traffic) data w) (Shows st (x.sending (data.setWidth 8))) := by
  have hr9t8 : ctrlR9t8 &&& ~~~ctrlDataBits = 0#32 := by decide
  have hr8t9 : ctrlR8t9 &&& ~~~ctrlDataBits = 0#32 := by decide
  refine (h.assignDataBits fun v => ?_).bind fun w' h' => h'.putchar _
  rw [clear_insert_dataBits hr8t9 (bit_dataBits hr8t9 _),
    clear_insert_dataBits hr9t8 (bit_dataBits hr9t8 _)]

/-- The lower byte of a character of two bytes. -/
theorem setWidth_data16 (low high : BitVec 8) :
    (low.setWidth 16 ||| high.setWidth 16 <<< 8).setWidth 8 = low := by
  apply BitVec.eq_of_getLsbD_eq
  intro i hi
  simp [hi]

/-- Two bytes, or the last one, are taken. -/
theorem takeData16_ends (h : Shows st x w) (hst : st.Sendable) {a : BitVec 8} {l : List (BitVec 8)}
    (hl : st.txBuff = a :: l) {n : BitCountPerChar} (hn : charBytes n = 2) (hpos : 0 < st.txSize) :
    Ends NoError (takeData16 w : Except (Stop Empty) _) fun r =>
      r.1.setWidth 8 = a ∧ Shows (st.charTaken n) x r.2 := by
  have hle := hst.size_le
  rw [takeData16, takeByte_eq (h.state_eq ▸ hl)]
  have hsize : (w.upd fun st => { st with txBuff := l }).state.txSize = st.txSize := by
    rw [World.upd_state, h.state_eq]
  refine ends_ok_bind.2 ?_
  dsimp only
  rw [hsize]
  by_cases hone : st.txSize = 1
  · rw [if_pos hone]
    refine ⟨BitVec.setWidth_setWidth_of_le _ (by decide) |>.trans (BitVec.setWidth_eq _), ?_⟩
    have hst' : st.charTaken n = { st with txBuff := l, txSize := uint32Sub st.txSize 1 } := by
      simp only [StateStructure.charTaken, hn, hone, hl]
      rfl
    rw [hst']
    exact (h.upd fun st => { st with txBuff := l }).decTxSize 1
  · obtain ⟨b, l', rfl⟩ : ∃ b l', l = b :: l' := by
      rw [hl] at hle
      rcases l with _ | ⟨b, l'⟩
      · simp only [List.length_singleton] at hle
        omega
      · exact ⟨b, l', rfl⟩
    rw [if_neg hone, takeByte_eq (w := w.upd fun st => { st with txBuff := b :: l' }) rfl]
    refine ⟨setWidth_data16 a b, ?_⟩
    have hst' : st.charTaken n = { st with txBuff := l', txSize := uint32Sub st.txSize 2 } := by
      have hmin : min (charBytes n) st.txSize = 2 := by omega
      simp only [StateStructure.charTaken, hmin, hl,
        uint32Sub_eq (show 2 ≤ st.txSize by omega) hst.size_lt]
      rfl
    rw [hst']
    exact ((h.upd fun st => { st with txBuff := b :: l' }).upd fun st =>
      { st with txBuff := l' }).decTxSize 2

/-- `Lpuart_Uart_Ip_PutData` sends the next character. -/
theorem Shows.putData (h : Shows st x w) (hst : st.Sendable) {a : BitVec 8} {l : List (BitVec 8)}
    (hl : st.unsent = a :: l) :
    Ends NoError (putData (device traffic) c w)
      (Shows (st.charTaken c.bitCountPerChar) (x.sending a)) := by
  obtain ⟨hpos, l', hl'⟩ : 0 < st.txSize ∧ ∃ l', st.txBuff = a :: l' := by
    rw [StateStructure.unsent] at hl
    rcases hs : st.txSize with _ | k
    · rw [hs] at hl
      exact absurd hl (by simp)
    · rw [hs] at hl
      rcases hb : st.txBuff with _ | ⟨b, l'⟩
      · rw [hb] at hl
        exact absurd hl (by simp)
      · rw [hb, List.take_succ_cons, List.cons.injEq] at hl
        exact ⟨Nat.succ_pos k, l', by rw [hl.1]⟩
  rw [LpuartUartIp.putData]
  rcases charBytes_eq c.bitCountPerChar with ⟨hc, hn⟩ | ⟨hc, hn⟩
  · rw [if_pos hc, takeByte_eq (h.state_eq ▸ hl')]
    have hst' : st.charTaken c.bitCountPerChar =
        { st with txBuff := l', txSize := uint32Sub st.txSize 1 } := by
      have hmin : min (charBytes c.bitCountPerChar) st.txSize = 1 := by omega
      simp only [StateStructure.charTaken, hmin, hl', uint32Sub_eq hpos hst.size_lt]
      rfl
    rw [hst']
    exact ((h.upd fun st => { st with txBuff := l' }).decTxSize 1).putchar a
  · rw [if_neg hc]
    refine (takeData16_ends h hst hl' hn hpos).bind ?_
    rintro ⟨data, w'⟩ ⟨rfl, h'⟩
    dsimp only
    split_ifs
    · exact h'.putchar9 data
    · exact h'.putchar10 data

/-! ## The loop -/

/-- Some characters are sent. -/
def View.sendingAll (x : View) (l : List (BitVec 8)) : View := l.foldl View.sending x

theorem sendingAll_snoc (x : View) (l : List (BitVec 8)) (a : BitVec 8) :
    x.sendingAll (l ++ [a]) = (x.sendingAll l).sending a := by
  rw [View.sendingAll, List.foldl_append]
  rfl

/-- The characters are on the line, and the transmitter is ready for more. -/
theorem sendingAll_eq (x : View) (l : List (BitVec 8)) : x.sendingAll l =
    { x with sent := x.sent ++ l, flags := if l = [] then x.flags else x.flags ||| statTdre } := by
  induction l using List.reverseRecOn with
  | nil => exact View.ext rfl rfl rfl rfl (List.append_nil _).symm rfl
  | append_singleton l a ih =>
    rw [sendingAll_snoc, ih]
    refine View.ext rfl rfl rfl ?_ (List.append_assoc _ _ _) rfl
    rw [if_neg (List.concat_ne_nil a l)]
    change (if l = [] then x.flags else x.flags ||| statTdre) ||| statTdre = x.flags ||| statTdre
    split_ifs
    · rfl
    · rw [BitVec.or_assoc, BitVec.or_self]

/-- A flag that is set is not waited for. -/
theorem Shows.awaitFlag (h : Shows st x w) {m : BitVec 32} (hm : statRdrf &&& m = 0#32)
    (hset : Bits.any x.flags m = true) (timeoutTicks elapsedTicks : ℕ) :
    Ends NoError (awaitFlag (device traffic) m timeoutTicks elapsedTicks w) fun r =>
      ∃ s, r = some s ∧ s.2 = elapsedTicks ∧ Shows st x s.1 := by
  refine Loop.run_ends (I := fun s => s.2 = elapsedTicks ∧ Shows st x s.1) (fun _ => 0) ?_ ⟨rfl, h⟩
    (Nat.succ_pos _)
  rintro ⟨w', e⟩ ⟨rfl, h'⟩
  refine (h'.getStatusFlag hm).bind ?_
  rintro ⟨set, w''⟩ ⟨rfl, h''⟩
  rw [hset]
  exact ⟨rfl, h''⟩

/-- Some characters are taken from the buffer. -/
def StateStructure.charsTaken (st : StateStructure) (n : BitCountPerChar) (k : ℕ) :
    StateStructure :=
  { st with
    txBuff := st.txBuff.drop (min (charBytes n * k) st.txSize)
    txSize := st.txSize - min (charBytes n * k) st.txSize }

theorem charTaken_charsTaken (st : StateStructure) (n : BitCountPerChar) (k : ℕ) :
    (st.charsTaken n k).charTaken n = st.charsTaken n (k + 1) := by
  have hmin : min (charBytes n * k) st.txSize +
      min (charBytes n) (st.txSize - min (charBytes n * k) st.txSize) =
        min (charBytes n * (k + 1)) st.txSize := by
    rw [Nat.mul_succ]
    omega
  simp only [StateStructure.charsTaken, StateStructure.charTaken, List.drop_drop, hmin,
    Nat.sub_sub]

theorem sendable_charsTaken (hst : st.Sendable) (n : BitCountPerChar) (k : ℕ) :
    (st.charsTaken n k).Sendable where
  size_le := by
    have := hst.size_le
    simp only [StateStructure.charsTaken, List.length_drop]
    omega
  size_lt := Nat.lt_of_le_of_lt (Nat.sub_le _ _) hst.size_lt

theorem unsent_charsTaken (st : StateStructure) (n : BitCountPerChar) (k : ℕ) :
    (st.charsTaken n k).unsent = st.unsent.drop (charBytes n * k) := by
  simp only [StateStructure.unsent, StateStructure.charsTaken, List.drop_take]
  rcases Nat.le_total (charBytes n * k) st.txSize with hle | hle
  · rw [Nat.min_eq_left hle]
  · rw [Nat.min_eq_right hle, Nat.sub_self, Nat.sub_eq_zero_of_le hle,
      List.take_zero, List.take_zero]

/-- The characters still to be sent. -/
theorem wire_unsent_charsTaken (st : StateStructure) (n : BitCountPerChar) (k : ℕ) :
    wire n (st.charsTaken n k).unsent = (wire n st.unsent).drop k := by
  rw [unsent_charsTaken, wire_drop]

/-- In the loop of `Lpuart_Uart_Ip_SyncSend`, `k` characters have been sent, in as many ticks. -/
structure Sending (c : UserConfig) (st : StateStructure) (x : View) (timeoutTicks k : ℕ)
    (s : World Bench × ℕ) : Prop where
  elapsed_eq : s.2 = k
  in_time : k < timeoutTicks ∨ k = 0
  le_length : k ≤ (wire c.bitCountPerChar st.unsent).length
  shows : Shows (st.charsTaken c.bitCountPerChar k)
    (x.sendingAll ((wire c.bitCountPerChar st.unsent).take k)) s.1

/-- The number of characters for which there is time. -/
def charsInTime (l : List (BitVec 8)) (timeoutTicks : ℕ) : ℕ := min l.length (timeoutTicks - 1)

/-- The loop is left: as many characters have been sent as there is time for, and whether
    the time is out is decided. -/
structure Sent (c : UserConfig) (st : StateStructure) (x : View) (timeoutTicks : ℕ)
    (s : World Bench × ℕ) : Prop where
  out_eq : (checkTimeout timeoutTicks s.2).1 =
    !decide ((wire c.bitCountPerChar st.unsent).length + 1 < timeoutTicks)
  shows : Shows
    (st.charsTaken c.bitCountPerChar (charsInTime (wire c.bitCountPerChar st.unsent) timeoutTicks))
    (x.sendingAll ((wire c.bitCountPerChar st.unsent).take
      (charsInTime (wire c.bitCountPerChar st.unsent) timeoutTicks))) s.1

theorem unsent_eq_nil_iff (hst : st.Sendable) : st.unsent = [] ↔ st.txSize = 0 := by
  have := hst.size_le
  rw [StateStructure.unsent, ← List.length_eq_zero_iff, List.length_take]
  omega

theorem wire_eq_nil_iff (n : BitCountPerChar) (l : List (BitVec 8)) : wire n l = [] ↔ l = [] := by
  cases l with
  | nil => simp only [wire_nil]
  | cons a l => simp only [wire_cons, reduceCtorEq]

theorem checkTimeout_eq {timeoutTicks e : ℕ} (he : e + 1 < 2 ^ 32) :
    checkTimeout timeoutTicks e = (decide (e + 1 ≥ timeoutTicks), e + 1) := by
  rw [checkTimeout, getElapsed, Nat.mod_eq_of_lt he]

variable {timeoutTicks k : ℕ} {s : World Bench × ℕ}

theorem Sending.pass (hst : st.Sendable) (htime : timeoutTicks + 1 < 2 ^ 32)
    (hs : Sending c st x timeoutTicks k s) :
    Ends NoError (sendPass (device traffic) c timeoutTicks s)
      (Loop.After (fun s => ∃ k, Sending c st x timeoutTicks k s)
        (fun r => ∃ s, r = some s ∧ Sent c st x timeoutTicks s)
        (fun s => timeoutTicks - s.2) s) := by
  obtain ⟨w, e⟩ := s
  obtain ⟨he, hin, hle, hshows⟩ := hs
  obtain rfl : e = k := he
  have hsize : w.state.txSize = (st.charsTaken c.bitCountPerChar e).txSize := by
    rw [hshows.state_eq]
  have hunsent := wire_unsent_charsTaken st c.bitCountPerChar e
  have hsendable := sendable_charsTaken hst c.bitCountPerChar e
  rw [sendPass, hsize, checkTimeout_eq (by omega)]
  by_cases hdone : (st.charsTaken c.bitCountPerChar e).txSize = 0
  · -- All characters have been sent.
    rw [if_pos hdone]
    rw [(unsent_eq_nil_iff hsendable).2 hdone, wire_nil, eq_comm, List.drop_eq_nil_iff] at hunsent
    have hall : charsInTime (wire c.bitCountPerChar st.unsent) timeoutTicks = e := by
      rw [charsInTime]
      omega
    refine ⟨(w, e), rfl, ?_, hall ▸ hshows⟩
    rw [checkTimeout_eq (by omega), ← decide_not, decide_eq_decide]
    omega
  · have hne : wire c.bitCountPerChar (st.charsTaken c.bitCountPerChar e).unsent ≠ [] :=
      fun hnil => hdone ((unsent_eq_nil_iff hsendable).1 ((wire_eq_nil_iff _ _).1 hnil))
    have hlt : e < (wire c.bitCountPerChar st.unsent).length := by
      rw [hunsent, Ne, List.drop_eq_nil_iff] at hne
      omega
    rw [if_neg hdone]
    dsimp only
    by_cases hout : e + 1 ≥ timeoutTicks
    · -- The time is out.
      have hsome : charsInTime (wire c.bitCountPerChar st.unsent) timeoutTicks = e := by
        rw [charsInTime]
        omega
      rw [decide_eq_true hout, if_pos rfl]
      refine ⟨(w, e + 1), rfl, ?_, hsome ▸ hshows⟩
      rw [checkTimeout_eq (by omega), ← decide_not, decide_eq_decide]
      omega
    · rw [decide_eq_false hout, if_neg Bool.false_ne_true]
      obtain ⟨a, l, hl⟩ := List.exists_cons_of_ne_nil fun hnil =>
        hdone ((unsent_eq_nil_iff hsendable).1 hnil)
      have ha : (wire c.bitCountPerChar st.unsent).take (e + 1) =
          (wire c.bitCountPerChar st.unsent).take e ++ [a] := by
        rw [hl, wire_cons] at hunsent
        rw [List.take_add_one, ← List.head?_drop, ← hunsent]
        rfl
      refine (hshows.putData hsendable hl).bind fun w₁ h₁ => ?_
      rw [charTaken_charsTaken, ← sendingAll_snoc, ← ha] at h₁
      have hset : Bits.any (x.sendingAll ((wire c.bitCountPerChar st.unsent).take (e + 1))).flags
          statTdre = true := by
        have htdre : Bits.any statTdre statTdre = true := by decide
        rw [ha, sendingAll_snoc]
        change Bits.any (_ ||| statTdre) statTdre = true
        rw [Bits.any_or_left, htdre, Bool.or_true]
      refine (h₁.awaitFlag (by decide) hset _ _).bind ?_
      rintro _ ⟨⟨w₂, e₂⟩, rfl, rfl, h₂⟩
      refine ends_pure ⟨⟨e + 1, rfl, .inl (by omega), hlt, h₂⟩, ?_⟩
      dsimp only
      omega

theorem Shows.sendLoop (h : Shows st x w) (hst : st.Sendable) (htime : timeoutTicks + 1 < 2 ^ 32) :
    Ends NoError (Loop.run (sendPass (device traffic) c timeoutTicks) (timeoutTicks + 2) (w, 0))
      fun r => ∃ s, r.join = some s ∧ Sent c st x timeoutTicks s := by
  have hstart : Sending c st x timeoutTicks 0 (w, 0) := by
    refine ⟨rfl, .inr rfl, Nat.zero_le _, ?_⟩
    have hzero : st.charsTaken c.bitCountPerChar 0 = st := by
      simp only [StateStructure.charsTaken, Nat.mul_zero, Nat.zero_min, List.drop_zero,
        Nat.sub_zero]
    rw [hzero]
    exact h
  have hrun : Ends NoError
      (Loop.run (sendPass (device traffic) c timeoutTicks) (timeoutTicks + 2) (w, 0)) _ :=
    Loop.run_ends (I := fun s => ∃ k, Sending c st x timeoutTicks k s)
      (fun s => timeoutTicks - s.2) (fun s ⟨_, hs⟩ => hs.pass hst htime) ⟨0, hstart⟩
      (show timeoutTicks - 0 < timeoutTicks + 2 by omega)
  refine hrun.mono ?_
  rintro _ ⟨_, rfl, s, rfl, hs⟩
  exact ⟨s, rfl, hs⟩

/-- The end of the call reports whether there was time, with a tick to spare, for all
    characters. -/
theorem Sent.sendEnd (hs : Sent c st x timeoutTicks s) :
    Ends NoError (sendEnd (device traffic) timeoutTicks s.2 s.1) fun r =>
      r.1 = (if (wire c.bitCountPerChar st.unsent).length + 1 < timeoutTicks then .success
        else .timeout) ∧
      Shows { st.charsTaken c.bitCountPerChar
            (charsInTime (wire c.bitCountPerChar st.unsent) timeoutTicks) with
          transmitStatus := r.1, isTxBusy := false }
        ((x.sendingAll ((wire c.bitCountPerChar st.unsent).take
          (charsInTime (wire c.bitCountPerChar st.unsent) timeoutTicks))).assign ctrlTe false)
            r.2 := by
  refine (hs.shows.assign (m := ctrlTe) (by decide) false).bind fun w₁ h₁ => ?_
  refine ends_pure ⟨?_, h₁.upd fun st => { st with transmitStatus := _, isTxBusy := false }⟩
  dsimp only
  rw [hs.out_eq]
  by_cases hin : (wire c.bitCountPerChar st.unsent).length + 1 < timeoutTicks <;> simp [hin]

/-! ## The call -/

/-- A call of `Lpuart_Uart_Ip_SyncSend`. -/
structure SendCall where
  txBuff : List (BitVec 8)
  txSize : ℕ
  timeout : ℕ
  deriving DecidableEq, Repr

namespace SendCall

/-- The call passes the assertions, the buffer is as large as it says, and the timeout leaves
    the counter a tick before it overflows. -/
structure Valid (q : SendCall) : Prop where
  size_pos : 0 < q.txSize
  size_le : q.txSize ≤ q.txBuff.length
  size_lt : q.txSize < 2 ^ 32
  timeout_lt : q.timeout + 1 < 2 ^ 32

/-- The characters of the buffer. -/
def chars (q : SendCall) (n : BitCountPerChar) : List (BitVec 8) := wire n (q.txBuff.take q.txSize)

/-- The characters that are sent. -/
def sentChars (q : SendCall) (n : BitCountPerChar) : List (BitVec 8) :=
  (q.chars n).take (q.timeout - 1)

/-- The status that is returned. -/
def status (q : SendCall) (n : BitCountPerChar) : StatusType :=
  if (q.chars n).length + 1 < q.timeout then .success else .timeout

/-- The state structure after the call. -/
def after (q : SendCall) (n : BitCountPerChar) (st : StateStructure) : StateStructure :=
  { st with
    txBuff := q.txBuff.drop (min (charBytes n * (q.sentChars n).length) q.txSize)
    txSize := q.txSize - min (charBytes n * (q.sentChars n).length) q.txSize
    isTxBusy := false
    transmitStatus := q.status n }

end SendCall

/-- The view after a call: the interrupts of the transmitter are disabled. -/
def View.afterSend (x : View) (l : List (BitVec 8)) : View :=
  ((((x.assign ctrlTie false).assign ctrlTcie false).assign ctrlTe true).sendingAll l).assign
    ctrlTe false

variable {q : SendCall}

theorem length_sentChars (q : SendCall) (n : BitCountPerChar) :
    (q.sentChars n).length = charsInTime (q.chars n) q.timeout := by
  rw [SendCall.sentChars, List.length_take, charsInTime, Nat.min_comm]

/-- `Lpuart_Uart_Ip_SyncSend` on the device. -/
theorem Shows.syncSend (h : Shows st x w) (hreg : st.registered = true)
    (hidle : st.isTxBusy = false)
    (hq : q.Valid) :
    Ends NoError (syncSend (device traffic) c q.txBuff q.txSize q.timeout w) fun r =>
      ∃ w', r = some (q.status c.bitCountPerChar, w') ∧
        Shows (q.after c.bitCountPerChar st) (x.afterSend (q.sentChars c.bitCountPerChar)) w' := by
  rw [LpuartUartIp.syncSend, World.devAssert_of hq.size_pos]
  refine ends_ok_bind.2 ?_
  rw [World.devAssert_of (by rw [h.state_eq, hreg])]
  refine ends_ok_bind.2 ?_
  rw [show w.state.isTxBusy = false by rw [h.state_eq, hidle], if_neg Bool.false_ne_true]
  refine ((h.upd fun st => { st with
    isTxBusy := true, txBuff := q.txBuff, txSize := q.txSize, transmitStatus := .busy }).assign
      (m := ctrlTie) (by decide) false).bind fun w₁ h₁ => ?_
  refine (h₁.assign (m := ctrlTcie) (by decide) false).bind fun w₂ h₂ => ?_
  refine (h₂.assign (m := ctrlTe) (by decide) true).bind fun w₃ h₃ => ?_
  refine (h₃.sendLoop (c := c) ⟨hq.size_le, hq.size_lt⟩ hq.timeout_lt).bind ?_
  rintro r ⟨⟨w₄, e⟩, hr, hs⟩
  rw [hr]
  have hchars : (q.chars c.bitCountPerChar).take
      (charsInTime (q.chars c.bitCountPerChar) q.timeout) =
      q.sentChars c.bitCountPerChar := by
    rw [SendCall.sentChars, charsInTime, Nat.min_comm, ← List.take_eq_take_min]
  have hend : Ends NoError (sendEnd (device traffic) q.timeout e w₄) _ := hs.sendEnd
  refine hend.bind ?_
  rintro ⟨status, w₅⟩ ⟨hstatus, h₅⟩
  obtain rfl : status = q.status c.bitCountPerChar := hstatus
  refine ends_pure ⟨w₅, rfl, ?_⟩
  rw [SendCall.after, View.afterSend, length_sentChars, ← hchars]
  exact h₅

/-! ## A session -/

section Session

variable {ε σ : Type} (p : Port Reg ε σ) (c : UserConfig)

/-- Calls of `Lpuart_Uart_Ip_SyncSend`, one after the other. -/
def runSends : List SendCall → World σ → Except (Port.Stop ε) (Option (List StatusType × World σ))
  | [], w => pure (some ([], w))
  | q :: qs, w => do
    match ← syncSend p c q.txBuff q.txSize q.timeout w with
    | none => pure none
    | some (status, w) => do
      let rest ← runSends qs w
      pure (rest.map fun (statuses, w) => (status :: statuses, w))

/-- The driver is initialised, and then called. -/
def sendSession (qs : List SendCall) (w : World σ) :
    Except (Port.Stop ε) (Option (List StatusType × World σ)) := do
  let w ← init p c w
  runSends p c qs w

end Session

theorem Shows.runSends {qs : List SendCall} (h : Shows st x w) (hreg : st.registered = true)
    (hidle : st.isTxBusy = false) (hqs : ∀ q ∈ qs, q.Valid) :
    Ends NoError (runSends (device traffic) c qs w) fun r => ∃ w' st' x',
      r = some (qs.map (·.status c.bitCountPerChar), w') ∧ Shows st' x' w' ∧
        x'.sent = x.sent ++ qs.flatMap (·.sentChars c.bitCountPerChar) ∧ x'.speed = x.speed := by
  induction qs generalizing st x w with
  | nil => exact ⟨w, st, x, rfl, h, (List.append_nil _).symm, rfl⟩
  | cons q qs ih =>
    have hcall : Ends NoError (LpuartUartIp.syncSend (device traffic) c
      q.txBuff q.txSize q.timeout w) _ :=
      h.syncSend hreg hidle (hqs q List.mem_cons_self)
    rw [LpuartUartIp.runSends]
    refine hcall.bind ?_
    rintro _ ⟨w₁, rfl, h₁⟩
    refine (ih h₁ hreg rfl fun q' hq' => hqs q' (List.mem_cons_of_mem q hq')).bind ?_
    rintro _ ⟨w₂, st₂, x₂, rfl, h₂, hsent, hspeed⟩
    refine ends_pure ⟨w₂, st₂, x₂, rfl, h₂, ?_, ?_⟩
    · rw [hsent, View.afterSend, sendingAll_eq, List.flatMap_cons, ← List.append_assoc]
      rfl
    · rw [hspeed, View.afterSend, sendingAll_eq]
      rfl

/-- **Sending by polling.** After the initialisation of the driver, whatever the state of the
    device was and whatever the backend has for the receiver meanwhile, a call of
    `Lpuart_Uart_Ip_SyncSend` with the timeout `t` sends the first `t - 1` characters of its
    buffer, in order and once each, and succeeds exactly if there are fewer. The backend gets
    the speed of the ratio and the divisor of the configuration. -/
theorem sendSession_device (w : World Bench) (traffic : ℕ → Traffic) (hq : w.hw.uart.calls = [])
    (hreg : w.state.registered = false) (c : UserConfig) (hc : c.Valid) (qs : List SendCall)
    (hqs : ∀ q ∈ qs, q.Valid) :
    ∃ w', sendSession (device traffic) c qs w =
        .ok (some (qs.map fun q =>
          if (q.chars c.bitCountPerChar).length + 1 < q.timeout then .success else .timeout, w')) ∧
      (view w'.hw).sent = (view w.hw).sent ++
        qs.flatMap (fun q => (q.chars c.bitCountPerChar).take (q.timeout - 1)) ∧
      (view w'.hw).speed = some (passed (w.hw.uart.clk /
        (ratioOf c.baudOverSamplingRatio * c.baudRateDivisor))) := by
  have h : Shows w.state (view w.hw) w := ⟨rfl, rfl, hq⟩
  have hsession : Ends NoError (sendSession (device traffic) c qs w) fun r => ∃ w',
      r = some (qs.map (·.status c.bitCountPerChar), w') ∧
      (view w'.hw).sent = (view w.hw).sent ++ qs.flatMap (·.sentChars c.bitCountPerChar) ∧
      (view w'.hw).speed = some (passed (w.hw.uart.clk /
        (ratioOf c.baudOverSamplingRatio * c.baudRateDivisor))) := by
    refine (h.init hreg hc).bind ?_
    rintro w₁ ⟨y, hy, h₁⟩
    refine (h₁.runSends rfl rfl hqs).mono ?_
    rintro _ ⟨w₂, st₂, x₂, rfl, h₂, hsent, hspeed⟩
    refine ⟨w₂, rfl, ?_, ?_⟩
    · rw [h₂.view_eq, hsent, hy.sent_eq]
    · rw [h₂.view_eq, hspeed, hy.speed_eq, hy.divides.speedOf_eq]
      rfl
  obtain ⟨_, hrun, w', rfl, hsent, hspeed⟩ := ends_noError_iff.1 hsession
  exact ⟨w', hrun, hsent, hspeed⟩

/-- The configuration of the demo, `Lpuart_Uart_Ip_xHwConfigPB_3`. -/
def xHwConfigPB3 : UserConfig where
  baudRate := 115942
  baudRateDivisor := 15
  baudOverSamplingRatio := 23
  parityMode := .disabled
  stopBitsCount := .one
  bitCountPerChar := .eight
  transferType := .usingInterrupts
  callback := none

theorem valid_xHwConfigPB3 : xHwConfigPB3.Valid where
  osr_le := by decide
  divisor := by decide
  parity := by decide

/-- Three bytes, with a timeout that lets two of them pass, and then with one that is not
    reported. -/
theorem sendSession_three : ∃ w',
    sendSession (device fun _ => ⟨[], []⟩) xHwConfigPB3
      [⟨[1#8, 2#8, 3#8], 3, 3⟩, ⟨[4#8, 5#8, 6#8], 3, 5⟩]
      ⟨{ StateStructure.cleared with registered := false }, .atPowerOn 40000000⟩ =
        .ok (some ([.timeout, .success], w')) ∧
    (view w'.hw).sent = [1#8, 2#8, 4#8, 5#8, 6#8] ∧ (view w'.hw).speed = some 115942 := by
  have hqs : ∀ q ∈ [(⟨[1#8, 2#8, 3#8], 3, 3⟩ : SendCall), ⟨[4#8, 5#8, 6#8], 3, 5⟩], q.Valid := by
    simp only [List.mem_cons, List.not_mem_nil, or_false, forall_eq_or_imp, forall_eq]
    exact ⟨⟨by decide, by decide, by decide, by decide⟩, by decide, by decide, by decide, by decide⟩
  exact sendSession_device ⟨{ StateStructure.cleared with registered := false },
    .atPowerOn 40000000⟩
    (fun _ => ⟨[], []⟩) rfl rfl xHwConfigPB3 valid_xHwConfigPB3 _ hqs

end S32K358.LpuartUartIp
