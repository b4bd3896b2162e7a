import S32K358.LpuartUartIp.Serial

/-!
# Sessions of the LPUART driver

An application initialises the driver and then calls it in any order, with interrupts between
the calls (`session`). The driver on the device refines a serial line (`session_refines`), from
which follows what becomes of a transmission by interrupts (`session_asyncSend`), of a
reception by interrupts (`session_asyncReceive`) and of a reception by polling on a silent line
(`session_syncReceive`).
-/

namespace S32K358.LpuartUartIp

open Program Port OsIf

/-- The driver is initialised, and then called. -/
def session {ε σ : Type} (p : Port Reg ε σ) (c : UserConfig) (os : List Op) (w : World σ) :
    Except (Halt ε) (List (Mealy.Transition (World σ) Op StatusType) × World σ) := do
  let w ← Halt.ofStop (init p c w)
  run p c w os

/-- Before the initialisation, the receiver is off and holds nothing, and no error is
    flagged. -/
structure AtRest (w : World Bench) : Prop where
  quiet : w.hw.uart.calls = []
  unregistered : w.state.registered = false
  closed : Ear.closed.Of w.hw.uart
  noErrors : (view w.hw).NoErrors

/-- A configuration with transfers by interrupts, and no callback. -/
structure UserConfig.ByInterrupts (c : UserConfig) : Prop extends c.Valid where
  transferType_eq : c.transferType = .usingInterrupts
  callback_eq : c.callback = none

/-- The serial line after the initialisation. -/
def Serial.start (sent heard : List (BitVec 8)) : Serial where
  sent := sent
  left := none
  ready := false
  transmitStatus := .success
  heard := heard
  stored := []
  room := none
  receiveStatus := .success

section Session

variable {c : UserConfig} {w : World Bench}

theorem flagged_init {flags : BitVec 32}
    (h : Bits.any flags (statOr ||| statNf ||| statFe ||| statPf) = false) :
    Flagged (flags &&& statRegFlagsMask) false where
  tdre_eq := by
    rw [statTdre, Bits.any_and_left _ _ (by decide)]
    exact Bool.and_false _
  tc_eq := by
    rw [statTc, Bits.any_and_left _ _ (by decide)]
    exact Bool.and_false _
  noErrors := Bits.any_and_eq_false h _

theorem AtRest.init (hw : AtRest w) (traffic : ℕ → Traffic) (hc : c.ByInterrupts) :
    Ends NoError (init (device traffic) c w)
      (Represents (.start (view w.hw).sent (heard w.hw.log))) := by
  have hshows : Shows w.state (view w.hw) w := ⟨rfl, rfl, hw.quiet⟩
  have hears : Hears .closed (heard w.hw.log) w.hw := ⟨hw.closed, rfl, hw.quiet⟩
  refine ((hshows.init hw.unregistered hc.toValid).and hears.init).mono ?_
  rintro w' ⟨⟨y, hy, h'⟩, hears'⟩
  refine ⟨_, y, ?_, { h', hears' with }⟩
  exact {
    registered := rfl
    flagged := hy.flags_eq ▸ flagged_init hw.noErrors
    sent_eq := hy.sent_eq
    txBusy_eq := rfl
    unsent_eq := fun _ hl => absurd hl (Option.not_mem_none _)
    tie_eq := hy.cr_within.any_eq_false (by decide)
    transmitStatus_eq := rfl
    rxBusy_eq := rfl
    room_eq := fun _ hk => absurd hk (Option.not_mem_none _)
    filled_eq := rfl
    rie_eq := hy.cr_within.any_eq_false (by decide)
    receiveStatus_eq := rfl }

/-- What represents a serial line, as the application and the backend see it. -/
theorem Represents.seen {g : Serial} (h : Represents g w) :
    (view w.hw).sent = g.sent ∧ heard w.hw.log = g.heard ∧ w.state.filled = g.stored := by
  obtain ⟨st, x, hp, hsees⟩ := h
  exact ⟨hsees.view_eq ▸ hp.sent_eq, hsees.heard_eq, hsees.state_eq ▸ hp.filled_eq⟩

/-- The demo, before the driver is initialised. -/
def demoAtPowerOn : World Bench :=
  ⟨{ StateStructure.cleared with registered := false }, .atPowerOn 40000000⟩

theorem atRest_demoAtPowerOn : AtRest demoAtPowerOn where
  quiet := rfl
  unregistered := rfl
  closed := ⟨by decide, by decide⟩
  noErrors := by decide

theorem byInterrupts_xHwConfigPB3 : xHwConfigPB3.ByInterrupts where
  toValid := valid_xHwConfigPB3
  transferType_eq := rfl
  callback_eq := rfl

/-- **The driver refines a serial line.** After the initialisation, whatever the application
    calls and whatever the backend has for the receiver meanwhile, every call returns, what the
    calls return is a path of a serial line, and the device, the buffers and the statuses are
    those of the end of the path. -/
theorem session_refines (w : World Bench) (hw : AtRest w) (traffic : ℕ → Traffic) (c : UserConfig)
    (hc : c.ByInterrupts) (os : List Op) (hos : ∀ o ∈ os, o.Valid) :
    ∃ h w' g, session (device traffic) c os w = .ok (h, w') ∧
      Mealy.Path (Serial.Step c.bitCountPerChar) (.start (view w.hw).sent (heard w.hw.log))
        (h.map fun τ => (τ.input, τ.output)) g ∧
      (view w'.hw).sent = g.sent ∧ heard w'.hw.log = g.heard ∧ w'.state.filled = g.stored ∧
      (getTransmitStatus c w' : Except (Stop Empty) _) =
        .ok (g.transmitStatus, some (g.left.elim 0 List.length)) ∧
      (getReceiveStatus c w' : Except (Stop Empty) _) =
        .ok (g.receiveStatus, some (g.room.getD 0)) := by
  obtain ⟨w₁, hinit, h₁⟩ := ends_noError_iff.1 (hw.init traffic hc)
  obtain ⟨h, w', g, hrun, hpath, h'⟩ :=
    h₁.run traffic hc.transferType_eq hc.callback_eq hos
  obtain ⟨hsent, hheard, hstored⟩ := h'.seen
  obtain ⟨htransmit, hreceive⟩ := h'.status hc.transferType_eq
  refine ⟨h, w', g, ?_, hpath, hsent, hheard, hstored, htransmit, hreceive⟩
  rw [session, hinit]
  exact hrun

/-- Two bytes are sent by polling, and two by interrupts, while a byte comes in. -/
theorem session_refines_demo : ∃ h w' g,
    session (device fun _ => ⟨[0x61#8], []⟩) xHwConfigPB3
      [.syncSend ⟨[1#8, 2#8], 2, 5⟩, .asyncSend [3#8, 4#8] 2, .asyncReceive [0#8] 1, .irqHandler,
        .irqHandler, .abortSendingData] demoAtPowerOn = .ok (h, w') ∧
      Mealy.Path (Serial.Step .eight) (.start [] []) (h.map fun τ => (τ.input, τ.output)) g ∧
      (view w'.hw).sent = g.sent ∧ heard w'.hw.log = g.heard ∧ w'.state.filled = g.stored ∧
      (getTransmitStatus xHwConfigPB3 w' : Except (Stop Empty) _) =
        .ok (g.transmitStatus, some (g.left.elim 0 List.length)) ∧
      (getReceiveStatus xHwConfigPB3 w' : Except (Stop Empty) _) =
        .ok (g.receiveStatus, some (g.room.getD 0)) := by
  refine session_refines demoAtPowerOn atRest_demoAtPowerOn (fun _ => ⟨[0x61#8], []⟩) xHwConfigPB3
    byInterrupts_xHwConfigPB3 _ ?_
  simp only [List.mem_cons, List.not_mem_nil, or_false, forall_eq_or_imp, forall_eq]
  exact ⟨⟨by decide, by decide, by decide, by decide⟩, ⟨by decide, by decide, by decide⟩,
    ⟨by decide, by decide, by decide⟩, trivial, trivial, trivial⟩

/-- The first call of a session, and the rest of it. -/
theorem AtRest.session_cons (hw : AtRest w) (traffic : ℕ → Traffic) (hc : c.ByInterrupts)
    {o : Op} {os : List Op} (ho : o.Valid) (hos : ∀ o ∈ os, o.Valid) :
    ∃ τ h w' g₁ g, session (device traffic) c (o :: os) w = .ok (τ :: h, w') ∧
      Serial.Step c.bitCountPerChar (.start (view w.hw).sent (heard w.hw.log)) o τ.output g₁ ∧
      Mealy.Path (Serial.Step c.bitCountPerChar) g₁ (h.map fun τ => (τ.input, τ.output)) g ∧
      (∀ a ∈ h.map fun τ => (τ.input, τ.output), a.1 ∈ os) ∧ Represents g w' := by
  obtain ⟨w₁, hinit, h₁⟩ := ends_noError_iff.1 (hw.init traffic hc)
  obtain ⟨h, w', g, hrun, hpath, h'⟩ := h₁.run traffic hc.transferType_eq
    hc.callback_eq (List.forall_mem_cons.2 ⟨ho, hos⟩)
  obtain ⟨status, w₂, h, -, hrest, rfl⟩ := Mealy.run_cons_ok hrun
  cases hpath with
  | cons hstep hpath =>
    refine ⟨_, h, w', _, g, ?_, hstep, hpath, ?_, h'⟩
    · rw [session, hinit]
      exact hrun
    · exact List.forall_mem_map.2 fun τ hτ => (Mealy.run_takes hrest τ hτ).2

/-! ## A transmission by interrupts -/

/-- A transmission by interrupts waits for the device to ask for its first character. -/
structure Serial.Waits (sent l : List (BitVec 8)) (g : Serial) : Prop where
  left_eq : g.left = some l
  ready_eq : g.ready = false
  sent_eq : g.sent = sent
  status_eq : g.transmitStatus = .busy

theorem Serial.Step.waits {n : BitCountPerChar} {g g' : Serial} {o : Op} {status : StatusType}
    {sent l : List (BitVec 8)} (h : g.Step n o status g') (ho : o ≠ .abortSendingData)
    (hg : g.Waits sent l) : g'.Waits sent l ∧ (o.Sends → status = .busy) := by
  have hleft := hg.left_eq
  -- A call that sends is refused, and an interrupt does not find `TDRE` set.
  cases h with
  | syncSend hnone | asyncSend hnone =>
    exact absurd (hleft.symm.trans hnone) (Option.some_ne_none l)
  | sendBusy => exact ⟨hg, fun _ => rfl⟩
  | abortSending | nothingToSend => exact absurd rfl ho
  | irqSend _ hready => exact absurd (hg.ready_eq.symm.trans hready) Bool.noConfusion
  | receiveBusy hreceives =>
    refine ⟨hg, fun hsends => ?_⟩
    cases o <;> first | exact False.elim hsends | exact False.elim hreceives
  | syncReceive | asyncReceive | abortReceiving | nothingToReceive | deinit | irqReceive
  | irqReceiveLast | irqNothing => exact ⟨{ hg with }, False.elim⟩

/-- A transmission by interrupts that is started after the initialisation sends nothing, and
    keeps the driver busy until it is aborted: the device asks for characters only once it has
    been given one. -/
theorem session_asyncSend (w : World Bench) (hw : AtRest w) (traffic : ℕ → Traffic)
    (c : UserConfig) (hc : c.ByInterrupts) (txBuff : List (BitVec 8)) (txSize : ℕ)
    (hvalid : (Op.asyncSend txBuff txSize).Valid) (os : List Op)
    (hos : ∀ o ∈ os, o.Valid ∧ o ≠ .abortSendingData) :
    ∃ τ h w', session (device traffic) c (.asyncSend txBuff txSize :: os) w = .ok (τ :: h, w') ∧
      τ.output = .success ∧ (∀ τ ∈ h, τ.input.Sends → τ.output = .busy) ∧
      (view w'.hw).sent = (view w.hw).sent ∧
      (getTransmitStatus c w' : Except (Stop Empty) _) = .ok (.busy, some txSize) := by
  obtain ⟨τ, h, w', g₁, g, hrun, hstep, hpath, hin, h'⟩ :=
    hw.session_cons traffic hc hvalid fun o ho => (hos o ho).1
  obtain ⟨hstatus, hg₁⟩ : τ.output = .success ∧
      g₁.Waits (view w.hw).sent (txBuff.take txSize) := by
    generalize τ.output = status at hstep
    cases hstep with
    | asyncSend => exact ⟨rfl, rfl, rfl, rfl, rfl⟩
    | sendBusy _ hne => exact absurd rfl hne
    | receiveBusy hreceives => exact False.elim hreceives
  obtain ⟨hg, hout⟩ := hpath.along
    (I := fun g => g.Waits (view w.hw).sent (txBuff.take txSize))
    (Q := fun o status => o.Sends → status = .busy)
    (fun g o status g' hmem hnext hg => hnext.waits (hos o (hin _ hmem)).2 hg) hg₁
  refine ⟨τ, h, w', hrun, hstatus, List.forall_mem_map.1 hout, h'.seen.1.trans hg.sent_eq, ?_⟩
  rw [(h'.status hc.transferType_eq).1, hg.status_eq, hg.left_eq, Option.elim_some,
    List.length_take, Nat.min_eq_left hvalid.2.1]

/-- Nothing is sent by the interrupts, and the next call finds the driver busy. -/
theorem session_asyncSend_two : ∃ τ h w',
    session (device fun _ => ⟨[], []⟩) xHwConfigPB3
      (.asyncSend [1#8, 2#8] 2 :: [.irqHandler, .irqHandler, .syncSend ⟨[3#8], 1, 5⟩])
      demoAtPowerOn = .ok (τ :: h, w') ∧
    τ.output = .success ∧ (∀ τ ∈ h, τ.input.Sends → τ.output = .busy) ∧ (view w'.hw).sent = [] ∧
    (getTransmitStatus xHwConfigPB3 w' : Except (Stop Empty) _) = .ok (.busy, some 2) := by
  refine session_asyncSend demoAtPowerOn atRest_demoAtPowerOn (fun _ => ⟨[], []⟩) xHwConfigPB3
    byInterrupts_xHwConfigPB3 _ _ ⟨by decide, by decide, by decide⟩ _ ?_
  simp only [List.mem_cons, List.not_mem_nil, or_false, forall_eq_or_imp, forall_eq]
  exact ⟨⟨trivial, by decide⟩, ⟨trivial, by decide⟩,
    ⟨⟨by decide, by decide, by decide, by decide⟩, by decide⟩⟩

/-! ## Receptions -/

theorem Fills.eq_of_nil {n : BitCountPerChar} {l l' as : List (BitVec 8)} {k k' : ℕ}
    (h : Fills n l k as l' k') (has : as = []) : l' = l ∧ k' = k := by
  cases h with
  | nil => exact ⟨rfl, rfl⟩
  | snoc => exact absurd has (List.concat_ne_nil _ _)

/-- A character that is stored. -/
theorem Fills.of_singleton {n : BitCountPerChar} {l l' as : List (BitVec 8)} {k k' : ℕ}
    {a : BitVec 8} (h : Fills n l k as l' k') (has : as = [a]) : ∃ highs : List (BitVec 8),
      0 < k ∧ highs.length + 1 = min (charBytes n) k ∧ l' = l ++ charOf n a :: highs ∧
        k' = k - (highs.length + 1) := by
  cases h with
  | nil => exact absurd has.symm (List.cons_ne_nil a [])
  | snoc hfills hpos hhighs =>
    obtain ⟨hnil, heq⟩ := List.append_inj' (has.trans (List.nil_append _).symm) rfl
    obtain ⟨rfl, rfl⟩ := hfills.eq_of_nil hnil
    obtain rfl := List.singleton_inj.1 heq
    exact ⟨_, hpos, hhighs, rfl, rfl⟩

/-- A character of one byte that is stored. -/
theorem Fills.of_charBytes {n : BitCountPerChar} {l l' : List (BitVec 8)} {k k' : ℕ}
    {a : BitVec 8} (h : Fills n l k [a] l' k') (hn : charBytes n = 1) :
    l' = l ++ [charOf n a] ∧ k = k' + 1 := by
  obtain ⟨highs, hpos, hhighs, rfl, rfl⟩ := h.of_singleton rfl
  obtain rfl : highs = [] := List.eq_nil_of_length_eq_zero (by omega)
  refine ⟨rfl, ?_⟩
  rw [List.length_nil]
  omega

/-- Of a reception of `k` bytes by interrupts, the characters `as` have been heard and stored,
    and after the last one some have been dropped. -/
structure Serial.Collects (n : BitCountPerChar) (k : ℕ) (heard as dropped : List (BitVec 8))
    (g : Serial) : Prop where
  heard_eq : g.heard = heard ++ as ++ dropped
  stored_eq : g.stored = as.map (charOf n)
  state_eq :
    as.length < k ∧ dropped = [] ∧ g.room = some (k - as.length) ∧ g.receiveStatus = .busy ∨
      as.length = k ∧ dropped.length ≤ 1 ∧ g.room = none ∧ g.receiveStatus = .success

theorem Serial.Collects.of_room {n : BitCountPerChar} {g : Serial} {k k' : ℕ}
    {heard as dropped : List (BitVec 8)} (hg : g.Collects n k heard as dropped)
    (hroom : g.room = some k') :
    k = as.length + k' ∧ dropped = [] ∧ g.receiveStatus = .busy := by
  rcases hg.state_eq with ⟨hlt, hnil, hroom', hbusy⟩ | ⟨-, -, hnone, -⟩
  · have := Option.some_inj.1 (hroom.symm.trans hroom')
    exact ⟨by omega, hnil, hbusy⟩
  · exact absurd (hroom.symm.trans hnone) (Option.some_ne_none k')

theorem Serial.Step.collects {n : BitCountPerChar} (hn : charBytes n = 1) {g g' : Serial} {o : Op}
    {status : StatusType} {k : ℕ} {heard as dropped : List (BitVec 8)}
    (h : g.Step n o status g') (ho : ¬o.Receives ∧ o ≠ .abortReceivingData)
    (hg : g.Collects n k heard as dropped) :
    ∃ as' dropped', g'.Collects n k heard as' dropped' := by
  cases h with
  | syncReceive | asyncReceive => exact absurd trivial ho.1
  | abortReceiving | nothingToReceive => exact absurd rfl ho.2
  | receiveBusy hreceives => exact absurd hreceives ho.1
  | syncSend | asyncSend | sendBusy | abortSending | nothingToSend | deinit | irqSend
  | irqNothing => exact ⟨as, dropped, { hg with }⟩
  | @irqReceive a l' k₀ k' hroom hfills hne =>
    obtain ⟨hk, rfl, hbusy⟩ := hg.of_room hroom
    obtain ⟨rfl, rfl⟩ := hfills.of_charBytes hn
    refine ⟨as ++ [a], [], ?_, ?_, .inl ⟨?_, rfl, ?_, hbusy⟩⟩
    · simp only [hg.heard_eq, List.append_nil, List.append_assoc]
    · simp only [hg.stored_eq, List.map_append, List.map_singleton]
    · rw [List.length_append, List.length_singleton]
      omega
    · rw [List.length_append, List.length_singleton]
      exact congrArg some (by omega)
  | @irqReceiveLast a l' d k₀ hroom hfills hd =>
    obtain ⟨hk, rfl, -⟩ := hg.of_room hroom
    obtain ⟨rfl, rfl⟩ := hfills.of_charBytes hn
    refine ⟨as ++ [a], d, ?_, ?_, .inr ⟨?_, hd, rfl, rfl⟩⟩
    · simp only [hg.heard_eq, List.append_nil, List.append_assoc]
    · simp only [hg.stored_eq, List.map_append, List.map_singleton]
    · rw [List.length_append, List.length_singleton]
      omega

/-- **Receiving by interrupts.** The characters that are heard after the start of a reception
    are stored, in order and once each, until the buffer is full. Then the reception is
    completed, and at most one more is heard and dropped. -/
theorem session_asyncReceive (w : World Bench) (hw : AtRest w) (traffic : ℕ → Traffic)
    (c : UserConfig) (hc : c.ByInterrupts) (hn : charBytes c.bitCountPerChar = 1)
    (rxBuff : List (BitVec 8)) (rxSize : ℕ) (hvalid : (Op.asyncReceive rxBuff rxSize).Valid)
    (os : List Op) (hos : ∀ o ∈ os, o.Valid ∧ ¬o.Receives ∧ o ≠ .abortReceivingData) :
    ∃ h w' as dropped,
      session (device traffic) c (.asyncReceive rxBuff rxSize :: os) w = .ok (h, w') ∧
      heard w'.hw.log = heard w.hw.log ++ as ++ dropped ∧
      w'.state.filled = as.map (charOf c.bitCountPerChar) ∧
      (as.length < rxSize ∧ dropped = [] ∧
          (getReceiveStatus c w' : Except (Stop Empty) _) =
            .ok (.busy, some (rxSize - as.length)) ∨
        as.length = rxSize ∧ dropped.length ≤ 1 ∧
          (getReceiveStatus c w' : Except (Stop Empty) _) = .ok (.success, some 0)) := by
  obtain ⟨τ, h, w', g₁, g, hrun, hstep, hpath, hin, h'⟩ :=
    hw.session_cons traffic hc hvalid fun o ho => (hos o ho).1
  have hg₁ : g₁.Collects c.bitCountPerChar rxSize (heard w.hw.log) [] [] := by
    generalize τ.output = status at hstep
    cases hstep with
    | asyncReceive =>
      exact ⟨by simp only [Serial.start, List.append_nil], rfl, .inl ⟨hvalid.1, rfl, rfl, rfl⟩⟩
    | receiveBusy _ hne => exact absurd rfl hne
    | sendBusy hsends => exact False.elim hsends
  obtain ⟨as, dropped, hg⟩ := hpath.invariant
    (I := fun g => ∃ as dropped, g.Collects c.bitCountPerChar rxSize (heard w.hw.log) as dropped)
    (by
      rintro g o status g' hmem hnext ⟨as, dropped, hg⟩
      exact hnext.collects hn (hos o (hin _ hmem)).2 hg) ⟨[], [], hg₁⟩
  obtain ⟨-, hheard, hstored⟩ := h'.seen
  have hstatus := (h'.status hc.transferType_eq).2
  refine ⟨_, w', as, dropped, hrun, hheard.trans hg.heard_eq, hstored.trans hg.stored_eq,
    hg.state_eq.imp ?_ ?_⟩
  · rintro ⟨hlt, hnil, hroom, hbusy⟩
    refine ⟨hlt, hnil, ?_⟩
    rw [hstatus, hroom, hbusy, Option.getD_some]
  · rintro ⟨hfull, hd, hroom, hsuccess⟩
    refine ⟨hfull, hd, ?_⟩
    rw [hstatus, hroom, hsuccess, Option.getD_none]

/-- Two bytes, with an interrupt for each of them. -/
theorem session_asyncReceive_two : ∃ h w' as dropped,
    session (device fun _ => ⟨[0x61#8], []⟩) xHwConfigPB3
      (.asyncReceive [0#8, 0#8] 2 :: [.irqHandler, .irqHandler]) demoAtPowerOn = .ok (h, w') ∧
    heard w'.hw.log = [] ++ as ++ dropped ∧ w'.state.filled = as.map (charOf .eight) ∧
    (as.length < 2 ∧ dropped = [] ∧
        (getReceiveStatus xHwConfigPB3 w' : Except (Stop Empty) _) =
          .ok (.busy, some (2 - as.length)) ∨
      as.length = 2 ∧ dropped.length ≤ 1 ∧
        (getReceiveStatus xHwConfigPB3 w' : Except (Stop Empty) _) = .ok (.success, some 0)) := by
  refine session_asyncReceive demoAtPowerOn atRest_demoAtPowerOn (fun _ => ⟨[0x61#8], []⟩)
    xHwConfigPB3 byInterrupts_xHwConfigPB3 rfl _ _ ⟨by decide, by decide, by decide⟩ _ ?_
  simp only [List.mem_cons, List.not_mem_nil, or_false, forall_eq_or_imp, forall_eq]
  exact ⟨⟨trivial, id, by decide⟩, ⟨trivial, id, by decide⟩⟩

/-- **Receiving by polling, on a silent line.** If nothing is heard in a call of
    `Lpuart_Uart_Ip_SyncReceive` that has time for it, the time is out, and nevertheless a
    character is stored. -/
theorem session_syncReceive (w : World Bench) (hw : AtRest w) (traffic : ℕ → Traffic)
    (c : UserConfig) (hc : c.ByInterrupts) (q : ReceiveCall) (hq : q.Valid)
    (htime : 2 ≤ q.timeout) :
    ∃ τ w', session (device traffic) c [.syncReceive q] w = .ok ([τ], w') ∧
      (heard w'.hw.log = heard w.hw.log →
        τ.output = .timeout ∧
        w'.state.filled.length = min (charBytes c.bitCountPerChar) q.rxSize) := by
  obtain ⟨τ, h, w', g₁, g, hrun, hstep, hpath, hin, h'⟩ :=
    hw.session_cons traffic (o := .syncReceive q) hc hq (List.forall_mem_nil _)
  obtain rfl : h = [] := List.map_eq_nil_iff.1
    (List.eq_nil_iff_forall_not_mem.2 fun a ha => List.not_mem_nil (hin a ha))
  cases hpath
  obtain ⟨-, hheard, hstored⟩ := h'.seen
  refine ⟨τ, w', hrun, fun hsilent => ?_⟩
  rw [hsilent] at hheard
  generalize τ.output = status at hstep ⊢
  cases hstep with
  | receiveBusy _ hne => exact absurd rfl hne
  | sendBusy hsends => exact False.elim hsends
  | @syncReceive _ as stale dropped l k _ _ hfills hstale _ hne hstatus =>
    -- No character that is stored has been heard, and only one may not have been.
    obtain rfl : as = [] := by
      have hlength := congrArg List.length hheard
      simp only [Serial.start, List.length_append] at hlength
      exact List.eq_nil_of_length_eq_zero (by omega)
    rw [List.nil_append] at hfills hne
    obtain ⟨a, rfl⟩ : ∃ a, stale = [a] := List.length_eq_one_iff.1
      (Nat.le_antisymm hstale (List.length_pos_iff.2 (hne htime)))
    obtain ⟨highs, -, hhighs, hl, -⟩ := hfills.of_singleton rfl
    refine ⟨hstatus.elim (fun hsuccess => absurd hsuccess.2.1 (List.cons_ne_nil a [])) id, ?_⟩
    rw [hstored, ← hhighs]
    exact congrArg List.length hl

/-- A call that waits for a byte which does not come, with a timeout of three ticks. -/
theorem session_syncReceive_one : ∃ τ w',
    session (device fun _ => ⟨[], []⟩) xHwConfigPB3 [.syncReceive ⟨[7#8], 1, 3⟩] demoAtPowerOn =
      .ok ([τ], w') ∧
    heard w'.hw.log = [] ∧ τ.output = .timeout ∧ w'.state.filled.length = 1 := by
  have hsilent : ((session (device fun _ => ⟨[], []⟩) xHwConfigPB3 [.syncReceive ⟨[7#8], 1, 3⟩]
      demoAtPowerOn).toOption.all fun r => (heard r.2.hw.log).isEmpty) = true := by
    decide +kernel
  obtain ⟨τ, w', hrun, hstored⟩ := session_syncReceive demoAtPowerOn atRest_demoAtPowerOn
    (fun _ => ⟨[], []⟩) xHwConfigPB3 byInterrupts_xHwConfigPB3 ⟨[7#8], 1, 3⟩
    ⟨by decide, by decide, by decide, by decide⟩ (by decide)
  rw [hrun] at hsilent
  have hnil : heard w'.hw.log = [] := List.isEmpty_iff.1 hsilent
  exact ⟨τ, w', hrun, hnil, hstored hnil⟩

end Session

end S32K358.LpuartUartIp
