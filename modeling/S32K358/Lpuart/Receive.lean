import S32K358.Lpuart.Basic

/-!
# The LPUART: the receive path

The data register, the flag `RDRF` and `canReceive` make a queue of one byte
between the backend and the guest: as long as the receiver is on, the bytes
handed over by the backend should be the values the guest reads from the data
register while the flag is set, followed by the one the register still holds.

A read of the data register frees the queue, invites the backend, and only then
takes the value of the register to return. If the backend accepts the
invitation, the byte the register held is lost, and the new one is returned now
and held again. `run_receives_iff`: this is the only way in which the receive
path goes wrong.
-/

namespace S32K358.Lpuart

variable {s : State}

/-- A transition of the device. -/
abbrev Step : Type := Mealy.Transition State Event Reply

/-- The byte in the data register not yet read, if any. -/
def held (s : State) : List (BitVec 32) := if Bits.any s.sr statRdrf then [s.dr] else []

/-- The bytes handed over by the backend. -/
def delivered (τ : Step) : List (BitVec 32) := τ.output.delivered.map (·.setWidth 32)

/-- The value of a read of the data register with `RDRF` set. -/
def returned (τ : Step) : List (BitVec 32) :=
  match τ.input with
  | .read offset _ =>
    if Reg.ofOffset? offset = some .data ∧ Bits.any τ.pre.sr statRdrf = true then
      τ.output.value.toList
    else []
  | _ => []

/-- The event neither turns the receiver off, nor resets the device, nor writes its
    status. -/
def Event.Receiving : Event → Prop
  | .read _ _ | .poll _ => True
  | .write offset value =>
    Reg.ofOffset? offset ≠ some .stat ∧
      (Reg.ofOffset? offset = some .ctrl → Bits.any value ctrlRe = true) ∧
      (Reg.ofOffset? offset = some .global → Bits.any value globalRstMask = false)
  | .reset => False

instance : DecidablePred Event.Receiving
  | .read _ _ | .poll _ => inferInstanceAs (Decidable True)
  | .write _ _ => inferInstanceAs (Decidable (_ ∧ _ ∧ _))
  | .reset => inferInstanceAs (Decidable False)

/-- The event is not a read of the data register, holding a byte, during which the
    backend has a different one to hand over. -/
def Undisturbed (s : State) : Event → Prop
  | .read offset l => Reg.ofOffset? offset = some .data → Bits.any s.sr statRdrf = true →
      ∀ c ∈ l.head?, c.setWidth 32 = s.dr
  | _ => True

/-! ## Single events -/

theorem held_of_rdrf (h : Bits.any s.sr statRdrf = true) : held s = [s.dr] := if_pos h

theorem held_of_not_rdrf (h : Bits.any s.sr statRdrf = false) : held s = [] :=
  if_neg (by rw [h]; exact Bool.false_ne_true)

theorem held_receive {c : BitVec 8} (hre : Bits.any s.cr ctrlRe = true) :
    held (receive s [c]) = [c.setWidth 32] := by
  have hfull := canReceive_receive (c := c) (l := []) hre
  rw [canReceive, Bool.not_eq_false'] at hfull
  rw [held_of_rdrf hfull, receive_of_re hre]
  rfl

/-- A write neither takes nor gives a byte, unless it resets the device or writes its
    status. -/
theorem held_write {offset : ℕ} {value : BitVec 32} (hstat : Reg.ofOffset? offset ≠ some .stat)
    (hglobal : Reg.ofOffset? offset = some .global → Bits.any value globalRstMask = false) :
    held (write s offset value) = held s := by
  rw [write]
  cases hr : Reg.ofOffset? offset with
  | none => rfl
  | some r =>
    cases r with
    | stat => exact absurd hr hstat
    | baud | ctrl => rfl
    | global =>
      dsimp only
      rw [hglobal hr, if_neg Bool.false_ne_true]
      rfl
    | data =>
      dsimp only
      split
      · have hsame : Bits.any (s.sr ||| statTdre) statRdrf = Bits.any s.sr statRdrf := by
          rw [Bits.any_or_left, show Bits.any statTdre statRdrf = false by decide, Bool.or_false]
        change (if Bits.any (s.sr ||| statTdre) statRdrf then [s.dr] else []) = held s
        rw [hsame, held]
      · rfl

/-- It leaves the receiver on, too, if it does not turn it off. -/
theorem write_receiving {offset : ℕ} {value : BitVec 32} (hre : Bits.any s.cr ctrlRe = true)
    (he : (Event.write offset value).Receiving) :
    held (write s offset value) = held s ∧ Bits.any (write s offset value).cr ctrlRe = true := by
  obtain ⟨hstat, hctrl, hglobal⟩ := he
  refine ⟨held_write hstat hglobal, ?_⟩
  rw [write]
  cases hr : Reg.ofOffset? offset with
  | none => exact hre
  | some r =>
    cases r with
    | stat => exact absurd hr hstat
    | baud => exact hre
    -- A control value keeps the receiver on by assumption.
    | ctrl => exact hctrl hr
    | global =>
      dsimp only
      rw [hglobal hr, if_neg Bool.false_ne_true]
      exact hre
    | data =>
      dsimp only
      split <;> exact hre

/-- A backend polling hands over at most one byte, which is then held. -/
theorem acceptInput_receiving (hre : Bits.any s.cr ctrlRe = true) (l : List (BitVec 8)) :
    held s ++ (acceptInput s l).1.map (·.setWidth 32) = held (acceptInput s l).2 ∧
      Bits.any (acceptInput s l).2.cr ctrlRe = true := by
  cases hcan : canReceive s with
  | false =>
    rw [acceptInput_of_full hcan]
    exact ⟨List.append_nil _, hre⟩
  | true =>
    rw [canReceive, Bool.not_eq_true'] at hcan
    cases l with
    | nil => exact ⟨List.append_nil _, hre⟩
    | cons c l =>
      rw [acceptInput_cons hre (by rw [canReceive, hcan]; rfl), held_of_not_rdrf hcan,
        held_receive hre]
      exact ⟨rfl, by rw [cr_receive]; exact hre⟩

/-- A read of the data register returns the byte held only if the backend has no
    byte to hand over, and otherwise the one handed over, which is then held. -/
theorem read_data {offset : ℕ} (hr : Reg.ofOffset? offset = some .data)
    (hre : Bits.any s.cr ctrlRe = true) (l : List (BitVec 8)) :
    ∃ t, read s offset l =
        (l.head?.elim s.dr (·.setWidth 32), l.head?.toList, t) ∧
      held t = l.head?.toList.map (·.setWidth 32) ∧ Bits.any t.cr ctrlRe = true := by
  have hclear : Bits.any (s.sr &&& ~~~statRdrf) statRdrf = false := Bits.any_clear_self _ _
  rw [read, hr]
  cases l with
  | nil => exact ⟨_, rfl, held_of_not_rdrf hclear, hre⟩
  | cons c l =>
    have hre' : Bits.any ({ s with sr := s.sr &&& ~~~statRdrf } : State).cr ctrlRe = true := hre
    dsimp only
    rw [acceptInput_cons hre' (by rw [canReceive, hclear]; rfl)]
    refine ⟨updateIrq (receive _ [c]), ?_, held_receive hre', ?_⟩
    · rw [receive_of_re hre']
      rfl
    · change Bits.any (receive _ [c]).cr ctrlRe = true
      rw [cr_receive]
      exact hre

/-- The other registers are read without effect. -/
theorem read_of_ne {offset : ℕ} (hr : Reg.ofOffset? offset ≠ some .data) (l : List (BitVec 8)) :
    ∃ v, read s offset l = (v, [], s) := by
  rw [read]
  cases hreg : Reg.ofOffset? offset with
  | none => exact ⟨_, rfl⟩
  | some r =>
    cases r with
    | data => exact absurd hreg hr
    | global | baud | stat | ctrl => exact ⟨_, rfl⟩

/-- What an event should do to the queue, and does unless it is disturbed; then it
    gives a wrong byte. -/
def Conserves (τ : Step) : Prop := held τ.pre ++ delivered τ = returned τ ++ held τ.post

def GivesWrong (τ : Step) : Prop :=
  (returned τ).length ≤ (held τ.pre ++ delivered τ).length ∧
    ¬returned τ <+: held τ.pre ++ delivered τ

/-- A read of the data register. -/
theorem read_data_conserves {offset : ℕ} {l : List (BitVec 8)} {r : Reply} {t : State}
    (hr : Reg.ofOffset? offset = some .data)
    (hv : r.value = some (l.head?.elim s.dr (·.setWidth 32))) (hd : r.delivered = l.head?.toList)
    (ht : held t = l.head?.toList.map (·.setWidth 32)) :
    (Undisturbed s (.read offset l) → Conserves ⟨s, .read offset l, r, t⟩) ∧
      (¬Undisturbed s (.read offset l) → GivesWrong ⟨s, .read offset l, r, t⟩) := by
  rw [Conserves, GivesWrong, delivered, returned, ht]
  dsimp only
  rw [hv, hd]
  cases hfull : Bits.any s.sr statRdrf with
  | false =>
    rw [held_of_not_rdrf hfull, if_neg fun h => Bool.false_ne_true h.2]
    exact ⟨fun _ => rfl, fun h => absurd (fun _ h' => absurd (hfull.symm.trans h') (by decide)) h⟩
  | true =>
    rw [held_of_rdrf hfull, if_pos ⟨hr, rfl⟩]
    cases l with
    | nil => exact ⟨fun _ => rfl, fun h => absurd (fun _ _ c hc => absurd hc (by simp)) h⟩
    | cons c l =>
      -- The byte handed over is returned now, in the place of the one held.
      refine ⟨fun h => ?_, fun h => ⟨by simp, fun hpre => h fun _ _ c' hc' => ?_⟩⟩
      · have hc : c.setWidth 32 = s.dr := h hr hfull c rfl
        simp [hc]
      · have hc : c.setWidth 32 = s.dr := by simpa using hpre
        have : c = c' := by simpa using hc'
        exact this ▸ hc

/-- The steps of the receive path: the receiver stays on, and the bytes are
    conserved, unless the event is a disturbed read, which gives a wrong one. -/
theorem takes_receiving {τ : Step} (htake : Mealy.Takes step τ)
    (hre : Bits.any τ.pre.cr ctrlRe = true) (he : τ.input.Receiving) :
    Bits.any τ.post.cr ctrlRe = true ∧ (Undisturbed τ.pre τ.input → Conserves τ) ∧
      (¬Undisturbed τ.pre τ.input → GivesWrong τ) := by
  obtain ⟨s, e, r, t⟩ := τ
  dsimp only at hre he
  cases e with
  | reset => exact he.elim
  | write offset value =>
    obtain ⟨rfl, rfl⟩ : _ ∧ _ := by simpa [Mealy.Takes, step] using htake
    obtain ⟨hheld, hcr⟩ := write_receiving hre he
    exact ⟨hcr, fun _ => (List.append_nil _).trans hheld.symm, fun h => absurd trivial h⟩
  | poll l =>
    obtain ⟨rfl, rfl⟩ : _ ∧ _ := by simpa [Mealy.Takes, step] using htake
    obtain ⟨hheld, hcr⟩ := acceptInput_receiving hre l
    exact ⟨hcr, fun _ => hheld, fun h => absurd trivial h⟩
  | read offset l =>
    by_cases hr : Reg.ofOffset? offset = some .data
    · obtain ⟨u, hread, hheld, hcr⟩ := read_data hr hre l
      obtain ⟨rfl, rfl⟩ : _ ∧ _ := by simpa [Mealy.Takes, step, hread] using htake
      exact ⟨hcr, read_data_conserves hr rfl rfl hheld⟩
    · obtain ⟨v, hread⟩ := read_of_ne (s := s) hr l
      obtain ⟨rfl, rfl⟩ : _ ∧ _ := by simpa [Mealy.Takes, step, hread] using htake
      refine ⟨hre, fun _ => ?_, fun h => absurd (fun h' => absurd h' hr) h⟩
      rw [Conserves, delivered, returned]
      dsimp only
      rw [if_neg fun h => hr h.1]
      exact List.append_nil _

/-! ## Runs -/

/-- **The receive path.** As long as the receiver stays on, and neither a reset nor
    a write of the status interferes, the bytes handed over by the backend are
    those read by the guest followed by the one still held, if and only if no
    read of a byte held is disturbed: whenever the guest reads the data register
    with `RDRF` set, the backend has no byte, or the same one, to hand over from
    inside that read. -/
theorem run_receives_iff (s : State) (hre : Bits.any s.cr ctrlRe = true) (es : List Event)
    (hes : ∀ e ∈ es, e.Receiving) :
    ∃ h t, run s es = .ok (h, t) ∧
      (held s ++ h.flatMap delivered = h.flatMap returned ++ held t ↔
        ∀ τ ∈ h, Undisturbed τ.pre τ.input) := by
  obtain ⟨h, t, hr⟩ := exists_run s es
  have hon := (Mealy.run_invariant (I := fun s => Bits.any s.cr ctrlRe = true) hr hre
    fun τ hτ htake hpre => (takes_receiving htake hpre (hes _ (Mealy.run_takes hr τ hτ).2)).1).2
  have hstep : ∀ τ ∈ h, (Undisturbed τ.pre τ.input → Conserves τ) ∧
      (¬Undisturbed τ.pre τ.input → GivesWrong τ) := fun τ hτ =>
    (takes_receiving (Mealy.run_takes hr τ hτ).1 (hon τ hτ).1 (hes _ (Mealy.run_takes hr τ hτ).2)).2
  refine ⟨h, t, hr, ?_⟩
  rw [Mealy.run_conserves_iff held hr fun τ hτ => ?_]
  · refine forall₂_congr fun τ hτ => ⟨fun hc => ?_, (hstep τ hτ).1⟩
    by_contra hdis
    exact ((hstep τ hτ).2 hdis).2 ⟨_, hc.symm⟩
  · by_cases hdis : Undisturbed τ.pre τ.input
    · exact .inl ((hstep τ hτ).1 hdis)
    · exact .inr ((hstep τ hτ).2 hdis)

/-- The device after power on, once its receiver has been turned on. -/
def listening : State := { write (atPowerOn 80000000) 0x18 ctrlRe with calls := [] }

/-- Two bytes handed over before and between two reads. -/
theorem run_receives_iff_two : ∃ h t,
    run listening [.poll [0x61#8], .read 0x1C [], .poll [0x62#8], .read 0x1C []] = .ok (h, t) ∧
      (held listening ++ h.flatMap delivered = h.flatMap returned ++ held t ↔
        ∀ τ ∈ h, Undisturbed τ.pre τ.input) :=
  run_receives_iff listening (by decide)
    [.poll [0x61#8], .read 0x1C [], .poll [0x62#8], .read 0x1C []] (by decide)

/-- If the backend hands over a second byte from inside the read of the first, the
    first is lost and the second read twice. -/
theorem run_loses_byte : ∃ h t,
    run listening [.poll [0x61#8], .read 0x1C [0x62#8], .read 0x1C []] = .ok (h, t) ∧
      h.flatMap delivered = [0x61#32, 0x62#32] ∧ h.flatMap returned = [0x62#32, 0x62#32] ∧
      held t = [] :=
  ⟨_, _, rfl, by decide, by decide, by decide⟩

end S32K358.Lpuart
