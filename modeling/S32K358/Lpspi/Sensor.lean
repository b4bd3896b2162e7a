import S32K358.Ssi
import S32K358.Lpspi.DataPath

/-!
# The LPSPI with a motor speed sensor

The sensor is alone on the bus of the device (`sensorBus`). The words written to `TDR`
reach it in order, and its answers reach `RDR` in order, as they do on any bus
(`S32K358.Lpspi.DataPath`). So it is enough to know what a bus that does not see the
chip selects answers to the words handed to it (`run_transfers`), and what the sensor
answers (`transfers_sensorBus`): the speed of the last command.
-/

namespace S32K358.Lpspi

open Ssi

variable {n : ℕ} {β : Type} {bus : SsiBus β} {s t : State n β} {a : Access}

/-! ## Buses that do not see the chip selects -/

/-- The answers of a bus to some words, and the bus after them. -/
def SsiBus.transfers (bus : SsiBus β) : β → List (BitVec 32) → List (BitVec 32) × β
  | c, [] => ([], c)
  | c, w :: ws =>
    let (r, c) := bus.transfer c w
    let (rs, c) := SsiBus.transfers bus c ws
    (r :: rs, c)

/-- The bus does not see the chip selects. -/
def SsiBus.Unselected (bus : SsiBus β) : Prop := ∀ c i level, bus.setCs c i level = c

theorem SsiBus.transfers_append {c d e : β} {ws rs ws' rs' : List (BitVec 32)}
    (h : bus.transfers c ws = (rs, d)) (h' : bus.transfers d ws' = (rs', e)) :
    bus.transfers c (ws ++ ws') = (rs ++ rs', e) := by
  induction ws generalizing c rs with
  | nil =>
    obtain ⟨rfl, rfl⟩ : _ ∧ _ := by simpa [transfers] using h
    exact h'
  | cons w ws ih =>
    simp only [transfers, Prod.mk.injEq] at h
    obtain ⟨rfl, hd⟩ := h
    simp only [List.cons_append, transfers, ih (Prod.ext rfl hd)]

theorem ssi_settle : (settle s).ssi = s.ssi := rfl

theorem ssi_updateClockConfig : (updateClockConfig s).ssi = s.ssi := rfl

theorem ssi_afterReset (hcs : bus.Unselected) : (afterReset bus s).ssi = s.ssi := by
  change (List.range' 0 n).foldl (fun ssi i => bus.setCs ssi i true) s.ssi = s.ssi
  exact List.foldl_fixed' (fun _ => hcs _ _ _) _

theorem ssi_asserted (hcs : bus.Unselected) : (asserted bus s).ssi = s.ssi := by
  change (if asserts s then bus.setCs s.ssi _ _ else s.ssi) = s.ssi
  rw [hcs, ite_self]

theorem answer_asserted (hcs : bus.Unselected) :
    answer bus (asserted bus s) (txWord s) = answer bus s (txWord s) := by
  rw [answer, answer, ssi_asserted hcs]
  rfl

theorem ssi_sendFrame (hcs : bus.Unselected) :
    (sendFrame bus s).ssi = (answer bus s (txWord s)).2 := by
  have hrel : (sendFrame bus s).ssi = (answer bus (asserted bus s) (txWord s)).2 := by
    change (if releases _ then bus.setCs (answer bus (asserted bus s) (txWord s)).2 _ _
      else (answer bus (asserted bus s) (txWord s)).2) = _
    rw [hcs, ite_self]
  rw [hrel, answer_asserted hcs]

theorem rxData_frame (hcs : bus.Unselected) :
    (frame bus s).rxData = (answer bus s (txWord s)).1 := congrArg Prod.fst (answer_asserted hcs)

/-- A frame is sent on the bus as it is before the access. -/
theorem sending_same {x : State n β} (h : sending s a = some x) :
    x.ssi = s.ssi ∧ x.cfgr1 = s.cfgr1 := by
  obtain ⟨addr, v, -, -, -, ⟨-, rfl⟩ | ⟨-, rfl, -⟩⟩ := sending_eq_some h <;> exact ⟨rfl, rfl⟩

/-- The bus after an access. -/
theorem Effect.ssi_eq {v : Option (BitVec 32)} (hcs : bus.Unselected) (h : Effect bus s a v t) :
    t.ssi = (sending s a).elim s.ssi fun x => (answer bus x (txWord x)).2 := by
  cases h with
  | look | take => rfl
  | ignore hr =>
    obtain ⟨-, h₁, h₂⟩ := readOnly_ne hr
    rw [sending_of_ne h₁ h₂]
    rfl
  | reset hr =>
    rw [sending_of_ne (by simp [hr]) (by simp [hr])]
    exact ssi_afterReset hcs
  | control hr | clear hr | watermark hr =>
    rw [sending_of_ne (by simp [hr]) (by simp [hr])]
    rfl
  | @configure _ _ r _ hr ht =>
    obtain ⟨-, h₁, h₂⟩ := configure_ne ht
    rw [sending_of_ne (by simp [hr, h₁]) (by simp [hr, h₂])]
    obtain ⟨_, _, _, _, _, _, _, rfl⟩ := configure_eq ht
    rfl
  | command hr hv h =>
    rw [sending_of_tcr hr, if_neg h]
    rfl
  | resume hr hv hmen h =>
    rw [sending_of_tcr hr, if_pos ⟨hmen, h⟩, ssi_settle, ssi_updateClockConfig, ssi_sendFrame hcs,
      Option.elim_some]
  | refuse hr hmen =>
    rw [sending_of_tdr hr, if_neg (by simp [hmen])]
    rfl
  | overflow hr hmen h =>
    rw [sending_of_tdr hr, if_neg fun hroom => absurd hroom.2.1 (Nat.not_le.2 h)]
    rfl
  | queue hr hmen hroom h =>
    rw [sending_of_tdr hr, if_neg fun hgo => h hgo.2.2]
    rfl
  | send hr hmen hroom h =>
    rw [sending_of_tdr hr, if_pos ⟨hmen, hroom, h⟩, ssi_settle, ssi_sendFrame hcs,
      Option.elim_some]

/-- The answers in an access are those of the bus to the words handed to it. -/
theorem Effect.transfers_eq {v : Option (BitVec 32)} (hcs : bus.Unselected)
    (hloop : loopback s.cfgr1 = false) (hcalls : s.calls = []) (h : Effect bus s a v t) :
    bus.transfers s.ssi ((exchanges t.calls).map (·.txData)) =
      ((exchanges t.calls).map (·.rxData), t.ssi) := by
  rw [h.exchanges_eq, hcalls, h.ssi_eq hcs]
  cases hx : sending s a with
  | none => rfl
  | some x =>
    obtain ⟨hssi, hcfgr1⟩ := sending_same hx
    have hanswer : answer bus x (txWord x) = bus.transfer s.ssi (txWord x) := by
      rw [answer, hcfgr1, hloop, if_neg Bool.false_ne_true, hssi]
    have hrx := rxData_frame (s := x) hcs
    rw [hanswer] at hrx
    simp only [exchanges_nil, List.nil_append, Option.toList_some, List.map_cons, List.map_nil,
      SsiBus.transfers, hrx, Option.elim_some, hanswer]
    rfl

/-! ## Reading and writing data -/

/-- The access writes `TDR` or reads `RDR`. -/
def Access.Data : Access → Prop
  | .read addr => Reg.ofOffset? addr = some .rdr
  | .write addr _ => Reg.ofOffset? addr = some .tdr

instance : DecidablePred Access.Data
  | .read addr => inferInstanceAs (Decidable (Reg.ofOffset? addr = some .rdr))
  | .write addr _ => inferInstanceAs (Decidable (Reg.ofOffset? addr = some .tdr))

theorem Access.Data.transfers {b : ℕ} {l : Bool} (ha : a.Data) : a.Transfers n b l := by
  cases a with
  | read => exact ⟨trivial, trivial⟩
  | write addr v =>
    have hr : Reg.ofOffset? addr = some .tdr := ha
    exact ⟨fun h => absurd (hr.symm.trans h) (by decide),
      fun h => absurd (hr.symm.trans h) (by decide)⟩

theorem Access.Data.cfgr1After (ha : a.Data) : cfgr1After s a = s.cfgr1 := by
  cases a with
  | read => rfl
  | write addr v =>
    have hr : Reg.ofOffset? addr = some .tdr := ha
    simp [Lpspi.cfgr1After, hr]

variable {as : List Access} {h : List (Step n β)}

/-- The frames exchanged in a run that only reads and writes data, without loopback, are
    answered by the bus. -/
theorem run_transfers (hcs : bus.Unselected) (hr : run bus s as = .ok (h, t)) (hs : Settled s)
    (hloop : loopback s.cfgr1 = false) (ha : ∀ a ∈ as, a.Data) :
    bus.transfers s.ssi ((h.flatMap fun τ => exchanges τ.output.calls).map (·.txData)) =
      ((h.flatMap fun τ => exchanges τ.output.calls).map (·.rxData), t.ssi) := by
  have hinv := Mealy.run_invariant (I := fun s => Settled s ∧ loopback s.cfgr1 = false) hr
    ⟨hs, hloop⟩ fun τ hτ htake ⟨hset, hpre⟩ => by
      obtain ⟨u, hu, -, hpost⟩ := effect_of_access hset.bytes_ne_zero htake
      have hcfg : τ.post.cfgr1 = τ.pre.cfgr1 := by
        rw [hpost, ← (ha _ (Mealy.run_takes hr τ hτ).2).cfgr1After (s := τ.pre), ← hu.cfgr1_eq]
      exact ⟨hset.access htake, hcfg ▸ hpre⟩
  refine Mealy.run_trace (fun s : State n β => s.ssi) (R := fun c (xs : List (Exchange n)) d =>
    bus.transfers c (xs.map (·.txData)) = (xs.map (·.rxData), d)) (fun _ => rfl) ?_ hr ?_
  · intro c d e xs ys hxs hys
    rw [List.map_append, List.map_append]
    exact SsiBus.transfers_append hxs hys
  · intro τ hτ
    obtain ⟨⟨hset, hpre⟩, -⟩ := hinv.2 τ hτ
    obtain ⟨u, hu, hcalls, hpost⟩ :=
      effect_of_access hset.bytes_ne_zero (Mealy.run_takes hr τ hτ).1
    rw [hcalls, hpost]
    exact hu.transfers_eq hcs hpre hset.calls_eq

/-- What is returned at an index is the answer in the frame exchanged at this index, if the
    RX FIFO is empty at first. -/
theorem run_getElem?_returned {b i v : ℕ} {l : Bool} (hr : run bus s as = .ok (h, t))
    (hs : Aligned b l s) (ha : ∀ a ∈ as, a.Transfers n b l) (hrx : s.rxFifo.num = 0)
    (hv : (h.flatMap returned)[i]? = some v) :
    ∃ x, (h.flatMap fun τ => exchanges τ.output.calls)[i]? = some x ∧
      v = x.rxData.toNat % 2 ^ (8 * b) := by
  have hR := run_conserves_rx hr hs ha
  rw [fifoWords_of_num_eq_zero hrx, List.nil_append] at hR
  have hanswered : h.flatMap (answered b) =
      (h.flatMap fun τ => exchanges τ.output.calls).map (·.rxData.toNat % 2 ^ (8 * b)) := by
    rw [List.map_flatMap]
    rfl
  have hi : (h.flatMap (answered b))[i]? = some v := by
    rw [hR, List.getElem?_append_left (List.getElem?_eq_some_iff.1 hv).1, hv]
  rw [hanswered, List.getElem?_map, Option.map_eq_some_iff] at hi
  obtain ⟨x, hx, rfl⟩ := hi
  exact ⟨x, hx, rfl⟩

/-- What is accepted at first is what the frames exchanged at first hand to the bus, if the
    TX FIFO is empty at first. -/
theorem run_take_accepted {b k : ℕ} {l : Bool} (hr : run bus s as = .ok (h, t))
    (hs : Aligned b l s) (ha : ∀ a ∈ as, a.Transfers n b l) (htx : s.txFifo.num = 0)
    (hk : k ≤ (h.flatMap fun τ => exchanges τ.output.calls).length) :
    k ≤ (h.flatMap (accepted b)).length ∧ (h.flatMap (accepted b)).take k =
      (((h.flatMap fun τ => exchanges τ.output.calls).map (·.txData)).take k).map BitVec.toNat := by
  have hW := run_conserves_tx hr hs ha
  rw [fifoWords_of_num_eq_zero htx, List.nil_append] at hW
  have hhanded : h.flatMap handed =
      ((h.flatMap fun τ => exchanges τ.output.calls).map (·.txData)).map BitVec.toNat := by
    rw [List.map_flatMap, List.map_flatMap]
    exact List.flatMap_congr fun τ _ => by rw [handed, List.map_map]; rfl
  have hlen : k ≤ (h.flatMap handed).length := by
    rwa [hhanded, List.length_map, List.length_map]
  rw [hW, List.take_append_of_le_length hlen, hhanded, List.map_take]
  rw [hhanded] at hlen
  exact ⟨hlen.trans (by rw [List.length_append]; exact Nat.le_add_right _ _), rfl⟩

/-! ## The sensor -/

/-- The peripherals on a bus, and the number of calls of `rand`. -/
abbrev Sensors : Type := List (Peripheral MotorSpeedSensor ℕ) × ℕ

/-- A bus of motor speed sensors. They have no chip select that could be connected to
    the lines of the device. -/
def sensorBus : SsiBus Sensors where
  transfer c val := ssiTransfer c.1 val c.2
  setCs c _ _ := c

/-- A bus with one sensor, after `k` calls of `rand`. -/
def oneSensor (rand : ℕ → ℤ) (sensor : MotorSpeedSensor) (k : ℕ) : Sensors :=
  ([motorSpeedSensor rand sensor], k)

theorem unselected_sensorBus : sensorBus.Unselected := fun _ _ _ => rfl

variable {rand : ℕ → ℤ}

theorem transfer_oneSensor (sensor : MotorSpeedSensor) (k : ℕ) (w : BitVec 32) :
    sensorBus.transfer (oneSensor rand sensor k) w =
      if w = cmdGetSpeed then
        ((generateRandomSpeed rand k).setWidth 32,
          oneSensor rand ⟨generateRandomSpeed rand k, generateRandomSpeed rand k⟩ (k + 1))
      else (sensor.transferValue.setWidth 32, oneSensor rand sensor k) := by
  have hbus : sensorBus.transfer (oneSensor rand sensor k) w = _ :=
    ssiTransfer_singleton (p := motorSpeedSensor rand sensor) rfl w k
  rw [hbus]
  split_ifs with hw <;> simp [motorSpeedSensorTransfer, motorSpeedSensor, motorSpeedSensorClass,
    oneSensor, hw]

/-- The answer of the sensor to a word is the speed of the last command so far. -/
theorem transfers_sensorBus {sensor : MotorSpeedSensor} {k i : ℕ} {ws : List (BitVec 32)}
    {r : BitVec 32} (h : (sensorBus.transfers (oneSensor rand sensor k) ws).1[i]? = some r) :
    r = (speedAfter rand k sensor.transferValue ((ws.take (i + 1)).count cmdGetSpeed)).setWidth
      32 := by
  induction ws generalizing sensor k i with
  | nil => exact absurd h (by simp [SsiBus.transfers])
  | cons w ws ih =>
    simp only [SsiBus.transfers, transfer_oneSensor] at h
    by_cases hw : w = cmdGetSpeed
    · -- A command: the rest is answered by a sensor that has just been asked.
      simp only [hw, if_true] at h
      rw [hw, List.take_succ_cons, List.count_cons_self, speedAfter_succ]
      cases i with
      | zero => simpa [speedAfter] using h.symm
      | succ i => exact ih h
    · simp only [hw, if_false] at h
      rw [List.take_succ_cons, List.count_cons_of_ne hw]
      cases i with
      | zero => simpa [speedAfter] using h.symm
      | succ i => exact ih h

/-- A speed fits in a frame of any size. -/
theorem toNat_speedAfter_mod (hrand : ∀ i, 0 ≤ rand i) {b : ℕ} (hb : 1 ≤ b) (k m : ℕ) :
    ((speedAfter rand k 0#16 m).setWidth 32).toNat % 2 ^ (8 * b) =
      (speedAfter rand k 0#16 m).toNat := by
  have hle := speedAfter_le hrand k m
  have hpow : 2 ^ 8 ≤ 2 ^ (8 * b) := Nat.pow_le_pow_right (by decide) (by omega)
  rw [BitVec.toNat_setWidth, Nat.mod_eq_of_lt (by omega), Nat.mod_eq_of_lt (by omega)]

/-- **Commands and answers.** The device, not in loopback mode and with empty FIFOs, has a
    sensor on its bus that has just been realized. Whatever data is then written and
    read, with frames of any size and byte order, the value read at index `i` answers
    the value accepted at index `i`: it is the speed generated for the last command up
    to there, at most 254, or zero before any command. -/
theorem sensor_answers_in_order (rand : ℕ → ℤ) (hrand : ∀ i, 0 ≤ rand i) (k₀ : ℕ)
    {s : State n Sensors} (hs : Reachable sensorBus s)
    (hsensor : s.ssi = oneSensor rand motorSpeedSensorRealize k₀)
    (hloop : loopback s.cfgr1 = false) (htx : s.txFifo.num = 0) (hrx : s.rxFifo.num = 0)
    (hmask : rxmsk s.tcr = false) (hpcs : pcs s.tcr < n) (as : List Access)
    (ha : ∀ a ∈ as, a.Data) :
    let b := bytesPerFrame s.tcr
    ∃ h t, run sensorBus s as = .ok (h, t) ∧ 1 ≤ b ∧ b ≤ 4 ∧
      ∀ i v, (h.flatMap returned)[i]? = some v →
        i < (h.flatMap (accepted b)).length ∧
        v = (speedAfter rand k₀ 0#16 (((h.flatMap (accepted b)).take (i + 1)).count 0xAA)).toNat ∧
        v ≤ 254 := by
  intro b
  have hal : Aligned b (lsbf s.tcr) s :=
    ⟨hs.settled, rfl, rfl, hmask, hpcs, htx ▸ dvd_zero b, hrx ▸ dvd_zero b⟩
  have hat : ∀ a ∈ as, a.Transfers n b (lsbf s.tcr) := fun a h => (ha a h).transfers
  obtain ⟨h, t, hr⟩ := run_transfers_ok sensorBus hal hat
  refine ⟨h, t, hr, hal.bytes_pos, hal.bytes_le, fun i v hv => ?_⟩
  obtain ⟨x, hx, rfl⟩ := run_getElem?_returned hr hal hat hrx hv
  have hlt := (List.getElem?_eq_some_iff.1 hx).1
  obtain ⟨hacc, htake⟩ := run_take_accepted hr hal hat htx (Nat.succ_le_of_lt hlt)
  -- The frame at this index is answered by the sensor.
  have hbus := run_transfers unselected_sensorBus hr hs.settled hloop ha
  have hanswer : (sensorBus.transfers (oneSensor rand motorSpeedSensorRealize k₀)
      ((h.flatMap fun τ => exchanges τ.output.calls).map (·.txData))).1[i]? = some x.rxData := by
    rw [← hsensor, hbus, List.getElem?_map, hx, Option.map_some]
  have hcount : ((h.flatMap (accepted b)).take (i + 1)).count 0xAA =
      (((h.flatMap fun τ => exchanges τ.output.calls).map (·.txData)).take (i + 1)).count
        cmdGetSpeed := by
    rw [htake]
    exact List.count_map_of_injective _ _ (fun _ _ => BitVec.eq_of_toNat_eq) cmdGetSpeed
  have hspeed : x.rxData.toNat % 2 ^ (8 * b) = (speedAfter rand k₀ 0#16
      (((h.flatMap (accepted b)).take (i + 1)).count 0xAA)).toNat := by
    rw [transfers_sensorBus hanswer, hcount]
    exact toNat_speedAfter_mod hrand hal.bytes_pos _ _
  exact ⟨hacc, hspeed, hspeed ▸ speedAfter_le hrand _ _⟩

/-- The LPSPI of the SoC with its sensor, right after power on. -/
def withSensor (rand : ℕ → ℤ) : State 1 Sensors :=
  atPowerOn sensorBus 80000000 1 (oneSensor rand motorSpeedSensorRealize 0)

theorem powerOn_withSensor (rand : ℕ → ℤ) : PowerOn sensorBus (withSensor rand) :=
  powerOn_iff.2 ⟨80000000, _, by decide, by decide, by decide, rfl⟩

/-- The module is enabled. -/
def enabled (s : State n β) : State n β := { settle (writeCr s crMen) with calls := [] }

theorem PowerOn.reachable_enabled {s₀ : State n β} (h₀ : PowerOn bus s₀) :
    Reachable bus (enabled s₀) := by
  have hctl : Effect bus s₀ (.write 0x10 crMen) none (settle (writeCr s₀ crMen)) :=
    .control (by decide) (by decide)
  exact ⟨s₀, [.write 0x10 crMen], _, h₀,
    Mealy.run_cons_of_ok (hctl.access_eq h₀.settled.bytes_ne_zero) rfl⟩

/-- A command, another word, and the first answer, with `rand` counting up from 300: the
    answer is 45. -/
theorem sensor_answers_in_order_once : ∃ h t,
    run sensorBus (enabled (withSensor fun k => 300 + k))
        [.write 0x64 0xAA#32, .write 0x64 1#32, .read 0x74] = .ok (h, t) ∧
      h.flatMap returned = [45] ∧ h.flatMap (accepted 4) = [0xAA, 1] ∧
      45 = (speedAfter (fun k => 300 + k) 0 0#16 1).toNat := by
  obtain ⟨h, t, hr, -, -, hall⟩ := sensor_answers_in_order (fun k => 300 + k) (fun i => by omega) 0
    (powerOn_withSensor _).reachable_enabled rfl rfl rfl rfl rfl (by decide)
    [.write 0x64 0xAA#32, .write 0x64 1#32, .read 0x74] (by decide)
  have heval : h.flatMap returned = [45] ∧ h.flatMap (accepted 4) = [0xAA, 1] := by
    obtain ⟨rfl, rfl⟩ := Prod.mk.inj (Except.ok.inj hr)
    exact ⟨rfl, rfl⟩
  obtain ⟨-, hspeed, -⟩ := hall 0 45 (congrArg (·[0]?) heval.1)
  rw [show bytesPerFrame (enabled (withSensor fun k => 300 + k)).tcr = 4 from rfl, heval.2]
    at hspeed
  exact ⟨h, t, hr, heval.1, heval.2, hspeed⟩

end S32K358.Lpspi
