import Mathlib.Order.Bounds.Defs
import S32K358.LpuartUartIp.Bench

/-!
# The baud rate

The initialisation of the driver and `Lpuart_Uart_Ip_SetBaudRate` program an oversampling
ratio and a divisor, in up to three writes of `BAUD`, each of which tells the backend a
speed. What counts is the last.

`Lpuart_Uart_Ip_SetBaudRate` tries the ratios from 4 to 32, each with the greatest divisor
that keeps the speed from falling below the desired one. As long as these divisors fit into
the register, the speed that the backend ends up with is the *least* speed not below the
desired one that any ratio and divisor give (`Shows.setBaudRate`). The driver, however, keeps
the speed of the ratio it has tried last, for `Lpuart_Uart_Ip_GetBaudRate`.
-/

namespace S32K358.LpuartUartIp

open Program Port
open Lpuart (speedOf passed)

/-! ## The search -/

/-- The distance of two speeds. -/
def distance (calculatedBaud expectedBaud : ℕ) : ℕ :=
  if calculatedBaud > expectedBaud then calculatedBaud - expectedBaud
  else expectedBaud - calculatedBaud

/-- The variables of the search: the best ratio, its divisor and its distance, and the speed
    of the last ratio tried. -/
structure Search where
  osr : ℕ
  sbr : ℕ
  baudDiff : ℕ
  calculatedBaud : ℕ
  deriving DecidableEq, Repr

/-- The divisor for a ratio, a `uint16`. -/
def sbrFor (clk baud osr : ℕ) : ℕ := clk / (baud * osr % 2 ^ 32) % 2 ^ 16

/-- The speed with the divisor for a ratio. A division by zero gives zero. -/
def baudFor (clk baud osr : ℕ) : ℕ := clk / (osr * sbrFor clk baud osr % 2 ^ 32)

/-- A ratio is tried. -/
def tryOsr (clk baud : ℕ) (b : Search) (idx : ℕ) : Search :=
  let calculatedBaud := baudFor clk baud idx
  let tempDiff := distance calculatedBaud baud
  if tempDiff ≤ b.baudDiff then ⟨idx, sbrFor clk baud idx, tempDiff, calculatedBaud⟩
  else { b with calculatedBaud := calculatedBaud }

/-- The search of `Lpuart_Uart_Ip_SetBaudRate`. -/
def searchBaud (clk baud : ℕ) : Search :=
  let maxOsr := min (clk / baud) 32
  (List.range' 5 (maxOsr + 1 - 5)).foldl (tryOsr clk baud)
    ⟨4, sbrFor clk baud 4, distance (baudFor clk baud 4) baud, baudFor clk baud 4⟩

section Functions

variable {ε σ : Type} (p : Port Reg ε σ)

/-- `Lpuart_Uart_Ip_SetBaudRate`. -/
def setBaudRate (desiredBaudrate : Baudrate) (clockFrequency : ℕ) (w : World σ) :
    Except (Port.Stop ε) (StatusType × World σ) := do
  let w ← w.devAssert (w.state.registered = true)
  if w.state.isTxBusy || w.state.isRxBusy then pure (.busy, w)
  else do
    let expectedBaud := desiredBaudrate.toNat
    let w ← w.devAssert (clockFrequency > 0)
    let w ← w.devAssert (clockFrequency ≥ expectedBaud * 4 % 2 ^ 32)
    let b := searchBaud clockFrequency expectedBaud
    let w ← enableBothEdgeSampling p b.osr w
    let w ← setOversamplingRatio p (BitVec.ofNat 32 b.osr - 1#32) w
    let w ← setBaudRateDivisor p (BitVec.ofNat 32 b.sbr) w
    pure (.success, w.upd fun st => { st with baudRate := b.calculatedBaud })

/-- `Lpuart_Uart_Ip_GetBaudRate`. -/
def getBaudRate (w : World σ) : ℕ := w.state.baudRate

end Functions

/-! ## What the search finds -/

variable {clk baud : ℕ}

/-- The clock and the desired speed are such that nothing overflows, and the divisors fit into
    the register. -/
structure InRange (clk baud : ℕ) : Prop where
  clk_lt : clk < 2 ^ 32
  baud_pos : 0 < baud
  four_le : baud * 4 ≤ clk
  divisor_lt : clk < baud * 2 ^ 15

/-- The ratios that are tried. -/
def Tried (clk baud osr : ℕ) : Prop := 4 ≤ osr ∧ osr ≤ 32 ∧ baud * osr ≤ clk

theorem sbrFor_eq (h : InRange clk baud) {osr : ℕ} (ho : Tried clk baud osr) :
    sbrFor clk baud osr = clk / (baud * osr) ∧ 0 < clk / (baud * osr) ∧
      clk / (baud * osr) < 2 ^ 13 := by
  obtain ⟨h4, -, hle⟩ := ho
  have hpos : 0 < baud * osr := Nat.mul_pos h.baud_pos (by omega)
  have hlt : clk / (baud * osr) < 2 ^ 13 := by
    rw [Nat.div_lt_iff_lt_mul hpos]
    calc clk < baud * 2 ^ 15 := h.divisor_lt
      _ = 2 ^ 13 * (baud * 4) := by ring
      _ ≤ 2 ^ 13 * (baud * osr) := Nat.mul_le_mul_left _ (Nat.mul_le_mul_left _ h4)
  refine ⟨?_, Nat.div_pos hle hpos, hlt⟩
  rw [sbrFor, Nat.mod_eq_of_lt (Nat.lt_of_le_of_lt hle h.clk_lt), Nat.mod_eq_of_lt (by omega)]

theorem baudFor_eq (h : InRange clk baud) {osr : ℕ} (ho : Tried clk baud osr) :
    baudFor clk baud osr = clk / (osr * (clk / (baud * osr))) := by
  obtain ⟨hsbr, -, -⟩ := sbrFor_eq h ho
  have hle : osr * (clk / (baud * osr)) ≤ clk :=
    calc osr * (clk / (baud * osr)) ≤ baud * osr * (clk / (baud * osr)) :=
          Nat.mul_le_mul_right _ (Nat.le_mul_of_pos_left _ h.baud_pos)
      _ ≤ clk := Nat.mul_div_le _ _
  rw [baudFor, hsbr, Nat.mod_eq_of_lt (Nat.lt_of_le_of_lt hle h.clk_lt)]

/-- A speed is not below the desired one exactly if its divisor is at most the one tried. -/
theorem le_speed_iff {osr sbr : ℕ} (hb : 0 < baud) (ho : 0 < osr) (hs : 0 < sbr) :
    baud ≤ clk / (osr * sbr) ↔ sbr ≤ clk / (baud * osr) := by
  rw [Nat.le_div_iff_mul_le (Nat.mul_pos ho hs), Nat.le_div_iff_mul_le (Nat.mul_pos hb ho)]
  rw [show sbr * (baud * osr) = baud * (osr * sbr) by ring]

theorem le_baudFor (h : InRange clk baud) {osr : ℕ} (ho : Tried clk baud osr) :
    baud ≤ baudFor clk baud osr := by
  rw [baudFor_eq h ho, le_speed_iff h.baud_pos (by have := ho.1; omega) (sbrFor_eq h ho).2.1]

theorem distance_baudFor (h : InRange clk baud) {osr : ℕ} (ho : Tried clk baud osr) :
    distance (baudFor clk baud osr) baud = baudFor clk baud osr - baud := by
  have := le_baudFor h ho
  rw [distance]
  split_ifs <;> omega

/-- The best of the ratios tried so far, and the last of them. -/
structure Search.Best (clk baud : ℕ) (tried : ℕ → Prop) (b : Search) : Prop where
  tried_osr : tried b.osr
  sbr_eq : b.sbr = sbrFor clk baud b.osr
  diff_eq : b.baudDiff = distance (baudFor clk baud b.osr) baud
  best : ∀ osr, tried osr → b.baudDiff ≤ distance (baudFor clk baud osr) baud

theorem Search.Best.tryOsr {tried : ℕ → Prop} {b : Search} (hb : b.Best clk baud tried) (idx : ℕ) :
    (tryOsr clk baud b idx).Best clk baud (fun osr => tried osr ∨ osr = idx) := by
  rw [LpuartUartIp.tryOsr]
  split_ifs with hle
  · refine ⟨.inr rfl, rfl, rfl, ?_⟩
    rintro osr (ho | rfl)
    · exact hle.trans (hb.best osr ho)
    · exact le_rfl
  · refine ⟨.inl hb.tried_osr, hb.sbr_eq, hb.diff_eq, ?_⟩
    rintro osr (ho | rfl)
    · exact hb.best osr ho
    · exact (not_le.1 hle).le

theorem foldl_best {tried : ℕ → Prop} {b : Search} (hb : b.Best clk baud tried) (l : List ℕ) :
    (l.foldl (tryOsr clk baud) b).Best clk baud (fun osr => tried osr ∨ osr ∈ l) := by
  induction l generalizing b tried with
  | nil => simpa using hb
  | cons idx l ih => simpa [or_assoc] using ih (hb.tryOsr idx)

theorem searchBaud_best (h : InRange clk baud) :
    (searchBaud clk baud).Best clk baud (Tried clk baud) := by
  have hstart : Search.Best clk baud (· = 4)
      ⟨4, sbrFor clk baud 4, distance (baudFor clk baud 4) baud, baudFor clk baud 4⟩ :=
    ⟨rfl, rfl, rfl, fun _ ho => ho ▸ le_rfl⟩
  have hbest := foldl_best hstart (List.range' 5 (min (clk / baud) 32 + 1 - 5))
  have h4 : 4 ≤ clk / baud := by
    rw [Nat.le_div_iff_mul_le h.baud_pos]
    linarith [h.four_le]
  have htried : (fun osr => osr = 4 ∨ osr ∈ List.range' 5 (min (clk / baud) 32 + 1 - 5)) =
      Tried clk baud := by
    funext osr
    have hle : baud * osr ≤ clk ↔ osr ≤ clk / baud := by
      rw [Nat.le_div_iff_mul_le h.baud_pos, Nat.mul_comm]
    simp only [Tried, List.mem_range'_1, hle, eq_iff_iff]
    omega
  rw [htried] at hbest
  exact hbest

/-- The speed kept is the one of the last ratio tried. -/
theorem calculatedBaud_foldl (b : Search) (l : List ℕ) (idx : ℕ) :
    ((l ++ [idx]).foldl (tryOsr clk baud) b).calculatedBaud = baudFor clk baud idx := by
  rw [List.foldl_append, List.foldl_cons, List.foldl_nil, tryOsr]
  split_ifs <;> rfl

theorem calculatedBaud_searchBaud (h : InRange clk baud) :
    (searchBaud clk baud).calculatedBaud = baudFor clk baud (min (clk / baud) 32) := by
  have h4 : 4 ≤ clk / baud := by
    rw [Nat.le_div_iff_mul_le h.baud_pos]
    linarith [h.four_le]
  rw [searchBaud]
  obtain hmax | ⟨k, hk⟩ : min (clk / baud) 32 = 4 ∨ ∃ k, min (clk / baud) 32 = 5 + k :=
    or_iff_not_imp_left.2 fun hne => ⟨min (clk / baud) 32 - 5, by omega⟩
  · simp only [hmax]
    rfl
  · simp only [hk]
    rw [show 5 + k + 1 - 5 = k + 1 by omega, List.range'_concat, calculatedBaud_foldl, Nat.one_mul]

/-- The speeds not below the desired one that a ratio and a divisor give. -/
def speedsFrom (clk baud : ℕ) : Set ℕ :=
  { v | baud ≤ v ∧ ∃ osr sbr, (4 ≤ osr ∧ osr ≤ 32) ∧ (0 < sbr ∧ sbr < 2 ^ 13) ∧
      v = clk / (osr * sbr) }

theorem baudFor_mem (h : InRange clk baud) {osr : ℕ} (ho : Tried clk baud osr) :
    baudFor clk baud osr ∈ speedsFrom clk baud :=
  ⟨le_baudFor h ho, osr, _, ⟨ho.1, ho.2.1⟩, (sbrFor_eq h ho).2, baudFor_eq h ho⟩

/-- For each ratio, the divisor tried is the one of the least speed. -/
theorem baudFor_le (h : InRange clk baud) {v : ℕ} (hv : v ∈ speedsFrom clk baud) :
    ∃ osr, Tried clk baud osr ∧ baudFor clk baud osr ≤ v := by
  obtain ⟨hle, osr, sbr, ⟨h4, h32⟩, ⟨hpos, -⟩, rfl⟩ := hv
  have ho : 0 < osr := by omega
  have hsbr := (le_speed_iff h.baud_pos ho hpos).1 hle
  have htried : Tried clk baud osr := by
    refine ⟨h4, h32, ?_⟩
    have hone : 1 ≤ clk / (baud * osr) := Nat.le_trans hpos hsbr
    rwa [Nat.le_div_iff_mul_le (Nat.mul_pos h.baud_pos ho), Nat.one_mul] at hone
  refine ⟨osr, htried, ?_⟩
  rw [baudFor_eq h htried]
  exact Nat.div_le_div_left (Nat.mul_le_mul_left _ hsbr) (Nat.mul_pos ho hpos)

/-- The speed that the search finds is the least. -/
theorem searchBaud_isLeast (h : InRange clk baud) :
    IsLeast (speedsFrom clk baud) (baudFor clk baud (searchBaud clk baud).osr) := by
  have hbest := searchBaud_best h
  refine ⟨baudFor_mem h hbest.tried_osr, fun v hv => ?_⟩
  obtain ⟨osr, ho, hle⟩ := baudFor_le h hv
  have hdiff := hbest.best osr ho
  rw [hbest.diff_eq, distance_baudFor h hbest.tried_osr, distance_baudFor h ho] at hdiff
  have := le_baudFor h ho
  omega

/-- How far the least speed is from the desired one: less than by a part of the divisor of
    the ratio 4. -/
theorem least_lt (h : InRange clk baud) {v : ℕ} (hv : IsLeast (speedsFrom clk baud) v) :
    v * (clk / (baud * 4)) < baud * (clk / (baud * 4) + 1) := by
  have h4 : Tried clk baud 4 := ⟨le_rfl, by decide, h.four_le⟩
  obtain ⟨-, hpos, -⟩ := sbrFor_eq h h4
  have hle : v ≤ clk / (4 * (clk / (baud * 4))) :=
    (hv.2 (baudFor_mem h h4)).trans_eq (baudFor_eq h h4)
  rw [Nat.le_div_iff_mul_le (by omega)] at hle
  have hlt : clk < baud * 4 * (clk / (baud * 4) + 1) :=
    Nat.lt_mul_div_succ clk (Nat.mul_pos h.baud_pos (by decide))
  refine Nat.lt_of_mul_lt_mul_left (a := 4) ?_
  calc 4 * (v * (clk / (baud * 4))) = v * (4 * (clk / (baud * 4))) := by ring
    _ ≤ clk := hle
    _ < baud * 4 * (clk / (baud * 4) + 1) := hlt
    _ = 4 * (baud * (clk / (baud * 4) + 1)) := by ring

/-! ## The fields of `BAUD` -/

theorem insert_and_of_disjoint {m v k : BitVec 32} (hm : m &&& k = 0#32) (hv : v &&& k = 0#32)
    (y : BitVec 32) : insert m v y &&& k = y &&& k := by
  have hnot : ~~~m &&& k = k := by
    have hk : k &&& ~~~~~~m = 0#32 := by rw [BitVec.not_not, BitVec.and_comm, hm]
    rw [BitVec.and_comm]
    exact Bits.Within.and_eq hk
  rw [insert, BitVec.and_or_distrib_right, hv, BitVec.or_zero, BitVec.and_assoc, hnot]

theorem insert_and_self {m v : BitVec 32} (hv : v &&& m = v) (y : BitVec 32) :
    insert m v y &&& m = v := by
  rw [insert, BitVec.and_or_distrib_right, hv, BitVec.and_assoc, BitVec.and_comm (~~~m),
    BitVec.and_not_self]
  exact (congrArg (· ||| v) BitVec.and_zero).trans BitVec.zero_or

/-- The value of `BAUD` has the ratio and the divisor. -/
structure Divides (value : BitVec 32) (osr sbr : ℕ) : Prop where
  osr_eq : ((value &&& baudOsrMask) >>> 24).toNat + 1 = osr
  sbr_eq : (value &&& baudSbrMask).toNat = sbr

theorem Divides.speedOf_eq {value : BitVec 32} {osr sbr : ℕ} (h : Divides value osr sbr) (clk : ℕ) :
    speedOf clk value = clk / (osr * sbr) := by
  have hsbr : ((value &&& baudSbrMask) >>> 0).toNat = (value.extractLsb' 0 13).toNat :=
    Bits.toNat_field_eq (by decide) _
  have hosr : ((value &&& baudOsrMask) >>> 24).toNat = (value.extractLsb' 24 5).toNat :=
    Bits.toNat_field_eq (by decide) _
  rw [BitVec.ushiftRight_zero, h.sbr_eq] at hsbr
  rw [speedOf, ← hsbr, ← hosr, h.osr_eq]
  split_ifs with hzero
  · rw [hzero, Nat.mul_zero, Nat.div_zero]
  · rfl

theorem Divides.insert {value m v : BitVec 32} {osr sbr : ℕ} (h : Divides value osr sbr)
    (hm : m &&& (baudOsrMask ||| baudSbrMask) = 0#32)
    (hv : v &&& (baudOsrMask ||| baudSbrMask) = 0#32) : Divides (insert m v value) osr sbr := by
  have hand {k : BitVec 32} (hk : (baudOsrMask ||| baudSbrMask) &&& k = k) :
      LpuartUartIp.insert m v value &&& k = value &&& k :=
    Bits.and_mask_congr (insert_and_of_disjoint hm hv value) hk
  refine ⟨?_, ?_⟩
  · rw [hand (by decide), h.osr_eq]
  · rw [hand (by decide), h.sbr_eq]

/-- The ratio that the field gets: zero is taken for 32. -/
def ratioOf (osr : ℕ) : ℕ := if osr = 0 then 32 else osr

theorem osr_field : ∀ osr < 33,
    (((BitVec.ofNat 32 osr - 1#32) <<< 24 &&& baudOsrMask) >>> 24).toNat + 1 = ratioOf osr := by
  decide

/-- `BAUD`, with the ratio and the divisor programmed. -/
theorem divides_programmed {osr sbr : ℕ} (ho : osr ≤ 32) (hs : sbr < 2 ^ 13)
    (value : BitVec 32) :
    Divides (insert baudSbrMask (BitVec.ofNat 32 sbr &&& baudSbrMask)
      (insert baudOsrMask ((BitVec.ofNat 32 osr - 1#32) <<< 24 &&& baudOsrMask) value))
      (ratioOf osr) sbr := by
  have hand (v m : BitVec 32) : v &&& m &&& m = v &&& m := by
    rw [BitVec.and_assoc, BitVec.and_self]
  constructor
  · rw [insert_and_of_disjoint (by decide) ?_, insert_and_self (hand _ _)]
    · exact osr_field osr (by omega)
    · have hdisjoint : baudSbrMask &&& baudOsrMask = 0#32 := by decide
      rw [BitVec.and_assoc, hdisjoint, BitVec.and_zero]
  · have hlt : (BitVec.ofNat 32 sbr).toNat < 2 ^ 13 := by
      rw [BitVec.toNat_ofNat]
      exact Nat.lt_of_le_of_lt (Nat.mod_le _ _) hs
    rw [insert_and_self (hand _ _), show baudSbrMask = BitVec.ofNat 32 (2 ^ 13 - 1) from rfl,
      Bits.and_eq_self_of_lt (by decide) hlt, BitVec.toNat_ofNat, Nat.mod_eq_of_lt (by omega)]

/-! ## Setting the baud rate -/

variable {traffic : ℕ → Traffic} {st : StateStructure} {x : View} {w : World Bench}

theorem Shows.modifyBaud (h : Shows st x w) (f : BitVec 32 → BitVec 32) :
    Ends NoError (w.modify (device traffic) .baud f) (Shows st (x.written .baud (f x.baud))) := by
  refine (h.modify .baud f).mono ?_
  rintro w' ⟨_, rfl, hw'⟩
  exact hw'

/-- A ratio and a divisor are programmed. -/
theorem Shows.program (h : Shows st x w) {osr sbr : ℕ} (ho : osr ≤ 32)
    (hs : sbr < 2 ^ 13) {β : Type} {f : World Bench → Except (Stop Empty) β} {R : β → Prop}
    (hf : ∀ value w', Divides value (ratioOf osr) sbr → Shows st (x.written .baud value) w' →
      Ends NoError (f w') R) :
    Ends NoError (do
      let w ← enableBothEdgeSampling (device traffic) osr w
      let w ← setOversamplingRatio (device traffic) (BitVec.ofNat 32 osr - 1#32) w
      let w ← setBaudRateDivisor (device traffic) (BitVec.ofNat 32 sbr) w
      f w) R := by
  have hedge : Ends NoError (enableBothEdgeSampling (device traffic) osr w) fun w' =>
      ∃ y, (∀ value, y.written .baud value = x.written .baud value) ∧ Shows st y w' := by
    rw [enableBothEdgeSampling]
    split_ifs
    · exact (h.modifyBaud _).mono fun w' hw' => ⟨x.written .baud _, fun _ => rfl, hw'⟩
    · exact ends_pure ⟨x, fun _ => rfl, h⟩
  refine hedge.bind ?_
  rintro w₁ ⟨y, hy, h₁⟩
  refine (h₁.modifyBaud _).bind fun w₂ h₂ => ?_
  refine (h₂.modifyBaud _).bind fun w₃ h₃ => ?_
  exact hf _ w₃ (divides_programmed ho hs y.baud) (hy _ ▸ h₃)

/-! ## Initialisation -/

/-- The configuration passes the assertions of `Lpuart_Uart_Ip_Init`. -/
structure UserConfig.Valid (c : UserConfig) : Prop where
  osr_le : c.baudOverSamplingRatio ≤ 0x20
  divisor : c.baudRateDivisor ≤ 0x1FFF ∧ c.baudRateDivisor ≥ 1
  parity : c.bitCountPerChar ≠ .ten ∨ c.parityMode = .disabled

/-- The state structure of a driver that is initialised. -/
def StateStructure.inited (c : UserConfig) : StateStructure :=
  { StateStructure.cleared with baudRate := c.baudRate }

/-- The bits of `CTRL` that the configuration decides. -/
def ctrlModes : BitVec 32 := ctrlM7 ||| 0x30#32 ||| ctrlPe ||| ctrlPt

theorem Shows.modifyModes (h : Shows st x w) (hx : Bits.Within x.cr ctrlModes) {m v : BitVec 32}
    (hv : Bits.Within v ctrlModes) :
    Ends NoError (w.modify (device traffic) .ctrl (insert m v)) fun w' =>
      ∃ cr, Bits.Within cr ctrlModes ∧ Shows st { x with cr := cr } w' := by
  refine (h.modify .ctrl _).mono ?_
  rintro w' ⟨value, hvalue, hw'⟩
  refine ⟨_, ?_, hw'⟩
  rw [insert, BitVec.and_or_distrib_right, BitVec.and_assoc, BitVec.and_comm (~~~m),
    ← BitVec.and_assoc, show value &&& ~~~ctrlDataBits = x.cr from hvalue]
  exact (hx.and _).or (hv.and _)

/-- During the initialisation, the flags have been cleared, as far as the mask of the driver
    does it, and `CTRL` has only bits of the configuration. -/
structure View.Initialising (x y : View) : Prop where
  clk_eq : y.clk = x.clk
  sent_eq : y.sent = x.sent
  flags_eq : y.flags = x.flags &&& statRegFlagsMask
  cr_within : Bits.Within y.cr ctrlModes

/-- Moreover, the ratio and the divisor of the configuration have been programmed, and the
    backend been told the speed. -/
structure View.Initialised (c : UserConfig) (x y : View) : Prop extends x.Initialising y where
  divides : Divides y.baud (ratioOf c.baudOverSamplingRatio) c.baudRateDivisor
  speed_eq : y.speed = some (passed (speedOf x.clk y.baud))

variable {c : UserConfig} {y : View}

theorem View.Initialised.written (h : x.Initialised c y) {m v : BitVec 32}
    (hm : m &&& (baudOsrMask ||| baudSbrMask) = 0#32)
    (hv : v &&& (baudOsrMask ||| baudSbrMask) = 0#32) :
    x.Initialised c (y.written .baud (insert m v y.baud)) :=
  { h.toInitialising with
    divides := h.divides.insert hm hv
    speed_eq := congrArg (fun clk => some (passed (speedOf clk (insert m v y.baud)))) h.clk_eq }

theorem View.Initialised.setCr (h : x.Initialised c y) {cr : BitVec 32}
    (hcr : Bits.Within cr ctrlModes) : x.Initialised c { y with cr := cr } :=
  { h with cr_within := hcr }

theorem Shows.hwInit (h : Shows st x w) :
    Ends NoError (hwInit (device traffic) w) fun w' => ∃ y, x.Initialising y ∧ Shows st y w' := by
  refine (h.write .baud _).bind fun w₁ h₁ => ?_
  refine (h₁.write .stat _).bind fun w₂ h₂ => ?_
  refine (h₂.write .ctrl _).mono fun w₃ h₃ => ⟨_, ?_, h₃⟩
  rw [View.written_stat _ (by decide)]
  have hcr : Bits.Within (0#32 &&& ~~~ctrlDataBits) ctrlModes := by decide
  exact ⟨rfl, rfl, rfl, hcr⟩

/-- What the number of bits does to `CTRL`. -/
theorem bitCount_modes (n : BitCountPerChar) (parity : Bool) : ∃ m v, Bits.Within v ctrlModes ∧
    (if n = .seven then if parity then (· &&& ~~~(ctrlM7 ||| ctrlM)) else insert ctrlM7 ctrlM7
      else insert ctrlM (BitVec.ofNat 32 (n.toNat + parity.toNat - 1) <<< 4)) = insert m v := by
  by_cases hn : n = .seven
  · rw [if_pos hn]
    cases parity with
    | true => exact ⟨_, 0#32, by decide, funext fun _ => BitVec.or_zero.symm⟩
    | false => exact ⟨_, _, by decide, rfl⟩
  · rw [if_neg hn]
    refine ⟨_, _, ?_, rfl⟩
    cases n <;> cases parity <;> decide

theorem Shows.setBitCountPerChar (h : Shows st y w) (hy : x.Initialised c y) (n : BitCountPerChar)
    (parity : Bool) :
    Ends NoError (setBitCountPerChar (device traffic) n parity w) fun w' =>
      ∃ y', x.Initialised c y' ∧ Shows st y' w' := by
  obtain ⟨m, v, hv, heq⟩ := bitCount_modes n parity
  rw [LpuartUartIp.setBitCountPerChar, heq]
  split_ifs
  · exact (h.modifyBaud _).mono fun w' hw' => ⟨_, hy.written (by decide) (by decide), hw'⟩
  · refine (h.modifyModes hy.cr_within hv).bind ?_
    rintro w₁ ⟨cr, hcr, h₁⟩
    refine (h₁.modifyBaud _).mono fun w' hw' => ?_
    have hclear : y.baud &&& ~~~baudM10 = insert baudM10 0#32 y.baud := BitVec.or_zero.symm
    exact ⟨_, (hy.setCr hcr).written (by decide) (by decide), hclear ▸ hw'⟩

theorem Shows.setMode (h : Shows st y w) (hy : x.Initialised c y) {m v : BitVec 32}
    (hv : Bits.Within v ctrlModes) :
    Ends NoError (w.modify (device traffic) .ctrl (insert m v)) fun w' =>
      ∃ y', x.Initialised c y' ∧ Shows st y' w' := by
  refine (h.modifyModes hy.cr_within hv).mono ?_
  rintro w' ⟨cr, hcr, hw'⟩
  exact ⟨_, hy.setCr hcr, hw'⟩

/-- The initialisation of the driver. -/
theorem Shows.init (h : Shows st x w) (hreg : st.registered = false) (hc : c.Valid) :
    Ends NoError (init (device traffic) c w) fun w' =>
      ∃ y, x.Initialised c y ∧ Shows (.inited c) y w' := by
  rw [LpuartUartIp.init, World.devAssert_of (by rw [h.state_eq, hreg])]
  refine ends_ok_bind.2 ?_
  rw [World.devAssert_of hc.osr_le]
  refine ends_ok_bind.2 ?_
  rw [World.devAssert_of hc.divisor]
  refine ends_ok_bind.2 ?_
  rw [World.devAssert_of hc.parity]
  refine ends_ok_bind.2 ?_
  refine (h.upd fun _ => .cleared).hwInit.bind ?_
  rintro w₁ ⟨y₁, hy₁, h₁⟩
  refine h₁.program hc.osr_le (Nat.lt_succ_of_le hc.divisor.1) fun value w₂ hvalue h₂ => ?_
  have hy₂ : x.Initialised c (y₁.written .baud value) :=
    { hy₁ with
      divides := hvalue
      speed_eq := congrArg (fun clk => some (passed (speedOf clk value))) hy₁.clk_eq }
  refine (h₂.setBitCountPerChar hy₂ _ _).bind ?_
  rintro w₃ ⟨y₃, hy₃, h₃⟩
  refine Ends.bind (Q := fun w' => ∃ y', x.Initialised c y' ∧ Shows .cleared y' w') ?_ ?_
  · refine (h₃.setMode hy₃ ?_).bind ?_
    · cases c.parityMode <;> decide
    · rintro w₄ ⟨y₄, hy₄, h₄⟩
      refine h₄.setMode hy₄ ?_
      cases c.parityMode <;> decide
  · rintro w₅ ⟨y₅, hy₅, h₅⟩
    refine (h₅.modifyBaud _).bind fun w₆ h₆ => ?_
    have hstop : bit baudSbns (c.stopBitsCount = .two) &&& (baudOsrMask ||| baudSbrMask) =
        0#32 := by
      cases c.stopBitsCount <;> decide
    refine ends_pure ⟨_, hy₅.written (m := baudSbns) (by decide) hstop, h₆.upd fun st => { st with
      transmitStatus := .success, receiveStatus := .success, baudRate := c.baudRate }⟩

/-- The backend gets a speed as it is. -/
theorem passed_baudFor (h : InRange clk baud) {osr : ℕ} (ho : Tried clk baud osr) :
    passed (baudFor clk baud osr) = baudFor clk baud osr := by
  have hclk := h.clk_lt
  have hfour : 4 ≤ osr * (clk / (baud * osr)) :=
    Nat.le_trans ho.1 (Nat.le_mul_of_pos_right _ (sbrFor_eq h ho).2.1)
  rw [Lpuart.passed_eq_iff, baudFor_eq h ho]
  calc clk / (osr * (clk / (baud * osr))) ≤ clk / 4 := Nat.div_le_div_left hfour (by decide)
    _ < 2 ^ 31 := by omega

theorem Shows.setBaudRate (h : Shows st x w) (hreg : st.registered = true)
    (hidle : st.isTxBusy = false ∧ st.isRxBusy = false)
    {b : Baudrate} (hr : InRange x.clk b.toNat) :
    Ends NoError (setBaudRate (device traffic) b x.clk w) fun r => ∃ value v,
      r.1 = .success ∧ IsLeast (speedsFrom x.clk b.toNat) v ∧
        (x.written .baud value).speed = some (v : ℤ) ∧
        Shows { st with baudRate := baudFor x.clk b.toNat (min (x.clk / b.toNat) 32) }
          (x.written .baud value) r.2 := by
  have hbest := searchBaud_best hr
  have hsbr := sbrFor_eq hr hbest.tried_osr
  have hleast := searchBaud_isLeast hr
  have hfour : b.toNat * 4 % 2 ^ 32 ≤ x.clk := (Nat.mod_le _ _).trans hr.four_le
  have hpos : 0 < x.clk := Nat.lt_of_lt_of_le (Nat.mul_pos hr.baud_pos (by decide)) hr.four_le
  rw [LpuartUartIp.setBaudRate, World.devAssert_of (by rw [h.state_eq, hreg])]
  refine ends_ok_bind.2 ?_
  have hbusy : (w.state.isTxBusy || w.state.isRxBusy) = false := by
    rw [h.state_eq, hidle.1, hidle.2, Bool.or_self]
  rw [hbusy, if_neg Bool.false_ne_true]
  rw [World.devAssert_of hpos]
  refine ends_ok_bind.2 ?_
  rw [World.devAssert_of hfour]
  refine ends_ok_bind.2 ?_
  have hratio : ratioOf (searchBaud x.clk b.toNat).osr = (searchBaud x.clk b.toNat).osr :=
    if_neg (by have := hbest.tried_osr.1; omega)
  refine h.program hbest.tried_osr.2.1 (hbest.sbr_eq.trans hsbr.1 ▸ hsbr.2.2)
    fun value w' hvalue hw' => ?_
  refine ends_pure ⟨value, _, rfl, hleast, ?_, ?_⟩
  · rw [← passed_baudFor hr hbest.tried_osr, baudFor_eq hr hbest.tried_osr, ← hsbr.1,
      ← hbest.sbr_eq,
      ← hratio, ← hvalue.speedOf_eq]
    rfl
  · rw [← calculatedBaud_searchBaud hr]
    exact hw'.upd fun st => { st with baudRate := (searchBaud x.clk b.toNat).calculatedBaud }

/-- **The baud rate.** An idle driver whose clock has the desired speed in range leaves the
    backend with the least speed not below the desired one that a ratio and a divisor give.
    It is off by less than one part in the divisor of the ratio 4. The speed that the driver
    reports afterwards is the one of the greatest ratio, which is not below it. -/
theorem setBaudRate_least (w : World Bench) (traffic : ℕ → Traffic) (hq : w.hw.uart.calls = [])
    (hreg : w.state.registered = true) (hidle : w.state.isTxBusy = false ∧ w.state.isRxBusy = false)
    (b : Baudrate) (hr : InRange w.hw.uart.clk b.toNat) :
    ∃ w' v, setBaudRate (device traffic) b w.hw.uart.clk w = .ok (.success, w') ∧
      IsLeast (speedsFrom w.hw.uart.clk b.toNat) v ∧ (view w'.hw).speed = some (v : ℤ) ∧
      v * (w.hw.uart.clk / (b.toNat * 4)) < b.toNat * (w.hw.uart.clk / (b.toNat * 4) + 1) ∧
      getBaudRate w' = baudFor w.hw.uart.clk b.toNat (min (w.hw.uart.clk / b.toNat) 32) ∧
      v ≤ getBaudRate w' := by
  have h : Shows w.state (view w.hw) w := ⟨rfl, rfl, hq⟩
  have hends : Ends NoError (setBaudRate (device traffic) b w.hw.uart.clk w) _ :=
    h.setBaudRate hreg hidle hr
  obtain ⟨⟨status, w'⟩, hrun, value, v, rfl, hleast, hspeed, h'⟩ := ends_noError_iff.1 hends
  have hreport : getBaudRate w' =
      baudFor w.hw.uart.clk b.toNat (min (w.hw.uart.clk / b.toNat) 32) := by
    rw [getBaudRate, h'.state_eq]
    rfl
  have htried : Tried w.hw.uart.clk b.toNat (min (w.hw.uart.clk / b.toNat) 32) := by
    have h4 : 4 ≤ w.hw.uart.clk / b.toNat := by
      rw [Nat.le_div_iff_mul_le hr.baud_pos, Nat.mul_comm]
      exact hr.four_le
    refine ⟨by omega, min_le_right _ _, ?_⟩
    exact (Nat.mul_le_mul_left _ (min_le_left _ _)).trans (Nat.mul_div_le _ _)
  refine ⟨w', v, hrun, hleast, ?_, least_lt hr hleast, hreport, ?_⟩
  · rw [h'.view_eq]
    exact hspeed
  · rw [hreport]
    exact hleast.2 (baudFor_mem hr htried)

/-- The device right after power on, and nothing logged. -/
def Bench.atPowerOn (hz : ℕ) : Bench := ⟨Lpuart.atPowerOn hz, 0, []⟩

/-- With the clock of the board, the backend gets 115942 when the driver has been asked for
    115200, and the driver reports 125000. -/
theorem setBaudRate_least_115200 : ∃ w',
    setBaudRate (device fun _ => ⟨[], []⟩) .baud115200 40000000
      ⟨.cleared, .atPowerOn 40000000⟩ = .ok (.success, w') ∧
    IsLeast (speedsFrom 40000000 115200) 115942 ∧ (view w'.hw).speed = some 115942 ∧
    getBaudRate w' = 125000 := by
  have hr : InRange 40000000 115200 := ⟨by decide, by decide, by decide, by decide⟩
  obtain ⟨w', v, hrun, hleast, hspeed, -, hreport, -⟩ := setBaudRate_least
    ⟨.cleared, .atPowerOn 40000000⟩ (fun _ => ⟨[], []⟩) rfl rfl ⟨rfl, rfl⟩ .baud115200 hr
  have hbaud : baudFor 40000000 115200 (min (40000000 / 115200) 32) = 125000 := by decide
  have hv : v = 115942 := hleast.unique (searchBaud_isLeast hr)
  rw [hv] at hleast hspeed
  exact ⟨w', hrun, hleast, hspeed, hreport.trans hbaud⟩

end S32K358.LpuartUartIp
