import S32K358.Lpspi.Run

/-!
# The LPSPI: flags

An update of the status assigns `TDF` only at or below its watermark, and `RDF` only
above its own; on the other side, it leaves the flag as it is, and `TEF` it always
leaves. So a flag (`Flag`) has, after an access, the level assigned to it, or else
what the access itself made of it, before updating the status (`srBefore`):
`Effect.flagFrom`.
-/

namespace S32K358.Lpspi

variable {n : ℕ} {β : Type} {bus : SsiBus β} {s t x : State n β} {a : Access}

/-- The flags that transfers do not set or clear otherwise. -/
inductive Flag
  | tdf | rdf | tef
  deriving DecidableEq, Repr

def Flag.mask : Flag → BitVec 32
  | .tdf => srTdf
  | .rdf => srRdf
  | .tef => srTef

/-- An update of the status assigns the flag. -/
def Flag.Assigned (s : State n β) : Flag → Prop
  | .tdf => txWords s ≤ s.txWatermark
  | .rdf => s.rxWatermark < rxWords s
  | .tef => False

instance (s : State n β) : (f : Flag) → Decidable (f.Assigned s)
  | .tdf => inferInstanceAs (Decidable (txWords s ≤ s.txWatermark))
  | .rdf => inferInstanceAs (Decidable (s.rxWatermark < rxWords s))
  | .tef => inferInstanceAs (Decidable False)

/-- The level that it assigns. -/
def Flag.level (s : State n β) : Flag → Bool
  | .tdf => decide (4 ≤ fifoByteCapacity - s.txFifo.num)
  | .rdf => decide (4 ≤ s.rxFifo.num)
  | .tef => false

/-- The flag as an update of the status leaves it, if it was `b` before. -/
def FlagFrom (f : Flag) (b : Bool) (s : State n β) : Prop :=
  Bits.any s.sr f.mask = if f.Assigned s then f.level s else b

/-! ## Updates of the status -/

variable {f : Flag}

theorem flag_status : FlagFrom f (Bits.any s.sr f.mask) (status s) := by
  have htdf : srTdf ≠ 0#32 := by decide
  have hrdf : srRdf ≠ 0#32 := by decide
  cases f with
  | tdf =>
    change Bits.any (statusSr s) srTdf = if txWords s ≤ s.txWatermark then
      decide (4 ≤ fifoByteCapacity - s.txFifo.num) else Bits.any s.sr srTdf
    rw [statusSr, Bits.any_assignIf_of_disjoint (by decide), Bits.any_assignIf_self htdf]
    simp only [decide_eq_true_eq]
  | rdf =>
    change Bits.any (statusSr s) srRdf =
      if s.rxWatermark < rxWords s then decide (4 ≤ s.rxFifo.num) else Bits.any s.sr srRdf
    rw [statusSr, Bits.any_assignIf_self hrdf, Bits.any_assignIf_of_disjoint (by decide)]
    simp only [decide_eq_true_eq]
  | tef =>
    have hno : ¬Flag.Assigned (status s) .tef := not_false
    rw [FlagFrom, if_neg hno]
    exact any_status (by decide) (by decide)

theorem flag_settle : FlagFrom f (Bits.any s.sr f.mask) (settle s) := flag_status

/-- Another update changes nothing. -/
theorem FlagFrom.settle {b : Bool} (h : FlagFrom f b s) : FlagFrom f b (settle s) := by
  have hagain : Bits.any (Lpspi.settle s).sr f.mask =
      if f.Assigned s then f.level s else Bits.any s.sr f.mask := flag_settle
  have hfirst : Bits.any s.sr f.mask = if f.Assigned s then f.level s else b := h
  change Bits.any (Lpspi.settle s).sr f.mask = if f.Assigned s then f.level s else b
  rw [hagain, hfirst]
  split_ifs <;> rfl

theorem flagFrom_updateClockConfig {b : Bool} :
    FlagFrom f b (updateClockConfig s) ↔ FlagFrom f b s := Iff.rfl

theorem Settled.flag_eq (hs : Settled s) : FlagFrom f (Bits.any s.sr f.mask) s := by
  have h : FlagFrom f (Bits.any s.sr f.mask) (status s) := flag_status
  rwa [hs.status_eq] at h

/-! ## Transfers -/

theorem flag_asserted : Bits.any (asserted bus s).sr f.mask = Bits.any s.sr f.mask := by
  have hmbf : Bits.any srMbf f.mask = false := by cases f <;> decide
  simp only [asserted]
  split_ifs <;> simp [hmbf]

theorem flag_released : Bits.any (released bus s).sr f.mask = Bits.any s.sr f.mask := by
  have htcf : Bits.any srTcf f.mask = false := by cases f <;> decide
  have hmbf : Bits.any (s.sr &&& ~~~srMbf) f.mask = Bits.any s.sr f.mask :=
    Bits.any_clear_of_disjoint (by cases f <;> decide)
  simp only [released]
  split_ifs <;> simp [htcf, hmbf]

theorem flag_sendFrame : FlagFrom f (Bits.any x.sr f.mask) (sendFrame bus x) := by
  -- The first update of the transfer decides; in between only other flags change.
  have hstatus : FlagFrom f (Bits.any (exchanged bus (asserted bus x)).sr f.mask)
      (status (exchanged bus (asserted bus x))) := flag_status
  have hsr : (exchanged bus (asserted bus x)).sr = (asserted bus x).sr := rfl
  rw [hsr, flag_asserted] at hstatus
  have hreleased : FlagFrom f (Bits.any x.sr f.mask)
      (released bus (status (exchanged bus (asserted bus x)))) := by
    rw [FlagFrom, flag_released]
    exact hstatus
  rw [sendFrame]
  exact hreleased.settle

theorem flag_afterReset : FlagFrom f (Bits.any (srTdf ||| srTcf) f.mask) (afterReset bus s) :=
  flag_settle (s := updateClockConfig (raised bus (resetRegs s)))

/-! ## Accesses -/

/-- `SR` as the access itself leaves it, before updates of the status and apart from the
    flags of transfers. -/
def srBefore (s : State n β) : Access → BitVec 32
  | .read _ => s.sr
  | .write addr v =>
    match Reg.ofOffset? addr with
    -- The guest clears flags by writing ones to them.
    | some .sr => s.sr &&& ~~~v
    | some .cr => if Bits.any v crRst then srTdf ||| srTcf else (writeCr s v).sr
    | some .tdr =>
      if Bits.any s.cr crMen = true ∧ fifoByteCapacity < s.txFifo.num + bytesPerFrame s.tcr then
        s.sr ||| srTef
      else s.sr
    | _ => s.sr

theorem srBefore_of_room {addr : ℕ} {v : BitVec 32} (hr : Reg.ofOffset? addr = some .tdr)
    (hroom : s.txFifo.num + bytesPerFrame s.tcr ≤ fifoByteCapacity) :
    srBefore s (.write addr v) = s.sr := by
  simp only [srBefore, hr, if_neg fun h => absurd (And.right h) (Nat.not_lt.2 hroom)]

/-- A flag after an access. -/
theorem Effect.flagFrom {v : Option (BitVec 32)} (hs : Settled s) (h : Effect bus s a v t) :
    FlagFrom f (Bits.any (srBefore s a) f.mask) t := by
  cases h with
  | look => exact flag_status
  | take =>
    rw [hs.status_eq]
    exact flag_status
  | @ignore addr v hr =>
    have hsr : srBefore s (.write addr v) = s.sr := by
      rw [srBefore]
      split
      · exact absurd (hr _ ‹_›) (by decide)
      · exact absurd (hr _ ‹_›) (by decide)
      · exact absurd (hr _ ‹_›) (by decide)
      · rfl
    rw [hsr]
    exact hs.flag_eq
  | reset hr hrst =>
    simp only [srBefore, hr, hrst, if_true]
    exact flag_afterReset
  | control hr hrst =>
    simp only [srBefore, hr, hrst, Bool.false_eq_true, if_false]
    exact flag_settle
  | clear hr =>
    simp only [srBefore, hr]
    exact flag_settle
  | @configure addr v r u hr ht =>
    obtain ⟨-, -, -, hsr, -⟩ := configure_frame ht
    have hbefore : srBefore s (.write addr v) = u.sr := by
      rw [srBefore, hr, hsr]
      cases r <;> first | rfl | simp [Lpspi.configure] at ht
    rw [hbefore]
    exact flag_settle
  | @watermark addr v hr =>
    simp only [srBefore, hr]
    exact (flag_status (s := writeFcr s v)).settle
  | @command addr v hr =>
    simp only [srBefore, hr]
    exact flag_settle (s := updateClockConfig (Lpspi.command s v))
  | @resume addr v hr =>
    have hsent : FlagFrom f (Bits.any (Lpspi.command s v).sr f.mask)
      (sendFrame bus (Lpspi.command s v)) := flag_sendFrame
    simp only [srBefore, hr]
    exact (flagFrom_updateClockConfig.2 hsent).settle
  | refuse hr hmen =>
    simp only [srBefore, hr, hmen, Bool.false_eq_true, false_and, if_false]
    exact flag_settle
  | overflow hr hmen h =>
    simp only [srBefore, hr, if_pos (And.intro hmen h)]
    exact flag_settle
  | @queue addr v hr hmen hroom =>
    rw [srBefore_of_room hr hroom]
    exact flag_settle (s := queued s v)
  | @send addr v hr hmen hroom =>
    have hsent : FlagFrom f (Bits.any (queued s v).sr f.mask) (sendFrame bus (queued s v)) :=
      flag_sendFrame
    rw [srBefore_of_room hr hroom]
    exact hsent.settle

end S32K358.Lpspi
