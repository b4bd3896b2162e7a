import Mathlib.Algebra.Order.Floor.Div
import S32K358.Lpspi.Run

/-!
# The LPSPI: the frame size

The number of bytes of a frame should be that of its bits, up to a word of four
bytes (`frameBytes`). The code stores it in a `uint8_t` before limiting it, so
it wraps for frames of about 2048 or 4096 bits: a frame of 2041 bits has no
bytes at all, and the next update of the status divides by zero.

* `bytesPerFrame_eq_iff`: the sizes for which the number is right (`NoWrap`);
* `run_frameBytes`: in a run, it is right in every state exactly when every
  command written has such a size, and then the run does not divide by zero.
-/

namespace S32K358.Lpspi

variable {n : ℕ} {β : Type}

/-- The bytes of a frame, up to a word: `min 4 ⌈(FRAMESZ + 1) / 8⌉`. -/
def frameBytes (tcr : BitVec 32) : ℕ := min 4 ((framesz tcr + 1) ⌈/⌉ 8)

/-- The size of the frames is not one for which the number of bytes wraps. -/
def NoWrap (tcr : BitVec 32) : Prop :=
  ¬(2040 ≤ framesz tcr ∧ framesz tcr ≤ 2071) ∧ ¬4088 ≤ framesz tcr

instance : DecidablePred NoWrap := fun _ => inferInstanceAs (Decidable (_ ∧ _))

theorem frameBytes_eq (tcr : BitVec 32) : frameBytes tcr = min 4 ((framesz tcr + 8) / 8) := by
  rw [frameBytes, Nat.ceilDiv_eq_add_pred_div,
    show framesz tcr + 1 + 8 - 1 = framesz tcr + 8 by omega]

theorem bytesPerFrame_eq_iff (tcr : BitVec 32) :
    bytesPerFrame tcr = frameBytes tcr ↔ NoWrap tcr := by
  have hlt := framesz_lt tcr
  rw [bytesPerFrame, frameSize_eq, frameBytes_eq, NoWrap]
  generalize framesz tcr = f at hlt ⊢
  split <;> omega

theorem frameBytes_pos (tcr : BitVec 32) : 1 ≤ frameBytes tcr ∧ frameBytes tcr ≤ 4 := by
  rw [frameBytes_eq]
  omega

/-- An access changes the right number of bytes to a wrong one exactly when it
    writes a command whose size wraps. -/
theorem bytesPerFrame_tcrAfter_iff {s : State n β} (hs : bytesPerFrame s.tcr = frameBytes s.tcr)
    (a : Access) : bytesPerFrame (tcrAfter s a) = frameBytes (tcrAfter s a) ↔
      a.onWrite .tcr NoWrap := by
  rw [bytesPerFrame_eq_iff] at hs ⊢
  exact tcrAfter_iff hs fun _ => by decide

theorem framed_of_noWrap {a : Access} (h : a.onWrite .tcr NoWrap) : a.Framed := by
  refine h.imp fun v hv h₀ => ?_
  have hbytes : bytesPerFrame v = frameBytes v := (bytesPerFrame_eq_iff v).2 hv
  have := (frameBytes_pos v).1
  omega

/-- **The frame size.** In a run from power on, the number of bytes per frame is
    right, and so between 1 and 4, after every access exactly when every command
    written has a size that does not wrap. Without others, a run does not divide
    by zero. -/
theorem run_frameBytes (bus : SsiBus β) {s₀ : State n β} (h₀ : PowerOn bus s₀)
    (as : List Access) :
    (∀ h t, run bus s₀ as = .ok (h, t) →
      ((∀ τ ∈ h, bytesPerFrame τ.post.tcr = frameBytes τ.post.tcr) ↔
        ∀ τ ∈ h, τ.input.onWrite .tcr NoWrap)) ∧
    ((∀ a ∈ as, a.onWrite .tcr NoWrap) → run bus s₀ as ≠ .error .divByZero ∧
      ∀ h t, run bus s₀ as = .ok (h, t) → ∀ τ ∈ h,
        bytesPerFrame τ.post.tcr = frameBytes τ.post.tcr ∧
          1 ≤ bytesPerFrame τ.post.tcr ∧ bytesPerFrame τ.post.tcr ≤ 4) := by
  have hexact : ∀ h t, run bus s₀ as = .ok (h, t) →
      ((∀ τ ∈ h, bytesPerFrame τ.post.tcr = frameBytes τ.post.tcr) ↔
        ∀ τ ∈ h, τ.input.onWrite .tcr NoWrap) := by
    intro h t hr
    refine Mealy.run_forall_iff (I := Settled)
      (P := fun s => bytesPerFrame s.tcr = frameBytes s.tcr)
      (C := fun _ a => a.onWrite .tcr NoWrap) hr h₀.settled ?_
      (fun τ _ htake hpre => hpre.access htake) ?_
    · obtain ⟨hz, ssi, -, -, -, rfl⟩ := powerOn_iff.1 h₀
      change bytesPerFrame 0x1F#32 = frameBytes 0x1F#32
      decide
    · intro τ _ htake hset hpre
      obtain ⟨u, hu, -, hpost⟩ := effect_of_access hset.bytes_ne_zero htake
      have htcr : τ.post.tcr = tcrAfter τ.pre τ.input := by rw [← hu.tcr_eq, hpost]
      rw [htcr]
      exact bytesPerFrame_tcrAfter_iff hpre τ.input
  refine ⟨hexact, fun ha => ⟨fun hr => ?_, fun h t hr τ hτ => ?_⟩⟩
  · -- Without a frame of no bytes, a run stops for other reasons only.
    have := run_eq_error h₀.settled (fun a h => framed_of_noWrap (ha a h)) hr
    exact absurd this (by decide)
  · have hin : ∀ τ ∈ h, τ.input.onWrite .tcr NoWrap :=
      fun τ hτ => ha _ (Mealy.run_takes hr τ hτ).2
    have hb := (hexact h t hr).2 hin τ hτ
    exact ⟨hb, hb ▸ (frameBytes_pos _).1, hb ▸ (frameBytes_pos _).2⟩

/-- Frames of 2040 bits (`FRAMESZ` = 2039) are the last ones that do not wrap. -/
theorem run_frameBytes_word : ∃ h t, framesz 0x7F7#32 = 2039 ∧
    run SsiBus.empty bare [.write 0x60 0x7F7#32, .read 0x14] = .ok (h, t) ∧ t.tcr = 0x7F7#32 ∧
    ∀ τ ∈ h, bytesPerFrame τ.post.tcr = frameBytes τ.post.tcr ∧ 1 ≤ bytesPerFrame τ.post.tcr ∧
      bytesPerFrame τ.post.tcr ≤ 4 := by
  obtain ⟨-, hall⟩ :=
    (run_frameBytes SsiBus.empty powerOn_bare [.write 0x60 0x7F7#32, .read 0x14]).2 (by decide)
  exact ⟨_, _, by decide, rfl, rfl, hall _ _ rfl⟩

/-- Right after power on, a command with frames of 2048 bits (`FRAMESZ` = 2047)
    makes the device divide by zero. -/
theorem run_divByZero : PowerOn SsiBus.empty bare ∧ framesz 0x7FF#32 = 2047 ∧
    bytesPerFrame 0x7FF#32 ≠ frameBytes 0x7FF#32 ∧
    run SsiBus.empty bare [.write 0x60 0x7FF#32] = .error .divByZero :=
  ⟨powerOn_bare, by decide, by decide, by rfl⟩

end S32K358.Lpspi
