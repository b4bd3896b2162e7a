import S32K358.Demo.HandOff

/-!
# What reaches the speed check

`Motor_Sensor_ReadValue` does not look at the status of the transfer, and
`ReadSpeedTask` publishes `received_value` in any case: after a transfer that failed
before the byte was received, this is the byte of an earlier round, or no byte at all.
If all transfers succeed, only readings of the sensor are published and checked
(`run_onlyReadings`); the first one that fails and is published is one too many
(`onlyReadings_iff`).
-/

namespace S32K358.Demo

open Tasks

/-! ## Marks -/

def Mark.transfer? : Mark → Option Outcome
  | .transfer r => some r
  | _ => none

def Mark.publish? : Mark → Option (BitVec 8)
  | .publish speed => some speed
  | _ => none

def Mark.check? : Mark → Option (BitVec 8)
  | .check speed => some speed
  | _ => none

/-- The calls of `Lpspi_Ip_SyncTransmit`. -/
def transfers (h : List Step) : List Outcome :=
  (h.flatMap (·.output.marks)).filterMap Mark.transfer?

/-- The values written to `g_last_speed`. -/
def published (h : List Step) : List (BitVec 8) :=
  (h.flatMap (·.output.marks)).filterMap Mark.publish?

/-- The values compared with the threshold. -/
def checked (h : List Step) : List (BitVec 8) :=
  (h.flatMap (·.output.marks)).filterMap Mark.check?

/-- The transfer was successful. -/
def Outcome.Succeeds (r : Outcome) : Prop := ∃ rx, r = .success rx

/-- In each round, only the byte received in this round, by a transfer that succeeded, is
    published, and compared with the threshold. -/
structure OnlyReadings (h : List Step) : Prop where
  checks : ∀ (k : ℕ) (w : BitVec 8), (checked h)[k]? = some w →
    (transfers h)[k]? = some (Outcome.success w)
  publishes : ∀ (k : ℕ) (w : BitVec 8), (published h)[k]? = some w →
    (transfers h)[k]? = some (Outcome.success w)

/-! ## Rounds that have begun -/

/-- In a round, a value is published after the transfer, and checked after it is
    published. -/
theorem length_marks_round_le {r : Outcome} {speed : BitVec 8} {l : List Mark}
    (h : l <+: round r speed) :
    (l.filterMap Mark.check?).length ≤ (l.filterMap Mark.publish?).length ∧
      (l.filterMap Mark.publish?).length ≤ (l.filterMap Mark.transfer?).length := by
  rw [List.prefix_iff_eq_take] at h
  rw [h]
  rcases l.length with _ | _ | _ | _ | _ | _ | _ | _ | _ | _ | n <;>
    simp [round, List.filterMap_cons, Mark.check?, Mark.publish?, Mark.transfer?]

theorem length_marks_le {xs : List (Outcome × BitVec 8)} {l : List Mark}
    (h : l <+: xs.flatMap fun p => round p.1 p.2) :
    (l.filterMap Mark.check?).length ≤ (l.filterMap Mark.publish?).length ∧
      (l.filterMap Mark.publish?).length ≤ (l.filterMap Mark.transfer?).length := by
  induction xs generalizing l with
  | nil =>
    obtain rfl := List.prefix_nil.1 h
    exact ⟨Nat.le_refl _, Nat.le_refl _⟩
  | cons p xs ih =>
    rw [List.flatMap_cons] at h
    rcases List.prefix_or_prefix_of_prefix h (List.prefix_append _ _) with hl | ⟨l', rfl⟩
    · exact length_marks_round_le hl
    · obtain ⟨hc, hp⟩ := ih ((List.prefix_append_right_inj _).1 h)
      simp only [List.filterMap_append, List.length_append]
      exact ⟨Nat.add_le_add (Nat.le_refl _) hc, Nat.add_le_add (Nat.le_refl _) hp⟩

/-! ## Runs -/

variable {outcome : ℕ → Outcome} {r₀ : BitVec 8} {buf : Text} {ts : List Task} {h : List Step}
  {s : State}

/-- All marks but those of calls of `print` are made by the two tasks that hand the speed
    over. -/
theorem run_filterMap_marks {α : Type} {f : Mark → Option α} (hf : ∀ str, f (.start str) = none)
    (hr : run outcome (atStart r₀ buf) ts = .ok (h, s)) :
    (h.flatMap (·.output.marks)).filterMap f = (h.flatMap handOff).filterMap f := by
  rw [List.filterMap_flatMap, List.filterMap_flatMap]
  refine List.flatMap_congr fun τ hτ => ?_
  rcases run_marks hr hτ with hmarks | ⟨hnil, hmarks⟩
  · rw [hmarks]
  · rw [hnil, hmarks, List.filterMap_cons_none (hf _)]

/-- What is marked once in each round is marked in order. -/
theorem eq_of_prefix_script {α : Type} {f : Mark → Option α} {g : Outcome → BitVec 8 → α}
    (hf : ∀ r speed, (round r speed).filterMap f = [g r speed]) {l : List Mark} {n k : ℕ} {x : α}
    (hl : l <+: script outcome r₀ n) (hk : (l.filterMap f)[k]? = some x) :
    x = g (outcome k) (received outcome r₀ (k + 1)) := by
  obtain ⟨l', hl'⟩ := hl.filterMap f
  have hscript : (script outcome r₀ n).filterMap f =
      (List.range n).map fun k => g (outcome k) (received outcome r₀ (k + 1)) := by
    rw [script, List.filterMap_flatMap]
    simp only [hf]
    exact List.flatMap_pure_eq_map _ _
  have hat : ((List.range n).map fun k => g (outcome k) (received outcome r₀ (k + 1)))[k]? =
      some x := by
    rw [← hscript, ← hl', List.getElem?_append_left (List.getElem?_eq_some_iff.1 hk).1, hk]
  rw [List.getElem?_map, Option.map_eq_some_iff] at hat
  obtain ⟨k', hk', rfl⟩ := hat
  obtain ⟨hlt, rfl⟩ := List.getElem?_eq_some_iff.1 hk'
  rw [List.getElem_range]

/-- In each round so far: one transfer, then what it leaves in `received_value` is
    published, and then checked. -/
theorem run_rounds (hr : run outcome (atStart r₀ buf) ts = .ok (h, s)) :
    ((checked h).length ≤ (published h).length ∧ (published h).length ≤ (transfers h).length) ∧
      (∀ (k : ℕ) (r : Outcome), (transfers h)[k]? = some r → r = outcome k) ∧
      (∀ (k : ℕ) (w : BitVec 8), (published h)[k]? = some w → w = received outcome r₀ (k + 1)) ∧
      ∀ (k : ℕ) (w : BitVec 8), (checked h)[k]? = some w → w = received outcome r₀ (k + 1) := by
  obtain ⟨a, b, n, rest, -, -, -, hscript⟩ := run_follows hr
  have hpre : h.flatMap handOff <+: script outcome r₀ n := ⟨rest, hscript⟩
  rw [checked, published, transfers, run_filterMap_marks (fun _ => rfl) hr,
    run_filterMap_marks (fun _ => rfl) hr, run_filterMap_marks (fun _ => rfl) hr]
  have hpairs : h.flatMap handOff <+: ((List.range n).map fun k =>
      (outcome k, received outcome r₀ (k + 1))).flatMap fun p => round p.1 p.2 := by
    rw [List.flatMap_map]
    exact hpre
  refine ⟨length_marks_le hpairs, ?_, ?_, ?_⟩
  · exact fun _ _ => eq_of_prefix_script (g := fun r _ => r) (fun _ _ => rfl) hpre
  · exact fun _ _ => eq_of_prefix_script (g := fun _ speed => speed) (fun _ _ => rfl) hpre
  · exact fun _ _ => eq_of_prefix_script (g := fun _ speed => speed) (fun _ _ => rfl) hpre

/-- Only readings are published and checked exactly if all transfers up to the last
    publication succeeded. -/
theorem onlyReadings_iff (hr : run outcome (atStart r₀ buf) ts = .ok (h, s)) :
    OnlyReadings h ↔ ∀ r ∈ (transfers h).take (published h).length, r.Succeeds := by
  obtain ⟨⟨hcp, hpt⟩, htransfers, hpublished, hchecked⟩ := run_rounds hr
  constructor
  · intro hon r hmem
    obtain ⟨k, hk, rfl⟩ := List.mem_take_iff_getElem.1 hmem
    have hlt : k < (published h).length := by omega
    have hsome := hon.publishes k _ (List.getElem?_eq_getElem hlt)
    exact ⟨_, (List.getElem?_eq_some_iff.1 hsome).2⟩
  · intro hok
    -- A transfer that succeeded leaves the byte it received in `received_value`.
    have hread : ∀ k, k < (published h).length →
        (transfers h)[k]? = some (Outcome.success (received outcome r₀ (k + 1))) := by
      intro k hk
      have hget := List.getElem?_eq_getElem (Nat.lt_of_lt_of_le hk hpt)
      obtain ⟨rx, hrx⟩ := hok _ (List.mem_take_iff_getElem.2 ⟨k, by omega, rfl⟩)
      have hout : Outcome.success rx = outcome k := hrx ▸ htransfers k _ hget
      rw [hget, hrx, received, ← hout]
      rfl
    constructor
    · intro k w hw
      rw [hchecked k w hw]
      exact hread k (Nat.lt_of_lt_of_le (List.getElem?_eq_some_iff.1 hw).1 hcp)
    · intro k w hw
      rw [hpublished k w hw]
      exact hread k (List.getElem?_eq_some_iff.1 hw).1

/-- **Only readings reach the check.** If all transfers so far succeeded, then in each
    round the byte received in it, and nothing else, is published and compared with the
    threshold. -/
theorem run_onlyReadings (hr : run outcome (atStart r₀ buf) ts = .ok (h, s))
    (hok : ∀ r ∈ transfers h, r.Succeeds) : OnlyReadings h :=
  (onlyReadings_iff hr).2 fun r hmem => hok r (List.mem_of_mem_take hmem)

/-- A round of `ReadSpeedTask`, and one of `CheckSpeedTask` up to the check. -/
def oneCheck : List Task := List.replicate 68 .readSpeedTask ++ List.replicate 37 .checkSpeedTask

theorem run_onlyReadings_once : ∃ h s, run (fun _ => .success 42#8) (atStart 0#8 []) oneCheck =
    .ok (h, s) ∧ checked h = [42#8] ∧ OnlyReadings h := by
  have hmap : (run (fun _ => .success 42#8) (atStart 0#8 []) oneCheck).map
      (fun r => (transfers r.1, checked r.1)) = .ok ([.success 42#8], [42#8]) := by decide +kernel
  obtain ⟨⟨h, s⟩, hrun, heq⟩ := Mealy.exists_of_map_eq_ok hmap
  obtain ⟨htransfers, hchecked⟩ := Prod.mk.inj heq
  refine ⟨h, s, hrun, hchecked, run_onlyReadings hrun fun r hmem => ?_⟩
  rw [htransfers] at hmem
  exact ⟨42#8, List.mem_singleton.1 hmem⟩

/-- The transfer fails, and what happened to be in `received_value` is compared with the
    threshold. -/
theorem run_checks_uninitialised : ∃ h s, run (fun _ => .fail) (atStart 42#8 []) oneCheck =
    .ok (h, s) ∧ transfers h = [.fail] ∧ published h = [42#8] ∧ checked h = [42#8] ∧
      ¬OnlyReadings h := by
  have hmap : (run (fun _ => .fail) (atStart 42#8 []) oneCheck).map
      (fun r => (transfers r.1, published r.1, checked r.1)) = .ok ([.fail], [42#8], [42#8]) := by
    decide +kernel
  obtain ⟨⟨h, s⟩, hrun, heq⟩ := Mealy.exists_of_map_eq_ok hmap
  simp only [Prod.mk.injEq] at heq
  obtain ⟨htransfers, hpublished, hchecked⟩ := heq
  refine ⟨h, s, hrun, htransfers, hpublished, hchecked, fun hon => ?_⟩
  have hsome := hon.checks 0 42#8 (by rw [hchecked]; rfl)
  rw [htransfers] at hsome
  exact absurd hsome (by decide)

end S32K358.Demo
