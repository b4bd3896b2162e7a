import S32K358.Demo.HandOff

/-!
# What the demo prints

A call of `print` has the mutex from its first to its last byte, so at most one task is in
the loop of `print` (`Exclusive`), and the UART is a queue: what the calls of `print` put
in, in the order in which they get the mutex, comes out byte after byte
(`run_conserves_text`). With the script of the two tasks that hand the speed over, and
one message for the third, this is all that is ever seen on the UART
(`uart_alternates`).
-/

namespace S32K358.Demo

open Tasks

variable {outcome : ℕ → Outcome} {s s' : State} {m m' : Memory} {t : Task} {o : Output}
  {st : Stmt} {more k : List Stmt} {u u' : Option Task}

/-! ## The mutex -/

/-- The code is in the loop of `print`. -/
def Prints : List Stmt → Prop
  | .printLoop _ :: _ => True
  | _ => False

/-- What is left of the string that is being printed. -/
def unsent : List Stmt → Text
  | .printLoop str :: _ => str
  | _ => []

theorem unsent_of_not_prints {c : List Stmt} (h : ¬Prints c) : unsent c = [] := by
  rcases c with _ | ⟨st, c⟩
  · rfl
  · cases st with
    | printLoop str => exact absurd trivial h
    | _ => rfl

/-- The statement is one that is written in a task. -/
def Stmt.Source : Stmt → Prop
  | .printLoop _ => False
  | _ => True

theorem not_prints_of_source {c : List Stmt} (h : ∀ x ∈ c, x.Source) : ¬Prints c := by
  rcases c with _ | ⟨st, c⟩
  · exact not_false
  · intro hp
    cases st with
    | printLoop str => exact h _ List.mem_cons_self
    | _ => exact hp

/-- The statement does not use the mutex as a semaphore. -/
def Stmt.OffMutex : Stmt → Prop
  | .xSemaphoreTake q | .xSemaphoreGive q => q ≠ .xMutex
  | _ => True

theorem source_body : ∀ t, ∀ x ∈ body t, x.Source := by
  intro t
  cases t <;>
    simp [body, readSpeedTask, checkSpeedTask, taskCodeC, vTimerCallback, Stmt.Source]

theorem offMutex_body : ∀ t, ∀ x ∈ body t, x.OffMutex := by
  intro t
  cases t <;>
    simp [body, readSpeedTask, checkSpeedTask, taskCodeC, vTimerCallback, Stmt.OffMutex]

theorem Exec.offMutex (h : Exec outcome m st more o m') : ∀ x ∈ more, x.OffMutex := by
  cases h <;> simp [Stmt.OffMutex]

theorem Exec.source_tail (h : Exec outcome m st more o m') : ∀ x ∈ more.tail, x.Source := by
  cases h <;> simp

/-- What holds of the code in all states that are reached. -/
structure Tidy (s : State) : Prop where
  offMutex : ∀ t, ∀ x ∈ s.code t, x.OffMutex
  source_tail : ∀ t, ∀ x ∈ (s.code t).tail, x.Source

theorem tidy_atStart (r₀ : BitVec 8) (buf : Text) : Tidy (atStart r₀ buf) :=
  ⟨fun _ _ hx => absurd hx List.not_mem_nil, fun _ _ hx => absurd hx List.not_mem_nil⟩

theorem Tidy.step (hs : Tidy s) (h : (program outcome).step s t = .ok (o, s')) : Tidy s' where
  offMutex := forall_code_step (p := fun _ => Stmt.OffMutex) offMutex_body
    (fun _ _ _ _ _ _ _ hexec => (exec_some hexec).offMutex) hs.offMutex h
  source_tail := forall_tail_step source_body
    (fun _ _ _ _ _ hexec => (exec_some hexec).source_tail) hs.source_tail h

/-- The task `u`, if any, has the mutex, and is the only one in the loop of `print`. -/
structure Exclusive (s : State) (u : Option Task) : Prop where
  prints_iff : ∀ t, Prints (s.code t) ↔ u = some t
  count_eq : (s.mem.sems .xMutex).count = if u.isSome then 0 else 1

/-- What is left to be sent of the strings that are being printed. -/
def pending (s : State) : Text :=
  [Task.readSpeedTask, .checkSpeedTask, .taskCodeC, .vTimerCallback].flatMap
    fun t => unsent (s.code t)

theorem Exclusive.pending_eq (h : Exclusive s u) :
    pending s = u.elim [] fun t => unsent (s.code t) := by
  have hnone : ∀ {t}, u ≠ some t → unsent (s.code t) = [] := fun ht =>
    unsent_of_not_prints fun hp => ht ((h.prints_iff _).1 hp)
  cases u with
  | none => simp [pending, hnone]
  | some t => cases t <;> simp [pending, hnone]

theorem Exclusive.eq_some (h : Exclusive s u) (hp : Prints (s.code t)) : u = some t :=
  (h.prints_iff t).1 hp

/-- If the mutex can be taken, no task is in the loop, and no token is left. -/
theorem Exclusive.eq_none (h : Exclusive s u) {n : ℕ}
    (hn : (s.mem.sems .xMutex).count = n + 1) : u = none ∧ n = 0 := by
  rw [h.count_eq] at hn
  rcases u with _ | v
  · exact ⟨rfl, (Nat.succ.inj hn).symm⟩
  · exact absurd hn (Nat.succ_ne_zero n).symm

variable {c : List Stmt}

/-- A task goes on with other code, and gets, keeps or gives back the mutex. -/
theorem Exclusive.update (h : Exclusive s u) (hc : Prints c ↔ u' = some t)
    (hother : ∀ v, v ≠ t → (u' = some v ↔ u = some v))
    (hcount : (m.sems .xMutex).count = if u'.isSome then 0 else 1) :
    Exclusive ⟨Function.update s.code t c, m⟩ u' where
  prints_iff v := by
    rcases eq_or_ne v t with rfl | hv
    · simpa using hc
    · simpa [hv, hother v hv] using h.prints_iff v
  count_eq := hcount

/-- A task that is not in the loop, before or after, changes nothing. -/
theorem Exclusive.quiet (h : Exclusive s u) (hpre : ¬Prints (s.code t)) (hpost : ¬Prints c)
    (hm : m.sems .xMutex = s.mem.sems .xMutex) :
    Exclusive ⟨Function.update s.code t c, m⟩ u ∧
      pending ⟨Function.update s.code t c, m⟩ = pending s := by
  have hu : u ≠ some t := fun hu => hpre ((h.prints_iff t).2 hu)
  have h' := h.update (m := m) (iff_of_false hpost hu) (fun _ _ => Iff.rfl) (hm ▸ h.count_eq)
  refine ⟨h', ?_⟩
  rw [h.pending_eq, h'.pending_eq]
  rcases u with _ | v
  · rfl
  · have hv : v ≠ t := fun hv => hu (congrArg some hv)
    simp [hv]

/-- A task enters the loop, or goes on in it. -/
theorem Exclusive.hold (h : Exclusive s u) (hu : u = none ∨ u = some t) (hc : Prints c)
    (hm : (m.sems .xMutex).count = 0) :
    Exclusive ⟨Function.update s.code t c, m⟩ (some t) ∧
      pending ⟨Function.update s.code t c, m⟩ = unsent c := by
  have h' : Exclusive ⟨Function.update s.code t c, m⟩ (some t) := by
    refine h.update (iff_of_true hc rfl) (fun v hv => ?_) hm
    rcases hu with rfl | rfl <;> simp [hv.symm]
  refine ⟨h', ?_⟩
  rw [h'.pending_eq, Option.elim_some]
  exact congrArg unsent (Function.update_self ..)

/-- A task leaves the loop. -/
theorem Exclusive.release (h : Exclusive s (some t)) (hc : ¬Prints c)
    (hm : (m.sems .xMutex).count = 1) :
    Exclusive ⟨Function.update s.code t c, m⟩ none ∧
      pending ⟨Function.update s.code t c, m⟩ = [] := by
  have h' : Exclusive ⟨Function.update s.code t c, m⟩ none :=
    h.update (iff_of_false hc (by simp)) (fun v hv => by simp [hv.symm]) hm
  exact ⟨h', h'.pending_eq⟩

/-- The texts that a step starts to print. -/
def Mark.start? : Mark → Option Text
  | .start str => some str
  | _ => none

def started (o : Output) : List Text := o.marks.filterMap Mark.start?

/-- What a statement has to do with printing: nothing, or it gets the mutex, sends a
    byte, or gives the mutex back. -/
theorem Exec.prints (h : Exec outcome m st more o m') (hst : st.OffMutex) :
    (st.Source ∧ (∀ x ∈ more, x.Source) ∧ m'.sems .xMutex = m.sems .xMutex ∧ o.sent = [] ∧
      started o = []) ∨
    (∃ str, st.Source ∧ more = [.printLoop str] ∧ o = ⟨[], [.start str]⟩ ∧
      (m.sems .xMutex).count = (m'.sems .xMutex).count + 1) ∨
    (∃ c str, st = .printLoop (c :: str) ∧ more = [.printLoop str] ∧ o = ⟨[c], []⟩ ∧ m' = m) ∨
    (st = .printLoop [] ∧ more = [] ∧ o = ⟨[], []⟩ ∧
      m'.sems .xMutex = (m.sems .xMutex).give) := by
  cases h with
  | delay | read | publish | format =>
    exact .inl ⟨trivial, fun x hx => absurd hx List.not_mem_nil, rfl, rfl, rfl⟩
  | take | give =>
    exact .inl ⟨trivial, fun x hx => absurd hx List.not_mem_nil,
      Function.update_of_ne (Ne.symm hst) _ _, rfl, rfl⟩
  | check => exact .inl ⟨trivial, fun x hx => List.mem_singleton.1 hx ▸ trivial, rfl, rfl, rfl⟩
  | print str hc => exact .inr (.inl ⟨_, trivial, rfl, rfl, hc⟩)
  | send c str => exact .inr (.inr (.inl ⟨c, str, rfl, rfl, rfl, rfl⟩))
  | done => exact .inr (.inr (.inr ⟨rfl, rfl, rfl, rfl⟩))

/-- The next statement of a task, and what follows it. -/
theorem Tidy.todo (hs : Tidy s) (h : (program outcome).todo s t = st :: k) :
    (∀ x ∈ k, x.Source) ∧ st.OffMutex ∧ (st.Source → ¬Prints (s.code t)) ∧
      (¬st.Source → s.code t = st :: k) := by
  by_cases hc : s.code t = []
  · rw [Program.todo_of_nil hc] at h
    change body t = st :: k at h
    refine ⟨fun x hx => source_body t x (by simp [h, hx]), offMutex_body t st (by simp [h]),
      fun _ => ?_, fun hst => absurd (source_body t st (by simp [h])) hst⟩
    rw [hc]
    exact not_false
  · rw [Program.todo_of_ne_nil hc] at h
    have htail := hs.source_tail t
    rw [h] at htail
    refine ⟨htail, hs.offMutex t st (by simp [h]), fun hst => ?_, fun _ => h⟩
    rw [h]
    exact not_prints_of_source (List.forall_mem_cons.2 ⟨hst, htail⟩)

/-- A step keeps the tasks from printing at the same time, and puts a string into the
    queue, or takes a byte from it. -/
theorem Exclusive.step (h : Exclusive s u) (hs : Tidy s)
    (hstep : (program outcome).step s t = .ok (o, s')) :
    (∃ u', Exclusive s' u') ∧ pending s ++ (started o).flatten = o.sent ++ pending s' := by
  obtain ⟨st, k, more, m, htodo, hexec, rfl⟩ := Program.step_ok hstep
  obtain ⟨hk, hmutex, hpre, hcode⟩ := hs.todo htodo
  rcases (exec_some hexec).prints hmutex with ⟨hst, hmore, hsem, hsent, hstarted⟩ |
    ⟨str, hst, rfl, rfl, hsem⟩ | ⟨c, str, rfl, rfl, rfl, rfl⟩ | ⟨rfl, rfl, rfl, hsem⟩
  · have hpost : ¬Prints (more ++ k) := not_prints_of_source fun x hx =>
      (List.mem_append.1 hx).elim (hmore x) (hk x)
    obtain ⟨h', hpend⟩ := h.quiet (hpre hst) hpost hsem
    exact ⟨⟨u, h'⟩, by rw [hpend, hsent, hstarted, List.flatten_nil, List.append_nil]; rfl⟩
  · -- The mutex is free, so the queue is empty, and the string is put into it.
    obtain ⟨rfl, hm⟩ := h.eq_none hsem
    have hprints : Prints ([.printLoop str] ++ k) := trivial
    obtain ⟨h', hpend⟩ := h.hold (.inl rfl) hprints hm
    exact ⟨⟨_, h'⟩, by rw [h.pending_eq, hpend]; exact List.append_nil str⟩
  · -- The first byte of the queue is sent.
    have hcode := hcode not_false
    obtain rfl := h.eq_some (t := t) (by rw [hcode]; trivial)
    have hprints : Prints ([.printLoop str] ++ k) := trivial
    obtain ⟨h', hpend⟩ := h.hold (.inr rfl) hprints h.count_eq
    refine ⟨⟨_, h'⟩, ?_⟩
    rw [h.pending_eq, hpend, Option.elim_some, hcode]
    exact List.append_nil _
  · -- The queue is empty, and the mutex is given back.
    have hcode := hcode not_false
    obtain rfl := h.eq_some (t := t) (by rw [hcode]; trivial)
    have hm : (m.sems .xMutex).count = 1 := by
      rw [hsem, Semaphore.count_give, h.count_eq]
      rfl
    have hprints : ¬Prints ([] ++ k) := not_prints_of_source hk
    obtain ⟨h', hpend⟩ := h.release hprints hm
    refine ⟨⟨_, h'⟩, ?_⟩
    rw [h.pending_eq, hpend, Option.elim_some, hcode]
    rfl

/-! ## Runs -/

variable {r₀ : BitVec 8} {buf : Text} {ts : List Task} {h : List Step}

/-- What has been sent on the UART. -/
def uart (h : List Step) : List (BitVec 8) := h.flatMap (·.output.sent)

/-- What has been, or is still being printed, in the order of the calls of `print`. -/
def printed (h : List Step) : List Text := h.flatMap fun τ => started τ.output

/-- The UART is a queue of strings. -/
theorem run_conserves_text (hr : run outcome (atStart r₀ buf) ts = .ok (h, s)) :
    (printed h).flatten = uart h ++ pending s := by
  have hstart : Exclusive (atStart r₀ buf) none := ⟨fun t => by simp [atStart, Prints], rfl⟩
  have hinv := Mealy.run_invariant (I := fun s => Tidy s ∧ ∃ u, Exclusive s u) hr
    ⟨tidy_atStart r₀ buf, none, hstart⟩ fun τ _ htake ⟨htidy, u, hu⟩ =>
      ⟨htidy.step htake, (hu.step htidy htake).1⟩
  have hqueue : pending (atStart r₀ buf) ++ h.flatMap (fun τ => (started τ.output).flatten) =
      h.flatMap (fun τ => τ.output.sent) ++ pending s :=
    Mealy.run_conserves pending hr fun τ hτ => by
      obtain ⟨⟨htidy, u, hu⟩, -⟩ := hinv.2 τ hτ
      exact (hu.step htidy (Mealy.run_takes hr τ hτ).1).2
  have hflat : (printed h).flatten = h.flatMap fun τ => (started τ.output).flatten := by
    rw [printed, ← List.flatMap_id, List.flatMap_assoc]
    simp only [List.flatMap_id]
  exact hflat.trans hqueue

/-- Only the message of `TaskCodeC` is inserted into what the two tasks print. -/
theorem run_inserted (hr : run outcome (atStart r₀ buf) ts = .ok (h, s)) :
    Inserted wokeText ((h.flatMap handOff).filterMap Mark.start?) (printed h) := by
  rw [List.filterMap_flatMap]
  refine Inserted.flatMap fun τ hτ => ?_
  rcases run_marks hr hτ with hmarks | ⟨hnil, hmarks⟩
  · rw [started, hmarks]
    exact .refl _ _
  · rw [started, hnil, hmarks]
    exact .insert .nil

/-- The decimal digits of a byte, without leading zeros. -/
def decimal (value : BitVec 8) : Text :=
  let n := value.toNat
  let digits := if n < 10 then [n] else if n < 100 then [n / 10, n % 10]
    else [n / 100, n / 10 % 10, n % 10]
  digits.map fun d => BitVec.ofNat 8 ('0'.toNat + d)

theorem uint8ToStr_eq (value : BitVec 8) : uint8ToStr value = decimal value := by
  have hall : ∀ n : Fin 256, uint8ToStr (BitVec.ofFin n) = decimal (BitVec.ofFin n) := by
    decide +kernel
  exact hall value.toFin

/-- The calls of `print` in a round of `ReadSpeedTask`. -/
def outputA (speed : BitVec 8) : List Text := [readingText, speedText, decimal speed, rpmText]

/-- The calls of `print` in a round of `CheckSpeedTask`. -/
def outputB (speed : BitVec 8) : List Text :=
  [checkingText, if speed.toNat > 200 then highText else normalText]

theorem start?_round (r : Outcome) (speed : BitVec 8) :
    (round r speed).filterMap Mark.start? = outputA speed ++ outputB speed := by
  rw [outputA, ← uint8ToStr_eq]
  rfl

/-- **The output of the demo.** Let the reading number `k` of the sensor be `v k`. Whatever
    the scheduler does, what has been sent on the UART is, up to its end, the alternation
    of the outputs of `ReadSpeedTask` and `CheckSpeedTask` for one reading after the other,
    with whole messages of `TaskCodeC` inserted between calls of `print`. And what the two
    do is the script: a speed is read, published, printed and checked before the next one
    is read. -/
theorem uart_alternates (v : ℕ → BitVec 8)
    (hr : run (fun k => .success (v k)) (atStart r₀ buf) ts = .ok (h, s)) :
    (∃ n l, Inserted wokeText ((List.range n).flatMap fun k => outputA (v k) ++ outputB (v k)) l ∧
      uart h <+: l.flatten) ∧
    ∃ n, h.flatMap handOff <+: (List.range n).flatMap fun k => round (.success (v k)) (v k) := by
  obtain ⟨a, b, n, rest, -, -, -, hscript⟩ := run_follows hr
  have hround : script (fun k => .success (v k)) r₀ n =
      (List.range n).flatMap fun k => round (.success (v k)) (v k) := rfl
  rw [hround] at hscript
  refine ⟨⟨n, printed h ++ rest.filterMap Mark.start?, ?_, ?_⟩, n, hscript ▸ List.prefix_append _ _⟩
  · have hins := (run_inserted hr).append (.refl wokeText (rest.filterMap Mark.start?))
    rw [← List.filterMap_append, hscript, List.filterMap_flatMap] at hins
    simpa only [start?_round] using hins
  · rw [List.flatten_append, run_conserves_text hr, List.append_assoc]
    exact List.prefix_append _ _

/-- A round, in the middle of which the timer wakes `TaskCodeC`. -/
def oneRound : List Task :=
  List.replicate 68 .readSpeedTask ++ [.vTimerCallback] ++ List.replicate 34 .taskCodeC ++
    List.replicate 70 .checkSpeedTask

theorem uart_alternates_once : ∃ h s,
    run (fun _ => .success 42#8) (atStart 0#8 []) oneRound = .ok (h, s) ∧
    uart h = (outputA 42#8 ++ [wokeText] ++ outputB 42#8).flatten ∧
    (∃ n l, Inserted wokeText ((List.range n).flatMap fun _ => outputA 42#8 ++ outputB 42#8) l ∧
      uart h <+: l.flatten) ∧
    ∃ n, h.flatMap handOff <+: (List.range n).flatMap fun _ => round (.success 42#8) 42#8 := by
  have hmap : (run (fun _ => .success 42#8) (atStart 0#8 []) oneRound).map (fun r => uart r.1) =
      .ok (outputA 42#8 ++ [wokeText] ++ outputB 42#8).flatten := by decide +kernel
  obtain ⟨⟨h, s⟩, hrun, huart⟩ := Mealy.exists_of_map_eq_ok hmap
  exact ⟨h, s, hrun, huart, uart_alternates (fun _ => 42#8) hrun⟩

end S32K358.Demo
