import S32K358.Demo.Basic

/-!
# The hand-off of the speed

There is one token for `ReadSpeedTask` and `CheckSpeedTask`: it is in `xSemaphore`, with
the one, in `ySemaphore`, or with the other (`Phase`). Whoever has it runs as if alone,
as far as `g_last_speed` and the local variables are concerned, so what the two do is a
*script*, round after round (`script`), whatever the scheduler does:
`run_follows_script`.
-/

namespace S32K358.Demo

open Tasks

variable {outcome : ℕ → Outcome} {s s' : State} {m m' : Memory} {t : Task} {o : Output}
  {st : Stmt} {more : List Stmt}

/-! ## Statements -/

/-- What a statement does, if its task runs alone. -/
def effect (outcome : ℕ → Outcome) : Stmt → Vars → List Mark × Vars
  | .print str, v => ([.start (str.eval v)], v)
  | .motorSensorReadValue, v => ([.transfer (outcome v.transfers)], motorSensorReadValue outcome v)
  | .setLastSpeed, v => ([.publish v.receivedValue], { v with gLastSpeed := v.receivedValue })
  | .uint8ToStr, v => ([.format v.gLastSpeed], { v with buf := uint8ToStr v.gLastSpeed })
  | .ifHighSpeed, v => ([.check v.gLastSpeed, .start (statusText v.gLastSpeed)], v)
  | .vTaskDelayUntil, v | .xSemaphoreTake _, v | .xSemaphoreGive _, v | .printLoop _, v => ([], v)

/-- The statement is not one on a semaphore. -/
def Stmt.Plain : Stmt → Prop
  | .xSemaphoreTake _ | .xSemaphoreGive _ => False
  | _ => True

/-- What a statement can do: take or give back a token, print, or go on without blocking. -/
inductive Exec (outcome : ℕ → Outcome) (m : Memory) :
    Stmt → List Stmt → Output → Memory → Prop
  | delay : Exec outcome m .vTaskDelayUntil [] ⟨[], []⟩ m
  | take {q : Handle} {c : Semaphore 1} (h : (m.sems q).count = c.count + 1) :
      Exec outcome m (.xSemaphoreTake q) [] ⟨[], []⟩ (m.setSem q c)
  | give (q : Handle) :
      Exec outcome m (.xSemaphoreGive q) [] ⟨[], []⟩ (m.setSem q (m.sems q).give)
  | print (str : Arg) {c : Semaphore 1} (h : (m.sems .xMutex).count = c.count + 1) :
      Exec outcome m (.print str) [.printLoop (str.eval m.vars)] ⟨[], [.start (str.eval m.vars)]⟩
        (m.setSem .xMutex c)
  | send (c : BitVec 8) (str : Text) :
      Exec outcome m (.printLoop (c :: str)) [.printLoop str] ⟨[c], []⟩ m
  | done : Exec outcome m (.printLoop []) [] ⟨[], []⟩ (m.setSem .xMutex (m.sems .xMutex).give)
  | read : Exec outcome m .motorSensorReadValue [] ⟨[], [.transfer (outcome m.vars.transfers)]⟩
      { m with vars := motorSensorReadValue outcome m.vars }
  | publish : Exec outcome m .setLastSpeed [] ⟨[], [.publish m.vars.receivedValue]⟩
      { m with vars := { m.vars with gLastSpeed := m.vars.receivedValue } }
  | format : Exec outcome m .uint8ToStr [] ⟨[], [.format m.vars.gLastSpeed]⟩
      { m with vars := { m.vars with buf := uint8ToStr m.vars.gLastSpeed } }
  | check : Exec outcome m .ifHighSpeed [.print (.str (statusText m.vars.gLastSpeed))]
      ⟨[], [.check m.vars.gLastSpeed]⟩ m

theorem exec_some (h : exec outcome st m = some (more, o, m')) : Exec outcome m st more o m' := by
  cases st with
  | xSemaphoreTake q =>
    simp only [exec, Option.map_eq_some_iff, Prod.mk.injEq] at h
    obtain ⟨c, hc, rfl, rfl, rfl⟩ := h
    exact .take (Semaphore.take_eq_some.1 hc)
  | print str =>
    simp only [exec, Option.map_eq_some_iff, Prod.mk.injEq] at h
    obtain ⟨c, hc, rfl, rfl, rfl⟩ := h
    exact .print str (Semaphore.take_eq_some.1 hc)
  | printLoop str =>
    cases str with
    | nil =>
      simp only [exec, Option.some.injEq, Prod.mk.injEq] at h
      obtain ⟨rfl, rfl, rfl⟩ := h
      exact .done
    | cons c str =>
      simp only [exec, Option.some.injEq, Prod.mk.injEq] at h
      obtain ⟨rfl, rfl, rfl⟩ := h
      exact .send c str
  | vTaskDelayUntil | xSemaphoreGive | motorSensorReadValue | setLastSpeed | uint8ToStr
  | ifHighSpeed =>
    simp only [exec, Option.some.injEq, Prod.mk.injEq] at h
    obtain ⟨rfl, rfl, rfl⟩ := h
    constructor

theorem describes_effect :
    Describes (effect outcome) (program outcome) Memory.vars Output.marks := by
  intro st m more o m' h
  cases exec_some h <;> rfl

/-- A plain statement leaves the semaphores as they are, and plain statements to be
    executed. -/
theorem Exec.plain (h : Exec outcome m st more o m') (hst : st.Plain) :
    (∀ q, q ≠ .xMutex → m'.sems q = m.sems q) ∧ ∀ x ∈ more, x.Plain := by
  cases h with
  | take | give => exact hst.elim
  | print str hc =>
    exact ⟨fun q hq => Function.update_of_ne hq _ _, fun x hx => by simp_all [Stmt.Plain]⟩
  | done => exact ⟨fun q hq => Function.update_of_ne hq _ _, fun x hx => absurd hx List.not_mem_nil⟩
  | delay | read | publish | format =>
    exact ⟨fun _ _ => rfl, fun x hx => absurd hx List.not_mem_nil⟩
  | send | check => exact ⟨fun _ _ => rfl, fun x hx => by simp_all [Stmt.Plain]⟩

/-! ## Gates -/

/-- Where a task is that waits for a token from `p`, executes `crit`, and passes the token
    on to `q`: outside, or inside with what is left of `crit`. -/
inductive Place (p q : Handle) (crit : List Stmt) : List Stmt → Option (List Stmt) → Prop
  | start : Place p q crit [] none
  | wait : Place p q crit (.xSemaphoreTake p :: (crit ++ [.xSemaphoreGive q])) none
  | inside {c : List Stmt} (hc : ∀ x ∈ c, x.Plain) :
      Place p q crit (c ++ [.xSemaphoreGive q]) (some c)

/-- What such a task can do. -/
inductive Moves (outcome : ℕ → Outcome) (p q : Handle) (crit : List Stmt) (m : Memory) :
    Option (List Stmt) → Output → Option (List Stmt) → Memory → Prop
  | delay : Moves outcome p q crit m none ⟨[], []⟩ none m
  | enter {c : Semaphore 1} (h : (m.sems p).count = c.count + 1) :
      Moves outcome p q crit m none ⟨[], []⟩ (some crit) (m.setSem p c)
  | go {st : Stmt} {k more : List Stmt} {o : Output} {m' : Memory} (hst : st.Plain)
      (h : exec outcome st m = some (more, o, m')) :
      Moves outcome p q crit m (some (st :: k)) o (some (more ++ k)) m'
  | leave : Moves outcome p q crit m (some []) ⟨[], []⟩ none (m.setSem q (m.sems q).give)

theorem Place.step {p q : Handle} {crit : List Stmt} {a : Option (List Stmt)}
    (hbody : body t = .vTaskDelayUntil :: .xSemaphoreTake p :: (crit ++ [.xSemaphoreGive q]))
    (hcrit : ∀ x ∈ crit, x.Plain) (ha : Place p q crit (s.code t) a)
    (h : (program outcome).step s t = .ok (o, s')) :
    ∃ a', Place p q crit (s'.code t) a' ∧ Moves outcome p q crit s.mem a o a' s'.mem := by
  obtain ⟨st, k, more, m, htodo, hexec, rfl⟩ := Program.step_ok h
  change exec outcome st s.mem = some (more, o, m) at hexec
  dsimp only
  rw [Function.update_self]
  generalize hc : s.code t = c at ha
  cases ha with
  | start =>
    rw [Program.todo_of_nil hc] at htodo
    obtain ⟨rfl, rfl⟩ := List.cons.inj (hbody.symm.trans htodo)
    cases exec_some hexec
    exact ⟨none, .wait, .delay⟩
  | wait =>
    rw [Program.todo_of_ne_nil (by simp [hc]), hc] at htodo
    obtain ⟨rfl, rfl⟩ := List.cons.inj htodo
    cases exec_some hexec with
    | take htake => exact ⟨some crit, .inside hcrit, .enter htake⟩
  | @inside c hplain =>
    rw [Program.todo_of_ne_nil (by simp [hc]), hc] at htodo
    cases c with
    | nil =>
      obtain ⟨rfl, rfl⟩ := List.cons.inj htodo
      cases exec_some hexec
      exact ⟨none, .start, .leave⟩
    | cons x c =>
      rw [List.cons_append] at htodo
      obtain ⟨rfl, rfl⟩ := List.cons.inj htodo
      have hx := hplain x List.mem_cons_self
      have hmore := ((exec_some hexec).plain hx).2
      refine ⟨some (more ++ c), ?_, .go hx hexec⟩
      rw [← List.append_assoc]
      refine .inside fun y hy => (List.mem_append.1 hy).elim (hmore y) fun hy => ?_
      exact hplain y (List.mem_cons_of_mem _ hy)

/-! ## The script -/

/-- `received_value` after some transfers. -/
def received (outcome : ℕ → Outcome) (r₀ : BitVec 8) : ℕ → BitVec 8
  | 0 => r₀
  | k + 1 => (outcome k).rxBuffer (received outcome r₀ k)

/-- What the two tasks do in a round, with the transfer and the speed. -/
def round (r : Outcome) (speed : BitVec 8) : List Mark :=
  [.start readingText, .transfer r, .publish speed, .start speedText, .format speed,
    .start (uint8ToStr speed), .start rpmText, .start checkingText, .check speed,
    .start (statusText speed)]

/-- What the two tasks do in the first `n` rounds. -/
def script (outcome : ℕ → Outcome) (r₀ : BitVec 8) (n : ℕ) : List Mark :=
  (List.range n).flatMap fun k => round (outcome k) (received outcome r₀ (k + 1))

theorem script_succ (r₀ : BitVec 8) (n : ℕ) :
    script outcome r₀ (n + 1) =
      script outcome r₀ n ++ round (outcome n) (received outcome r₀ (n + 1)) := by
  simp [script, List.range_succ]

/-- What `ReadSpeedTask` does with the token. -/
def reading : List Stmt :=
  [.print (.str readingText), .motorSensorReadValue, .setLastSpeed, .print (.str speedText),
    .uint8ToStr, .print .buf, .print (.str rpmText)]

/-- What `CheckSpeedTask` does with the token. -/
def checking : List Stmt := [.print (.str checkingText), .ifHighSpeed]

theorem plain_reading : ∀ x ∈ reading, x.Plain := by simp [reading, Stmt.Plain]

theorem plain_checking : ∀ x ∈ checking, x.Plain := by simp [checking, Stmt.Plain]

/-- Where the token is, with what is left of the tasks that may have it, the number of
    rounds that have begun, and what is left of the last of them. -/
inductive Phase (outcome : ℕ → Outcome) (m : Memory) :
    Option (List Stmt) → Option (List Stmt) → ℕ → List Mark → Prop
  | idle (hx : (m.sems .xSemaphore).count = 1) (hy : (m.sems .ySemaphore).count = 0) :
      Phase outcome m none none m.vars.transfers []
  | reading (c : List Stmt) (hx : (m.sems .xSemaphore).count = 0)
      (hy : (m.sems .ySemaphore).count = 0) :
      Phase outcome m (some c) none (alone (effect outcome) c m.vars).2.transfers
        ((alone (effect outcome) c m.vars).1 ++
          (alone (effect outcome) checking (alone (effect outcome) c m.vars).2).1)
  | handed (hx : (m.sems .xSemaphore).count = 0) (hy : (m.sems .ySemaphore).count = 1) :
      Phase outcome m none none m.vars.transfers (alone (effect outcome) checking m.vars).1
  | checking (c : List Stmt) (hx : (m.sems .xSemaphore).count = 0)
      (hy : (m.sems .ySemaphore).count = 0) :
      Phase outcome m none (some c) (alone (effect outcome) c m.vars).2.transfers
        (alone (effect outcome) c m.vars).1

/-- What `received_value` is. -/
def Receives (outcome : ℕ → Outcome) (r₀ : BitVec 8) (m : Memory) : Prop :=
  m.vars.receivedValue = received outcome r₀ m.vars.transfers

theorem Exec.receives {r₀ : BitVec 8} (h : Exec outcome m st more o m')
    (hm : Receives outcome r₀ m) : Receives outcome r₀ m' := by
  cases h with
  | read =>
    change (outcome m.vars.transfers).rxBuffer m.vars.receivedValue = _
    rw [hm]
    rfl
  | _ => exact hm

/-- A round, when `ReadSpeedTask` gets the token. -/
theorem alone_reading {r₀ : BitVec 8} (hm : Receives outcome r₀ m) :
    (alone (effect outcome) reading m.vars).1 ++
        (alone (effect outcome) checking (alone (effect outcome) reading m.vars).2).1 =
      round (outcome m.vars.transfers) (received outcome r₀ (m.vars.transfers + 1)) := by
  rw [received, ← hm]
  rfl

variable {r₀ : BitVec 8} {a a' b b' : Option (List Stmt)} {n : ℕ} {rest : List Mark}

/-- A step of `ReadSpeedTask` follows the script. -/
theorem Phase.readSpeedTask (h : Phase outcome m a b n rest) (hm : Receives outcome r₀ m)
    (hmove : Moves outcome .xSemaphore .ySemaphore Demo.reading m a o a' m') :
    ∃ n' rest', Phase outcome m' a' b n' rest' ∧ ∀ l, l ++ rest = script outcome r₀ n →
      l ++ o.marks ++ rest' = script outcome r₀ n' := by
  cases hmove with
  | delay => exact ⟨n, rest, h, fun l hl => by rw [List.append_nil, hl]⟩
  | @enter c htake =>
    cases h with
    | idle hx hy =>
      -- The token is taken, and a round begins.
      have hc : c.count = 0 := by omega
      refine ⟨m.vars.transfers + 1, _, .reading Demo.reading (m := m.setSem .xSemaphore c) hc hy,
        fun l hl => ?_⟩
      rw [List.append_nil] at hl
      rw [script_succ, ← hl, ← alone_reading hm, List.append_nil]
      rfl
    | handed hx | checking c hx =>
      rw [hx] at htake
      omega
  | @go st k more o m' hst hexec =>
    cases h with
    | reading c hx hy =>
      have hsems := ((exec_some hexec).plain hst).1
      have halone := describes_effect.alone_cons (k := k) hexec
      rw [← hsems _ (by decide)] at hx hy
      refine ⟨_, _, .reading (more ++ k) hx hy, fun l hl => ?_⟩
      rw [halone] at hl
      simpa only [List.append_assoc] using hl
  | leave =>
    cases h with
    | reading c hx hy =>
      have hy' : (m.sems .ySemaphore).give.count = 1 := by rw [Semaphore.count_give, hy]; rfl
      exact ⟨_, _, .handed (m := m.setSem .ySemaphore _) hx hy',
        fun l hl => by rw [List.append_nil]; exact hl⟩

/-- A step of `CheckSpeedTask` follows the script. -/
theorem Phase.checkSpeedTask (h : Phase outcome m a b n rest)
    (hmove : Moves outcome .ySemaphore .xSemaphore Demo.checking m b o b' m') :
    ∃ rest', Phase outcome m' a b' n rest' ∧ rest = o.marks ++ rest' := by
  cases hmove with
  | delay => exact ⟨rest, h, rfl⟩
  | @enter c htake =>
    cases h with
    | handed hx hy =>
      have hc : c.count = 0 := by omega
      exact ⟨_, .checking Demo.checking (m := m.setSem .ySemaphore c) hx hc, rfl⟩
    | idle hx hy | reading c hx hy =>
      rw [hy] at htake
      omega
  | @go st k more o m' hst hexec =>
    cases h with
    | checking c hx hy =>
      have hsems := ((exec_some hexec).plain hst).1
      have halone := describes_effect.alone_cons (k := k) hexec
      rw [← hsems _ (by decide)] at hx hy
      rw [halone]
      exact ⟨_, .checking (more ++ k) hx hy, rfl⟩
  | leave =>
    cases h with
    | checking c hx hy =>
      have hx' : (m.sems .xSemaphore).give.count = 1 := by rw [Semaphore.count_give, hx]; rfl
      exact ⟨_, .idle (m := m.setSem .xSemaphore _) hx' hy, rfl⟩

/-! ## The other tasks -/

/-- `TaskCodeC` and the callback of the timer have these statements only. -/
def Elsewhere : Task → Stmt → Prop
  | .taskCodeC, st =>
    st = .xSemaphoreTake .zSemaphore ∨ st = .print (.str wokeText) ∨ ∃ str, st = .printLoop str
  | .vTimerCallback, st => st = .xSemaphoreGive .zSemaphore
  | _, _ => True

theorem elsewhere_body : ∀ t, ∀ x ∈ body t, Elsewhere t x := by
  intro t
  cases t <;> simp [body, taskCodeC, vTimerCallback, Elsewhere]

theorem Exec.elsewhere (h : Exec outcome m st more o m') (hst : Elsewhere t st) :
    ∀ x ∈ more, Elsewhere t x := by
  cases t with
  | readSpeedTask | checkSpeedTask => exact fun _ _ => trivial
  | taskCodeC =>
    rcases hst with rfl | rfl | ⟨str, rfl⟩
    · cases h
      exact fun x hx => absurd hx List.not_mem_nil
    · cases h
      exact fun x hx => .inr (.inr ⟨_, List.mem_singleton.1 hx⟩)
    · cases h with
      | send c str => exact fun x hx => .inr (.inr ⟨_, List.mem_singleton.1 hx⟩)
      | done => exact fun x hx => absurd hx List.not_mem_nil
  | vTimerCallback =>
    obtain rfl : st = _ := hst
    cases h
    exact fun x hx => absurd hx List.not_mem_nil

/-- The task is one of the two that hand the speed over. -/
def Task.handsOff : Task → Bool
  | .readSpeedTask | .checkSpeedTask => true
  | .taskCodeC | .vTimerCallback => false

/-- The other tasks leave what these two share as it is, and print nothing but their
    message. -/
theorem Exec.other (h : Exec outcome m st more o m') (hst : Elsewhere t st)
    (ht : t.handsOff = false) :
    m'.vars = m.vars ∧ m'.sems .xSemaphore = m.sems .xSemaphore ∧
      m'.sems .ySemaphore = m.sems .ySemaphore ∧ (o.marks = [] ∨ o.marks = [.start wokeText]) := by
  cases t with
  | readSpeedTask | checkSpeedTask => exact absurd ht (by decide)
  | taskCodeC =>
    rcases hst with rfl | rfl | ⟨str, rfl⟩
    · cases h
      exact ⟨rfl, rfl, rfl, .inl rfl⟩
    · cases h
      exact ⟨rfl, rfl, rfl, .inr rfl⟩
    · cases h <;> exact ⟨rfl, rfl, rfl, .inl rfl⟩
  | vTimerCallback =>
    obtain rfl : st = _ := hst
    cases h
    exact ⟨rfl, rfl, rfl, .inl rfl⟩

theorem Phase.congr (h : Phase outcome m a b n rest) (hvars : m'.vars = m.vars)
    (hx : m'.sems .xSemaphore = m.sems .xSemaphore)
    (hy : m'.sems .ySemaphore = m.sems .ySemaphore) : Phase outcome m' a b n rest := by
  cases h with
  | idle hx' hy' =>
    rw [← hvars]
    exact .idle (hx ▸ hx') (hy ▸ hy')
  | reading c hx' hy' =>
    rw [← hvars]
    exact .reading c (hx ▸ hx') (hy ▸ hy')
  | handed hx' hy' =>
    rw [← hvars]
    exact .handed (hx ▸ hx') (hy ▸ hy')
  | checking c hx' hy' =>
    rw [← hvars]
    exact .checking c (hx ▸ hx') (hy ▸ hy')

/-! ## Runs -/

/-- What holds in all states that are reached. -/
structure Sound (outcome : ℕ → Outcome) (r₀ : BitVec 8) (s : State) : Prop where
  receives : Receives outcome r₀ s.mem
  elsewhere : ∀ t, ∀ x ∈ s.code t, Elsewhere t x

theorem sound_atStart (r₀ : BitVec 8) (buf : Text) : Sound outcome r₀ (atStart r₀ buf) :=
  ⟨rfl, fun _ _ hx => absurd hx List.not_mem_nil⟩

/-- A step executes a statement of the task. -/
theorem Sound.exec (hs : Sound outcome r₀ s) (h : (program outcome).step s t = .ok (o, s')) :
    ∃ st more, Elsewhere t st ∧ Exec outcome s.mem st more o s'.mem := by
  obtain ⟨st, k, more, m, htodo, hexec, rfl⟩ := Program.step_ok h
  have hmem : st ∈ (program outcome).todo s t := htodo ▸ List.mem_cons_self
  exact ⟨st, more, (Program.mem_of_mem_todo hmem).elim (hs.elsewhere t st) (elsewhere_body t st),
    exec_some hexec⟩

theorem Sound.step (hs : Sound outcome r₀ s) (h : (program outcome).step s t = .ok (o, s')) :
    Sound outcome r₀ s' where
  receives := by
    obtain ⟨st, more, -, hexec⟩ := hs.exec h
    exact hexec.receives hs.receives
  elsewhere := forall_code_step elsewhere_body
    (fun _ _ _ _ _ _ hx hexec => (exec_some hexec).elsewhere hx) hs.elsewhere h

/-- After the marks `l` of the two tasks, they are where the script says. -/
def Follows (outcome : ℕ → Outcome) (r₀ : BitVec 8) (s : State) (l : List Mark) : Prop :=
  ∃ a b n rest, Place .xSemaphore .ySemaphore reading (s.code .readSpeedTask) a ∧
    Place .ySemaphore .xSemaphore checking (s.code .checkSpeedTask) b ∧
    Phase outcome s.mem a b n rest ∧ l ++ rest = script outcome r₀ n

/-- The marks of the two tasks in a step. -/
def handOff (τ : Step) : List Mark := if τ.input.handsOff then τ.output.marks else []

theorem handOff_eq_nil {τ : Step} (h : τ.input.handsOff = false) : handOff τ = [] := by
  rw [handOff, h, if_neg Bool.false_ne_true]

theorem follows_atStart (r₀ : BitVec 8) (buf : Text) : Follows outcome r₀ (atStart r₀ buf) [] :=
  ⟨none, none, 0, [], .start, .start, .idle rfl rfl, rfl⟩

/-- Whatever task goes on, the two follow the script. -/
theorem Follows.step {l : List Mark} (hl : Follows outcome r₀ s l) (hs : Sound outcome r₀ s)
    (h : (program outcome).step s t = .ok (o, s')) :
    Follows outcome r₀ s' (l ++ handOff ⟨s, t, o, s'⟩) := by
  obtain ⟨a, b, n, rest, ha, hb, hphase, hrest⟩ := hl
  have hother : ∀ {u}, u ≠ t → s'.code u = s.code u := Program.code_of_ne h
  cases t with
  | readSpeedTask =>
    obtain ⟨a', ha', hmove⟩ := ha.step rfl plain_reading h
    obtain ⟨n', rest', hphase', hscript⟩ := hphase.readSpeedTask hs.receives hmove
    exact ⟨a', b, n', rest', ha', hother (u := .checkSpeedTask) (by decide) ▸ hb, hphase',
      hscript l hrest⟩
  | checkSpeedTask =>
    obtain ⟨b', hb', hmove⟩ := hb.step rfl plain_checking h
    obtain ⟨rest', hphase', hmarks⟩ := hphase.checkSpeedTask hmove
    refine ⟨a, b', n, rest', hother (u := .readSpeedTask) (by decide) ▸ ha, hb', hphase', ?_⟩
    rw [← hrest, hmarks, ← List.append_assoc]
    rfl
  | taskCodeC | vTimerCallback =>
    have ha' := hother (u := .readSpeedTask) (by decide)
    have hb' := hother (u := .checkSpeedTask) (by decide)
    obtain ⟨st, more, hst, hexec⟩ := hs.exec h
    obtain ⟨hvars, hx, hy, -⟩ := hexec.other hst rfl
    refine ⟨a, b, n, rest, ha' ▸ ha, hb' ▸ hb, hphase.congr hvars hx hy, ?_⟩
    rw [← hrest, handOff_eq_nil rfl, List.append_nil]

variable {ts : List Task} {h : List Step}

theorem run_sound (hr : run outcome s ts = .ok (h, s')) (hs : Sound outcome r₀ s) :
    Sound outcome r₀ s' ∧ ∀ τ ∈ h, Sound outcome r₀ τ.pre ∧ Sound outcome r₀ τ.post :=
  Mealy.run_invariant hr hs fun _ _ htake hpre => hpre.step htake

/-- The marks of a step are those of the two tasks, or that of the message of
    `TaskCodeC`. -/
theorem run_marks {buf : Text} (hr : run outcome (atStart r₀ buf) ts = .ok (h, s)) {τ : Step}
    (hτ : τ ∈ h) :
    τ.output.marks = handOff τ ∨ handOff τ = [] ∧ τ.output.marks = [.start wokeText] := by
  cases ht : τ.input.handsOff with
  | true =>
    rw [handOff, ht, if_pos rfl]
    exact .inl rfl
  | false =>
    have hsound := ((run_sound hr (sound_atStart r₀ buf)).2 τ hτ).1
    obtain ⟨st, more, hst, hexec⟩ := hsound.exec (Mealy.run_takes hr τ hτ).1
    obtain ⟨-, -, -, hmarks⟩ := hexec.other hst ht
    rw [handOff_eq_nil ht]
    exact hmarks.imp_right fun h => ⟨rfl, h⟩

/-- In all runs, the two tasks follow the script. -/
theorem run_follows {buf : Text} (hr : run outcome (atStart r₀ buf) ts = .ok (h, s)) :
    Follows outcome r₀ s (h.flatMap handOff) := by
  have hsound := (run_sound hr (sound_atStart r₀ buf)).2
  have htrace : ∀ l, Follows outcome r₀ (atStart r₀ buf) l →
      Follows outcome r₀ s (l ++ h.flatMap handOff) :=
    Mealy.run_trace id
      (R := fun s m s' => ∀ l, Follows outcome r₀ s l → Follows outcome r₀ s' (l ++ m))
      (fun _ l hl => by rwa [List.append_nil])
      (fun h₁ h₂ l hl => by
        rw [← List.append_assoc]
        exact h₂ _ (h₁ l hl)) hr
      fun τ hτ l hl => hl.step (hsound τ hτ).1 (Mealy.run_takes hr τ hτ).1
  exact htrace [] (follows_atStart r₀ buf)

end S32K358.Demo
