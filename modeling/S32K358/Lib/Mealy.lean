import Mathlib.Data.List.Forall2

/-!
# Machines that may stop

A machine takes inputs one at a time: on an input, a state gives an output and
the next state, or the machine stops with an error. Its runs on a list of
inputs (`run`) keep the *history*, i.e., the transitions taken, so that
properties of whole runs are properties of histories.

* `run_invariant`: what every transition preserves holds all along a run, and
  `run_ghost` the same with a ghost variable;
* `run_ok`, `run_error`: a run does not stop, or only with certain errors, if
  its steps do not, or only with these;
* `run_forall_iff`: if a transition keeps a property exactly when a condition
  on its state and input holds, then the property holds all along a run
  exactly when the condition does, and `run_along_iff` and `run_along_exact`
  are such equivalences with a ghost variable (`Along`);
* `run_conserves`: if a transition moves elements through a queue without
  losing, duplicating or reordering them, so does a run, and
  `run_conserves_iff` says that it is the only way;
* `run_trace`: what a view of the state and the elements given off do in a transition,
  they do in a run;
* `run_simulates`, `run_refines`: a step-by-step simulation, or refinement, is one
  of runs;
* `run_path`: so is a simulation by a specification that leaves choices open (`Path`).
-/

namespace Mealy

variable {σ ι ο ε : Type*}

/-- A transition: from the state `pre`, on `input`, to `post`, giving `output`. -/
structure Transition (σ ι ο : Type*) where
  pre : σ
  input : ι
  output : ο
  post : σ

/-- The transition `τ` is one of the machine `step`. -/
def Takes (step : σ → ι → Except ε (ο × σ)) (τ : Transition σ ι ο) : Prop :=
  step τ.pre τ.input = .ok (τ.output, τ.post)

/-- The run of the machine `step` from a state on a list of inputs: its history
    and the state it ends in, or the error it stops with. -/
def run (step : σ → ι → Except ε (ο × σ)) :
    σ → List ι → Except ε (List (Transition σ ι ο) × σ)
  | s, [] => .ok ([], s)
  | s, i :: is =>
    match step s i with
    | .error e => .error e
    | .ok (o, s') =>
      match run step s' is with
      | .error e => .error e
      | .ok (h, t) => .ok (⟨s, i, o, s'⟩ :: h, t)

/-- The states a machine reaches from the initial ones. -/
def Reachable (step : σ → ι → Except ε (ο × σ)) (init : σ → Prop) (t : σ) : Prop :=
  ∃ s is h, init s ∧ run step s is = .ok (h, t)

variable {step : σ → ι → Except ε (ο × σ)} {s t : σ} {i : ι} {is : List ι} {e : ε}
  {h : List (Transition σ ι ο)}

/-! ## Runs, step by step -/

theorem run_nil_ok (hr : run step s [] = .ok (h, t)) : h = [] ∧ t = s := by
  simp only [run, Except.ok.injEq, Prod.mk.injEq] at hr
  exact ⟨hr.1.symm, hr.2.symm⟩

theorem run_cons_ok (hr : run step s (i :: is) = .ok (h, t)) :
    ∃ o s' h', step s i = .ok (o, s') ∧ run step s' is = .ok (h', t) ∧
      h = ⟨s, i, o, s'⟩ :: h' := by
  rw [run] at hr
  split at hr
  · exact absurd hr (by simp)
  · rename_i o s' hstep
    split at hr
    · exact absurd hr (by simp)
    · rename_i h' t' hrest
      simp only [Except.ok.injEq, Prod.mk.injEq] at hr
      exact ⟨o, s', h', hstep, hr.2 ▸ hrest, hr.1.symm⟩

theorem run_cons_of_ok {o : ο} {s' : σ} (hstep : step s i = .ok (o, s'))
    (hr : run step s' is = .ok (h, t)) :
    run step s (i :: is) = .ok (⟨s, i, o, s'⟩ :: h, t) := by
  simp only [run, hstep, hr]

theorem run_snoc_of_ok {o : ο} {u : σ} (hr : run step s is = .ok (h, t))
    (hstep : step t i = .ok (o, u)) : run step s (is ++ [i]) = .ok (h ++ [⟨t, i, o, u⟩], u) := by
  induction is generalizing s h with
  | nil =>
    obtain ⟨rfl, rfl⟩ := run_nil_ok hr
    exact run_cons_of_ok hstep rfl
  | cons j is ih =>
    obtain ⟨o, s', m, hfirst, hrest, rfl⟩ := run_cons_ok hr
    exact run_cons_of_ok hfirst (ih hrest)

/-- A run on inputs that are appended goes on where the first one has ended. -/
theorem run_append_of_ok (hr : run step s is = .ok (h, t)) (js : List ι) :
    run step s (is ++ js) = (run step t js).map fun r => (h ++ r.1, r.2) := by
  induction is generalizing s h with
  | nil =>
    obtain ⟨rfl, rfl⟩ := run_nil_ok hr
    cases hj : run step t js <;> simp [hj, Except.map]
  | cons i is ih =>
    obtain ⟨o, s', h', hstep, hrest, rfl⟩ := run_cons_ok hr
    rw [List.cons_append, run, hstep]
    dsimp only
    rw [ih hrest]
    cases run step t js <;> rfl

theorem run_cons_error (hr : run step s (i :: is) = .error e) :
    step s i = .error e ∨ ∃ o s', step s i = .ok (o, s') ∧ run step s' is = .error e := by
  rw [run] at hr
  split at hr
  · rename_i e' hstep
    simp only [Except.error.injEq] at hr
    exact .inl (hr ▸ hstep)
  · rename_i o s' hstep
    split at hr
    · rename_i e' hrest
      simp only [Except.error.injEq] at hr
      exact .inr ⟨o, s', hstep, hr ▸ hrest⟩
    · exact absurd hr (by simp)

/-- A run stops with an error at an input that does, after a run that does not. -/
theorem run_error_iff : run step s is = .error e ↔
    ∃ js i ks h t, is = js ++ i :: ks ∧ run step s js = .ok (h, t) ∧ step t i = .error e := by
  constructor
  · intro hr
    induction is generalizing s with
    | nil => exact absurd hr (by simp [run])
    | cons i is ih =>
      rcases run_cons_error hr with hstep | ⟨o, s', hstep, hrest⟩
      · exact ⟨[], i, is, [], s, rfl, rfl, hstep⟩
      · obtain ⟨js, j, ks, h, t, rfl, hjs, hj⟩ := ih hrest
        exact ⟨i :: js, j, ks, _, t, rfl, run_cons_of_ok hstep hjs, hj⟩
  · rintro ⟨js, i, ks, h, t, rfl, hjs, hi⟩
    induction js generalizing s h with
    | nil =>
      obtain ⟨-, rfl⟩ := run_nil_ok hjs
      simp only [List.nil_append, run, hi]
    | cons j js ih =>
      obtain ⟨o, s', h', hstep, hrest, -⟩ := run_cons_ok hjs
      simp only [List.cons_append, run, hstep, ih h' hrest]

/-- A history is made of transitions of the machine, on the inputs of the run. -/
theorem run_takes (hr : run step s is = .ok (h, t)) :
    ∀ τ ∈ h, Takes step τ ∧ τ.input ∈ is := by
  induction is generalizing s h with
  | nil =>
    obtain ⟨rfl, -⟩ := run_nil_ok hr
    exact fun _ hτ => absurd hτ List.not_mem_nil
  | cons i is ih =>
    obtain ⟨o, s', h', hstep, hrest, rfl⟩ := run_cons_ok hr
    intro τ hτ
    rcases List.mem_cons.1 hτ with rfl | hτ
    · exact ⟨hstep, List.mem_cons_self⟩
    · exact ⟨(ih hrest τ hτ).1, List.mem_cons_of_mem _ (ih hrest τ hτ).2⟩

theorem exists_of_map_eq_ok {α β : Type*} {x : Except ε α} {f : α → β} {b : β}
    (h : x.map f = .ok b) : ∃ a, x = .ok a ∧ f a = b := by
  rcases x with e | a
  · exact absurd h (by simp [Except.map])
  · exact ⟨a, rfl, Except.ok.inj h⟩

/-! ## Invariants -/

/-- What the transitions of a run preserve holds all along it. -/
theorem run_invariant {I : σ → Prop} (hr : run step s is = .ok (h, t)) (hs : I s)
    (keep : ∀ τ ∈ h, Takes step τ → I τ.pre → I τ.post) :
    I t ∧ ∀ τ ∈ h, I τ.pre ∧ I τ.post := by
  induction is generalizing s h with
  | nil =>
    obtain ⟨rfl, rfl⟩ := run_nil_ok hr
    exact ⟨hs, fun _ hτ => absurd hτ List.not_mem_nil⟩
  | cons i is ih =>
    obtain ⟨o, s', h', hstep, hrest, rfl⟩ := run_cons_ok hr
    have hs' : I s' := keep ⟨s, i, o, s'⟩ List.mem_cons_self hstep hs
    obtain ⟨ht, hh⟩ := ih hrest hs' fun τ hτ => keep τ (List.mem_cons_of_mem _ hτ)
    refine ⟨ht, fun τ hτ => ?_⟩
    rcases List.mem_cons.1 hτ with rfl | hτ
    · exact ⟨hs, hs'⟩
    · exact hh τ hτ

/-- The invariant may tie the state to a ghost variable that is updated along the
    history. -/
theorem run_ghost {γ : Type*} (update : γ → Transition σ ι ο → γ) {I : γ → σ → Prop} {g : γ}
    (hr : run step s is = .ok (h, t)) (hs : I g s)
    (keep : ∀ g, ∀ τ ∈ h, Takes step τ → I g τ.pre → I (update g τ) τ.post) :
    I (h.foldl update g) t := by
  induction is generalizing s h g with
  | nil =>
    obtain ⟨rfl, rfl⟩ := run_nil_ok hr
    exact hs
  | cons i is ih =>
    obtain ⟨o, s', h', hstep, hrest, rfl⟩ := run_cons_ok hr
    have hs' : I (update g ⟨s, i, o, s'⟩) s' := keep g ⟨s, i, o, s'⟩ List.mem_cons_self hstep hs
    rw [List.foldl_cons]
    exact ih hrest hs' fun g τ hτ => keep g τ (List.mem_cons_of_mem _ hτ)

/-- `P` holds of all transitions of a history, each with the ghost variable before it. -/
def Along {γ : Type*} (update : γ → Transition σ ι ο → γ) (P : γ → Transition σ ι ο → Prop) :
    γ → List (Transition σ ι ο) → Prop
  | _, [] => True
  | g, τ :: h => P g τ ∧ Along update P (update g τ) h

/-- What is equivalent for transitions from states tied to the ghost variable by an
    invariant is equivalent along runs. -/
theorem run_along_iff {γ : Type*} {update : γ → Transition σ ι ο → γ} {I : γ → σ → Prop}
    {P C : γ → Transition σ ι ο → Prop} {g : γ} (hr : run step s is = .ok (h, t)) (hs : I g s)
    (keep : ∀ g, ∀ τ ∈ h, Takes step τ → I g τ.pre → I (update g τ) τ.post)
    (same : ∀ g, ∀ τ ∈ h, Takes step τ → I g τ.pre → (P g τ ↔ C g τ)) :
    Along update P g h ↔ Along update C g h := by
  induction is generalizing s h g with
  | nil =>
    obtain ⟨rfl, -⟩ := run_nil_ok hr
    exact Iff.rfl
  | cons i is ih =>
    obtain ⟨o, s', h', hstep, hrest, rfl⟩ := run_cons_ok hr
    have hs' : I (update g ⟨s, i, o, s'⟩) s' := keep g ⟨s, i, o, s'⟩ List.mem_cons_self hstep hs
    exact and_congr (same g ⟨s, i, o, s'⟩ List.mem_cons_self hstep hs)
      (ih hrest hs' (fun g τ hτ => keep g τ (List.mem_cons_of_mem _ hτ))
        fun g τ hτ => same g τ (List.mem_cons_of_mem _ hτ))

/-- What ties the state to the ghost variable may also hold only as long as the transitions
    satisfy a condition, next to an invariant that always does. -/
theorem run_along_exact_of_invariant {γ : Type*} {update : γ → Transition σ ι ο → γ}
    {I P : γ → σ → Prop} {C : γ → Transition σ ι ο → Prop} {g : γ}
    (hr : run step s is = .ok (h, t)) (hs : I g s) (hp : P g s)
    (keep : ∀ g, ∀ τ ∈ h, Takes step τ → I g τ.pre → I (update g τ) τ.post)
    (exact_ : ∀ g, ∀ τ ∈ h, Takes step τ → I g τ.pre → P g τ.pre →
      (P (update g τ) τ.post ↔ C g τ)) :
    Along update (fun g τ => P (update g τ) τ.post) g h ↔ Along update C g h := by
  induction is generalizing s h g with
  | nil =>
    obtain ⟨rfl, -⟩ := run_nil_ok hr
    exact Iff.rfl
  | cons i is ih =>
    obtain ⟨o, s', h', hstep, hrest, rfl⟩ := run_cons_ok hr
    have hs' : I (update g ⟨s, i, o, s'⟩) s' := keep g ⟨s, i, o, s'⟩ List.mem_cons_self hstep hs
    have hfirst : P (update g ⟨s, i, o, s'⟩) s' ↔ C g ⟨s, i, o, s'⟩ :=
      exact_ g ⟨s, i, o, s'⟩ List.mem_cons_self hstep hs hp
    -- Past the first transition, both sides need `P` of its state, and then agree.
    exact (and_congr_right fun hp' => ih hrest hs' hp'
      (fun g τ hτ => keep g τ (List.mem_cons_of_mem _ hτ)) fun g τ hτ =>
        exact_ g τ (List.mem_cons_of_mem _ hτ)).trans (and_congr_left' hfirst)

theorem run_along_exact {γ : Type*} {update : γ → Transition σ ι ο → γ} {P : γ → σ → Prop}
    {C : γ → Transition σ ι ο → Prop} {g : γ} (hr : run step s is = .ok (h, t)) (hp : P g s)
    (exact_ : ∀ g, ∀ τ ∈ h, Takes step τ → P g τ.pre → (P (update g τ) τ.post ↔ C g τ)) :
    Along update (fun g τ => P (update g τ) τ.post) g h ↔ Along update C g h :=
  run_along_exact_of_invariant (I := fun _ _ => True) hr trivial hp (fun _ _ _ _ _ => trivial)
    fun g τ hτ htake _ => exact_ g τ hτ htake

/-- A machine that neither stops in the states of an invariant, on certain
    inputs, nor leaves them, runs on these inputs to their end. -/
theorem run_ok {I : σ → Prop} {D : ι → Prop}
    (total : ∀ s i, I s → D i → ∃ o s', step s i = .ok (o, s') ∧ I s')
    (hs : I s) (hD : ∀ i ∈ is, D i) : ∃ h t, run step s is = .ok (h, t) := by
  induction is generalizing s with
  | nil => exact ⟨[], s, rfl⟩
  | cons i is ih =>
    obtain ⟨o, s', hstep, hs'⟩ := total s i hs (hD i List.mem_cons_self)
    obtain ⟨h, t, hrest⟩ := ih hs' fun j hj => hD j (List.mem_cons_of_mem _ hj)
    exact ⟨_, t, run_cons_of_ok hstep hrest⟩

/-- A machine that stops, in the states of an invariant and on certain inputs,
    only with the errors `E`, stops its runs on these inputs only with them. -/
theorem run_error {I : σ → Prop} {D : ι → Prop} {E : ε → Prop}
    (keep : ∀ s i o s', I s → D i → step s i = .ok (o, s') → I s')
    (stop : ∀ s i e, I s → D i → step s i = .error e → E e)
    (hs : I s) (hD : ∀ i ∈ is, D i) (hr : run step s is = .error e) : E e := by
  induction is generalizing s with
  | nil => exact absurd hr (by simp [run])
  | cons i is ih =>
    rcases run_cons_error hr with hstep | ⟨o, s', hstep, hrest⟩
    · exact stop s i e hs (hD i List.mem_cons_self) hstep
    · exact ih (keep s i o s' hs (hD i List.mem_cons_self) hstep)
        (fun j hj => hD j (List.mem_cons_of_mem _ hj)) hrest

/-- If, from the states of an invariant where `P` holds, a transition leads to
    `P` exactly when its state and input satisfy `C`, then `P` holds all along
    a run exactly when all its transitions satisfy `C`. -/
theorem run_forall_iff {I P : σ → Prop} {C : σ → ι → Prop}
    (hr : run step s is = .ok (h, t)) (hs : I s) (hp : P s)
    (keep : ∀ τ ∈ h, Takes step τ → I τ.pre → I τ.post)
    (exact_ : ∀ τ ∈ h, Takes step τ → I τ.pre → P τ.pre → (P τ.post ↔ C τ.pre τ.input)) :
    (∀ τ ∈ h, P τ.post) ↔ ∀ τ ∈ h, C τ.pre τ.input := by
  induction is generalizing s h with
  | nil =>
    obtain ⟨rfl, -⟩ := run_nil_ok hr
    simp
  | cons i is ih =>
    obtain ⟨o, s', h', hstep, hrest, rfl⟩ := run_cons_ok hr
    have hs' : I s' := keep ⟨s, i, o, s'⟩ List.mem_cons_self hstep hs
    have hx : P s' ↔ C s i := exact_ ⟨s, i, o, s'⟩ List.mem_cons_self hstep hs hp
    simp only [List.forall_mem_cons]
    -- Past the first transition, both sides need `P s'`, and then agree.
    constructor
    · rintro ⟨hp', hh⟩
      exact ⟨hx.1 hp', (ih hrest hs' hp' (fun τ hτ => keep τ (List.mem_cons_of_mem _ hτ))
        fun τ hτ => exact_ τ (List.mem_cons_of_mem _ hτ)).1 hh⟩
    · rintro ⟨hc, hh⟩
      exact ⟨hx.2 hc, (ih hrest hs' (hx.2 hc) (fun τ hτ => keep τ (List.mem_cons_of_mem _ hτ))
        fun τ hτ => exact_ τ (List.mem_cons_of_mem _ hτ)).2 hh⟩

/-! ## Queues -/

section Queue

variable {γ : Type*} (held : σ → List γ) {taken given : Transition σ ι ο → List γ}

/-- If every transition takes elements into a queue and gives elements from
    it, in order and without loss or duplication, so does a run. -/
theorem run_conserves (hr : run step s is = .ok (h, t))
    (conserve : ∀ τ ∈ h, held τ.pre ++ taken τ = given τ ++ held τ.post) :
    held s ++ h.flatMap taken = h.flatMap given ++ held t := by
  induction is generalizing s h with
  | nil =>
    obtain ⟨rfl, rfl⟩ := run_nil_ok hr
    simp
  | cons i is ih =>
    obtain ⟨o, s', h', hstep, hrest, rfl⟩ := run_cons_ok hr
    have hfirst := conserve ⟨s, i, o, s'⟩ List.mem_cons_self
    have htail := ih hrest fun τ hτ => conserve τ (List.mem_cons_of_mem _ hτ)
    calc held s ++ List.flatMap taken (⟨s, i, o, s'⟩ :: h')
        = (held s ++ taken ⟨s, i, o, s'⟩) ++ h'.flatMap taken := by
          rw [List.flatMap_cons, List.append_assoc]
      _ = given ⟨s, i, o, s'⟩ ++ (held s' ++ h'.flatMap taken) := by
          rw [hfirst, List.append_assoc]
      _ = List.flatMap given (⟨s, i, o, s'⟩ :: h') ++ held t := by
          rw [htail, List.flatMap_cons, List.append_assoc]

/-- Conversely, if a transition that does not conserve the elements gives a
    wrong one, i.e., not the next ones of the queue, then a run conserves the
    elements only if all its transitions do. -/
theorem run_conserves_iff (hr : run step s is = .ok (h, t))
    (wrong : ∀ τ ∈ h, held τ.pre ++ taken τ = given τ ++ held τ.post ∨
      (given τ).length ≤ (held τ.pre ++ taken τ).length ∧
        ¬given τ <+: held τ.pre ++ taken τ) :
    held s ++ h.flatMap taken = h.flatMap given ++ held t ↔
      ∀ τ ∈ h, held τ.pre ++ taken τ = given τ ++ held τ.post := by
  refine ⟨fun heq => ?_, fun conserve => run_conserves held hr conserve⟩
  induction is generalizing s h with
  | nil =>
    obtain ⟨rfl, -⟩ := run_nil_ok hr
    exact fun _ hτ => absurd hτ List.not_mem_nil
  | cons i is ih =>
    obtain ⟨o, s', h', hstep, hrest, rfl⟩ := run_cons_ok hr
    have heq' : (held s ++ taken ⟨s, i, o, s'⟩) ++ h'.flatMap taken =
        given ⟨s, i, o, s'⟩ ++ (h'.flatMap given ++ held t) := by
      simpa only [List.flatMap_cons, List.append_assoc] using heq
    rcases wrong ⟨s, i, o, s'⟩ List.mem_cons_self with hfirst | ⟨hle, hnot⟩
    · -- The first transition conserves: cancel what it gives and go on.
      dsimp only at hfirst
      rw [hfirst, List.append_assoc, List.append_cancel_left_eq] at heq'
      exact List.forall_mem_cons.2
        ⟨hfirst, ih hrest (fun τ hτ => wrong τ (List.mem_cons_of_mem _ hτ)) heq'⟩
    · -- It gives a wrong element, which stays at its place on the right.
      have hgiven : given ⟨s, i, o, s'⟩ <+: (held s ++ taken ⟨s, i, o, s'⟩) ++ h'.flatMap taken :=
        heq' ▸ List.prefix_append _ _
      exact absurd (List.prefix_of_prefix_length_le hgiven (List.prefix_append _ _) hle) hnot

/-- If, in a transition, a view of the state changes as `R` says with the elements
    that are given off, so it does in a run. -/
theorem run_trace {κ : Type*} (view : σ → κ) {R : κ → List γ → κ → Prop} (nil : ∀ c, R c [] c)
    (append : ∀ {c d e l m}, R c l d → R d m e → R c (l ++ m) e) (hr : run step s is = .ok (h, t))
    (htrace : ∀ τ ∈ h, R (view τ.pre) (given τ) (view τ.post)) :
    R (view s) (h.flatMap given) (view t) := by
  induction is generalizing s h with
  | nil =>
    obtain ⟨rfl, rfl⟩ := run_nil_ok hr
    exact nil _
  | cons i is ih =>
    obtain ⟨o, s', h', hstep, hrest, rfl⟩ := run_cons_ok hr
    rw [List.flatMap_cons]
    exact append (htrace ⟨s, i, o, s'⟩ List.mem_cons_self)
      (ih hrest fun τ hτ => htrace τ (List.mem_cons_of_mem _ hτ))

end Queue

/-! ## Simulations -/

section Simulation

variable {σ' ι' ο' : Type*} {step' : σ' → ι' → Except ε (ο' × σ')}

/-- A run of `step` and a run of `step'` look the same through `Q`: both end,
    with outputs related one by one, or both stop with the same error. -/
def Alike (Q : ι → ο → ι' → ο' → Prop) :
    Except ε (List (Transition σ ι ο) × σ) → Except ε (List (Transition σ' ι' ο') × σ') → Prop
  | .ok (h, _), .ok (h', _) => List.Forall₂ (fun τ τ' => Q τ.input τ.output τ'.input τ'.output) h h'
  | .error e, .error e' => e = e'
  | _, _ => False

/-- What is observed of the outputs of two runs that look the same is the same. -/
theorem Alike.observe_eq {γ : Type*} {f : ο → γ} {f' : ο' → γ} {Q : ι → ο → ι' → ο' → Prop}
    (hQ : ∀ i o i' o', Q i o i' o' → f o = f' o')
    {x : Except ε (List (Transition σ ι ο) × σ)} {y : Except ε (List (Transition σ' ι' ο') × σ')}
    (h : Alike Q x y) :
    x.map (fun r => r.1.map fun τ => f τ.output) = y.map fun r => r.1.map fun τ => f' τ.output := by
  rcases x with e | ⟨l, t⟩ <;> rcases y with e' | ⟨l', t'⟩
  · exact congrArg Except.error h
  · exact h.elim
  · exact h.elim
  · have hl : List.Forall₂ (· = ·) (l.map fun τ => f τ.output) (l'.map fun τ => f' τ.output) :=
      List.forall₂_map_left_iff.2 (List.forall₂_map_right_iff.2
        (List.Forall₂.imp (fun _ _ => hQ _ _ _ _) h))
    rw [List.forall₂_eq_eq_eq] at hl
    exact congrArg Except.ok hl

/-- A simulation, step by step, of related states on related inputs, which
    relates the outputs, makes the runs look the same. -/
theorem run_simulates {R : σ → σ' → Prop} {J : ι → ι' → Prop} {Q : ι → ο → ι' → ο' → Prop}
    (sim : ∀ s s' i i', R s s' → J i i' →
      (∃ o t o' t', step s i = .ok (o, t) ∧ step' s' i' = .ok (o', t') ∧ Q i o i' o' ∧ R t t') ∨
        ∃ e, step s i = .error e ∧ step' s' i' = .error e)
    {s' : σ'} {is' : List ι'} (hs : R s s') (his : List.Forall₂ J is is') :
    Alike Q (run step s is) (run step' s' is') := by
  induction his generalizing s s' with
  | nil => exact .nil
  | cons hi _ ih =>
    rcases sim s s' _ _ hs hi with ⟨o, t, o', t', hstep, hstep', hq, ht⟩ | ⟨e, hstep, hstep'⟩
    · have hrest := ih ht
      simp only [run, hstep, hstep']
      generalize run step t _ = r at hrest ⊢
      generalize run step' t' _ = r' at hrest ⊢
      rcases r with e | ⟨h, u⟩ <;> rcases r' with e' | ⟨h', u'⟩
      · exact hrest
      · exact hrest.elim
      · exact hrest.elim
      · exact .cons hq hrest
    · simp only [run, hstep, hstep', Alike]

/-- A transition seen through a map of states and one of inputs. -/
def Transition.map (f : σ → σ') (g : σ → ι → ι') (τ : Transition σ ι ο) : Transition σ' ι' ο :=
  ⟨f τ.pre, g τ.pre τ.input, τ.output, f τ.post⟩

/-- A map of states that takes the transitions of a run to those of another machine with the
    same outputs, which may stop for other reasons, takes the run to one of it. -/
theorem run_maps {ε' : Type*} {step' : σ' → ι' → Except ε' (ο × σ')} (f : σ → σ') (g : σ → ι → ι')
    (hr : run step s is = .ok (h, t))
    (ref : ∀ τ ∈ h, Takes step τ → step' (f τ.pre) (g τ.pre τ.input) = .ok (τ.output, f τ.post)) :
    run step' (f s) (h.map fun τ => g τ.pre τ.input) = .ok (h.map (Transition.map f g), f t) := by
  induction is generalizing s h with
  | nil =>
    obtain ⟨rfl, rfl⟩ := run_nil_ok hr
    rfl
  | cons i is ih =>
    obtain ⟨o, s', h', hstep, hrest, rfl⟩ := run_cons_ok hr
    exact run_cons_of_ok (ref ⟨s, i, o, s'⟩ List.mem_cons_self hstep)
      (ih hrest fun τ hτ => ref τ (List.mem_cons_of_mem _ hτ))

/-- A refinement map, from the states of a machine to those of one with the same
    outputs, maps its runs to runs. -/
theorem run_refines {step' : σ' → ι' → Except ε (ο × σ')} (f : σ → σ') (g : σ → ι → ι')
    (ref : ∀ s i o t, step s i = .ok (o, t) → step' (f s) (g s i) = .ok (o, f t))
    (hr : run step s is = .ok (h, t)) :
    run step' (f s) (h.map fun τ => g τ.pre τ.input) = .ok (h.map (Transition.map f g), f t) :=
  run_maps f g hr fun τ _ hτ => ref τ.pre τ.input τ.output τ.post hτ

end Simulation

/-! ## Specifications with choices -/

section Path

variable {γ : Type*} {next : γ → ι → ο → γ → Prop} {g g' g'' : γ} {l l' : List (ι × ο)}

/-- A path of a specification `next`, which says what may come of an input, with the inputs
    taken and the outputs given. -/
inductive Path (next : γ → ι → ο → γ → Prop) : γ → List (ι × ο) → γ → Prop
  | nil {g : γ} : Path next g [] g
  | cons {g g' g'' : γ} {i : ι} {o : ο} {l : List (ι × ο)} :
    next g i o g' → Path next g' l g'' → Path next g ((i, o) :: l) g''

/-- What every step of a specification keeps and gives in the states of an invariant, its
    paths keep, and give all along. -/
theorem Path.along {I : γ → Prop} {Q : ι → ο → Prop} (hp : Path next g l g')
    (keep : ∀ g i o g', (i, o) ∈ l → next g i o g' → I g → I g' ∧ Q i o) (hg : I g) :
    I g' ∧ ∀ a ∈ l, Q a.1 a.2 := by
  induction hp with
  | nil => exact ⟨hg, fun a ha => absurd ha List.not_mem_nil⟩
  | cons hnext _ ih =>
    obtain ⟨hI, hQ⟩ := keep _ _ _ _ List.mem_cons_self hnext hg
    obtain ⟨hI', hQs⟩ := ih (fun g i o g' hmem => keep g i o g' (List.mem_cons_of_mem _ hmem)) hI
    exact ⟨hI', List.forall_mem_cons.2 ⟨hQ, hQs⟩⟩

@[inherit_doc Path.along]
theorem Path.invariant {I : γ → Prop} (hp : Path next g l g')
    (keep : ∀ g i o g', (i, o) ∈ l → next g i o g' → I g → I g') (hg : I g) : I g' :=
  have keep' : ∀ g i o g', (i, o) ∈ l → next g i o g' → I g → I g' ∧ True :=
    fun g i o g' hmem hnext hI => ⟨keep g i o g' hmem hnext hI, trivial⟩
  (hp.along (Q := fun _ _ => True) keep' hg).1

/-- A machine whose steps, on certain inputs and from states that represent a state of the
    specification, are steps of the specification, runs along its paths. -/
theorem run_path {R : γ → σ → Prop} {D : ι → Prop}
    (sim : ∀ g s i, R g s → D i → ∃ o t g', step s i = .ok (o, t) ∧ next g i o g' ∧ R g' t)
    (hs : R g s) (hD : ∀ i ∈ is, D i) : ∃ h t g', run step s is = .ok (h, t) ∧
      Path next g (h.map fun τ => (τ.input, τ.output)) g' ∧ R g' t := by
  induction is generalizing g s with
  | nil => exact ⟨[], s, g, rfl, .nil, hs⟩
  | cons i is ih =>
    obtain ⟨o, s', g', hstep, hnext, hs'⟩ := sim g s i hs (hD i List.mem_cons_self)
    obtain ⟨h, t, g'', hr, hpath, ht⟩ := ih hs' fun j hj => hD j (List.mem_cons_of_mem _ hj)
    exact ⟨_, t, g'', run_cons_of_ok hstep hr, .cons hnext hpath, ht⟩

end Path

end Mealy
