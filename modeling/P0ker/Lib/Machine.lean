import Mathlib.Logic.Relation
import Mathlib.Data.Set.Basic
import Mathlib.Data.List.Induction

/-!
# Guarded machines

A *machine* is a set of initial states and a guarded, executable step function:
`step s a` is `some s'` when action `a` is enabled in `s`, and `none` otherwise.

Two questions are asked of a machine: what holds in every state it reaches, and what holds in
every state it reaches *by steps that all meet a condition `C`*. The second one contains the first
(`C` always true), so reachability is defined once, relative to `C`, and the induction is packaged
once, in `Reach.invariant`.
-/

/-- A machine: initial states and a guarded step function. -/
structure Machine (σ α : Type) where
  init : σ → Prop
  step : σ → α → Option σ

namespace Machine

variable {σ α τ : Type} {M : Machine σ α} {C D : σ → α → Prop} {s s' : σ}

/-- One step by an action that meets `C`. -/
def Next (M : Machine σ α) (C : σ → α → Prop) (s s' : σ) : Prop :=
  ∃ a, C s a ∧ M.step s a = some s'

/-- Any number of steps by actions that all meet `C`. -/
def Steps (M : Machine σ α) (C : σ → α → Prop) : σ → σ → Prop :=
  Relation.ReflTransGen (M.Next C)

/-- `s` is reached from an initial state by steps that all meet `C`. -/
def Reach (M : Machine σ α) (C : σ → α → Prop) (s : σ) : Prop :=
  ∃ s₀, M.init s₀ ∧ M.Steps C s₀ s

/-- `s` is reached from an initial state, with no condition on the steps. -/
abbrev Reachable (M : Machine σ α) : σ → Prop :=
  M.Reach fun _ _ => True

theorem Reach.init (h : M.init s) : M.Reach C s :=
  ⟨s, h, Relation.ReflTransGen.refl⟩

theorem Reach.steps (h : M.Reach C s) (hs : M.Steps C s s') : M.Reach C s' := by
  obtain ⟨s₀, h₀, hr⟩ := h
  exact ⟨s₀, h₀, hr.trans hs⟩

theorem Steps.single {a : α} (hc : C s a) (hs : M.step s a = some s') : M.Steps C s s' :=
  Relation.ReflTransGen.single ⟨a, hc, hs⟩

theorem Reach.step {a : α} (h : M.Reach C s) (hc : C s a) (hs : M.step s a = some s') :
    M.Reach C s' :=
  h.steps (Steps.single hc hs)

/-- A stronger condition allows fewer runs. -/
theorem Steps.mono (h : M.Steps C s s') (hCD : ∀ s a, C s a → D s a) : M.Steps D s s' := by
  refine Relation.ReflTransGen.mono ?_ _ _ h
  rintro s s' ⟨a, hc, hs⟩
  exact ⟨a, hCD s a hc, hs⟩

theorem Reach.mono (h : M.Reach C s) (hCD : ∀ s a, C s a → D s a) : M.Reach D s := by
  obtain ⟨s₀, h₀, hr⟩ := h
  exact ⟨s₀, h₀, hr.mono hCD⟩

/-! ## Replaying a list of actions -/

section Follow

variable [∀ s a, Decidable (C s a)]

/-- Replay a list of actions; `none` as soon as one of them is not enabled or does not meet `C`. -/
def follow (M : Machine σ α) (C : σ → α → Prop) [∀ s a, Decidable (C s a)] (s : σ) :
    List α → Option σ
  | [] => some s
  | a :: as => if C s a then (M.step s a).bind (M.follow C · as) else none

/-- Replay a list of actions with no condition on them. -/
abbrev run (M : Machine σ α) (s : σ) (as : List α) : Option σ :=
  M.follow (fun _ _ => True) s as

theorem Steps.of_follow {as : List α} (h : M.follow C s as = some s') : M.Steps C s s' := by
  induction as generalizing s with
  | nil =>
      obtain rfl := Option.some.inj h
      exact Relation.ReflTransGen.refl
  | cons a as ih =>
      rw [follow] at h
      split at h
      · next hc =>
          obtain ⟨t, ht, hr⟩ := Option.bind_eq_some_iff.mp h
          exact Relation.ReflTransGen.head ⟨a, hc, ht⟩ (ih hr)
      · cases h

/-- A replay from an initial state ends in a reached state. -/
theorem Reach.of_follow {as : List α} (hs : M.init s) (h : M.follow C s as = some s') :
    M.Reach C s' :=
  (Reach.init hs).steps (Steps.of_follow h)

end Follow

/-! ## Invariants -/

/-- What one step preserves, any number of steps preserves. -/
theorem Steps.preserves {P : σ → Prop} (h : M.Steps C s s') (hP : P s)
    (hstep : ∀ s a s', P s → C s a → M.step s a = some s' → P s') : P s' := by
  induction h with
  | refl => exact hP
  | tail _ hn ih =>
      obtain ⟨a, hc, hs⟩ := hn
      exact hstep _ a _ ih hc hs

/-- **The invariant rule.** A property of the initial states that every step from a reached state
keeps holds in every reached state. The step may use invariants proved before, through the
reachability of the state it leaves. -/
theorem Reach.invariant {P : σ → Prop} (h : M.Reach C s) (hinit : ∀ s, M.init s → P s)
    (hstep : ∀ s a s', M.Reach C s → P s → C s a → M.step s a = some s' → P s') : P s := by
  obtain ⟨s₀, h₀, hr⟩ := h
  have key : M.Reach C s ∧ P s := by
    induction hr with
    | refl => exact ⟨Reach.init h₀, hinit _ h₀⟩
    | tail _ hn ih =>
        obtain ⟨a, hc, hs⟩ := hn
        exact ⟨ih.1.step hc hs, hstep _ a _ ih.1 ih.2 hc hs⟩
  exact key.2

/-- **The exactness rule.** Let every step keep `P` exactly when it meets `C`, and let no step
restore `P`. Then `P` holds of a reachable state if and only if it is reached by steps that meet
`C`. -/
theorem Reach.exact {P : σ → Prop} (h : M.Reachable s) (hinit : ∀ s, M.init s → P s)
    (hback : ∀ s a s', M.step s a = some s' → P s' → P s)
    (hstep : ∀ s a s', M.Reachable s → P s → M.step s a = some s' → (P s' ↔ C s a)) :
    P s ↔ M.Reach C s := by
  constructor
  · refine h.invariant (P := fun s => P s → M.Reach C s) (fun s hs _ => Reach.init hs) ?_
    intro s a s' hr ih _ hs hP
    have hbefore := hback s a s' hs hP
    exact (ih hbefore).step ((hstep s a s' hr hbefore hs).mp hP) hs
  · intro hC
    refine hC.invariant hinit ?_
    intro s a s' hr hP hc hs
    exact (hstep s a s' (hr.mono fun _ _ _ => trivial) hP hs).mpr hc

/-! ## Runs that end

A measure that every step of a run lowers bounds the run; a run that can always go on until it is
done is then done at last. -/

section Measure

variable {μ : σ → Nat} {s₀ : σ}

/-- **The measure rule.** There is no infinite run from `s₀`. -/
theorem no_infinite_run (hμ : ∀ s s', M.Steps C s₀ s → M.Next C s s' → μ s' < μ s) :
    ¬ ∃ f : Nat → σ, f 0 = s₀ ∧ ∀ k, M.Next C (f k) (f (k + 1)) := by
  rintro ⟨f, rfl, hnext⟩
  have hsteps : ∀ k, M.Steps C (f 0) (f k) := by
    intro k
    induction k with
    | zero => exact Relation.ReflTransGen.refl
    | succ k ih => exact ih.tail (hnext k)
  have hlow : ∀ k, μ (f k) + k ≤ μ (f 0) := by
    intro k
    induction k with
    | zero => exact le_rfl
    | succ k ih =>
        have hless := hμ _ _ (hsteps k) (hnext k)
        omega
  have hend := hlow (μ (f 0) + 1)
  omega

/-- **The completion rule.** Every run from `s₀` can be continued until it is done. -/
theorem Steps.completed {Done : σ → Prop}
    (hμ : ∀ s s', M.Steps C s₀ s → M.Next C s s' → μ s' < μ s)
    (hlive : ∀ s, M.Steps C s₀ s → Done s ∨ ∃ s', M.Next C s s') (h : M.Steps C s₀ s) :
    ∃ s', M.Steps C s s' ∧ Done s' := by
  induction hn : μ s using Nat.strong_induction_on generalizing s with
  | _ n ih =>
      rcases hlive s h with hdone | ⟨t, ht⟩
      · exact ⟨s, Relation.ReflTransGen.refl, hdone⟩
      · obtain ⟨s', hs', hdone⟩ := ih (μ t) (hn ▸ hμ s t h ht) (h.tail ht) rfl
        exact ⟨s', Relation.ReflTransGen.head ht hs', hdone⟩

end Measure

/-! ## History

A replay also says what was done before: a property may speak of the actions so far. -/

section History

variable [∀ s a, Decidable (C s a)] {Q : List α → σ → Prop}

/-- **The history rule.** What relates the start to no actions, and is kept when one more action is
taken, relates the end of every replay to the actions replayed. -/
theorem Reach.history {s₀ : σ} {as : List α} (h₀ : M.init s₀) (h : M.follow C s₀ as = some s)
    (hinit : Q [] s₀) (hstep : ∀ as s a s', M.Reach C s → Q as s → C s a → M.step s a = some s' →
      Q (as ++ [a]) s') : Q as s := by
  have key : ∀ as past s₁, M.Reach C s₁ → Q past s₁ → M.follow C s₁ as = some s →
      Q (past ++ as) s := by
    intro as
    induction as with
    | nil =>
        intro past s₁ _ hq h
        obtain rfl := Option.some.inj h
        rwa [List.append_nil]
    | cons a as ih =>
        intro past s₁ hr hq h
        rw [follow] at h
        split at h
        · next hc =>
            obtain ⟨t, ht, h⟩ := Option.bind_eq_some_iff.mp h
            have hlater := ih (past ++ [a]) t (hr.step hc ht) (hstep past s₁ a t hr hq hc ht) h
            rwa [List.append_assoc, List.singleton_append] at hlater
        · cases h
  exact key as [] s₀ (Reach.init h₀) hinit h

/-- The last action of a replay. -/
theorem follow_concat {as : List α} {a : α} : M.follow C s (as ++ [a]) = some s' ↔
    ∃ t, M.follow C s as = some t ∧ C t a ∧ M.step t a = some s' := by
  induction as generalizing s with
  | nil =>
      by_cases hc : C s a
      · simp [follow, hc]
      · simp [follow, hc]
  | cons b as ih =>
      rw [List.cons_append, follow, follow]
      split
      · simp only [Option.bind_eq_some_iff, ih]
        constructor
        · rintro ⟨u, hu, t, ht, hlast⟩
          exact ⟨t, ⟨u, hu, ht⟩, hlast⟩
        · rintro ⟨t, ⟨u, hu, ht⟩, hlast⟩
          exact ⟨u, hu, t, ht, hlast⟩
      · simp

/-- A replay whose actions meet a condition is a replay. -/
theorem run_of_follow {as : List α} (h : M.follow C s as = some s') : M.run s as = some s' := by
  induction as generalizing s with
  | nil => exact h
  | cons a as ih =>
      rw [follow] at h
      rw [run, follow, if_pos trivial]
      split at h
      · obtain ⟨t, ht, h⟩ := Option.bind_eq_some_iff.mp h
        exact Option.bind_eq_some_iff.mpr ⟨t, ht, ih h⟩
      · cases h

/-- **The exactness rule for a history.** Let every action keep `Q` exactly when it meets `C`. Then
`Q` holds in every state a replay goes through if and only if all its actions meet `C`. -/
theorem history_exact {s₀ : σ} {as : List α} (h : M.run s₀ as = some s) (hinit : Q [] s₀)
    (hstep : ∀ as s a s', M.run s₀ as = some s → Q as s → M.step s a = some s' →
      (Q (as ++ [a]) s' ↔ C s a)) :
    (∀ as₁ s₁, as₁ <+: as → M.run s₀ as₁ = some s₁ → Q as₁ s₁) ↔
      M.follow C s₀ as = some s := by
  induction as using List.reverseRecOn generalizing s with
  | nil =>
      obtain rfl := Option.some.inj h
      refine iff_of_true ?_ rfl
      intro as₁ s₁ hpre hrun
      obtain rfl := List.prefix_nil.mp hpre
      obtain rfl := Option.some.inj hrun
      exact hinit
  | append_singleton as a ih =>
      obtain ⟨t, ht, -, hs⟩ := follow_concat.mp h
      rw [follow_concat]
      constructor
      · intro hall
        have hbefore : ∀ as₁ s₁, as₁ <+: as → M.run s₀ as₁ = some s₁ → Q as₁ s₁ :=
          fun as₁ s₁ hpre => hall as₁ s₁ (hpre.trans (List.prefix_append _ _))
        have hlast := hall (as ++ [a]) s (List.prefix_refl _) h
        refine ⟨t, (ih ht).mp hbefore, ?_, hs⟩
        exact (hstep as t a s ht (hbefore as t (List.prefix_refl _) ht) hs).mp hlast
      · rintro ⟨t', ht', hC, -⟩ as₁ s₁ hpre hrun
        obtain rfl := Option.some.inj ((run_of_follow ht').symm.trans ht)
        have hbefore := (ih ht).mpr ht'
        rcases List.prefix_concat_iff.mp hpre with rfl | hpre
        · obtain rfl := Option.some.inj (hrun.symm.trans h)
          have hq := hbefore as t' (List.prefix_refl _) ht
          exact (hstep as t' a s₁ ht hq hs).mpr hC
        · exact hbefore as₁ s₁ hpre hrun

end History

/-! ## Simulation

An abstraction function under which every step is a step of an abstract transition relation, or
leaves the abstract state alone. -/

/-- Every reached state is abstracted by a state the abstract relation reaches from an abstraction
of an initial state. -/
theorem Reach.simulates {abs : σ → τ} {R : τ → τ → Prop} (h : M.Reach C s)
    (hstep : ∀ s a s', M.Reach C s → C s a → M.step s a = some s' →
      Relation.ReflTransGen R (abs s) (abs s')) :
    ∃ s₀, M.init s₀ ∧ Relation.ReflTransGen R (abs s₀) (abs s) := by
  refine h.invariant (P := fun s => ∃ s₀, M.init s₀ ∧ Relation.ReflTransGen R (abs s₀) (abs s))
    (fun s₀ h₀ => ⟨s₀, h₀, Relation.ReflTransGen.refl⟩) ?_
  rintro s a s' hr ⟨s₀, h₀, hR⟩ hc hs
  exact ⟨s₀, h₀, hR.trans (hstep s a s' hr hc hs)⟩

end Machine
