import Mathlib.Data.List.Basic

/-! Runs of a partial transition function, with the invariant rules that every
system of this development is verified by. A step that is not enabled, or that
faults, has no successor. -/

namespace Execution

variable {State Action : Type*} (step : State → Action → Option State)

def run : State → List Action → Option State
  | s, [] => some s
  | s, a :: as => (step s a).bind fun s' => run s' as

/-- Each step of the run meets `cond` in the state it is taken in. -/
def StepsMeet (cond : State → Action → Prop) : State → List Action → Prop
  | _, [] => True
  | s, a :: as => cond s a ∧ ∀ s', step s a = some s' → StepsMeet cond s' as

def checkSteps (check : State → Action → Bool) : State → List Action → Bool
  | _, [] => true
  | s, a :: as =>
    check s a && match step s a with
      | some s' => checkSteps check s' as
      | none => true

variable {step}

theorem stepsMeet_of_checkSteps {check : State → Action → Bool} {cond : State → Action → Prop}
    (hcheck : ∀ s a, check s a = true → cond s a) {s : State} {as : List Action}
    (h : checkSteps step check s as = true) : StepsMeet step cond s as := by
  induction as generalizing s with
  | nil => trivial
  | cons a as ih =>
    rw [checkSteps, Bool.and_eq_true] at h
    refine ⟨hcheck s a h.1, fun s' hs' => ih ?_⟩
    rw [hs'] at h
    exact h.2

theorem StepsMeet.and {cond cond' : State → Action → Prop} {s : State} {as : List Action}
    (h : StepsMeet step cond s as) (h' : StepsMeet step cond' s as) :
    StepsMeet step (fun s a => cond s a ∧ cond' s a) s as := by
  induction as generalizing s with
  | nil => trivial
  | cons a as ih => exact ⟨⟨h.1, h'.1⟩, fun s' hs' => ih (h.2 s' hs') (h'.2 s' hs')⟩

theorem run_cons {s t : State} {a : Action} {as : List Action} :
    run step s (a :: as) = some t ↔ ∃ s', step s a = some s' ∧ run step s' as = some t := by
  simp only [run, Option.bind_eq_some_iff]

/-- A property kept by every step that meets the condition holds after every run whose
steps all meet it. -/
theorem run_invariant_of_stepsMeet {cond : State → Action → Prop} {I : State → Prop}
    (hstep : ∀ s a s', I s → cond s a → step s a = some s' → I s')
    {s t : State} {as : List Action} (hs : I s) (hc : StepsMeet step cond s as)
    (hrun : run step s as = some t) : I t := by
  induction as generalizing s with
  | nil =>
    cases hrun
    exact hs
  | cons a as ih =>
    obtain ⟨s', ha, hrest⟩ := run_cons.mp hrun
    exact ih (hstep s a s' hs hc.1 ha) (hc.2 s' ha) hrest

theorem run_invariant {I : State → Prop}
    (hstep : ∀ s a s', I s → step s a = some s' → I s')
    {s t : State} {as : List Action} (hs : I s) (hrun : run step s as = some t) : I t := by
  induction as generalizing s with
  | nil =>
    cases hrun
    exact hs
  | cons a as ih =>
    obtain ⟨s', ha, hrest⟩ := run_cons.mp hrun
    exact ih (hstep s a s' hs ha) hrest

/-- A run is no longer than its potential: every step takes one off, and what some of them
give back is counted with them. -/
theorem run_length_le (potential : State → ℕ) (gives : Action → Bool) {refund : ℕ}
    {I : State → Prop}
    (hI : ∀ s a s', I s → step s a = some s' → I s')
    (hstep : ∀ s a s', I s → step s a = some s' →
      potential s' + 1 ≤ potential s + if gives a then refund else 0)
    {s t : State} {as : List Action} (hs : I s) (hrun : run step s as = some t) :
    as.length + potential t ≤ potential s + refund * as.countP gives := by
  induction as generalizing s with
  | nil =>
    cases hrun
    exact Nat.le_of_eq (Nat.zero_add _)
  | cons a as ih =>
    obtain ⟨s', ha, hrest⟩ := run_cons.mp hrun
    have hrun := ih (hI s a s' hs ha) hrest
    have hfirst := hstep s a s' hs ha
    rw [List.length_cons]
    cases hgives : gives a with
    | true =>
      rw [hgives, if_pos rfl] at hfirst
      rw [List.countP_cons_of_pos hgives, Nat.mul_succ]
      omega
    | false =>
      rw [hgives, if_neg Bool.false_ne_true] at hfirst
      rw [List.countP_cons_of_neg (Bool.eq_false_iff.mp hgives)]
      omega

theorem stepsMeet_of_forall {cond : State → Action → Prop} (h : ∀ s a, cond s a) (s : State)
    (as : List Action) : StepsMeet step cond s as := by
  induction as generalizing s with
  | nil => trivial
  | cons a as ih => exact ⟨h s a, fun s' _ => ih s'⟩

/-- Along a run that keeps an invariant, a condition may be weakened by it. -/
theorem StepsMeet.mono_of_invariant {cond cond' : State → Action → Prop} {I : State → Prop}
    (hstep : ∀ s a s', I s → step s a = some s' → I s')
    (hcond : ∀ s a, I s → cond s a → cond' s a) {s : State} {as : List Action} (hs : I s)
    (h : StepsMeet step cond s as) : StepsMeet step cond' s as := by
  induction as generalizing s with
  | nil => trivial
  | cons a as ih => exact ⟨hcond s a hs h.1, fun s' ha => ih (hstep s a s' hs ha) (h.2 s' ha)⟩

/-- If each step of a run inside the domain keeps a property exactly when it meets the condition
and the property held before, the run keeps it exactly when all its steps meet the condition. -/
theorem run_iff_stepsMeet_within {dom cond : State → Action → Prop} {I J : State → Prop}
    (hstep : ∀ s a s', J s → dom s a → step s a = some s' → J s' ∧ (I s' ↔ I s ∧ cond s a))
    {s t : State} {as : List Action} (hs : J s) (hdom : StepsMeet step dom s as)
    (hrun : run step s as = some t) : I t ↔ I s ∧ StepsMeet step cond s as := by
  induction as generalizing s with
  | nil =>
    cases hrun
    exact (and_iff_left trivial).symm
  | cons a as ih =>
    obtain ⟨s', ha, hrest⟩ := run_cons.mp hrun
    obtain ⟨hJ, hI⟩ := hstep s a s' hs hdom.1 ha
    have hnext : StepsMeet step cond s (a :: as) ↔ cond s a ∧ StepsMeet step cond s' as := by
      simp [StepsMeet, ha]
    rw [ih hJ (hdom.2 s' ha) hrest, hI, hnext, and_assoc]

theorem run_iff_stepsMeet {cond : State → Action → Prop} {I J : State → Prop}
    (hstep : ∀ s a s', J s → step s a = some s' → J s' ∧ (I s' ↔ I s ∧ cond s a))
    {s t : State} {as : List Action} (hs : J s) (hrun : run step s as = some t) :
    I t ↔ I s ∧ StepsMeet step cond s as :=
  run_iff_stepsMeet_within (fun s a s' h _ => hstep s a s' h) hs
    (stepsMeet_of_forall (fun _ _ => trivial) s as) hrun

section Refinement
variable {Spec : Type*} {specStep : Spec → Action → Option Spec}

/-- If every step of one system is matched by the same step of another, their runs match:
both fail, or both end in related states. -/
theorem run_rel {R : State → Spec → Prop}
    (hstep : ∀ s t a, R s t → Option.Rel R (step s a) (specStep t a))
    {s : State} {t : Spec} (h : R s t) (as : List Action) :
    Option.Rel R (run step s as) (run specStep t as) := by
  induction as generalizing s t with
  | nil => exact .some h
  | cons a as ih =>
    have ha := hstep s t a h
    simp only [run]
    revert ha
    cases step s a <;> cases specStep t a <;> intro ha
    · exact .none
    · cases ha
    · cases ha
    · cases ha with
      | some hrel => exact ih hrel

theorem run_map {f : State → Spec}
    (hstep : ∀ s a s', step s a = some s' → specStep (f s) a = some (f s'))
    {s t : State} {as : List Action} (hrun : run step s as = some t) :
    run specStep (f s) as = some (f t) := by
  induction as generalizing s with
  | nil =>
    cases hrun
    rfl
  | cons a as ih =>
    obtain ⟨s', ha, hrest⟩ := run_cons.mp hrun
    exact run_cons.mpr ⟨f s', hstep s a s' ha, ih hrest⟩

end Refinement

end Execution
