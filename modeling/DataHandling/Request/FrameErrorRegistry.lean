import Mathlib.Data.List.Induction
import Mathlib.Data.Option.Basic

/-! `FrameErrorRegistry`: one error interval under each name, the one added last, kept until data
past its end has become the oldest in the buffer. -/

namespace DataHandling

structure ErrorInterval where
  startTs : UInt64
  endTs : UInt64
  deriving DecidableEq

/-- `m_errors`, a map from error names to their intervals. -/
structure FrameErrorRegistry where
  errors : String → Option ErrorInterval

namespace FrameErrorRegistry

def empty : FrameErrorRegistry := ⟨fun _ => none⟩

def addError (r : FrameErrorRegistry) (errorName : String) (error : ErrorInterval) :
    FrameErrorRegistry :=
  ⟨fun name => if name = errorName then some error else r.errors name⟩

def removeErrorsUntil (r : FrameErrorRegistry) (ts : UInt64) : FrameErrorRegistry :=
  ⟨fun name => (r.errors name).filter fun error => !decide (ts > error.endTs)⟩

def hasError (r : FrameErrorRegistry) (errorName : String) : Bool := (r.errors errorName).isSome

@[simp] theorem errors_addError_self (r : FrameErrorRegistry) (name : String)
    (error : ErrorInterval) : (r.addError name error).errors name = some error := if_pos rfl

theorem hasError_eq_false_iff (r : FrameErrorRegistry) (name : String) :
    r.hasError name = false ↔ r.errors name = none :=
  Option.isSome_eq_false_iff.trans Option.isNone_iff_eq_none

end FrameErrorRegistry

inductive RegistryCall where
  | addError (errorName : String) (error : ErrorInterval)
  | removeErrorsUntil (ts : UInt64)
  deriving DecidableEq

namespace FrameErrorRegistry

def call (r : FrameErrorRegistry) : RegistryCall → FrameErrorRegistry
  | .addError errorName error => r.addError errorName error
  | .removeErrorsUntil ts => r.removeErrorsUntil ts

def afterCalls (calls : List RegistryCall) : FrameErrorRegistry := calls.foldl call empty

/-- The interval was added under the name, and `later` are the calls after that. -/
def Added (calls : List RegistryCall) (name : String) (error : ErrorInterval)
    (later : List RegistryCall) : Prop :=
  ∃ earlier, calls = earlier ++ .addError name error :: later

def Lasts (error : ErrorInterval) (later : List RegistryCall) : Prop :=
  ∀ ts, .removeErrorsUntil ts ∈ later → ts ≤ error.endTs

/-- An error is there while any interval added under its name lasts, and gone when none does. -/
structure KeepsAny (calls : List RegistryCall) (name : String) : Prop where
  kept : ∀ error later, Added calls name error later → Lasts error later →
    (afterCalls calls).hasError name = true
  dropped : (∀ error later, Added calls name error later → ¬ Lasts error later) →
    (afterCalls calls).hasError name = false

structure KeepsLast (calls : List RegistryCall) (name : String) : Prop where
  kept : ∀ error later, Added calls name error later →
    (∀ error', .addError name error' ∉ later) → Lasts error later →
      (afterCalls calls).hasError name = true
  dropped : (∀ error later, Added calls name error later → ¬ Lasts error later) →
    (afterCalls calls).hasError name = false

section Calls
variable {r : FrameErrorRegistry} {calls later : List RegistryCall} {c : RegistryCall}
  {name : String} {error : ErrorInterval}

theorem removeErrorsUntil_eq_some_iff {ts : UInt64} :
    (r.removeErrorsUntil ts).errors name = some error ↔
      r.errors name = some error ∧ ts ≤ error.endTs := by
  simp only [removeErrorsUntil, Option.filter_eq_some_iff, Bool.not_eq_true', gt_iff_lt,
    decide_eq_false_iff_not, UInt64.not_lt]

theorem call_keeps (hcall : r.errors name = some error) (hadd : ∀ error', c ≠ .addError name error')
    (hlasts : ∀ ts, c = .removeErrorsUntil ts → ts ≤ error.endTs) :
    (r.call c).errors name = some error := by
  cases c with
  | addError other interval =>
    have hne : name ≠ other := fun heq => hadd interval (heq ▸ rfl)
    exact (if_neg hne).trans hcall
  | removeErrorsUntil ts => exact removeErrorsUntil_eq_some_iff.mpr ⟨hcall, hlasts ts rfl⟩

theorem calls_keep (hcall : r.errors name = some error)
    (hadd : ∀ error', .addError name error' ∉ later) (hlasts : Lasts error later) :
    (later.foldl call r).errors name = some error := by
  induction later generalizing r with
  | nil => exact hcall
  | cons c later ih =>
    refine ih (call_keeps hcall (fun error' hc => hadd error' (hc ▸ List.mem_cons_self))
      fun ts hc => hlasts ts (hc ▸ List.mem_cons_self)) ?_ ?_
    · exact fun error' hc => hadd error' (List.mem_cons_of_mem _ hc)
    · exact fun ts hc => hlasts ts (List.mem_cons_of_mem _ hc)

theorem exists_added (h : (afterCalls calls).errors name = some error) :
    ∃ later, Added calls name error later ∧ Lasts error later := by
  induction calls using List.reverseRecOn with
  | nil => cases h
  | append_singleton calls c ih =>
    rw [afterCalls, List.foldl_append] at h
    change ((afterCalls calls).call c).errors name = some error at h
    have hextend : ∀ later, Added calls name error later →
        Added (calls ++ [c]) name error (later ++ [c]) := by
      rintro later ⟨earlier, rfl⟩
      exact ⟨earlier, List.append_assoc _ _ _⟩
    cases c with
    | addError other interval =>
      by_cases hname : name = other
      · subst hname
        obtain rfl := Option.some.inj ((errors_addError_self _ _ _).symm.trans h)
        exact ⟨[], ⟨calls, rfl⟩, nofun⟩
      · obtain ⟨later, hadded, hlasts⟩ := ih ((if_neg hname).symm.trans h)
        refine ⟨_, hextend later hadded, fun ts hts => hlasts ts ?_⟩
        simpa using hts
    | removeErrorsUntil ts =>
      obtain ⟨hbefore, hle⟩ := removeErrorsUntil_eq_some_iff.mp h
      obtain ⟨later, hadded, hlasts⟩ := ih hbefore
      refine ⟨_, hextend later hadded, fun ts' hts => ?_⟩
      rcases List.mem_append.mp hts with hold | hnew
      · exact hlasts ts' hold
      · cases List.mem_singleton.mp hnew
        exact hle

/-- For any calls, with timestamps in any order: an error is there while the interval added last
under its name lasts, and gone when no interval added under its name does. -/
theorem keepsLast (calls : List RegistryCall) (name : String) : KeepsLast calls name where
  kept error later hadded hlast hlasts := by
    obtain ⟨earlier, rfl⟩ := hadded
    have hself : ((afterCalls earlier).call (.addError name error)).errors name = some error :=
      errors_addError_self _ _ _
    have hkept := calls_keep hself hlast hlasts
    rw [afterCalls, List.foldl_append, List.foldl_cons, hasError]
    exact Option.isSome_iff_exists.mpr ⟨error, hkept⟩
  dropped hended := by
    rw [hasError_eq_false_iff, Option.eq_none_iff_forall_ne_some]
    intro error herror
    obtain ⟨later, hadded, hlasts⟩ := exists_added herror
    exact hended error later hadded hlasts

/-- An interval that ends at 50 replaces one that ends at 100, and is removed at 60. -/
theorem not_keepsAny_of_replaced :
    ¬ KeepsAny [.addError "MISSING_FRAMES" ⟨0, 100⟩, .addError "MISSING_FRAMES" ⟨0, 50⟩,
      .removeErrorsUntil 60] "MISSING_FRAMES" := by
  intro h
  have hkept := h.kept ⟨0, 100⟩ _ ⟨[], rfl⟩ (by simp [Lasts])
  revert hkept
  decide

end Calls
end FrameErrorRegistry
end DataHandling
