import DataHandling.Foundation.MachineInt
import Mathlib.Algebra.Ring.Nat
import Mathlib.Data.List.Basic
import Mathlib.Tactic.Common

/-! `RateLimiter` with a fixed period, under the readings of its clock: they may jump, as after a
sleep that has taken too long. -/

namespace DataHandling
open MachineInt

/-- `m_max_overshoot`, `m_period`, `m_now` and `m_deadline`, in nanoseconds. -/
structure RateLimiter where
  maxOvershoot : ℕ
  period : ℕ
  now : ℕ
  deadline : ℕ

namespace RateLimiter

def init (l : RateLimiter) (reading : ℕ) : RateLimiter :=
  { l with now := reading, deadline := u64 (reading + l.period) }

/-- The readings behind the sleep, up to the first one that is not before the deadline, and those
that are left. -/
def awaitDeadline (deadline : ℕ) : List ℕ → Option (ℕ × List ℕ)
  | [] => none
  | reading :: readings =>
    if reading < deadline then awaitDeadline deadline readings else some (reading, readings)

def nextDeadline (l : RateLimiter) (reading : ℕ) : ℕ :=
  if reading > u64 (l.deadline + l.maxOvershoot) then reading + l.period
  else l.deadline + l.period

def limit (l : RateLimiter) : List ℕ → Option (RateLimiter × List ℕ)
  | [] => none
  | reading :: readings =>
    if reading > u64 (l.deadline + l.maxOvershoot) then
      some ({ l with now := reading, deadline := u64 (l.nextDeadline reading) }, readings)
    else
      (if reading < l.deadline then awaitDeadline l.deadline readings
        else some (reading, readings)).map fun last =>
          ({ l with now := last.1, deadline := u64 (l.nextDeadline reading) }, last.2)

def limits : ℕ → RateLimiter → List ℕ → Option (List ℕ)
  | 0, _, _ => some []
  | n + 1, l, readings =>
    (limit l readings).bind fun next => (limits n next.1 next.2).map (next.1.now :: ·)

def NoOverflow : ℕ → RateLimiter → List ℕ → Prop
  | 0, _, _ => True
  | n + 1, l, readings =>
    l.deadline + l.maxOvershoot < 2 ^ 64 ∧
      (∀ reading ∈ readings.head?, l.nextDeadline reading < 2 ^ 64) ∧
        ∀ next ∈ limit l readings, NoOverflow n next.1 next.2

instance decidableNoOverflow : ∀ n l readings, Decidable (NoOverflow n l readings)
  | 0, _, _ => isTrue trivial
  | n + 1, l, readings =>
    have := decidableNoOverflow n
    inferInstanceAs (Decidable (l.deadline + l.maxOvershoot < 2 ^ 64 ∧
      (∀ reading ∈ readings.head?, l.nextDeadline reading < 2 ^ 64) ∧
        ∀ next ∈ limit l readings, NoOverflow n next.1 next.2))

/-- Calls that end at the readings `ts` keep the rate, and catch up on a delay by no more than the
overshoot. The calls are counted from zero. -/
structure RateBound (period maxOvershoot t₀ : ℕ) (ts : List ℕ) : Prop where
  overall : ∀ j t : ℕ, ts[j]? = some t → t₀ + (j + 1) * period ≤ t
  burst : ∀ i j s t : ℕ, i < j → ts[i]? = some s → ts[j]? = some t →
    ((j : ℤ) - i - 1) * period - maxOvershoot ≤ (t : ℤ) - s

section Calls
variable {l l' : RateLimiter} {readings rest : List ℕ} {n reading : ℕ}

theorem awaitDeadline_spec {deadline : ℕ} (hsorted : readings.Pairwise (· ≤ ·))
    (h : awaitDeadline deadline readings = some (reading, rest)) :
    deadline ≤ reading ∧ (reading :: rest).Pairwise (· ≤ ·) ∧ reading ∈ readings := by
  induction readings with
  | nil => cases h
  | cons first readings ih =>
    rw [awaitDeadline] at h
    split_ifs at h with hlt
    · obtain ⟨hle, hrest, hmem⟩ := ih (List.Pairwise.of_cons hsorted) h
      exact ⟨hle, hrest, List.mem_cons_of_mem _ hmem⟩
    · cases h
      exact ⟨Nat.not_lt.mp hlt, hsorted, List.mem_cons_self⟩

/-- What a call does: it is late and the deadline starts anew, or it ends at a reading behind the
deadline, which is then one period later. -/
theorem limit_cases (hsorted : (reading :: readings).Pairwise (· ≤ ·))
    (h64 : l.deadline + l.maxOvershoot < 2 ^ 64) (hnext : l.nextDeadline reading < 2 ^ 64)
    (h : limit l (reading :: readings) = some (l', rest)) :
    l'.period = l.period ∧ l'.maxOvershoot = l.maxOvershoot ∧ reading ≤ l'.now ∧
      (l'.now :: rest).Pairwise (· ≤ ·) ∧
        ((l.deadline + l.maxOvershoot < reading ∧ l'.now = reading ∧
            l'.deadline = reading + l.period) ∨
          (reading ≤ l.deadline + l.maxOvershoot ∧ l.deadline ≤ l'.now ∧
            l'.deadline = l.deadline + l.period)) := by
  rw [limit, u64_of_lt h64, u64_of_lt hnext] at h
  rw [nextDeadline, u64_of_lt h64] at h
  split_ifs at h with hlate hearly
  · cases h
    exact ⟨rfl, rfl, Nat.le_refl _, hsorted, .inl ⟨hlate, rfl, rfl⟩⟩
  · obtain ⟨⟨last, rest'⟩, hlast, heq⟩ := Option.map_eq_some_iff.mp h
    cases heq
    obtain ⟨hle, hrest, hmem⟩ := awaitDeadline_spec (List.Pairwise.of_cons hsorted) hlast
    exact ⟨rfl, rfl, List.rel_of_pairwise_cons hsorted hmem, hrest,
      .inr ⟨Nat.not_lt.mp hlate, hle, rfl⟩⟩
  · cases h
    exact ⟨rfl, rfl, Nat.le_refl _, hsorted, .inr ⟨Nat.not_lt.mp hlate, Nat.not_lt.mp hearly, rfl⟩⟩

theorem limits_succ {ts : List ℕ} (h : limits (n + 1) l readings = some ts) :
    ∃ reading readings' l' rest ts', readings = reading :: readings' ∧
      limit l readings = some (l', rest) ∧ limits n l' rest = some ts' ∧ ts = l'.now :: ts' := by
  obtain ⟨⟨l', rest⟩, hcall, hrest⟩ := Option.bind_eq_some_iff.mp h
  obtain ⟨ts', hts, rfl⟩ := Option.map_eq_some_iff.mp hrest
  cases readings with
  | nil => cases hcall
  | cons reading readings => exact ⟨reading, readings, l', rest, ts', rfl, hcall, hts, rfl⟩

theorem deadline_add_le {ts : List ℕ} (hsorted : readings.Pairwise (· ≤ ·))
    (hfits : NoOverflow n l readings) (h : limits n l readings = some ts) {k t : ℕ}
    (ht : ts[k]? = some t) : l.deadline + k * l.period ≤ t := by
  induction n generalizing l readings ts k with
  | zero =>
    cases h
    cases ht
  | succ n ih =>
    obtain ⟨reading, readings, l', rest, ts', rfl, hcall, hts, rfl⟩ := limits_succ h
    obtain ⟨h64, hnext, hfits⟩ := hfits
    obtain ⟨hperiod, _, _, hrest, hcases⟩ := limit_cases hsorted h64 (hnext _ rfl) hcall
    cases k with
    | zero =>
      cases ht
      omega
    | succ k =>
      have hle : l'.deadline + k * l'.period ≤ t :=
        ih (List.Pairwise.of_cons hrest) (hfits _ hcall) hts ht
      rw [hperiod] at hle
      rw [Nat.succ_mul]
      omega

theorem now_add_le {ts : List ℕ} (hsorted : (l.now :: readings).Pairwise (· ≤ ·))
    (hfits : NoOverflow n l readings) (h : limits n l readings = some ts) {k t : ℕ}
    (ht : ts[k]? = some t) : l.now + k * l.period ≤ t + l.maxOvershoot := by
  have hdeadline := deadline_add_le (List.Pairwise.of_cons hsorted) hfits h ht
  rcases Nat.lt_or_ge (l.deadline + l.maxOvershoot) l.now with hlate | hle
  · cases n with
    | zero =>
      cases h
      cases ht
    | succ n =>
      obtain ⟨reading, readings, l', rest, ts', rfl, hcall, hts, rfl⟩ := limits_succ h
      obtain ⟨h64, hnext, hfits⟩ := hfits
      obtain ⟨hperiod, _, hnow, hrest, hcases⟩ :=
        limit_cases (List.Pairwise.of_cons hsorted) h64 (hnext _ rfl) hcall
      have hreading : l.now ≤ reading := List.rel_of_pairwise_cons hsorted List.mem_cons_self
      cases k with
      | zero =>
        cases ht
        omega
      | succ k =>
        have hafter : l'.deadline + k * l'.period ≤ t :=
          deadline_add_le (List.Pairwise.of_cons hrest) (hfits _ hcall) hts ht
        rw [hperiod] at hafter
        rw [Nat.succ_mul]
        omega
  · omega

theorem burst_le {ts : List ℕ} (hsorted : readings.Pairwise (· ≤ ·))
    (hfits : NoOverflow n l readings) (h : limits n l readings = some ts) {i k s t : ℕ}
    (hs : ts[i]? = some s) (ht : ts[i + k + 1]? = some t) :
    s + k * l.period ≤ t + l.maxOvershoot := by
  induction n generalizing l readings ts i with
  | zero =>
    cases h
    cases hs
  | succ n ih =>
    obtain ⟨reading, readings, l', rest, ts', rfl, hcall, hts, rfl⟩ := limits_succ h
    obtain ⟨h64, hnext, hfits⟩ := hfits
    obtain ⟨hperiod, hovershoot, _, hrest, _⟩ := limit_cases hsorted h64 (hnext _ rfl) hcall
    rw [← hperiod, ← hovershoot]
    cases i with
    | zero =>
      cases hs
      rw [Nat.zero_add, List.getElem?_cons_succ] at ht
      exact now_add_le hrest (hfits _ hcall) hts ht
    | succ i =>
      rw [Nat.add_right_comm i 1 k, List.getElem?_cons_succ] at ht
      exact ih (List.Pairwise.of_cons hrest) (hfits _ hcall) hts hs ht

end Calls

/-- The configured rate is never exceeded overall, and bursts are limited by the overshoot. -/
theorem limits_rateBound (l : RateLimiter) (t₀ n : ℕ) (readings ts : List ℕ)
    (hsorted : (t₀ :: readings).Pairwise (· ≤ ·)) (hinit : t₀ + l.period < 2 ^ 64)
    (hfits : NoOverflow n (l.init t₀) readings) (h : limits n (l.init t₀) readings = some ts) :
    RateBound l.period l.maxOvershoot t₀ ts where
  overall j t ht := by
    have hle : (l.init t₀).deadline + j * l.period ≤ t :=
      deadline_add_le (List.Pairwise.of_cons hsorted) hfits h ht
    have hdeadline : (l.init t₀).deadline = t₀ + l.period := u64_of_lt hinit
    rw [Nat.succ_mul]
    omega
  burst i j s t hij hs ht := by
    obtain ⟨k, rfl⟩ : ∃ k, j = i + k + 1 := ⟨j - i - 1, by omega⟩
    have hle := burst_le (List.Pairwise.of_cons hsorted) hfits h hs ht
    have hcast : (s : ℤ) + k * l.period ≤ t + l.maxOvershoot := by exact_mod_cast hle
    have hk : ((i + k + 1 : ℕ) : ℤ) - i - 1 = k := by omega
    rw [hk]
    omega

/-- A period of 10 and an overshoot of 5: a call that oversleeps until 40, and three more. -/
theorem limits_rateBound_overslept :
    RateBound 10 5 0 [40, 41, 51, 61] :=
  limits_rateBound ⟨5, 10, 0, 0⟩ 0 4 [3, 40, 41, 42, 51, 51, 61] [40, 41, 51, 61] (by decide)
    (by decide) (by decide) (by decide)

end RateLimiter
end DataHandling
