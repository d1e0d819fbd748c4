import DataHandling.ReadoutType
import Mathlib.Data.List.Chain

/-! Elements that follow each other in time: each covers at least one tick and ends before the
next one begins, with or without a gap. -/

namespace DataHandling
open Ordered ReadoutType

variable {T : Type} [ReadoutType T]

def extent (x : T) : ℕ := (getNumFrames x).toNat * (expectedTickDifference T).toNat

/-- The element `x` does not begin before `y` ends. -/
def Follows (y x : T) : Prop := tsNat y + extent y ≤ tsNat x

instance (y x : T) : Decidable (Follows y x) := inferInstanceAs (Decidable (_ ≤ _))

instance : Trans (Follows (T := T)) Follows Follows where
  trans := by
    intro x y z hxy hyz
    unfold Follows at *
    omega

def Fits (x : T) : Prop := tsNat x + extent x < 2 ^ 64

theorem Fits.end_toNat {x : T} (h : Fits x) :
    (getTimestamp x + tickSpan x).toNat = tsNat x + extent x := by
  have hspan : (tickSpan x).toNat = extent x := by
    rw [tickSpan, UInt64.toNat_mul]
    exact Nat.mod_eq_of_lt (Nat.lt_of_le_of_lt (Nat.le_add_left _ _) h)
  rw [UInt64.toNat_add, hspan]
  exact Nat.mod_eq_of_lt h

structure Recordable (x : T) : Prop where
  extent_pos : 1 ≤ extent x
  fits : Fits x

instance (x : T) : Decidable (Fits x) := inferInstanceAs (Decidable (_ < _))

instance (x : T) : Decidable (Recordable x) :=
  decidable_of_iff (1 ≤ extent x ∧ Fits x) ⟨fun ⟨h1, h2⟩ => ⟨h1, h2⟩, fun ⟨h1, h2⟩ => ⟨h1, h2⟩⟩

structure Spaced (xs : List T) : Prop where
  follows : xs.IsChain Follows
  recordable : ∀ x ∈ xs, Recordable x

variable {xs : List T}

theorem Spaced.concat (h : Spaced xs) {x : T} (hx : ∀ y ∈ xs.getLast?, Follows y x)
    (hr : Recordable x) : Spaced (xs ++ [x]) where
  follows := by
    refine List.isChain_append.mpr ⟨h.follows, List.isChain_singleton x, fun y hy z hz => ?_⟩
    obtain rfl := Option.some.inj hz
    exact hx y hy
  recordable := List.forall_mem_append.mpr ⟨h.recordable, List.forall_mem_singleton.mpr hr⟩

theorem Spaced.pairwise (h : Spaced xs) : xs.Pairwise Follows :=
  List.isChain_iff_pairwise.mp h.follows

theorem Spaced.sorted (h : Spaced xs) : StrictlyIncreasing tsNat xs := by
  refine h.pairwise.imp_of_mem fun {y x} hy _ hyx => ?_
  have hpos := (h.recordable y hy).extent_pos
  unfold Follows at hyx
  omega

theorem Spaced.end_le_concat (h : Spaced xs) {x y : T} (hx : ∀ y ∈ xs.getLast?, Follows y x)
    (hy : y ∈ xs) (hr : Recordable x) : tsNat y + extent y ≤ tsNat x := by
  have hpair := List.pairwise_append.mp (h.concat hx hr).pairwise
  exact hpair.2.2 y hy x List.mem_cons_self

theorem Spaced.lowerBound_end (h : Spaced xs) {p : ℕ} (hp : p < xs.length) :
    Ordered.lowerBound tsNat xs (tsNat xs[p] + extent xs[p]) = p + 1 := by
  have hpos := (h.recordable _ (List.getElem_mem hp)).extent_pos
  refine lowerBound_eq hp (fun i hi hlen => ?_) fun hlen => ?_
  · have hle := h.sorted.key_le (Nat.lt_succ_iff.mp hi) hp
    omega
  · exact List.pairwise_iff_getElem.mp h.pairwise p (p + 1) hp hlen (Nat.lt_succ_self p)

end DataHandling
