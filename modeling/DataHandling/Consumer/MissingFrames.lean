import DataHandling.Chunk
import DataHandling.Consumer.RingContent

/-! The fixed-rate search without a search. It is chosen when no error `MISSING_FRAMES` is
registered, and it is right when the ring has no gap: every gap in the ring must be covered by a
registered error that lasts until the element before the gap has been popped. -/

namespace DataHandling.ConsumerSystem
open ReadoutType IterableQueueModel Ordered

variable {T : Type} [ReadoutType T]

def registerMissing (previous : Option UInt64) (registry : FrameErrorRegistry) (payload : T) :
    FrameErrorRegistry :=
  match previous with
  | none => registry
  | some ts =>
    if getTimestamp payload ≠ ts + tickSpan payload then
      registry.addError "MISSING_FRAMES" ⟨ts + tickSpan payload, getTimestamp payload⟩
    else registry

def reportMissingFrames (previous : Option UInt64) (registry : FrameErrorRegistry) (payload : T) :
    Option UInt64 × FrameErrorRegistry × T :=
  (some (getTimestamp payload), registerMissing previous registry payload, payload)

def Increasing (s : ConsumerSystem (FixedRateQueueModel T) T (Option UInt64)) :
    ConsumerAction T → Prop
  | .preprocess payload _ _ => ∀ ts ∈ s.processor, ts.toNat < tsNat payload
  | _ => True

/-- An accepted payload follows the newest element without a gap, unless an error is registered
that lasts until that element is popped; its end is a timestamp. -/
def GapCovered (span : ℕ) (s : ConsumerSystem (FixedRateQueueModel T) T (Option UInt64)) :
    ConsumerAction T → Prop
  | .write => ∀ payload ∈ s.phase.payload, s.latencyBuffer.isFull = false →
      tsNat payload + span < 2 ^ 64 ∧
        ∀ newest ∈ LatencyBuffer.back s.latencyBuffer, tsNat payload = tsNat newest + span ∨
          ∃ error ∈ s.errorRegistry.errors "MISSING_FRAMES", tsNat newest ≤ error.endTs.toNat
  | _ => True

instance (s : ConsumerSystem (FixedRateQueueModel T) T (Option UInt64)) :
    (a : ConsumerAction T) → Decidable (Increasing s a)
  | .preprocess _ _ _ =>
    -- by name, since the search may decide it over all of `UInt64`
    Option.decidableForallMem s.processor
  | .write | .postprocess | .deferredPass _ | .startCleanup | .popOne _ | .removeErrors =>
    isTrue trivial

instance (span : ℕ) (s : ConsumerSystem (FixedRateQueueModel T) T (Option UInt64)) :
    (a : ConsumerAction T) → Decidable (GapCovered span s a)
  | .write =>
    inferInstanceAs (Decidable (∀ payload ∈ s.phase.payload, s.latencyBuffer.isFull = false →
      tsNat payload + span < 2 ^ 64 ∧
        ∀ newest ∈ LatencyBuffer.back s.latencyBuffer, tsNat payload = tsNat newest + span ∨
          ∃ error ∈ s.errorRegistry.errors "MISSING_FRAMES", tsNat newest ≤ error.endTs.toNat))
  | .preprocess _ _ _ | .postprocess | .deferredPass _ | .startCleanup | .popOne _
  | .removeErrors => isTrue trivial

/-- The computed search and the binary search denote the same element, the first that is not
less, or none. -/
def SameLookup (q : FixedRateQueueModel T) (xs : List T) (element : T) : Prop :=
  ∃ it jt, q.lowerBound element false = some it ∧
    q.toBinarySearchQueueModel.lowerBound element false = some jt ∧ q.good it = q.good jt ∧
      (q.good it = true → it = jt ∧ q.records it = xs.find? fun x => !lt x element)

/-- Without a registered error the ring has no gap, and the computed search is right. -/
def FastPathValid (span : ℕ) (s : ConsumerSystem (FixedRateQueueModel T) T (Option UInt64)) :
    Prop :=
  s.errorRegistry.hasError "MISSING_FRAMES" = false →
    ∃ xs, Represents s.latencyBuffer.toIterableQueueModel xs ∧ GapFree span xs ∧
      (xs ≠ [] → ∀ element, SameLookup s.latencyBuffer xs element)

def Covered (span : ℕ) (registry : FrameErrorRegistry) (xs : List T) : Prop :=
  xs.IsChain fun x y => tsNat y = tsNat x + span ∨
    ∃ error ∈ registry.errors "MISSING_FRAMES", tsNat x ≤ error.endTs.toNat

section Covered
variable {span : ℕ} {registry : FrameErrorRegistry} {xs : List T}

theorem Covered.gapFree (h : Covered span registry xs)
    (hnone : registry.hasError "MISSING_FRAMES" = false) : GapFree span xs := by
  rw [FrameErrorRegistry.hasError_eq_false_iff] at hnone
  refine List.IsChain.imp (fun x y hxy => ?_) h
  rcases hxy with hgap | ⟨error, hmem, _⟩
  · exact hgap
  · rw [hnone] at hmem
    cases hmem

theorem covered_addError (error : ErrorInterval) (hend : ∀ x ∈ xs, tsNat x ≤ error.endTs.toNat) :
    Covered span (registry.addError "MISSING_FRAMES" error) xs := by
  rw [Covered, List.isChain_iff_getElem]
  intro i hi
  exact .inr ⟨error, FrameErrorRegistry.errors_addError_self _ _ _, hend _ (List.getElem_mem _)⟩

theorem Covered.registerMissing (h : Covered span registry xs) (previous : Option UInt64)
    {payload : T} (hend : ∀ x ∈ xs, tsNat x ≤ tsNat payload) :
    Covered span (registerMissing previous registry payload) xs := by
  rw [ConsumerSystem.registerMissing.eq_def]
  split
  · exact h
  · split_ifs
    · exact covered_addError _ hend
    · exact h

theorem Covered.removeErrorsUntil (h : Covered span registry xs)
    (hsorted : StrictlyIncreasing tsNat xs) {front : T} (hfront : xs.head? = some front) :
    Covered span (registry.removeErrorsUntil (getTimestamp front)) xs := by
  rw [Covered, List.isChain_iff_getElem] at h ⊢
  intro i hi
  rcases h i hi with hgap | ⟨error, hmem, hle⟩
  · exact .inl hgap
  · have hpos : 0 < xs.length := by omega
    rw [List.head?_eq_getElem?, List.getElem?_eq_getElem hpos, Option.some.injEq] at hfront
    have hfirst := hsorted.key_le (Nat.zero_le i) (by omega)
    rw [hfront] at hfirst
    refine .inr ⟨error, ?_, hle⟩
    rw [FrameErrorRegistry.removeErrorsUntil, Option.mem_def, Option.filter_eq_some_iff]
    refine ⟨hmem, ?_⟩
    rw [Bool.not_eq_true', decide_eq_false_iff_not, gt_iff_lt, UInt64.lt_iff_toNat_lt, Nat.not_lt]
    exact hfirst.trans hle

end Covered

section Lookup
variable {n tick : ℕ} {q : FixedRateQueueModel T} {xs : List T}

/-- On a ring without a gap both searches agree, as long as the end of its newest element is a
timestamp. -/
theorem sameLookup_of_gapFree (hlayout : UniformLayout T n tick) (horder : TimestampOrder T)
    (h : Represents q.toIterableQueueModel xs) (hgap : GapFree (n * tick) xs)
    (hsize : q.size < 2147483648) (hne : xs ≠ [])
    (hend : tsNat (xs.getLast hne) + n * tick < 2 ^ 64) (element : T) :
    SameLookup q xs element := by
  have hpos := List.length_pos_iff.mpr hne
  have hsorted := hgap.strictlyIncreasing hlayout.span_pos
  have hcomputed : q.lowerBound element false = _ :=
    FixedRateQueueModel.computedSearch_eq h hgap hne (hlayout.hasExtent _) hsize
  have hsearch : q.toBinarySearchQueueModel.lowerBound element false = _ :=
    BinarySearchQueueModel.search_eq h horder.consistent hsorted hne
  have hlast : tsNat (xs.getLast hne) = tsNat (xs.head hne) + (xs.length - 1) * (n * tick) := by
    rw [List.getLast_eq_getElem, List.head_eq_getElem, hgap.tsNat_getElem (by omega)]
  have hnewest : (tsNat (xs.head hne) + xs.length * (n * tick)) % 2 ^ 64 =
      tsNat (xs.getLast hne) + n * tick := by
    obtain ⟨k, hk⟩ : ∃ k, xs.length = k + 1 := ⟨xs.length - 1, by omega⟩
    rw [hk, Nat.add_sub_cancel] at hlast
    rw [hk, Nat.add_one_mul, ← Nat.add_assoc, ← hlast, Nat.mod_eq_of_lt hend]
  rw [hnewest] at hcomputed
  by_cases hfront : tsNat element < tsNat (xs.head hne)
  · rw [if_pos (.inl hfront)] at hcomputed
    rw [if_pos ((horder.lt_eq_true_iff _ _).mpr hfront)] at hsearch
    refine ⟨endIndex, endIndex, hcomputed, hsearch, rfl, fun hgood => ?_⟩
    rw [good_endIndex] at hgood
    cases hgood
  have hnotlt : lt element (xs.head hne) = false :=
    (horder.lt_eq_false_iff _ _).mpr (Nat.not_lt.mp hfront)
  rw [hnotlt, if_neg Bool.false_ne_true] at hsearch
  by_cases habove : tsNat (xs.getLast hne) + n * tick < tsNat element
  · rw [if_pos (.inr habove)] at hcomputed
    -- the binary search ends one past the newest element
    have hpast : lowerBound tsNat xs (tsNat element) = xs.length := by
      refine Ordered.lowerBound_eq le_rfl (fun i hi hlen => ?_)
        (fun hlen => absurd hlen (lt_irrefl _))
      have hle := hsorted.key_le (show i ≤ xs.length - 1 by omega) (by omega)
      rw [← List.getLast_eq_getElem hne] at hle
      omega
    have hbad : q.good (Cyclic.slot q.size q.readIndex xs.length) = false :=
      Bool.eq_false_iff.mpr fun hgood =>
        absurd ((h.good_iff (h.at_slot le_rfl)).mp hgood) (lt_irrefl _)
    rw [hpast] at hsearch
    refine ⟨endIndex, _, hcomputed, hsearch, (good_endIndex _).trans hbad.symm, fun hgood => ?_⟩
    rw [good_endIndex] at hgood
    cases hgood
  · rw [if_neg (not_or.mpr ⟨hfront, habove⟩)] at hcomputed
    refine ⟨_, _, hcomputed, hsearch, rfl, fun hgood => ⟨rfl, ?_⟩⟩
    have hle : lowerBound tsNat xs (tsNat element) ≤ xs.length := lowerBound_le_length
    have hat := h.at_slot hle
    have hlen := (h.good_iff hat).mp hgood
    have hfirst : (fun x => !lt x element) = fun x => decide (tsNat element ≤ tsNat x) := by
      funext x
      rw [Bool.eq_iff_iff, Bool.not_eq_true', horder.lt_eq_false_iff, decide_eq_true_iff]
    rw [h.records_of_at hat hlen, List.find?_eq_getElem?_findIdx, hfirst]
    exact (List.getElem?_eq_getElem hlen).symm

end Lookup

/-- What holds of the accepted payloads, the previous payload and the registered error. -/
structure Reported (span size : ℕ)
    (s : ConsumerSystem (FixedRateQueueModel T) T (Option UInt64)) : Prop where
  size_eq : s.latencyBuffer.size = size
  covered : ∃ xs, Represents s.latencyBuffer.toIterableQueueModel xs ∧ xs <:+ s.accepted ∧
    Covered span s.errorRegistry xs
  increasing : s.accepted.IsChain fun x y => tsNat x < tsNat y
  bounded : ∀ last ∈ s.accepted.getLast?, tsNat last + span < 2 ^ 64
  previous : ∀ last ∈ s.accepted.getLast?, ∃ ts ∈ s.processor, tsNat last ≤ ts.toNat
  pending : ∀ payload ∈ s.phase.payload, s.processor = some (getTimestamp payload) ∧
    ∀ last ∈ s.accepted.getLast?, tsNat last < tsNat payload

section Step
variable {conf : ConsumerConf T (Option UInt64)} {span size : ℕ}
  {s s' : ConsumerSystem (FixedRateQueueModel T) T (Option UInt64)}

theorem sorted_of_suffix {accepted xs : List T}
    (h : accepted.IsChain fun x y => tsNat x < tsNat y) (hsuffix : xs <:+ accepted) :
    StrictlyIncreasing tsNat xs := List.isChain_iff_pairwise.mp (h.suffix hsuffix)

theorem Reported.preprocess (h : Reported span size s)
    (hconf : conf.preprocessItem = reportMissingFrames) {payload : T} {cutoffTimestamp : UInt64}
    {callback : Bool}
    (hincreasing : Increasing s (.preprocess payload cutoffTimestamp callback)) :
    Reported span size (s.preprocess conf payload cutoffTimestamp callback) := by
  have hprocessor : (s.preprocess conf payload cutoffTimestamp callback).processor =
      some (getTimestamp payload) := by
    rw [ConsumerSystem.preprocess, hconf]
    rfl
  have hphase : (s.preprocess conf payload cutoffTimestamp callback).phase =
      .preprocessed payload callback := by
    rw [ConsumerSystem.preprocess, hconf]
    rfl
  have hlast : ∀ last ∈ s.accepted.getLast?, tsNat last < tsNat payload := by
    intro last hmem
    obtain ⟨ts, hts, hle⟩ := h.previous last hmem
    exact hle.trans_lt (hincreasing ts hts)
  refine ⟨h.size_eq, ?_, h.increasing, h.bounded, fun last hmem => ?_, fun x hx => ?_⟩
  · obtain ⟨xs, hrep, hsuffix, hcovered⟩ := h.covered
    refine ⟨xs, hrep, hsuffix, ?_⟩
    have hregistry : (s.preprocess conf payload cutoffTimestamp callback).errorRegistry =
        registerMissing s.processor s.errorRegistry payload := by
      rw [ConsumerSystem.preprocess, hconf]
      rfl
    rw [hregistry]
    -- everything stored is before the payload
    refine hcovered.registerMissing s.processor fun x hx => ?_
    obtain ⟨last, hmem⟩ : ∃ last, s.accepted.getLast? = some last :=
      Option.isSome_iff_exists.mp (List.getLast?_isSome.mpr
        (List.ne_nil_of_mem (hsuffix.subset hx)))
    have hle :=
      (sorted_of_suffix h.increasing List.suffix_rfl).le_getLast hmem x (hsuffix.subset hx)
    exact (hle.trans_lt (hlast last hmem)).le
  · exact ⟨_, hprocessor, (hlast last hmem).le⟩
  · rw [hphase] at hx
    cases hx
    exact ⟨hprocessor, hlast⟩

theorem Reported.write (h : Reported span size s) (hsize : size < 2147483648) {payload : T}
    {callback : Bool} (hphase : s.phase = .preprocessed payload callback)
    (hcond : GapCovered span s .write) : Reported span size (s.write conf payload callback) := by
  have hpayload : payload ∈ s.phase.payload := by
    rw [hphase]
    rfl
  have hnone : (s.write conf payload callback).phase.payload = none := by
    show ConsumerPhase.payload (if _ then _ else _) = none
    split_ifs <;> rfl
  have hkept : (s.write conf payload callback).latencyBuffer.size = size := by
    refine Eq.trans ?_ h.size_eq
    show (s.latencyBuffer.toIterableQueueModel.write payload).2.size = s.latencyBuffer.size
    rw [IterableQueueModel.write]
    split_ifs <;> rfl
  obtain ⟨hprocessor, hlast⟩ := h.pending payload hpayload
  obtain ⟨xs, hrep, hsuffix, hcovered⟩ := h.covered
  cases hwrite : (s.latencyBuffer.toIterableQueueModel.write payload).1 with
  | true =>
    have haccepted : (s.write conf payload callback).accepted = s.accepted ++ [payload] :=
      if_pos hwrite
    obtain ⟨hbound, hgap⟩ := hcond payload hpayload ((write_fst_iff payload).mp hwrite)
    have hnewest : (s.write conf payload callback).accepted.getLast? = some payload := by
      rw [haccepted]
      exact List.getLast?_concat
    refine ⟨hkept, ⟨xs ++ [payload], hrep.write_accepted hwrite, ?_, ?_⟩, ?_, ?_, ?_, ?_⟩
    · obtain ⟨before, hbefore⟩ := hsuffix
      exact ⟨before, by rw [haccepted, ← hbefore, List.append_assoc]⟩
    · refine List.isChain_append.mpr ⟨hcovered, .singleton _, fun newest hmem x hx => ?_⟩
      cases hx
      refine hgap newest (Eq.trans ?_ hmem)
      exact hrep.back_records (by rw [h.size_eq]; omega)
    · rw [haccepted]
      refine List.isChain_append.mpr ⟨h.increasing, .singleton _, fun last hmem x hx => ?_⟩
      cases hx
      exact hlast last hmem
    · rw [hnewest]
      intro last hmem
      cases hmem
      exact hbound
    · rw [hnewest]
      intro last hmem
      cases hmem
      exact ⟨_, hprocessor, le_rfl⟩
    · rw [hnone]
      intro x hx
      cases hx
  | false =>
    have haccepted : (s.write conf payload callback).accepted = s.accepted :=
      if_neg (by rw [show (LatencyBuffer.write s.latencyBuffer payload).1 = false from hwrite]
                 exact Bool.false_ne_true)
    refine ⟨hkept, ⟨xs, hrep.write_rejected hwrite, ?_, hcovered⟩, ?_, ?_, ?_, ?_⟩
    · rwa [haccepted]
    · rw [haccepted]
      exact h.increasing
    · rw [haccepted]
      exact h.bounded
    · rw [haccepted]
      exact h.previous
    · rw [hnone]
      intro x hx
      cases hx

theorem Reported.step (h : Reported span size s) (hconf : conf.preprocessItem = reportMissingFrames)
    (hsize : size < 2147483648) {a : ConsumerAction T} (hincreasing : Increasing s a)
    (hcond : GapCovered span s a) (hstep : ConsumerSystem.step conf s a = some s') :
    Reported span size s' := by
  cases step_cases hstep with
  | preprocess payload cutoffTimestamp callback => exact h.preprocess hconf hincreasing
  | write hphase => exact h.write hsize hphase hcond
  | postprocess =>
    refine ⟨h.size_eq, h.covered, h.increasing, h.bounded, h.previous, fun payload hmem => ?_⟩
    cases hmem
  | pass fuel hphase hpass =>
    cases hpass <;>
      exact ⟨h.size_eq, h.covered, h.increasing, h.bounded, h.previous, h.pending⟩
  | cleanup => exact ⟨h.size_eq, h.covered, h.increasing, h.bounded, h.previous, h.pending⟩
  | @popOne ts lb hpop cleanupPhase =>
    obtain ⟨xs, hrep, hsuffix, hcovered⟩ := h.covered
    obtain ⟨q, hq, rfl⟩ := Option.map_eq_some_iff.mp hpop
    obtain ⟨x, ys, rfl, hrest⟩ := hrep.pop_one hq
    refine ⟨?_, ⟨ys, hrest, (List.suffix_cons x ys).trans hsuffix, hcovered.tail⟩, h.increasing,
      h.bounded, h.previous, h.pending⟩
    exact (step_content ⟨x :: ys, hrep, hsuffix⟩ hstep).2.trans h.size_eq
  | removeErrors hfront =>
    obtain ⟨xs, hrep, hsuffix, hcovered⟩ := h.covered
    have hhead := hrep.front_records.symm.trans hfront
    exact ⟨h.size_eq, ⟨xs, hrep, hsuffix, hcovered.removeErrorsUntil
      (sorted_of_suffix h.increasing hsuffix) hhead⟩, h.increasing, h.bounded, h.previous,
      h.pending⟩

theorem Reported.fastPathValid {n tick : ℕ} (h : Reported (n * tick) size s)
    (hlayout : UniformLayout T n tick) (horder : TimestampOrder T) (hsize : size < 2147483648) :
    FastPathValid (n * tick) s := by
  intro hnone
  obtain ⟨xs, hrep, ⟨before, hbefore⟩, hcovered⟩ := h.covered
  have hgap := hcovered.gapFree hnone
  refine ⟨xs, hrep, hgap, fun hne element => ?_⟩
  refine sameLookup_of_gapFree hlayout horder hrep hgap (h.size_eq.trans_lt hsize) hne
    (h.bounded _ ?_) element
  rw [← hbefore, List.getLast?_append_of_ne_nil _ hne, List.getLast?_eq_some_getLast hne]
  rfl

end Step

/-- In every run over a ring in the signed 32-bit range, where every gap of the ring is covered. -/
theorem run_fastPathValid {n tick : ℕ} (hlayout : UniformLayout T n tick)
    (horder : TimestampOrder T) (conf : ConsumerConf T (Option UInt64))
    (hconf : conf.preprocessItem = reportMissingFrames) {q : FixedRateQueueModel T}
    (hq : Represents q.toIterableQueueModel []) (hsize : q.size < 2147483648)
    (as : List (ConsumerAction T))
    (s : ConsumerSystem (FixedRateQueueModel T) T (Option UInt64))
    (hincreasing : Execution.StepsMeet (step conf) Increasing (init q none) as)
    (hcond : Execution.StepsMeet (step conf) (GapCovered (n * tick)) (init q none) as)
    (hrun : Execution.run (step conf) (init q none) as = some s) : FastPathValid (n * tick) s := by
  have hinit : Reported (n * tick) q.size (init q none : ConsumerSystem _ T _) :=
    ⟨rfl, ⟨[], hq, List.suffix_rfl, .nil⟩, .nil, by simp [init], by simp [init],
      by simp [init, ConsumerPhase.payload]⟩
  have hreported := Execution.run_invariant_of_stepsMeet
    (fun s a s' h hmeet hstep => Reported.step h hconf hsize hmeet.1 hmeet.2 hstep) hinit
    (hincreasing.and hcond) hrun
  exact hreported.fastPathValid hlayout horder hsize

section Chunks

def reportingConf : ConsumerConf (Chunk 1 10) (Option UInt64) where
  processingDelayTicks := 0
  supportsCutoffTimestamp := false
  preprocessItem := reportMissingFrames
  popLimitSize := 1
  toPop occupancy := occupancy / 2

def fixedRateStart :
    ConsumerSystem (FixedRateQueueModel (Chunk 1 10)) (Chunk 1 10) (Option UInt64) :=
  init ⟨⟨.fresh _ 3⟩⟩ none

def payloadActions (ts : UInt64) : List (ConsumerAction (Chunk 1 10)) :=
  [.preprocess ⟨ts⟩ 0 false, .write, .postprocess]

def cleanupActions : List (ConsumerAction (Chunk 1 10)) :=
  [.startCleanup, .popOne 1000, .popOne 1000, .removeErrors]

def reportedActions : List (ConsumerAction (Chunk 1 10)) :=
  payloadActions 100 ++ payloadActions 120 ++ cleanupActions ++ payloadActions 130 ++
    cleanupActions

theorem run_fastPathValid_reported : FastPathValid (1 * 10)
    ((Execution.run (step reportingConf) fixedRateStart reportedActions).get (by decide +kernel)) :=
  run_fastPathValid (Chunk.uniformLayout 1 10 (by decide) (by decide) (by decide))
    (Chunk.timestampOrder 1 10) reportingConf rfl (represents_fresh (by decide) (by decide))
    (by decide) reportedActions _
    (Execution.stepsMeet_of_checkSteps (fun _ _ => of_decide_eq_true)
      (by decide +kernel : Execution.checkSteps (step reportingConf)
        (fun s a => decide (Increasing s a)) fixedRateStart reportedActions = true))
    (Execution.stepsMeet_of_checkSteps (fun _ _ => of_decide_eq_true)
      (by decide +kernel : Execution.checkSteps (step reportingConf)
        (fun s a => decide (GapCovered 10 s a)) fixedRateStart reportedActions = true))
    (Option.some_get _).symm

/-- The payload at 120 does not fit, and the one at 130 follows it without a gap. -/
def droppedActions : List (ConsumerAction (Chunk 1 10)) :=
  payloadActions 100 ++ payloadActions 110 ++ payloadActions 120 ++ cleanupActions ++
    payloadActions 130

def droppedState : ConsumerSystem (FixedRateQueueModel (Chunk 1 10)) (Chunk 1 10) (Option UInt64) :=
  (Execution.run (step reportingConf) fixedRateStart droppedActions).get (by decide +kernel)

theorem not_fastPathValid_of_dropped :
    ¬ ∀ (as : List (ConsumerAction (Chunk 1 10))) s,
      Execution.StepsMeet (step reportingConf) Increasing fixedRateStart as →
      Execution.run (step reportingConf) fixedRateStart as = some s → FastPathValid 10 s := by
  intro h
  have hmeet : Execution.StepsMeet (step reportingConf) Increasing fixedRateStart droppedActions :=
    Execution.stepsMeet_of_checkSteps (fun _ _ => of_decide_eq_true)
      (by decide +kernel : Execution.checkSteps (step reportingConf)
        (fun s a => decide (Increasing s a)) fixedRateStart droppedActions = true)
  obtain ⟨xs, hrep, hgap, _⟩ := h droppedActions droppedState hmeet (Option.some_get _).symm
    (by decide +kernel)
  -- the ring holds the payloads at 110 and 130
  have hlive : droppedState.latencyBuffer.liveSlots.map droppedState.latencyBuffer.records =
      [some ⟨110⟩, some ⟨130⟩] := by decide +kernel
  have hxs : xs = [⟨110⟩, ⟨130⟩] := by
    refine List.map_injective_iff.mpr (Option.some_injective _) ?_
    rw [← hrep.liveSlots_map, hlive]
    rfl
  rw [hxs] at hgap
  exact absurd (List.isChain_iff_getElem.mp hgap 0 (by decide)) (by decide)

end Chunks
end DataHandling.ConsumerSystem
