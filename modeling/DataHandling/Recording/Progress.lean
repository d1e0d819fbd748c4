import DataHandling.Recording.Contiguity

/-! One pass of the recorder, alone. It writes what lies from the searched position on, unless the
search finds the front above `m_next_timestamp_to_record`: then it writes nothing, and neither the
recorder nor the cleanup can ever change that. -/

namespace DataHandling.RecordingSystem
open Cyclic Ordered ReadoutType IterableQueueModel

section Pass
variable {T : Type} [ReadoutType T]

/-- The payloads that one pass writes from a list of elements, and the timestamp that it leaves. -/
def recordFrom : ℕ → UInt64 → List T → List T × UInt64
  | 0, next, _ => ([], next)
  | _, next, [] => ([], next)
  | left + 1, next, x :: xs =>
    if getTimestamp x ≥ next then
      (x :: (recordFrom left (getTimestamp x + tickSpan x) xs).1,
        (recordFrom left (getTimestamp x + tickSpan x) xs).2)
    else recordFrom (left + 1) next xs

/-- The steps of the recorder up to the head of its outer loop. -/
inductive Pass : RecordingSystem T → RecordingSystem T → Prop
  | done {s} (houter : s.recorder = .outer) : Pass s s
  | step {s s' t} (hinside : s.recorder ≠ .outer) (hstep : s.stepRecorder = some s')
      (hrest : Pass s' t) : Pass s t

def OuterIteration (s t : RecordingSystem T) : Prop :=
  s.recorder = .outer ∧ ∃ s', s.stepRecorder = some s' ∧ Pass s' t

/-- The iteration writes an element and raises `m_next_timestamp_to_record`. -/
def Progress (s : RecordingSystem T) : Prop :=
  ∃ t, OuterIteration s t ∧ s.written.length < t.written.length ∧
    s.nextTimestampToRecord < t.nextTimestampToRecord

theorem Pass.unique {s t t' : RecordingSystem T} (h : Pass s t) (h' : Pass s t') : t = t' := by
  induction h with
  | done houter =>
    cases h' with
    | done => rfl
    | step hinside => exact absurd houter hinside
  | step hinside hstep _ ih =>
    cases h' with
    | done houter => exact absurd houter hinside
    | step _ hstep' hrest' =>
      obtain rfl := Option.some.inj (hstep.symm.trans hstep')
      exact ih hrest'

theorem OuterIteration.unique {s t t' : RecordingSystem T} (h : OuterIteration s t)
    (h' : OuterIteration s t') : t = t' := by
  obtain ⟨-, u, hstep, hpass⟩ := h
  obtain ⟨-, u', hstep', hpass'⟩ := h'
  obtain rfl := Option.some.inj (hstep.symm.trans hstep')
  exact hpass.unique hpass'

end Pass

section Spec
variable {T : Type} [ReadoutType T] {next : UInt64} {left : ℕ}

theorem le_recordFrom {xs : List T} (hfits : ∀ x ∈ xs, Fits x) :
    next.toNat ≤ (recordFrom left next xs).2.toNat := by
  induction xs generalizing left next with
  | nil => cases left <;> exact Nat.le_refl _
  | cons x xs ih =>
    obtain ⟨hx, hxs⟩ := List.forall_mem_cons.mp hfits
    cases left with
    | zero => exact Nat.le_refl _
    | succ left =>
      rw [recordFrom]
      split_ifs with hge
      · have hnext : next.toNat ≤ tsNat x := UInt64.le_iff_toNat_le.mp hge
        have hrest : (getTimestamp x + tickSpan x).toNat ≤
            (recordFrom left (getTimestamp x + tickSpan x) xs).2.toNat := ih hxs
        rw [hx.end_toNat] at hrest
        exact (hnext.trans (Nat.le_add_right _ _)).trans hrest
      · exact ih hxs

theorem lt_recordFrom_iff {x : T} {xs : List T} (hfits : ∀ y ∈ x :: xs, Fits y)
    (hsorted : StrictlyIncreasing tsNat (x :: xs)) (hx : next.toNat ≤ tsNat x) :
    next.toNat < (recordFrom (left + 2) next (x :: xs)).2.toNat ↔
      ∃ y ∈ x :: xs, next.toNat < tsNat y + extent y := by
  obtain ⟨hfit, hfits'⟩ := List.forall_mem_cons.mp hfits
  obtain ⟨hlt, -⟩ := List.pairwise_cons.mp hsorted
  rw [recordFrom, if_pos (UInt64.le_iff_toNat_le.mpr hx)]
  have hrest : (getTimestamp x + tickSpan x).toNat ≤
      (recordFrom (left + 1) (getTimestamp x + tickSpan x) xs).2.toNat := le_recordFrom hfits'
  rw [hfit.end_toNat] at hrest
  constructor
  · intro hrises
    by_contra hnone
    push Not at hnone
    have hend := hnone x List.mem_cons_self
    cases xs with
    | nil =>
      rw [recordFrom, hfit.end_toNat] at hrises
      · omega
      · omega
    | cons z zs =>
      have hz := hnone z (List.mem_cons_of_mem x List.mem_cons_self)
      have hxz := hlt z List.mem_cons_self
      omega
  · rintro ⟨y, hy, hend⟩
    by_cases hxend : next.toNat < tsNat x + extent x
    · exact hxend.trans_le hrest
    · -- the first element ends where it begins, and the next one begins above it
      rcases List.mem_cons.mp hy with rfl | hmem
      · exact absurd hend hxend
      · obtain ⟨z, zs, rfl⟩ := List.exists_cons_of_ne_nil (List.ne_nil_of_mem hmem)
        have hxz := hlt z List.mem_cons_self
        have hge : getTimestamp x + tickSpan x ≤ getTimestamp z := by
          rw [UInt64.le_iff_toNat_le, hfit.end_toNat]
          exact Nat.le_of_lt (Nat.lt_of_le_of_lt (by omega) hxz)
        rw [recordFrom, if_pos hge]
        obtain ⟨hzfit, hzs⟩ := List.forall_mem_cons.mp hfits'
        have hzrest : (getTimestamp z + tickSpan z).toNat ≤
            (recordFrom left (getTimestamp z + tickSpan z) zs).2.toNat := le_recordFrom hzs
        rw [hzfit.end_toNat] at hzrest
        calc next.toNat ≤ tsNat x := hx
          _ < tsNat z := hxz
          _ ≤ tsNat z + extent z := Nat.le_add_right _ _
          _ ≤ _ := hzrest

end Spec

section Loop
variable {T : Type} [ReadoutType T] {base : ℕ} {s t : RecordingSystem T}

def iterAt (base : ℕ) (s : RecordingSystem T) (p : ℕ) : ℕ :=
  if p < s.accepted.length then slotOf base s p else endIndex

/-- The state that a pass over the elements from position `p` on leaves. -/
def passed (s : RecordingSystem T) (left p : ℕ) : RecordingSystem T :=
  { s with
    written := s.written ++ (recordFrom left s.nextTimestampToRecord (s.accepted.drop p)).1
    nextTimestampToRecord := (recordFrom left s.nextTimestampToRecord (s.accepted.drop p)).2
    recorder := .outer }

theorem passed_of_le {left p : ℕ} (hp : s.accepted.length ≤ p) :
    passed s left p = s.goTo .outer := by
  rw [passed, List.drop_eq_nil_of_le hp]
  cases left <;> simp [recordFrom, goTo]

def wrote (s : RecordingSystem T) (x : T) : RecordingSystem T :=
  { s with
    written := s.written ++ [x]
    nextTimestampToRecord := getTimestamp x + tickSpan x }

theorem passed_of_ge {left p : ℕ} (hp : p < s.accepted.length)
    (hge : getTimestamp s.accepted[p] ≥ s.nextTimestampToRecord) :
    passed s (left + 1) p = passed (wrote s s.accepted[p]) left (p + 1) := by
  rw [passed, List.drop_eq_getElem_cons hp, recordFrom, if_pos hge]
  simp only [passed, wrote, List.append_assoc, List.singleton_append]

theorem passed_of_lt {left p : ℕ} (hp : p < s.accepted.length)
    (hlt : ¬ getTimestamp s.accepted[p] ≥ s.nextTimestampToRecord) :
    passed s (left + 1) p = passed s (left + 1) (p + 1) := by
  rw [passed, List.drop_eq_getElem_cons hp, recordFrom, if_neg hlt]
  rfl

theorem passed_zero (p : ℕ) : passed s 0 p = s.goTo .outer := by
  simp [passed, recordFrom, goTo]

theorem Pass.goTo {r r' : Recorder} (hinside : r ≠ .outer)
    (hstep : (s.goTo r).stepRecorder = some (s.goTo r')) (hrest : Pass (s.goTo r') t) :
    Pass (s.goTo r) t := .step hinside hstep hrest

theorem pass_advancing (h : Positions base s) {p processed : ℕ} (hremoved : s.removed ≤ p)
    (hp : p < s.accepted.length)
    (hrest : Pass (s.goTo (.testing (iterAt base s (p + 1)) processed)) t) :
    Pass (s.goTo (.advancing (slotOf base s p) processed)) t := by
  have hgood := h.goodOf_slotOf hremoved hp
  have hnext := h.nextRecord_eq p
  have hiter : (if goodOf s.queue s.queue.readIndex (slotOf base s (p + 1)) then
      slotOf base s (p + 1) else endIndex) = iterAt base s (p + 1) := by
    rw [iterAt]
    rcases Nat.lt_or_eq_of_le (Nat.succ_le_of_lt hp) with hlt | (hlast : p + 1 = _)
    · rw [h.goodOf_slotOf (Nat.le_succ_of_le hremoved) hlt, if_pos rfl, if_pos hlt]
    · rw [hlast, ← h.writeIndex_eq, goodOf_writeIndex, if_neg Bool.false_ne_true,
        if_neg (Nat.lt_irrefl _)]
  have h₃ :
      Pass (s.goTo (.steppedLoaded (slotOf base s (p + 1)) processed s.queue.readIndex)) t := by
    rw [← hiter] at hrest
    exact Pass.goTo nofun rfl hrest
  have h₂ : Pass (s.goTo (.stepped (slotOf base s (p + 1)) processed)) t := Pass.goTo nofun rfl h₃
  have h₁ : Pass (s.goTo (.advancingLoaded (slotOf base s p) processed s.queue.readIndex)) t := by
    have hiter' : (if goodOf s.queue s.queue.readIndex (slotOf base s p) then
        s.queue.nextRecord (slotOf base s p) else slotOf base s p) = slotOf base s (p + 1) := by
      rw [if_pos hgood, hnext]
    rw [← hiter'] at h₂
    exact Pass.goTo nofun rfl h₂
  exact Pass.goTo nofun rfl h₁

theorem stepRecorder_comparing {it processed : ℕ} {x : T} (hmemory : s.memory it = some x) :
    (s.goTo (.comparing it processed)).stepRecorder = some (s.goTo
      (if getTimestamp x ≥ s.nextTimestampToRecord then .writing it processed
        else .advancing it processed)) := by
  change (s.memory it).map _ = _
  rw [hmemory]
  rfl

theorem pass_writing {it processed : ℕ} {x : T} (hmemory : s.memory it = some x)
    (hrest : Pass ((wrote s x).goTo (.advancing it (processed + 1))) t) :
    Pass (s.goTo (.writing it processed)) t := by
  have hwriting : (s.goTo (.writing it processed)).stepRecorder =
      some { s with
        written := s.written ++ [x]
        recorder := .updating it (processed + 1) } := by
    simp only [stepRecorder, goTo, hmemory, Option.map_some]
  have hupdating : ({ s with
      written := s.written ++ [x]
      recorder := .updating it (processed + 1) } : RecordingSystem T).stepRecorder =
      some ((wrote s x).goTo (.advancing it (processed + 1))) := by
    simp only [stepRecorder, goTo, wrote, hmemory, Option.map_some]
  exact .step (by rintro ⟨⟩) hwriting (.step (by rintro ⟨⟩) hupdating hrest)

theorem pass_testing (h : Positions base s) {p processed : ℕ} (hremoved : s.removed ≤ p)
    (hprocessed : processed ≤ chunksPerPass) :
    Pass (s.goTo (.testing (iterAt base s p) processed))
      (passed s (chunksPerPass - processed) p) := by
  induction hleft : s.accepted.length - p generalizing s p processed with
  | zero =>
    have hle : s.accepted.length ≤ p := Nat.sub_eq_zero_iff_le.mp hleft
    rw [passed_of_le hle, iterAt, if_neg (Nat.not_lt.mpr hle)]
    refine Pass.goTo (by rintro ⟨⟩) ?_ (.done rfl)
    rfl
  | succ n ih =>
    have hp : p < s.accepted.length := by omega
    have hgood := h.goodOf_slotOf hremoved hp
    have hmemory := h.memory_slotOf (Nat.le_succ_of_le hremoved) hp
    have hloaded : Pass (s.goTo (.testingLoaded (slotOf base s p) processed s.queue.readIndex))
        (passed s (chunksPerPass - processed) p) →
        Pass (s.goTo (.testing (iterAt base s p) processed))
          (passed s (chunksPerPass - processed) p) := by
      intro hrest
      rw [iterAt, if_pos hp]
      refine Pass.goTo (by rintro ⟨⟩) ?_ hrest
      simp only [stepRecorder, goTo, if_neg (h.slotOf_ne_endIndex p)]
    refine hloaded ?_
    rcases Nat.lt_or_eq_of_le hprocessed with hlt | hfull
    · have hcomparing : Pass (s.goTo (.comparing (slotOf base s p) processed))
          (passed s (chunksPerPass - processed) p) := by
        obtain ⟨left, hbudget⟩ : ∃ left, chunksPerPass - processed = left + 1 :=
          ⟨chunksPerPass - processed - 1, by omega⟩
        by_cases hge : getTimestamp s.accepted[p] ≥ s.nextTimestampToRecord
        · -- the element is written
          have h' : Positions base (wrote s s.accepted[p]) := h.congr rfl rfl rfl rfl
          have hrest := ih h' (Nat.le_succ_of_le hremoved) (Nat.succ_le_of_lt hlt)
            (by change s.accepted.length - (p + 1) = n; omega)
          rw [hbudget, passed_of_ge hp hge]
          rw [show chunksPerPass - (processed + 1) = left by omega] at hrest
          refine Pass.goTo (by rintro ⟨⟩) ?_
            (pass_writing hmemory (pass_advancing h' hremoved hp hrest))
          rw [stepRecorder_comparing hmemory, if_pos hge]
        · have hrest := ih h (Nat.le_succ_of_le hremoved) hprocessed (by omega)
          rw [hbudget, passed_of_lt hp hge]
          rw [hbudget] at hrest
          refine Pass.goTo (by rintro ⟨⟩) ?_ (pass_advancing h hremoved hp hrest)
          rw [stepRecorder_comparing hmemory, if_neg hge]
      refine Pass.goTo (by rintro ⟨⟩) ?_ hcomparing
      simp only [stepRecorder, goTo, hgood, hlt, and_self, if_true]
    · rw [hfull, Nat.sub_self, passed_zero]
      refine Pass.goTo (by rintro ⟨⟩) ?_ (.done rfl)
      simp only [stepRecorder, goTo, hgood, Nat.lt_irrefl, and_false, if_false]

end Loop

section Iteration
variable {T : Type} [ReadoutType T] {base : ℕ} {s : RecordingSystem T}

/-- No cleanup is requested, and none holds the mutex. -/
def Alone (s : RecordingSystem T) : Prop := s.cleanupRequested = false ∧ s.mutexFree = true

def Holds (s : RecordingSystem T) (x : T) : Prop := ∃ slot, s.queue.records slot = some x

omit [ReadoutType T] in
theorem Positions.holds_iff (h : Positions base s) (x : T) :
    Holds s x ↔ x ∈ s.accepted.drop s.removed := (h.represents.mem_iff x).symm

theorem Positions.mem_drop_iff (h : Positions base s)
    (hsorted : StrictlyIncreasing tsNat s.accepted)
    (hremoved : s.removed ≤ Ordered.lowerBound tsNat s.accepted s.nextTimestampToRecord.toNat)
    (x : T) :
    x ∈ s.accepted.drop (Ordered.lowerBound tsNat s.accepted s.nextTimestampToRecord.toNat) ↔
      Holds s x ∧ s.nextTimestampToRecord ≤ getTimestamp x := by
  have hstored : StrictlyIncreasing tsNat (s.accepted.drop s.removed) :=
    hsorted.sublist (List.drop_sublist _ _)
  have hmem := hstored.mem_drop_lowerBound_iff (k := s.nextTimestampToRecord.toNat) (x := x)
  rw [lowerBound_drop hremoved, List.drop_drop, Nat.add_sub_cancel' hremoved] at hmem
  rw [hmem, h.holds_iff, UInt64.le_iff_toNat_le]
  rfl

theorem lt_passed_iff {p : ℕ} (hp : p < s.accepted.length)
    (hsorted : StrictlyIncreasing tsNat s.accepted) (hfits : ∀ x ∈ s.accepted, Fits x)
    (hge : s.nextTimestampToRecord.toNat ≤ tsNat s.accepted[p]) :
    s.written.length < (passed s chunksPerPass p).written.length ∧
      (s.nextTimestampToRecord < (passed s chunksPerPass p).nextTimestampToRecord ↔
        ∃ x ∈ s.accepted.drop p, s.nextTimestampToRecord.toNat < tsNat x + extent x) := by
  have hdrop := List.drop_eq_getElem_cons hp
  have hsorted' : StrictlyIncreasing tsNat (s.accepted.drop p) :=
    hsorted.sublist (List.drop_sublist _ _)
  have hfits' : ∀ x ∈ s.accepted.drop p, Fits x := fun x hx => hfits x (List.mem_of_mem_drop hx)
  rw [hdrop] at hsorted' hfits'
  constructor
  · rw [passed, hdrop, chunksPerPass, recordFrom, if_pos (UInt64.le_iff_toNat_le.mpr hge)]
    simp
  · have hrises : s.nextTimestampToRecord.toNat <
        (recordFrom (998 + 2) s.nextTimestampToRecord
          (s.accepted[p] :: s.accepted.drop (p + 1))).2.toNat ↔ _ :=
      lt_recordFrom_iff hfits' hsorted' hge
    rw [← hdrop] at hrises
    rw [UInt64.lt_iff_toNat_lt]
    exact hrises

theorem outerIteration_of_search (halone : Alone s) (houter : s.recorder = .outer)
    (hnext : s.nextTimestampToRecord ≠ 0) {it : ℕ}
    (hsearch : BinarySearchQueueModel.search s.queue s.elementToSearch = some it)
    {t : RecordingSystem T} (hpass : Pass (s.goTo (.testing it 0)) t) : OuterIteration s t := by
  obtain ⟨hflag, hfree⟩ := halone
  have houterStep : s.stepRecorder = some (s.goTo .entering) := by
    simp only [stepRecorder, houter, hflag, true_or, if_true, if_neg hnext]
  have hentering : (s.goTo .entering).stepRecorder =
      some { s with requestsRunning := s.requestsRunning + 1, recorder := .searching } :=
    if_pos ⟨hfree, hflag⟩
  have hsearching : ({ s with
      requestsRunning := s.requestsRunning + 1
      recorder := .searching } : RecordingSystem T).stepRecorder =
      some { s with requestsRunning := s.requestsRunning + 1, recorder := .searched it } := by
    change (BinarySearchQueueModel.search s.queue s.elementToSearch).map _ = _
    rw [hsearch]
    rfl
  have hsearched : ({ s with
      requestsRunning := s.requestsRunning + 1
      recorder := .searched it } : RecordingSystem T).stepRecorder =
      some (s.goTo (.testing it 0)) := if_pos hfree
  exact ⟨houter, _, houterStep,
    .step (by rintro ⟨⟩) hentering
      (.step (by rintro ⟨⟩) hsearching (.step (by rintro ⟨⟩) hsearched hpass))⟩

variable (horder : TimestampConsistent T) (h : Positions base s)
  (hsorted : StrictlyIncreasing tsNat s.accepted) (halone : Alone s)
  (houter : s.recorder = .outer) (hnext : s.nextTimestampToRecord ≠ 0)
include horder h hsorted halone houter hnext

theorem outerIteration_stalled (hlt : s.removed < s.accepted.length)
    (hless : lt s.elementToSearch s.accepted[s.removed] = true) :
    OuterIteration s (s.goTo .outer) :=
  outerIteration_of_search halone houter hnext (h.search_of_less horder hsorted hlt hless)
    (Pass.goTo nofun rfl (.done rfl))

theorem outerIteration_passed (hset : ∀ (x : T) t, getTimestamp (setTimestamp x t) = t)
    (hlt : s.removed < s.accepted.length)
    (hless : lt s.elementToSearch s.accepted[s.removed] = false)
    (hp : Ordered.lowerBound tsNat s.accepted s.nextTimestampToRecord.toNat < s.accepted.length) :
    OuterIteration s (passed s chunksPerPass
      (Ordered.lowerBound tsNat s.accepted s.nextTimestampToRecord.toNat)) := by
  have hfound := h.search_of_not_less horder hsorted hlt hless
  rw [tsNat_elementToSearch hset] at hfound
  obtain ⟨hremoved, hsearch⟩ := hfound
  have hpass := pass_testing h hremoved (Nat.zero_le chunksPerPass)
  rw [iterAt, if_pos hp] at hpass
  exact outerIteration_of_search halone houter hnext hsearch hpass

/-- The front is not above the searched element. -/
def FrontReached (s : RecordingSystem T) : Prop :=
  ∀ front ∈ s.queue.front.bind s.queue.records, lt s.elementToSearch front = false

/-- The element begins at or above the next timestamp, and ends above it. -/
def EndsAbove (s : RecordingSystem T) (x : T) : Prop :=
  s.nextTimestampToRecord ≤ getTimestamp x ∧ s.nextTimestampToRecord.toNat < tsNat x + extent x

theorem progress_iff (hset : ∀ (x : T) t, getTimestamp (setTimestamp x t) = t)
    (hfits : ∀ x ∈ s.accepted, Fits x)
    (hdata : ∃ x, Holds s x ∧ s.nextTimestampToRecord ≤ getTimestamp x) :
    Progress s ↔ FrontReached s ∧ ∃ x, Holds s x ∧ EndsAbove s x := by
  obtain ⟨x, hx, hnextx⟩ := hdata
  rw [h.holds_iff] at hx
  have hlt : s.removed < s.accepted.length :=
    Nat.not_le.mp (List.drop_eq_nil_iff.not.mp (List.ne_nil_of_mem hx))
  have hfront : FrontReached s ↔ lt s.elementToSearch s.accepted[s.removed] = false := by
    rw [FrontReached, h.front_eq hlt]
    simp
  rw [hfront]
  cases hless : lt s.elementToSearch s.accepted[s.removed] with
  | true =>
    have hiteration := outerIteration_stalled horder h hsorted halone houter hnext hlt hless
    refine iff_of_false ?_ fun hreached => Bool.noConfusion hreached.1
    rintro ⟨t, ht, hwritten, -⟩
    rw [← hiteration.unique ht] at hwritten
    exact Nat.lt_irrefl _ hwritten
  | false =>
    have hremoved := (h.search_of_not_less horder hsorted hlt hless).1
    rw [tsNat_elementToSearch hset] at hremoved
    have hmem := h.mem_drop_iff hsorted hremoved
    have hp : Ordered.lowerBound tsNat s.accepted s.nextTimestampToRecord.toNat <
        s.accepted.length :=
      Nat.not_le.mp (List.drop_eq_nil_iff.not.mp
        (List.ne_nil_of_mem ((hmem x).mpr ⟨(h.holds_iff x).mpr hx, hnextx⟩)))
    have hiteration := outerIteration_passed horder h hsorted halone houter hnext hset hlt hless hp
    obtain ⟨hwritten, hrises⟩ := lt_passed_iff hp hsorted hfits (le_key_lowerBound hp)
    have hends : (∃ x, Holds s x ∧ EndsAbove s x) ↔ ∃ x ∈ s.accepted.drop
        (Ordered.lowerBound tsNat s.accepted s.nextTimestampToRecord.toNat),
          s.nextTimestampToRecord.toNat < tsNat x + extent x := by
      simp only [hmem, EndsAbove, and_assoc]
    rw [hends, ← hrises, and_iff_right rfl]
    constructor
    · rintro ⟨t, ht, -, hnext⟩
      rwa [← hiteration.unique ht] at hnext
    · exact fun hnext => ⟨_, hiteration, hwritten, hnext⟩

end Iteration

section Run
variable {T : Type} [ReadoutType T] {handler : RequestHandler} {q : IterableQueueModel T}
  {xs : List T} {base : ℕ} {s s' : RecordingSystem T}

/-- An accepted element ends inside the 64-bit timestamps. -/
def AcceptedFits (s : RecordingSystem T) : RecordingAction T → Prop
  | .write x => (s.queue.write x).1 = true → Fits x
  | _ => True

structure Ascending (base : ℕ) (s : RecordingSystem T) : Prop where
  positions : Positions base s
  sorted : StrictlyIncreasing tsNat s.accepted
  fits : ∀ x ∈ s.accepted, Fits x

theorem Ascending.step (h : Ascending base s) {a : RecordingAction T}
    (hincreasing : AcceptedIncreasing s a) (hfits : AcceptedFits s a)
    (hstep : RecordingSystem.step handler s a = some s') : Ascending base s' := by
  refine ⟨h.positions.step hstep, sorted_step h.sorted hincreasing hstep, ?_⟩
  · rcases step_accepted hstep with heq | ⟨x, rfl, hwrite, heq⟩
    · exact heq ▸ h.fits
    · rw [heq]
      exact List.forall_mem_append.mpr ⟨h.fits, List.forall_mem_singleton.mpr (hfits hwrite)⟩

theorem run_ascending (hq : Represents q xs) (hsorted : StrictlyIncreasing tsNat xs)
    (hends : ∀ x ∈ xs, Fits x) {as : List (RecordingAction T)}
    (hincreasing : Execution.StepsMeet (step handler) AcceptedIncreasing (init q xs) as)
    (hfits : Execution.StepsMeet (step handler) AcceptedFits (init q xs) as)
    (hrun : Execution.run (step handler) (init q xs) as = some s) :
    Ascending q.readIndex s :=
  Execution.run_invariant_of_stepsMeet (fun _ _ _ h hcond hstep => h.step hcond.1 hcond.2 hstep)
    ⟨positions_init hq, hsorted, hends⟩ (hincreasing.and hfits) hrun

/-- In every reachable state: at the head of the outer loop, with data at or above the next
timestamp, the recorder gets on if the front is not above the searched element, and only then,
provided that some of the data ends above the next timestamp. -/
theorem run_progress_iff (horder : TimestampConsistent T)
    (hset : ∀ (x : T) t, getTimestamp (setTimestamp x t) = t) (hq : Represents q xs)
    (hsorted : StrictlyIncreasing tsNat xs) (hends : ∀ x ∈ xs, Fits x) (handler : RequestHandler)
    (as : List (RecordingAction T)) (s : RecordingSystem T)
    (hincreasing : Execution.StepsMeet (step handler) AcceptedIncreasing (init q xs) as)
    (hfits : Execution.StepsMeet (step handler) AcceptedFits (init q xs) as)
    (hrun : Execution.run (step handler) (init q xs) as = some s)
    (houter : s.recorder = .outer) (halone : Alone s) (hnext : s.nextTimestampToRecord ≠ 0)
    (hdata : ∃ x, Holds s x ∧ s.nextTimestampToRecord ≤ getTimestamp x) :
    Progress s ↔ FrontReached s ∧ ∃ x, Holds s x ∧ EndsAbove s x := by
  have h := run_ascending hq hsorted hends hincreasing hfits hrun
  exact progress_iff horder h.positions h.sorted halone houter hnext hset h.fits hdata

end Run

section Examples
variable {T : Type} [ReadoutType T]

instance (s : RecordingSystem T) : DecidablePred (AcceptedFits s)
  | .write x => inferInstanceAs (Decidable ((s.queue.write x).1 = true → Fits x))
  | .cleanupCheck | .cleanup | .record | .recorder | .timeUp => isTrue trivial

instance (s : RecordingSystem T) : Decidable (FrontReached s) :=
  Option.decidableForallMem (s.queue.front.bind s.queue.records)

instance (s : RecordingSystem T) : Decidable (Alone s) := inferInstanceAs (Decidable (_ ∧ _))

instance (s : RecordingSystem T) (x : T) : Decidable (EndsAbove s x) :=
  inferInstanceAs (Decidable (_ ∧ _))

def arrivalAfter (timestamp : UInt64) : List (RecordingAction (Chunk 1 10)) :=
  [.write ⟨100⟩, .record] ++ List.replicate 18 .recorder ++ [.write ⟨timestamp⟩]

def wholeCleanup : List (RecordingAction (Chunk 1 10)) :=
  .cleanupCheck :: List.replicate 8 .cleanup

def arrivedState (timestamp : UInt64) : Option (RecordingSystem (Chunk 1 10)) :=
  Execution.run (step recordingHandler) (init (fresh _ 4) [])
    (arrivalAfter timestamp ++ wholeCleanup)

def gapFreeState : RecordingSystem (Chunk 1 10) := (arrivedState 110).get (by decide +kernel)

theorem run_progress_iff_gapFree : Progress gapFreeState :=
  (run_progress_iff (Chunk.timestampOrder 1 10).consistent (fun _ _ => rfl)
    (represents_fresh (by decide) (by decide)) .nil nofun recordingHandler
    (arrivalAfter 110 ++ wholeCleanup) gapFreeState
    (Execution.stepsMeet_of_checkSteps (fun _ _ => of_decide_eq_true)
      (by decide +kernel : Execution.checkSteps (step recordingHandler)
        (fun s a => decide (AcceptedIncreasing s a)) _ _ = true))
    (Execution.stepsMeet_of_checkSteps (fun _ _ => of_decide_eq_true)
      (by decide +kernel : Execution.checkSteps (step recordingHandler)
        (fun s a => decide (AcceptedFits s a)) _ _ = true))
    (Option.some_get _).symm (by decide +kernel) (by decide +kernel) (by decide +kernel)
    ⟨⟨110⟩, ⟨1, by decide +kernel⟩, by decide +kernel⟩).mpr
    ⟨by decide +kernel, ⟨110⟩, ⟨1, by decide +kernel⟩, by decide +kernel⟩

def gapState : RecordingSystem (Chunk 1 10) := (arrivedState 130).get (by decide +kernel)

theorem not_progress_of_gap :
    ¬ ∀ (handler : RequestHandler) (as : List (RecordingAction (Chunk 1 10)))
        (s : RecordingSystem (Chunk 1 10)),
        Execution.StepsMeet (step handler) AcceptedIncreasing (init (fresh _ 4) []) as →
        Execution.run (step handler) (init (fresh _ 4) []) as = some s →
        s.recording = true → s.recorder = .outer → Alone s → s.nextTimestampToRecord ≠ 0 →
        (∃ x, Holds s x ∧ s.nextTimestampToRecord ≤ getTimestamp x) → Progress s := by
  intro h
  have hincreasing : Execution.StepsMeet (step recordingHandler) AcceptedIncreasing
      (init (fresh (Chunk 1 10) 4) []) (arrivalAfter 130 ++ wholeCleanup) :=
    Execution.stepsMeet_of_checkSteps (fun _ _ => of_decide_eq_true)
      (by decide +kernel : Execution.checkSteps (step recordingHandler)
        (fun s a => decide (AcceptedIncreasing s a)) _ _ = true)
  have hfits : Execution.StepsMeet (step recordingHandler) AcceptedFits
      (init (fresh (Chunk 1 10) 4) []) (arrivalAfter 130 ++ wholeCleanup) :=
    Execution.stepsMeet_of_checkSteps (fun _ _ => of_decide_eq_true)
      (by decide +kernel : Execution.checkSteps (step recordingHandler)
        (fun s a => decide (AcceptedFits s a)) _ _ = true)
  have hrun : arrivedState 130 = some gapState := (Option.some_get _).symm
  have hascending := run_ascending (represents_fresh (by decide) (by decide)) .nil nofun
    hincreasing hfits hrun
  have houter : gapState.recorder = .outer := by decide +kernel
  have halone : Alone gapState := by decide +kernel
  have hnext : gapState.nextTimestampToRecord ≠ 0 := by decide +kernel
  have hdata : ∃ x, Holds gapState x ∧ gapState.nextTimestampToRecord ≤ getTimestamp x :=
    ⟨⟨130⟩, ⟨1, by decide +kernel⟩, by decide +kernel⟩
  have hprogress := h recordingHandler _ gapState hincreasing hrun (by decide +kernel) houter
    halone hnext hdata
  -- the front, which begins at 130, is above the searched 110
  have hfront := ((progress_iff (Chunk.timestampOrder 1 10).consistent hascending.positions
    hascending.sorted halone houter hnext (fun _ _ => rfl) hascending.fits hdata).mp hprogress).1
  exact absurd hfront (by decide +kernel)

end Examples
end DataHandling.RecordingSystem
