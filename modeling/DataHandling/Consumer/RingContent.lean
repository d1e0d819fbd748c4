import DataHandling.Buffer.RingBuffers
import DataHandling.Consumer.ConsumerSystem
import Mathlib.Data.List.Chain

/-! A ring behind the consumer: what it holds of the payloads accepted so far, and how these
follow each other. -/

namespace DataHandling.ConsumerSystem
open ReadoutType IterableQueueModel

variable {LB T P : Type} [LatencyBuffer LB T] [RingBuffer LB T]

/-- An accepted payload stands in a relation to the one accepted before. -/
def FollowsAccepted (R : T → T → Prop) (s : ConsumerSystem LB T P) : ConsumerAction T → Prop
  | .write => ∀ payload ∈ s.phase.payload, (RingBuffer.queue s.latencyBuffer).isFull = false →
      ∀ last ∈ s.accepted.getLast?, R last payload
  | _ => True

instance (R : T → T → Prop) [DecidableRel R] (s : ConsumerSystem LB T P) :
    (a : ConsumerAction T) → Decidable (FollowsAccepted R s a)
  | .write =>
    inferInstanceAs (Decidable (∀ payload ∈ s.phase.payload,
      (RingBuffer.queue s.latencyBuffer).isFull = false →
        ∀ last ∈ s.accepted.getLast?, R last payload))
  | .preprocess _ _ _ | .postprocess | .deferredPass _ | .startCleanup | .popOne _
  | .removeErrors => isTrue trivial

variable [ReadoutType T] {conf : ConsumerConf T P} {s s' : ConsumerSystem LB T P}
  {a : ConsumerAction T}

theorem step_content (h : HoldsNewestOf (RingBuffer.queue s.latencyBuffer) s.accepted)
    (hstep : step conf s a = some s') :
    HoldsNewestOf (RingBuffer.queue s'.latencyBuffer) s'.accepted ∧
      (RingBuffer.queue s'.latencyBuffer).size = (RingBuffer.queue s.latencyBuffer).size := by
  cases step_cases hstep with
  | @write payload callback hphase =>
    have hqueue : RingBuffer.queue (s.write conf payload callback).latencyBuffer =
      ((RingBuffer.queue s.latencyBuffer).write payload).2 :=
        RingBuffer.write_snd s.latencyBuffer payload
    have hfst := RingBuffer.write_fst s.latencyBuffer payload
    have haccepted : (s.write conf payload callback).accepted =
      if (LatencyBuffer.write s.latencyBuffer payload).1 then s.accepted ++ [payload]
        else s.accepted := rfl
    rw [hqueue, haccepted, hfst]
    constructor
    · split_ifs with hwrite
      · exact h.write_accepted payload hwrite
      · exact h.write_rejected payload (Bool.eq_false_iff.mpr hwrite)
    · rw [IterableQueueModel.write]
      split_ifs <;> rfl
  | @popOne ts lb hpop cleanupPhase =>
    have hqueue := RingBuffer.pop_eq s.latencyBuffer 1
    rw [hpop, Option.map_some] at hqueue
    refine ⟨h.pop hqueue.symm, ?_⟩
    obtain ⟨q, hq, hlb⟩ := Option.bind_eq_some_iff.mp hqueue.symm
    rw [popFront] at hq
    split_ifs at hq
    cases hq
    rw [pop, Option.some.injEq] at hlb
    show (RingBuffer.queue lb).size = _
    rw [← hlb, dropFront_size]
  | pass fuel hphase hpass => cases hpass <;> exact ⟨h, rfl⟩
  | preprocess | postprocess | cleanup | removeErrors => exact ⟨h, rfl⟩

theorem step_accepted (hstep : step conf s a = some s') :
    s'.accepted = s.accepted ∨ a = .write ∧ ∃ payload ∈ s.phase.payload,
      (RingBuffer.queue s.latencyBuffer).isFull = false ∧
      s'.accepted = s.accepted ++ [payload] := by
  cases step_cases hstep with
  | @write payload callback hphase =>
    have hfst := RingBuffer.write_fst s.latencyBuffer payload
    cases hwrite : (LatencyBuffer.write s.latencyBuffer payload).1 with
    | true =>
      refine .inr ⟨rfl, payload, by rw [hphase]; rfl, ?_, if_pos hwrite⟩
      exact (write_fst_iff payload).mp (hfst.symm.trans hwrite)
    | false => exact .inl (if_neg (by rw [hwrite]; exact Bool.false_ne_true))
  | pass fuel hphase hpass => cases hpass <;> exact .inl rfl
  | preprocess | postprocess | cleanup | popOne | removeErrors => exact .inl rfl

theorem step_chain {R : T → T → Prop} (h : s.accepted.IsChain R) (hfollows : FollowsAccepted R s a)
    (hstep : step conf s a = some s') : s'.accepted.IsChain R := by
  rcases step_accepted hstep with heq | ⟨rfl, payload, hpayload, hroom, heq⟩
  · rwa [heq]
  · rw [heq, List.isChain_append]
    exact ⟨h, .singleton _, fun last hlast x hx => by
      cases hx
      exact hfollows payload hpayload hroom last hlast⟩

end DataHandling.ConsumerSystem
