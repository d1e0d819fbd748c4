import Mathlib.Data.List.Basic
import Mathlib.Tactic.Common

/-! Filters that turn a stream into another one chunk by chunk, with their decoders, and files that
are written at an offset. -/

/-- A filter with a state: what it puts out for a chunk, and when the stream ends. -/
structure Encoder (α : Type) where
  State : Type
  start : State
  feed : State → List α → State × List α
  finish : State → List α

namespace Encoder
variable {α : Type} (e : Encoder α)

def feedAll : e.State → List (List α) → e.State × List α
  | s, [] => (s, [])
  | s, chunk :: chunks =>
    ((feedAll (e.feed s chunk).1 chunks).1,
      (e.feed s chunk).2 ++ (feedAll (e.feed s chunk).1 chunks).2)

def encode (chunks : List (List α)) : List α :=
  (e.feedAll e.start chunks).2 ++ e.finish (e.feedAll e.start chunks).1

theorem feedAll_concat (s : e.State) (chunks : List (List α)) (chunk : List α) :
    e.feedAll s (chunks ++ [chunk]) =
      ((e.feed (e.feedAll s chunks).1 chunk).1,
        (e.feedAll s chunks).2 ++ (e.feed (e.feedAll s chunks).1 chunk).2) := by
  induction chunks generalizing s with
  | nil =>
    rw [List.nil_append, feedAll, feedAll, feedAll]
    simp only [List.append_nil, List.nil_append]
  | cons first chunks ih =>
    rw [List.cons_append, feedAll, ih, feedAll]
    simp only [List.append_assoc]

end Encoder

/-- An encoder, however the stream is cut into chunks, and a decoder that inverts it. -/
structure FilterPair (α : Type) extends Encoder α where
  decode : List α → List α
  lossless : ∀ chunks, decode (toEncoder.encode chunks) = chunks.flatten

namespace FilterPair
variable {α : Type}

theorem feedAll_stateless (put : List α → List α) (finish : Unit → List α)
    (chunks : List (List α)) :
    (Encoder.feedAll ⟨Unit, (), fun _ chunk => ((), put chunk), finish⟩ () chunks).2 =
      chunks.flatMap put := by
  induction chunks with
  | nil => rfl
  | cons chunk chunks ih =>
    rw [Encoder.feedAll, ih]
    rfl

def identity : FilterPair α where
  State := Unit
  start := ()
  feed _ chunk := ((), chunk)
  finish _ := []
  decode := id
  lossless chunks := by
    rw [Encoder.encode, feedAll_stateless, List.append_nil, List.flatMap_id']
    rfl

def unmark : List UInt8 → List UInt8
  | 1 :: b :: bytes => b :: unmark bytes
  | _ => []

theorem unmark_append (bytes rest : List UInt8) :
    unmark (bytes.flatMap (fun b => [1, b]) ++ 0 :: rest) = bytes := by
  induction bytes with
  | nil => rfl
  | cons b bytes ih =>
    rw [List.flatMap_cons, List.append_assoc]
    exact congrArg (b :: ·) ih

def marked : FilterPair UInt8 where
  State := Unit
  start := ()
  feed _ chunk := ((), chunk.flatMap fun b => [1, b])
  finish _ := [0]
  decode := unmark
  lossless chunks := by
    have hput : chunks.flatMap (List.flatMap fun b => [1, b]) =
        chunks.flatten.flatMap fun b => [1, b] := by
      rw [← List.flatMap_id, List.flatMap_assoc]
      rfl
    rw [Encoder.encode, feedAll_stateless, hput, unmark_append]

end FilterPair

namespace StoredFile
variable {α : Type*}

def writeAt (contents : List α) (offset : ℕ) (bytes : List α) : List α :=
  contents.take offset ++ bytes ++ contents.drop (offset + bytes.length)

theorem writeAt_zero (base bytes : List α) :
    writeAt base 0 bytes = bytes ++ base.drop bytes.length := by
  rw [writeAt, List.take_zero, List.nil_append, Nat.zero_add]

theorem writeAt_nil (base : List α) : writeAt base 0 [] = base := writeAt_zero base []

theorem writeAt_writeAt (base xs ys : List α) :
    writeAt (writeAt base 0 xs) xs.length ys = writeAt base 0 (xs ++ ys) := by
  rw [writeAt_zero, writeAt_zero, writeAt, List.take_left, List.drop_length_add_append,
    List.drop_drop, List.length_append, List.append_assoc]

end StoredFile
