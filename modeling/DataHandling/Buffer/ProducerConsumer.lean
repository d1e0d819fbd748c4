import DataHandling.Buffer.QueueContents
import DataHandling.Foundation.Execution

/-! One producer and one consumer on a ring. Each load and store of an index and each
construction, move and destruction of a record is a step of its own, and the steps of the two
threads come in any order. -/

namespace DataHandling
open MachineInt Cyclic IterableQueueModel

/-- Where the producer is in `write` or `occupancy`, with the values it has loaded. -/
inductive Producer (T : Type) where
  | idle
  | writeIndexLoaded (record : T) (currentWrite : ℕ)
  | slotClaimed (record : T) (currentWrite nextRecord : ℕ)
  | constructed (record : T) (nextRecord : ℕ)
  | full
  | occupancyWriteLoaded (write : ℕ)
  | occupancyReadLoaded (read : ℕ)
  | counted (n : ℕ)

/-- Where the consumer is in `read`, `popFront`, `front` or `occupancy`; `aborted` after a failed
assertion or an access to raw memory. -/
inductive Consumer (T : Type) where
  | idle
  | readIndexLoaded (currentRead : ℕ)
  | readReady (currentRead nextRecord : ℕ)
  | moved (currentRead nextRecord : ℕ) (record : T)
  | popIndexLoaded (currentRead : ℕ)
  | popReady (currentRead nextRecord : ℕ)
  | destroyed (nextRecord : ℕ) (record : T)
  | frontIndexLoaded (currentRead : ℕ)
  | occupancyWriteLoaded (write : ℕ)
  | occupancyReadLoaded (read : ℕ)
  | counted (n : ℕ)
  | aborted

/-- The ring and its two threads: how many elements the consumer knows to be stored, the slot
that `front()` last returned with the element found in it, and the elements accepted and removed
so far. -/
structure ProducerConsumer (T : Type) where
  queue : IterableQueueModel T
  producer : Producer T
  consumer : Consumer T
  seen : ℕ
  frontPointer : Option (ℕ × Option T)
  accepted : List T
  removed : List T

/-- A call by one of the threads, or the next step of the call it is in. The two loads of
`occupancy` may be made in either order. -/
inductive ThreadAction (T : Type) where
  | write (record : T)
  | producerOccupancy (writeFirst : Bool)
  | producer
  | read
  | popFront
  | front
  | consumerOccupancy (writeFirst : Bool)
  | consumer

namespace ProducerConsumer
variable {T : Type}

def init (T : Type) (size : ℕ) : ProducerConsumer T where
  queue := fresh T size
  producer := .idle
  consumer := .idle
  seen := 0
  frontPointer := none
  accepted := []
  removed := []

def occupancyOf (q : IterableQueueModel T) (read write : ℕ) : ℕ :=
  IterableQueueModel.occupancy { q with readIndex := read, writeIndex := write }

def setSlot (q : IterableQueueModel T) (j : ℕ) (record : Option T) : IterableQueueModel T :=
  { q with records := Function.update q.records j record }

/-- A call of `write`, up to the load of the write index. -/
def startWrite (s : ProducerConsumer T) (record : T) : Option (ProducerConsumer T) :=
  match s.producer with
  | .idle => some { s with producer := .writeIndexLoaded record s.queue.writeIndex }
  | _ => none

def startProducerOccupancy (s : ProducerConsumer T) (writeFirst : Bool) :
    Option (ProducerConsumer T) :=
  match s.producer with
  | .idle => some { s with
      producer := if writeFirst then .occupancyWriteLoaded s.queue.writeIndex
        else .occupancyReadLoaded s.queue.readIndex }
  | _ => none

def stepProducer (s : ProducerConsumer T) : Option (ProducerConsumer T) :=
  match s.producer with
  | .idle => none
  | .writeIndexLoaded record currentWrite =>
    let next := s.queue.nextRecord currentWrite
    some { s with
      producer := if next ≠ s.queue.readIndex then .slotClaimed record currentWrite next
        else .full }
  | .slotClaimed record currentWrite next =>
    some { s with
      queue := setSlot s.queue currentWrite (some record)
      producer := .constructed record next }
  | .constructed record next =>
    some { s with
      queue := { s.queue with writeIndex := next }
      producer := .idle
      accepted := s.accepted ++ [record] }
  | .full => some { s with queue := s.queue.overflow, producer := .idle }
  | .occupancyWriteLoaded write =>
    some { s with producer := .counted (occupancyOf s.queue s.queue.readIndex write) }
  | .occupancyReadLoaded readIndex =>
    some { s with producer := .counted (occupancyOf s.queue readIndex s.queue.writeIndex) }
  | .counted _ => some { s with producer := .idle }

/-- A call of `read`, `popFront` or `front`, up to the load of the read index. -/
def startConsumer (s : ProducerConsumer T) (call : ℕ → Consumer T) :
    Option (ProducerConsumer T) :=
  match s.consumer with
  | .idle => some { s with consumer := call s.queue.readIndex }
  | _ => none

def startConsumerOccupancy (s : ProducerConsumer T) (writeFirst : Bool) :
    Option (ProducerConsumer T) :=
  match s.consumer with
  | .idle => some { s with
      consumer := if writeFirst then .occupancyWriteLoaded s.queue.writeIndex
        else .occupancyReadLoaded s.queue.readIndex }
  | _ => none

/-- The record in a slot is destroyed; a slot of raw memory has no record to destroy. -/
def destroy (s : ProducerConsumer T) (currentRead next : ℕ) (record : Option T) :
    ProducerConsumer T :=
  match record with
  | none => { s with consumer := .aborted }
  | some x => { s with
      queue := setSlot s.queue currentRead none
      consumer := .destroyed next x
      frontPointer := none }

variable (movedFrom : T → T)

def stepConsumer (s : ProducerConsumer T) : Option (ProducerConsumer T) :=
  match s.consumer with
  | .idle | .aborted => none
  | .readIndexLoaded currentRead =>
    some { s with
      consumer := if currentRead = s.queue.writeIndex then .idle
        else .readReady currentRead (s.queue.nextRecord currentRead) }
  | .readReady currentRead next =>
    match s.queue.records currentRead with
    | none => some { s with consumer := .aborted }
    | some x => some { s with
        queue := setSlot s.queue currentRead (some (movedFrom x))
        consumer := .moved currentRead next x
        frontPointer := none }
  | .moved currentRead next x =>
    some (s.destroy currentRead next ((s.queue.records currentRead).map fun _ => x))
  | .popIndexLoaded currentRead =>
    some { s with
      consumer := if currentRead ≠ s.queue.writeIndex then
        .popReady currentRead (s.queue.nextRecord currentRead) else .aborted }
  | .popReady currentRead next =>
    some (s.destroy currentRead next (s.queue.records currentRead))
  | .destroyed next x =>
    some { s with
      queue := { s.queue with readIndex := next }
      consumer := .idle
      seen := s.seen - 1
      removed := s.removed ++ [x] }
  | .frontIndexLoaded currentRead =>
    if currentRead = s.queue.writeIndex then some { s with consumer := .idle }
    else some { s with
      consumer := .idle
      seen := max s.seen 1
      frontPointer := some (currentRead, s.queue.records currentRead) }
  | .occupancyWriteLoaded write =>
    let n := occupancyOf s.queue s.queue.readIndex write
    some { s with consumer := .counted n, seen := max s.seen n }
  | .occupancyReadLoaded readIndex =>
    let n := occupancyOf s.queue readIndex s.queue.writeIndex
    some { s with consumer := .counted n, seen := max s.seen n }
  | .counted _ => some { s with consumer := .idle }

/-- The steps of both threads. The consumer calls `popFront` while it knows of an element. -/
def step (s : ProducerConsumer T) : ThreadAction T → Option (ProducerConsumer T)
  | .write record => s.startWrite record
  | .producerOccupancy writeFirst => s.startProducerOccupancy writeFirst
  | .producer => s.stepProducer
  | .read => s.startConsumer .readIndexLoaded
  | .popFront => if 0 < s.seen then s.startConsumer .popIndexLoaded else none
  | .front => s.startConsumer .frontIndexLoaded
  | .consumerOccupancy writeFirst => s.startConsumerOccupancy writeFirst
  | .consumer => stepConsumer movedFrom s

end ProducerConsumer

section Phases
variable {T : Type}

def Producer.pending : Producer T → IterableQueueModel T → IterableQueueModel T
  | .constructed record _, q => ProducerConsumer.setSlot q q.writeIndex (some record)
  | _, q => q

def Consumer.pending (movedFrom : T → T) :
    Consumer T → IterableQueueModel T → IterableQueueModel T
  | .moved _ _ x, q => ProducerConsumer.setSlot q q.readIndex (some (movedFrom x))
  | .destroyed _ _, q => ProducerConsumer.setSlot q q.readIndex none
  | _, q => q

def Consumer.removing : Consumer T → Bool
  | .moved _ _ _ | .destroyed _ _ => true
  | _ => false

/-- What the values loaded by the producer still say about a ring that holds `xs`. -/
def ProducerOk (q : IterableQueueModel T) (xs : List T) : Producer T → Prop
  | .idle | .full => True
  | .writeIndexLoaded _ write => write = q.writeIndex
  | .slotClaimed _ write next =>
    write = q.writeIndex ∧ next = q.nextRecord q.writeIndex ∧ xs.length + 1 < q.size
  | .constructed _ next => next = q.nextRecord q.writeIndex ∧ xs.length + 1 < q.size
  | .occupancyWriteLoaded write => write = q.writeIndex
  | .occupancyReadLoaded readIndex =>
    readIndex < q.size ∧ xs.length ≤ distance q.size readIndex q.writeIndex
  | .counted n => xs.length ≤ n

/-- What the values loaded by the consumer still say about a ring that holds `xs`. -/
def ConsumerOk (q : IterableQueueModel T) (xs : List T) : Consumer T → Prop
  | .idle => True
  | .readIndexLoaded readIndex | .frontIndexLoaded readIndex => readIndex = q.readIndex
  | .popIndexLoaded readIndex => readIndex = q.readIndex ∧ xs ≠ []
  | .readReady readIndex next | .popReady readIndex next =>
    readIndex = q.readIndex ∧ next = q.nextRecord q.readIndex ∧ xs ≠ []
  | .moved readIndex next x =>
    readIndex = q.readIndex ∧ next = q.nextRecord q.readIndex ∧ xs.head? = some x
  | .destroyed next x => next = q.nextRecord q.readIndex ∧ xs.head? = some x
  | .occupancyReadLoaded readIndex => readIndex = q.readIndex
  | .occupancyWriteLoaded write =>
    write < q.size ∧ distance q.size q.readIndex write ≤ xs.length
  | .counted n => n ≤ xs.length
  | .aborted => False

end Phases

namespace ProducerConsumer
variable {T : Type}

section Slots
variable (q : IterableQueueModel T) (j : ℕ) (record : Option T)

@[simp] theorem setSlot_size : (setSlot q j record).size = q.size := rfl
@[simp] theorem setSlot_readIndex : (setSlot q j record).readIndex = q.readIndex := rfl
@[simp] theorem setSlot_writeIndex : (setSlot q j record).writeIndex = q.writeIndex := rfl
@[simp] theorem setSlot_nextRecord (i : ℕ) :
    (setSlot q j record).nextRecord i = q.nextRecord i := rfl
@[simp] theorem setSlot_records_self : (setSlot q j record).records j = record :=
  Function.update_self ..

theorem setSlot_records_of_ne {i : ℕ} (h : i ≠ j) : (setSlot q j record).records i = q.records i :=
  Function.update_of_ne h ..

@[simp] theorem setSlot_setSlot (record' : Option T) :
    setSlot (setSlot q j record) j record' = setSlot q j record' := by
  simp [setSlot]

theorem setSlot_comm {i : ℕ} (h : i ≠ j) (record' : Option T) :
    setSlot (setSlot q j record) i record' = setSlot (setSlot q i record') j record := by
  simp only [setSlot, Function.update_comm h]

end Slots

section Pending
variable (movedFrom : T → T) (p : Producer T) (c : Consumer T) (q : IterableQueueModel T)

@[simp] theorem producer_pending_size : (p.pending q).size = q.size := by
  cases p <;> rfl

@[simp] theorem producer_pending_readIndex : (p.pending q).readIndex = q.readIndex := by
  cases p <;> rfl

@[simp] theorem producer_pending_writeIndex : (p.pending q).writeIndex = q.writeIndex := by
  cases p <;> rfl

@[simp] theorem consumer_pending_size : (c.pending movedFrom q).size = q.size := by
  cases c <;> rfl

@[simp] theorem consumer_pending_readIndex : (c.pending movedFrom q).readIndex = q.readIndex := by
  cases c <;> rfl

@[simp] theorem consumer_pending_writeIndex :
    (c.pending movedFrom q).writeIndex = q.writeIndex := by
  cases c <;> rfl

theorem producer_pending_records {j : ℕ} (h : j ≠ q.writeIndex) :
    (p.pending q).records j = q.records j := by
  cases p <;> first | rfl | exact setSlot_records_of_ne _ _ _ h

theorem consumer_pending_records {j : ℕ} (h : j ≠ q.readIndex) :
    (c.pending movedFrom q).records j = q.records j := by
  cases c <;> first | rfl | exact setSlot_records_of_ne _ _ _ h

theorem consumer_pending_setSlot {j : ℕ} (h : j ≠ q.readIndex) (record : Option T) :
    setSlot (c.pending movedFrom q) j record = c.pending movedFrom (setSlot q j record) := by
  cases c <;> first | rfl | exact setSlot_comm _ _ _ h _

theorem nextRecord_congr {q q' : IterableQueueModel T} (h : q.size = q'.size) (i : ℕ) :
    q.nextRecord i = q'.nextRecord i := by
  simp only [nextRecord, h]

end Pending

/-- The elements that the two threads agree on: `ring` is the queue without the changes that a
call in progress has made to a slot, and it holds `xs`. -/
structure Holds (movedFrom : T → T) (s : ProducerConsumer T) (ring : IterableQueueModel T)
    (xs : List T) : Prop where
  represents : Represents ring xs
  size_lt : ring.size < 2147483648
  queue_eq : s.queue = s.consumer.pending movedFrom (s.producer.pending ring)
  producer : ProducerOk ring xs s.producer
  consumer : ConsumerOk ring xs s.consumer
  seen_le : s.seen ≤ xs.length
  pointer : ∀ p ∈ s.frontPointer,
    p.1 = ring.readIndex ∧ p.2.isSome ∧ p.2 = xs.head? ∧ s.consumer.removing = false
  accepted_eq : s.accepted = s.removed ++ xs

section Holds
variable {movedFrom : T → T} {s : ProducerConsumer T} {ring : IterableQueueModel T} {x : T}
  {xs : List T}

theorem consumer_pending_of_not_removing {c : Consumer T} (h : c.removing = false)
    (q : IterableQueueModel T) : c.pending movedFrom q = q := by
  cases c <;> first | rfl | cases h

section Facts
variable (h : Holds movedFrom s ring xs)
include h

theorem Holds.size_eq : s.queue.size = ring.size := by
  rw [h.queue_eq, consumer_pending_size, producer_pending_size]

theorem Holds.readIndex_eq : s.queue.readIndex = ring.readIndex := by
  rw [h.queue_eq, consumer_pending_readIndex, producer_pending_readIndex]

theorem Holds.writeIndex_eq : s.queue.writeIndex = ring.writeIndex := by
  rw [h.queue_eq, consumer_pending_writeIndex, producer_pending_writeIndex]

theorem Holds.nextRecord_eq (i : ℕ) : s.queue.nextRecord i = ring.nextRecord i :=
  nextRecord_congr h.size_eq i

theorem Holds.indices_ne (hne : xs ≠ []) : ring.readIndex ≠ ring.writeIndex := fun heq =>
  hne (h.represents.readIndex_eq_writeIndex_iff.mp heq)

theorem Holds.ne_nil_of_removing (hrem : s.consumer.removing = true) : xs ≠ [] := by
  have hok := h.consumer
  rintro rfl
  revert hrem hok
  cases s.consumer with
  | moved r next x =>
    rintro - ⟨-, -, hx⟩
    cases hx
  | destroyed next x =>
    rintro - ⟨-, hx⟩
    cases hx
  | _ => exact nofun

theorem Holds.records_readIndex (hne : xs ≠ []) (hrem : s.consumer.removing = false) :
    s.queue.records ring.readIndex = xs.head? := by
  rw [h.queue_eq, consumer_pending_of_not_removing hrem,
    producer_pending_records _ _ (h.indices_ne hne), ← h.represents.front_records,
    h.represents.front_eq, if_neg hne, Option.bind_some]

theorem Holds.records_writeIndex (hpend : s.producer.pending ring = ring) :
    s.queue.records ring.writeIndex = none := by
  have hfree := h.represents.records_writeIndex
  rw [h.queue_eq, hpend]
  cases hrem : s.consumer.removing with
  | true =>
    rw [consumer_pending_records _ _ _ (h.indices_ne (h.ne_nil_of_removing hrem)).symm, hfree]
  | false => rw [consumer_pending_of_not_removing hrem, hfree]

theorem Holds.length_eq : s.accepted.length - s.removed.length = xs.length := by
  rw [h.accepted_eq, List.length_append, Nat.add_sub_cancel_left]

theorem Holds.producerTo {p : Producer T} (hpend : s.producer.pending ring = p.pending ring)
    (hok : ProducerOk ring xs p) : Holds movedFrom { s with producer := p } ring xs :=
  { h with
    queue_eq := by
      rw [← hpend]
      exact h.queue_eq
    producer := hok }

theorem Holds.consumerTo {c : Consumer T} {seen : ℕ} (hrem : s.consumer.removing = false)
    (hrem' : c.removing = false) (hok : ConsumerOk ring xs c) (hseen : seen ≤ xs.length) :
    Holds movedFrom { s with consumer := c, seen := seen } ring xs :=
  { h with
    queue_eq := by
      have hqueue := h.queue_eq
      rw [consumer_pending_of_not_removing hrem] at hqueue
      rwa [consumer_pending_of_not_removing hrem']
    consumer := hok
    seen_le := hseen
    pointer := fun p hp => by
      obtain ⟨h1, h2, h3, -⟩ := h.pointer p hp
      exact ⟨h1, h2, h3, hrem'⟩ }

end Facts

theorem Holds.occupancyOf_eq (h : Holds movedFrom s ring xs) {readIndex writeIndex : ℕ}
    (hread : readIndex < ring.size) (hwrite : writeIndex < ring.size) :
    occupancyOf s.queue readIndex writeIndex = distance ring.size readIndex writeIndex := by
  have hsize := h.size_eq
  have hlt := h.size_lt
  unfold occupancyOf
  rw [occupancy_eq_distance, hsize]
  · exact hsize ▸ hread
  · exact hsize ▸ hwrite
  · exact hsize ▸ hlt

theorem Holds.construct (h : Holds movedFrom s ring xs) {record : T} {currentWrite next : ℕ}
    (hp : s.producer = .slotClaimed record currentWrite next) :
    Holds movedFrom { s with
      queue := setSlot s.queue currentWrite (some record)
      producer := .constructed record next } ring xs := by
  have hok := h.producer
  have hqueue := h.queue_eq
  rw [hp] at hok hqueue
  obtain ⟨rfl, hnext, hroom⟩ := hok
  refine { h with
    queue_eq := ?_
    producer := ⟨hnext, hroom⟩ }
  simp only [Producer.pending] at hqueue ⊢
  rw [hqueue]
  cases hrem : s.consumer.removing with
  | false => rw [consumer_pending_of_not_removing hrem, consumer_pending_of_not_removing hrem]
  | true =>
    have hne := h.indices_ne (h.ne_nil_of_removing hrem)
    exact consumer_pending_setSlot _ _ _ hne.symm _

theorem Holds.publish (h : Holds movedFrom s ring xs) {record : T} {next : ℕ}
    (hp : s.producer = .constructed record next) :
    Holds movedFrom { s with
      queue := { s.queue with writeIndex := next }
      producer := .idle
      accepted := s.accepted ++ [record] } (ring.placeBack record) (xs ++ [record]) := by
  have hok := h.producer
  have hqueue := h.queue_eq
  rw [hp] at hok hqueue
  obtain ⟨rfl, hroom⟩ := hok
  have hlen : (xs ++ [record]).length = xs.length + 1 := List.length_append
  have hhead : ∀ x, xs.head? = some x → (xs ++ [record]).head? = some x := by
    intro x hx
    rw [List.head?_append, hx, Option.some_or]
  have hconsumer := h.consumer
  refine {
    represents := h.represents.placeBack record hroom
    size_lt := h.size_lt
    queue_eq := ?_
    producer := trivial
    consumer := ?_
    seen_le := ?_
    pointer := ?_
    accepted_eq := ?_ }
  · rw [hqueue]
    cases s.consumer <;> rfl
  · revert hconsumer
    cases s.consumer with
    | idle => exact id
    | readIndexLoaded r => exact id
    | readReady r n => exact fun hc => ⟨hc.1, hc.2.1, by simp⟩
    | moved r n x => exact fun hc => ⟨hc.1, hc.2.1, hhead x hc.2.2⟩
    | popIndexLoaded r => exact fun hc => ⟨hc.1, by simp⟩
    | popReady r n => exact fun hc => ⟨hc.1, hc.2.1, by simp⟩
    | destroyed n x => exact fun hc => ⟨hc.1, hhead x hc.2⟩
    | frontIndexLoaded r => exact id
    | occupancyWriteLoaded w => exact fun hc => ⟨hc.1, hlen ▸ Nat.le_succ_of_le hc.2⟩
    | occupancyReadLoaded r => exact id
    | counted n =>
      intro hc
      have hle : n ≤ xs.length := hc
      exact Nat.le_trans hle (hlen ▸ Nat.le_succ _)
    | aborted => exact id
  · rw [hlen]
    exact Nat.le_succ_of_le h.seen_le
  · intro p hp
    obtain ⟨h1, h2, h3, h4⟩ := h.pointer p hp
    obtain ⟨x, hx⟩ := Option.isSome_iff_exists.mp h2
    refine ⟨h1, h2, ?_, h4⟩
    rw [hx, hhead x (by rw [← h3, hx])]
  · rw [h.accepted_eq, List.append_assoc]

theorem Holds.overflow (h : Holds movedFrom s ring xs) (hp : s.producer = .full) :
    Holds movedFrom { s with queue := s.queue.overflow, producer := .idle } ring.overflow xs := by
  have hqueue := h.queue_eq
  rw [hp] at hqueue
  refine { h with
    represents := h.represents.overflow
    queue_eq := ?_
    producer := trivial }
  rw [hqueue]
  cases s.consumer <;> rfl

theorem Holds.stepProducer (h : Holds movedFrom s ring xs) {s' : ProducerConsumer T}
    (hs : s.stepProducer = some s') : ∃ ring' xs', Holds movedFrom s' ring' xs' := by
  have hok := h.producer
  have hread := h.readIndex_eq
  have hwrite := h.writeIndex_eq
  unfold ProducerConsumer.stepProducer at hs
  cases hp : s.producer with
  | idle =>
    rw [hp] at hs
    cases hs
  | writeIndexLoaded record currentWrite =>
    rw [hp] at hs hok
    obtain rfl := Option.some.inj hs
    obtain rfl : currentWrite = ring.writeIndex := hok
    refine ⟨ring, xs, h.producerTo ?_ ?_⟩
    · split_ifs <;> rw [hp] <;> rfl
    · split_ifs with hroom
      · rw [hread, h.nextRecord_eq, h.represents.nextRecord_ne_iff] at hroom
        exact ⟨rfl, h.nextRecord_eq _, hroom⟩
      · trivial
  | slotClaimed record currentWrite next =>
    rw [hp] at hs
    obtain rfl := Option.some.inj hs
    exact ⟨ring, xs, h.construct hp⟩
  | constructed record next =>
    rw [hp] at hs
    obtain rfl := Option.some.inj hs
    exact ⟨_, _, h.publish hp⟩
  | full =>
    rw [hp] at hs
    obtain rfl := Option.some.inj hs
    exact ⟨_, _, h.overflow hp⟩
  | occupancyWriteLoaded write =>
    rw [hp] at hs hok
    obtain rfl := Option.some.inj hs
    obtain rfl : write = ring.writeIndex := hok
    refine ⟨ring, xs, h.producerTo (by rw [hp]; rfl) ?_⟩
    rw [hread, h.occupancyOf_eq h.represents.read_lt h.represents.write_lt]
    exact Nat.le_of_eq h.represents.distance_eq.symm
  | occupancyReadLoaded readIndex =>
    rw [hp] at hs hok
    obtain rfl := Option.some.inj hs
    refine ⟨ring, xs, h.producerTo (by rw [hp]; rfl) ?_⟩
    rw [hwrite, h.occupancyOf_eq hok.1 h.represents.write_lt]
    exact hok.2
  | counted n =>
    rw [hp] at hs
    obtain rfl := Option.some.inj hs
    exact ⟨ring, xs, h.producerTo (by rw [hp]; rfl) trivial⟩

theorem Holds.move (h : Holds movedFrom s ring (x :: xs)) {next : ℕ}
    (hc : s.consumer = .readReady ring.readIndex next) :
    Holds movedFrom { s with
      queue := setSlot s.queue ring.readIndex (some (movedFrom x))
      consumer := .moved ring.readIndex next x
      frontPointer := none } ring (x :: xs) := by
  have hok := h.consumer
  have hqueue := h.queue_eq
  rw [hc] at hok hqueue
  refine { h with
    queue_eq := ?_
    consumer := ⟨rfl, hok.2.1, rfl⟩
    pointer := nofun }
  rw [hqueue]
  change _ = setSlot _ _ _
  rw [producer_pending_readIndex]
  rfl

theorem Holds.destroy (h : Holds movedFrom s ring (x :: xs)) {next : ℕ}
    (hnext : next = ring.nextRecord ring.readIndex)
    (hqueue : setSlot s.queue ring.readIndex none =
      setSlot (s.producer.pending ring) ring.readIndex none) :
    Holds movedFrom (s.destroy ring.readIndex next (some x)) ring (x :: xs) := by
  refine { h with
    queue_eq := ?_
    consumer := ⟨hnext, rfl⟩
    pointer := nofun }
  change setSlot s.queue ring.readIndex none = setSlot (s.producer.pending ring) _ none
  rw [hqueue, producer_pending_readIndex]

theorem Holds.release (h : Holds movedFrom s ring (x :: xs)) {next : ℕ}
    (hc : s.consumer = .destroyed next x) :
    Holds movedFrom { s with
      queue := { s.queue with readIndex := next }
      consumer := .idle
      seen := s.seen - 1
      removed := s.removed ++ [x] } ring.dropFront xs := by
  have hok := h.consumer
  have hqueue := h.queue_eq
  rw [hc] at hok hqueue
  obtain ⟨rfl, -⟩ := hok
  have hne := h.indices_ne (List.cons_ne_nil x xs)
  have hlen : (x :: xs).length = xs.length + 1 := rfl
  have hproducer := h.producer
  refine {
    represents := h.represents.dropFront
    size_lt := h.size_lt
    queue_eq := ?_
    producer := ?_
    consumer := trivial
    seen_le := ?_
    pointer := ?_
    accepted_eq := ?_ }
  · simp only [hqueue, Consumer.pending, producer_pending_readIndex]
    cases s.producer with
    | constructed record n =>
      simp only [Producer.pending, setSlot_comm _ _ _ hne]
      rfl
    | _ => rfl
  · revert hproducer
    cases s.producer with
    | idle => exact id
    | full => exact id
    | writeIndexLoaded record w => exact id
    | slotClaimed record w n => exact fun hp => ⟨hp.1, hp.2.1, Nat.lt_of_succ_lt hp.2.2⟩
    | constructed record n => exact fun hp => ⟨hp.1, Nat.lt_of_succ_lt hp.2⟩
    | occupancyWriteLoaded w => exact id
    | occupancyReadLoaded r => exact fun hp => ⟨hp.1, Nat.le_of_succ_le hp.2⟩
    | counted n => exact Nat.le_of_succ_le
  · have := h.seen_le
    rw [hlen] at this
    exact Nat.sub_le_of_le_add this
  · intro p hp
    have := (h.pointer p hp).2.2.2
    rw [hc] at this
    cases this
  · rw [h.accepted_eq, List.append_assoc, List.singleton_append]

section Consumer
variable {s' : ProducerConsumer T}

theorem Holds.readIndexLoaded (h : Holds movedFrom s ring xs) {currentRead : ℕ}
    (hc : s.consumer = .readIndexLoaded currentRead) (hs : stepConsumer movedFrom s = some s') :
    ∃ ring' xs', Holds movedFrom s' ring' xs' := by
  have hok := h.consumer
  have hwrite := h.writeIndex_eq
  have hempty := h.represents.readIndex_eq_writeIndex_iff
  unfold ProducerConsumer.stepConsumer at hs
  rw [hc] at hs hok
  obtain rfl := Option.some.inj hs
  obtain rfl : currentRead = ring.readIndex := hok
  refine ⟨ring, xs, h.consumerTo (by rw [hc]; rfl) (by split_ifs <;> rfl) ?_ h.seen_le⟩
  simp only [hwrite, hempty]
  split_ifs with hxs
  · trivial
  · exact ⟨rfl, h.nextRecord_eq _, hxs⟩

theorem Holds.readReady (h : Holds movedFrom s ring xs) {currentRead next : ℕ}
    (hc : s.consumer = .readReady currentRead next) (hs : stepConsumer movedFrom s = some s') :
    ∃ ring' xs', Holds movedFrom s' ring' xs' := by
  have hok := h.consumer
  unfold ProducerConsumer.stepConsumer at hs
  rw [hc] at hs hok
  obtain ⟨rfl, hnext, hne⟩ := hok
  obtain ⟨x, ys, rfl⟩ := List.exists_cons_of_ne_nil hne
  have hslot := h.records_readIndex hne (by rw [hc]; rfl)
  simp only [hslot] at hs
  obtain rfl := Option.some.inj hs
  exact ⟨_, _, h.move hc⟩

theorem Holds.moved (h : Holds movedFrom s ring xs) {currentRead next : ℕ} {x : T}
    (hc : s.consumer = .moved currentRead next x) (hs : stepConsumer movedFrom s = some s') :
    ∃ ring' xs', Holds movedFrom s' ring' xs' := by
  have hok := h.consumer
  unfold ProducerConsumer.stepConsumer at hs
  rw [hc] at hs hok
  obtain ⟨rfl, hnext, hx⟩ := hok
  have hqueue := h.queue_eq
  rw [hc] at hqueue
  obtain ⟨ys, rfl⟩ := List.head?_eq_some_iff.mp hx
  have hslot : s.queue.records ring.readIndex = some (movedFrom x) := by
    rw [hqueue]
    change (setSlot _ _ _).records _ = _
    rw [producer_pending_readIndex, setSlot_records_self]
  simp only [hslot] at hs
  obtain rfl := Option.some.inj hs
  refine ⟨_, _, h.destroy hnext ?_⟩
  rw [hqueue]
  change setSlot (setSlot _ _ _) _ _ = _
  rw [producer_pending_readIndex, setSlot_setSlot]

theorem Holds.popIndexLoaded (h : Holds movedFrom s ring xs) {currentRead : ℕ}
    (hc : s.consumer = .popIndexLoaded currentRead) (hs : stepConsumer movedFrom s = some s') :
    ∃ ring' xs', Holds movedFrom s' ring' xs' := by
  have hok := h.consumer
  have hwrite := h.writeIndex_eq
  unfold ProducerConsumer.stepConsumer at hs
  rw [hc] at hs hok
  obtain rfl := Option.some.inj hs
  obtain ⟨rfl, hne⟩ := hok
  rw [hwrite, if_pos (h.indices_ne hne)]
  exact ⟨ring, xs, h.consumerTo (by rw [hc]; rfl) rfl ⟨rfl, h.nextRecord_eq _, hne⟩ h.seen_le⟩

theorem Holds.popReady (h : Holds movedFrom s ring xs) {currentRead next : ℕ}
    (hc : s.consumer = .popReady currentRead next) (hs : stepConsumer movedFrom s = some s') :
    ∃ ring' xs', Holds movedFrom s' ring' xs' := by
  have hok := h.consumer
  unfold ProducerConsumer.stepConsumer at hs
  rw [hc] at hs hok
  obtain ⟨rfl, hnext, hne⟩ := hok
  obtain ⟨x, ys, rfl⟩ := List.exists_cons_of_ne_nil hne
  have hslot := h.records_readIndex hne (by rw [hc]; rfl)
  have hqueue := h.queue_eq
  rw [hc] at hqueue
  simp only [hslot] at hs
  obtain rfl := Option.some.inj hs
  refine ⟨_, _, h.destroy hnext ?_⟩
  rw [hqueue]
  rfl

theorem Holds.destroyed (h : Holds movedFrom s ring xs) {next : ℕ} {x : T}
    (hc : s.consumer = .destroyed next x) (hs : stepConsumer movedFrom s = some s') :
    ∃ ring' xs', Holds movedFrom s' ring' xs' := by
  have hok := h.consumer
  unfold ProducerConsumer.stepConsumer at hs
  rw [hc] at hs hok
  obtain ⟨ys, rfl⟩ := List.head?_eq_some_iff.mp hok.2
  obtain rfl := Option.some.inj hs
  exact ⟨_, _, h.release hc⟩

theorem Holds.frontIndexLoaded (h : Holds movedFrom s ring xs) {currentRead : ℕ}
    (hc : s.consumer = .frontIndexLoaded currentRead) (hs : stepConsumer movedFrom s = some s') :
    ∃ ring' xs', Holds movedFrom s' ring' xs' := by
  have hok := h.consumer
  have hwrite := h.writeIndex_eq
  have hempty := h.represents.readIndex_eq_writeIndex_iff
  unfold ProducerConsumer.stepConsumer at hs
  rw [hc] at hs hok
  obtain rfl : currentRead = ring.readIndex := hok
  simp only [hwrite] at hs
  split_ifs at hs with hrw
  · obtain rfl := Option.some.inj hs
    exact ⟨ring, xs, h.consumerTo (by rw [hc]; rfl) rfl trivial h.seen_le⟩
  · obtain rfl := Option.some.inj hs
    have hne : xs ≠ [] := fun hxs => hrw (hempty.mpr hxs)
    have hslot := h.records_readIndex hne (by rw [hc]; rfl)
    have hidle := h.consumerTo (c := .idle) (by rw [hc]; rfl) rfl trivial
      (Nat.max_le.mpr ⟨h.seen_le, List.length_pos_iff.mpr hne⟩)
    refine ⟨ring, xs, { hidle with pointer := ?_ }⟩
    intro p hp
    obtain rfl := Option.some.inj hp
    exact ⟨rfl, by rw [hslot, List.isSome_head?]; simpa using hne, hslot, rfl⟩

theorem Holds.occupancyWriteLoaded (h : Holds movedFrom s ring xs) {write : ℕ}
    (hc : s.consumer = .occupancyWriteLoaded write) (hs : stepConsumer movedFrom s = some s') :
    ∃ ring' xs', Holds movedFrom s' ring' xs' := by
  have hok := h.consumer
  have hread := h.readIndex_eq
  unfold ProducerConsumer.stepConsumer at hs
  rw [hc] at hs hok
  obtain rfl := Option.some.inj hs
  have hn : occupancyOf s.queue s.queue.readIndex write ≤ xs.length := by
    rw [hread, h.occupancyOf_eq h.represents.read_lt hok.1]
    exact hok.2
  exact ⟨ring, xs, h.consumerTo (by rw [hc]; rfl) rfl hn (Nat.max_le.mpr ⟨h.seen_le, hn⟩)⟩

theorem Holds.occupancyReadLoaded (h : Holds movedFrom s ring xs) {readIndex : ℕ}
    (hc : s.consumer = .occupancyReadLoaded readIndex) (hs : stepConsumer movedFrom s = some s') :
    ∃ ring' xs', Holds movedFrom s' ring' xs' := by
  have hok := h.consumer
  have hwrite := h.writeIndex_eq
  unfold ProducerConsumer.stepConsumer at hs
  rw [hc] at hs hok
  obtain rfl := Option.some.inj hs
  obtain rfl : readIndex = ring.readIndex := hok
  have hn : occupancyOf s.queue ring.readIndex s.queue.writeIndex ≤ xs.length := by
    rw [hwrite, h.occupancyOf_eq h.represents.read_lt h.represents.write_lt,
      h.represents.distance_eq]
  exact ⟨ring, xs, h.consumerTo (by rw [hc]; rfl) rfl hn (Nat.max_le.mpr ⟨h.seen_le, hn⟩)⟩

theorem Holds.counted (h : Holds movedFrom s ring xs) {n : ℕ}
    (hc : s.consumer = .counted n) (hs : stepConsumer movedFrom s = some s') :
    ∃ ring' xs', Holds movedFrom s' ring' xs' := by
  unfold ProducerConsumer.stepConsumer at hs
  rw [hc] at hs
  obtain rfl := Option.some.inj hs
  exact ⟨ring, xs, h.consumerTo (by rw [hc]; rfl) rfl trivial h.seen_le⟩

theorem Holds.stepConsumer (h : Holds movedFrom s ring xs)
    (hs : stepConsumer movedFrom s = some s') : ∃ ring' xs', Holds movedFrom s' ring' xs' := by
  cases hc : s.consumer with
  | idle =>
    unfold ProducerConsumer.stepConsumer at hs
    rw [hc] at hs
    cases hs
  | aborted =>
    have hok := h.consumer
    rw [hc] at hok
    exact hok.elim
  | readIndexLoaded currentRead => exact h.readIndexLoaded hc hs
  | readReady currentRead next => exact h.readReady hc hs
  | moved currentRead next x => exact h.moved hc hs
  | popIndexLoaded currentRead => exact h.popIndexLoaded hc hs
  | popReady currentRead next => exact h.popReady hc hs
  | destroyed next x => exact h.destroyed hc hs
  | frontIndexLoaded currentRead => exact h.frontIndexLoaded hc hs
  | occupancyWriteLoaded write => exact h.occupancyWriteLoaded hc hs
  | occupancyReadLoaded readIndex => exact h.occupancyReadLoaded hc hs
  | counted n => exact h.counted hc hs

end Consumer

theorem holds_init {size : ℕ} (h2 : 2 ≤ size) (hmax : size ≤ 2147483647) :
    Holds movedFrom (init T size) (fresh T size) [] where
  represents := represents_fresh h2 (by omega)
  size_lt := by
    change size < 2147483648
    omega
  queue_eq := rfl
  producer := trivial
  consumer := trivial
  seen_le := Nat.le_refl 0
  pointer := nofun
  accepted_eq := rfl

theorem Holds.step (h : Holds movedFrom s ring xs) {a : ThreadAction T} {s' : ProducerConsumer T}
    (hs : step movedFrom s a = some s') : ∃ ring' xs', Holds movedFrom s' ring' xs' := by
  cases a with
  | write record =>
    simp only [ProducerConsumer.step, startWrite] at hs
    split at hs
    · next hp =>
      obtain rfl := Option.some.inj hs
      exact ⟨ring, xs, h.producerTo (by rw [hp]; rfl) h.writeIndex_eq⟩
    · cases hs
  | producerOccupancy writeFirst =>
    simp only [ProducerConsumer.step, startProducerOccupancy] at hs
    split at hs
    · next hp =>
      obtain rfl := Option.some.inj hs
      refine ⟨ring, xs, h.producerTo (by rw [hp]; split_ifs <;> rfl) ?_⟩
      split_ifs
      · exact h.writeIndex_eq
      · rw [h.readIndex_eq]
        exact ⟨h.represents.read_lt, Nat.le_of_eq h.represents.distance_eq.symm⟩
    · cases hs
  | producer => exact h.stepProducer hs
  | read | front =>
    simp only [ProducerConsumer.step, startConsumer] at hs
    split at hs
    · next hc =>
      obtain rfl := Option.some.inj hs
      exact ⟨ring, xs, h.consumerTo (by rw [hc]; rfl) rfl h.readIndex_eq h.seen_le⟩
    · cases hs
  | popFront =>
    simp only [ProducerConsumer.step, startConsumer] at hs
    split_ifs at hs with hseen
    split at hs
    · next hc =>
      obtain rfl := Option.some.inj hs
      have hne : xs ≠ [] := List.length_pos_iff.mp (Nat.lt_of_lt_of_le hseen h.seen_le)
      exact ⟨ring, xs, h.consumerTo (by rw [hc]; rfl) rfl ⟨h.readIndex_eq, hne⟩ h.seen_le⟩
    · cases hs
  | consumerOccupancy writeFirst =>
    simp only [ProducerConsumer.step, startConsumerOccupancy] at hs
    split at hs
    · next hc =>
      obtain rfl := Option.some.inj hs
      refine ⟨ring, xs, h.consumerTo (by rw [hc]; rfl) (by split_ifs <;> rfl) ?_ h.seen_le⟩
      split_ifs
      · rw [h.writeIndex_eq]
        exact ⟨h.represents.write_lt, Nat.le_of_eq h.represents.distance_eq⟩
      · exact h.readIndex_eq
    · cases hs
  | consumer => exact h.stepConsumer hs

end Holds

/-- What holds between any two steps of the threads: the removed elements are the first of the
accepted ones and the rest is stored, a claimed slot is free, the element behind the last
`front()` is untouched, and the counts err on the safe side. -/
structure Safe (s : ProducerConsumer T) : Prop where
  removed_prefix : s.removed <+: s.accepted
  stored : s.producer = .idle → s.consumer = .idle →
    Represents s.queue (s.accepted.drop s.removed.length)
  claimed_free : ∀ record currentWrite next,
    s.producer = .slotClaimed record currentWrite next → s.queue.records currentWrite = none
  front_kept : ∀ p ∈ s.frontPointer,
    p.2.isSome ∧ s.queue.records p.1 = p.2 ∧ p.2 = (s.accepted.drop s.removed.length).head?
  consumer_count : ∀ n, s.consumer = .counted n → n ≤ s.accepted.length - s.removed.length
  producer_count : ∀ n, s.producer = .counted n → s.accepted.length - s.removed.length ≤ n
  not_aborted : s.consumer ≠ .aborted

theorem Holds.safe {movedFrom : T → T} {s : ProducerConsumer T} {ring : IterableQueueModel T}
    {xs : List T} (h : Holds movedFrom s ring xs) : s.Safe := by
  have hrest : s.accepted.drop s.removed.length = xs := by
    rw [h.accepted_eq, List.drop_left]
  have hproducer := h.producer
  have hconsumer := h.consumer
  refine {
    removed_prefix := ⟨xs, h.accepted_eq.symm⟩
    stored := ?_
    claimed_free := ?_
    front_kept := ?_
    consumer_count := ?_
    producer_count := ?_
    not_aborted := ?_ }
  · intro hp hc
    have hqueue := h.queue_eq
    rw [hp, hc] at hqueue
    rw [hrest, hqueue]
    exact h.represents
  · intro record currentWrite next hp
    rw [hp] at hproducer
    obtain rfl : currentWrite = ring.writeIndex := hproducer.1
    exact h.records_writeIndex (by rw [hp]; rfl)
  · intro p hp
    obtain ⟨h1, h2, h3, h4⟩ := h.pointer p hp
    have hne : xs ≠ [] := by
      rintro rfl
      rw [h3] at h2
      cases h2
    exact ⟨h2, by rw [h1, h.records_readIndex hne h4, h3], by rw [hrest, h3]⟩
  · intro n hc
    rw [hc] at hconsumer
    rw [h.length_eq]
    exact hconsumer
  · intro n hp
    rw [hp] at hproducer
    rw [h.length_eq]
    exact hproducer
  · intro hc
    rw [hc] at hconsumer
    exact hconsumer

/-- One producer and one consumer are safe on a ring of any size up to `2^31 - 1`, whatever the
order of their steps. -/
theorem run_safe (movedFrom : T → T) {size : ℕ} (h2 : 2 ≤ size) (hmax : size ≤ 2147483647)
    (actions : List (ThreadAction T)) (s : ProducerConsumer T)
    (hrun : Execution.run (step movedFrom) (init T size) actions = some s) : s.Safe := by
  have hholds : ∃ ring xs, Holds movedFrom s ring xs :=
    Execution.run_invariant (I := fun s => ∃ ring xs, Holds movedFrom s ring xs)
      (fun _ _ _ ⟨_, _, h⟩ hs => h.step hs) ⟨_, _, holds_init h2 hmax⟩ hrun
  obtain ⟨ring, xs, h⟩ := hholds
  exact h.safe

/-- The consumer counts and removes while the producer is in the middle of its second write,
which has found the ring of three slots not full. -/
def overlappingActions : List (ThreadAction ℕ) :=
  [.write 5, .producer, .producer, .producer, .write 7, .consumerOccupancy true, .producer,
    .consumer, .consumer, .front, .consumer, .read, .producer, .consumer, .consumer, .producer,
    .consumer, .producerOccupancy false, .consumer, .producer]

theorem run_safe_overlapping : Safe
    ((Execution.run (step id) (init ℕ 3) overlappingActions).get (by decide +kernel)) :=
  run_safe id (by decide) (by decide) overlappingActions _ (Option.some_get _).symm

section Uninterrupted
variable (movedFrom : T → T) (s : ProducerConsumer T)

theorem run_write (hp : s.producer = .idle) (record : T) :
    ∃ actions, Execution.run (step movedFrom) s actions = some { s with
      queue := (s.queue.write record).2
      accepted := if (s.queue.write record).1 then s.accepted ++ [record] else s.accepted } := by
  by_cases hfull : s.queue.nextRecord s.queue.writeIndex = s.queue.readIndex
  · refine ⟨[.write record, .producer, .producer], ?_⟩
    simp [Execution.run, step, startWrite, stepProducer, hp, hfull, write]
  · refine ⟨[.write record, .producer, .producer, .producer], ?_⟩
    simp [Execution.run, step, startWrite, stepProducer, hp, hfull, write, placeBack, setSlot]

theorem run_read (hc : s.consumer = .idle) {x : T}
    (hx : s.queue.readIndex ≠ s.queue.writeIndex → s.queue.records s.queue.readIndex = some x) :
    ∃ actions, Execution.run (step movedFrom) s actions = some (if s.queue.read.1 then { s with
      queue := s.queue.read.2.2
      seen := s.seen - 1
      frontPointer := none
      removed := s.removed ++ [x] } else s) := by
  by_cases hempty : s.queue.readIndex = s.queue.writeIndex
  · refine ⟨[.read, .consumer], ?_⟩
    simp only [Execution.run, step, startConsumer, stepConsumer, hc, hempty,
      IterableQueueModel.read, if_true, Option.bind_some, Bool.false_eq_true, if_false]
    rw [← hc]
  · refine ⟨[.read, .consumer, .consumer, .consumer, .consumer], ?_⟩
    simp [Execution.run, step, startConsumer, stepConsumer, destroy, setSlot, hc, hempty,
      hx hempty, IterableQueueModel.read, dropFront]

theorem run_popFront (hc : s.consumer = .idle) (hseen : 0 < s.seen) {x : T}
    (hx : s.queue.records s.queue.readIndex = some x) {q : IterableQueueModel T}
    (hq : s.queue.popFront = some q) :
    ∃ actions, Execution.run (step movedFrom) s actions = some { s with
      queue := q
      seen := s.seen - 1
      frontPointer := none
      removed := s.removed ++ [x] } := by
  have hne : s.queue.readIndex ≠ s.queue.writeIndex := by
    intro heq
    rw [IterableQueueModel.popFront, if_neg (not_not.mpr heq)] at hq
    cases hq
  rw [IterableQueueModel.popFront, if_pos hne] at hq
  obtain rfl := Option.some.inj hq
  refine ⟨[.popFront, .consumer, .consumer, .consumer], ?_⟩
  simp [Execution.run, step, startConsumer, stepConsumer, destroy, setSlot, hc, hseen, hne, hx,
    dropFront]

end Uninterrupted

end ProducerConsumer
end DataHandling
