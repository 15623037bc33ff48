import Mathlib.Data.List.Basic

/-!
# Input in chunks

A consumer reads a stream of items in pieces of exact lengths, each of which may depend
on what it has read before.  The items arrive in chunks; a read is carried out when as
many items are buffered as it asks for.  What has been read, and what is left in the
buffer, depends on the items that have arrived and not on their chunks.
-/

namespace StacksApi.Transition

universe u v w

/-- What is asked for in a state, and what is done with it. -/
structure Consumer (σ : Type u) (α : Type v) (Out : Type w) where
  demand : σ → Option Nat
  receive : σ → List α → σ × List Out

/-- A consumer with the items that it has not read yet. -/
structure Feed (σ : Type u) (α : Type v) (Out : Type w) where
  state : σ
  buffered : List α
  produced : List Out
  deriving DecidableEq

namespace Feed

variable {σ : Type u} {α : Type v} {Out : Type w}

/-- A chunk arrives behind what is buffered. -/
def push (feed : Feed σ α Out) (chunk : List α) : Feed σ α Out :=
  { feed with buffered := feed.buffered ++ chunk }

variable (consumer : Consumer σ α Out)

/-- One read, when enough is buffered.  A read of no items waits for ever. -/
def read (feed : Feed σ α Out) : Option (Feed σ α Out) :=
  match consumer.demand feed.state with
  | none => none
  | some length =>
      if 0 < length ∧ length ≤ feed.buffered.length then
        let (state, produced) := consumer.receive feed.state (feed.buffered.take length)
        some { state, buffered := feed.buffered.drop length, produced := feed.produced ++ produced }
      else none

/-- At most `fuel` reads. -/
def readUpTo : Nat → Feed σ α Out → Feed σ α Out
  | 0, feed => feed
  | fuel + 1, feed =>
      match feed.read consumer with
      | none => feed
      | some next => readUpTo fuel next

/-- All reads that what is buffered allows. -/
def settle (feed : Feed σ α Out) : Feed σ α Out :=
  feed.readUpTo consumer feed.buffered.length

/-- The arrival of a chunk. -/
def arrive (feed : Feed σ α Out) (chunk : List α) : Feed σ α Out :=
  (feed.push chunk).settle consumer

variable {consumer} {feed next : Feed σ α Out}

@[simp]
theorem push_nil : feed.push [] = feed := by
  rw [push, List.append_nil]

@[simp]
theorem push_push (first second : List α) :
    (feed.push first).push second = feed.push (first ++ second) := by
  rw [push, push, push, List.append_assoc]

theorem read_of_demand {length : Nat} (demand : consumer.demand feed.state = some length)
    (positive : 0 < length) (enough : length ≤ feed.buffered.length) :
    feed.read consumer =
      some { state := (consumer.receive feed.state (feed.buffered.take length)).1
             buffered := feed.buffered.drop length
             produced := feed.produced ++
               (consumer.receive feed.state (feed.buffered.take length)).2 } := by
  rw [read, demand]
  exact if_pos ⟨positive, enough⟩

/-- Too little is buffered. -/
theorem read_of_short {length : Nat} (demand : consumer.demand feed.state = some length)
    (short : feed.buffered.length < length) : feed.read consumer = none := by
  rw [read, demand]
  exact if_neg (by omega)

/-- What a read needs. -/
theorem exists_demand_of_read (reads : feed.read consumer = some next) :
    ∃ length, consumer.demand feed.state = some length ∧ 0 < length ∧
      length ≤ feed.buffered.length := by
  rw [read] at reads
  split at reads
  · cases reads
  · next length demand =>
      split at reads
      · next enough => exact ⟨length, demand, enough⟩
      · cases reads

/-- A read does not depend on what arrives after it. -/
theorem read_push (reads : feed.read consumer = some next) (chunk : List α) :
    (feed.push chunk).read consumer = some (next.push chunk) := by
  obtain ⟨length, demand, positive, enough⟩ := exists_demand_of_read reads
  have more : length ≤ (feed.push chunk).buffered.length := by
    rw [push, List.length_append]
    omega
  rw [read_of_demand demand positive enough, Option.some.injEq] at reads
  rw [read_of_demand (show consumer.demand (feed.push chunk).state = some length from demand)
    positive more, ← reads]
  simp only [push, List.take_append_of_le_length enough, List.drop_append_of_le_length enough]

theorem length_of_read (reads : feed.read consumer = some next) :
    next.buffered.length < feed.buffered.length := by
  obtain ⟨length, demand, positive, enough⟩ := exists_demand_of_read reads
  rw [read_of_demand demand positive enough, Option.some.injEq] at reads
  rw [← reads, List.length_drop]
  omega

/-- More fuel than there are items changes nothing. -/
theorem readUpTo_eq_settle {fuel : Nat} (enough : feed.buffered.length ≤ fuel) :
    feed.readUpTo consumer fuel = feed.settle consumer := by
  have same : ∀ fuel other, ∀ feed : Feed σ α Out, feed.buffered.length ≤ fuel →
      feed.buffered.length ≤ other →
        feed.readUpTo consumer fuel = feed.readUpTo consumer other := by
    intro fuel
    induction fuel with
    | zero =>
        intro other feed empty _
        cases other with
        | zero => rfl
        | succ other =>
            cases reads : feed.read consumer with
            | none => rw [readUpTo, readUpTo, reads]
            | some next => exact absurd (length_of_read reads) (by omega)
    | succ fuel ih =>
        intro other feed enough otherEnough
        cases reads : feed.read consumer with
        | none =>
            cases other with
            | zero => rw [readUpTo, readUpTo, reads]
            | succ other => rw [readUpTo, readUpTo, reads]
        | some next =>
            have shorter := length_of_read reads
            cases other with
            | zero => omega
            | succ other =>
                rw [readUpTo, readUpTo, reads]
                exact ih other next (by omega) (by omega)
  exact same fuel _ feed enough (Nat.le_refl _)

/-- Nothing more can be read. -/
theorem settle_of_waiting (waiting : feed.read consumer = none) : feed.settle consumer = feed := by
  rw [← readUpTo_eq_settle (Nat.le_succ _), readUpTo, waiting]

theorem settle_of_read (reads : feed.read consumer = some next) :
    feed.settle consumer = next.settle consumer := by
  have shorter := length_of_read reads
  rw [← readUpTo_eq_settle (Nat.le_succ _), readUpTo, reads]
  exact readUpTo_eq_settle (by omega)

/-- The items that are asked for stand at the front of the buffer. -/
theorem settle_of_front {items rest : List α}
    (demand : consumer.demand feed.state = some items.length) (nonempty : items ≠ [])
    (buffered : feed.buffered = items ++ rest) :
    feed.settle consumer =
      settle consumer
        { state := (consumer.receive feed.state items).1
          buffered := rest
          produced := feed.produced ++ (consumer.receive feed.state items).2 } := by
  have enough : items.length ≤ feed.buffered.length := by
    rw [buffered, List.length_append]
    omega
  have reads := read_of_demand demand (List.length_pos_of_ne_nil nonempty) enough
  rw [buffered, List.take_left, List.drop_left] at reads
  exact settle_of_read reads

/-- What arrives after all possible reads could have arrived before them. -/
theorem settle_push_settle (chunk : List α) :
    ((feed.settle consumer).push chunk).settle consumer = (feed.push chunk).settle consumer := by
  induction count : feed.buffered.length using Nat.strongRecOn generalizing feed with
  | ind count ih =>
      cases reads : feed.read consumer with
      | none => rw [settle_of_waiting reads]
      | some next =>
          have shorter := length_of_read reads
          rw [settle_of_read reads, settle_of_read (read_push reads chunk)]
          exact ih next.buffered.length (by omega) rfl

/-- Chunks that arrive one after the other are read like one chunk. -/
theorem foldl_arrive (chunks : List (List α)) :
    chunks.foldl (arrive consumer) (feed.settle consumer) =
      (feed.push chunks.flatten).settle consumer := by
  induction chunks generalizing feed with
  | nil => rw [List.foldl_nil, List.flatten_nil, push_nil]
  | cons chunk chunks ih =>
      rw [List.foldl_cons, arrive, settle_push_settle, ih, push_push, List.flatten_cons]

end Feed

end StacksApi.Transition
