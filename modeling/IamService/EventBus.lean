import IamService.OutboxRepository
import IamService.RelyGuarantee

/-!
# The event bus

Every event is appended to a Redis stream, which is trimmed as it grows. An event that Kafka
consumers handle is also stored in the outbox, or sent to Kafka at once when there is no outbox
or the outbox refuses it. The bus is a program over these commands; what Redis and the
database answer to the n-th command of a kind is the environment's choice.

A Redis command that is answered with an error has not been executed: losing the reply to an
executed command is modelled for the statements of the outbox only.
-/

namespace IamService
open EffectPrograms

variable {Value : Type}

/-- The commands of the event bus. -/
inductive BusCommand (Value : Type) where
  | enqueue (event : DomainEvent Value)
  /-- `tokio::spawn` of a Kafka publication. -/
  | send (record : KafkaRecord Value)
  | xadd (payload : String)
  | xtrim (maxLen : ℕ)

@[reducible] def BusCommand.Ans : BusCommand Value → Type
  | .enqueue _ => Result Unit
  | .send _ => Unit
  | .xadd _ => Except String String
  | .xtrim _ => Except String Unit

abbrev BusProgram (Value α : Type) := Prog (@BusCommand.Ans Value) α

def command (o : BusCommand Value) : BusProgram Value o.Ans := .eff o .ret

/-- The configuration of a bus: its Kafka producer, if it has one, and whether it has an outbox. -/
structure EventBus where
  kafka : Option KafkaEventBus
  outbox : Bool

namespace EventBus

/-- The length that the stream is trimmed to, approximately. -/
def maxStreamLen : ℕ := 100000

def kafkaSkipEventTypes : List String := ["ApiKeyVerified"]

def skipKafkaDualWrite (eventType : String) : Bool := kafkaSkipEventTypes.contains eventType

variable (codec : EventCodec Value) (serialize : DomainEvent Value → Except String String)
  (self : EventBus)

def spawnKafkaPublish (event : DomainEvent Value) : BusProgram Value Unit :=
  match self.kafka with
  | some kafka => command (.send (kafka.record codec event))
  | none => return ()

def dispatchKafka (event : DomainEvent Value) : BusProgram Value Unit :=
  if skipKafkaDualWrite event.eventType then return ()
  else match self.outbox, self.kafka.isSome with
    | true, true => do
      match ← command (.enqueue event) with
      | .ok _ => return ()
      | .error _ => self.spawnKafkaPublish codec event
    | _, _ => self.spawnKafkaPublish codec event

/-- Append an event to the stream and trim the stream; the answer of the trim is only logged. -/
def publishRawNoKafka (event : DomainEvent Value) : BusProgram Value (Except String String) :=
  match serialize event with
  | .error _ => return .error "Failed to serialize event"
  | .ok payload => do
    match ← command (.xadd payload) with
    | .error _ => return .error "Redis XADD failed"
    | .ok entryId => do
      let _ ← command (.xtrim maxStreamLen)
      return .ok entryId

/-- Both legs, with a copy of the commands for the stream. -/
def publishRaw (event : DomainEvent Value) : BusProgram Value (Except String String) := do
  self.dispatchKafka codec event
  match serialize event with
  | .error _ => return .error "Failed to serialize event"
  | .ok payload => do
    match ← command (.xadd payload) with
    | .error _ => return .error "Redis XADD failed"
    | .ok entryId => do
      let _ ← command (.xtrim maxStreamLen)
      return .ok entryId

def dispatchAll : List (DomainEvent Value) → BusProgram Value Unit
  | [] => return ()
  | event :: events => do
    self.dispatchKafka codec event
    dispatchAll events

/-- The loop over the stream, which stops at the first error. -/
def appendAll : List (DomainEvent Value) → BusProgram Value (Except String (List String))
  | [] => return .ok []
  | event :: events => do
    match ← publishRawNoKafka serialize event with
    | .error e => return .error e
    | .ok id => do
      match ← appendAll events with
      | .error e => return .error e
      | .ok ids => return .ok (id :: ids)

def publishBatchRaw (events : List (DomainEvent Value)) :
    BusProgram Value (Except String (List String)) :=
  if self.kafka.isSome then do
    self.dispatchAll codec events
    appendAll serialize events
  else appendAll serialize events

/-- The answer of a raw method as the trait reports it. -/
def report {α : Type} : Except String α → Result Unit
  | .ok _ => .ok ()
  | .error e => .error (.internal e)

def publish (event : DomainEvent Value) : BusProgram Value (Result Unit) := do
  return report (← self.publishRaw codec serialize event)

def publishBatch (events : List (DomainEvent Value)) : BusProgram Value (Result Unit) := do
  return report (← self.publishBatchRaw codec serialize events)

/-- Publish events one after another. -/
def publishEach : List (DomainEvent Value) → BusProgram Value Unit
  | [] => return ()
  | event :: events => do
    let _ ← self.publish codec serialize event
    publishEach events

end EventBus

/-- What the database and Redis answer to the n-th command of a kind. -/
structure BusEnvironment where
  enqueue : ℕ → OutboxChoice
  /-- The id of the entry, or an error. -/
  xadd : ℕ → Except String String
  /-- How many entries an approximate trim would remove, or an error. -/
  xtrim : ℕ → Except String ℕ

/-- The outbox and the messages handed to the Kafka producer. -/
structure KafkaLegs (Value : Type) where
  outbox : OutboxState Value
  sends : List (KafkaRecord Value)
  enqueues : ℕ

/-- The stream, oldest entry first. An entry is numbered by the command that added it, as the
ids that Redis generates are never used twice. -/
structure RedisStream where
  entries : List (ℕ × String)
  xadds : ℕ
  xtrims : ℕ
  numbered : ∀ e ∈ entries, e.1 < xadds

namespace RedisStream

/-- An `XADD` that was refused. -/
def refuse (r : RedisStream) : RedisStream where
  entries := r.entries
  xadds := r.xadds + 1
  xtrims := r.xtrims
  numbered := fun e he => Nat.lt_succ_of_lt (r.numbered e he)

def add (r : RedisStream) (payload : String) : RedisStream where
  entries := r.entries ++ [(r.xadds, payload)]
  xadds := r.xadds + 1
  xtrims := r.xtrims
  numbered := by
    intro e he
    rcases List.mem_append.mp he with he | he
    · exact Nat.lt_succ_of_lt (r.numbered e he)
    · rw [List.mem_singleton.mp he]
      exact Nat.lt_succ_self _

/-- The `k` oldest entries are removed. -/
def trim (r : RedisStream) (k : ℕ) : RedisStream where
  entries := r.entries.drop k
  xadds := r.xadds
  xtrims := r.xtrims + 1
  numbered := fun e he => r.numbered e (List.mem_of_mem_drop he)

end RedisStream

structure BusState (Value : Type) where
  kafka : KafkaLegs Value
  redis : RedisStream

namespace EventBus

variable (codec : EventCodec Value) (env : BusEnvironment)

/-- An enqueue, as the repository executes it. -/
def enqueued (k : KafkaLegs Value) (event : DomainEvent Value) : Result Unit × KafkaLegs Value :=
  let r := run (OutboxRepository.handle codec) (OutboxRepository.enqueue codec event)
    (fun _ => env.enqueue k.enqueues) k.outbox
  (r.1, { k with outbox := r.2, enqueues := k.enqueues + 1 })

/-- How many entries the i-th trim removes from a stream; it leaves as many as it was asked to. -/
def removed (i length maxLen : ℕ) : ℕ :=
  match env.xtrim i with
  | .ok k => min k (length - maxLen)
  | .error _ => 0

def handle : Handler (@BusCommand.Ans Value) Unit (BusState Value) := fun _ s o =>
  match o with
  | .enqueue event => let r := enqueued codec env s.kafka event; (r.1, { s with kafka := r.2 })
  | .send record => ((), { s with kafka := { s.kafka with sends := s.kafka.sends ++ [record] } })
  | .xadd payload =>
    match env.xadd s.redis.xadds with
    | .error e => (.error e, { s with redis := s.redis.refuse })
    | .ok id => (.ok id, { s with redis := s.redis.add payload })
  | .xtrim maxLen =>
    ((env.xtrim s.redis.xtrims).map (fun _ => ()), { s with
      redis := s.redis.trim (removed env s.redis.xtrims s.redis.entries.length maxLen) })

end EventBus

end IamService
