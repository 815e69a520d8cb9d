import IamService.KafkaEventBus
import IamService.UserRepository
import Mathlib.Data.List.Nodup
import Mathlib.Data.List.Sort

/-!
# The transactional outbox

The table `iam_outbox_events`, the statements of its repository and the drain worker that
relays its rows to Kafka. A worker never returns by itself; its loop is modelled for any
number of rounds, and a worker that crashes or is cancelled simply takes no further step.

A failed statement may have been executed all the same, when only the reply was lost. To Kafka
one record is handed at a time, and an error is one of its serialisation or of the producer.
-/

namespace IamService
open EffectPrograms RelationTables

/-- A row of `iam_outbox_events`; the status is a plain text column. -/
structure OutboxRow (Value : Type) where
  id : Uuid
  eventType : String
  payload : Value
  status : String
  attempts : ℕ
  lastAttemptAt : Option ℕ
  createdAt : ℕ
  deriving DecidableEq

structure OutboxRecord (Value : Type) where
  id : Uuid
  eventType : String
  payload : Value
  deriving DecidableEq

/-- The table, within its primary key. -/
structure OutboxTable (Value : Type) where
  rows : List (OutboxRow Value)
  unique : (rows.map (·.id)).Nodup

variable {Value : Type}

namespace OutboxTable

def empty : OutboxTable Value := ⟨[], by simp⟩

/-- `UPDATE iam_outbox_events SET f WHERE id = $1`. -/
def update (t : OutboxTable Value) (id : Uuid) (f : OutboxRow Value → OutboxRow Value)
    (hf : ∀ r, (f r).id = r.id) : OutboxTable Value where
  rows := updateWhere (fun r => r.id = id) f t.rows
  unique := by
    rw [map_updateWhere _ _ hf]
    exact t.unique

/-- A further row with an id of its own. -/
def append (t : OutboxTable Value) (row : OutboxRow Value) (h : row.id ∉ t.rows.map (·.id)) :
    OutboxTable Value where
  rows := t.rows ++ [row]
  unique := by
    rw [List.map_append, List.map_singleton]
    exact t.unique.append (List.nodup_singleton _) (List.disjoint_singleton.mpr h)

theorem eq_of_id (t : OutboxTable Value) {r s : OutboxRow Value} (hr : r ∈ t.rows)
    (hs : s ∈ t.rows) (h : r.id = s.id) : r = s := eq_of_key (·.id) t.unique hr hs h

end OutboxTable

/-- What the environment decides during one operation. -/
structure OutboxChoice where
  /-- The operation is answered with an error. -/
  fails : Bool := false
  /-- A failed statement has been executed all the same. -/
  commits : Bool := false
  errorText : String := ""
  elapsed : ℕ := 0
  /-- `gen_random_uuid()`. -/
  uuid : Uuid := ⟨0⟩
  /-- The order of rows that were created at the same time. -/
  ties : Uuid → ℕ := fun _ => 0
  /-- Topic, partition and offset of an acknowledged message. -/
  messageId : String := ""

inductive OutboxOp (Value : Type) where
  | insert (eventType : String) (payload : Value)
  | fetchPending (limit : ℕ)
  | markProcessed (id : Uuid)
  | markFailed (id : Uuid)
  | publish (record : KafkaRecord Value)
  | sleep (ms : ℕ)

@[reducible] def OutboxOp.Ans : OutboxOp Value → Type
  | .insert _ _ => Result Unit
  | .fetchPending _ => Result (List (OutboxRecord Value))
  | .markProcessed _ => Result Unit
  | .markFailed _ => Result Unit
  | .publish _ => Except String String
  | .sleep _ => Unit

/-- A program of the service that works on the outbox. -/
abbrev OutboxProgram (Value α : Type) := Prog (@OutboxOp.Ans Value) α

/-- Issue one operation on the outbox, the producer or the clock. -/
def outbox (o : OutboxOp Value) : OutboxProgram Value o.Ans := .eff o .ret

structure OutboxState (Value : Type) where
  now : ℕ
  table : OutboxTable Value

namespace OutboxRepository

def maxAttempts : ℕ := 10

/-- The largest `INTEGER`. -/
def maxInteger : ℕ := 2147483647

/-- The row of an `INSERT` that names the event type and the payload only. -/
def newRow (c : OutboxChoice) (now : ℕ) (eventType : String) (payload : Value) : OutboxRow Value where
  id := c.uuid
  eventType := eventType
  payload := payload
  status := "PENDING"
  attempts := 0
  lastAttemptAt := none
  createdAt := now

variable (codec : EventCodec Value)

def insertRow (c : OutboxChoice) (now : ℕ) (t : OutboxTable Value) (eventType : String)
    (payload : Value) : Except DbError (OutboxTable Value) :=
  if sqlText eventType && codec.storable payload then
    if h : c.uuid ∉ t.rows.map (·.id) then .ok (t.append (newRow c now eventType payload) h)
    else .error .uniqueViolation
  else .error .invalidValue

/-- `ORDER BY created_at ASC`. -/
def oldestFirst (c : OutboxChoice) (a b : OutboxRow Value) : Bool :=
  a.createdAt < b.createdAt || (a.createdAt = b.createdAt && c.ties a.id ≤ c.ties b.id)

def fetchPending (c : OutboxChoice) (t : OutboxTable Value) (limit : ℕ) : List (OutboxRecord Value) :=
  (((t.rows.filter (fun r => r.status = "PENDING")).insertionSort (fun a b => oldestFirst c a b)).take
    limit).map fun r => ⟨r.id, r.eventType, r.payload⟩

/-- The row after its delivery. -/
def processedRow (now : ℕ) (r : OutboxRow Value) : OutboxRow Value :=
  { r with status := "PROCESSED", lastAttemptAt := some now }

def markProcessed (now : ℕ) (t : OutboxTable Value) (id : Uuid) : OutboxTable Value :=
  t.update id (processedRow now) (fun _ => rfl)

/-- The row after one more failed attempt. -/
def failedRow (now : ℕ) (r : OutboxRow Value) : OutboxRow Value :=
  { r with
    attempts := r.attempts + 1
    lastAttemptAt := some now
    status := if maxAttempts ≤ r.attempts + 1 then "FAILED" else "PENDING" }

/-- The statement is refused when the counter would leave its type. -/
def markFailed (now : ℕ) (t : OutboxTable Value) (id : Uuid) : Except DbError (OutboxTable Value) :=
  if t.rows.any (fun r => r.id = id && maxInteger ≤ r.attempts) then .error .invalidValue
  else .ok (t.update id (failedRow now) (fun _ => rfl))

/-- A statement and its reply, which may be lost after the statement was executed. -/
def settle (c : OutboxChoice) (t : OutboxTable Value) (body : Except DbError (OutboxTable Value)) :
    Result Unit × OutboxTable Value :=
  match body with
  | .error e => (.error (.database (if c.fails then .unavailable else e) c.errorText), t)
  | .ok t' =>
    if c.fails then (.error (.database .unavailable c.errorText), if c.commits then t' else t)
    else (.ok (), t')

/-- The repository, the Kafka producer and the clock. -/
def handle : Handler (@OutboxOp.Ans Value) OutboxChoice (OutboxState Value) := fun c s o =>
  let now := s.now + c.elapsed
  match o with
  | .insert eventType payload =>
    let q := settle c s.table (insertRow codec c now s.table eventType payload)
    (q.1, ⟨now, q.2⟩)
  | .fetchPending limit =>
    (if c.fails then .error (.database .unavailable c.errorText)
      else .ok (fetchPending c s.table limit), ⟨now, s.table⟩)
  | .markProcessed id =>
    let q := settle c s.table (.ok (markProcessed now s.table id))
    (q.1, ⟨now, q.2⟩)
  | .markFailed id =>
    let q := settle c s.table (markFailed now s.table id)
    (q.1, ⟨now, q.2⟩)
  | .publish _ => (if c.fails then .error c.errorText else .ok c.messageId, ⟨now, s.table⟩)
  | .sleep ms => ((), ⟨now + ms, s.table⟩)

/-- Store an event for later delivery. -/
def enqueue (event : DomainEvent Value) : OutboxProgram Value (Result Unit) :=
  match codec.toValue event with
  | .error e => return .error (.internal ("Failed to serialize outbox event: " ++ e))
  | .ok payload => outbox (.insert event.eventType payload)

end OutboxRepository

/-- The producer and the configuration of a drain worker, with its pauses in milliseconds. -/
structure OutboxWorker where
  kafka : KafkaEventBus
  batchSize : ℕ
  idleInterval : ℕ

namespace OutboxWorker

def new (kafka : KafkaEventBus) : OutboxWorker := ⟨kafka, 100, 500⟩

variable (codec : EventCodec Value) (self : OutboxWorker)

/-- Deliver one fetched row. The answers of the statements that mark it are only logged. -/
def deliver (record : OutboxRecord Value) : OutboxProgram Value Unit :=
  match codec.fromValue record.payload with
  | .error _ => do
    -- an undecodable payload counts as a failed attempt
    let _ ← outbox (.markFailed record.id)
  | .ok event => do
    match ← outbox (.publish (self.kafka.record codec event)) with
    | .ok _ => let _ ← outbox (.markProcessed record.id)
    | .error _ => let _ ← outbox (.markFailed record.id)

def deliverAll : List (OutboxRecord Value) → OutboxProgram Value Unit
  | [] => return ()
  | record :: pending => do
    deliver codec self record
    deliverAll pending

/-- Process one batch and return the number of rows fetched. -/
def tick : OutboxProgram Value ℕ := do
  match ← outbox (.fetchPending self.batchSize) with
  | .error _ => do
    outbox (.sleep (secs 5))
    return 0
  | .ok pending => do
    deliverAll codec self pending
    return pending.length

/-- The drain loop, for a number of rounds. -/
def run : ℕ → OutboxProgram Value Unit
  | 0 => return ()
  | n + 1 => do
    if (← tick codec self) = 0 then do
      outbox (.sleep self.idleInterval)
      run n
    else run n

end OutboxWorker

end IamService
