import IamService.EventBus
import IamService.OutboxStatements
import IamService.EventSerialization

/-!
# Batches of events

The two legs of a publication touch different parts of the state, so that a batch, which
serves Kafka for all events first, leaves the same state as its events published one by one.
A batch is not atomic: what was written before Redis fails stays.
-/

namespace IamService.EventBatches
open EffectPrograms OutboxRepository EventBus

variable {Value : Type} {codec : EventCodec Value} {env : BusEnvironment} {self : EventBus}
  {serialize : DomainEvent Value → Except String String} {s : BusState Value}

section Executions

variable {α β : Type}

variable (codec env) in
/-- Run a program of the bus. -/
def exec (p : BusProgram Value α) (s : BusState Value) : α × BusState Value :=
  run (EventBus.handle codec env) p (fun _ => ()) s

theorem exec_bind (p : BusProgram Value α) (k : α → BusProgram Value β) (s : BusState Value) :
    exec codec env (p >>= k) s = exec codec env (k (exec codec env p s).1) (exec codec env p s).2 :=
  run_bind _ p k _ s

theorem exec_command (o : BusCommand Value) (s : BusState Value) :
    exec codec env (command o) s = EventBus.handle codec env () s o := rfl

end Executions

section Legs

variable (codec env self) in
/-- What the dispatch of an event does to the outbox and the producer. -/
def dispatched (k : KafkaLegs Value) (event : DomainEvent Value) : KafkaLegs Value :=
  match self.kafka with
  | none => k
  | some kafka =>
    if skipKafkaDualWrite event.eventType then k
    else if self.outbox then
      let r := enqueued codec env k event
      match r.1 with
      | .ok _ => r.2
      | .error _ => { r.2 with sends := r.2.sends ++ [kafka.record codec event] }
    else { k with sends := k.sends ++ [kafka.record codec event] }

theorem exec_dispatchKafka (event : DomainEvent Value) (s : BusState Value) :
    exec codec env (self.dispatchKafka codec event) s =
      ((), { s with kafka := dispatched codec env self s.kafka event }) := by
  obtain ⟨kafka, outbox⟩ := self
  unfold EventBus.dispatchKafka dispatched
  cases hskip : skipKafkaDualWrite event.eventType with
  | true => cases kafka <;> rfl
  | false =>
    cases kafka with
    | none => cases outbox <;> rfl
    | some kafka =>
      cases outbox with
      | false => rfl
      | true =>
        simp only [Bool.false_eq_true, if_false, Option.isSome_some, if_true]
        rw [exec_bind, exec_command]
        simp only [EventBus.handle]
        cases (enqueued codec env s.kafka event).1 with
        | ok _ => rfl
        | error e => rfl

variable (env) in
/-- What appending an entry does to the stream. -/
def appended (r : RedisStream) (payload : String) : RedisStream :=
  match env.xadd r.xadds with
  | .error _ => r.refuse
  | .ok _ => (r.add payload).trim (removed env r.xtrims (r.entries.length + 1) maxStreamLen)

@[simp] theorem appended_xadds (r : RedisStream) (payload : String) :
    (appended env r payload).xadds = r.xadds + 1 := by
  unfold appended
  split <;> rfl

/-- How appending is answered. -/
def appendAnswer : Except String String → Except String String
  | .error _ => .error "Redis XADD failed"
  | .ok id => .ok id

theorem exec_publishRawNoKafka {event : DomainEvent Value} {payload : String}
    (h : serialize event = .ok payload) (s : BusState Value) :
    exec codec env (publishRawNoKafka serialize event) s =
      (appendAnswer (env.xadd s.redis.xadds), { s with redis := appended env s.redis payload }) := by
  simp only [publishRawNoKafka, h]
  rw [exec_bind, exec_command]
  simp only [EventBus.handle, appended]
  cases env.xadd s.redis.xadds with
  | error e => rfl
  | ok id =>
    simp only
    rw [exec_bind, exec_command]
    simp [EventBus.handle, exec, appendAnswer, RedisStream.add]

end Legs

/-- A publication is the dispatch of its event, and then its entry in the stream. -/
theorem publishRaw_eq (event : DomainEvent Value) :
    self.publishRaw codec serialize event =
      self.dispatchKafka codec event >>= fun _ => publishRawNoKafka serialize event := rfl

section Loops

variable {text : DomainEvent Value → String} {events : List (DomainEvent Value)}

theorem exec_dispatchAll (events : List (DomainEvent Value)) (s : BusState Value) :
    exec codec env (self.dispatchAll codec events) s =
      ((), { s with kafka := events.foldl (dispatched codec env self) s.kafka }) := by
  induction events generalizing s with
  | nil => rfl
  | cons event events ih =>
    rw [EventBus.dispatchAll, exec_bind, exec_dispatchKafka, ih]
    rfl

/-- Published one by one, events pass through both legs in turn. -/
theorem exec_publishEach (htext : ∀ e ∈ events, serialize e = .ok (text e)) (s : BusState Value) :
    exec codec env (self.publishEach codec serialize events) s =
      ((), ⟨events.foldl (dispatched codec env self) s.kafka,
        events.foldl (fun r e => appended env r (text e)) s.redis⟩) := by
  induction events generalizing s with
  | nil => rfl
  | cons event events ih =>
    obtain ⟨hfirst, hrest⟩ := List.forall_mem_cons.mp htext
    simp only [EventBus.publishEach, EventBus.publish, publishRaw_eq, exec_bind,
      exec_dispatchKafka, exec_publishRawNoKafka hfirst, ih hrest]
    rfl

/-- While Redis answers, the loop of a batch appends every event. -/
theorem exec_appendAll (htext : ∀ e ∈ events, serialize e = .ok (text e))
    (hredis : ∀ i < events.length, ∃ id, env.xadd (s.redis.xadds + i) = .ok id) :
    ∃ ids, exec codec env (appendAll serialize events) s =
      (.ok ids, { s with redis := events.foldl (fun r e => appended env r (text e)) s.redis }) := by
  induction events generalizing s with
  | nil => exact ⟨[], rfl⟩
  | cons event events ih =>
    obtain ⟨hfirst, hrest⟩ := List.forall_mem_cons.mp htext
    obtain ⟨id, hid⟩ := hredis 0 (Nat.succ_pos _)
    rw [Nat.add_zero] at hid
    obtain ⟨ids, hids⟩ := @ih { s with redis := appended env s.redis (text event) } hrest (by
      intro i hi
      rw [appended_xadds, Nat.add_assoc, Nat.add_comm 1 i]
      exact hredis (i + 1) (Nat.succ_lt_succ hi))
    refine ⟨id :: ids, ?_⟩
    simp only [appendAll, exec_bind, exec_publishRawNoKafka hfirst, hid, appendAnswer, hids]
    rfl

/-- The loop ends with an error when Redis refuses an entry. -/
theorem exec_appendAll_error (htext : ∀ e ∈ events, serialize e = .ok (text e))
    (hredis : ¬ ∀ i < events.length, ∃ id, env.xadd (s.redis.xadds + i) = .ok id) :
    ∃ e, (exec codec env (appendAll serialize events) s).1 = .error e := by
  induction events generalizing s with
  | nil =>
    refine absurd ?_ hredis
    intro i hi
    cases hi
  | cons event events ih =>
    obtain ⟨hfirst, hrest⟩ := List.forall_mem_cons.mp htext
    simp only [appendAll, exec_bind, exec_publishRawNoKafka hfirst]
    cases hid : env.xadd s.redis.xadds with
    | error e => exact ⟨_, rfl⟩
    | ok id =>
      obtain ⟨e, he⟩ := @ih { s with redis := appended env s.redis (text event) } hrest (by
        intro hall
        apply hredis
        intro i hi
        cases i with
        | zero => exact ⟨id, hid⟩
        | succ i =>
          have hnext := hall i (Nat.lt_of_succ_lt_succ hi)
          rw [appended_xadds, Nat.add_assoc, Nat.add_comm 1 i] at hnext
          exact hnext)
      simp only [appendAnswer, exec_bind, he]
      exact ⟨e, rfl⟩

/-- The loop leaves the outbox and the producer alone. -/
theorem exec_appendAll_kafka (htext : ∀ e ∈ events, serialize e = .ok (text e)) :
    (exec codec env (appendAll serialize events) s).2.kafka = s.kafka := by
  induction events generalizing s with
  | nil => rfl
  | cons event events ih =>
    obtain ⟨hfirst, hrest⟩ := List.forall_mem_cons.mp htext
    simp only [appendAll, exec_bind, exec_publishRawNoKafka hfirst]
    cases env.xadd s.redis.xadds with
    | error e => rfl
    | ok id =>
      simp only [appendAnswer, exec_bind]
      have hkafka := @ih { s with redis := appended env s.redis (text event) } hrest
      cases (exec codec env (appendAll serialize events)
          { s with redis := appended env s.redis (text event) }).1 with
      | error e => exact hkafka
      | ok ids => exact hkafka

theorem dispatched_of_no_kafka (hkafka : self.kafka = none) (events : List (DomainEvent Value))
    (k : KafkaLegs Value) : events.foldl (dispatched codec env self) k = k := by
  induction events generalizing k with
  | nil => rfl
  | cons event events ih =>
    have hfirst : dispatched codec env self k event = k := by simp [dispatched, hkafka]
    rw [List.foldl_cons, hfirst, ih]

/-- A batch serves Kafka for all events, and then the stream. -/
theorem exec_publishBatch_eq (events : List (DomainEvent Value)) (s : BusState Value) :
    exec codec env (self.publishBatch codec serialize events) s =
      let appending := exec codec env (appendAll serialize events)
        { s with kafka := events.foldl (dispatched codec env self) s.kafka }
      (report appending.1, appending.2) := by
  rw [EventBus.publishBatch, exec_bind]
  unfold EventBus.publishBatchRaw
  split
  · rw [exec_bind, exec_dispatchAll]
    rfl
  · rename_i hkafka
    rw [dispatched_of_no_kafka (Option.not_isSome_iff_eq_none.mp hkafka)]
    rfl

/-- While Redis answers, a batch passes all events through both legs. -/
theorem exec_publishBatch (htext : ∀ e ∈ events, serialize e = .ok (text e))
    (hredis : ∀ i < events.length, ∃ id, env.xadd (s.redis.xadds + i) = .ok id) :
    exec codec env (self.publishBatch codec serialize events) s =
      (.ok (), ⟨events.foldl (dispatched codec env self) s.kafka,
        events.foldl (fun r e => appended env r (text e)) s.redis⟩) := by
  obtain ⟨ids, hids⟩ := @exec_appendAll _ codec env serialize
    { s with kafka := events.foldl (dispatched codec env self) s.kafka } text events htext hredis
  rw [exec_publishBatch_eq, hids]
  rfl

end Loops

section Routes

/-- The Kafka leg of an event: stored in the outbox, or handed to the producer at once. -/
inductive Leg where
  | outbox
  | direct

abbrev History (Value : Type) := List (Observed (@BusCommand.Ans Value) (BusState Value))

/-- The leg that a command takes for an event. -/
def taken : Observed (@BusCommand.Ans Value) (BusState Value) → Option (DomainEvent Value × Leg)
  | ⟨_, .enqueue event, .ok _, _⟩ => some (event, .outbox)
  | ⟨_, .send record, _, _⟩ => some (record.payload, .direct)
  | _ => none

/-- The event that a Kafka command is about, whatever its answer. -/
def tried : Observed (@BusCommand.Ans Value) (BusState Value) → Option (DomainEvent Value)
  | ⟨_, .enqueue event, _, _⟩ => some event
  | ⟨_, .send record, _, _⟩ => some record.payload
  | _ => none

theorem taken_enqueue_ok {pre post : BusState Value} {event : DomainEvent Value} {answer : Result Unit}
    {u : Unit} (h : answer = .ok u) :
    taken ⟨pre, .enqueue event, answer, post⟩ = some (event, .outbox) := by
  subst h
  rfl

theorem taken_enqueue_error {pre post : BusState Value} {event : DomainEvent Value}
    {answer : Result Unit} {e : ApiError} (h : answer = .error e) :
    taken ⟨pre, .enqueue event, answer, post⟩ = none := by
  subst h
  rfl

/-- The Kafka legs of a run, in order. -/
def legs (h : History Value) : List (DomainEvent Value × Leg) := h.filterMap taken

/-- The events that a bus also writes to Kafka. -/
def dualWritten (self : EventBus) (events : List (DomainEvent Value)) : List (DomainEvent Value) :=
  if self.kafka.isSome then events.filter (fun e => !skipKafkaDualWrite e.eventType) else []

theorem dualWritten_append (self : EventBus) (events events' : List (DomainEvent Value)) :
    dualWritten self (events ++ events') = dualWritten self events ++ dualWritten self events' := by
  unfold dualWritten
  split
  · exact List.filter_append _ _
  · rfl

/-- Some events have taken one leg each, in order, and no command was about another event. -/
def Routed (self : EventBus) (h : History Value) (events : List (DomainEvent Value))
    (h' : History Value) : Prop :=
  (legs h').map Prod.fst = (legs h).map Prod.fst ++ dualWritten self events ∧
    ∀ e ∈ h'.filterMap tried, e ∈ h.filterMap tried ∨ e ∈ dualWritten self events

theorem Routed.refl (h : History Value) {events : List (DomainEvent Value)}
    (hnone : dualWritten self events = []) : Routed self h events h := by
  rw [Routed, hnone]
  exact ⟨by simp, fun e he => .inl he⟩

theorem Routed.trans {h h' h'' : History Value} {events events' : List (DomainEvent Value)}
    (hfirst : Routed self h events h') (hrest : Routed self h' events' h'') :
    Routed self h (events ++ events') h'' := by
  refine ⟨?_, ?_⟩
  · rw [hrest.1, hfirst.1, List.append_assoc, ← dualWritten_append]
  · intro e he
    rw [dualWritten_append, List.mem_append]
    rcases hrest.2 e he with he | he
    · rcases hfirst.2 e he with he | he
      · exact .inl he
      · exact .inr (.inl he)
    · exact .inr (.inr he)

variable (codec env) in
/-- What a program of the bus establishes, with the history of its commands. -/
abbrev Ends {α : Type} (Q : α → BusState Value × History Value → Prop) (p : BusProgram Value α)
    (s : BusState Value × History Value) : Prop :=
  Safe (recorded (EventBus.handle codec env)) (.solo fun _ _ _ => True) Q p s

variable {s : BusState Value × History Value}

section Commands

variable (h : History Value) {x y : Observed (@BusCommand.Ans Value) (BusState Value)}
  {event : DomainEvent Value} {leg : Leg}

/-- A command of the stream takes no leg. -/
theorem routed_stream (htaken : taken x = none) (htried : tried x = none) :
    Routed self h [] (h ++ [x]) := by
  simp [Routed, legs, htaken, htried, dualWritten]

/-- A Kafka command that is executed takes the leg of its event. -/
theorem routed_taken (hdual : dualWritten self [event] = [event]) (htaken : taken x = some (event, leg))
    (htried : tried x = some event) : Routed self h [event] (h ++ [x]) := by
  rw [Routed, hdual]
  refine ⟨by simp [legs, htaken], ?_⟩
  intro e he
  simpa [List.filterMap_append, htried] using he

/-- A refused enqueue takes no leg, and the send that follows it does. -/
theorem routed_fallback (hdual : dualWritten self [event] = [event]) (hrefused : taken x = none)
    (htried : tried x = some event) (htaken : taken y = some (event, leg))
    (htried' : tried y = some event) : Routed self h [event] (h ++ [x] ++ [y]) := by
  rw [Routed, hdual]
  refine ⟨by simp [legs, hrefused, htaken], ?_⟩
  intro e he
  simpa [List.filterMap_append, htried, htried'] using he

end Commands

/-- Appending to the stream takes no leg. -/
theorem publishRawNoKafka_routed (self : EventBus) (event : DomainEvent Value) :
    Ends codec env (fun _ u => Routed self s.2 [] u.2) (publishRawNoKafka serialize event) s := by
  unfold publishRawNoKafka
  split
  · exact .refl _ (by simp [dualWritten])
  · rename_i payload _
    refine Safe.bind (safe_solo_eff.mpr ?_)
    intro _ _
    have hxadd : Routed self s.2 [] (recorded (EventBus.handle codec env) () s (.xadd payload)).2.2 :=
      routed_stream _ rfl rfl
    rw [safe_ret]
    split
    · exact hxadd
    · refine Safe.bind (safe_solo_eff.mpr ?_)
      intro _ _
      exact hxadd.trans (routed_stream _ rfl rfl)

/-- Dispatching an event takes exactly one leg, unless the event or the bus has none. -/
theorem dispatchKafka_routed (event : DomainEvent Value) :
    Ends codec env (fun _ u => Routed self s.2 [event] u.2) (self.dispatchKafka codec event) s := by
  unfold EventBus.dispatchKafka EventBus.spawnKafkaPublish
  cases hskip : skipKafkaDualWrite event.eventType with
  | true => exact .refl _ (by simp [dualWritten, hskip])
  | false =>
    cases hkafka : self.kafka with
    | none =>
      have hnone : dualWritten self [event] = [] := by simp [dualWritten, hkafka]
      cases self.outbox <;> exact .refl _ hnone
    | some kafka =>
      have hdual : dualWritten self [event] = [event] := by simp [dualWritten, hkafka, hskip]
      cases self.outbox with
      | false =>
        refine safe_solo_eff.mpr ?_
        intro _ _
        exact routed_taken _ hdual rfl rfl
      | true =>
        refine Safe.bind (safe_solo_eff.mpr ?_)
        intro _ _
        rw [safe_ret, recorded_ans]
        cases hanswer : (EventBus.handle codec env () s.1 (.enqueue event)).1 with
        | ok u =>
          exact routed_taken _ hdual (taken_enqueue_ok hanswer) rfl
        | error e =>
          refine safe_solo_eff.mpr ?_
          intro _ _
          exact routed_fallback _ hdual (taken_enqueue_error hanswer) rfl rfl rfl

theorem dispatchAll_routed (events : List (DomainEvent Value)) :
    Ends codec env (fun _ u => Routed self s.2 events u.2) (self.dispatchAll codec events) s := by
  induction events generalizing s with
  | nil => exact .refl _ (by simp [dualWritten])
  | cons event events ih =>
    refine Safe.bind ((dispatchKafka_routed event).mono ?_)
    intro _ u hfirst
    exact ih.mono (fun _ _ hrest => hfirst.trans hrest)

theorem appendAll_routed (self : EventBus) (events : List (DomainEvent Value)) :
    Ends codec env (fun _ u => Routed self s.2 [] u.2) (appendAll serialize events) s := by
  induction events generalizing s with
  | nil => exact .refl _ (by simp [dualWritten])
  | cons event events ih =>
    refine Safe.bind ((publishRawNoKafka_routed self event).mono ?_)
    intro answer u hfirst
    cases answer with
    | error e => exact hfirst
    | ok id =>
      refine Safe.bind (ih.mono ?_)
      intro answer' v hrest
      cases answer' with
      | error e => exact hfirst.trans hrest
      | ok ids => exact hfirst.trans hrest

theorem publishBatch_routed (events : List (DomainEvent Value)) :
    Ends codec env (fun _ u => Routed self s.2 events u.2) (self.publishBatch codec serialize events) s := by
  refine Safe.bind ?_
  unfold EventBus.publishBatchRaw
  split
  · refine Safe.bind ((dispatchAll_routed events).mono ?_)
    intro _ u hdispatched
    refine (appendAll_routed self events).mono ?_
    intro _ v happended
    have hall := hdispatched.trans happended
    rw [List.append_nil] at hall
    exact hall
  · rename_i hkafka
    have hnone : dualWritten self events = [] := by simp [dualWritten, hkafka]
    refine (appendAll_routed self events).mono ?_
    intro _ u happended
    have hall := (Routed.refl s.2 hnone).trans happended
    rw [List.append_nil] at hall
    exact hall

theorem publishEach_routed (events : List (DomainEvent Value)) :
    Ends codec env (fun _ u => Routed self s.2 events u.2) (self.publishEach codec serialize events) s := by
  induction events generalizing s with
  | nil => exact .refl _ (by simp [dualWritten])
  | cons event events ih =>
    refine Safe.bind (Safe.bind (Safe.bind ((dispatchKafka_routed event).mono ?_)))
    intro _ u hdispatched
    refine (publishRawNoKafka_routed self event).mono ?_
    intro _ v happended
    exact ih.mono (fun _ _ hrest => (hdispatched.trans happended).trans hrest)

end Routes

section Shares

/-- The events in the rows of the outbox. -/
def stored (k : KafkaLegs Value) : List (String × Except String Value) :=
  k.outbox.table.rows.map fun r => (r.eventType, .ok r.payload)

/-- The events for Kafka have been divided: some have a row each in the outbox, and the others
have been handed to the producer. -/
def Divided (codec : EventCodec Value) (self : EventBus) (k : KafkaLegs Value)
    (events : List (DomainEvent Value)) (k' : KafkaLegs Value) : Prop :=
  ∃ queued direct : List (DomainEvent Value), (queued ++ direct).Perm (dualWritten self events) ∧
    stored k' = stored k ++ queued.map (fun e => (e.eventType, codec.toValue e)) ∧
    k'.sends = k.sends ++ direct.filterMap fun e => self.kafka.map (·.record codec e)

theorem Divided.refl (k : KafkaLegs Value) {events : List (DomainEvent Value)}
    (hnone : dualWritten self events = []) : Divided codec self k events k :=
  ⟨[], [], by simp [hnone], by simp, by simp⟩

theorem Divided.trans {k k' k'' : KafkaLegs Value} {events events' : List (DomainEvent Value)}
    (hfirst : Divided codec self k events k') (hrest : Divided codec self k' events' k'') :
    Divided codec self k (events ++ events') k'' := by
  obtain ⟨queued, direct, hall, hstored, hsends⟩ := hfirst
  obtain ⟨queued', direct', hall', hstored', hsends'⟩ := hrest
  refine ⟨queued ++ queued', direct ++ direct', ?_, ?_, ?_⟩
  · rw [dualWritten_append]
    refine List.Perm.trans ?_ (hall.append hall')
    have hswap : (queued' ++ direct).Perm (direct ++ queued') := List.perm_append_comm
    simpa using (hswap.append_right direct').append_left queued
  · rw [hstored', hstored, List.map_append, List.append_assoc]
  · rw [hsends', hsends, List.filterMap_append, List.append_assoc]

/-- An enqueue whose reply is not lost stores its event exactly when it is answered Ok. -/
theorem enqueued_stored (hlost : ∀ i, (env.enqueue i).fails = true → (env.enqueue i).commits = false)
    (k : KafkaLegs Value) (event : DomainEvent Value) :
    match (enqueued codec env k event).1 with
    | .ok _ => stored (enqueued codec env k event).2 =
        stored k ++ [(event.eventType, codec.toValue event)]
    | .error _ => stored (enqueued codec env k event).2 = stored k := by
  unfold enqueued OutboxRepository.enqueue
  cases codec.toValue event with
  | error e => rfl
  | ok payload =>
    simp only [outbox, run_eff, run_ret, OutboxRepository.handle]
    cases hinsert : insertRow codec (env.enqueue k.enqueues)
        (k.outbox.now + (env.enqueue k.enqueues).elapsed) k.outbox.table event.eventType payload with
    | error e => rfl
    | ok t =>
      cases hfails : (env.enqueue k.enqueues).fails with
      | true => simp [settle, hfails, hlost _ hfails, stored]
      | false => simp [settle, hfails, stored, insertRow_ok hinsert, newRow]

theorem divided_dispatched
    (hlost : ∀ i, (env.enqueue i).fails = true → (env.enqueue i).commits = false)
    (k : KafkaLegs Value) (event : DomainEvent Value) :
    Divided codec self k [event] (dispatched codec env self k event) := by
  unfold dispatched
  cases hkafka : self.kafka with
  | none => exact .refl k (by simp [dualWritten, hkafka])
  | some kafka =>
    cases hskip : skipKafkaDualWrite event.eventType with
    | true => exact .refl k (by simp [dualWritten, hskip])
    | false =>
      have hdual : dualWritten self [event] = [event] := by simp [dualWritten, hkafka, hskip]
      simp only [Bool.false_eq_true, if_false]
      cases self.outbox with
      | false => exact ⟨[], [event], by simp [hdual], by simp [stored], by simp [hkafka]⟩
      | true =>
        have henqueued := @enqueued_stored _ codec env hlost k event
        simp only [if_true]
        cases hanswer : (enqueued codec env k event).1 with
        | ok _ =>
          rw [hanswer] at henqueued
          exact ⟨[event], [], by simp [hdual], henqueued, by simp [enqueued]⟩
        | error e =>
          rw [hanswer] at henqueued
          exact ⟨[], [event], by simp [hdual], by simpa [stored] using henqueued,
            by simp [enqueued, hkafka]⟩

theorem divided_foldl (hlost : ∀ i, (env.enqueue i).fails = true → (env.enqueue i).commits = false)
    (k : KafkaLegs Value) (events : List (DomainEvent Value)) :
    Divided codec self k events (events.foldl (dispatched codec env self) k) := by
  induction events generalizing k with
  | nil => exact .refl k (by simp [dualWritten])
  | cons event events ih => exact (divided_dispatched hlost k event).trans (ih _)

end Shares

/-- A batch leaves the same outbox, the same messages for Kafka and the same stream as its
events published one by one, and in both every event that is not for the audit trail alone
takes exactly one Kafka leg. When no reply of the outbox is lost, every such event is either in
a row of the outbox or among the messages. -/
theorem publishBatch_eq_publishEach {text : DomainEvent Value → String}
    {events : List (DomainEvent Value)} (htext : ∀ e ∈ events, serialize e = .ok (text e))
    (hredis : ∀ i, ∃ id, env.xadd i = .ok id) (s : BusState Value) :
    let batch := run (recorded (EventBus.handle codec env)) (self.publishBatch codec serialize events)
      (fun _ => ()) (s, [])
    let single := run (recorded (EventBus.handle codec env)) (self.publishEach codec serialize events)
      (fun _ => ()) (s, [])
    batch.2.1 = single.2.1 ∧
      ((legs batch.2.2).map Prod.fst = dualWritten self events ∧
        ∀ e ∈ batch.2.2.filterMap tried, e ∈ dualWritten self events) ∧
      ((legs single.2.2).map Prod.fst = dualWritten self events ∧
        ∀ e ∈ single.2.2.filterMap tried, e ∈ dualWritten self events) ∧
      ((∀ i, (env.enqueue i).fails = true → (env.enqueue i).commits = false) →
        Divided codec self s.kafka events batch.2.1.kafka) := by
  have hunit : ∀ {α : Type} (p : BusProgram Value α), Encounters (recorded (EventBus.handle codec env))
      (fun _ _ _ => True) p (fun _ => ()) (s, []) := fun p => Encounters.of_forall (fun _ _ _ => trivial) p _ _
  have hbatch := (@publishBatch_routed _ codec env self serialize (s, []) events).encounters (hunit _)
  have hsingle := (@publishEach_routed _ codec env self serialize (s, []) events).encounters (hunit _)
  have hall : exec codec env (self.publishBatch codec serialize events) s = _ :=
    exec_publishBatch htext (fun i _ => hredis (s.redis.xadds + i))
  refine ⟨?_, ?_, ?_, ?_⟩
  · rw [(run_recorded _ _ _).2, (run_recorded _ _ _).2]
    have heach : (exec codec env (self.publishEach codec serialize events) s).2 = _ :=
      congrArg Prod.snd (exec_publishEach htext s)
    exact (congrArg Prod.snd hall).trans heach.symm
  · simpa [Routed, legs] using hbatch
  · simpa [Routed, legs] using hsingle
  · intro hlost
    rw [(run_recorded _ _ _).2]
    have hkafka : (exec codec env (self.publishBatch codec serialize events) s).2.kafka = _ :=
      congrArg (fun r => r.2.kafka) hall
    change Divided codec self s.kafka events
      (exec codec env (self.publishBatch codec serialize events) s).2.kafka
    rw [hkafka]
    exact divided_foldl hlost s.kafka events

section Atomicity

/-- The rows of the outbox and the messages handed to the producer. -/
def written (k : KafkaLegs Value) : ℕ := k.outbox.table.rows.length + k.sends.length

/-- An enqueue stores a row if it succeeds, and takes none away. -/
theorem enqueued_rows (k : KafkaLegs Value) (event : DomainEvent Value) :
    k.outbox.table.rows.length ≤ (enqueued codec env k event).2.outbox.table.rows.length ∧
      ((enqueued codec env k event).1 = .ok () →
        k.outbox.table.rows.length < (enqueued codec env k event).2.outbox.table.rows.length) := by
  unfold enqueued OutboxRepository.enqueue
  cases codec.toValue event with
  | error e =>
    refine ⟨Nat.le_refl _, ?_⟩
    intro h
    cases h
  | ok payload =>
    have hrows : ∀ {c : OutboxChoice} {now : ℕ} {t t' : OutboxTable Value},
        insertRow codec c now t event.eventType payload = .ok t' → t.rows.length < t'.rows.length := by
      intro c now t t' h
      rw [insertRow_ok h, List.length_append]
      exact Nat.lt_succ_self _
    refine ⟨?_, fun hanswer => hrows (settle_ok hanswer)⟩
    rcases settle_table (c := env.enqueue k.enqueues) k.outbox.table (insertRow codec
      (env.enqueue k.enqueues) (k.outbox.now + (env.enqueue k.enqueues).elapsed) k.outbox.table
      event.eventType payload) with hsame | hstored
    · exact (congrArg (fun t => t.rows.length) hsame).ge
    · exact (hrows hstored).le

/-- Dispatching an event that goes to Kafka leaves a trace, and nothing takes one away. -/
theorem written_dispatched (k : KafkaLegs Value) (event : DomainEvent Value) :
    written k + (dualWritten self [event]).length ≤ written (dispatched codec env self k event) := by
  unfold dispatched dualWritten
  cases hkafka : self.kafka with
  | none => simp
  | some kafka =>
    cases hskip : skipKafkaDualWrite event.eventType with
    | true => simp [hskip]
    | false =>
      obtain ⟨hkept, hstored⟩ := @enqueued_rows _ codec env k event
      have hsends : (enqueued codec env k event).2.sends = k.sends := rfl
      simp only [Bool.false_eq_true, if_false, Option.isSome_some, if_true, hskip,
        List.filter_singleton, Bool.not_false, cond_true, List.length_singleton]
      cases self.outbox with
      | false => simp [written, Nat.add_assoc]
      | true =>
        simp only [if_true]
        cases hanswer : (enqueued codec env k event).1 with
        | ok u =>
          have hmore := hstored hanswer
          simp only [written, hsends]
          omega
        | error e =>
          simp only [written, hsends, List.length_append, List.length_singleton]
          omega

theorem written_foldl (k : KafkaLegs Value) (events : List (DomainEvent Value)) :
    written k + (dualWritten self events).length ≤
      written (events.foldl (dispatched codec env self) k) := by
  induction events generalizing k with
  | nil => simp [dualWritten]
  | cons event events ih =>
    have hfirst := @written_dispatched _ codec env self k event
    have hrest := ih (dispatched codec env self k event)
    have hsplit : dualWritten self (event :: events) =
        dualWritten self [event] ++ dualWritten self events := dualWritten_append self [event] events
    rw [List.foldl_cons, hsplit, List.length_append]
    omega

/-- How many entries the trims remove while `n` entries are appended to a stream of some length. -/
def trimmed (env : BusEnvironment) : (length xtrims n : ℕ) → ℕ
  | _, _, 0 => 0
  | length, i, n + 1 =>
    removed env i (length + 1) maxStreamLen +
      trimmed env (length + 1 - removed env i (length + 1) maxStreamLen) (i + 1) n

theorem removed_le (i length : ℕ) : removed env i (length + 1) maxStreamLen ≤ length := by
  unfold removed maxStreamLen
  split <;> omega

/-- The trims leave a stream of the length they were asked for. -/
theorem trimmed_le (length xtrims n : ℕ) : trimmed env length xtrims n ≤ length + n - maxStreamLen := by
  induction n generalizing length xtrims with
  | zero => exact Nat.zero_le _
  | succ n ih =>
    have hrest := ih (length + 1 - removed env xtrims (length + 1) maxStreamLen) (xtrims + 1)
    have hfirst : removed env xtrims (length + 1) maxStreamLen ≤ length + 1 - maxStreamLen := by
      unfold removed
      split <;> omega
    rw [trimmed]
    omega

/-- What is appended stands behind what was there, and the oldest entries are trimmed. -/
theorem appended_entries {text : DomainEvent Value → String} (r : RedisStream)
    (events : List (DomainEvent Value))
    (hredis : ∀ i < events.length, ∃ id, env.xadd (r.xadds + i) = .ok id) :
    (events.foldl (fun r e => appended env r (text e)) r).entries.map Prod.snd =
      (r.entries.map Prod.snd ++ events.map text).drop
        (trimmed env r.entries.length r.xtrims events.length) := by
  induction events generalizing r with
  | nil => simp [trimmed]
  | cons event events ih =>
    obtain ⟨id, hid⟩ := hredis 0 (Nat.succ_pos _)
    rw [Nat.add_zero] at hid
    have hle := @removed_le env r.xtrims r.entries.length
    have hlength : (appended env r (text event)).entries.length =
        r.entries.length + 1 - removed env r.xtrims (r.entries.length + 1) maxStreamLen := by
      simp [appended, hid, RedisStream.trim, RedisStream.add]
    have hentries : (appended env r (text event)).entries.map Prod.snd =
        (r.entries.map Prod.snd ++ [text event]).drop
          (removed env r.xtrims (r.entries.length + 1) maxStreamLen) := by
      simp [appended, hid, RedisStream.trim, RedisStream.add]
    have hxtrims : (appended env r (text event)).xtrims = r.xtrims + 1 := by
      simp [appended, hid, RedisStream.trim, RedisStream.add]
    rw [List.foldl_cons, ih]
    · rw [hlength, hxtrims, hentries, List.length_cons, trimmed, ← List.drop_drop,
        ← List.drop_append_of_le_length]
      · simp
      · simp only [List.length_append, List.length_map, List.length_singleton]
        omega
    · intro i hi
      rw [appended_xadds, Nat.add_assoc, Nat.add_comm 1 i]
      exact hredis (i + 1) (Nat.succ_lt_succ hi)

/-- A list is still at the end of a shortened one exactly when nothing of it was cut off. -/
theorem suffix_drop_iff {α : Type} {old new : List α} {k : ℕ} (hk : new = [] → k ≤ old.length) :
    new <:+ (old ++ new).drop k ↔ k ≤ old.length := by
  constructor
  · intro h
    by_contra hcut
    have hlength := h.length_le
    rw [List.length_drop, List.length_append] at hlength
    have hnil : new = [] := List.length_eq_zero_iff.mp (by omega)
    exact hcut (hk hnil)
  · intro h
    rw [List.drop_append_of_le_length h]
    exact List.suffix_append _ _

/-- A newer entry than the first `m` is in the stream. -/
def Newer (m : ℕ) (r : RedisStream) : Prop := ∃ e ∈ r.entries, m ≤ e.1

theorem newer_appended {m : ℕ} {r : RedisStream} {payload id : String} (hm : m ≤ r.xadds)
    (hid : env.xadd r.xadds = .ok id) : Newer m (appended env r payload) := by
  have hle := @removed_le env r.xtrims r.entries.length
  refine ⟨(r.xadds, payload), ?_, hm⟩
  simp only [appended, hid, RedisStream.trim, RedisStream.add]
  rw [List.drop_append_of_le_length hle]
  simp

theorem newer_appendAll {text : DomainEvent Value → String} {events : List (DomainEvent Value)}
    (htext : ∀ e ∈ events, serialize e = .ok (text e)) {m : ℕ} {s : BusState Value}
    (hm : m ≤ s.redis.xadds) (h : Newer m s.redis) :
    Newer m (exec codec env (appendAll serialize events) s).2.redis := by
  induction events generalizing s with
  | nil => exact h
  | cons event events ih =>
    obtain ⟨hfirst, hrest⟩ := List.forall_mem_cons.mp htext
    simp only [appendAll, exec_bind, exec_publishRawNoKafka hfirst]
    cases hid : env.xadd s.redis.xadds with
    | error e =>
      have hsame : appended env s.redis (text event) = s.redis.refuse := by simp [appended, hid]
      simp only [appendAnswer, hsame]
      exact h
    | ok id =>
      have hnext := @ih hrest { s with redis := appended env s.redis (text event) }
        (by rw [appended_xadds]; omega) (newer_appended hm hid)
      simp only [appendAnswer, exec_bind]
      cases (exec codec env (appendAll serialize events)
          { s with redis := appended env s.redis (text event) }).1 with
      | error e => exact hnext
      | ok ids => exact hnext

theorem appendAll_refused_first {text : DomainEvent Value → String}
    {events : List (DomainEvent Value)} (htext : ∀ e ∈ events, serialize e = .ok (text e))
    {s : BusState Value} {error : String} (hrefused : env.xadd s.redis.xadds = .error error) :
    (exec codec env (appendAll serialize events) s).2.redis.entries = s.redis.entries := by
  cases events with
  | nil => rfl
  | cons event events =>
    simp only [appendAll, exec_bind, exec_publishRawNoKafka (htext event List.mem_cons_self), hrefused,
      appendAnswer, appended]
    rfl

theorem appendAll_accepted_first {text : DomainEvent Value → String}
    {events : List (DomainEvent Value)} (htext : ∀ e ∈ events, serialize e = .ok (text e))
    (hne : events ≠ []) {s : BusState Value} {id : String} (hid : env.xadd s.redis.xadds = .ok id) :
    Newer s.redis.xadds (exec codec env (appendAll serialize events) s).2.redis := by
  cases events with
  | nil => exact absurd rfl hne
  | cons event events =>
    obtain ⟨hfirst, hrest⟩ := List.forall_mem_cons.mp htext
    have hnext := @newer_appendAll _ codec env serialize text events hrest s.redis.xadds
      { s with redis := appended env s.redis (text event) } (by rw [appended_xadds]; omega)
      (newer_appended (Nat.le_refl _) hid)
    simp only [appendAll, exec_bind, exec_publishRawNoKafka hfirst, hid, appendAnswer]
    cases (exec codec env (appendAll serialize events)
        { s with redis := appended env s.redis (text event) }).1 with
    | error e => exact hnext
    | ok ids => exact hnext

/-- Events that do not go to Kafka leave its legs alone. -/
theorem foldl_dispatched_of_none {events : List (DomainEvent Value)} (h : dualWritten self events = [])
    (k : KafkaLegs Value) : events.foldl (dispatched codec env self) k = k := by
  induction events generalizing k with
  | nil => rfl
  | cons event events ih =>
    have hsplit : dualWritten self (event :: events) =
        dualWritten self [event] ++ dualWritten self events := dualWritten_append self [event] events
    rw [hsplit, List.append_eq_nil_iff] at h
    have hfirst : dispatched codec env self k event = k := by
      have hnone := h.1
      unfold dualWritten at hnone
      unfold dispatched
      cases hkafka : self.kafka with
      | none => rfl
      | some kafka =>
        cases hskip : skipKafkaDualWrite event.eventType with
        | true => simp
        | false => simp [hkafka, hskip] at hnone
    rw [List.foldl_cons, hfirst, ih h.2]

/-- A batch that fails has written nothing, and one that succeeds has appended all its events. -/
def AllOrNothing (payloads : List String) (s : BusState Value)
    (ended : Result Unit × BusState Value) : Prop :=
  (∀ e, ended.1 = .error e → ended.2.redis.entries = s.redis.entries ∧
    ended.2.kafka.outbox.table.rows = s.kafka.outbox.table.rows ∧
    ended.2.kafka.sends = s.kafka.sends) ∧
  (ended.1 = .ok () → payloads <:+ ended.2.redis.entries.map Prod.snd)

variable {text : DomainEvent Value → String} {events : List (DomainEvent Value)}

/-- A batch that Redis accepts stays whole unless its own entries are trimmed. -/
theorem allOrNothing_of_accepted (htext : ∀ e ∈ events, serialize e = .ok (text e))
    (hredis : ∀ i < events.length, ∃ id, env.xadd (s.redis.xadds + i) = .ok id) :
    AllOrNothing (events.map text) s (exec codec env (self.publishBatch codec serialize events) s) ↔
      trimmed env s.redis.entries.length s.redis.xtrims events.length ≤ s.redis.entries.length := by
  have hnil : events.map text = [] →
      trimmed env s.redis.entries.length s.redis.xtrims events.length ≤
        (s.redis.entries.map Prod.snd).length := by
    intro h
    rw [List.map_eq_nil_iff.mp h]
    exact Nat.zero_le _
  rw [exec_publishBatch htext hredis]
  have hsuffix := suffix_drop_iff hnil
  rw [List.length_map] at hsuffix
  simp only [AllOrNothing, appended_entries s.redis events hredis, forall_const, hsuffix]
  constructor
  · exact fun h => h.2
  · intro h
    refine ⟨?_, h⟩
    intro e he
    cases he

/-- A batch that Redis refuses has written nothing exactly when Redis refuses its first event and
none of its events goes to Kafka. -/
theorem allOrNothing_of_refused (htext : ∀ e ∈ events, serialize e = .ok (text e))
    (hredis : ¬ ∀ i < events.length, ∃ id, env.xadd (s.redis.xadds + i) = .ok id) :
    AllOrNothing (events.map text) s (exec codec env (self.publishBatch codec serialize events) s) ↔
      (∃ e, env.xadd s.redis.xadds = .error e) ∧ dualWritten self events = [] := by
  obtain ⟨e, he⟩ := @exec_appendAll_error _ codec env serialize
    { s with kafka := events.foldl (dispatched codec env self) s.kafka } text events htext hredis
  have hkafka := @exec_appendAll_kafka _ codec env serialize
    { s with kafka := events.foldl (dispatched codec env self) s.kafka } text events htext
  have hne : events ≠ [] := by
    rintro rfl
    exact hredis (fun i hi => absurd hi (Nat.not_lt_zero i))
  rw [exec_publishBatch_eq]
  simp only [AllOrNothing, he, report, hkafka]
  constructor
  · rintro ⟨hnothing, -⟩
    obtain ⟨hentries, hrows, hsends⟩ := hnothing _ rfl
    constructor
    · cases hid : env.xadd s.redis.xadds with
      | error e => exact ⟨e, rfl⟩
      | ok id =>
        obtain ⟨x, hx, hnew⟩ := @appendAll_accepted_first _ codec env serialize text events htext hne
          { s with kafka := events.foldl (dispatched codec env self) s.kafka } id hid
        rw [hentries] at hx
        have hold := s.redis.numbered x hx
        exact absurd hnew (Nat.not_le_of_lt hold)
    · have hwritten := @written_foldl _ codec env self s.kafka events
      simp only [written, hrows, hsends] at hwritten
      exact List.length_eq_zero_iff.mp (by omega)
  · rintro ⟨⟨e', he'⟩, hnone⟩
    refine ⟨?_, ?_⟩
    · intro _ _
      rw [foldl_dispatched_of_none hnone]
      exact ⟨appendAll_refused_first htext he', rfl, rfl⟩
    · intro h
      cases h

end Atomicity

/-- A batch is all or nothing exactly when Redis accepts every event and the trims spare them, or
Redis refuses the first event and no event of the batch goes to Kafka. -/
theorem publishBatch_atomic_iff {text : DomainEvent Value → String} {events : List (DomainEvent Value)}
    (htext : ∀ e ∈ events, serialize e = .ok (text e)) (s : BusState Value) :
    AllOrNothing (events.map text) s
        (run (EventBus.handle codec env) (self.publishBatch codec serialize events) (fun _ => ()) s) ↔
      ((∀ i < events.length, ∃ id, env.xadd (s.redis.xadds + i) = .ok id) ∧
        trimmed env s.redis.entries.length s.redis.xtrims events.length ≤ s.redis.entries.length) ∨
      (events ≠ [] ∧ (∃ e, env.xadd s.redis.xadds = .error e) ∧ dualWritten self events = []) := by
  by_cases hredis : ∀ i < events.length, ∃ id, env.xadd (s.redis.xadds + i) = .ok id
  · refine (allOrNothing_of_accepted htext hredis).trans ?_
    constructor
    · exact fun h => .inl ⟨hredis, h⟩
    · rintro (h | ⟨hne, ⟨e, he⟩, -⟩)
      · exact h.2
      · obtain ⟨id, hid⟩ := hredis 0 (List.length_pos_iff.mpr hne)
        rw [Nat.add_zero, he] at hid
        cases hid
  · refine (allOrNothing_of_refused htext hredis).trans ?_
    constructor
    · intro h
      refine .inr ⟨?_, h⟩
      rintro rfl
      exact hredis (fun i hi => absurd hi (Nat.not_lt_zero i))
    · rintro (h | h)
      · exact absurd h.1 hredis
      · exact h.2

section Logins
open ReferenceLibraries

/-- An event without data, as it is written to the stream. -/
def eventText (e : DomainEvent Json) : String :=
  "\x7b\"id\":\"" ++ uuidToString e.id ++ "\",\"event_type\":\"" ++ e.eventType ++
    "\",\"timestamp\":\"" ++ e.timestamp ++ "\",\"source\":\"" ++ e.source ++ "\"\x7d"

def auditEvent (id : ℕ) (eventType : String) : DomainEvent Json :=
  ⟨⟨id⟩, eventType, "2026-06-15T12:00:00+00:00", none, "gridtokenx-iam"⟩

/-- The two events of a login, and the check of an API key. -/
def loginEvents : List (DomainEvent Json) :=
  [auditEvent 41 "LoginAttempt", auditEvent 42 "ApiKeyVerified", auditEvent 43 "UserLoggedIn"]

/-- A bus with a Kafka producer and an outbox. -/
def loginBus : EventBus := ⟨some (.new none), true⟩

/-- A bus that has published nothing. -/
def quietBus : BusState Json := ⟨⟨⟨0, .empty⟩, [], 0⟩, ⟨[], 0, 0, by simp⟩⟩

/-- Redis answers, and the second enqueue fails. -/
def flakyOutbox : BusEnvironment where
  enqueue := fun n => { fails := n = 1, uuid := ⟨50 + n⟩ }
  xadd := fun n => .ok (toString n)
  xtrim := fun _ => .ok 0

/-- Redis refuses every entry after the first. -/
def failingRedis : BusEnvironment where
  enqueue := fun n => { uuid := ⟨50 + n⟩ }
  xadd := fun n => if n = 0 then .ok "0" else .error "connection reset"
  xtrim := fun _ => .ok 0

/-- One of the events is stored in the outbox, and one is sent at once. -/
theorem login_batch_eq :
    let batch := run (recorded (EventBus.handle eventCodec flakyOutbox))
      (EventBus.publishBatch eventCodec (fun e => .ok (eventText e)) loginBus loginEvents) (fun _ => ())
      (quietBus, [])
    let single := run (recorded (EventBus.handle eventCodec flakyOutbox))
      (EventBus.publishEach eventCodec (fun e => .ok (eventText e)) loginBus loginEvents) (fun _ => ())
      (quietBus, [])
    batch.2.1 = single.2.1 ∧
      batch.2.1.kafka.sends.map (fun r => (r.topic, r.payload.id)) = [("iam.user.events", ⟨43⟩)] ∧
      batch.2.1.kafka.outbox.table.rows.map (·.eventType) = ["LoginAttempt"] ∧
      Divided eventCodec loginBus quietBus.kafka loginEvents batch.2.1.kafka := by
  have hsame := @publishBatch_eq_publishEach _ eventCodec flakyOutbox loginBus
    (fun e => .ok (eventText e)) eventText loginEvents (fun _ _ => rfl) (fun i => ⟨_, rfl⟩) quietBus
  exact ⟨hsame.1, by decide +kernel, by decide +kernel, hsame.2.2.2 (fun _ _ => rfl)⟩

theorem login_batch_atomic :
    AllOrNothing (loginEvents.map eventText) quietBus
      (run (EventBus.handle eventCodec flakyOutbox)
        (EventBus.publishBatch eventCodec (fun e => .ok (eventText e)) loginBus loginEvents) (fun _ => ())
        quietBus) := by
  refine (publishBatch_atomic_iff (fun _ _ => rfl) quietBus).mpr (.inl ⟨fun i _ => ⟨_, rfl⟩, ?_⟩)
  exact (trimmed_le _ _ _).trans (by decide)

/-- The first event stays in the stream when the second is refused. -/
theorem failing_batch_leaves_entry :
    ¬ ∀ (env : BusEnvironment) (self : EventBus) (events : List (DomainEvent Json)),
      AllOrNothing (events.map eventText) quietBus
        (run (EventBus.handle eventCodec env)
          (self.publishBatch eventCodec (fun e => .ok (eventText e)) events) (fun _ => ()) quietBus) := by
  intro h
  have hnothing := (h failingRedis ⟨none, false⟩ loginEvents).1 _ rfl
  have hentries := congrArg List.length hnothing.1
  revert hentries
  decide +kernel

end Logins

end IamService.EventBatches
