import IamService.EventBus
import IamService.Obligations
import IamService.OutboxDelivery

/-!
# The outbox relays events unchanged

The events that the service produces, as `events.rs` builds them. Every one of them can be
stored, and what is decoded from its row is the same event. So in every run of producers and
workers a worker publishes what it has fetched, under the topic and the key that the bus would
have given the event at once. It publishes only events that were enqueued, and counts an attempt
as failed only when the broker has refused the event.
-/

namespace IamService
open EffectPrograms OutboxRepository OutboxDelivery

/-- What `Event::new` draws: an identifier of 128 bits and the time. -/
structure Stamp where
  id : Uuid
  timestamp : String
  width : id.bits < 2 ^ 128

namespace DomainEvent

/-- `Event::new`. -/
def new (stamp : Stamp) (eventType source : String) : DomainEvent Json where
  id := stamp.id
  eventType := eventType
  timestamp := stamp.timestamp
  data := none
  source := source

def withData (event : DomainEvent Json) (data : Json) : DomainEvent Json :=
  { event with data := some data }

end DomainEvent

section Constructors

variable (uuidToString : Uuid → String) (stamp : Stamp)

/-- An absent text is null. -/
def Json.optional (text : Option String) : Json := (text.map Json.string).getD .null

/-- The constructors of `events.rs`. The members of an object are in the order of their keys. -/
def Event.toDomain : Event → DomainEvent Json
  | .userRegistered userId username email =>
    (DomainEvent.new stamp "UserRegistered" "gridtokenx-iam").withData (.object
      [("email", .string email), ("user_id", .string (uuidToString userId)),
        ("username", .string username)])
  | .userLoggedIn userId username ip =>
    (DomainEvent.new stamp "UserLoggedIn" "gridtokenx-iam").withData (.object
      [("ip_address", .optional ip), ("user_id", .string (uuidToString userId)),
        ("username", .string username)])
  | .verificationEmailRequested userId username email token =>
    (DomainEvent.new stamp "VerificationEmailRequested" "gridtokenx-iam").withData (.object
      [("email", .string email), ("token", .string token),
        ("user_id", .string (uuidToString userId)), ("username", .string username)])
  | .emailVerified userId username email walletAddress =>
    (DomainEvent.new stamp "EmailVerified" "gridtokenx-iam").withData (.object
      [("email", .string email), ("user_id", .string (uuidToString userId)),
        ("username", .string username), ("wallet_address", .string walletAddress)])
  | .userOnboarded userId walletAddress userAccountPda txSignature userType shardId =>
    (DomainEvent.new stamp "UserOnboarded" "gridtokenx-iam").withData (.object
      [("shard_id", .number shardId.toNat), ("transaction_signature", .string txSignature),
        ("user_account_pda", .string userAccountPda), ("user_id", .string (uuidToString userId)),
        ("user_type", .string userType), ("wallet_address", .string walletAddress)])
  | .loginAttempt identifier success ip =>
    (DomainEvent.new stamp "LoginAttempt" "gridtokenx-iam").withData (.object
      [("identifier", .string identifier), ("ip_address", .optional ip), ("success", .bool success)])
  | .accountLocked identifier lockoutSecs =>
    (DomainEvent.new stamp "AccountLocked" "gridtokenx-iam").withData (.object
      [("identifier", .string identifier), ("lockout_secs", .number lockoutSecs)])
  | .apiKeyVerified keyName role =>
    (DomainEvent.new stamp "ApiKeyVerified" "gridtokenx-iam").withData (.object
      [("key_name", .string keyName), ("role", .string role)])
  | .userWalletLinked userId walletAddress userAccountPda txSignature shardId =>
    (DomainEvent.new stamp "UserWalletLinked" "gridtokenx-iam").withData (.object
      [("shard_id", .number shardId.toNat), ("transaction_signature", .string txSignature),
        ("user_account_pda", .string userAccountPda), ("user_id", .string (uuidToString userId)),
        ("wallet_address", .string walletAddress)])
  | .passwordResetRequested userId email resetUrl =>
    (DomainEvent.new stamp "PasswordResetRequested" "gridtokenx-iam").withData (.object
      [("email", .string email), ("reset_url", .string resetUrl),
        ("user_id", .string (uuidToString userId))])

end Constructors

/-- The texts among the arguments of a constructor. -/
def Event.texts : Event → List String
  | .userRegistered _ username email => [username, email]
  | .userLoggedIn _ username ip => username :: ip.toList
  | .verificationEmailRequested _ username email token => [username, email, token]
  | .emailVerified _ username email walletAddress => [username, email, walletAddress]
  | .userOnboarded _ walletAddress userAccountPda txSignature userType _ =>
    [walletAddress, userAccountPda, txSignature, userType]
  | .loginAttempt identifier _ ip => identifier :: ip.toList
  | .accountLocked identifier _ => [identifier]
  | .apiKeyVerified keyName role => [keyName, role]
  | .userWalletLinked _ walletAddress userAccountPda txSignature _ =>
    [walletAddress, userAccountPda, txSignature]
  | .passwordResetRequested _ email resetUrl => [email, resetUrl]

/-- A call of one of the constructors. -/
inductive Construction where
  | new (eventType source : String)
  | named (event : Event)

namespace Construction

def build (uuidToString : Uuid → String) (stamp : Stamp) : Construction → DomainEvent Json
  | .new eventType source => .new stamp eventType source
  | .named event => event.toDomain uuidToString stamp

def texts : Construction → List String
  | .new eventType source => [eventType, source]
  | .named event => event.texts

end Construction

namespace EventRelay
open EventSerialization

/-- The text of an identifier has no NUL and is read back as the identifier. -/
structure UuidTexts (uuidToString : Uuid → String) (uuidFromStr : String → Except String Uuid) :
    Prop where
  text : ∀ id, sqlText (uuidToString id) = true
  read : ∀ id : Uuid, id.bits < 2 ^ 128 → uuidFromStr (uuidToString id) = .ok id

variable {uuidToString : Uuid → String} {uuidFromStr : String → Except String Uuid}

section OneEvent

/-- Null data are read as absent. -/
def present : Option Json → Option Json
  | some .null => none
  | data => data

theorem fromMembers_texts (laws : UuidTexts uuidToString uuidFromStr) {id : Uuid}
    (hid : id.bits < 2 ^ 128) (eventType timestamp source : String) (data : Option Json) :
    fromMembers uuidFromStr (.string (uuidToString id)) (.string eventType) (.string timestamp) data
      (.string source) = .ok ⟨id, eventType, timestamp, present data, source⟩ := by
  simp only [fromMembers, bind_eq_ok, pure_eq_ok]
  refine ⟨uuidToString id, rfl, id, laws.read id hid, eventType, rfl, timestamp, rfl, source, rfl, ?_⟩
  rcases data with _ | data
  · rfl
  · cases data <;> rfl

/-- What was serialised is read back, up to null data. -/
theorem fromValue_toValue (laws : UuidTexts uuidToString uuidFromStr) {event : DomainEvent Json}
    (hid : event.id.bits < 2 ^ 128) :
    fromValue uuidFromStr (toValue uuidToString event) =
      .ok { event with data := present event.data } := by
  obtain ⟨id, eventType, timestamp, data, source⟩ := event
  rcases data with _ | data
  · exact fromMembers_texts laws hid eventType timestamp source none
  · exact fromMembers_texts laws hid eventType timestamp source (some data)

/-- An event is relayed unchanged unless its data are null. -/
theorem relayed_iff (laws : UuidTexts uuidToString uuidFromStr) {event : DomainEvent Json}
    (hid : event.id.bits < 2 ^ 128) :
    fromValue uuidFromStr (toValue uuidToString event) = .ok event ↔ event.data ≠ some .null := by
  rw [fromValue_toValue laws hid, Except.ok.injEq]
  obtain ⟨id, eventType, timestamp, data, source⟩ := event
  rcases data with _ | data
  · simp [present]
  · cases data <;> simp [present]

/-- The names of the constructors, as event types. -/
def eventTypes : List String :=
  ["UserRegistered", "UserLoggedIn", "VerificationEmailRequested", "EmailVerified", "UserOnboarded",
    "LoginAttempt", "AccountLocked", "ApiKeyVerified", "UserWalletLinked", "PasswordResetRequested"]

/-- Constructors differ in the event type and the data only. -/
theorem toDomain_members (event : Event) (stamp : Stamp) :
    (event.toDomain uuidToString stamp).id = stamp.id ∧
      (event.toDomain uuidToString stamp).eventType ∈ eventTypes ∧
      (event.toDomain uuidToString stamp).timestamp = stamp.timestamp ∧
      (event.toDomain uuidToString stamp).source = "gridtokenx-iam" := by
  cases event <;> simp [Event.toDomain, DomainEvent.withData, DomainEvent.new, eventTypes]

/-- Texts without NUL make an event that can be stored. -/
theorem storable_toValue (laws : UuidTexts uuidToString uuidFromStr) {event : DomainEvent Json}
    (htype : sqlText event.eventType = true) (htime : sqlText event.timestamp = true)
    (hsource : sqlText event.source = true) (hdata : ∀ data ∈ event.data, data.storable = true) :
    (toValue uuidToString event).storable = true := by
  obtain ⟨id, eventType, timestamp, data, source⟩ := event
  have hkeys : ["data", "event_type", "id", "source", "timestamp"].all sqlText = true := by
    decide +kernel
  simp only [List.all_cons, List.all_nil, Bool.and_true, Bool.and_eq_true] at hkeys
  obtain ⟨hdatum, htypes, hids, hsources, htimes⟩ := hkeys
  have hmembers : Json.fieldsStorable [("event_type", .string eventType),
      ("id", .string (uuidToString id)), ("source", .string source),
      ("timestamp", .string timestamp)] = true := by
    simp only at htype htime hsource
    simp [Json.fieldsStorable, Json.storable, htypes, hids, hsources, htimes, htype, htime, hsource,
      laws.text]
  cases data with
  | none => exact hmembers
  | some data =>
    change (sqlText "data" && data.storable && Json.fieldsStorable _) = true
    rw [hdatum, hdata data rfl]
    exact hmembers

theorem storable_optional {text : Option String} (h : ∀ t ∈ text, sqlText t = true) :
    (Json.optional text).storable = true := by
  cases text with
  | none => rfl
  | some t => exact h t rfl

/-- The data of every constructor can be stored when its texts have no NUL. -/
theorem storable_toDomain (laws : UuidTexts uuidToString uuidFromStr) (stamp : Stamp) {event : Event}
    (h : ∀ t ∈ event.texts, sqlText t = true) :
    ∀ data ∈ (event.toDomain uuidToString stamp).data, data.storable = true := by
  have hkeys : ["email", "user_id", "username", "ip_address", "token", "wallet_address", "shard_id",
      "transaction_signature", "user_account_pda", "user_type", "identifier", "success",
      "lockout_secs", "key_name", "role", "reset_url"].all sqlText = true := by decide +kernel
  simp only [List.all_cons, List.all_nil, Bool.and_true, Bool.and_eq_true] at hkeys
  cases event <;> rintro _ ⟨⟩ <;>
    simp_all [Event.texts, Json.storable, Json.fieldsStorable, laws.text, storable_optional]

end OneEvent

variable (uuidToString) in
/-- An event that this service can have produced. -/
def Produced (event : DomainEvent Json) : Prop :=
  ∃ (construction : Construction) (stamp : Stamp), sqlText stamp.timestamp = true ∧
    (∀ t ∈ construction.texts, sqlText t = true) ∧ event = construction.build uuidToString stamp

section Produced

variable {event : DomainEvent Json}

theorem Produced.decoded (laws : UuidTexts uuidToString uuidFromStr)
    (h : Produced uuidToString event) :
    fromValue uuidFromStr (toValue uuidToString event) = .ok event := by
  obtain ⟨construction, stamp, -, -, rfl⟩ := h
  cases construction with
  | new eventType source =>
    refine (relayed_iff laws stamp.width).mpr ?_
    intro hdata
    cases hdata
  | named event =>
    have hid : (event.toDomain uuidToString stamp).id.bits < 2 ^ 128 := by
      rw [(toDomain_members event stamp).1]
      exact stamp.width
    refine (relayed_iff laws hid).mpr ?_
    cases event <;> (intro hdata; cases hdata)

theorem Produced.type_text (h : Produced uuidToString event) : sqlText event.eventType = true := by
  obtain ⟨construction, stamp, -, htexts, rfl⟩ := h
  cases construction with
  | new eventType source => exact htexts eventType List.mem_cons_self
  | named event =>
    have hnames : eventTypes.all sqlText = true := by decide +kernel
    exact List.all_eq_true.mp hnames _ (toDomain_members event stamp).2.1

theorem Produced.storable (laws : UuidTexts uuidToString uuidFromStr)
    (h : Produced uuidToString event) : (toValue uuidToString event).storable = true := by
  have htype := h.type_text
  obtain ⟨construction, stamp, htime, htexts, rfl⟩ := h
  cases construction with
  | new eventType source =>
    refine storable_toValue laws htype htime (htexts source (by simp [Construction.texts])) ?_
    intro data hdata
    cases hdata
  | named event =>
    obtain ⟨-, -, htimestamp, hname⟩ := @toDomain_members uuidToString event stamp
    have htime' : sqlText (event.toDomain uuidToString stamp).timestamp = true := by
      rw [htimestamp]
      exact htime
    have hsource : sqlText (event.toDomain uuidToString stamp).source = true := by
      rw [hname]
      decide
    exact storable_toValue laws htype htime' hsource (storable_toDomain laws stamp htexts)

end Produced

section Runs

variable (uuidToString uuidFromStr) in
/-- Producers enqueue events of this service, and workers drain them to one Kafka. -/
def Producing (kafka : KafkaEventBus) {σ : Type} (_ : σ) (p : OutboxProgram Json (Result Unit)) :
    Prop :=
  ∃ activity, p = Activity.program (codec uuidToString uuidFromStr) activity ∧
    match activity with
    | .enqueue event => Produced uuidToString event
    | .drain worker _ => worker.kafka = kafka

variable (uuidToString uuidFromStr) in
/-- The bus hands this record to the producer when it publishes the event directly. -/
def Direct (kafka : KafkaEventBus) (event : DomainEvent Json) (record : KafkaRecord Json) : Prop :=
  ∀ outbox env (b : BusState Json),
    (run (EventBus.handle (codec uuidToString uuidFromStr) env)
      (EventBus.spawnKafkaPublish (codec uuidToString uuidFromStr) ⟨some kafka, outbox⟩ event)
      (fun _ => ()) b).2.kafka.sends = b.kafka.sends ++ [record]

theorem direct_record (kafka : KafkaEventBus) (event : DomainEvent Json) :
    Direct uuidToString uuidFromStr kafka event
      (kafka.record (codec uuidToString uuidFromStr) event) := fun _ _ _ => rfl

variable (uuidToString) in
/-- An event of this service whose insertion is in the history. -/
def Enqueued (history : History Json) (event : DomainEvent Json) : Prop :=
  Produced uuidToString event ∧
    ∃ x ∈ history, x.op = .insert event.eventType (toValue uuidToString event)

/-- The event that the broker refused. -/
def refused : Observed (@OutboxOp.Ans Json) (OutboxState Json) → Option (DomainEvent Json)
  | ⟨_, .publish record, .error _, _⟩ => some record.payload
  | _ => none

variable (uuidToString) in
/-- A row holds an event that was enqueued. -/
def Holds (history : History Json) (r : OutboxRow Json) (event : DomainEvent Json) : Prop :=
  Enqueued uuidToString history event ∧ r.eventType = event.eventType ∧
    r.payload = toValue uuidToString event

variable (uuidToString uuidFromStr) in
/-- What may be done to a table: events of this service are inserted, what was enqueued is
published in its record, and only a row whose event was refused counts an attempt. -/
def Faithful (kafka : KafkaEventBus) (history : History Json) (table : OutboxTable Json) :
    OutboxOp Json → Prop
  | .insert eventType payload => ∃ event, Produced uuidToString event ∧
      eventType = event.eventType ∧ payload = toValue uuidToString event
  | .publish record => Enqueued uuidToString history record.payload ∧
      record = kafka.record (codec uuidToString uuidFromStr) record.payload
  | .markFailed id => ∀ r ∈ table.rows, r.id = id → ∃ event, Holds uuidToString history r event ∧
      ∃ x ∈ history, refused x = some event
  | _ => True

variable (uuidToString uuidFromStr) in
/-- Every row holds an event that was enqueued, and so does every record fetched; every event
that was stored still is, and every operation was faithful. -/
structure Relayed (kafka : KafkaEventBus) (s : Traced Json) : Prop where
  rows : ∀ r ∈ s.1.table.rows, ∃ event, Holds uuidToString s.2 r event
  records : ∀ x ∈ s.2, ∀ records, fetched x = some records → ∀ record ∈ records,
    ∃ event, Enqueued uuidToString s.2 event ∧ record.payload = toValue uuidToString event
  stored : ∀ x ∈ s.2, ∀ eventType payload, inserted x = some (eventType, payload) →
    ∃ r ∈ s.1.table.rows, r.eventType = eventType ∧ r.payload = payload
  operations : ∀ x ∈ s.2, Faithful uuidToString uuidFromStr kafka s.2 x.pre.table x.op

variable (uuidToString uuidFromStr) in
/-- The terms on which producers and workers share the outbox. -/
def relaying (kafka : KafkaEventBus) : Discipline (OutboxOp Json) OutboxChoice (Traced Json) where
  inv := Relayed uuidToString uuidFromStr kafka
  rely := fun s t => Kept s.1.table t.1.table ∧ s.2 ⊆ t.2
  permits := fun s o => Faithful uuidToString uuidFromStr kafka s.2 s.1.table o
  admits := fun _ _ _ => True

variable {kafka : KafkaEventBus} {h h' : History Json} {event : DomainEvent Json}
  {r : OutboxRow Json}

theorem Enqueued.mono (hsub : h ⊆ h') (he : Enqueued uuidToString h event) :
    Enqueued uuidToString h' event := by
  obtain ⟨hproduced, x, hx, hop⟩ := he
  exact ⟨hproduced, x, hsub hx, hop⟩

theorem Holds.mono (hsub : h ⊆ h') (hr : Holds uuidToString h r event) :
    Holds uuidToString h' r event := ⟨hr.1.mono hsub, hr.2⟩

theorem Faithful.mono {table : OutboxTable Json} {o : OutboxOp Json} (hsub : h ⊆ h')
    (ho : Faithful uuidToString uuidFromStr kafka h table o) :
    Faithful uuidToString uuidFromStr kafka h' table o := by
  cases o with
  | publish record => exact ⟨Enqueued.mono hsub ho.1, ho.2⟩
  | markFailed id =>
    intro r hr hid
    obtain ⟨event, hholds, x, hx, hrefused⟩ := ho r hr hid
    exact ⟨event, hholds.mono hsub, x, hsub hx, hrefused⟩
  | _ => exact ho

/-- A version of a row holds the same event. -/
theorem Holds.same {r' : OutboxRow Json} (hr : Holds uuidToString h r event)
    (hsame : SameEvent r r') : Holds uuidToString h r' event :=
  ⟨hr.1, hsame.eventType.trans hr.2.1, hsame.payload.trans hr.2.2⟩

/-- What is fetched are rows of the table. -/
theorem fetched_row {c : OutboxChoice} {s : OutboxState Json} {o : OutboxOp Json}
    {records : List (OutboxRecord Json)} {record : OutboxRecord Json} {codec : EventCodec Json}
    (hfetched : fetched ⟨s, o, (handle codec c s o).1, (handle codec c s o).2⟩ = some records)
    (hrecord : record ∈ records) : ∃ r ∈ s.table.rows, r.payload = record.payload := by
  cases o with
  | fetchPending limit =>
    cases hfails : c.fails with
    | true => simp [fetched, handle, hfails] at hfetched
    | false =>
      simp only [fetched, handle, hfails, Bool.false_eq_true, if_false, Option.some.injEq] at hfetched
      subst hfetched
      obtain ⟨r, hr, -, -, hpayload⟩ := mem_fetchPending hrecord
      exact ⟨r, hr, hpayload⟩
  | _ => cases hfetched

theorem relaying_sound :
    (relaying uuidToString uuidFromStr kafka).Sound
      (recorded (handle (codec uuidToString uuidFromStr))) where
  refl s := ⟨.refl _, List.Subset.refl _⟩
  trans h₁ h₂ := ⟨h₁.1.trans h₂.1, List.Subset.trans h₁.2 h₂.2⟩
  inv_step := by
    intro c s o hs ho _
    set codec := codec uuidToString uuidFromStr
    have hsub : s.2 ⊆ (recorded (handle codec) c s o).2.2 := List.subset_append_left _ _
    refine ⟨?_, ?_, ?_, ?_⟩
    · intro r hr
      rcases row_origin hr with ⟨r₀, hr₀, hsame⟩ | hinsert
      · obtain ⟨event, hevent⟩ := hs.rows r₀ hr₀
        exact ⟨event, (hevent.mono hsub).same hsame⟩
      · subst hinsert
        obtain ⟨event, hproduced, htype, hpayload⟩ := ho
        refine ⟨event, ⟨hproduced, _, List.mem_append_right _ List.mem_cons_self, ?_⟩, htype, hpayload⟩
        rw [htype, hpayload]
    · intro x hx records hfetched record hrecord
      rcases List.mem_append.mp hx with hx | hx
      · obtain ⟨event, henqueued, hpayload⟩ := hs.records x hx records hfetched record hrecord
        exact ⟨event, henqueued.mono hsub, hpayload⟩
      · rw [List.mem_singleton.mp hx] at hfetched
        obtain ⟨r, hr, hpayload⟩ := fetched_row hfetched hrecord
        obtain ⟨event, hholds⟩ := hs.rows r hr
        exact ⟨event, hholds.1.mono hsub, hpayload.symm.trans hholds.2.2⟩
    · intro x hx eventType payload hinserted
      rcases List.mem_append.mp hx with hx | hx
      · obtain ⟨r, hr, htype, hpayload⟩ := hs.stored x hx eventType payload hinserted
        obtain ⟨r', hr', hsame⟩ := kept_handle codec c s.1 o r hr
        exact ⟨r', hr', hsame.eventType.trans htype, hsame.payload.trans hpayload⟩
      · rw [List.mem_singleton.mp hx] at hinserted
        obtain ⟨row, hrows, htype, hpayload⟩ := inserted_row ⟨c, rfl⟩ hinserted
        refine ⟨row, ?_, htype, hpayload⟩
        change row ∈ (handle codec c s.1 o).2.table.rows
        rw [hrows]
        simp
    · intro x hx
      rcases List.mem_append.mp hx with hx | hx
      · exact (hs.operations x hx).mono hsub
      · rw [List.mem_singleton.mp hx]
        exact Faithful.mono hsub ho
  rely_step := by
    intro c s o _ _ _
    exact ⟨kept_handle _ c s.1 o, List.subset_append_left _ _⟩

variable (uuidToString uuidFromStr kafka) in
/-- A program that keeps to these terms. -/
abbrev Relaying {α : Type} (p : OutboxProgram Json α) (s : Traced Json) : Prop :=
  Safe (recorded (handle (codec uuidToString uuidFromStr))) (relaying uuidToString uuidFromStr kafka)
    (fun _ _ => True) p s

variable {s t : Traced Json} {worker : OutboxWorker} {record : OutboxRecord Json}

variable (uuidToString) in
/-- A record of a row with an event that was enqueued. -/
def Fetched (s : Traced Json) (record : OutboxRecord Json) (event : DomainEvent Json) : Prop :=
  Held s record ∧ Enqueued uuidToString s.2 event ∧ record.payload = toValue uuidToString event

theorem Fetched.stable (hf : Fetched uuidToString s record event)
    (hst : Kept s.1.table t.1.table ∧ s.2 ⊆ t.2) : Fetched uuidToString t record event :=
  ⟨hf.1.stable hst.1, hf.2.1.mono hst.2, hf.2.2⟩

/-- After a refusal the row of the record may count an attempt. -/
theorem Fetched.faithful (laws : UuidTexts uuidToString uuidFromStr)
    (hf : Fetched uuidToString s record event) (hs : Relayed uuidToString uuidFromStr kafka s)
    (hrefused : ∃ x ∈ s.2, refused x = some event) :
    Faithful uuidToString uuidFromStr kafka s.2 s.1.table (.markFailed record.id) := by
  obtain ⟨⟨r₀, hr₀, hid₀, hpayload₀⟩, henqueued, hpayload⟩ := hf
  intro r hr hid
  have hrow : r = r₀ := s.1.table.eq_of_id hr hr₀ (hid.trans hid₀.symm)
  obtain ⟨event', hholds⟩ := hs.rows r hr
  -- the payload of the row decodes to one event only
  have hevent : event' = event := by
    have hsame : toValue uuidToString event' = toValue uuidToString event := by
      rw [← hholds.2.2, hrow, hpayload₀, hpayload]
    have hdecoded := hholds.1.1.decoded laws
    rw [hsame, henqueued.1.decoded laws] at hdecoded
    exact (Except.ok.inj hdecoded).symm
  exact ⟨event, hevent ▸ hholds, hrefused⟩

theorem relaying_deliver (laws : UuidTexts uuidToString uuidFromStr)
    (hf : Fetched uuidToString s record event) :
    Relaying uuidToString uuidFromStr worker.kafka
      (worker.deliver (codec uuidToString uuidFromStr) record) s := by
  have hdecoded : (codec uuidToString uuidFromStr).fromValue record.payload = .ok event := by
    rw [hf.2.2]
    exact hf.2.1.1.decoded laws
  unfold OutboxWorker.deliver
  rw [hdecoded]
  intro t ht _
  refine ⟨⟨(hf.stable ht).2.1, rfl⟩, ?_⟩
  intro c _
  cases hfails : c.fails with
  | true =>
    simp only [recorded_ans, handle, hfails, if_true]
    intro u hu hinv
    refine ⟨?_, fun _ _ => trivial⟩
    -- the refusal is the last operation before those of others
    have hrefused : ∃ x ∈ u.2, refused x = some event := by
      refine ⟨_, hu.2 (List.mem_append_right _ List.mem_cons_self), ?_⟩
      simp [refused, handle, hfails]
    have hkept : Kept t.1.table u.1.table ∧ t.2 ⊆ u.2 :=
      ⟨hu.1, fun x hx => hu.2 (List.mem_append_left _ hx)⟩
    exact ((hf.stable ht).stable hkept).faithful laws hinv hrefused
  | false =>
    simp only [recorded_ans, handle, hfails, Bool.false_eq_true, if_false]
    intro u _ _
    exact ⟨trivial, fun _ _ => trivial⟩

theorem relaying_deliverAll (laws : UuidTexts uuidToString uuidFromStr)
    (pending : List (OutboxRecord Json))
    (hfetched : ∀ record ∈ pending, ∃ event, Fetched uuidToString s record event) :
    Relaying uuidToString uuidFromStr worker.kafka
      (worker.deliverAll (codec uuidToString uuidFromStr) pending) s := by
  induction pending generalizing s with
  | nil => trivial
  | cons record pending ih =>
    obtain ⟨event, hf⟩ := hfetched record List.mem_cons_self
    refine Safe.bind (((relaying_deliver laws hf).reaches relaying_sound).mono ?_)
    rintro _ t ⟨hrely, -⟩
    apply ih
    intro r hr
    obtain ⟨event', hf'⟩ := hfetched r (List.mem_cons_of_mem record hr)
    exact ⟨event', hf'.stable hrely⟩

theorem relaying_tick (laws : UuidTexts uuidToString uuidFromStr) (worker : OutboxWorker)
    (s : Traced Json) :
    Relaying uuidToString uuidFromStr worker.kafka (worker.tick (codec uuidToString uuidFromStr)) s := by
  intro t _ hinv
  refine ⟨trivial, ?_⟩
  intro c _
  cases hfails : c.fails with
  | true =>
    simp only [recorded_ans, handle, hfails, if_true]
    intro _ _ _
    exact ⟨trivial, fun _ _ => trivial⟩
  | false =>
    simp only [recorded_ans, handle, hfails, Bool.false_eq_true, if_false]
    change Relaying uuidToString uuidFromStr worker.kafka
      (worker.deliverAll (codec uuidToString uuidFromStr) _ >>= fun _ => pure _) _
    refine Safe.bind ((relaying_deliverAll laws _ ?_).mono (fun _ _ _ => trivial))
    intro record hrecord
    obtain ⟨r, hr, -, hid, hpayload⟩ := mem_fetchPending hrecord
    obtain ⟨event, hholds⟩ := hinv.rows r hr
    refine ⟨event, ⟨r, hr, hid, hpayload⟩, ?_, hpayload.symm.trans hholds.2.2⟩
    exact hholds.1.mono (List.subset_append_left _ _)

theorem relaying_run (laws : UuidTexts uuidToString uuidFromStr) (worker : OutboxWorker)
    (rounds : ℕ) (s : Traced Json) :
    Relaying uuidToString uuidFromStr worker.kafka (worker.run (codec uuidToString uuidFromStr) rounds) s := by
  induction rounds generalizing s with
  | zero => trivial
  | succ n ih =>
    refine Safe.bind ((relaying_tick laws worker s).mono ?_)
    intro count t _
    split
    · intro u _ _
      exact ⟨trivial, fun _ _ => ih _⟩
    · exact ih t

theorem relaying_producing (laws : UuidTexts uuidToString uuidFromStr)
    {p : OutboxProgram Json (Result Unit)} (hp : Producing uuidToString uuidFromStr kafka s p) :
    Relaying uuidToString uuidFromStr kafka p s := by
  obtain ⟨activity, rfl, hactivity⟩ := hp
  cases activity with
  | enqueue event =>
    intro t _ _
    exact ⟨⟨event, hactivity, rfl, rfl⟩, fun _ _ => trivial⟩
  | drain worker rounds =>
    subst hactivity
    exact Safe.bind ((relaying_run laws worker rounds s).mono (fun _ _ _ => trivial))

theorem relayed_reachable (laws : UuidTexts uuidToString uuidFromStr)
    {ps : List (OutboxProgram Json (Result Unit))}
    (h : Reach (recorded (handle (codec uuidToString uuidFromStr)))
      (Producing uuidToString uuidFromStr kafka) (fun _ _ _ => True) Fresh s ps) :
    Relayed uuidToString uuidFromStr kafka s := by
  refine Reach.inv (D := relaying uuidToString uuidFromStr kafka) relaying_sound ?_ ?_ h
  · rintro s ⟨hrows, hhistory⟩
    refine ⟨?_, ?_, ?_, ?_⟩
    · simp [hrows]
    · simp [hhistory]
    · simp [hhistory]
    · simp [hhistory]
  · intro s p _ hp
    exact relaying_producing laws hp

end Runs

section Duties

variable {Value : Type} {codec : EventCodec Value} {worker : OutboxWorker}

/-- The records that a fetch calls for. -/
def due (codec : EventCodec Value) (kafka : KafkaEventBus) :
    (o : OutboxOp Value) → o.Ans → OutboxOp Value → Prop
  | .fetchPending _, .ok records, o => ∃ record ∈ records, ∃ event,
      codec.fromValue record.payload = .ok event ∧ o = .publish (kafka.record codec event)
  | _, _, _ => False

theorem due_of_fetched {kafka : KafkaEventBus}
    {x : Observed (@OutboxOp.Ans Value) (OutboxState Value)} {records : List (OutboxRecord Value)}
    {record : OutboxRecord Value} {event : DomainEvent Value} (hfetched : fetched x = some records)
    (hrecord : record ∈ records) (hevent : codec.fromValue record.payload = .ok event) :
    due codec kafka x.op x.ans (.publish (kafka.record codec event)) := by
  obtain ⟨pre, o, answer, post⟩ := x
  cases o with
  | fetchPending limit =>
    cases answer with
    | error e => cases hfetched
    | ok fetched =>
      obtain rfl : fetched = records := Option.some.inj hfetched
      exact ⟨record, hrecord, event, hevent, rfl⟩
  | _ => cases hfetched

/-- The worker publishes every row of a batch that it can decode. -/
theorem deliverAll_owes {pending : List (OutboxRecord Value)} {record : OutboxRecord Value}
    {event : DomainEvent Value} (hrecord : record ∈ pending)
    (hevent : codec.fromValue record.payload = .ok event) :
    Owes (.publish (worker.kafka.record codec event)) (worker.deliverAll codec pending) := by
  induction pending with
  | nil => cases hrecord
  | cons first pending ih =>
    rcases List.mem_cons.mp hrecord with rfl | hrecord
    · refine Owes.bind ?_ _
      unfold OutboxWorker.deliver
      rw [hevent]
      exact .inl rfl
    · exact Owes.after _ (fun _ => ih hrecord)

theorem deliver_dutiful (kafka : KafkaEventBus) (record : OutboxRecord Value) :
    Dutiful (due codec kafka) (worker.deliver codec record) := by
  unfold OutboxWorker.deliver
  split
  · exact fun _ => ⟨fun _ h => h.elim, trivial⟩
  · intro answer
    refine ⟨fun _ h => h.elim, ?_⟩
    cases answer with
    | ok messageId => exact fun _ => ⟨fun _ h => h.elim, trivial⟩
    | error e => exact fun _ => ⟨fun _ h => h.elim, trivial⟩

theorem deliverAll_dutiful (kafka : KafkaEventBus) (pending : List (OutboxRecord Value)) :
    Dutiful (due codec kafka) (worker.deliverAll codec pending) := by
  induction pending with
  | nil => trivial
  | cons record pending ih => exact (deliver_dutiful kafka record).bind (fun _ => ih)

theorem tick_dutiful : Dutiful (due codec worker.kafka) (worker.tick codec) := by
  intro answer
  cases answer with
  | error e => exact ⟨fun _ h => h.elim, fun _ => ⟨fun _ h => h.elim, trivial⟩⟩
  | ok pending =>
    refine ⟨?_, (deliverAll_dutiful worker.kafka pending).bind (fun _ => trivial)⟩
    rintro _ ⟨record, hrecord, event, hevent, rfl⟩
    exact (deliverAll_owes hrecord hevent).bind _

theorem run_dutiful (rounds : ℕ) : Dutiful (due codec worker.kafka) (worker.run codec rounds) := by
  induction rounds with
  | zero => trivial
  | succ n ih =>
    refine tick_dutiful.bind ?_
    intro count
    split
    · exact fun _ => ⟨fun _ h => h.elim, ih⟩
    · exact ih

theorem producing_dutiful {kafka : KafkaEventBus} {s : Traced Json}
    {p : OutboxProgram Json (Result Unit)} (hp : Producing uuidToString uuidFromStr kafka s p) :
    Dutiful (due (EventSerialization.codec uuidToString uuidFromStr) kafka) p := by
  obtain ⟨activity, rfl, hactivity⟩ := hp
  cases activity with
  | enqueue event => exact fun _ => ⟨fun _ h => h.elim, trivial⟩
  | drain worker rounds =>
    subst hactivity
    exact (run_dutiful rounds).bind (fun _ => trivial)

end Duties

/-- A produced event is stored by an available database, in a row that decodes to it. -/
theorem enqueue_stores (laws : UuidTexts uuidToString uuidFromStr) {event : DomainEvent Json}
    (he : Produced uuidToString event) {f : ℕ → OutboxChoice} {s : OutboxState Json}
    (hup : (f 0).fails = false) (hfresh : (f 0).uuid ∉ s.table.rows.map (·.id)) :
    let stored := run (handle (codec uuidToString uuidFromStr))
      (enqueue (codec uuidToString uuidFromStr) event) f s
    stored.1 = .ok () ∧ ∃ row, stored.2.table.rows = s.table.rows ++ [row] ∧
      (codec uuidToString uuidFromStr).fromValue row.payload = .ok event := by
  have hinsert : insertRow (codec uuidToString uuidFromStr) (f 0) (s.now + (f 0).elapsed) s.table
      event.eventType (toValue uuidToString event) =
      .ok (s.table.append (newRow (f 0) (s.now + (f 0).elapsed) event.eventType
        (toValue uuidToString event)) hfresh) := by
    have hstorable : (codec uuidToString uuidFromStr).storable (toValue uuidToString event) = true :=
      he.storable laws
    simp [insertRow, he.type_text, hstorable, hfresh]
  change (settle (f 0) s.table (insertRow _ _ _ _ _ _)).1 = .ok () ∧ ∃ row,
    (settle (f 0) s.table (insertRow _ _ _ _ _ _)).2.rows = s.table.rows ++ [row] ∧ _
  rw [hinsert]
  simp only [settle, hup, OutboxTable.append, Bool.false_eq_true, if_false, true_and]
  exact ⟨_, rfl, he.decoded laws⟩

/-- Every event that the service produces is stored by an available database, and decodes to
itself. In every run of producers and workers, an event stored stays stored, and each row decodes
to an event that was enqueued. A worker publishes nothing else, each time in the record that the
bus would have sent directly; and what it has fetched, it has published since or is bound to
publish before it returns. It fails a row only after the broker refused its event. -/
theorem outbox_relays_unchanged (laws : UuidTexts uuidToString uuidFromStr)
    (kafka : KafkaEventBus) :
    (∀ event, Produced uuidToString event → ∀ (f : ℕ → OutboxChoice) (s : OutboxState Json),
      (f 0).fails = false → (f 0).uuid ∉ s.table.rows.map (·.id) →
      let stored := run (handle (codec uuidToString uuidFromStr))
        (enqueue (codec uuidToString uuidFromStr) event) f s
      stored.1 = .ok () ∧ ∃ row, stored.2.table.rows = s.table.rows ++ [row] ∧
        (codec uuidToString uuidFromStr).fromValue row.payload = .ok event) ∧
    ∀ (s : Traced Json) (ps : List (OutboxProgram Json (Result Unit))),
      Reach (recorded (handle (codec uuidToString uuidFromStr)))
        (Producing uuidToString uuidFromStr kafka) (fun _ _ _ => True) Fresh s ps →
      (∀ x ∈ s.2, ∀ eventType payload, inserted x = some (eventType, payload) →
        ∃ r ∈ s.1.table.rows, r.eventType = eventType ∧ r.payload = payload) ∧
      (∀ r ∈ s.1.table.rows, ∃ event, Enqueued uuidToString s.2 event ∧
        r.eventType = event.eventType ∧
        (codec uuidToString uuidFromStr).fromValue r.payload = .ok event) ∧
      (∀ x ∈ s.2, ∀ record, x.op = .publish record → Enqueued uuidToString s.2 record.payload ∧
        Direct uuidToString uuidFromStr kafka record.payload record) ∧
      (∀ before x after records, s.2 = before ++ x :: after → fetched x = some records →
        ∀ record ∈ records, ∃ event sent, Enqueued uuidToString s.2 event ∧
          (codec uuidToString uuidFromStr).fromValue record.payload = .ok event ∧
          sent.payload = event ∧ Direct uuidToString uuidFromStr kafka event sent ∧
          ((∃ y ∈ after, y.op = .publish sent) ∨ ∃ p ∈ ps, Owes (.publish sent) p)) ∧
      ∀ x ∈ s.2, ∀ id, x.op = .markFailed id → ∀ r ∈ x.pre.table.rows, r.id = id →
        ∃ event, Holds uuidToString s.2 r event ∧ ∃ y ∈ s.2, refused y = some event := by
  refine ⟨?_, ?_⟩
  · intro event he f s hup hfresh
    exact enqueue_stores laws he hup hfresh
  · intro s ps hreach
    have hs := relayed_reachable laws hreach
    refine ⟨hs.stored, ?_, ?_, ?_, ?_⟩
    · intro r hr
      obtain ⟨event, henqueued, htype, hpayload⟩ := hs.rows r hr
      refine ⟨event, henqueued, htype, ?_⟩
      rw [hpayload]
      exact henqueued.1.decoded laws
    · intro x hx record hop
      have hfaithful := hs.operations x hx
      rw [hop] at hfaithful
      obtain ⟨henqueued, hrecord⟩ := hfaithful
      refine ⟨henqueued, ?_⟩
      rw [hrecord]
      exact direct_record kafka record.payload
    · intro before x after records hhistory hfetched record hrecord
      have hx : x ∈ s.2 := by
        rw [hhistory]
        simp
      obtain ⟨event, henqueued, hpayload⟩ := hs.records x hx records hfetched record hrecord
      have hevent : (codec uuidToString uuidFromStr).fromValue record.payload = .ok event := by
        rw [hpayload]
        exact henqueued.1.decoded laws
      refine ⟨event, _, henqueued, hevent, rfl, direct_record kafka event, ?_⟩
      exact Reach.owed (fun _ h => h.2) (fun _ _ hp => producing_dutiful hp) hreach hhistory
        (due_of_fetched hfetched hrecord hevent)
    · intro x hx id hop
      have hfaithful := hs.operations x hx
      rw [hop] at hfaithful
      exact hfaithful

section Mail
open ReferenceLibraries

theorem idxOf_hexDigit : ∀ d < 16, hexDigits.idxOf (hexDigits.getD d '0') = d := by decide

/-- Hexadecimal digits are read back up to what they have room for. -/
theorem foldl_hexText (n b : ℕ) :
    (hexText n b).foldl (fun m c => 16 * m + hexDigits.idxOf c) 0 = b % 16 ^ n := by
  induction n generalizing b with
  | zero => simp [hexText, Nat.mod_one]
  | succ n ih =>
    have hdigit := idxOf_hexDigit (b % 16) (Nat.mod_lt b (by decide))
    rw [hexText, List.foldl_append, ih, List.foldl_cons, List.foldl_nil, hdigit, pow_succ',
      Nat.mod_mul]
    omega

theorem hexText_digits (n b : ℕ) : ∀ c ∈ hexText n b, c ∈ hexDigits := by
  induction n generalizing b with
  | zero => simp [hexText]
  | succ n ih =>
    intro c hc
    rcases List.mem_append.mp hc with hc | hc
    · exact ih (b / 16) c hc
    · rw [List.mem_singleton.mp hc]
      have hdigits : ∀ d < 16, hexDigits.getD d '0' ∈ hexDigits := by decide
      exact hdigits (b % 16) (Nat.mod_lt b (by decide))

/-- Without its hyphens the text of an identifier is its hexadecimal digits. -/
theorem filter_uuidToString (id : Uuid) :
    (ReferenceLibraries.uuidToString id).toList.filter (· ≠ '-') = hexText 32 id.bits := by
  set digits := hexText 32 id.bits with hdigits
  have hkept : ∀ l ⊆ digits, l.filter (· ≠ '-') = l := by
    intro l hl
    refine List.filter_eq_self.mpr ?_
    intro c hc
    have hhyphen : '-' ∉ hexDigits := by decide
    have hne : c ≠ '-' := fun h => hhyphen (h ▸ hexText_digits 32 id.bits c (hl hc))
    simp [hne]
  have htake : ∀ m n, ((digits.drop m).take n).filter (· ≠ '-') = (digits.drop m).take n := by
    intro m n
    exact hkept _ (fun c hc => List.mem_of_mem_drop (List.mem_of_mem_take hc))
  have hjoin : ∀ m n, (digits.drop m).take n ++ digits.drop (m + n) = digits.drop m := by
    intro m n
    rw [← List.drop_drop, List.take_append_drop]
  have htext : (ReferenceLibraries.uuidToString id).toList = (digits.drop 0).take 8 ++
      ('-' :: (digits.drop 8).take 4) ++ ('-' :: (digits.drop 12).take 4) ++
      ('-' :: (digits.drop 16).take 4) ++ ('-' :: digits.drop 20) := by
    rw [ReferenceLibraries.uuidToString, String.toList_ofList, List.drop_zero]
  have hcons : ∀ l : List Char, ('-' :: l).filter (· ≠ '-') = l.filter (· ≠ '-') := by
    intro l
    simp
  rw [htext]
  simp only [List.filter_append, hcons, htake, hkept _ (List.drop_subset 20 digits),
    List.append_assoc]
  rw [hjoin 16 4, hjoin 12 4, hjoin 8 4, hjoin 0 8, List.drop_zero]

theorem uuidTexts : UuidTexts ReferenceLibraries.uuidToString ReferenceLibraries.uuidFromStr where
  text := sqlText_uuidToString
  read := by
    intro id hid
    have hall : (hexText 32 id.bits).all hexDigits.contains = true := by
      rw [List.all_eq_true]
      intro c hc
      exact List.contains_iff_mem.mpr (hexText_digits 32 id.bits c hc)
    simp only [ReferenceLibraries.uuidFromStr, filter_uuidToString, length_hexText, hall, and_self,
      if_true, foldl_hexText]
    have hvalue : id.bits % 16 ^ 32 = id.bits := Nat.mod_eq_of_lt (by
      have hwidth : (16 : ℕ) ^ 32 = 2 ^ 128 := by decide
      omega)
    rw [hvalue]

theorem produced_verificationMail :
    Produced ReferenceLibraries.uuidToString verificationMail := by
  refine ⟨.named (.verificationEmailRequested ⟨1⟩ "alice" "alice@example.com" aliceToken),
    ⟨⟨40⟩, "2026-06-15T12:00:00+00:00", by decide⟩, by decide, ?_, rfl⟩
  have htexts : ["alice", "alice@example.com", aliceToken].all sqlText = true := by decide +kernel
  exact List.all_eq_true.mp htexts

theorem replicas_producing {σ : Type} (s : σ) : ∀ p ∈ replicas,
    Producing ReferenceLibraries.uuidToString ReferenceLibraries.uuidFromStr (.new none) s p := by
  intro p hp
  obtain ⟨activity, hactivity, rfl⟩ := List.mem_map.mp hp
  refine ⟨activity, rfl, ?_⟩
  simp only [List.mem_cons, List.not_mem_nil, or_false] at hactivity
  rcases hactivity with rfl | rfl | rfl
  · exact produced_verificationMail
  · rfl
  · rfl

/-- What the replicas have done by the end of a schedule. -/
def relayed (l : List (ℕ × OutboxChoice)) : Traced Json × List (OutboxProgram Json (Result Unit)) :=
  schedule (recorded (handle eventCodec)) ((⟨0, .empty⟩, []), replicas) l

theorem relayed_reach (l : List (ℕ × OutboxChoice)) :
    Reach (recorded (handle eventCodec))
      (Producing ReferenceLibraries.uuidToString ReferenceLibraries.uuidFromStr (.new none))
      (fun _ _ _ => True) Fresh (relayed l).1 (relayed l).2 :=
  Reach.schedule (Reach.pool ⟨rfl, rfl⟩ replicas (replicas_producing _)) l
    (Admitted.of_forall (fun _ _ _ => trivial) _ l)

/-- The record of a publication. -/
def publication : Observed (@OutboxOp.Ans Json) (OutboxState Json) → Option (KafkaRecord Json)
  | ⟨_, .publish record, _, _⟩ => some record
  | _ => none

/-- Alice's mail is stored, and relayed by both replicas in a run with a refusal. -/
theorem verification_mail_relayed :
    (∃ row, (run (handle eventCodec) (enqueue eventCodec verificationMail)
        (fun _ => { uuid := ⟨21⟩ }) ⟨0, .empty⟩).2.table.rows = [row] ∧
      eventCodec.fromValue row.payload = .ok verificationMail) ∧
    ((relayed firstMarksLast).1.2.filterMap publication).map
      (fun r => (r.topic, r.key, r.payload.id)) =
        List.replicate 2 ("iam.audit.events", ReferenceLibraries.uuidToString ⟨1⟩, ⟨40⟩) ∧
    ∀ x ∈ (relayed firstMarksLast).1.2, ∀ record, x.op = .publish record →
      Direct ReferenceLibraries.uuidToString ReferenceLibraries.uuidFromStr (.new none)
        record.payload record := by
  obtain ⟨hstores, hruns⟩ := outbox_relays_unchanged uuidTexts (.new none)
  refine ⟨?_, by decide +kernel, ?_⟩
  · obtain ⟨-, row, hrows, hdecoded⟩ := hstores verificationMail produced_verificationMail
      (fun _ => { uuid := ⟨21⟩ }) ⟨0, .empty⟩ rfl (by simp [OutboxTable.empty])
    exact ⟨row, hrows, hdecoded⟩
  · intro x hx record hop
    exact ((hruns _ _ (relayed_reach firstMarksLast)).2.2.1 x hx record hop).2

end Mail

end EventRelay

end IamService
