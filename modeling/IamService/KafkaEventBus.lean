import IamService.IdentityModels

/-!
# Events for Kafka

A domain event as the service publishes it, and the record that the Kafka producer makes of
it: the topic follows from the type of the event, and the key is the user that its data name,
so that the events of one user stay in one partition. The outbox worker and the event bus
publish through the same producer.

JSON values are a parameter, with the parts of `serde_json` that the service uses.
-/

namespace IamService

/-- A domain event as it is stored and published; `Value` is a JSON value. -/
structure DomainEvent (Value : Type) where
  id : Uuid
  eventType : String
  timestamp : String
  data : Option Value
  source : String
  deriving DecidableEq

/-- `serde_json::to_value`, `serde_json::from_value`, what a JSONB column accepts, and the text
under a key of an object. -/
structure EventCodec (Value : Type) where
  toValue : DomainEvent Value → Except String Value
  fromValue : Value → Except String (DomainEvent Value)
  storable : Value → Bool
  textAt : String → Value → Option String

structure KafkaTopics where
  userEvents : String
  kycEvents : String
  auditEvents : String
  deriving DecidableEq

namespace KafkaTopics

def withPrefix (p : String) : KafkaTopics where
  userEvents := p ++ ".user.events"
  kycEvents := p ++ ".kyc.events"
  auditEvents := p ++ ".audit.events"

/-- `Default::default`. -/
def default : KafkaTopics := withPrefix "iam"

end KafkaTopics

/-- What is handed to the producer. The payload is the serialised event. -/
structure KafkaRecord (Value : Type) where
  topic : String
  key : String
  payload : DomainEvent Value
  deriving DecidableEq

structure KafkaEventBus where
  topics : KafkaTopics
  deriving DecidableEq

namespace KafkaEventBus

def new (topicPrefix : Option String) : KafkaEventBus where
  topics := (topicPrefix.map KafkaTopics.withPrefix).getD .default

variable {Value : Type} (codec : EventCodec Value) (self : KafkaEventBus)

/-- The topic that events of a type are routed to. -/
def topicOf (eventType : String) : String :=
  if eventType ∈ ["UserRegistered", "UserLoggedIn", "EmailVerified", "PasswordResetRequested",
    "UserOnboarded", "UserWalletLinked"] then self.topics.userEvents
  else if eventType ∈ ["KycSubmitted", "KycVerified", "KycRejected"] then self.topics.kycEvents
  else self.topics.auditEvents

/-- The record that `publish_raw` sends for an event. -/
def record (event : DomainEvent Value) : KafkaRecord Value where
  topic := self.topicOf event.eventType
  key := (event.data.bind (codec.textAt "user_id")).getD ""
  payload := event

@[simp] theorem record_payload (event : DomainEvent Value) :
    (self.record codec event).payload = event := rfl

end KafkaEventBus

end IamService
