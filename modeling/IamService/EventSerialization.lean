import IamService.OutboxRepository
import IamService.ReferenceLibraries

/-!
# Events as JSON values

The derived serialisation of a domain event and its inverse: a struct is an object with a
field for each member, `data` is left out when absent, and null stands for an absent value.
The only numbers in events are integers.
-/

namespace IamService

inductive Json where
  | null
  | bool (b : Bool)
  | number (n : ℤ)
  | string (s : String)
  | array (items : List Json)
  | object (fields : List (String × Json))

namespace Json

mutual

/-- JSONB stores no NUL character, neither in a text nor in a key. -/
def storable : Json → Bool
  | .string s => sqlText s
  | .array items => allStorable items
  | .object fields => fieldsStorable fields
  | _ => true

def allStorable : List Json → Bool
  | [] => true
  | j :: items => j.storable && allStorable items

def fieldsStorable : List (String × Json) → Bool
  | [] => true
  | (key, j) :: fields => sqlText key && j.storable && fieldsStorable fields

end

def asText : Json → Except String String
  | .string s => .ok s
  | _ => .error "invalid type, expected a string"

def member (key : String) (fields : List (String × Json)) : Except String Json :=
  match fields.lookup key with
  | some j => .ok j
  | none => .error ("missing field " ++ key)

/-- The text under a key, which only an object has. -/
def textAt (key : String) : Json → Option String
  | .object fields => (fields.lookup key).bind fun v => v.asText.toOption
  | _ => none

end Json

namespace EventSerialization

variable (uuidToString : Uuid → String) (uuidFromStr : String → Except String Uuid)

/-- The fields are in the order of their keys, as the map of an object keeps them. -/
def toValue (event : DomainEvent Json) : Json :=
  .object (event.data.toList.map (fun data => ("data", data)) ++
    [("event_type", .string event.eventType), ("id", .string (uuidToString event.id)),
      ("source", .string event.source), ("timestamp", .string event.timestamp)])

/-- The members of an event, read one by one. -/
def fromMembers (id eventType timestamp : Json) (data : Option Json) (source : Json) :
    Except String (DomainEvent Json) := do
  let id ← uuidFromStr (← id.asText)
  let eventType ← eventType.asText
  let timestamp ← timestamp.asText
  let source ← source.asText
  let data := match data with
    | some .null => none
    | data => data
  return ⟨id, eventType, timestamp, data, source⟩

/-- A struct is also read from an array of its members. -/
def fromValue : Json → Except String (DomainEvent Json)
  | .object fields => do
    fromMembers uuidFromStr (← Json.member "id" fields) (← Json.member "event_type" fields)
      (← Json.member "timestamp" fields) (fields.lookup "data") (← Json.member "source" fields)
  | .array [id, eventType, timestamp, data, source] =>
    fromMembers uuidFromStr id eventType timestamp (some data) source
  | _ => .error "invalid type, expected struct Event"

def codec : EventCodec Json where
  toValue := fun event => .ok (toValue uuidToString event)
  fromValue := fromValue uuidFromStr
  storable := Json.storable
  textAt := Json.textAt

end EventSerialization

namespace ReferenceLibraries

/-- The codec over the reference text of identifiers. -/
def eventCodec : EventCodec Json := EventSerialization.codec uuidToString uuidFromStr

/-- The event that asks for Alice's verification mail. -/
def verificationMail : DomainEvent Json where
  id := ⟨40⟩
  eventType := "VerificationEmailRequested"
  timestamp := "2026-06-15T12:00:00+00:00"
  data := some (.object [("email", .string "alice@example.com"), ("token", .string aliceToken),
    ("user_id", .string (uuidToString ⟨1⟩)), ("username", .string "alice")])
  source := "gridtokenx-iam"

end ReferenceLibraries

end IamService
