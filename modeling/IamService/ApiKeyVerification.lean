import IamService.AuthorizePolicy
import IamService.EventSerialization

/-!
# Verification of API keys

A key is known by its keyed hash. A verification looks in the cache first, then in the table
`api_keys`; a key found there is cached for thirty seconds. The part of the service that
verifies keys shares no table with the rest, so it has a signature of its own. The gRPC call
tells a key that is refused from an infrastructure that fails.
-/

namespace IamService
open EffectPrograms ExpiringStore RelationTables AuthorizePolicy

structure ApiKey where
  id : Uuid
  keyHash : String
  name : String
  role : String
  permissions : List String
  isActive : Bool
  createdAt : ℕ
  lastUsedAt : Option ℕ
  deriving DecidableEq

/-- A row of `api_keys`. The column `expires_at` is selected, and nothing reads it. -/
structure ApiKeyRow where
  id : Uuid
  keyHash : String
  name : String
  role : String
  permissions : Option (List String)
  isActive : Option Bool
  createdAt : Option ℕ
  lastUsedAt : Option ℕ
  expiresAt : Option ℕ := none
  deriving DecidableEq

def ApiKeyRow.intoDomain (r : ApiKeyRow) : ApiKey where
  id := r.id
  keyHash := r.keyHash
  name := r.name
  role := r.role
  permissions := r.permissions.getD []
  isActive := r.isActive.getD true
  createdAt := r.createdAt.getD 0
  lastUsedAt := r.lastUsedAt

/-- The table, within its primary key and the unique constraint on the hash. -/
structure ApiKeyTable where
  rows : List ApiKeyRow
  id : (rows.map (·.id)).Nodup
  keyHash : (rows.map (·.keyHash)).Nodup

namespace ApiKeyTable

def empty : ApiKeyTable := ⟨[], by simp, by simp⟩

/-- The rows that `find_by_hash` selects. -/
def usable (hash : String) (r : ApiKeyRow) : Bool := r.keyHash = hash ∧ r.isActive ≠ some false

/-- `UPDATE api_keys SET last_used_at = NOW() WHERE id = $1`. -/
def touch (t : ApiKeyTable) (now : ℕ) (id : Uuid) : ApiKeyTable where
  rows := updateWhere (fun r => r.id = id) (fun r => { r with lastUsedAt := some now }) t.rows
  id := by
    have hmap := map_updateWhere (p := fun r : ApiKeyRow => r.id = id)
      (f := fun r => { r with lastUsedAt := some now }) (·.id) t.rows (fun _ => rfl)
    rw [hmap]
    exact t.id
  keyHash := by
    have hmap := map_updateWhere (p := fun r : ApiKeyRow => r.id = id)
      (f := fun r => { r with lastUsedAt := some now }) (·.keyHash) t.rows (fun _ => rfl)
    rw [hmap]
    exact t.keyHash

end ApiKeyTable

/-- Functions of third-party code on the path of an API key. -/
structure ApiKeyLibraries where
  /-- HMAC-SHA256 under a secret; only the secret can be refused. -/
  hmacSha256 : String → String → Except String (List UInt8)
  uuidToString : Uuid → String
  uuidFromStr : String → Except String Uuid
  timeToString : ℕ → String
  timeFromStr : String → Except String ℕ

namespace Json

def asBool : Json → Except String Bool
  | .bool b => .ok b
  | _ => .error "invalid type, expected a boolean"

def asTexts : Json → Except String (List String)
  | .array items => items.mapM asText
  | _ => .error "invalid type, expected a sequence"

end Json

namespace ApiKey

variable (lib : ApiKeyLibraries)

/-- The derived serialisation, with the fields in the order of their keys. -/
def toValue (k : ApiKey) : Json :=
  .object [("created_at", .string (lib.timeToString k.createdAt)),
    ("id", .string (lib.uuidToString k.id)), ("is_active", .bool k.isActive),
    ("key_hash", .string k.keyHash),
    ("last_used_at", (k.lastUsedAt.map (fun t => Json.string (lib.timeToString t))).getD .null),
    ("name", .string k.name), ("permissions", .array (k.permissions.map .string)),
    ("role", .string k.role)]

/-- An instant that may be null or missing. -/
def lastUse : Option Json → Except String (Option ℕ)
  | none => .ok none
  | some .null => .ok none
  | some v => do return some (← lib.timeFromStr (← v.asText))

/-- The members of a key, read one by one. -/
def fromMembers (id keyHash name role permissions isActive createdAt : Json)
    (lastUsedAt : Option Json) : Except String ApiKey := do
  let id ← lib.uuidFromStr (← id.asText)
  let keyHash ← keyHash.asText
  let name ← name.asText
  let role ← role.asText
  let permissions ← permissions.asTexts
  let isActive ← isActive.asBool
  let createdAt ← lib.timeFromStr (← createdAt.asText)
  let lastUsedAt ← lastUse lib lastUsedAt
  return ⟨id, keyHash, name, role, permissions, isActive, createdAt, lastUsedAt⟩

/-- A struct is also read from an array of its members. -/
def fromValue : Json → Except String ApiKey
  | .object fields => do
    fromMembers lib (← Json.member "id" fields) (← Json.member "key_hash" fields)
      (← Json.member "name" fields) (← Json.member "role" fields)
      (← Json.member "permissions" fields) (← Json.member "is_active" fields)
      (← Json.member "created_at" fields) (fields.lookup "last_used_at")
  | .array [id, keyHash, name, role, permissions, isActive, createdAt, lastUsedAt] =>
    fromMembers lib id keyHash name role permissions isActive createdAt (some lastUsedAt)
  | _ => .error "invalid type, expected struct ApiKey"

/-- Whatever is read back from the value of a key has the role of the key. -/
theorem role_fromValue {lib : ApiKeyLibraries} {k k' : ApiKey}
    (h : fromValue lib (k.toValue lib) = .ok k') : k'.role = k.role := by
  unfold toValue fromValue at h
  simp only [bind_eq_ok] at h
  obtain ⟨id, -, keyHash, -, name, -, role, hrole, permissions, -, isActive, -, createdAt, -, h⟩ := h
  have hmember : role = .string k.role := by
    simp only [Json.member] at hrole
    exact (Except.ok.inj hrole).symm
  subst hmember
  unfold fromMembers at h
  simp only [bind_eq_ok, pure_eq_ok] at h
  obtain ⟨-, -, -, -, -, -, -, -, text, htext, -, -, -, -, -, -, -, -, -, -, rfl⟩ := h
  exact (Except.ok.inj htext).symm

end ApiKey

/-- A text in the cache, known by the JSON value that is read from it. -/
inductive CachedText where
  | json (value : Json)
  | malformed

/-- What a text is read as. -/
def CachedText.value : CachedText → Option Json
  | .json v => some v
  | .malformed => none

structure ApiKeyWorld where
  now : ℕ
  table : ApiKeyTable
  cache : Store String CachedText
  events : List Event

inductive ApiKeyOp where
  | getValue (key : String)
  | setValue (key : String) (value : Json) (ttlSecs : Option ℕ)
  | findByHash (hash : String)
  | updateLastUsed (id : Uuid)
  | publish (event : Event)

@[reducible] def ApiKeyOp.Ans : ApiKeyOp → Type
  | .getValue _ => Result (Option Json)
  | .setValue _ _ _ => Result Unit
  | .findByHash _ => Result (Option ApiKey)
  | .updateLastUsed _ => Result Unit
  | .publish _ => Result Unit

namespace ApiKeyWorld

def wait (w : ApiKeyWorld) (ms : ℕ) : ApiKeyWorld := { w with now := w.now + ms }

/-- `CacheTrait::get_value`: a text that is no JSON is an error. -/
def getValue (c : Choice) (w : ApiKeyWorld) (key : String) : Result (Option Json) :=
  if c.fails then .error (.internal c.errorText)
  else match w.cache.get w.now key with
    | none => .ok none
    | some text => match text.value with
      | some v => .ok (some v)
      | none => .error (.internal c.errorText)

/-- The statement of `find_by_hash`; a row that cannot be decoded is a failure, too. -/
def findByHash (c : Choice) (w : ApiKeyWorld) (hash : String) : Result (Option ApiKey) :=
  select c [hash] ((w.table.rows.find? (ApiKeyTable.usable hash)).map ApiKeyRow.intoDomain)

/-- One operation; time passes before it. -/
def handle : Handler ApiKeyOp.Ans Choice ApiKeyWorld := fun c w₀ o =>
  let w := w₀.wait c.elapsed
  match o with
  | .getValue key => (w.getValue c key, w)
  | .setValue key value ttlSecs =>
    let ttl := ttlSecs.getD CacheService.defaultTtlSecs
    if c.fails ∨ ttl = 0 then (.error (.internal c.errorText), w)
    else (.ok (), { w with cache := w.cache.put key (.json value) (some (w.now + secs ttl)) })
  | .findByHash hash => (w.findByHash c hash, w)
  | .updateLastUsed id =>
    if c.fails then (.error (.database .unavailable c.errorText), w)
    else (.ok (), { w with table := w.table.touch w.now id })
  | .publish event =>
    if c.fails then (.error (.internal c.errorText), w)
    else (.ok (), { w with events := w.events ++ [event] })

end ApiKeyWorld

/-- `hex::encode`. -/
def hexEncode (bytes : List UInt8) : String :=
  String.ofList (bytes.flatMap (fun b => ReferenceLibraries.hexText 2 b.toNat))

structure ApiKeyService where
  secret : String
  lib : ApiKeyLibraries

/-- How long a verified key is accepted without a look at the table. -/
def apiKeyCacheTtlSecs : ℕ := 30

namespace ApiKeyService

variable (self : ApiKeyService)

def hashKey (key : String) : Result String :=
  match self.lib.hmacSha256 self.secret key with
  | .ok mac => .ok (hexEncode mac)
  | .error e => .error (.internal ("HMAC key init failed: " ++ e))

abbrev Method (α : Type) := Fallible ApiKeyOp.Ans ApiError α

def issue (o : ApiKeyOp) : Prog ApiKeyOp.Ans o.Ans := .eff o .ret

def cacheGet (key : String) : Method (Option ApiKey) := do
  match ← attempt (issue (.getValue key)) with
  | none => return none
  | some v => match ApiKey.fromValue self.lib v with
    | .ok apiKey => return some apiKey
    | .error e => throw (.internal e)

/-- Note the use of a key found in the table, cache the key and announce it. -/
def admitKey (cacheKey : String) (apiKey : ApiKey) : Method ApiKey := do
  let _ ← observe (issue (.updateLastUsed apiKey.id))
  let _ ← observe (issue (.setValue cacheKey (apiKey.toValue self.lib)
    (some apiKeyCacheTtlSecs)))
  let _ ← observe (issue (.publish (.apiKeyVerified apiKey.name apiKey.role)))
  return apiKey

/-- `AuthService::verify_api_key`. A cache that fails or holds something else is a miss. -/
def verifyApiKey (key : String) : Method ApiKey := do
  match self.hashKey key with
  | .error e => throw e
  | .ok keyHash => do
    let cached ← observe (self.cacheGet (CacheKeys.apiKey keyHash)).run
    match cached.toOption.join with
    | some apiKey => return apiKey
    | none => do
      match ← attempt (issue (.findByHash keyHash)) with
      | none => throw (.unauthorized "Invalid API Key")
      | some apiKey => self.admitKey (CacheKeys.apiKey keyHash) apiKey

end ApiKeyService

structure ApiKeyResponse where
  valid : Bool
  role : String
  errorMessage : String
  deriving DecidableEq

namespace IdentityGrpcService

/-- The callers that may verify a key. -/
def verifyApiKeyRoles : List ServiceRole := [.apiGateway, .aggregatorBridge, .admin]

def verifyApiKey (self : ApiKeyService) (auth : ServiceAuth) (ctx : auth.Context) (key : String) :
    Fallible ApiKeyOp.Ans ConnectError ApiKeyResponse := do
  gate auth ctx verifyApiKeyRoles
  match ← observe (self.verifyApiKey key).run with
  | .ok apiKey => return ⟨true, apiKey.role, ""⟩
  -- a key that is unknown or inactive is an answer, not an outage
  | .error (.unauthorized message) => return ⟨false, "", message⟩
  | .error e => throw ⟨.unavailable, e.display⟩

end IdentityGrpcService

namespace ApiKeyService

variable (self : ApiKeyService) (f : ℕ → Choice) (w : ApiKeyWorld)

/-- The key that the cache yields: the entry is there and can be decoded. -/
def cachedKey (c : Choice) (w : ApiKeyWorld) (hash : String) : Option ApiKey :=
  if c.fails then none
  else ((w.cache.get w.now (CacheKeys.apiKey hash)).bind CachedText.value).bind
    fun v => (ApiKey.fromValue self.lib v).toOption

/-- What is made of an answer of the cache. -/
def readKey : Result (Option Json) → Result (Option ApiKey)
  | .error e => .error e
  | .ok none => .ok none
  | .ok (some v) => match ApiKey.fromValue self.lib v with
    | .ok apiKey => .ok (some apiKey)
    | .error e => .error (.internal e)

theorem cacheGet_eq (key : String) :
    (self.cacheGet key).run = .eff (.getValue key) (fun r => .ret (self.readKey r)) := by
  apply congrArg (Prog.eff (ApiKeyOp.getValue key))
  funext r
  rcases r with e | _ | v
  · rfl
  · rfl
  · dsimp only [issue, readKey, attempt, ExceptT.mk, bind, ExceptT.bind, ExceptT.bindCont, Prog.bind]
    cases ApiKey.fromValue self.lib v with
    | ok apiKey => rfl
    | error e => rfl

/-- A cache that fails or holds something else yields nothing. -/
theorem readKey_getValue (c : Choice) (hash : String) :
    (self.readKey (w.getValue c (CacheKeys.apiKey hash))).toOption.join =
      self.cachedKey c w hash := by
  unfold ApiKeyWorld.getValue cachedKey
  cases c.fails with
  | true => rfl
  | false =>
    cases w.cache.get w.now (CacheKeys.apiKey hash) with
    | none => rfl
    | some text =>
      cases text with
      | malformed => rfl
      | json v =>
        cases hv : ApiKey.fromValue self.lib v <;> simp [CachedText.value, readKey, hv, Except.toOption]

/-- Whatever becomes of noting, caching and announcing a key, it is admitted. -/
theorem admitKey_answer (cacheKey : String) (apiKey : ApiKey) :
    (run ApiKeyWorld.handle (self.admitKey cacheKey apiKey).run f w).1 = .ok apiKey := rfl

/-- The answer of a verification, given what the cache yields and what the table answers. -/
def decision (cached : Option ApiKey) (found : Result (Option ApiKey)) : Result ApiKey :=
  match cached with
  | some apiKey => .ok apiKey
  | none => match found with
    | .ok (some apiKey) => .ok apiKey
    | .ok none => .error (.unauthorized "Invalid API Key")
    | .error e => .error e

/-- A verification answers with what the cache yields, or else with what the table holds;
nothing else enters the answer. -/
theorem verifyApiKey_answer {key hash : String} (hkey : self.hashKey key = .ok hash) :
    (run ApiKeyWorld.handle (self.verifyApiKey key).run f w).1 =
      decision (self.cachedKey (f 0) (w.wait (f 0).elapsed) hash) (w.findByHash (f 1) hash) := by
  unfold verifyApiKey
  rw [hkey, ← readKey_getValue]
  simp only [run_bind', run_observe, cacheGet_eq, Prog.eff_bind, Prog.ret_bind, run_eff, proceed_ok]
  dsimp only [ApiKeyWorld.handle]
  cases (self.readKey ((w.wait (f 0).elapsed).getValue (f 0)
    (CacheKeys.apiKey hash))).toOption.join with
  | some apiKey => rfl
  | none =>
    simp only [run_bind', run_attempt, issue, Prog.eff_bind, Prog.ret_bind, run_eff]
    change (run ApiKeyWorld.handle (proceed _ (w.findByHash (f 1) hash)) _ _).1 = _
    rcases w.findByHash (f 1) hash with e | _ | apiKey
    · rfl
    · rfl
    · exact self.admitKey_answer _ _ _ _

/-- The table refuses a lookup with an error of the database. -/
theorem findByHash_error {c : Choice} {hash : String} {e : ApiError}
    (h : w.findByHash c hash = .error e) : ∃ error message, e = .database error message := by
  unfold ApiKeyWorld.findByHash select at h
  split at h
  · exact ⟨_, _, (Except.error.inj h).symm⟩
  · split at h
    · cases h
    · exact ⟨_, _, (Except.error.inj h).symm⟩

/-- HMAC-SHA256 accepts a secret of any size. -/
def HmacAccepts : Prop := ∀ key, ∃ mac, self.lib.hmacSha256 self.secret key = .ok mac

theorem hashKey_of_accepts {self : ApiKeyService} (h : self.HmacAccepts) (key : String) :
    ∃ hash, self.hashKey key = .ok hash := by
  obtain ⟨mac, hmac⟩ := h key
  exact ⟨hexEncode mac, by simp [hashKey, hmac]⟩

end ApiKeyService

namespace IdentityGrpcService
open ApiKeyService

/-- The answer of the call, given the result of the verification. -/
def respond : Result ApiKey → Except ConnectError ApiKeyResponse
  | .ok apiKey => .ok ⟨true, apiKey.role, ""⟩
  | .error (.unauthorized message) => .ok ⟨false, "", message⟩
  | .error e => .error ⟨.unavailable, e.display⟩

variable {self : ApiKeyService} {auth : ServiceAuth} {ctx : auth.Context}

/-- A call that passes the gate answers with the result of the verification. -/
theorem verifyApiKey_respond
    (hgate : auth.requireAny (auth.fromHeaders ctx) verifyApiKeyRoles = .ok ()) (key : String)
    (f : ℕ → Choice) (w : ApiKeyWorld) :
    (run ApiKeyWorld.handle (verifyApiKey self auth ctx key).run f w).1 =
      respond (run ApiKeyWorld.handle (self.verifyApiKey key).run f w).1 := by
  have hbody : (verifyApiKey self auth ctx key).run =
      (self.verifyApiKey key).run >>= fun r => .ret (respond r) := by
    unfold verifyApiKey gate
    rw [hgate]
    simp only [run_bind', run_pure', run_observe, Prog.ret_bind, proceed_ok, Prog.bind_assoc]
    apply congrArg ((self.verifyApiKey key).run >>= ·)
    funext r
    rcases r with e | apiKey
    · cases e <;> rfl
    · rfl
  rw [hbody, run_bind_ret]

/-- An error of the database is answered as an outage, a missing row as a refusal. -/
theorem respond_decision {cached : Option ApiKey} {found : Result (Option ApiKey)}
    (hfound : ∀ e, found = .error e → ∃ error message, e = .database error message) :
    ((∃ r, respond (decision cached found) = .ok r ∧ r.valid = true) ↔
        (∃ k, cached = some k) ∨ ∃ k, found = .ok (some k)) ∧
      ((∃ r, respond (decision cached found) = .ok r ∧ r.valid = false) ↔
        cached = none ∧ found = .ok none) ∧
      ((∃ e, respond (decision cached found) = .error e ∧ e.code = .unavailable) ↔
        cached = none ∧ ∃ e, found = .error e) := by
  cases cached with
  | some apiKey => simp [decision, respond]
  | none =>
    rcases found with e | _ | apiKey
    · obtain ⟨error, message, rfl⟩ := hfound e rfl
      simp [decision, respond]
    · simp [decision, respond]
    · simp [decision, respond]

/-- A call that passes the gate answers that a key is valid exactly when the cache yields it or
the table has it, that it is not valid exactly when the table was asked and does not have it,
and that the service is unavailable exactly when the table had to be asked and failed. What
becomes of the remaining steps never changes the answer. -/
theorem verifyApiKey_separates (hmac : self.HmacAccepts)
    (hgate : auth.requireAny (auth.fromHeaders ctx) verifyApiKeyRoles = .ok ()) (key : String)
    (f : ℕ → Choice) (w : ApiKeyWorld) :
    ∃ hash, self.hashKey key = .ok hash ∧
      let answer := fun g => (run ApiKeyWorld.handle (verifyApiKey self auth ctx key).run g w).1
      let cached := self.cachedKey (f 0) (w.wait (f 0).elapsed) hash
      let found := w.findByHash (f 1) hash
      ((∃ r, answer f = .ok r ∧ r.valid = true) ↔
        (∃ k, cached = some k) ∨ ∃ k, found = .ok (some k)) ∧
      ((∃ r, answer f = .ok r ∧ r.valid = false) ↔ cached = none ∧ found = .ok none) ∧
      ((∃ e, answer f = .error e ∧ e.code = .unavailable) ↔
        cached = none ∧ ∃ e, found = .error e) ∧
      ∀ g, g 0 = f 0 → g 1 = f 1 → answer g = answer f := by
  obtain ⟨hash, hkey⟩ := hashKey_of_accepts hmac key
  have hanswer : ∀ g, (run ApiKeyWorld.handle (verifyApiKey self auth ctx key).run g w).1 =
      respond (decision (self.cachedKey (g 0) (w.wait (g 0).elapsed) hash)
        (w.findByHash (g 1) hash)) := by
    intro g
    rw [verifyApiKey_respond hgate, verifyApiKey_answer self g w hkey]
  obtain ⟨hvalid, hinvalid, hunavailable⟩ :=
    @respond_decision (self.cachedKey (f 0) (w.wait (f 0).elapsed) hash) (w.findByHash (f 1) hash)
      (fun e he => findByHash_error w he)
  refine ⟨hash, hkey, ?_⟩
  dsimp only
  simp only [hanswer]
  refine ⟨hvalid, hinvalid, hunavailable, ?_⟩
  intro g h0 h1
  rw [h0, h1]

end IdentityGrpcService

namespace ReferenceLibraries

/-- The digest of the default key under the secret of the tests, and a short stand-in for the
digest of anything else. -/
def hmacSha256 (secret key : String) : Except String (List UInt8) :=
  if secret = "test-api-key-secret-for-development-and-testing" ∧
      key = "engineering-department-api-key-2025" then
    .ok [0x0c, 0x9b, 0x5d, 0x31, 0xc7, 0xe6, 0xec, 0x39, 0x63, 0xf5, 0xc7, 0xde, 0x72, 0xc4, 0xa6,
      0xd3, 0x34, 0x6a, 0x29, 0x91, 0xb7, 0x02, 0x1e, 0x2f, 0x70, 0xe7, 0x39, 0x2b, 0x56, 0x62,
      0xac, 0x21]
  else .ok ((secret ++ key).toList.map (fun c => c.toNat.toUInt8))

/-- Instants are written as in RFC 3339; only the epoch is needed. -/
def apiKeyLibraries : ApiKeyLibraries where
  hmacSha256 := hmacSha256
  uuidToString := uuidToString
  uuidFromStr := uuidFromStr
  timeToString := fun t => if t = 0 then "1970-01-01T00:00:00Z" else toString t
  timeFromStr := fun s => if s = "1970-01-01T00:00:00Z" then .ok 0 else .error "premature end of input"

def apiKeyService : ApiKeyService := ⟨"test-api-key-secret-for-development-and-testing", apiKeyLibraries⟩

theorem hmacAccepts : apiKeyService.HmacAccepts := by
  intro key
  unfold apiKeyService apiKeyLibraries hmacSha256
  dsimp only
  split
  · exact ⟨_, rfl⟩
  · exact ⟨_, rfl⟩

/-- The default key. -/
def engineeringKey : String := "engineering-department-api-key-2025"

/-- The row of the default key after its hash was seeded again. -/
def engineeringRow : ApiKeyRow where
  id := ⟨9⟩
  keyHash := "0c9b5d31c7e6ec3963f5c7de72c4a6d3346a2991b7021e2f70e7392b5662ac21"
  name := "Engineering Default Key"
  role := "admin"
  permissions := some ["*"]
  isActive := some true
  createdAt := some 0
  lastUsedAt := none

/-- The service with the default key in its table and an empty cache. -/
def seeded : ApiKeyWorld := ⟨0, ⟨[engineeringRow], by simp, by simp⟩, Store.empty, []⟩

end ReferenceLibraries

namespace IdentityGrpcService
open ReferenceLibraries

/-- During an outage of the database a key that is not cached is not refused. -/
theorem seeded_outage_unavailable : ∃ e,
    (run ApiKeyWorld.handle (verifyApiKey apiKeyService serviceAuth .apiGateway engineeringKey).run
      (oracle [{}, { fails := true }]) seeded).1 = .error e ∧ e.code = .unavailable := by
  obtain ⟨hash, hkey, -, -, hunavailable, -⟩ := @verifyApiKey_separates apiKeyService serviceAuth
    .apiGateway hmacAccepts rfl engineeringKey (oracle [{}, { fails := true }]) seeded
  exact hunavailable.mpr ⟨rfl, _, rfl⟩

end IdentityGrpcService

end IamService
