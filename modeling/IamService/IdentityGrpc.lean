import IamService.ApiKeyVerification
import IamService.ErrorResponses
import IamService.RestConfinement
import IamService.SignatureSums

/-!
# The gRPC surface

Eight calls, each gated on the role in the headers of the caller before anything else happens.
Four of them read: a token, a decision, the claims of a token, an address. Three change the
service and are reserved for the gateway and for administrators. The verification of an API key
works on tables of its own, so the surface runs over two signatures side by side.
-/

namespace IamService.IdentityGrpcService
open EffectPrograms AuthorizePolicy

def verifyTokenRoles : List ServiceRole :=
  [.apiGateway, .tradingApi, .aggregatorBridge, .meterService, .admin]

def getUserInfoRoles : List ServiceRole := [.apiGateway, .admin]

def registerUserRoles : List ServiceRole := [.apiGateway, .admin]

def linkWalletRoles : List ServiceRole := [.apiGateway, .admin]

def getUserWalletRoles : List ServiceRole := [.aggregatorBridge, .apiGateway, .admin]

def initializeUserWalletRoles : List ServiceRole := [.apiGateway, .admin]

inductive Rpc where
  | verifyToken (token : String)
  | authorize (token requiredPermission : String)
  | getUserInfo (token : String)
  | registerUser (username email password firstName lastName : String)
  | linkWallet (userId walletAddress label : String) (isPrimary : Bool)
  | getUserWallet (userId : String)
  | initializeUserWallet (userId walletAddress : String)

structure ClaimsResponse where
  valid : Bool
  userId : String
  username : String
  role : String
  errorMessage : String
  deriving DecidableEq

structure UserInfoResponse where
  id : String
  username : String
  email : String
  role : String
  firstName : String
  lastName : String
  walletAddress : String
  deriving DecidableEq

structure RegisterUserResponse where
  userId : String
  username : String
  email : String
  message : String
  deriving DecidableEq

structure LinkWalletResponse where
  walletId : String
  userId : String
  walletAddress : String
  message : String
  deriving DecidableEq

structure GetUserWalletResponse where
  walletAddress : String
  deriving DecidableEq

structure InitializeWalletResponse where
  success : Bool
  message : String
  transactionSignature : String
  deriving DecidableEq

@[reducible] def Rpc.Reply : Rpc → Type
  | .verifyToken _ => ClaimsResponse
  | .authorize .. => AuthorizeResponse
  | .getUserInfo _ => UserInfoResponse
  | .registerUser .. => RegisterUserResponse
  | .linkWallet .. => LinkWalletResponse
  | .getUserWallet _ => GetUserWalletResponse
  | .initializeUserWallet .. => InitializeWalletResponse

section Handlers

variable (self : AuthService) (t : Transport) (ctx : t.roles.Context)

/-- `JwtService::decode_token`, from the text of a token. -/
def decodeToken (text : String) : Program (Result Claims) :=
  match t.readToken text with
  | .ok token => host (.decodeToken token)
  | .error message => .ret (.error (.withCode .tokenInvalid message))

/-- Make a call of the service; its error becomes an error of the transport. -/
def serviceCall {α : Type} (method : Method α) : Handled α :=
  attempt (method.run >>= fun r => .ret (r.mapError mapApiError))

def parseUuid (text : String) : Handled Uuid :=
  match t.uuidFromStr text with
  | .ok id => return id
  | .error e => throw ⟨.invalidArgument, "Invalid UUID: " ++ e⟩

/-- An empty name in the message stands for none. -/
def nonEmpty (name : String) : Option String := if name = "" then none else some name

def verifyToken (token : String) : Handled ClaimsResponse := do
  gate t.roles ctx verifyTokenRoles
  match ← observe (decodeToken t token) with
  | .ok claims => return ⟨true, self.lib.uuidToString claims.sub, claims.username, claims.role, ""⟩
  | .error e => return ⟨false, "", "", "", e.display⟩

/-- The decision is `AuthorizePolicy.authorize`; a text that is no token is an invalid one. -/
def authorize (token requiredPermission : String) : Handled AuthorizeResponse :=
  match t.readToken token with
  | .ok jwt => AuthorizePolicy.authorize t.roles ctx ⟨jwt, requiredPermission⟩
  | .error message => do
    gate t.roles ctx authorizeRoles
    return ⟨false, "Invalid token: " ++ message⟩

def getUserInfo (token : String) : Handled UserInfoResponse := do
  gate t.roles ctx getUserInfoRoles
  match ← observe (decodeToken t token) with
  | .ok claims =>
    return ⟨self.lib.uuidToString claims.sub, claims.username, "", claims.role, "", "", ""⟩
  | .error e => throw ⟨.unauthenticated, e.display⟩

def registerUser (username email password firstName lastName : String) :
    Handled RegisterUserResponse := do
  gate t.roles ctx registerUserRoles
  let r ← serviceCall (self.register username email password (nonEmpty firstName)
    (nonEmpty lastName))
  return ⟨self.lib.uuidToString r.id, r.username, r.email, r.message⟩

def linkWallet (userId walletAddress label : String) (isPrimary : Bool) :
    Handled LinkWalletResponse := do
  gate t.roles ctx linkWalletRoles
  let id ← parseUuid t userId
  let w ← serviceCall (self.linkWallet id walletAddress (some label) isPrimary)
  return ⟨self.lib.uuidToString w.id, self.lib.uuidToString w.userId, w.walletAddress,
    "Wallet linked successfully"⟩

def getUserWallet (userId : String) : Handled GetUserWalletResponse := do
  gate t.roles ctx getUserWalletRoles
  let id ← parseUuid t userId
  let address ← serviceCall (AuthService.getPrimaryWalletAddress id)
  return ⟨address⟩

/-- The amount of initial funding in the message is not used. -/
def initializeUserWallet (userId walletAddress : String) : Handled InitializeWalletResponse := do
  gate t.roles ctx initializeUserWalletRoles
  let id ← parseUuid t userId
  let signature ← serviceCall (self.initializeUserWallet id walletAddress)
  return ⟨true, "Wallet initialized on-chain", signature⟩

def handler : (r : Rpc) → Handled r.Reply
  | .verifyToken token => verifyToken self t ctx token
  | .authorize token requiredPermission => authorize t ctx token requiredPermission
  | .getUserInfo token => getUserInfo self t ctx token
  | .registerUser username email password firstName lastName =>
    registerUser self t ctx username email password firstName lastName
  | .linkWallet userId walletAddress label isPrimary =>
    linkWallet self t ctx userId walletAddress label isPrimary
  | .getUserWallet userId => getUserWallet t ctx userId
  | .initializeUserWallet userId walletAddress =>
    initializeUserWallet self t ctx userId walletAddress

end Handlers

/-- The callers that may make a call. -/
def Rpc.roles : Rpc → List ServiceRole
  | .verifyToken _ => verifyTokenRoles
  | .authorize .. => authorizeRoles
  | .getUserInfo _ => getUserInfoRoles
  | .registerUser .. => registerUserRoles
  | .linkWallet .. => linkWalletRoles
  | .getUserWallet _ => getUserWalletRoles
  | .initializeUserWallet .. => initializeUserWalletRoles

/-- What the surface has come to for a call. -/
inductive Served where
  | rpc (r : Rpc) (reply : Except ConnectError r.Reply)
  | key (reply : Except ConnectError ApiKeyResponse)

/-- The calls run over the signature of the service and that of API keys, side by side. -/
abbrev SurfaceProgram := Prog (SumAns Op.Ans ApiKeyOp.Ans) Served

def rpcProgram (self : AuthService) (t : Transport) (ctx : t.roles.Context) (r : Rpc) :
    SurfaceProgram := ((handler self t ctx r).run >>= fun x => .ret (.rpc r x)).left

def keyProgram (keys : ApiKeyService) (t : Transport) (ctx : t.roles.Context) (key : String) :
    SurfaceProgram := ((verifyApiKey keys t.roles ctx key).run >>= fun x => .ret (.key x)).right

/-- A role passes the check only if it is listed. -/
def Gates (auth : ServiceAuth) : Prop :=
  ∀ role allowed, auth.requireAny role allowed = .ok () → role ∈ allowed

section Denial

variable {self : AuthService} {t : Transport} {ctx : t.roles.Context} {Kind : Type}
  {Ans : Kind → Type} {α : Type}

/-- A caller that is not listed is refused before anything happens. -/
theorem gate_denied (hroles : Gates t.roles) {allowed : List ServiceRole}
    (h : t.roles.fromHeaders ctx ∉ allowed) (next : Unit → Fallible Ans ConnectError α) :
    ∃ message, (gate t.roles ctx allowed >>= next).run =
      .ret (.error ⟨.permissionDenied, message⟩) := by
  unfold gate
  cases hcheck : t.roles.requireAny (t.roles.fromHeaders ctx) allowed with
  | ok _ => exact absurd (hroles _ _ hcheck) h
  | error message => exact ⟨message, rfl⟩

theorem handler_denied (hroles : Gates t.roles) {r : Rpc}
    (h : t.roles.fromHeaders ctx ∉ r.roles) :
    ∃ message, (handler self t ctx r).run = .ret (.error ⟨.permissionDenied, message⟩) := by
  cases r with
  | authorize token requiredPermission =>
    simp only [handler, authorize]
    cases t.readToken token with
    | ok jwt => exact gate_denied hroles h _
    | error message => exact gate_denied hroles h _
  | verifyToken token => exact gate_denied hroles h _
  | getUserInfo token => exact gate_denied hroles h _
  | registerUser username email password firstName lastName => exact gate_denied hroles h _
  | linkWallet userId walletAddress label isPrimary => exact gate_denied hroles h _
  | getUserWallet userId => exact gate_denied hroles h _
  | initializeUserWallet userId walletAddress => exact gate_denied hroles h _

theorem gate_issues {P : Kind → Prop} {allowed : List ServiceRole}
    {next : Unit → Fallible Ans ConnectError α} (h : Issues P (next ()).run) :
    Issues P (gate t.roles ctx allowed >>= next).run := by
  refine Issues.bindExcept ?_ (fun _ => h)
  unfold gate
  cases t.roles.requireAny (t.roles.fromHeaders ctx) allowed <;> trivial

theorem decodeToken_issues (text : String) : Limited [.decodeToken] (decodeToken t text) := by
  unfold decodeToken
  cases t.readToken text with
  | ok token => simp [Limited, host]
  | error message => trivial

/-- Other services than the gateway read at most a token and an address. -/
theorem handler_reads (hroles : Gates t.roles)
    (hother : t.roles.fromHeaders ctx ∉ [ServiceRole.apiGateway, .admin]) (r : Rpc) :
    Limited [.decodeToken, .readWallets] (handler self t ctx r).run := by
  by_cases hlisted : t.roles.fromHeaders ctx ∈ r.roles
  · cases r with
    | verifyToken token =>
      refine gate_issues (Issues.bindExcept ((decodeToken_issues token).widen (by simp)).observe ?_)
      intro decoded
      cases decoded <;> trivial
    | getUserWallet userId =>
      refine gate_issues ?_
      cases hid : t.uuidFromStr userId with
      | error e => simp [parseUuid, hid]
      | ok id =>
        have hread : Limited [.decodeToken, .readWallets]
            (AuthService.getPrimaryWalletAddress id).run :=
          (self.method_limited (.getPrimaryWalletAddress id)).widen (by simp)
        simp only [parseUuid, hid]
        refine Issues.bindExcept trivial ?_
        intro _
        exact Issues.bindExcept (hread.bind (fun _ => trivial)) (fun _ => trivial)
    | authorize token requiredPermission => exact absurd hlisted hother
    | getUserInfo token => exact absurd hlisted hother
    | registerUser username email password firstName lastName => exact absurd hlisted hother
    | linkWallet userId walletAddress label isPrimary => exact absurd hlisted hother
    | initializeUserWallet userId walletAddress => exact absurd hlisted hother
  · obtain ⟨message, hdenied⟩ := @handler_denied self t ctx hroles r hlisted
    rw [hdenied]
    trivial

end Denial

section Reading

variable {self : AuthService} {keys : ApiKeyService} {t : Transport} {ctx : t.roles.Context}

/-- What a verification of a key may do to the state. -/
def KeyStep : ApiKeyOp → Prop
  | .setValue key _ _ => ∃ hash, key = CacheKeys.apiKey hash
  | .publish event => ∃ name role, event = .apiKeyVerified name role
  | _ => True

theorem verifyApiKey_issues (key : String) :
    Issues KeyStep (verifyApiKey keys t.roles ctx key).run := by
  have hmethod : Issues KeyStep (keys.verifyApiKey key).run := by
    unfold ApiKeyService.verifyApiKey
    cases keys.hashKey key with
    | error e => trivial
    | ok hash =>
      refine Issues.bindExcept (Issues.observe ?_) ?_
      · refine Issues.bindExcept (by simp [ApiKeyService.issue, KeyStep]) ?_
        intro found
        cases found with
        | none => trivial
        | some v =>
          dsimp only
          cases ApiKey.fromValue keys.lib v <;> trivial
      · intro cached
        cases cached.toOption.join with
        | some apiKey => trivial
        | none =>
          refine Issues.bindExcept (by simp [ApiKeyService.issue, KeyStep]) ?_
          intro found
          cases found with
          | none => trivial
          | some apiKey => simp [ApiKeyService.admitKey, ApiKeyService.issue, KeyStep]
  refine gate_issues (Issues.bindExcept hmethod.observe ?_)
  intro verified
  split <;> trivial

/-- The keys are the same but for their last use; new events report verified keys, and only
entries for keys are cached. -/
structure KeysKept (k k' : ApiKeyWorld) : Prop where
  rows : k'.table.rows.map (fun r => { r with lastUsedAt := none }) =
    k.table.rows.map (fun r => { r with lastUsedAt := none })
  cache : ∀ key, (∀ hash, key ≠ CacheKeys.apiKey hash) → k'.cache key = k.cache key
  events : ∃ added, k'.events = k.events ++ added ∧
    ∀ e ∈ added, ∃ name role, e = .apiKeyVerified name role

theorem KeysKept.refl (k : ApiKeyWorld) : KeysKept k k :=
  ⟨rfl, fun _ _ => rfl, [], (List.append_nil _).symm, by simp⟩

theorem KeysKept.trans {k k' k'' : ApiKeyWorld} (h : KeysKept k k') (h' : KeysKept k' k'') :
    KeysKept k k'' := by
  obtain ⟨added, hadded, hnew⟩ := h.events
  obtain ⟨added', hadded', hnew'⟩ := h'.events
  refine ⟨h'.rows.trans h.rows, ?_, added ++ added', ?_, ?_⟩
  · intro key hkey
    exact (h'.cache key hkey).trans (h.cache key hkey)
  · rw [hadded', hadded, List.append_assoc]
  · intro e he
    rcases List.mem_append.mp he with he | he
    · exact hnew e he
    · exact hnew' e he

theorem touch_rows (table : ApiKeyTable) (now : ℕ) (id : Uuid) :
    (table.touch now id).rows.map (fun r => { r with lastUsedAt := none }) =
      table.rows.map (fun r => { r with lastUsedAt := none }) := by
  simp only [ApiKeyTable.touch, RelationTables.updateWhere, List.map_map]
  apply List.map_congr_left
  intro r _
  simp only [Function.comp_apply]
  split <;> rfl

theorem keysKept_handle {o : ApiKeyOp} (ho : KeyStep o) (c : Choice) (k : ApiKeyWorld) :
    KeysKept k (ApiKeyWorld.handle c k o).2 := by
  have hwait : KeysKept k (k.wait c.elapsed) :=
    ⟨rfl, fun _ _ => rfl, [], (List.append_nil _).symm, by simp⟩
  cases o with
  | getValue key => exact hwait
  | findByHash hash => exact hwait
  | setValue key value ttlSecs =>
    obtain ⟨hash, rfl⟩ := ho
    simp only [ApiKeyWorld.handle]
    split
    · exact hwait
    · refine ⟨rfl, ?_, [], (List.append_nil _).symm, by simp⟩
      intro other hother
      exact ExpiringStore.Store.put_ne _ (hother hash) _ _
  | updateLastUsed id =>
    simp only [ApiKeyWorld.handle]
    split
    · exact hwait
    · exact ⟨touch_rows _ _ _, fun _ _ => rfl, [], (List.append_nil _).symm, by simp⟩
  | publish event =>
    simp only [ApiKeyWorld.handle]
    split
    · exact hwait
    · refine ⟨rfl, fun _ _ => rfl, [event], rfl, ?_⟩
      intro e he
      rw [List.mem_singleton.mp he]
      exact ho

open RestConfinement

theorem unserved_handle {o : Op} (ho : o.kind ∈ [OpKind.decodeToken, .readWallets]) (c : Choice)
    (w : self.State) : Unserved self w (self.handle c w o).2 := by
  have hreads : ∀ kind ∈ [OpKind.decodeToken, .readWallets], kind ∉ dbWrites := by decide
  have hdb := self.handle_db_of_kind (hreads _ ho) c w
  have hsubmitted := Chain.submitted_advance w.chain c.lands c.foreign
  cases o with
  | wallet q => exact ⟨hdb, rfl, rfl, rfl, rfl, hsubmitted⟩
  | host q =>
    cases q with
    | decodeToken token => exact ⟨hdb, rfl, rfl, rfl, rfl, hsubmitted⟩
    | _ => simp at ho
  | user q => cases q <;> simp at ho
  | cache q =>
    cases q with
    | setValue key value ttlSecs => cases value <;> simp at ho
    | _ => simp at ho
  | bus q => simp at ho
  | chain q => cases q <;> simp at ho

/-- A call by a service that is neither the gateway nor an administrator. -/
def ByOther (self : AuthService) (keys : ApiKeyService) (t : Transport) (p : SurfaceProgram) : Prop :=
  ∃ ctx, t.roles.fromHeaders ctx ∉ [ServiceRole.apiGateway, .admin] ∧
    ((∃ r, p = rpcProgram self t ctx r) ∨ ∃ key, p = keyProgram keys t ctx key)

/-- Whatever calls other services make, in every interleaving and with any failures, they only
read: accounts, wallets, sessions, cache, events, tasks and submissions stay as they are. The
verification of keys leaves no more behind than the last use of a key, its cached entry and the
events that report it. -/
theorem other_services_only_read (hroles : Gates t.roles) {s₀ s : self.State × ApiKeyWorld}
    {ps : List SurfaceProgram}
    (h : Reach (beside self.handle ApiKeyWorld.handle) (fun _ p => ByOther self keys t p)
      (fun _ _ _ => True) (fun v => v = s₀) s ps) :
    Unserved self s₀.1 s.1 ∧ KeysKept s₀.2 s.2 := by
  refine Reach.preservesBoth (P := fun o : Op => o.kind ∈ [OpKind.decodeToken, .readWallets])
    (R := KeyStep) Unserved.refl KeysKept.refl Unserved.trans KeysKept.trans
    (fun c w _ ho => unserved_handle ho c w)
    (fun c k _ ho => keysKept_handle ho c k) ?_ h
  rintro _ p ⟨ctx, hother, ⟨r, rfl⟩ | ⟨key, rfl⟩⟩
  · exact Issues.left (Issues.bind (handler_reads hroles hother r) (fun _ => trivial))
  · exact Issues.right (Issues.bind (verifyApiKey_issues key) (fun _ => trivial))

end Reading

section Alice
open ReferenceLibraries RestApi RestConfinement

theorem transport_gates : Gates transport.roles := by
  intro role allowed h
  by_cases hmem : role ∈ allowed
  · exact hmem
  · simp [transport, serviceAuth, hmem] at h

/-- The bridge asks for Alice's address and verifies a key, and the trading service tries to
register an account. -/
def otherCalls : List SurfaceProgram :=
  [rpcProgram service transport .aggregatorBridge (.getUserWallet (uuidToString ⟨1⟩)),
    keyProgram apiKeyService transport .aggregatorBridge engineeringKey,
    rpcProgram service transport .tradingApi
      (.registerUser "eve" "eve@example.com" "Str0ng!Pass" "" "")]

def called : (service.State × ApiKeyWorld) × List SurfaceProgram :=
  schedule (beside service.handle ApiKeyWorld.handle) ((verifiedState, seeded), otherCalls)
    ((0, {}) :: List.replicate 5 (1, {}))

/-- The address that a call has been answered with. -/
def answeredAddress : SurfaceProgram → Option String
  | .ret (.rpc (.getUserWallet _) (.ok reply)) => some reply.walletAddress
  | _ => none

/-- The bridge has its address and the key is noted as used. -/
theorem other_services_only_read_called :
    called.2.map answeredAddress = [some custodialRow.walletAddress, none, none] ∧
      called.1.2.table.rows.map (·.lastUsedAt) = [some 0] ∧
      Unserved service verifiedState called.1.1 ∧ KeysKept seeded called.1.2 := by
  refine ⟨by decide +kernel, by decide +kernel,
    @other_services_only_read service apiKeyService transport transport_gates (verifiedState, seeded)
      called.1 called.2 ?_⟩
  refine Reach.schedule (Reach.pool (by rfl) otherCalls ?_) _
    (Admitted.of_forall (fun _ _ _ => trivial) _ _)
  intro p hp
  simp only [otherCalls, List.mem_cons, List.not_mem_nil, or_false] at hp
  rcases hp with rfl | rfl | rfl
  · exact ⟨.aggregatorBridge, by decide, .inl ⟨_, rfl⟩⟩
  · exact ⟨.aggregatorBridge, by decide, .inr ⟨_, rfl⟩⟩
  · exact ⟨.tradingApi, by decide, .inl ⟨_, rfl⟩⟩

end Alice

end IamService.IdentityGrpcService
