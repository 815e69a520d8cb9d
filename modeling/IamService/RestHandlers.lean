import IamService.AuthorizePolicy
import IamService.MethodFootprints
import IamService.RateLimitBudgets
import IamService.SessionVerification

/-!
# The REST surface

Fourteen routes lead to the methods of the service. Seven of them are about accounts and
sessions and pass the rate limiter first; the others are private to the bearer of a token. A
private handler takes the user it acts for from the token and from nowhere else. The role in
the headers is checked after the token, so that an absent token is reported first.

Path, query and body are read by the framework before a handler runs; a request that it cannot
read does not reach the handler.
-/

namespace IamService
open EffectPrograms AuthorizePolicy

/-- What the surface uses of third-party code and of the environment. -/
structure Transport where
  roles : ServiceAuth
  /-- The token behind a text, unless the text is none; the error is the text of the answer. -/
  readToken : String → Except String Jwt
  /-- `Uuid::parse_str`. -/
  uuidFromStr : String → Except String Uuid
  env : String → Option String

namespace RestApi

/-- What the extractors read of a request, beside the arguments of its route. -/
structure Parts (t : Transport) where
  headers : t.roles.Context
  /-- The header `Authorization`, if it is there and visible text. -/
  authorization : Option String
  ip : String

inductive Route where
  | register (username email password : String) (firstName lastName : Option String)
  | login (username password : String)
  | refresh
  | verify (token : String)
  | resendVerification (email : String)
  | forgotPassword (email : String)
  | resetPassword (token newPassword : String)
  | getMe
  | onboardUser (userType : UserType) (latE7 longE7 : Int32) (h3Index : Option UInt64)
      (shardId : Option UInt8)
  | linkWallet (walletAddress : String) (label : Option String) (isPrimary : Bool)
  | listWallets
  | getWallet (walletId : Uuid)
  | updateWallet (walletId : Uuid) (isPrimary : Option Bool)
  | unlinkWallet (walletId : Uuid)

/-- The path below `/api/v1/auth`, for the routes behind the rate limiter. -/
def Route.authPath : Route → Option String
  | .register .. => some "/register"
  | .login .. => some "/login"
  | .refresh => some "/refresh"
  | .verify _ => some "/verify"
  | .resendVerification _ => some "/resend-verification"
  | .forgotPassword _ => some "/forgot-password"
  | .resetPassword .. => some "/reset-password"
  | _ => none

structure UserResponse where
  id : Uuid
  username : String
  email : String
  role : String
  firstName : Option String
  lastName : Option String
  walletAddress : Option String
  status : String
  deriving DecidableEq

def userResponse (user : User) : UserResponse where
  id := user.id
  username := user.username
  email := user.email
  role := user.role
  firstName := user.firstName
  lastName := user.lastName
  walletAddress := user.walletAddress
  status := if user.isActive then "verified" else "pending_verification"

structure AuthResponse where
  accessToken : Jwt
  expiresIn : ℤ
  user : UserResponse
  deriving DecidableEq

def authResponse (r : AuthResult) : AuthResponse := ⟨r.accessToken, r.expiresIn, userResponse r.user⟩

structure RegistrationResponse where
  id : Uuid
  username : String
  email : String
  status : String
  message : Option String
  deriving DecidableEq

structure RefreshResponse where
  accessToken : Jwt
  expiresIn : ℤ
  tokenType : String
  deriving DecidableEq

structure VerifyEmailResponse where
  success : Bool
  message : String
  walletAddress : Option String
  auth : Option AuthResponse
  deriving DecidableEq

/-- A wallet as the surface shows it. -/
structure WalletResponse where
  id : Uuid
  userId : Option Uuid
  walletAddress : String
  label : Option String
  isPrimary : Bool
  status : String
  createdAt : ℕ
  verified : Bool
  blockchainRegistered : Bool
  deriving DecidableEq

def mapUserWallet (w : UserWallet) : WalletResponse where
  id := w.id
  userId := some w.userId
  walletAddress := w.walletAddress
  label := w.label
  isPrimary := w.isPrimary
  status := if w.verified then "verified" else "unverified"
  createdAt := w.createdAt
  verified := w.verified
  blockchainRegistered := w.blockchainRegistered

structure OnChainOnboardingResponse where
  status : String
  transactionSignature : Option String
  message : String
  deriving DecidableEq

structure MessageResponse where
  message : String
  deriving DecidableEq

/-- The body of the answer to a request that succeeds. -/
@[reducible] def Route.Reply : Route → Type
  | .register .. => RegistrationResponse
  | .login .. => AuthResponse
  | .refresh => RefreshResponse
  | .verify _ => VerifyEmailResponse
  | .resendVerification _ => ResendVerificationResult
  | .forgotPassword _ => MessageResponse
  | .resetPassword .. => MessageResponse
  | .getMe => UserResponse
  | .onboardUser .. => OnChainOnboardingResponse
  | .linkWallet .. => WalletResponse
  | .listWallets => List WalletResponse
  | .getWallet _ => WalletResponse
  | .updateWallet .. => WalletResponse
  | .unlinkWallet _ => MessageResponse

/-- The callers of public and of private routes. -/
def publicRoles : List ServiceRole := [.apiGateway, .admin, .unknown]

def privateRoles : List ServiceRole := [.apiGateway, .admin]

section Handlers

variable (self : AuthService) (t : Transport) (parts : Parts t)

def requireAny (allowed : List ServiceRole) : Method Unit :=
  match t.roles.requireAny (t.roles.fromHeaders parts.headers) allowed with
  | .ok () => return ()
  | .error message => throw (.forbidden message)

/-- The extractor `AuthenticatedUser`. -/
def authenticatedUser : Method Claims :=
  match parts.authorization with
  | none => throw (.unauthorized "Missing Authorization header")
  | some header =>
    if ¬ CharacterSequences.startsWith header "Bearer " then
      throw (.unauthorized "Invalid Authorization header format")
    else match t.readToken (String.ofList (header.toList.drop 7)) with
      | .error message => throw (.withCode .tokenInvalid message)
      | .ok token => attempt (host (.decodeToken token))

/-- A private handler: the token, then the role, then the work for the user of the token. -/
def authorized {α : Type} (work : Claims → Method α) : Method α := do
  let claims ← authenticatedUser t parts
  requireAny t parts privateRoles
  work claims

def register (username email password : String) (firstName lastName : Option String) :
    Method RegistrationResponse := do
  requireAny t parts publicRoles
  let r ← self.register username email password firstName lastName
  return ⟨r.id, r.username, r.email, "pending_verification",
    some "Registration successful! Please verify your email."⟩

def login (username password : String) : Method AuthResponse := do
  requireAny t parts publicRoles
  let r ← self.login username password
  return authResponse r

/-- The token was valid a moment ago, when the extractor read it. -/
def refresh : Method RefreshResponse := authorized t parts fun claims => do
  let token ← AuthService.mintToken claims.sub claims.username claims.role
  return ⟨token, self.config.jwtExpiration, "Bearer"⟩

def verify (token : String) : Method VerifyEmailResponse := do
  requireAny t parts publicRoles
  let r ← self.verifyEmail token
  return ⟨r.success, r.message, r.walletAddress, r.auth.map authResponse⟩

def resendVerification (email : String) : Method ResendVerificationResult := do
  requireAny t parts publicRoles
  self.resendVerification (String.ofList (RateLimitBudgets.trimmed email.toList))

def forgotPassword (email : String) : Method MessageResponse := do
  requireAny t parts publicRoles
  self.forgotPassword email
  return ⟨"If that email is registered, a reset link has been sent"⟩

def resetPassword (token newPassword : String) : Method MessageResponse := do
  requireAny t parts publicRoles
  self.resetPassword token newPassword
  return ⟨"Password reset successfully"⟩

def getMe : Method UserResponse := authorized t parts fun claims => do
  let user ← AuthService.getUserProfile claims.sub
  return userResponse user

def onboardUser (userType : UserType) (latE7 longE7 : Int32) (h3Index : Option UInt64)
    (shardId : Option UInt8) : Method OnChainOnboardingResponse :=
  authorized t parts fun claims => do
    let r ← self.onboardUserOnChain claims.sub userType latE7 longE7 h3Index shardId
    return ⟨if r.success then "processing" else "failed", r.transactionSignature, r.message⟩

def linkWallet (walletAddress : String) (label : Option String) (isPrimary : Bool) :
    Method WalletResponse := authorized t parts fun claims => do
  let w ← self.linkWallet claims.sub walletAddress label isPrimary
  return mapUserWallet w

def listWallets : Method (List WalletResponse) := authorized t parts fun claims => do
  let wallets ← AuthService.listWallets claims.sub
  return wallets.map mapUserWallet

def getWallet (walletId : Uuid) : Method WalletResponse := authorized t parts fun claims => do
  let w ← AuthService.getWallet claims.sub walletId
  return mapUserWallet w

/-- A wallet is promoted and never demoted; any other body asks for nothing. -/
def updateWallet (walletId : Uuid) (isPrimary : Option Bool) : Method WalletResponse :=
  authorized t parts fun claims => do
    if isPrimary ≠ some true then
      throw (.badRequest
        "PATCH body must set `is_primary: true` (the only supported wallet update)")
    else
      let w ← AuthService.setPrimaryWallet claims.sub walletId
      return mapUserWallet w

def unlinkWallet (walletId : Uuid) : Method MessageResponse := authorized t parts fun claims => do
  AuthService.unlinkWallet claims.sub walletId
  return ⟨"Wallet unlinked successfully"⟩

def handler : (r : Route) → Method r.Reply
  | .register username email password firstName lastName =>
    register self t parts username email password firstName lastName
  | .login username password => login self t parts username password
  | .refresh => refresh self t parts
  | .verify token => verify self t parts token
  | .resendVerification email => resendVerification self t parts email
  | .forgotPassword email => forgotPassword self t parts email
  | .resetPassword token newPassword => resetPassword self t parts token newPassword
  | .getMe => getMe t parts
  | .onboardUser userType latE7 longE7 h3Index shardId =>
    onboardUser self t parts userType latE7 longE7 h3Index shardId
  | .linkWallet walletAddress label isPrimary =>
    linkWallet self t parts walletAddress label isPrimary
  | .listWallets => listWallets t parts
  | .getWallet walletId => getWallet t parts walletId
  | .updateWallet walletId isPrimary => updateWallet t parts walletId isPrimary
  | .unlinkWallet walletId => unlinkWallet t parts walletId

/-- Why a request is not served: the error of its handler, or the rate limiter. -/
inductive Refusal where
  | failed (e : ApiError)
  | tooManyRequests
  deriving DecidableEq

/-- Any error of the check refuses the request, also when the cache fails. -/
def rateLimitMiddleware {α : Type} (path : String) (next : Program (Except Refusal α)) :
    Program (Except Refusal α) := do
  let budget := RateLimitBudgets.limitsForPath t.env path
  match ← (AuthService.checkRateLimit parts.ip path budget.1 budget.2).run with
  | .ok () => next
  | .error _ => return .error .tooManyRequests

/-- Serve a request, through the rate limiter if its route is behind it. -/
def serve (r : Route) : Program (Except Refusal r.Reply) :=
  let next : Program (Except Refusal r.Reply) :=
    (handler self t parts r).run >>= fun x => .ret (x.mapError .failed)
  match r.authPath with
  | some path => rateLimitMiddleware t parts path next
  | none => next

end Handlers

structure HttpRequest (t : Transport) where
  parts : Parts t
  route : Route

/-- What a program of the service has come to. -/
inductive Outcome where
  | answered (r : Route) (reply : Except Refusal r.Reply)
  | finished (task : RegistrationTask)

def program (self : AuthService) {t : Transport} (r : HttpRequest t) : Program Outcome :=
  serve self t r.parts r.route >>= fun x => .ret (.answered r.route x)

/-- The detached task of a verification. -/
def taskProgram (self : AuthService) (task : RegistrationTask) : Program Outcome :=
  (self.registrationTask task).run >>= fun _ => .ret (.finished task)

section Bearer

variable {self : AuthService} {t : Transport} {parts : Parts t} {α β : Type}

/-- The token that a request bears. -/
def bearer (t : Transport) (parts : Parts t) : Option Jwt :=
  parts.authorization.bind fun header =>
    if CharacterSequences.startsWith header "Bearer " then
      (t.readToken (String.ofList (header.toList.drop 7))).toOption
    else none

/-- Without a token the extractor refuses at once; a token is decoded. -/
theorem authenticatedUser_cases : (∃ e, (authenticatedUser t parts).run = .ret (.error e)) ∨
    ∃ token, bearer t parts = some token ∧
      (authenticatedUser t parts).run = host (.decodeToken token) := by
  unfold authenticatedUser bearer
  cases parts.authorization with
  | none => exact .inl ⟨_, rfl⟩
  | some header =>
    by_cases hbearer : CharacterSequences.startsWith header "Bearer " = true
    · simp only [hbearer, not_true_eq_false, if_false, if_true, Option.bind_some]
      cases t.readToken (String.ofList (header.toList.drop 7)) with
      | error message => exact .inl ⟨_, rfl⟩
      | ok token => exact .inr ⟨token, rfl, rfl⟩
    · dsimp only
      rw [if_pos hbearer]
      exact .inl ⟨_, rfl⟩

theorem requireAny_cases (allowed : List ServiceRole) :
    (∃ e, (requireAny t parts allowed).run = .ret (.error e)) ∨
      (requireAny t parts allowed).run = .ret (.ok ()) := by
  unfold requireAny
  cases t.roles.requireAny (t.roles.fromHeaders parts.headers) allowed with
  | error message => exact .inl ⟨_, rfl⟩
  | ok _ => exact .inr rfl

variable {D : Discipline Op Choice self.State} {w : self.State}

theorem requireAny_safe {allowed : List ServiceRole} {work : Method α}
    (h : Safe self.handle D (fun _ _ => True) work.run w) :
    Safe self.handle D (fun _ _ => True) (requireAny t parts allowed >>= fun _ => work).run w := by
  rw [run_bind']
  rcases @requireAny_cases t parts allowed with ⟨e, hrun⟩ | hrun
  · rw [hrun]
    trivial
  · rw [hrun]
    exact h

/-- A private handler does its work for the user of a token that was issued. -/
theorem authorized_safe (hdecode : ∀ v token, D.permits v (.host (.decodeToken token)))
    {work : Claims → Method α} (hwork : ∀ token c v, bearer t parts = some token → D.rely w v →
      D.inv v → token ∈ v.issued → Safe self.handle D (fun _ _ => True) (work token.claims).run
        (self.handle c v (.host (.decodeToken token))).2) :
    Safe self.handle D (fun _ _ => True) (authorized t parts work).run w := by
  refine Safe.bindExcept ?_
  rcases @authenticatedUser_cases t parts with ⟨e, hrun⟩ | ⟨token, hbearer, hrun⟩
  · rw [hrun]
    trivial
  · rw [hrun]
    intro v hv hinv
    refine ⟨hdecode v token, ?_⟩
    intro c _
    rw [safe_ret]
    cases hans : (self.handle c v (.host (.decodeToken token))).1 with
    | error e => trivial
    | ok claims =>
      obtain ⟨hmem, rfl⟩ := SessionVerification.decodeToken_ok hans
      exact requireAny_safe (hwork token c v hbearer hv hinv hmem)

/-- The rest of a handler makes a reply of what the method returns. -/
theorem reply_safe {method : Method α} {reply : α → β}
    (h : Safe self.handle D (fun _ _ => True) method.run w) :
    Safe self.handle D (fun _ _ => True) (method >>= fun a => pure (reply a)).run w :=
  Safe.andThen h (fun _ _ => trivial)

/-- The call behind a public route. -/
def Route.publicCall : Route → Option Call
  | .register username email password firstName lastName =>
    some (.register username email password firstName lastName)
  | .login username password => some (.login username password)
  | .verify token => some (.verifyEmail token)
  | .resendVerification email =>
    some (.resendVerification (String.ofList (RateLimitBudgets.trimmed email.toList)))
  | .forgotPassword email => some (.forgotPassword email)
  | .resetPassword token newPassword => some (.resetPassword token newPassword)
  | _ => none

/-- The call behind a private route, made for the user of the token. -/
def Route.privateCall (userId : Uuid) : Route → Option Call
  | .getMe => some (.getUserProfile userId)
  | .onboardUser userType latE7 longE7 h3Index shardId =>
    some (.onboardUserOnChain userId userType latE7 longE7 h3Index shardId)
  | .linkWallet walletAddress label isPrimary =>
    some (.linkWallet userId walletAddress label isPrimary)
  | .listWallets => some (.listWallets userId)
  | .getWallet walletId => some (.getWallet userId walletId)
  | .updateWallet walletId isPrimary =>
    if isPrimary = some true then some (.setPrimaryWallet userId walletId) else none
  | .unlinkWallet walletId => some (.unlinkWallet userId walletId)
  | _ => none

/-- A handler is safe when the call behind its route is: for a private route, made for the user
of a token that was issued. -/
theorem handler_safe (hdecode : ∀ v token, D.permits v (.host (.decodeToken token))) (r : Route)
    (hpublic : ∀ call, r.publicCall = some call →
      Safe self.handle D (fun _ _ => True) (self.method call).run w)
    (hprivate : ∀ token c v call, bearer t parts = some token → D.rely w v → D.inv v →
      token ∈ v.issued → r.privateCall token.claims.sub = some call →
      Safe self.handle D (fun _ _ => True) (self.method call).run
        (self.handle c v (.host (.decodeToken token))).2)
    (hrefresh : ∀ token c v, D.rely w v → D.inv v → token ∈ v.issued →
      Safe self.handle D (fun _ _ => True)
        (AuthService.mintToken token.claims.sub token.claims.username token.claims.role).run
        (self.handle c v (.host (.decodeToken token))).2) :
    Safe self.handle D (fun _ _ => True) (handler self t parts r).run w := by
  cases r with
  | register username email password firstName lastName =>
    exact requireAny_safe (reply_safe (hpublic _ rfl))
  | login username password => exact requireAny_safe (reply_safe (hpublic _ rfl))
  | verify token => exact requireAny_safe (reply_safe (hpublic _ rfl))
  | resendVerification email => exact requireAny_safe (hpublic _ rfl)
  | forgotPassword email => exact requireAny_safe (reply_safe (hpublic _ rfl))
  | resetPassword token newPassword => exact requireAny_safe (reply_safe (hpublic _ rfl))
  | refresh =>
    exact authorized_safe hdecode fun token c v _ hv hinv hmem =>
      reply_safe (hrefresh token c v hv hinv hmem)
  | updateWallet walletId isPrimary =>
    refine authorized_safe hdecode fun token c v hbearer hv hinv hmem => ?_
    split
    · trivial
    · rename_i hprimary
      exact reply_safe (hprivate token c v _ hbearer hv hinv hmem
        (if_pos (not_not.mp hprimary)))
  | getMe =>
    exact authorized_safe hdecode fun token c v hbearer hv hinv hmem =>
      reply_safe (hprivate token c v _ hbearer hv hinv hmem rfl)
  | onboardUser userType latE7 longE7 h3Index shardId =>
    exact authorized_safe hdecode fun token c v hbearer hv hinv hmem =>
      reply_safe (hprivate token c v _ hbearer hv hinv hmem rfl)
  | linkWallet walletAddress label isPrimary =>
    exact authorized_safe hdecode fun token c v hbearer hv hinv hmem =>
      reply_safe (hprivate token c v _ hbearer hv hinv hmem rfl)
  | listWallets =>
    exact authorized_safe hdecode fun token c v hbearer hv hinv hmem =>
      reply_safe (hprivate token c v _ hbearer hv hinv hmem rfl)
  | getWallet walletId =>
    exact authorized_safe hdecode fun token c v hbearer hv hinv hmem =>
      reply_safe (hprivate token c v _ hbearer hv hinv hmem rfl)
  | unlinkWallet walletId =>
    exact authorized_safe hdecode fun token c v hbearer hv hinv hmem =>
      reply_safe (hprivate token c v _ hbearer hv hinv hmem rfl)

/-- A request is safe when the rate limiter and its handler are. -/
theorem program_safe {r : HttpRequest t}
    (hlimit : ∀ v ip path limit window, Safe self.handle D (fun _ _ => True)
      (AuthService.checkRateLimit ip path limit window).run v)
    (hhandler : ∀ v, Safe self.handle D (fun _ _ => True) (handler self t r.parts r.route).run v)
    (w : self.State) : Safe self.handle D (fun _ _ => True) (program self r) w := by
  have hnext : ∀ v, Safe self.handle D (fun _ _ => True) ((handler self t r.parts r.route).run >>=
      fun x => .ret (x.mapError Refusal.failed)) v := by
    intro v
    exact Safe.bind ((hhandler v).mono (fun _ _ _ => trivial))
  refine Safe.bind (Safe.mono (fun _ _ _ => trivial) (?_ : Safe _ _ (fun _ _ => True) _ _))
  unfold serve
  split
  · refine Safe.bind ((hlimit w _ _ _ _).mono ?_)
    intro checked v _
    cases checked with
    | ok _ => exact hnext v
    | error e => trivial
  · exact hnext w

end Bearer

section Alice

/-- A surface without overrides that knows the text of Alice's token. -/
def transport : Transport where
  roles := serviceAuth
  readToken := fun text =>
    if text = "alice.session.token" then .ok aliceSession else .error "Invalid token"
  uuidFromStr := ReferenceLibraries.uuidFromStr
  env := fun _ => none

/-- A request through the gateway, with or without a header of authorization. -/
def viaGateway (authorization : Option String) (route : Route) : HttpRequest transport :=
  ⟨⟨.apiGateway, authorization, "10.0.0.1"⟩, route⟩

end Alice

end RestApi

end IamService
