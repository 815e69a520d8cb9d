import IamService.ReferenceLibraries
import IamService.RolePermissions

/-!
# The decision of the `Authorize` call

The handler decides on the text of the role in the token: an administrator is allowed
everything, a user everything but administration, and nobody else anything. It does not
consult the permission tables of the roles.
-/

namespace IamService.AuthorizePolicy
open EffectPrograms AuthService ReferenceLibraries

/-- The services that call one another. -/
inductive ServiceRole where
  | apiGateway | tradingApi | aggregatorBridge | meterService | admin | iamService
  | settlementService | unknown
  deriving DecidableEq

/-- What the handlers use of `gridtokenx_blockchain_core::auth`: the role in the headers of a
call, and the check of a role against an allowlist. -/
structure ServiceAuth where
  Context : Type
  fromHeaders : Context → ServiceRole
  requireAny : ServiceRole → List ServiceRole → Except String Unit

inductive ConnectCode where
  | invalidArgument | notFound | alreadyExists | permissionDenied | resourceExhausted
  | failedPrecondition | internal | unavailable | unauthenticated
  deriving DecidableEq

structure ConnectError where
  code : ConnectCode
  message : String
  deriving DecidableEq

structure AuthorizeRequest where
  token : Jwt
  requiredPermission : String

structure AuthorizeResponse where
  authorized : Bool
  errorMessage : String
  deriving DecidableEq

abbrev Handled (α : Type) := Fallible Op.Ans ConnectError α

/-- The callers that may ask for a decision. -/
def authorizeRoles : List ServiceRole := [.apiGateway, .admin]

/-- Gate a call against the allowlist of its method. -/
def gate {Kind : Type} {Ans : Kind → Type} (auth : ServiceAuth) (ctx : auth.Context)
    (allowed : List ServiceRole) : Fallible Ans ConnectError Unit :=
  match auth.requireAny (auth.fromHeaders ctx) allowed with
  | .ok () => return ()
  | .error message => throw ⟨.permissionDenied, message⟩

/-- The decision on the text of the role in the token. -/
def roleAllows (role permission : String) : Bool :=
  match role with
  | "admin" => true
  | "user" => !CharacterSequences.startsWith permission "admin:"
  | _ => false

def authorize (auth : ServiceAuth) (ctx : auth.Context) (request : AuthorizeRequest) :
    Handled AuthorizeResponse := do
  gate auth ctx authorizeRoles
  match ← observe (host (.decodeToken request.token)) with
  | .ok claims =>
    let authorized := roleAllows claims.role request.requiredPermission
    return ⟨authorized, if authorized then "" else "Insufficient permissions"⟩
  | .error e => return ⟨false, "Invalid token: " ++ e.display⟩

/-- The decision of the role model on the text of a role. -/
def roleModelAllows (lib : Libraries) (role permission : String) : Bool :=
  match Role.fromStr lib role with
  | .ok r => r.canAccess permission
  | .error _ => false

variable {self : AuthService} {auth : ServiceAuth} {ctx : auth.Context} {request : AuthorizeRequest}
  {f : ℕ → Choice} {w : self.State} {claims : Claims} {response : AuthorizeResponse}

/-- What a call with a valid token answers. -/
theorem authorize_response
    (hvalid : JwtService.decodeToken (w.now + (f 0).elapsed) w.issued request.token = .ok claims)
    (hrun : (run self.handle (authorize auth ctx request).run f w).1 = .ok response) :
    response.authorized = roleAllows claims.role request.requiredPermission := by
  unfold authorize gate at hrun
  cases hgate : auth.requireAny (auth.fromHeaders ctx) authorizeRoles with
  | error message =>
    rw [hgate] at hrun
    cases hrun
  | ok _ =>
    rw [hgate] at hrun
    have hans : (self.handle (f 0) w (.host (.decodeToken request.token))).1 = .ok claims := hvalid
    simp only [run_bind', run_pure', run_observe, host, Prog.ret_bind, Prog.eff_bind, proceed_ok,
      run_eff, hans] at hrun
    cases hrun
    rfl

theorem roleAllows_iff {role permission : String} : roleAllows role permission = true ↔
    role = "admin" ∨ role = "user" ∧ CharacterSequences.startsWith permission "admin:" = false := by
  unfold roleAllows
  split
  · simp
  · simp
  · rename_i hadmin huser
    simp only [Bool.false_eq_true, false_iff, not_or, not_and]
    exact ⟨hadmin, fun h => (huser h).elim⟩

section RoleModel

variable {lib : Libraries}

/-- The names that the handler knows are read as their roles. -/
theorem fromStr_name (hlib : AsciiLowercase lib) :
    Role.fromStr lib "admin" = .ok .admin ∧ Role.fromStr lib "user" = .ok .user := by
  have hadmin : lib.toLowercase "admin" = "admin" := by
    have hlower := hlib "admin" (by simp)
    simpa using hlower
  have huser : lib.toLowercase "user" = "user" := by
    have hlower := hlib "user" (by simp)
    simpa using hlower
  constructor
  · simp [Role.fromStr, hadmin]
  · simp [Role.fromStr, huser]

/-- No permission of a user is about administration. -/
theorem user_not_admin {permission : String} (h : Role.user.canAccess permission = true) :
    CharacterSequences.startsWith permission "admin:" = false := by
  have htable : ∀ p ∈ Role.userPermissions,
      CharacterSequences.startsWith p.text "admin:" = false := by decide +kernel
  exact htable _ (Role.user_canAccess_iff.mp h)

/-- What the role model grants to the names that the handler knows, the handler allows. -/
theorem roleAllows_of_roleModelAllows (hlib : AsciiLowercase lib) {role permission : String}
    (hrole : role = "admin" ∨ role = "user")
    (h : roleModelAllows lib role permission = true) : roleAllows role permission = true := by
  rw [roleAllows_iff]
  rcases hrole with rfl | rfl
  · exact .inl rfl
  · simp only [roleModelAllows, (fromStr_name hlib).2] at h
    exact .inr ⟨rfl, user_not_admin h⟩

end RoleModel

/-- A valid token is authorized exactly for the role `admin`, and for the role `user` when the
permission is not about administration. So a role that cannot be read is never authorized,
and for the two roles the handler knows nothing is refused that the role model grants. -/
theorem authorize_decides (hlib : AsciiLowercase self.lib)
    (hvalid : JwtService.decodeToken (w.now + (f 0).elapsed) w.issued request.token = .ok claims)
    (hrun : (run self.handle (authorize auth ctx request).run f w).1 = .ok response) :
    (response.authorized = true ↔ claims.role = "admin" ∨ claims.role = "user" ∧
        CharacterSequences.startsWith request.requiredPermission "admin:" = false) ∧
      ((∀ r, Role.fromStr self.lib claims.role ≠ .ok r) → response.authorized = false) ∧
      (claims.role = "admin" ∨ claims.role = "user" →
        roleModelAllows self.lib claims.role request.requiredPermission = true →
        response.authorized = true) := by
  rw [authorize_response hvalid hrun]
  refine ⟨roleAllows_iff, ?_, roleAllows_of_roleModelAllows hlib⟩
  intro hunknown
  rw [← Bool.not_eq_true, roleAllows_iff]
  rintro (hrole | ⟨hrole, -⟩)
  · exact hunknown _ (hrole ▸ (fromStr_name hlib).1)
  · exact hunknown _ (hrole ▸ (fromStr_name hlib).2)

section Alice

/-- An allowlist check as the handlers expect it. -/
def serviceAuth : ServiceAuth where
  Context := ServiceRole
  fromHeaders := id
  requireAny := fun role allowed => if role ∈ allowed then .ok () else .error "role not allowed"

/-- The token that Alice received with her verification. -/
def aliceSession : Jwt := ⟨Claims.new 0 ⟨1⟩ "alice" "user"⟩

/-- What the gateway is told about one of Alice's permissions. -/
def aliceDecision (permission : String) : Except ConnectError AuthorizeResponse :=
  (run service.handle (authorize serviceAuth .apiGateway ⟨aliceSession, permission⟩).run (oracle [])
    activated).1

theorem alice_asciiLowercase : AsciiLowercase service.lib := fun _ _ => rfl

theorem alice_not_authorized_to_administer :
    ∃ response, aliceDecision "admin:delete" = .ok response ∧ response.authorized = false := by
  have hstate : JwtService.decodeToken (activated.now + (oracle [] 0).elapsed) activated.issued
        aliceSession = .ok aliceSession.claims ∧
      aliceDecision "admin:delete" = .ok ⟨false, "Insufficient permissions"⟩ := by decide +kernel
  obtain ⟨hvalid, hrun⟩ := hstate
  refine ⟨_, hrun, ?_⟩
  have hpolicy := (@authorize_decides service serviceAuth .apiGateway ⟨aliceSession, "admin:delete"⟩
    (oracle []) activated aliceSession.claims _ alice_asciiLowercase hvalid hrun).1
  rw [← Bool.not_eq_true, hpolicy]
  decide +kernel

/-- A user is authorized to create users, which the role model refuses. -/
theorem user_authorized_beyond_role :
    ¬ ∀ (ctx : ServiceRole) (request : AuthorizeRequest) (f : ℕ → Choice) (w : service.State)
        (claims : Claims) (response : AuthorizeResponse),
        JwtService.decodeToken (w.now + (f 0).elapsed) w.issued request.token = .ok claims →
        (run service.handle (authorize serviceAuth ctx request).run f w).1 = .ok response →
        (response.authorized = true ↔
          roleModelAllows service.lib claims.role request.requiredPermission = true) := by
  intro h
  have hstate : JwtService.decodeToken (activated.now + (oracle [] 0).elapsed) activated.issued
        aliceSession = .ok aliceSession.claims ∧
      aliceDecision "users:create" = .ok ⟨true, ""⟩ ∧
      roleModelAllows service.lib aliceSession.claims.role "users:create" = false := by
    decide +kernel
  obtain ⟨hvalid, hrun, hmodel⟩ := hstate
  have hagree := (h .apiGateway ⟨aliceSession, "users:create"⟩ (oracle []) activated
    aliceSession.claims _ hvalid hrun).mp rfl
  rw [hmodel] at hagree
  cases hagree

end Alice

end IamService.AuthorizePolicy
