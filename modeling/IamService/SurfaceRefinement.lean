import IamService.HandlerSimulations
import IamService.IdentityGrpc

/-!
# The surface does no more than the calls

Requests over REST and over gRPC put the methods of the service together: a check of the rate
limiter, the decoding of a token, a method, in this order and each one only if the part before it
allows. Every operation of a request is an operation of one of the calls, so whatever holds in
all interleavings of calls holds in all interleavings of requests.

The decoding of a token alone is no call; it is the first step of a refresh that is given up.
-/

namespace IamService.SurfaceRefinement
open EffectPrograms AuthorizePolicy RestApi ReferenceLibraries
open IdentityGrpcService (Rpc serviceCall parseUuid)

section Parts

variable {self : AuthService} {t : Transport}

/-- The calls of the service. -/
def Calls (self : AuthService) (q : Program AuthService.Returned) : Prop :=
  ∃ c, q = self.program c

theorem method_madeOf (c : Call) : MadeOf (Calls self) (self.method c).run := .call ⟨c, rfl⟩

theorem decodeToken_madeOf (token : Jwt) :
    MadeOf (Calls self) (host (.decodeToken token)) := .first ⟨.refreshToken token, rfl⟩

variable {parts : Parts t}

theorem requireAny_madeOf (allowed : List ServiceRole) :
    MadeOf (Calls self) (requireAny t parts allowed).run := by
  rcases @requireAny_cases t parts allowed with ⟨e, hrun⟩ | hrun
  · rw [hrun]
    exact .ret _
  · rw [hrun]
    exact .ret _

theorem authenticatedUser_madeOf : MadeOf (Calls self) (authenticatedUser t parts).run := by
  rcases @authenticatedUser_cases t parts with ⟨e, hrun⟩ | ⟨token, -, hrun⟩
  · rw [hrun]
    exact .ret _
  · rw [hrun]
    exact decodeToken_madeOf token

variable {α β : Type}

theorem public_madeOf {work : Method α} (h : MadeOf (Calls self) work.run) :
    MadeOf (Calls self) (requireAny t parts publicRoles >>= fun _ => work).run :=
  (requireAny_madeOf publicRoles).bindExcept (fun _ => h)

theorem reply_madeOf {method : Method α} {reply : α → β} (h : MadeOf (Calls self) method.run) :
    MadeOf (Calls self) (method >>= fun a => pure (reply a)).run :=
  h.bindExcept (fun _ => .ret _)

theorem authorized_madeOf {work : Claims → Method α}
    (h : ∀ claims, MadeOf (Calls self) (work claims).run) :
    MadeOf (Calls self) (authorized t parts work).run :=
  authenticatedUser_madeOf.bindExcept fun claims =>
    (requireAny_madeOf privateRoles).bindExcept (fun _ => h claims)

/-- A refresh over REST is the call of that name, unless the role is refused after the token has
been decoded. -/
theorem refresh_madeOf : MadeOf (Calls self) (refresh self t parts).run := by
  rcases @authenticatedUser_cases t parts with ⟨e, hrun⟩ | ⟨token, -, hrun⟩
  · have hrefused : (refresh self t parts).run = .ret (.error e) := by
      unfold refresh authorized
      rw [run_bind', hrun]
      rfl
    rw [hrefused]
    exact .ret _
  · intro γ f hf
    refine ⟨self.program (.refreshToken token), ⟨_, rfl⟩, ?_⟩
    have hprogram : (refresh self t parts).run >>= f = .eff (.host (.decodeToken token)) (fun x =>
        proceed (fun claims => requireAny t parts privateRoles >>= fun _ =>
          AuthService.mintToken claims.sub claims.username claims.role >>= fun fresh =>
            pure ⟨fresh, self.config.jwtExpiration, "Bearer"⟩) x >>= f) := by
      unfold refresh authorized
      rw [run_bind', hrun]
      rfl
    rw [hprogram]
    refine .eff ?_
    intro decoded
    cases decoded with
    | error e => exact (hf _).covered _
    | ok claims =>
      change Covered (Calls self) _ ((AuthService.mintToken claims.sub claims.username claims.role >>=
        fun fresh => pure (fresh, self.config.jwtExpiration)).run >>= fun r =>
          .ret ⟨.refreshToken token, r⟩)
      rw [proceed_ok, run_bind']
      rcases @requireAny_cases t parts privateRoles with ⟨e, hgate⟩ | hgate
      · rw [hgate]
        exact (hf _).covered _
      · rw [hgate, Prog.ret_bind, proceed_ok, run_bind', run_bind', Prog.bind_assoc,
          Prog.bind_assoc]
        refine .bind ?_
        intro fresh
        cases fresh with
        | error e => exact (hf _).covered _
        | ok fresh => exact (hf _).covered _

theorem handler_madeOf (r : Route) : MadeOf (Calls self) (handler self t parts r).run := by
  cases r with
  | register username email password firstName lastName =>
    exact public_madeOf (reply_madeOf (method_madeOf (.register ..)))
  | login username password => exact public_madeOf (reply_madeOf (method_madeOf (.login ..)))
  | refresh => exact refresh_madeOf
  | verify token => exact public_madeOf (reply_madeOf (method_madeOf (.verifyEmail token)))
  | resendVerification email => exact public_madeOf (method_madeOf (.resendVerification _))
  | forgotPassword email =>
    exact public_madeOf (reply_madeOf (method_madeOf (.forgotPassword email)))
  | resetPassword token newPassword =>
    exact public_madeOf (reply_madeOf (method_madeOf (.resetPassword ..)))
  | getMe =>
    exact authorized_madeOf fun claims =>
      reply_madeOf (@method_madeOf self (.getUserProfile claims.sub))
  | onboardUser userType latE7 longE7 h3Index shardId =>
    exact authorized_madeOf fun claims =>
      reply_madeOf (method_madeOf (.onboardUserOnChain claims.sub ..))
  | linkWallet walletAddress label isPrimary =>
    exact authorized_madeOf fun claims => reply_madeOf (method_madeOf (.linkWallet claims.sub ..))
  | listWallets =>
    exact authorized_madeOf fun claims =>
      reply_madeOf (@method_madeOf self (.listWallets claims.sub))
  | getWallet walletId =>
    exact authorized_madeOf fun claims =>
      reply_madeOf (@method_madeOf self (.getWallet claims.sub walletId))
  | updateWallet walletId isPrimary =>
    refine authorized_madeOf fun claims => ?_
    split
    · exact .ret _
    · exact reply_madeOf (@method_madeOf self (.setPrimaryWallet claims.sub walletId))
  | unlinkWallet walletId =>
    exact authorized_madeOf fun claims =>
      reply_madeOf (@method_madeOf self (.unlinkWallet claims.sub walletId))

theorem serve_madeOf (r : Route) : MadeOf (Calls self) (RestApi.serve self t parts r) := by
  have hnext : MadeOf (Calls self) ((handler self t parts r).run >>=
      fun x => .ret (x.mapError Refusal.failed)) := (handler_madeOf r).bind (fun _ => .ret _)
  unfold RestApi.serve
  split
  · refine MadeOf.bind (@method_madeOf self (.checkRateLimit ..)) ?_
    intro checked
    cases checked with
    | ok _ => exact hnext
    | error e => exact .ret _
  · exact hnext

end Parts

section Rpcs

variable {self : AuthService} {t : Transport} {ctx : t.roles.Context} {α : Type}

theorem gate_madeOf {allowed : List ServiceRole} {next : Unit → Handled α}
    (h : MadeOf (Calls self) (next ()).run) :
    MadeOf (Calls self) (gate t.roles ctx allowed >>= next).run := by
  refine MadeOf.bindExcept ?_ (fun _ => h)
  unfold gate
  cases t.roles.requireAny (t.roles.fromHeaders ctx) allowed with
  | ok _ => exact .ret _
  | error message => exact .ret _

theorem decode_madeOf (text : String) :
    MadeOf (Calls self) (IdentityGrpcService.decodeToken t text) := by
  unfold IdentityGrpcService.decodeToken
  cases t.readToken text with
  | ok token => exact decodeToken_madeOf token
  | error message => exact .ret _

theorem parseUuid_madeOf (text : String) : MadeOf (Calls self) (parseUuid t text).run := by
  unfold parseUuid
  cases t.uuidFromStr text with
  | ok id => exact .ret _
  | error e => exact .ret _

theorem serviceCall_madeOf (c : Call) : MadeOf (Calls self) (serviceCall (self.method c)).run :=
  (method_madeOf c).bind (fun _ => .ret _)

theorem rpc_madeOf (r : Rpc) :
    MadeOf (Calls self) (IdentityGrpcService.handler self t ctx r).run := by
  cases r with
  | verifyToken token =>
    refine gate_madeOf ((decode_madeOf token).observe.bindExcept ?_)
    intro decoded
    cases decoded with
    | ok claims => exact .ret _
    | error e => exact .ret _
  | authorize token requiredPermission =>
    simp only [IdentityGrpcService.handler, IdentityGrpcService.authorize]
    cases t.readToken token with
    | error message => exact gate_madeOf (.ret _)
    | ok jwt =>
      refine gate_madeOf ((decodeToken_madeOf jwt).observe.bindExcept ?_)
      intro decoded
      cases decoded with
      | ok claims => exact .ret _
      | error e => exact .ret _
  | getUserInfo token =>
    refine gate_madeOf ((decode_madeOf token).observe.bindExcept ?_)
    intro decoded
    cases decoded with
    | ok claims => exact .ret _
    | error e => exact .ret _
  | registerUser username email password firstName lastName =>
    exact gate_madeOf ((serviceCall_madeOf (.register ..)).bindExcept (fun _ => .ret _))
  | linkWallet userId walletAddress label isPrimary =>
    exact gate_madeOf ((parseUuid_madeOf userId).bindExcept fun id =>
      (serviceCall_madeOf (.linkWallet id ..)).bindExcept (fun _ => .ret _))
  | getUserWallet userId =>
    exact gate_madeOf ((parseUuid_madeOf userId).bindExcept fun id =>
      (@serviceCall_madeOf self (.getPrimaryWalletAddress id)).bindExcept (fun _ => .ret _))
  | initializeUserWallet userId walletAddress =>
    exact gate_madeOf ((parseUuid_madeOf userId).bindExcept fun id =>
      (serviceCall_madeOf (.initializeUserWallet id walletAddress)).bindExcept (fun _ => .ret _))

end Rpcs

section Refinement

variable {self : AuthService} {t : Transport}

/-- What arrives at the service: a request over REST, a call over gRPC, or a detached task. -/
inductive Arrival (t : Transport) where
  | rest (r : HttpRequest t)
  | grpc (ctx : t.roles.Context) (r : Rpc)
  | task (task : RegistrationTask)

/-- The program that serves what arrives, without the answer. -/
def Arrival.program (self : AuthService) {t : Transport} : Arrival t → Program Unit
  | .rest r => RestApi.serve self t r.parts r.route >>= fun _ => .ret ()
  | .grpc ctx r => (IdentityGrpcService.handler self t ctx r).run >>= fun _ => .ret ()
  | .task job => (self.registrationTask job).run >>= fun _ => .ret ()

theorem arrival_coverable (a : Arrival t) : Coverable (Calls self) (a.program self) := by
  have hcall : Calls self (self.program (.listWallets ⟨0⟩)) := ⟨_, rfl⟩
  cases a with
  | rest r => exact (serve_madeOf r.route).coverable hcall (fun _ => ())
  | grpc ctx r => exact (rpc_madeOf r).coverable hcall (fun _ => ())
  | task task => exact (method_madeOf (.registrationTask task)).coverable hcall (fun _ => ())

end Refinement

section Alice

/-- Alice refreshes her session over REST while the gateway asks for her address. -/
def arrivals : List (Arrival transport) :=
  [.rest (viaGateway (some "Bearer alice.session.token") .refresh),
    .grpc .apiGateway (.getUserWallet (uuidToString ⟨1⟩))]

def served : service.State × List (Program Unit) :=
  schedule service.handle (verifiedState, arrivals.map (Arrival.program service))
    ([0, 0, 1, 0, 0, 0].map (fun i => (i, ({ elapsed := 1000 } : Choice))))

end Alice

end IamService.SurfaceRefinement
