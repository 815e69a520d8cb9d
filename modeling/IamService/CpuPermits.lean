import IamService.MethodFootprints
import IamService.PermitPrograms
import IamService.ReferenceLibraries

/-!
# Permits for processor-bound work

Login, registration and the reset of a password take a permit of `cpu_semaphore` before they
hash, and keep it until they return. The other calls take none. The semaphore has
`auth_cpu_semaphore_limit` permits and is never closed.

The calls are modelled with their permits here, and what the permits do is stated for any
number of calls that arrive, wait, go on and are dropped in any order. Hashing that a dropped
call leaves behind on its thread is not counted.
-/

namespace IamService.CpuPermits
open EffectPrograms FairSemaphores ReferenceLibraries

/-- The operations that keep a processor busy. -/
def Hashing : Op → Prop
  | .host (.hashPassword _) => True
  | .host (.verifyPassword ..) => True
  | _ => False

instance (o : Op) : Decidable (Hashing o) := by
  unfold Hashing
  split <;> infer_instance

/-- A method body with the permits it takes. -/
abbrev GuardedMethod (α : Type) := Fallible (Guarded.Answer Op.Ans) ApiError α

variable (self : AuthService)

section Methods

def login (username password : String) : GuardedMethod AuthResult := do
  let locked ← unguarded (observe (cache (.exists (CacheKeys.accountLock username))))
  if locked.toOption.getD false then unguarded do
    let _ ← observe (eventBus (.publish (.loginAttempt username false none)))
    throw (.withCode .accountLocked
      "Account temporarily locked due to too many failed attempts")
  else do
    let userWithHash ← unguarded (self.loginProfile username)
    underPermit do
      let isValid ← attempt (host (.verifyPassword password userWithHash.passwordHash))
      if isValid then self.successfulLogin username userWithHash.user
      else AuthService.failedLogin username

/-- The part of a registration that follows the check of the email. -/
def createAccount (username email password : String) (firstName lastName : Option String) :
    Method RegistrationResult := do
  let passwordHash ← attempt (host (.hashPassword password))
  let userId ← observe (host .newUuid)
  let tokenId ← observe (host .newUuid)
  let verificationToken := self.lib.uuidToString tokenId
  match ← observe (userRepo (.create ⟨userId, username, email, passwordHash, "user", firstName,
      lastName, some verificationToken⟩)) with
  | .error e => throw (AuthService.createError e)
  | .ok () => do
    let _ ← observe (eventBus (.publish (.userRegistered userId username email)))
    let _ ← observe (eventBus (.publish
      (.verificationEmailRequested userId username email verificationToken)))
    return ⟨userId, username, email, firstName, lastName,
      "User registered successfully. Please verify your email."⟩

def register (username email password : String) (firstName lastName : Option String) :
    GuardedMethod RegistrationResult :=
  if ¬ email.toList.contains '@' ∨ email.utf8ByteSize < 5 then
    unguarded (throw (.withCode .invalidEmail "Invalid email format"))
  else underPermit (createAccount self username email password firstName lastName)

/-- The user is looked up before the permit is taken. -/
def rotatePassword (token newPassword email : String) : GuardedMethod Unit := do
  let user ← unguarded (attempt (userRepo (.findByUsernameOrEmail email)))
  underPermit do
    let passwordHash ← attempt (host (.hashPassword newPassword))
    let rows ← attempt (userRepo (.updatePassword email passwordHash))
    if rows = 0 then throw (.notFound "User not found")
    else AuthService.invalidateReset token email user

def resetPassword (token newPassword : String) : GuardedMethod Unit := do
  match ← unguarded
      (self.cacheGet CacheValue.asText (CacheKeys.passwordResetToken token)) with
  | none => unguarded (throw (.badRequest "Invalid or expired reset token"))
  | some email => rotatePassword token newPassword email

/-- The body of a call with its permits. -/
def method : (c : Call) → GuardedMethod c.Value
  | .login username password => login self username password
  | .register username email password firstName lastName =>
    register self username email password firstName lastName
  | .resetPassword token newPassword => resetPassword self token newPassword
  | c => unguarded (self.method c)

def program (c : Call) : GuardedProg Op.Ans AuthService.Returned :=
  (method self c).run >>= fun r => .ret ⟨c, r⟩

end Methods

section Erasure

theorem login_unpermitted (username password : String) :
    unpermitted (login self username password) = self.login username password := by
  unfold login AuthService.login
  rw [unpermitted_bind, unpermitted_unguarded]
  apply congrArg (observe (cache (.exists (CacheKeys.accountLock username))) >>= ·)
  funext locked
  split
  · exact unpermitted_unguarded _
  · rw [unpermitted_bind, unpermitted_unguarded]
    apply congrArg (self.loginProfile username >>= ·)
    funext userWithHash
    exact unpermitted_underPermit _

theorem register_unpermitted (username email password : String)
    (firstName lastName : Option String) :
    unpermitted (register self username email password firstName lastName) =
      self.register username email password firstName lastName := by
  unfold register AuthService.register
  split
  · exact unpermitted_unguarded _
  · exact unpermitted_underPermit _

theorem resetPassword_unpermitted (token newPassword : String) :
    unpermitted (resetPassword self token newPassword) =
      self.resetPassword token newPassword := by
  unfold resetPassword AuthService.resetPassword
  rw [unpermitted_bind, unpermitted_unguarded]
  apply congrArg (self.cacheGet CacheValue.asText (CacheKeys.passwordResetToken token) >>= ·)
  funext email
  cases email with
  | none => exact unpermitted_unguarded _
  | some email =>
    unfold rotatePassword AuthService.rotatePassword
    dsimp only
    rw [unpermitted_bind, unpermitted_unguarded]
    apply congrArg (attempt (userRepo (.findByUsernameOrEmail email)) >>= ·)
    funext user
    exact unpermitted_underPermit _

/-- A call without its permits is the call. -/
theorem method_unpermitted (c : Call) : unpermitted (method self c) = self.method c := by
  cases c with
  | login username password => exact login_unpermitted self username password
  | register username email password firstName lastName =>
    exact register_unpermitted self username email password firstName lastName
  | resetPassword token newPassword => exact resetPassword_unpermitted self token newPassword
  | _ => exact unpermitted_unguarded _

theorem erase_program (c : Call) : erase (program self c) = self.program c := by
  have hrun : erase (method self c).run = (self.method c).run :=
    congrArg ExceptT.run (method_unpermitted self c)
  unfold program AuthService.program
  rw [erase_bind, hrun]
  rfl

end Erasure

section Sections

/-- A program that does not hash. -/
abbrev Light {α : Type} (p : Program α) : Prop := Issues (fun o => ¬ Hashing o) p

/-- Among the operations that change nothing on the host, two hash; none of another kind does. -/
theorem Light.of_limited {α : Type} {kinds : List OpKind} {p : Program α} (hp : Limited kinds p)
    (hkinds : OpKind.readHost ∉ kinds) : Light p := by
  refine hp.mono ?_
  intro o ho hhash
  have hkind : o.kind = .readHost := by
    unfold Hashing at hhash
    split at hhash
    · rfl
    · rfl
    · exact hhash.elim
  exact hkinds (hkind ▸ ho)

theorem mintToken_light (userId : Uuid) (username role : String) :
    Light (AuthService.mintToken userId username role).run := by
  simp [Light, AuthService.mintToken, host, Hashing]

theorem ensureWallet_light (user : User) : Light (self.ensureWallet user).run := by
  refine Issues.bindExcept (by simp [walletRepo, Hashing]) ?_
  intro hasWallet
  split
  · refine Issues.bindExcept (Issues.observe ?_) ?_
    · refine Issues.bindExcept (by simp [host, Hashing]) ?_
      intro keypair
      refine Issues.bindExcept (by simp [host, Hashing]) ?_
      intro key
      cases key with
      | error e => simp
      | ok key =>
        refine Issues.bindExcept (by simp [walletRepo, Hashing]) ?_
        intro wallet
        simp [host, Hashing]
    · intro wallet
      cases wallet <;> simp
  · simp

theorem verifyEmail_light (token : String) : Light (self.verifyEmail token).run := by
  refine Issues.bindExcept
    (Light.of_limited (self.verifiedAddress_limited token) (by simp)) ?_
  intro email
  refine Issues.bindExcept (by simp [userRepo, Hashing]) ?_
  intro activated
  cases activated with
  | none => simp
  | some activated =>
    refine Issues.bindExcept (ensureWallet_light self _) ?_
    intro user
    refine Issues.bindExcept (mintToken_light _ _ _) ?_
    intro _
    simp [eventBus, cache, Hashing]

theorem resendVerification_light (email : String) : Light (self.resendVerification email).run := by
  refine Issues.bindExcept (by simp [userRepo, Hashing]) ?_
  intro state
  cases state with
  | none => simp
  | some state =>
    dsimp only
    split
    · simp
    · refine Issues.bindExcept (by simp [cache, Hashing]) ?_
      intro cooling
      split
      · simp
      · refine Issues.bindExcept ?_ ?_
        · unfold AuthService.verificationTokenFor
          cases state.verificationToken with
          | some token => simp
          | none =>
            refine Issues.bindExcept (by simp [host, Hashing]) ?_
            intro id
            exact Issues.bindExcept (by simp [userRepo, Hashing]) (by simp)
        · intro token
          simp [eventBus, AuthService.cacheSet, cache, Hashing]

theorem forgotPassword_light (email : String) : Light (self.forgotPassword email).run := by
  refine Issues.bindExcept (by simp [userRepo, Hashing]) ?_
  intro user
  cases user with
  | none => simp
  | some user =>
    refine Issues.bindExcept (by simp [host, Hashing]) ?_
    intro id
    refine Issues.bindExcept (by simp [AuthService.cacheSet, cache, Hashing]) ?_
    intro _
    simp [eventBus, Hashing]

theorem refreshToken_light (token : Jwt) : Light (self.refreshToken token).run := by
  refine Issues.bindExcept (by simp [host, Hashing]) ?_
  intro claims
  refine Issues.bindExcept (mintToken_light _ _ _) ?_
  simp

theorem login_sectioned (username password : String) :
    Sectioned Hashing false (login self username password).run := by
  refine sectioned_unguarded_bind (by simp [cache, Hashing]) ?_
  intro locked
  split
  · exact sectioned_unguarded (by simp [eventBus, Hashing])
  · refine sectioned_unguarded_bind
      (Light.of_limited (self.loginProfile_limited username) (by simp)) ?_
    intro userWithHash
    exact sectioned_underPermit _

theorem register_sectioned (username email password : String)
    (firstName lastName : Option String) :
    Sectioned Hashing false (register self username email password firstName lastName).run := by
  unfold register
  split
  · exact sectioned_unguarded (by simp)
  · exact sectioned_underPermit _

theorem resetPassword_sectioned (token newPassword : String) :
    Sectioned Hashing false (resetPassword self token newPassword).run := by
  refine sectioned_unguarded_bind (Light.of_limited (self.cacheGet_limited _ _) (by simp)) ?_
  intro email
  cases email with
  | none => exact sectioned_unguarded (by simp)
  | some email =>
    refine sectioned_unguarded_bind (by simp [userRepo, Hashing]) ?_
    intro user
    exact sectioned_underPermit _

/-- Every call hashes under a permit only, and gives it back. -/
theorem method_sectioned (c : Call) : Sectioned Hashing false (method self c).run := by
  have hlight : ∀ c : Call, OpKind.readHost ∉ c.footprint →
      Sectioned Hashing false (unguarded (self.method c)).run := by
    intro c hc
    exact sectioned_unguarded (Light.of_limited (self.method_limited c) hc)
  cases c with
  | login username password => exact login_sectioned self username password
  | register username email password firstName lastName =>
    exact register_sectioned self username email password firstName lastName
  | resetPassword token newPassword => exact resetPassword_sectioned self token newPassword
  | verifyEmail token => exact sectioned_unguarded (verifyEmail_light self token)
  | resendVerification email => exact sectioned_unguarded (resendVerification_light self email)
  | forgotPassword email => exact sectioned_unguarded (forgotPassword_light self email)
  | refreshToken token => exact sectioned_unguarded (refreshToken_light self token)
  | _ => exact hlight _ (by simp)

theorem program_sectioned (c : Call) : Sectioned Hashing false (program self c) :=
  (method_sectioned self c).map _

end Sections

section Runs

variable {self} {calls : self.State → Call → Prop} {admits : Choice → self.State → Op → Prop}
  {init : self.State → Prop} {limit : ℕ}
  {x : Pool Op.Ans self.State AuthService.Returned}

/-- A call that may arrive, with its permits. -/
def Arrives (calls : self.State → Call → Prop) (w : self.State)
    (p : GuardedProg Op.Ans AuthService.Returned) : Prop := ∃ c, calls w c ∧ p = program self c

theorem arrives_sectioned (w : self.State) (p : GuardedProg Op.Ans AuthService.Returned)
    (h : Arrives calls w p) : Sectioned Hashing false p := by
  obtain ⟨c, -, rfl⟩ := h
  exact program_sectioned self c

/-- Permits only delay: whatever calls do under permits, the same calls do in some
interleaving without any. The state is the same, and so is what is left of every call that
has not been dropped. -/
theorem permits_only_delay (h : Pool.Reached self.handle (Arrives calls) admits init limit x) :
    ∃ ps, Reach self.handle (fun w p => ∃ c, calls w c ∧ p = self.program c) admits init
        x.state ps ∧
      ∀ i p, x.task i = some p → ps[i]? = some (erase p) := by
  obtain ⟨ps, hreach, hcovers⟩ := h.erased
  refine ⟨ps, hreach.mono ?_ (fun _ _ _ h => h), hcovers.erased⟩
  rintro w p ⟨q, ⟨c, hc, rfl⟩, rfl⟩
  exact ⟨c, hc, erase_program self c⟩

end Runs

section Progress

/-- A registration with a proper email asks for a permit at once. -/
theorem register_acquires (username email password : String) (firstName lastName : Option String)
    (hemail : ¬ (¬ email.toList.contains '@' ∨ email.utf8ByteSize < 5)) :
    ∃ k, program self (.register username email password firstName lastName) =
      .eff .acquire k := by
  have hbody : register self username email password firstName lastName =
      underPermit (createAccount self username email password firstName lastName) :=
    if_neg hemail
  unfold program method
  dsimp only
  rw [hbody]
  exact ⟨_, rfl⟩

/-- The calls never block each other for good, however they arrive and whatever happens to
them, exactly when there is a permit at all. -/
theorem never_stuck_iff (w : self.State) (limit : ℕ) :
    (∀ x, Pool.Reached self.handle (Arrives fun _ _ => True) (fun _ _ _ => True) (· = w) limit x →
      ∀ i, x.Unfinished i → ∃ j, x.Enabled j) ↔ 0 < limit := by
  constructor
  · intro h
    by_contra hzero
    obtain rfl : limit = 0 := by omega
    -- a single registration waits for a permit that nobody can give back
    obtain ⟨k, hk⟩ := register_acquires self "" "a@b.c" "" none none (by decide)
    have hreached : Pool.Reached self.handle (Arrives fun _ _ => True) (fun _ _ _ => True)
        (· = w) 0 ((Pool.new 0 w).move self.handle (.start (.eff .acquire k))) :=
      .move (.new rfl) ⟨_, trivial, hk.symm⟩
    obtain ⟨j, hj⟩ := h _ hreached 0 ⟨_, k, rfl⟩
    cases j with
    | zero => exact (hreached.sound arrives_sectioned).stuck rfl hj
    | succ j => exact hj
  · intro hlimit x hx i hi
    exact (hx.sound arrives_sectioned).progress hlimit hi

end Progress

section Queue

/-- Three registrations arrive while there is one permit: the first takes it, the others
wait. -/
def queueMoves : List (Move Op.Ans Choice AuthService.Returned) :=
  [.start (program service (.register "alice" "alice@example.com" "Abcdef1!" none none)),
    .start (program service (.register "bob" "bob@example.com" "Abcdef1!" none none)),
    .start (program service (.register "carol" "carol@example.com" "Abcdef1!" none none)),
    .run 0 {}, .run 1 {}, .run 2 {}]

def queue : Pool Op.Ans service.State AuthService.Returned :=
  queueMoves.foldl (Pool.move service.handle) (.new 1 (World.empty _))

theorem queue_reached : Pool.Reached service.handle (Arrives fun _ _ => True)
    (fun _ _ _ => True) (· = World.empty _) 1 queue := by
  have hrun : ∀ (x : Pool Op.Ans service.State AuthService.Returned) (i : ℕ) (c : Choice),
      x.Allows (Arrives fun _ _ => True) (fun _ _ _ => True) (.run i c) :=
    Pool.allows_run (fun _ _ _ => trivial)
  refine Pool.Reached.moves (.new rfl) ?_
  intro m hm x
  simp only [queueMoves, List.mem_cons, List.not_mem_nil, or_false] at hm
  rcases hm with rfl | rfl | rfl | rfl | rfl | rfl
  · exact ⟨_, trivial, rfl⟩
  · exact ⟨_, trivial, rfl⟩
  · exact ⟨_, trivial, rfl⟩
  · exact hrun x _ _
  · exact hrun x _ _
  · exact hrun x _ _

theorem permits_only_delay_queue : queue.permits.waiting = [1, 2] ∧
    ∃ ps, Reach service.handle (fun _ p => ∃ c, True ∧ p = service.program c)
        (fun _ _ _ => True) (· = World.empty _) queue.state ps ∧
      ∀ i p, queue.task i = some p → ps[i]? = some (erase p) :=
  ⟨by decide +kernel, permits_only_delay queue_reached⟩

end Queue

end IamService.CpuPermits
