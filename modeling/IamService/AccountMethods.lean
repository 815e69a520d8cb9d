import IamService.Infrastructure

/-!
# Methods for accounts and sessions

Login with its profile cache and lockout, registration, the resending of verification
emails, the password reset cycle, token refresh and the rate limiter. An answer that
the source discards or replaces by a default is observed; an answer followed by `?` is
attempted. The permit for processor-bound work is left out: the semaphore is never
closed, so taking a permit only waits.
-/

namespace IamService
open EffectPrograms

/-- Read a cached value as a profile. -/
def CacheValue.asProfile : CacheValue → Option UserWithHash
  | .profile u => some u
  | _ => none

/-- Read a cached value as a text. -/
def CacheValue.asText : CacheValue → Option String
  | .text s => some s
  | _ => none

/-- Failed logins before an identifier is locked. -/
def loginMaxFailedAttempts : ℕ := 5

/-- How long failed logins are counted, and how long a lock lasts. -/
def loginLockoutSecs : ℕ := 900

def resendVerificationCooldownSecs : ℕ := 60

/-- The lifetime of a password reset token. -/
def resetTokenTtlSecs : ℕ := 900

namespace AuthService

variable (self : AuthService)

def cacheGet {α : Type} (decode : CacheValue → Option α) (key : String) : Method (Option α) := do
  match ← attempt (cache (.getValue key)) with
  | none => return none
  | some v => match decode v with
    | some a => return some a
    | none => throw (.internal self.lib.serdeMessage)

def cacheSet (key : String) (value : CacheValue) (ttl : Option ℕ) : Method Unit :=
  attempt (cache (.setValue key value ttl))

/-- Mint an access token for a user. -/
def mintToken (userId : Uuid) (username role : String) : Method Jwt := do
  let now ← observe (host .clock)
  attempt (host (.encodeToken (Claims.new now userId username role)))

/-- The caller presents a token; only a valid one reaches the minting of a new one. -/
def refreshToken (token : Jwt) : Method (Jwt × ℤ) := do
  let claims ← attempt (host (.decodeToken token))
  let fresh ← mintToken claims.sub claims.username claims.role
  return (fresh, self.config.jwtExpiration)

/-- The profile in the database, which is then cached for five minutes. -/
def fetchProfile (username : String) : Method UserWithHash := do
  match ← attempt (userRepo (.findByUsernameOrEmail username)) with
  | none => throw .invalidCredentials
  | some dbUser => do
    let _ ← observe (cacheSet (CacheKeys.userProfile username) (.profile dbUser) (some 300)).run
    return dbUser

/-- The profile behind a login identifier: the cached one, or the database's. -/
def loginProfile (username : String) : Method UserWithHash := do
  match ← observe (self.cacheGet CacheValue.asProfile (CacheKeys.userProfile username)).run with
  | .ok (some user) => return user
  | _ => fetchProfile username

def accountLockedMessage : String :=
  "Account locked for " ++ toString loginLockoutSecs ++ " seconds due to too many failed attempts"

/-- Count a wrong password, and lock the identifier at the fifth. -/
def failedLogin (username : String) : Method AuthResult := do
  let counted ← observe
    (cache (.incrementWithTtl (CacheKeys.loginAttempts username) loginLockoutSecs))
  let _ ← observe (eventBus (.publish (.loginAttempt username false none)))
  if loginMaxFailedAttempts ≤ counted.toOption.getD 0 then do
    let _ ← observe (cacheSet (CacheKeys.accountLock username) (.flag true)
      (some loginLockoutSecs)).run
    let _ ← observe (cache (.delete (CacheKeys.loginAttempts username)))
    let _ ← observe (eventBus (.publish (.accountLocked username loginLockoutSecs)))
    throw (.withCode .accountLocked accountLockedMessage)
  else throw .invalidCredentials

/-- Clear the count and open a session. -/
def successfulLogin (username : String) (user : User) : Method AuthResult := do
  let _ ← observe (cache (.delete (CacheKeys.loginAttempts username)))
  let token ← mintToken user.id user.username user.role
  let _ ← observe (eventBus (.publishBatch
    [.loginAttempt username true none, .userLoggedIn user.id user.username none]))
  return ⟨token, self.config.jwtExpiration, user⟩

def login (username password : String) : Method AuthResult := do
  let locked ← observe (cache (.exists (CacheKeys.accountLock username)))
  if locked.toOption.getD false then do
    let _ ← observe (eventBus (.publish (.loginAttempt username false none)))
    throw (.withCode .accountLocked
      "Account temporarily locked due to too many failed attempts")
  else do
    let userWithHash ← self.loginProfile username
    let isValid ← attempt (host (.verifyPassword password userWithHash.passwordHash))
    if isValid then self.successfulLogin username userWithHash.user else failedLogin username

/-- A violated unique constraint on registration is a conflict. -/
def createError : ApiError → ApiError
  | .database .uniqueViolation _ => .conflict "Username or email already exists"
  | e => e

def register (username email password : String) (firstName lastName : Option String) :
    Method RegistrationResult := do
  if ¬ email.toList.contains '@' ∨ email.utf8ByteSize < 5 then
    throw (.withCode .invalidEmail "Invalid email format")
  else do
    let passwordHash ← attempt (host (.hashPassword password))
    let userId ← observe (host .newUuid)
    let tokenId ← observe (host .newUuid)
    let verificationToken := self.lib.uuidToString tokenId
    match ← observe (userRepo (.create ⟨userId, username, email, passwordHash, "user", firstName,
        lastName, some verificationToken⟩)) with
    | .error e => throw (createError e)
    | .ok () => do
      let _ ← observe (eventBus (.publish (.userRegistered userId username email)))
      let _ ← observe (eventBus (.publish
        (.verificationEmailRequested userId username email verificationToken)))
      return ⟨userId, username, email, firstName, lastName,
        "User registered successfully. Please verify your email."⟩

def verificationSent : ResendVerificationResult where
  status := "sent"
  message :=
    "If that email is registered and unverified, a new verification email has been sent"

/-- The token to send again: the one still valid, or a new one. -/
def verificationTokenFor (state : EmailVerificationState) : Method String := do
  match state.verificationToken with
  | some token => return token
  | none => do
    let id ← observe (host .newUuid)
    let _ ← attempt (userRepo (.setVerificationToken state.userId (self.lib.uuidToString id)))
    return self.lib.uuidToString id

def resendVerification (email : String) : Method ResendVerificationResult := do
  match ← attempt (userRepo (.findVerificationStateByEmail email)) with
  | none => return verificationSent
  | some state =>
    if state.emailVerified then return verificationSent
    else do
      let cooldownKey :=
        CacheKeys.resendVerificationCooldown (self.lib.uuidToString state.userId)
      let cooling ← observe (cache (.exists cooldownKey))
      if cooling.toOption.getD false then return verificationSent
      else do
        let token ← self.verificationTokenFor state
        let _ ← observe (eventBus (.publish
          (.verificationEmailRequested state.userId state.username email token)))
        let _ ← observe (cacheSet cooldownKey (.flag true)
          (some resendVerificationCooldownSecs)).run
        return verificationSent

def getUserProfile (userId : Uuid) : Method User := do
  match ← attempt (userRepo (.findById userId)) with
  | some user => return user
  | none => throw (.notFound "User not found")

/-- The token is kept with the lower-cased identifier, not with the account found. -/
def forgotPassword (email : String) : Method Unit := do
  match ← attempt (userRepo (.findByUsernameOrEmail email)) with
  | none => return ()
  | some userWithHash => do
    let id ← observe (host .newUuid)
    let token := self.lib.uuidToString id
    cacheSet (CacheKeys.passwordResetToken token) (.text (self.lib.toLowercase email))
      (some resetTokenTtlSecs)
    let resetUrl := self.config.appBaseUrl ++ "/reset-password?token=" ++ token
    let _ ← observe (eventBus (.publish
      (.passwordResetRequested userWithHash.user.id email resetUrl)))
    return ()

/-- Drop the profiles cached under the email and under the username, then the token. -/
def invalidateReset (token email : String) (user : Option UserWithHash) : Method Unit := do
  let _ ← observe (cache (.delete (CacheKeys.userProfile email)))
  match user with
  | some userWithHash => do
    let _ ← observe (cache (.delete (CacheKeys.userProfile userWithHash.user.username)))
    let _ ← observe (cache (.delete (CacheKeys.passwordResetToken token)))
    return ()
  | none => do
    let _ ← observe (cache (.delete (CacheKeys.passwordResetToken token)))
    return ()

/-- Replace the password of the email kept with a token. -/
def rotatePassword (token newPassword email : String) : Method Unit := do
  let user ← attempt (userRepo (.findByUsernameOrEmail email))
  let passwordHash ← attempt (host (.hashPassword newPassword))
  let rows ← attempt (userRepo (.updatePassword email passwordHash))
  if rows = 0 then throw (.notFound "User not found")
  else invalidateReset token email user

def resetPassword (token newPassword : String) : Method Unit := do
  match ← self.cacheGet CacheValue.asText (CacheKeys.passwordResetToken token) with
  | none => throw (.badRequest "Invalid or expired reset token")
  | some email => rotatePassword token newPassword email

def checkRateLimit (ip endpoint : String) (limit windowSecs : ℕ) : Method Unit := do
  let key := CacheKeys.rateLimit ip endpoint
  let count ← attempt (cache (.increment key))
  if count = 1 then
    let _ ← observe (cache (.setValue key (.number count) (some windowSecs)))
  if limit < count then
    throw (.withCode .tooManyRequests
      ("Rate limit exceeded. Please try again in " ++ toString windowSecs ++ " seconds."))
  else return ()

end AuthService

end IamService
