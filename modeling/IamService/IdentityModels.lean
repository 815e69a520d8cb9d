import Mathlib.Algebra.Group.Nat.Defs
import Mathlib.Data.Nat.Notation
import Mathlib.Data.Int.Notation
import Mathlib.Logic.Basic

/-!
# Domain models, errors and events

The data types of `iam-core`: the identity models, the API error, the claims carried
by an access token and the domain events. Instants and durations are in milliseconds.
Latitude and longitude are stored as doubles, but every value ever written is a 32-bit
integer, which a double holds exactly; the columns are modelled by that integer.
-/

namespace IamService

/-- A 128-bit identifier; only equality of identifiers matters. -/
structure Uuid where
  bits : ℕ
  deriving DecidableEq, Repr

/-- A public key or derived address of 32 bytes. -/
structure Pubkey where
  bits : ℕ
  bound : bits < 2 ^ 256
  deriving DecidableEq, Repr

structure Keypair where
  secret : ℕ
  deriving DecidableEq, Repr

def secs (n : ℕ) : ℕ := 1000 * n

inductive ErrorCode where
  | invalidCredentials | tokenExpired | tokenInvalid | tokenMissing | emailNotVerified
  | accountLocked | accountDisabled
  | insufficientPermissions | resourceAccessDenied | roleNotAuthorized
  | invalidInput | missingRequiredField | invalidFormat | invalidWalletAddress | invalidAmount
  | invalidEmail | invalidPassword | passwordTooWeak
  | notFound | alreadyExists | conflict | gone
  | databaseConnectionFailed | queryFailed | databaseTransactionFailed | constraintViolation
  | externalServiceUnavailable | externalServiceTimeout | externalServiceError
  | emailServiceFailed | serviceUnavailable
  | rateLimitExceeded | tooManyRequests
  | internalServerError | configurationError | unexpectedError
  deriving DecidableEq, Repr

/-- Why the database refused a statement. -/
inductive DbError where
  | uniqueViolation | foreignKeyViolation | invalidValue | unavailable
  deriving DecidableEq, Repr

inductive ApiError where
  | authentication (message : String)
  | authorization (message : String)
  | badRequest (message : String)
  | unauthorized (message : String)
  | forbidden (message : String)
  | validation (message : String)
  | database (error : DbError) (message : String)
  | redis (message : String)
  | blockchain (message : String)
  | externalService (message : String)
  | configuration (message : String)
  | notFound (message : String)
  | conflict (message : String)
  | internal (message : String)
  | rateLimitExceeded (message : String)
  | withCode (code : ErrorCode) (message : String)
  | withCodeAndDetails (code : ErrorCode) (message details : String)
  | validationWithField (code : ErrorCode) (field message : String)
  deriving DecidableEq, Repr

namespace ApiError

def invalidCredentials : ApiError := .withCode .invalidCredentials "Invalid username or password"

/-- The text of an error as it is shown to a caller. -/
def display : ApiError → String
  | .authentication m => "Authentication failed: " ++ m
  | .authorization m => "Authorization failed: " ++ m
  | .badRequest m => "Bad request: " ++ m
  | .unauthorized m => "Unauthorized: " ++ m
  | .forbidden m => "Forbidden: " ++ m
  | .validation m => "Validation error: " ++ m
  | .database _ m => "Database error: " ++ m
  | .redis m => "Redis error: " ++ m
  | .blockchain m => "Blockchain error: " ++ m
  | .externalService m => "External service error: " ++ m
  | .configuration m => "Configuration error: " ++ m
  | .notFound m => "Not found: " ++ m
  | .conflict m => "Conflict: " ++ m
  | .internal m => "Internal server error: " ++ m
  | .rateLimitExceeded m => "Rate limit exceeded: " ++ m
  | .withCode _ m => m
  | .withCodeAndDetails _ m _ => m
  | .validationWithField _ field _ => "Validation failed: " ++ field

end ApiError

abbrev Result (α : Type) := Except ApiError α

inductive UserType where
  | prosumer | consumer
  deriving DecidableEq, Repr

/-- The name under which a user type is written to the database. -/
def UserType.name : UserType → String
  | .prosumer => "Prosumer"
  | .consumer => "Consumer"

structure User where
  id : Uuid
  username : String
  email : String
  role : String
  firstName : Option String
  lastName : Option String
  walletAddress : Option String
  isActive : Bool
  blockchainRegistered : Bool
  userType : Option UserType
  latitude : Option Int32
  longitude : Option Int32
  deriving DecidableEq

structure UserWithHash where
  user : User
  passwordHash : String
  deriving DecidableEq

structure UserWallet where
  id : Uuid
  userId : Uuid
  walletAddress : String
  label : Option String
  isPrimary : Bool
  verified : Bool
  blockchainRegistered : Bool
  userAccountPda : Option String
  shardId : Option UInt8
  blockchainTxSignature : Option String
  createdAt : ℕ
  deriving DecidableEq

structure NewUser where
  id : Uuid
  username : String
  email : String
  passwordHash : String
  role : String
  firstName : Option String
  lastName : Option String
  verificationToken : Option String
  deriving DecidableEq

structure EmailVerificationState where
  userId : Uuid
  username : String
  emailVerified : Bool
  verificationToken : Option String
  deriving DecidableEq

structure Claims where
  sub : Uuid
  username : String
  role : String
  exp : ℕ
  iat : ℕ
  iss : String
  deriving DecidableEq

/-- Claims for a user, expiring 24 hours from `now`; both instants are kept in seconds. -/
def Claims.new (now : ℕ) (userId : Uuid) (username role : String) : Claims where
  sub := userId
  username := username
  role := role
  exp := (now + secs (24 * 3600)) / 1000
  iat := now / 1000
  iss := "gridtokenx-iam-service"

/-- A signed access token, known by the claims it carries. -/
structure Jwt where
  claims : Claims
  deriving DecidableEq

structure AuthResult where
  accessToken : Jwt
  expiresIn : ℤ
  user : User
  deriving DecidableEq

structure RegistrationResult where
  id : Uuid
  username : String
  email : String
  firstName : Option String
  lastName : Option String
  message : String
  deriving DecidableEq

structure ResendVerificationResult where
  status : String
  message : String
  deriving DecidableEq

structure VerifyEmailResult where
  success : Bool
  message : String
  walletAddress : Option String
  auth : Option AuthResult
  deriving DecidableEq

structure OnChainOnboardingResult where
  success : Bool
  message : String
  transactionSignature : Option String
  deriving DecidableEq

/-- The key material of a custodial wallet as the users table stores it. -/
structure KeyMaterial where
  encryptedPrivateKey : List UInt8
  walletSalt : List UInt8
  encryptionIv : List UInt8
  deriving DecidableEq

/-- Domain events, one constructor for each constructor function of `events.rs`. -/
inductive Event where
  | userRegistered (userId : Uuid) (username email : String)
  | userLoggedIn (userId : Uuid) (username : String) (ip : Option String)
  | verificationEmailRequested (userId : Uuid) (username email token : String)
  | emailVerified (userId : Uuid) (username email walletAddress : String)
  | userOnboarded (userId : Uuid) (walletAddress userAccountPda txSignature userType : String)
      (shardId : UInt8)
  | loginAttempt (identifier : String) (success : Bool) (ip : Option String)
  | accountLocked (identifier : String) (lockoutSecs : ℕ)
  | apiKeyVerified (keyName role : String)
  | userWalletLinked (userId : Uuid) (walletAddress userAccountPda txSignature : String)
      (shardId : UInt8)
  | passwordResetRequested (userId : Uuid) (email resetUrl : String)
  deriving DecidableEq

structure Config where
  environment : String
  jwtExpiration : ℤ
  appBaseUrl : String
  registryProgramId : String
  encryptionSecret : String
  masterSecret : String

end IamService
