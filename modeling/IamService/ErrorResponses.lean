import IamService.AuthorizePolicy

/-!
# Error responses

An error reaches a client in two ways: as the body of a REST response and as an error of
the Connect protocol. Both are functions of the error. The REST body replaces the text of
most server faults by a fixed message for their code; it echoes the text of an internal
error, and the Connect error echoes every text.
-/

namespace IamService
open AuthorizePolicy

namespace ErrorCode

/-- The numeric form. -/
def code : ErrorCode → UInt16
  | .invalidCredentials => 1001
  | .tokenExpired => 1002
  | .tokenInvalid => 1003
  | .tokenMissing => 1004
  | .emailNotVerified => 1005
  | .accountLocked => 1006
  | .accountDisabled => 1007
  | .insufficientPermissions => 2001
  | .resourceAccessDenied => 2002
  | .roleNotAuthorized => 2003
  | .invalidInput => 3001
  | .missingRequiredField => 3002
  | .invalidFormat => 3003
  | .invalidWalletAddress => 3004
  | .invalidAmount => 3005
  | .invalidEmail => 3006
  | .invalidPassword => 3007
  | .passwordTooWeak => 3008
  | .notFound => 4001
  | .alreadyExists => 4002
  | .conflict => 4003
  | .gone => 4004
  | .databaseConnectionFailed => 7001
  | .queryFailed => 7002
  | .databaseTransactionFailed => 7003
  | .constraintViolation => 7004
  | .externalServiceUnavailable => 8001
  | .externalServiceTimeout => 8002
  | .externalServiceError => 8003
  | .emailServiceFailed => 8004
  | .serviceUnavailable => 8005
  | .rateLimitExceeded => 9001
  | .tooManyRequests => 9002
  | .internalServerError => 9999
  | .configurationError => 9998
  | .unexpectedError => 9997

/-- The message shown to users. -/
def message : ErrorCode → String
  | .invalidCredentials => "Invalid email or password"
  | .tokenExpired => "Your session has expired. Please log in again"
  | .tokenInvalid => "Invalid authentication token"
  | .tokenMissing => "Authentication required. Please log in"
  | .emailNotVerified => "Please verify your email address before proceeding"
  | .accountLocked => "Your account has been locked. Please contact support"
  | .accountDisabled => "Your account has been disabled. Please contact support"
  | .insufficientPermissions => "You don't have permission to perform this action"
  | .resourceAccessDenied => "Access to this resource is denied"
  | .roleNotAuthorized => "Your role is not authorized for this action"
  | .invalidInput => "Invalid input provided"
  | .missingRequiredField => "Required field is missing"
  | .invalidFormat => "Invalid format provided"
  | .invalidWalletAddress => "Invalid wallet address format"
  | .invalidAmount => "Invalid amount provided"
  | .invalidEmail => "Invalid email address format"
  | .invalidPassword => "Invalid password"
  | .passwordTooWeak =>
    "Password is too weak. Use at least 8 characters with letters and numbers"
  | .notFound => "The requested resource was not found"
  | .alreadyExists => "This resource already exists"
  | .conflict => "A conflict occurred with an existing resource"
  | .gone => "This resource is no longer available"
  | .databaseConnectionFailed => "Database connection failed"
  | .queryFailed => "Database query failed"
  | .databaseTransactionFailed => "Database transaction failed"
  | .constraintViolation => "Database constraint violation"
  | .externalServiceUnavailable => "External service is currently unavailable"
  | .externalServiceTimeout => "External service request timed out"
  | .externalServiceError => "External service error occurred"
  | .emailServiceFailed => "Failed to send email"
  | .serviceUnavailable => "Service is currently unavailable"
  | .rateLimitExceeded => "Rate limit exceeded. Please try again later"
  | .tooManyRequests => "Too many requests. Please slow down"
  | .internalServerError => "An internal server error occurred"
  | .configurationError => "Server configuration error"
  | .unexpectedError => "An unexpected error occurred"

end ErrorCode

/-- The statuses of error responses. -/
inductive StatusCode where
  | badRequest | unauthorized | forbidden | notFound | conflict | locked | tooManyRequests
  | internalServerError | badGateway
  deriving DecidableEq

namespace StatusCode

def asU16 : StatusCode → UInt16
  | .badRequest => 400
  | .unauthorized => 401
  | .forbidden => 403
  | .notFound => 404
  | .conflict => 409
  | .locked => 423
  | .tooManyRequests => 429
  | .internalServerError => 500
  | .badGateway => 502

def isServerError (s : StatusCode) : Bool := 500 ≤ s.asU16 && s.asU16 < 600

end StatusCode

structure ErrorDetail where
  code : ErrorCode
  codeNumber : UInt16
  message : String
  details : Option String
  field : Option String
  deriving DecidableEq

structure ErrorResponse where
  error : ErrorDetail
  requestId : String
  timestamp : String
  deriving DecidableEq

namespace ApiError

def errorCode : ApiError → ErrorCode
  | .authentication _ => .invalidCredentials
  | .authorization _ => .insufficientPermissions
  | .badRequest _ | .validation _ => .invalidInput
  | .unauthorized _ => .tokenMissing
  | .forbidden _ => .resourceAccessDenied
  | .notFound _ => .notFound
  | .conflict _ => .conflict
  | .database _ _ => .queryFailed
  | .redis _ | .externalService _ => .externalServiceError
  | .blockchain _ | .internal _ => .internalServerError
  | .configuration _ => .configurationError
  | .rateLimitExceeded _ => .rateLimitExceeded
  | .withCode code _ => code
  | .withCodeAndDetails code _ _ => code
  | .validationWithField code _ _ => code

def errorDetails : ApiError → Option String
  | .withCodeAndDetails _ _ details => some details
  | _ => none

def errorField : ApiError → Option String
  | .validationWithField _ field _ => some field
  | _ => none

/-- The status of an error with an explicit code; the codes that are not listed count as
server faults. -/
def statusOfCode : ErrorCode → StatusCode
  | .invalidCredentials | .tokenExpired | .tokenInvalid | .tokenMissing | .emailNotVerified =>
    .unauthorized
  | .insufficientPermissions | .resourceAccessDenied => .forbidden
  | .invalidInput | .missingRequiredField | .invalidFormat | .invalidWalletAddress
  | .invalidAmount | .invalidEmail | .invalidPassword | .passwordTooWeak => .badRequest
  | .notFound => .notFound
  | .conflict | .alreadyExists => .conflict
  | .externalServiceUnavailable | .serviceUnavailable => .badGateway
  | .rateLimitExceeded => .tooManyRequests
  | .accountLocked => .locked
  | _ => .internalServerError

def statusCode : ApiError → StatusCode
  | .authentication _ | .unauthorized _ => .unauthorized
  | .authorization _ | .forbidden _ => .forbidden
  | .badRequest _ | .validation _ | .validationWithField _ _ _ => .badRequest
  | .notFound _ => .notFound
  | .conflict _ => .conflict
  | .blockchain _ | .externalService _ => .badGateway
  | .rateLimitExceeded _ => .tooManyRequests
  | .withCode code _ => statusOfCode code
  | .database _ _ | .redis _ | .configuration _ | .internal _ | .withCodeAndDetails _ _ _ =>
    .internalServerError

/-- The message in the body of a response. -/
def responseMessage : ApiError → String
  | .withCode _ message | .withCodeAndDetails _ message _ | .badRequest message
  | .validation message | .internal message => message
  | .validationWithField _ _ message => message
  | e => e.errorCode.message

/-- The REST response, with the request id and the timestamp drawn for it. -/
def intoResponse (requestId timestamp : String) (e : ApiError) : StatusCode × ErrorResponse :=
  (e.statusCode,
    { error :=
        { code := e.errorCode
          codeNumber := e.errorCode.code
          message := e.responseMessage
          details := e.errorDetails
          field := e.errorField }
      requestId := requestId
      timestamp := timestamp })

end ApiError

/-- The Connect error of a service error: its code follows the status, its message is the
text of the error. -/
def mapApiError (e : ApiError) : ConnectError where
  code := match e.statusCode with
    | .unauthorized => .unauthenticated
    | .forbidden => .permissionDenied
    | .badRequest => .invalidArgument
    | .notFound => .notFound
    | .conflict => .alreadyExists
    | .badGateway => .unavailable
    | .tooManyRequests => .resourceExhausted
    | .locked => .failedPrecondition
    | .internalServerError => .internal
  message := e.display

namespace ErrorResponses
open EffectPrograms AuthService

/-- The variants for faults of the server that carry an internal text. -/
inductive FaultClass where
  | internal | database | redis | blockchain | externalService | configuration
  deriving DecidableEq

/-- The error of a class; only a database error has a kind of its own. -/
def FaultClass.error (kind : DbError) (text : String) : FaultClass → ApiError
  | .internal => .internal text
  | .database => .database kind text
  | .redis => .redis text
  | .blockchain => .blockchain text
  | .externalService => .externalService text
  | .configuration => .configuration text

/-- Two errors have the same response under every request id and timestamp. -/
def RestAlike (e e' : ApiError) : Prop :=
  ∀ requestId timestamp, e.intoResponse requestId timestamp = e'.intoResponse requestId timestamp

section Classes

variable (c : FaultClass) (kind kind' : DbError) (text text' : String)

theorem statusCode_class :
    (c.error kind text).statusCode = (c.error kind' text').statusCode := by
  cases c <;> rfl

theorem errorCode_class : (c.error kind text).errorCode = (c.error kind' text').errorCode := by
  cases c <;> rfl

theorem isServerError_class : (c.error kind text).statusCode.isServerError = true := by
  cases c <;> rfl

/-- Apart from errors with an explicit code, these classes are the server faults. -/
theorem class_of_isServerError {e : ApiError} (h : e.statusCode.isServerError = true) :
    (∃ c kind text, e = FaultClass.error kind text c) ∨
      (∃ code message, e = .withCode code message) ∨
      ∃ code message details, e = .withCodeAndDetails code message details := by
  cases e with
  | internal text => exact .inl ⟨.internal, .unavailable, text, rfl⟩
  | database kind text => exact .inl ⟨.database, kind, text, rfl⟩
  | redis text => exact .inl ⟨.redis, .unavailable, text, rfl⟩
  | blockchain text => exact .inl ⟨.blockchain, .unavailable, text, rfl⟩
  | externalService text => exact .inl ⟨.externalService, .unavailable, text, rfl⟩
  | configuration text => exact .inl ⟨.configuration, .unavailable, text, rfl⟩
  | withCode code message => exact .inr (.inl ⟨code, message, rfl⟩)
  | withCodeAndDetails code message details => exact .inr (.inr ⟨code, message, details, rfl⟩)
  | _ => simp [ApiError.statusCode, StatusCode.isServerError, StatusCode.asU16] at h

/-- The text of an internal error is its message; other classes show the message of their
code. -/
theorem responseMessage_class : (c.error kind text).responseMessage =
    if c = .internal then text else (c.error kind text).errorCode.message := by
  cases c <;> rfl

/-- The REST body hides the text of every class but one. -/
theorem restAlike_class_iff :
    RestAlike (c.error kind text) (c.error kind' text') ↔ (c = .internal → text = text') := by
  have hmessage := responseMessage_class c kind text
  have hmessage' := responseMessage_class c kind' text'
  constructor
  · intro halike hinternal
    have hbody : (c.error kind text).responseMessage = (c.error kind' text').responseMessage :=
      congrArg (fun r => r.2.error.message) (halike "" "")
    subst hinternal
    exact hbody
  · intro htext requestId timestamp
    have hsame : (c.error kind text).responseMessage = (c.error kind' text').responseMessage := by
      rw [hmessage, hmessage', errorCode_class c kind kind' text text']
      split
      · rename_i hinternal
        exact htext hinternal
      · rfl
    have hdetails : (c.error kind text).errorDetails = (c.error kind' text').errorDetails := by
      cases c <;> rfl
    have hfield : (c.error kind text).errorField = (c.error kind' text').errorField := by
      cases c <;> rfl
    simp only [ApiError.intoResponse, statusCode_class c kind kind' text text',
      errorCode_class c kind kind' text text', hsame, hdetails, hfield]

/-- The text of a fault is the end of what it displays. -/
theorem display_class :
    ∃ label : String, ∀ kind text, (c.error kind text).display = label ++ text := by
  cases c with
  | internal => exact ⟨"Internal server error: ", fun _ _ => rfl⟩
  | database => exact ⟨"Database error: ", fun _ _ => rfl⟩
  | redis => exact ⟨"Redis error: ", fun _ _ => rfl⟩
  | blockchain => exact ⟨"Blockchain error: ", fun _ _ => rfl⟩
  | externalService => exact ⟨"External service error: ", fun _ _ => rfl⟩
  | configuration => exact ⟨"Configuration error: ", fun _ _ => rfl⟩

/-- The Connect error shows the text of every class. -/
theorem mapApiError_class_iff :
    mapApiError (c.error kind text) = mapApiError (c.error kind' text') ↔ text = text' := by
  obtain ⟨label, hlabel⟩ := display_class c
  constructor
  · intro h
    have hdisplay : (c.error kind text).display = (c.error kind' text').display :=
      congrArg ConnectError.message h
    rw [hlabel, hlabel] at hdisplay
    exact String.append_right_inj _ |>.mp hdisplay
  · rintro rfl
    simp only [mapApiError, hlabel, statusCode_class c kind kind' text text]

end Classes

/-- A failure of the cache is wrapped as an internal error: a request that is counted against
a rate limit shows the client why the count failed. -/
theorem checkRateLimit_shows_failure (self : AuthService) (ip endpoint : String)
    (limit windowSecs : ℕ) {f : ℕ → Choice} (w : self.State) (hfails : (f 0).fails = true) :
    ∃ e, (run self.handle (checkRateLimit ip endpoint limit windowSecs).run f w).1 = .error e ∧
      e.responseMessage = (f 0).errorText := by
  have hcount : (self.handle (f 0) w (.cache (.increment (CacheKeys.rateLimit ip endpoint)))).1 =
      .error (.internal (f 0).errorText) := by
    simp [handle_cache, CacheService.handle, hfails]
  refine ⟨.internal (f 0).errorText, ?_, rfl⟩
  simp only [checkRateLimit, run_bind', run_attempt, cache, Prog.eff_bind, run_eff, hcount]
  rfl

/-- Two server faults of one class whose texts differ are never shown alike: the Connect
errors differ, and so do the REST bodies of internal errors. -/
theorem server_fault_text_shown (c : FaultClass) (kind kind' : DbError) {text text' : String}
    (h : text ≠ text') :
    ¬ (RestAlike (c.error kind text) (c.error kind' text') ∧
        mapApiError (c.error kind text) = mapApiError (c.error kind' text')) ∧
      (RestAlike (c.error kind text) (c.error kind' text') ↔ c ≠ .internal) := by
  rw [restAlike_class_iff, mapApiError_class_iff]
  constructor
  · rintro ⟨-, htext⟩
    exact h htext
  · constructor
    · intro htext hinternal
      exact h (htext hinternal)
    · intro hinternal habsurd
      exact absurd habsurd hinternal

theorem server_fault_text_shown_redis :
    ¬ (RestAlike (.redis "Connection refused (os error 111)") (.redis "timed out") ∧
        mapApiError (.redis "Connection refused (os error 111)") =
          mapApiError (.redis "timed out")) ∧
      (RestAlike (.redis "Connection refused (os error 111)") (.redis "timed out") ↔
        FaultClass.redis ≠ .internal) := by
  have hdiffer : "Connection refused (os error 111)" ≠ "timed out" := by decide +kernel
  exact server_fault_text_shown .redis .unavailable .unavailable hdiffer

/-- The text of an internal error is shown to the client. -/
theorem internal_text_echoed : ¬ ∀ (c : FaultClass) (kind kind' : DbError) (text text' : String),
    RestAlike (c.error kind text) (c.error kind' text') ∧
      mapApiError (c.error kind text) = mapApiError (c.error kind' text') := by
  intro h
  obtain ⟨hrest, -⟩ := h .internal .unavailable .unavailable "Connection refused (os error 111)"
    "timed out"
  have hshown := hrest "" ""
  revert hshown
  decide +kernel

end ErrorResponses

end IamService
