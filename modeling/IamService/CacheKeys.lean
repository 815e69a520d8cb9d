import IamService.CharacterSequences
import Mathlib.Data.List.Nodup
import Mathlib.Data.String.Basic

/-!
# Cache keys

The key patterns of the service. Every key starts with a tag of its own, so that keys
of different kinds are different whatever the caller-controlled part is.
-/

namespace IamService.CacheKeys
open CharacterSequences

def loginAttempts (identifier : String) : String := "iam:login_attempts:" ++ identifier

def accountLock (identifier : String) : String := "iam:account_lock:" ++ identifier

def userProfile (userId : String) : String := "iam:user:profile:" ++ userId

def apiKey (keyHash : String) : String := "iam:api_key:" ++ keyHash

def emailVerificationToken (token : String) : String := "iam:email_verify:" ++ token

def resendVerificationCooldown (userId : String) : String := "iam:resend_cooldown:" ++ userId

def passwordResetToken (token : String) : String := "iam:password_reset:" ++ token

def rateLimit (ip endpoint : String) : String := "iam:rate_limit:" ++ endpoint ++ ":" ++ ip

@[simp] theorem loginAttempts_inj {x y : String} :
    loginAttempts x = loginAttempts y ↔ x = y := String.append_right_inj _

@[simp] theorem accountLock_inj {x y : String} :
    accountLock x = accountLock y ↔ x = y := String.append_right_inj _

@[simp] theorem userProfile_inj {x y : String} :
    userProfile x = userProfile y ↔ x = y := String.append_right_inj _

@[simp] theorem passwordResetToken_inj {x y : String} :
    passwordResetToken x = passwordResetToken y ↔ x = y := String.append_right_inj _

@[simp] theorem apiKey_inj {x y : String} : apiKey x = apiKey y ↔ x = y := String.append_right_inj _

/-- The functions that build keys. -/
inductive Family where
  | loginAttempts | accountLock | userProfile | apiKey | emailVerificationToken
  | resendVerificationCooldown | passwordResetToken | rateLimit
  deriving DecidableEq

namespace Family

/-- What every key of the family starts with. -/
def tag : Family → String
  | .loginAttempts => "iam:login_attempts:"
  | .accountLock => "iam:account_lock:"
  | .userProfile => "iam:user:profile:"
  | .apiKey => "iam:api_key:"
  | .emailVerificationToken => "iam:email_verify:"
  | .resendVerificationCooldown => "iam:resend_cooldown:"
  | .passwordResetToken => "iam:password_reset:"
  | .rateLimit => "iam:rate_limit:"

def all : List Family :=
  [.loginAttempts, .accountLock, .userProfile, .apiKey, .emailVerificationToken,
    .resendVerificationCooldown, .passwordResetToken, .rateLimit]

theorem mem_all (f : Family) : f ∈ all := by cases f <;> decide

/-- The shortest beginning that tells the tags apart. -/
def stem (f : Family) : List Char := f.tag.toList.take 6

theorem stem_injective : Function.Injective stem := by
  have hnodup : (all.map stem).Nodup := by decide +kernel
  intro f g h
  exact List.inj_on_of_nodup_map hnodup (mem_all f) (mem_all g) h

end Family

/-- A call of one of the functions, with its arguments. -/
inductive CacheKey where
  | loginAttempts (identifier : String)
  | accountLock (identifier : String)
  | userProfile (userId : String)
  | apiKey (keyHash : String)
  | emailVerificationToken (token : String)
  | resendVerificationCooldown (userId : String)
  | passwordResetToken (token : String)
  | rateLimit (ip endpoint : String)

namespace CacheKey

def text : CacheKey → String
  | .loginAttempts identifier => CacheKeys.loginAttempts identifier
  | .accountLock identifier => CacheKeys.accountLock identifier
  | .userProfile userId => CacheKeys.userProfile userId
  | .apiKey keyHash => CacheKeys.apiKey keyHash
  | .emailVerificationToken token => CacheKeys.emailVerificationToken token
  | .resendVerificationCooldown userId => CacheKeys.resendVerificationCooldown userId
  | .passwordResetToken token => CacheKeys.passwordResetToken token
  | .rateLimit ip endpoint => CacheKeys.rateLimit ip endpoint

def family : CacheKey → Family
  | .loginAttempts _ => .loginAttempts
  | .accountLock _ => .accountLock
  | .userProfile _ => .userProfile
  | .apiKey _ => .apiKey
  | .emailVerificationToken _ => .emailVerificationToken
  | .resendVerificationCooldown _ => .resendVerificationCooldown
  | .passwordResetToken _ => .passwordResetToken
  | .rateLimit _ _ => .rateLimit

theorem text_eq (k : CacheKey) : ∃ rest, k.text = k.family.tag ++ rest := by
  cases k with
  | rateLimit ip endpoint =>
    refine ⟨endpoint ++ ":" ++ ip, ?_⟩
    rw [← String.append_assoc, ← String.append_assoc]
    rfl
  | _ => exact ⟨_, rfl⟩

/-- A key starts with the stem of its family. -/
theorem take_text (k : CacheKey) : k.text.toList.take 6 = k.family.stem := by
  obtain ⟨rest, hrest⟩ := k.text_eq
  have hlength : 6 ≤ k.family.tag.toList.length := by cases k.family <;> decide
  rw [hrest, String.toList_append, List.take_append_of_le_length hlength]
  rfl

/-- Equal keys are built by the same function. -/
theorem family_of_text_eq {k l : CacheKey} (h : k.text = l.text) : k.family = l.family := by
  apply Family.stem_injective
  rw [← take_text, ← take_text, h]

end CacheKey

@[simp] theorem accountLock_ne_userProfile (x y : String) : accountLock x ≠ userProfile y := by
  intro h
  cases @CacheKey.family_of_text_eq (.accountLock x) (.userProfile y) h

@[simp] theorem loginAttempts_ne_userProfile (x y : String) : loginAttempts x ≠ userProfile y := by
  intro h
  cases @CacheKey.family_of_text_eq (.loginAttempts x) (.userProfile y) h

@[simp] theorem loginAttempts_ne_accountLock (x y : String) : loginAttempts x ≠ accountLock y := by
  intro h
  cases @CacheKey.family_of_text_eq (.loginAttempts x) (.accountLock y) h

@[simp] theorem passwordResetToken_ne_userProfile (x y : String) :
    passwordResetToken x ≠ userProfile y := by
  intro h
  cases @CacheKey.family_of_text_eq (.passwordResetToken x) (.userProfile y) h

@[simp] theorem passwordResetToken_ne_accountLock (x y : String) :
    passwordResetToken x ≠ accountLock y := by
  intro h
  cases @CacheKey.family_of_text_eq (.passwordResetToken x) (.accountLock y) h

@[simp] theorem passwordResetToken_ne_loginAttempts (x y : String) :
    passwordResetToken x ≠ loginAttempts y := by
  intro h
  cases @CacheKey.family_of_text_eq (.passwordResetToken x) (.loginAttempts y) h

@[simp] theorem passwordResetToken_ne_resendVerificationCooldown (x y : String) :
    passwordResetToken x ≠ resendVerificationCooldown y := by
  intro h
  cases @CacheKey.family_of_text_eq (.passwordResetToken x) (.resendVerificationCooldown y) h

@[simp] theorem passwordResetToken_ne_rateLimit (x ip endpoint : String) :
    passwordResetToken x ≠ rateLimit ip endpoint := by
  intro h
  cases @CacheKey.family_of_text_eq (.passwordResetToken x) (.rateLimit ip endpoint) h

@[simp] theorem userProfile_ne_rateLimit (x ip endpoint : String) :
    userProfile x ≠ rateLimit ip endpoint := by
  intro h
  cases @CacheKey.family_of_text_eq (.userProfile x) (.rateLimit ip endpoint) h

@[simp] theorem resendVerificationCooldown_ne_userProfile (x y : String) :
    resendVerificationCooldown x ≠ userProfile y := by
  intro h
  cases @CacheKey.family_of_text_eq (.resendVerificationCooldown x) (.userProfile y) h

@[simp] theorem resendVerificationCooldown_ne_accountLock (x y : String) :
    resendVerificationCooldown x ≠ accountLock y := by
  intro h
  cases @CacheKey.family_of_text_eq (.resendVerificationCooldown x) (.accountLock y) h

/-- An endpoint without a colon ends where the first colon after the tag stands, whatever the
text of the address is. -/
theorem rateLimit_inj {ip ip' endpoint endpoint' : String} (he : ':' ∉ endpoint.toList)
    (he' : ':' ∉ endpoint'.toList) (h : rateLimit ip endpoint = rateLimit ip' endpoint') :
    ip = ip' ∧ endpoint = endpoint' := by
  unfold rateLimit at h
  rw [String.append_assoc, String.append_assoc, String.append_assoc, String.append_assoc,
    String.append_right_inj] at h
  have hlist := congrArg String.toList h
  simp only [String.toList_append] at hlist
  obtain ⟨hend, hip⟩ := append_cons_inj_of_first he he' hlist
  exact ⟨String.toList_inj.mp hip, String.toList_inj.mp hend⟩

/-- The routes of the router that the limiter is layered on. -/
def authRoutes : List String :=
  ["/register", "/login", "/refresh", "/verify", "/resend-verification", "/forgot-password",
    "/reset-password"]

/-- Keys of different functions differ, functions of one argument are injective, and so is
the key of a rate limit on endpoints without a colon, as the routes are. -/
theorem keys_never_collide :
    (∀ k l : CacheKey, k.family ≠ l.family → k.text ≠ l.text) ∧
      (∀ build ∈ [loginAttempts, accountLock, userProfile, apiKey, emailVerificationToken,
        resendVerificationCooldown, passwordResetToken], Function.Injective build) ∧
      (∀ ip endpoint ip' endpoint', ':' ∉ endpoint.toList → ':' ∉ endpoint'.toList →
        rateLimit ip endpoint = rateLimit ip' endpoint' → ip = ip' ∧ endpoint = endpoint') ∧
      ∀ route ∈ authRoutes, ':' ∉ route.toList := by
  refine ⟨?_, ?_, ?_, ?_⟩
  · intro k l hfamily h
    exact hfamily (CacheKey.family_of_text_eq h)
  · intro build hbuild x y h
    simp only [List.mem_cons, List.not_mem_nil, or_false] at hbuild
    rcases hbuild with rfl | rfl | rfl | rfl | rfl | rfl | rfl
    all_goals exact (String.append_right_inj _).mp h
  · intro ip endpoint ip' endpoint' he he' h
    exact rateLimit_inj he he' h
  · decide +kernel

end IamService.CacheKeys
