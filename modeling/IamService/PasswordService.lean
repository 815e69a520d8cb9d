import IamService.CharacterSequences
import IamService.ServiceEffects

/-!
# Password policy, hashing and verification

Lengths are counted in bytes, as `str::len` counts them.
-/

namespace IamService.PasswordService
open CharacterSequences

def specialChars : String := "!@#$%^&*()_+-=[]\x7b\x7d|;:,.<>?"

def weakPatterns : List String :=
  ["password", "123456", "qwerty", "admin", "letmein", "welcome", "monkey", "dragon"]

/-- The character classes a password must contain, each with its description. -/
def strengthChecks (password : String) : List (Bool × String) :=
  [(password.toList.any (fun c => 'a' ≤ c ∧ c ≤ 'z'), "at least one lowercase letter"),
    (password.toList.any (fun c => 'A' ≤ c ∧ c ≤ 'Z'), "at least one uppercase letter"),
    (password.toList.any (fun c => '0' ≤ c ∧ c ≤ '9'), "at least one digit"),
    (password.toList.any (fun c => specialChars.toList.contains c),
      "at least one special character (" ++ specialChars ++ ")")]

def validatePasswordStrength (lib : Libraries) (password : String) : Result Unit :=
  if password.utf8ByteSize < 8 then
    .error (.badRequest "Password must be at least 8 characters long")
  else if password.utf8ByteSize > 128 then
    .error (.badRequest "Password must be no more than 128 characters long")
  else
    let missing := ((strengthChecks password).filter (fun c => !c.1)).map Prod.snd
    if missing ≠ [] then
      .error (.badRequest ("Password must contain: " ++ ", ".intercalate missing))
    else if weakPatterns.any (containsText (lib.toLowercase password)) then
      .error (.badRequest "Password contains common weak patterns")
    else .ok ()

/-- The policy check, then an Argon2 hash under a random salt. -/
def hashPassword (lib : Libraries) (password : String) (salt : ℕ) : Result String :=
  match validatePasswordStrength lib password with
  | .error e => .error e
  | .ok () => match lib.argon2Hash password salt with
    | .error e => .error (.internal ("Argon2 hashing failed: " ++ e))
    | .ok hash => .ok hash

/-- Only a password that meets the policy is hashed. -/
theorem strength_of_hashPassword {lib : Libraries} {password hash : String} {salt : ℕ}
    (h : hashPassword lib password salt = .ok hash) :
    validatePasswordStrength lib password = .ok () := by
  unfold hashPassword at h
  split at h
  · cases h
  · assumption

def verifyPassword (lib : Libraries) (password hash : String) : Result Bool :=
  if startsWith hash "$argon2" then
    match lib.argon2Verify password hash with
    | .error e => .error (.internal ("Invalid Argon2 hash format: " ++ e))
    | .ok valid => .ok valid
  else if startsWith hash "$2" then
    match lib.bcryptVerify password hash with
    | .error e => .error (.internal ("Bcrypt verification failed: " ++ e))
    | .ok valid => .ok valid
  else .error (.internal "Unknown password hash format")

end IamService.PasswordService
