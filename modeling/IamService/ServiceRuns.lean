import IamService.OperationFootprints
import IamService.WalletMethods

/-!
# Calls, sequential runs and footprints

A call is a method with its arguments, or the detached task that a verification leaves
behind. Served alone it runs against an oracle, which makes the environment's choice
for each of its operations; a sequential run serves one request after another. The
footprint of a call lists the kinds of operations its program can issue.
-/

namespace IamService
open EffectPrograms

inductive Call where
  | login (username password : String)
  | register (username email password : String) (firstName lastName : Option String)
  | verifyEmail (token : String)
  | resendVerification (email : String)
  | forgotPassword (email : String)
  | resetPassword (token newPassword : String)
  | refreshToken (token : Jwt)
  | getUserProfile (userId : Uuid)
  | listWallets (userId : Uuid)
  | getPrimaryWalletAddress (userId : Uuid)
  | getWallet (userId walletId : Uuid)
  | setPrimaryWallet (userId walletId : Uuid)
  | unlinkWallet (userId walletId : Uuid)
  | linkWallet (userId : Uuid) (walletAddress : String) (label : Option String) (isPrimary : Bool)
  | onboardUserOnChain (userId : Uuid) (userType : UserType) (latE7 longE7 : Int32)
      (h3Index : Option UInt64) (shardId : Option UInt8)
  | initializeUserWallet (userId : Uuid) (walletAddress : String)
  | checkRateLimit (ip endpoint : String) (limit windowSecs : ℕ)
  | registrationTask (task : RegistrationTask)

/-- What a call returns on success. -/
@[reducible] def Call.Value : Call → Type
  | .login .. => AuthResult
  | .register .. => RegistrationResult
  | .verifyEmail _ => VerifyEmailResult
  | .resendVerification _ => ResendVerificationResult
  | .forgotPassword _ => Unit
  | .resetPassword .. => Unit
  | .refreshToken _ => Jwt × ℤ
  | .getUserProfile _ => User
  | .listWallets _ => List UserWallet
  | .getPrimaryWalletAddress _ => String
  | .getWallet .. => UserWallet
  | .setPrimaryWallet .. => UserWallet
  | .unlinkWallet .. => Unit
  | .linkWallet .. => UserWallet
  | .onboardUserOnChain .. => OnChainOnboardingResult
  | .initializeUserWallet .. => String
  | .checkRateLimit .. => Unit
  | .registrationTask _ => Unit

/-- A call together with the environment's choices while it is served. -/
structure Request where
  call : Call
  oracle : ℕ → Choice

namespace AuthService

variable (self : AuthService)

def method : (c : Call) → Method c.Value
  | .login username password => self.login username password
  | .register username email password firstName lastName =>
    self.register username email password firstName lastName
  | .verifyEmail token => self.verifyEmail token
  | .resendVerification email => self.resendVerification email
  | .forgotPassword email => self.forgotPassword email
  | .resetPassword token newPassword => self.resetPassword token newPassword
  | .refreshToken token => self.refreshToken token
  | .getUserProfile userId => getUserProfile userId
  | .listWallets userId => listWallets userId
  | .getPrimaryWalletAddress userId => getPrimaryWalletAddress userId
  | .getWallet userId walletId => getWallet userId walletId
  | .setPrimaryWallet userId walletId => setPrimaryWallet userId walletId
  | .unlinkWallet userId walletId => unlinkWallet userId walletId
  | .linkWallet userId walletAddress label isPrimary =>
    self.linkWallet userId walletAddress label isPrimary
  | .onboardUserOnChain userId userType latE7 longE7 h3Index shardId =>
    self.onboardUserOnChain userId userType latE7 longE7 h3Index shardId
  | .initializeUserWallet userId walletAddress => self.initializeUserWallet userId walletAddress
  | .checkRateLimit ip endpoint limit windowSecs => checkRateLimit ip endpoint limit windowSecs
  | .registrationTask task => self.registrationTask task

/-- A call that has returned. -/
abbrev Returned := Σ c : Call, Result c.Value

/-- The program of a call, as one of many that run together. -/
def program (c : Call) : Program Returned := (self.method c).run >>= fun r => .ret ⟨c, r⟩

/-- Serve a request alone. -/
def serve (w : self.State) (r : Request) : Result r.call.Value × self.State :=
  run self.handle (self.method r.call).run r.oracle w

def after (w : self.State) (r : Request) : self.State := (self.serve w r).2

/-- The state after a sequential run. -/
def serveAll (w : self.State) (rs : List Request) : self.State := rs.foldl self.after w

theorem serveAll_concat (w : self.State) (rs : List Request) (r : Request) :
    self.serveAll w (rs ++ [r]) = self.after (self.serveAll w rs) r :=
  List.foldl_concat self.after w r rs

/-- Every request of a run meets `P` in the state in which it is served. -/
def Along (P : self.State → Request → Prop) : self.State → List Request → Prop
  | _, [] => True
  | w, r :: rs => P w r ∧ Along P (self.after w r) rs

instance decidableAlong (P : self.State → Request → Prop) [∀ w r, Decidable (P w r)] :
    (w : self.State) → (rs : List Request) → Decidable (self.Along P w rs)
  | _, [] => inferInstanceAs (Decidable True)
  | w, r :: rs =>
    have := decidableAlong P (self.after w r) rs
    inferInstanceAs (Decidable (P w r ∧ self.Along P (self.after w r) rs))

variable {self}

theorem Along.take {P : self.State → Request → Prop} {w : self.State} {rs : List Request}
    (h : self.Along P w rs) (n : ℕ) : self.Along P w (rs.take n) := by
  induction rs generalizing w n with
  | nil => simpa using h
  | cons r rs ih =>
    cases n with
    | zero => trivial
    | succ n => exact ⟨h.1, ih h.2 n⟩

/-- What every admissible request keeps, an admissible run keeps. -/
theorem serveAll_invariant {P : self.State → Request → Prop} {inv : self.State → Prop}
    (hstep : ∀ w r, inv w → P w r → inv (self.after w r)) {w : self.State} {rs : List Request}
    (hw : inv w) (h : self.Along P w rs) : inv (self.serveAll w rs) := by
  induction rs generalizing w with
  | nil => exact hw
  | cons r rs ih => exact ih (hstep w r hw h.1) h.2

/-- When `P` says exactly which of the requests of a kind `G` keep an invariant, the invariant
holds in every state of a run of such requests exactly when every request of the run meets `P`. -/
theorem along_iff_invariant_of {P : self.State → Request → Prop} {inv : self.State → Prop}
    {G : Request → Prop} (hstep : ∀ w r, G r → inv w → (inv (self.after w r) ↔ P w r))
    {w : self.State} (hw : inv w) (rs : List Request) (hG : ∀ r ∈ rs, G r) :
    (∀ n, inv (self.serveAll w (rs.take n))) ↔ self.Along P w rs := by
  induction rs generalizing w with
  | nil => simpa [Along, serveAll] using hw
  | cons r rs ih =>
    have hkeep := hstep w r (hG r List.mem_cons_self) hw
    have hrest : ∀ q ∈ rs, G q := fun q hq => hG q (List.mem_cons_of_mem r hq)
    constructor
    · intro h
      have hr : inv (self.after w r) := h 1
      exact ⟨hkeep.mp hr, (ih hr hrest).mp (fun n => h (n + 1))⟩
    · rintro ⟨hp, hrs⟩ n
      cases n with
      | zero => exact hw
      | succ n => exact (ih (hkeep.mpr hp) hrest).mpr hrs n

/-- When `P` says exactly which requests keep an invariant, the invariant holds in every
state of a run exactly when every request of the run meets `P`. -/
theorem along_iff_invariant {P : self.State → Request → Prop} {inv : self.State → Prop}
    (hstep : ∀ w r, inv w → (inv (self.after w r) ↔ P w r)) {w : self.State} (hw : inv w)
    (rs : List Request) : (∀ n, inv (self.serveAll w (rs.take n))) ↔ self.Along P w rs :=
  self.along_iff_invariant_of (G := fun _ => True) (fun w r _ h => hstep w r h) hw rs
    (fun _ _ => trivial)

end AuthService

/-- The kinds of operations, with writes to the cache told apart by what they store. -/
inductive OpKind where
  | findByUsernameOrEmail | findById | createUser | verifyEmail | setWalletAddress
  | findEmailByToken | findVerificationStateByEmail | setVerificationToken | updatePassword
  | markUserOnboarded
  | readWallets | setPrimary | deleteIfNotPrimary | clearPrimary | insertWallet
  | markRegistered | persistCustodialWallet
  | readCache | storeProfile | storeOther | deleteKey | countKey
  | publish | submit | lookAccount
  | readHost | encodeToken | decodeToken | sleep | spawn
  deriving DecidableEq

@[simp] def Op.kind : Op → OpKind
  | .user (.findByUsernameOrEmail _) => .findByUsernameOrEmail
  | .user (.findById _) => .findById
  | .user (.create _) => .createUser
  | .user (.verifyEmail _) => .verifyEmail
  | .user (.setWalletAddress ..) => .setWalletAddress
  | .user (.findEmailByToken _) => .findEmailByToken
  | .user (.findVerificationStateByEmail _) => .findVerificationStateByEmail
  | .user (.setVerificationToken ..) => .setVerificationToken
  | .user (.updatePassword ..) => .updatePassword
  | .user (.markUserOnboarded ..) => .markUserOnboarded
  | .wallet (.setPrimary ..) => .setPrimary
  | .wallet (.deleteIfNotPrimary ..) => .deleteIfNotPrimary
  | .wallet (.clearPrimary _) => .clearPrimary
  | .wallet (.insert ..) => .insertWallet
  | .wallet (.markRegistered ..) => .markRegistered
  | .wallet (.persistCustodialWallet ..) => .persistCustodialWallet
  | .wallet _ => .readWallets
  | .cache (.setValue _ (.profile _) _) => .storeProfile
  | .cache (.setValue ..) => .storeOther
  | .cache (.delete _) => .deleteKey
  | .cache (.increment _) => .countKey
  | .cache (.incrementWithTtl ..) => .countKey
  | .cache _ => .readCache
  | .bus _ => .publish
  | .chain (.registerUserOnChain ..) => .submit
  | .chain (.accountExists _) => .lookAccount
  | .host (.encodeToken _) => .encodeToken
  | .host (.decodeToken _) => .decodeToken
  | .host (.sleep _) => .sleep
  | .host (.spawn _) => .spawn
  | .host _ => .readHost

end IamService
