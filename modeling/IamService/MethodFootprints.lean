import IamService.ServiceRuns

/-!
# Footprints of the methods

For every call, the kinds of operations its program can issue. What a kind of operation
leaves alone, every call without that kind in its footprint leaves alone.
-/

namespace IamService
open EffectPrograms

/-- The program issues operations of the listed kinds only. -/
def Limited {α : Type} (kinds : List OpKind) (p : Program α) : Prop :=
  Issues (fun o => o.kind ∈ kinds) p

theorem Limited.widen {α : Type} {kinds kinds' : List OpKind} {p : Program α}
    (hp : Limited kinds p) (h : kinds ⊆ kinds') : Limited kinds' p :=
  Issues.mono (fun _ ho => h ho) hp

/-- The kinds of operations a call can issue. -/
@[simp] def Call.footprint : Call → List OpKind
  | .login .. => [.readCache, .publish, .findByUsernameOrEmail, .storeProfile, .readHost,
      .storeOther, .deleteKey, .countKey, .encodeToken]
  | .register .. => [.readHost, .createUser, .publish]
  | .verifyEmail _ => [.findEmailByToken, .verifyEmail, .readWallets, .readHost,
      .persistCustodialWallet, .spawn, .encodeToken, .publish, .deleteKey]
  | .resendVerification _ => [.findVerificationStateByEmail, .readCache, .readHost,
      .setVerificationToken, .publish, .storeOther]
  | .forgotPassword _ => [.findByUsernameOrEmail, .readHost, .storeOther, .publish]
  | .resetPassword .. => [.readCache, .findByUsernameOrEmail, .readHost, .updatePassword,
      .deleteKey]
  | .refreshToken _ => [.decodeToken, .readHost, .encodeToken]
  | .getUserProfile _ => [.findById]
  | .listWallets _ => [.readWallets]
  | .getPrimaryWalletAddress _ => [.readWallets]
  | .getWallet .. => [.readWallets]
  | .setPrimaryWallet .. => [.setPrimary, .setWalletAddress]
  | .unlinkWallet .. => [.deleteIfNotPrimary, .readWallets]
  | .linkWallet .. => [.readWallets, .clearPrimary, .insertWallet, .setWalletAddress, .findById,
      .submit, .lookAccount, .sleep, .markRegistered, .publish]
  | .onboardUserOnChain .. => [.readWallets, .lookAccount, .markUserOnboarded, .markRegistered,
      .submit, .sleep, .publish]
  | .initializeUserWallet .. => [.submit, .lookAccount, .sleep, .markRegistered]
  | .checkRateLimit .. => [.countKey, .storeOther]
  | .registrationTask _ => [.submit, .lookAccount, .sleep, .markRegistered, .markUserOnboarded]

/-- The kinds of operations that can change a table. -/
def dbWrites : List OpKind :=
  [.createUser, .verifyEmail, .setWalletAddress, .setVerificationToken, .updatePassword,
    .markUserOnboarded, .setPrimary, .deleteIfNotPrimary, .clearPrimary, .insertWallet,
    .markRegistered, .persistCustodialWallet]

namespace AuthService

variable (self : AuthService)

theorem cacheGet_limited {α : Type} (decode : CacheValue → Option α) (key : String) :
    Limited [.readCache] (self.cacheGet decode key).run := by
  refine Issues.bindExcept (by simp [cache]) ?_
  intro v
  cases v with
  | none => simp
  | some v => cases h : decode v <;> simp [h]

theorem mintToken_limited (userId : Uuid) (username role : String) :
    Limited [.readHost, .encodeToken] (mintToken userId username role).run := by
  simp [Limited, mintToken, host]

theorem fetchProfile_limited (username : String) :
    Limited [.findByUsernameOrEmail, .storeProfile] (fetchProfile username).run := by
  refine Issues.bindExcept (by simp [userRepo]) ?_
  intro v
  cases v <;> simp [cacheSet, cache]

theorem loginProfile_limited (username : String) :
    Limited [.readCache, .findByUsernameOrEmail, .storeProfile]
      (self.loginProfile username).run := by
  refine Issues.bindExcept ?_ ?_
  · exact ((self.cacheGet_limited _ _).widen (by simp)).observe
  · intro r
    split
    · simp
    · exact (fetchProfile_limited username).widen (by simp)

theorem failedLogin_limited (username : String) :
    Limited [.countKey, .publish, .storeOther, .deleteKey] (failedLogin username).run := by
  refine Issues.bindExcept (by simp [cache]) ?_
  intro counted
  refine Issues.bindExcept (by simp [eventBus]) ?_
  intro _
  split <;> simp [cacheSet, cache, eventBus]

theorem successfulLogin_limited (username : String) (user : User) :
    Limited [.deleteKey, .readHost, .encodeToken, .publish]
      (self.successfulLogin username user).run := by
  refine Issues.bindExcept (by simp [cache]) ?_
  intro _
  refine Issues.bindExcept ((mintToken_limited _ _ _).widen (by simp)) ?_
  intro _
  simp [eventBus]

theorem login_limited (username password : String) :
    Limited (Call.login username password).footprint (self.login username password).run := by
  refine Issues.bindExcept (by simp [cache]) ?_
  intro locked
  split
  · simp [eventBus]
  · refine Issues.bindExcept ((self.loginProfile_limited _).widen (by simp)) ?_
    intro user
    refine Issues.bindExcept (by simp [host]) ?_
    intro isValid
    split
    · exact (self.successfulLogin_limited _ _).widen (by simp)
    · exact (failedLogin_limited _).widen (by simp)

theorem register_limited (username email password : String) (firstName lastName : Option String) :
    Limited (Call.register username email password firstName lastName).footprint
      (self.register username email password firstName lastName).run := by
  unfold register
  split
  · simp [Limited]
  · refine Issues.bindExcept (by simp [host]) ?_
    intro passwordHash
    refine Issues.bindExcept (by simp [host]) ?_
    intro userId
    refine Issues.bindExcept (by simp [host]) ?_
    intro tokenId
    refine Issues.bindExcept (by simp [userRepo]) ?_
    intro created
    cases created <;> simp [eventBus]

theorem provisionCustodialWallet_limited (user : User) :
    Limited [.readHost, .persistCustodialWallet, .spawn]
      (self.provisionCustodialWallet user).run := by
  refine Issues.bindExcept (by simp [host]) ?_
  intro keypair
  refine Issues.bindExcept (by simp [host]) ?_
  intro key
  cases key with
  | error e => simp
  | ok key =>
    refine Issues.bindExcept (by simp [walletRepo]) ?_
    intro wallet
    simp [host]

theorem ensureWallet_limited (user : User) :
    Limited [.readWallets, .readHost, .persistCustodialWallet, .spawn]
      (self.ensureWallet user).run := by
  refine Issues.bindExcept (by simp [walletRepo]) ?_
  intro hasWallet
  split
  · refine Issues.bindExcept ?_ ?_
    · exact ((self.provisionCustodialWallet_limited user).widen (by simp)).observe
    · intro wallet
      cases wallet <;> simp
  · simp

theorem verifiedAddress_limited (token : String) :
    Limited [.findEmailByToken] (self.verifiedAddress token).run := by
  unfold verifiedAddress
  split
  · simp [Limited]
  · refine Issues.bindExcept (by simp [userRepo]) ?_
    intro email
    cases email <;> simp

theorem verifiedSession_limited (user : User) :
    Limited [.readHost, .encodeToken, .publish, .deleteKey] (self.verifiedSession user).run := by
  refine Issues.bindExcept ((mintToken_limited _ _ _).widen (by simp)) ?_
  intro _
  simp [eventBus, cache]

theorem verifyEmail_limited (token : String) :
    Limited (Call.verifyEmail token).footprint (self.verifyEmail token).run := by
  refine Issues.bindExcept ((self.verifiedAddress_limited token).widen (by simp)) ?_
  intro email
  refine Issues.bindExcept (by simp [userRepo]) ?_
  intro activated
  cases activated with
  | none => simp
  | some activated =>
    refine Issues.bindExcept ((self.ensureWallet_limited _).widen (by simp)) ?_
    intro user
    exact (self.verifiedSession_limited user).widen (by simp)

theorem verificationTokenFor_limited (state : EmailVerificationState) :
    Limited [.readHost, .setVerificationToken] (self.verificationTokenFor state).run := by
  unfold verificationTokenFor
  cases state.verificationToken with
  | some token => simp [Limited]
  | none =>
    refine Issues.bindExcept (by simp [host]) ?_
    intro id
    refine Issues.bindExcept (by simp [userRepo]) ?_
    simp

theorem resendVerification_limited (email : String) :
    Limited (Call.resendVerification email).footprint (self.resendVerification email).run := by
  refine Issues.bindExcept (by simp [userRepo]) ?_
  intro state
  cases state with
  | none => simp
  | some state =>
    dsimp only
    split
    · simp
    · refine Issues.bindExcept (by simp [cache]) ?_
      intro cooling
      split
      · simp
      · refine Issues.bindExcept
          ((self.verificationTokenFor_limited _).widen (by simp)) ?_
        intro token
        simp [eventBus, cacheSet, cache]

theorem forgotPassword_limited (email : String) :
    Limited (Call.forgotPassword email).footprint (self.forgotPassword email).run := by
  refine Issues.bindExcept (by simp [userRepo]) ?_
  intro user
  cases user with
  | none => simp
  | some user =>
    refine Issues.bindExcept (by simp [host]) ?_
    intro id
    refine Issues.bindExcept (by simp [cacheSet, cache]) ?_
    intro _
    simp [eventBus]

theorem invalidateReset_limited (token email : String) (user : Option UserWithHash) :
    Limited [.deleteKey] (invalidateReset token email user).run := by
  refine Issues.bindExcept (by simp [cache]) ?_
  intro _
  cases user <;> simp [cache]

theorem rotatePassword_limited (token newPassword email : String) :
    Limited [.findByUsernameOrEmail, .readHost, .updatePassword, .deleteKey]
      (rotatePassword token newPassword email).run := by
  refine Issues.bindExcept (by simp [userRepo]) ?_
  intro user
  refine Issues.bindExcept (by simp [host]) ?_
  intro passwordHash
  refine Issues.bindExcept (by simp [userRepo]) ?_
  intro rows
  split
  · simp
  · exact (invalidateReset_limited _ _ _).widen (by simp)

theorem resetPassword_limited (token newPassword : String) :
    Limited (Call.resetPassword token newPassword).footprint
      (self.resetPassword token newPassword).run := by
  refine Issues.bindExcept ((self.cacheGet_limited _ _).widen (by simp)) ?_
  intro email
  cases email with
  | none => simp
  | some email => exact (rotatePassword_limited _ _ _).widen (by simp)

theorem refreshToken_limited (token : Jwt) :
    Limited (Call.refreshToken token).footprint (self.refreshToken token).run := by
  refine Issues.bindExcept (by simp [host]) ?_
  intro claims
  refine Issues.bindExcept ((mintToken_limited _ _ _).widen (by simp)) ?_
  simp

theorem checkRateLimit_limited (ip endpoint : String) (limit windowSecs : ℕ) :
    Limited (Call.checkRateLimit ip endpoint limit windowSecs).footprint
      (checkRateLimit ip endpoint limit windowSecs).run := by
  refine Issues.bindExcept (by simp [cache]) ?_
  intro count
  dsimp only
  split <;> split <;> simp [cache]

theorem pollAccount_limited (pda : Pubkey) (n : ℕ) :
    Limited [.lookAccount, .sleep] (pollAccount pda n) := by
  induction n with
  | zero => simp [Limited, pollAccount]
  | succ n ih =>
    refine Issues.bind (by simp [blockchain]) ?_
    intro seen
    split
    · simp
    · exact Issues.bind (by simp [host]) (fun _ => ih)

theorem confirmRegistered_limited (pubkey : Pubkey) :
    Limited [.lookAccount, .sleep] (self.confirmRegistered pubkey) := by
  unfold confirmRegistered
  split
  · simp [Limited]
  · exact pollAccount_limited _ _

theorem autoRegister_limited (userId : Uuid) (walletAddress : String) (user : User)
    (wallet : UserWallet) : Limited [.submit, .lookAccount, .sleep, .markRegistered, .publish]
      (self.autoRegister userId walletAddress user wallet).run := by
  unfold autoRegister
  split
  · simp [Limited]
  · refine Issues.bindExcept (by simp [blockchain]) ?_
    intro submitted
    cases submitted with
    | error e => simp
    | ok signature =>
      refine Issues.bindExcept ((self.confirmRegistered_limited _).widen (by simp)).observe ?_
      intro confirmed
      split
      · refine Issues.bindExcept (by simp [walletRepo]) ?_
        intro _
        cases self.lib.pubkeyFromStr self.config.registryProgramId <;>
          simp [eventBus]
      · simp

theorem registerLinked_limited (userId : Uuid) (walletAddress : String) (wallet : UserWallet) :
    Limited [.findById, .submit, .lookAccount, .sleep, .markRegistered, .publish]
      (self.registerLinked userId walletAddress wallet).run := by
  refine Issues.bindExcept (by simp [userRepo]) ?_
  intro found
  split
  · split
    · exact (self.autoRegister_limited _ _ _ _).widen (by simp)
    · simp
  · simp

theorem afterInsert_limited (userId : Uuid) (walletAddress : String)
    (isPrimary hasExisting : Bool) (wallet : UserWallet) :
    Limited [.setWalletAddress, .findById, .submit, .lookAccount, .sleep, .markRegistered,
      .publish] (self.afterInsert userId walletAddress isPrimary hasExisting wallet).run := by
  have hrest := self.registerLinked_limited userId walletAddress wallet
  unfold afterInsert
  split
  · refine Issues.bindExcept (by simp [userRepo]) ?_
    intro _
    exact hrest.widen (by simp)
  · exact hrest.widen (by simp)

theorem insertLinked_limited (userId : Uuid) (walletAddress : String) (label : Option String)
    (isPrimary hasExisting : Bool) :
    Limited [.insertWallet, .setWalletAddress, .findById, .submit, .lookAccount, .sleep,
      .markRegistered, .publish]
      (self.insertLinked userId walletAddress label isPrimary hasExisting).run := by
  refine Issues.bindExcept (by simp [walletRepo]) ?_
  intro wallet
  exact (self.afterInsert_limited _ _ _ _ wallet).widen (by simp)

theorem linkWallet_limited (userId : Uuid) (walletAddress : String) (label : Option String)
    (isPrimary : Bool) : Limited (Call.linkWallet userId walletAddress label isPrimary).footprint
      (self.linkWallet userId walletAddress label isPrimary).run := by
  unfold linkWallet
  split
  · simp [Limited]
  · refine Issues.bindExcept (by simp [walletRepo]) ?_
    intro hasExisting
    have hrest := self.insertLinked_limited userId walletAddress label isPrimary hasExisting
    split
    · refine Issues.bindExcept (by simp [walletRepo]) ?_
      intro _
      exact hrest.widen (by simp)
    · exact hrest.widen (by simp)

theorem onboardUserOnChain_limited (userId : Uuid) (userType : UserType) (latE7 longE7 : Int32)
    (h3Index : Option UInt64) (shardId : Option UInt8) :
    Limited (Call.onboardUserOnChain userId userType latE7 longE7 h3Index shardId).footprint
      (self.onboardUserOnChain userId userType latE7 longE7 h3Index shardId).run := by
  refine Issues.bindExcept (by simp [walletRepo]) ?_
  intro address
  cases address with
  | none => simp
  | some address =>
    dsimp only
    split
    · simp
    · split
      · simp
      · refine Issues.bindExcept (by simp [blockchain]) ?_
        intro seen
        split
        · simp [userRepo, walletRepo]
        · refine Issues.bindExcept (by simp [blockchain]) ?_
          intro submitted
          cases submitted with
          | error e => simp
          | ok signature =>
            refine Issues.bindExcept
              ((pollAccount_limited _ _).widen (by simp)).observe ?_
            intro confirmed
            split
            · simp [recordOnboarding, userRepo, walletRepo, eventBus]
            · simp

theorem initializeUserWallet_limited (userId : Uuid) (walletAddress : String) :
    Limited (Call.initializeUserWallet userId walletAddress).footprint
      (self.initializeUserWallet userId walletAddress).run := by
  unfold initializeUserWallet
  split
  · simp [Limited]
  · refine Issues.bindExcept (by simp [blockchain]) ?_
    intro submitted
    cases submitted with
    | error e => simp
    | ok signature =>
      refine Issues.bindExcept
        ((self.confirmRegistered_limited _).widen (by simp)).observe ?_
      intro confirmed
      split
      · refine Issues.bindExcept (by simp [walletRepo]) ?_
        simp
      · simp

theorem registrationTask_limited (task : RegistrationTask) :
    Limited (Call.registrationTask task).footprint (self.registrationTask task).run := by
  refine Issues.bindExcept (by simp [blockchain]) ?_
  intro submitted
  cases submitted with
  | error e => simp
  | ok signature =>
    refine Issues.bindExcept
      ((self.confirmRegistered_limited _).widen (by simp)).observe ?_
    intro confirmed
    split
    · simp [userRepo, walletRepo]
    · simp

/-- A call issues operations of its footprint only. -/
theorem method_limited (c : Call) : Limited c.footprint (self.method c).run := by
  cases c with
  | login username password => exact self.login_limited _ _
  | register username email password firstName lastName => exact self.register_limited _ _ _ _ _
  | verifyEmail token => exact self.verifyEmail_limited _
  | resendVerification email => exact self.resendVerification_limited _
  | forgotPassword email => exact self.forgotPassword_limited _
  | resetPassword token newPassword => exact self.resetPassword_limited _ _
  | refreshToken token => exact self.refreshToken_limited _
  | getUserProfile userId =>
    refine Issues.bindExcept (by simp [userRepo]) ?_
    intro user
    cases user <;> simp
  | listWallets userId => simp [method, Limited, listWallets, walletRepo]
  | getPrimaryWalletAddress userId =>
    refine Issues.bindExcept (by simp [walletRepo]) ?_
    intro address
    cases address <;> simp
  | getWallet userId walletId =>
    refine Issues.bindExcept (by simp [walletRepo]) ?_
    intro wallet
    cases wallet <;> simp
  | setPrimaryWallet userId walletId =>
    refine Issues.bindExcept (by simp [walletRepo]) ?_
    intro wallet
    cases wallet <;> simp [userRepo]
  | unlinkWallet userId walletId =>
    refine Issues.bindExcept (by simp [walletRepo]) ?_
    intro deleted
    split
    · simp
    · refine Issues.bindExcept (by simp [walletRepo]) ?_
      intro found
      split <;> simp
  | linkWallet userId walletAddress label isPrimary => exact self.linkWallet_limited _ _ _ _
  | onboardUserOnChain userId userType latE7 longE7 h3Index shardId =>
    exact self.onboardUserOnChain_limited _ _ _ _ _ _
  | initializeUserWallet userId walletAddress => exact self.initializeUserWallet_limited _ _
  | checkRateLimit ip endpoint limit windowSecs => exact checkRateLimit_limited _ _ _ _
  | registrationTask task => exact self.registrationTask_limited _

/-- Every other operation leaves the database alone. -/
theorem handle_db_of_kind {o : Op} (h : o.kind ∉ dbWrites) (c : Choice) (w : self.State) :
    (self.handle c w o).2.db = w.db := by
  cases o with
  | user q => cases q <;> first | rfl | simp [dbWrites] at h
  | wallet q => cases q <;> first | rfl | simp [dbWrites] at h
  | cache q => rfl
  | bus q => rfl
  | chain q => rfl
  | host q => exact self.handle_host_db c w q

/-- What every operation of a call's footprint preserves, serving the call preserves. -/
theorem after_preserves (rel : self.State → self.State → Prop) (refl : ∀ w, rel w w)
    (trans : ∀ {w v u}, rel w v → rel v u → rel w u) (r : Request)
    (hstep : ∀ c w o, o.kind ∈ r.call.footprint → rel w (self.handle c w o).2) (w : self.State) :
    rel w (self.after w r) := Issues.run rel refl trans hstep (self.method_limited r.call) r.oracle w

end AuthService

end IamService
