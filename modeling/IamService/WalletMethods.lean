import IamService.AccountMethods

/-!
# Methods for wallets, verification and on-chain registration

Email verification provisions a custodial wallet and leaves its on-chain registration
to a detached task, which is a program of its own. Every path that records a
registration polls the Registry account first.
-/

namespace IamService
open EffectPrograms

/-- `str::eq_ignore_ascii_case`. -/
def eqIgnoreAsciiCase (s t : String) : Bool := s.toList.map Char.toLower = t.toList.map Char.toLower

/-- Drop a pattern as often as the text starts with it. -/
def dropPrefixes (pattern : List Char) : ℕ → List Char → List Char
  | 0, text => text
  | n + 1, text =>
    if pattern.isPrefixOf text then dropPrefixes pattern n (text.drop pattern.length) else text

/-- `str::trim_start_matches`; a text of length `n` starts with a pattern at most `n` times. -/
def trimStartMatches (s pattern : String) : String :=
  String.ofList (dropPrefixes pattern.toList s.toList.length s.toList)

namespace AuthService

variable (self : AuthService)

/-- Poll the Registry account a number of times, 750 ms apart. -/
def pollAccount (pda : Pubkey) : ℕ → Program Bool
  | 0 => return false
  | n + 1 => do
    let seen ← blockchain (.accountExists pda)
    if seen.toOption.getD false then return true
    else do
      host (.sleep 750)
      pollAccount pda n

def confirmRegistered (pubkey : Pubkey) : Program Bool :=
  match self.registryPda pubkey with
  | none => return false
  | some pda => pollAccount pda 20

/-- The body of the detached task of `spawn_onchain_registration`. -/
def registrationTask (t : RegistrationTask) : Method Unit := do
  match ← observe (blockchain (.registerUserOnChain t.pubkey t.userType 0 0 0 0)) with
  | .error _ => return ()
  | .ok signature => do
    if ← observe (self.confirmRegistered t.pubkey) then do
      let _ ← observe (walletRepo (.markRegistered t.userId t.walletAddress signature))
      let pda := ((self.registryPda t.pubkey).map self.lib.pubkeyToString).getD ""
      let _ ← observe (userRepo (.markUserOnboarded t.userId t.userType.name t.latitude
        t.longitude pda signature))
      return ()
    else return ()

def provisionCustodialWallet (user : User) : Method UserWallet := do
  let keypair ← observe (host .createKeypair)
  let pubkey := self.lib.keypairPubkey keypair
  let walletAddress := self.lib.pubkeyToString pubkey
  match ← observe (host (.encryptPrivateKey keypair)) with
  | .error e => throw (.internal e)
  | .ok key => do
    let wallet ← attempt (walletRepo (.persistCustodialWallet user.id walletAddress
      (some "Custodial") key self.lib.currentKdfVersion))
    observe (host (.spawn ⟨user.id, pubkey, walletAddress, user.userType.getD .consumer,
      user.latitude.getD 0, user.longitude.getD 0⟩))
    return wallet

/-- The wallet of a freshly verified user. A failure does not block verification, and a
failed check counts as a wallet found. -/
def ensureWallet (user : User) : Method User := do
  let hasWallet ← observe (walletRepo (.hasAnyWallet user.id))
  if user.walletAddress = none ∧ hasWallet.toOption.getD true = false then do
    match ← observe (self.provisionCustodialWallet user).run with
    | .ok wallet => return { user with
        walletAddress := some wallet.walletAddress
        blockchainRegistered := wallet.blockchainRegistered }
    | .error _ => return user
  else return user

/-- The address a verification token stands for; outside production `verify_<email>`
stands for the email itself. -/
def verifiedAddress (token : String) : Method String := do
  if ¬ eqIgnoreAsciiCase self.config.environment "production" ∧
      CharacterSequences.startsWith token "verify_" then
    return trimStartMatches token "verify_"
  else do
    match ← attempt (userRepo (.findEmailByToken token)) with
    | some email => return email
    | none => throw (.badRequest "Invalid or expired verification token")

/-- Open a session for a verified user and drop the profiles cached for it. -/
def verifiedSession (user : User) : Method VerifyEmailResult := do
  let token ← mintToken user.id user.username user.role
  let _ ← observe (eventBus (.publish
    (.emailVerified user.id user.username user.email (user.walletAddress.getD ""))))
  let _ ← observe (cache (.delete (CacheKeys.userProfile user.email)))
  let _ ← observe (cache (.delete (CacheKeys.userProfile user.username)))
  return ⟨true, "Email verified successfully", user.walletAddress,
    some ⟨token, self.config.jwtExpiration, { user with isActive := true }⟩⟩

def verifyEmail (token : String) : Method VerifyEmailResult := do
  let email ← self.verifiedAddress token
  match ← attempt (userRepo (.verifyEmail email)) with
  | none => throw (.notFound "User not found")
  | some activated => do
    let user ← self.ensureWallet activated
    self.verifiedSession user

def listWallets (userId : Uuid) : Method (List UserWallet) :=
  attempt (walletRepo (.listByUserId userId))

def getPrimaryWalletAddress (userId : Uuid) : Method String := do
  match ← attempt (walletRepo (.findPrimaryAddress userId)) with
  | some address => return address
  | none => throw (.notFound "No primary wallet found")

def getWallet (userId walletId : Uuid) : Method UserWallet := do
  match ← attempt (walletRepo (.findByIdAndUserId walletId userId)) with
  | some wallet => return wallet
  | none => throw (.notFound "Wallet not found")

def setPrimaryWallet (userId walletId : Uuid) : Method UserWallet := do
  match ← attempt (walletRepo (.setPrimary userId walletId)) with
  | none => throw (.notFound "Wallet not found")
  | some wallet => do
    let _ ← observe (userRepo (.setWalletAddress userId wallet.walletAddress))
    return wallet

def unlinkWallet (userId walletId : Uuid) : Method Unit := do
  let deleted ← attempt (walletRepo (.deleteIfNotPrimary userId walletId))
  if deleted then return ()
  else do
    -- tell a primary wallet from an absent one
    if ← attempt (walletRepo (.exists userId walletId)) then
      throw (.badRequest "Cannot delete primary wallet")
    else throw (.notFound "Wallet not found")

/-- Register a new wallet of a user who is already onboarded. -/
def autoRegister (userId : Uuid) (walletAddress : String) (user : User) (wallet : UserWallet) :
    Method UserWallet := do
  match self.lib.parsePubkey walletAddress with
  | .error e => throw (.badRequest e)
  | .ok pubkey => do
    match ← observe (blockchain (.registerUserOnChain pubkey (user.userType.getD .consumer)
        (user.latitude.getD 0) (user.longitude.getD 0) 0 0)) with
    | .error _ => return wallet
    | .ok signature => do
      if ← observe (self.confirmRegistered pubkey) then do
        let _ ← observe (walletRepo (.markRegistered userId walletAddress signature))
        match self.lib.pubkeyFromStr self.config.registryProgramId with
        | .error e => throw (.configuration
            ("Invalid registry program ID '" ++ self.config.registryProgramId ++ "': " ++ e))
        | .ok programId => do
          let pda := self.lib.pubkeyToString (self.lib.findProgramAddress pubkey programId)
          let _ ← observe (eventBus (.publish
            (.userWalletLinked userId walletAddress pda signature 0)))
          return { wallet with
            blockchainRegistered := true
            blockchainTxSignature := some signature
            userAccountPda := some pda }
      else return wallet

/-- A new wallet is registered at once if its owner is onboarded. -/
def registerLinked (userId : Uuid) (walletAddress : String) (wallet : UserWallet) :
    Method UserWallet := do
  match ← observe (userRepo (.findById userId)) with
  | .ok (some user) =>
    if user.blockchainRegistered then self.autoRegister userId walletAddress user wallet
    else return wallet
  | _ => return wallet

/-- The first wallet, or one flagged primary, becomes the address of the user. -/
def afterInsert (userId : Uuid) (walletAddress : String) (isPrimary hasExisting : Bool)
    (wallet : UserWallet) : Method UserWallet :=
  if isPrimary || !hasExisting then do
    let _ ← observe (userRepo (.setWalletAddress userId walletAddress))
    self.registerLinked userId walletAddress wallet
  else self.registerLinked userId walletAddress wallet

def insertLinked (userId : Uuid) (walletAddress : String) (label : Option String)
    (isPrimary hasExisting : Bool) : Method UserWallet := do
  let wallet ← attempt (walletRepo (.insert userId walletAddress label isPrimary))
  self.afterInsert userId walletAddress isPrimary hasExisting wallet

def linkWallet (userId : Uuid) (walletAddress : String) (label : Option String)
    (isPrimary : Bool) : Method UserWallet := do
  match self.lib.parsePubkey walletAddress with
  | .error e => throw (.badRequest ("invalid wallet address: " ++ e))
  | .ok _ => do
    let hasExisting ← attempt (walletRepo (.hasAnyWallet userId))
    if hasExisting && isPrimary then do
      -- the demotion is a statement of its own, before the insertion is attempted
      attempt (walletRepo (.clearPrimary userId))
      self.insertLinked userId walletAddress label isPrimary hasExisting
    else self.insertLinked userId walletAddress label isPrimary hasExisting

/-- Record a registration whose account was seen on chain. -/
def recordOnboarding (userId : Uuid) (walletAddress pda signature : String)
    (userType : UserType) (latE7 longE7 : Int32) (shardId : UInt8) :
    Method OnChainOnboardingResult := do
  let userMarked ← observe (userRepo (.markUserOnboarded userId userType.name latE7 longE7 pda
    signature))
  let walletMarked ← observe (walletRepo (.markRegistered userId walletAddress signature))
  let _ ← observe (eventBus (.publish
    (.userOnboarded userId walletAddress pda signature userType.name shardId)))
  let persisted := userMarked.toOption.isSome && walletMarked.toOption.isSome
  return ⟨true,
    if persisted then "User registered on-chain"
    else "User registered on-chain; DB persistence lagged — reconciliation pending",
    some signature⟩

/-- Submit the registration of a user whose account was not seen, and wait for it. -/
def submitOnboarding (userId : Uuid) (walletAddress : String) (pubkey pda : Pubkey)
    (userType : UserType) (latE7 longE7 : Int32) (h3Index : UInt64) (shardId : UInt8) :
    Method OnChainOnboardingResult := do
  match ← observe (blockchain (.registerUserOnChain pubkey userType latE7 longE7 h3Index
      shardId)) with
  | .error e => return ⟨false, e.display, none⟩
  | .ok signature => do
    if ← observe (pollAccount pda 20) then
      recordOnboarding userId walletAddress (self.lib.pubkeyToString pda) signature userType
        latE7 longE7 shardId
    else return ⟨false,
      "On-chain registration submitted but not confirmed on-chain; please retry",
      some signature⟩

def onboardUserOnChain (userId : Uuid) (userType : UserType) (latE7 longE7 : Int32)
    (h3Index : Option UInt64) (shardId : Option UInt8) : Method OnChainOnboardingResult := do
  match ← attempt (walletRepo (.findPrimaryAddress userId)) with
  | none => throw (.badRequest "No primary wallet found")
  | some walletAddress =>
    match self.lib.parsePubkey walletAddress with
    | .error e => throw (.badRequest e)
    | .ok pubkey =>
      match self.lib.pubkeyFromStr self.config.registryProgramId with
      | .error e => throw (.internal ("Invalid registry program ID: " ++ e))
      | .ok programId => do
        let pda := self.lib.findProgramAddress pubkey programId
        let seen ← observe (blockchain (.accountExists pda))
        if seen.toOption.getD false then do
          -- the account exists already: heal the flags with the arguments of this request
          let _ ← observe (userRepo (.markUserOnboarded userId userType.name latE7 longE7
            (self.lib.pubkeyToString pda) "preexisting-onchain"))
          let _ ← observe (walletRepo (.markRegistered userId walletAddress
            "preexisting-onchain"))
          return ⟨true, "User already registered on-chain", none⟩
        else
          self.submitOnboarding userId walletAddress pubkey pda userType latE7 longE7
            (h3Index.getD 0) (shardId.getD 0)

def initializeUserWallet (userId : Uuid) (walletAddress : String) : Method String := do
  match self.lib.parsePubkey walletAddress with
  | .error e => throw (.badRequest e)
  | .ok pubkey => do
    match ← observe (blockchain (.registerUserOnChain pubkey .consumer 0 0 0 0)) with
    | .error e => throw (.internal e.display)
    | .ok signature => do
      if ← observe (self.confirmRegistered pubkey) then do
        attempt (walletRepo (.markRegistered userId walletAddress signature))
        return signature
      else throw (.internal
        "On-chain registration submitted but not confirmed on-chain; please retry")

end AuthService

end IamService
