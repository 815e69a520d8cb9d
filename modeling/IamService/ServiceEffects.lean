import IamService.CacheKeys
import IamService.DatabaseSchema
import IamService.EffectPrograms
import IamService.ExpiringStore

/-!
# The operations the service is written against

The traits of `iam-core` are the signature of the service's programs: each method of a
repository, of the cache, of the event bus and of the blockchain is one operation, and
so is everything else that is not computed from the arguments (identifiers, keys, the
clock, salted hashing, signing). One operation is one atomic step: a single statement,
a single transaction or a single command.

`World` is the state these operations act on. `Choice` collects what the service does
not control during one operation: whether the infrastructure fails, how much time has
passed, what landed on chain, which rows and random values come back.

A statement of the database, a command of the cache or a publication that fails has not been
executed. Only a transaction that was submitted to the chain may land although its answer was
lost, and for the outbox, which has a signature of its own, a statement may have been executed
although its reply was lost.
-/

namespace IamService
open EffectPrograms ExpiringStore

/-- Functions of third-party code and of the standard library that the service calls. -/
structure Libraries where
  uuidToString : Uuid → String
  /-- `str::to_lowercase`. -/
  toLowercase : String → String
  /-- `lower` under the collation of the database. -/
  pgLower : String → String
  /-- `BlockchainService::parse_pubkey`. -/
  parsePubkey : String → Except String Pubkey
  /-- `Pubkey::from_str`. -/
  pubkeyFromStr : String → Except String Pubkey
  pubkeyToString : Pubkey → String
  /-- `Pubkey::find_program_address` for the seeds `user` and an authority. -/
  findProgramAddress : Pubkey → Pubkey → Pubkey
  keypairPubkey : Keypair → Pubkey
  /-- `CURRENT_KDF_VERSION`. -/
  currentKdfVersion : ℕ
  encryptPrivateKey : String → String → Keypair → ℕ → Except String KeyMaterial
  decryptPrivateKey : String → String → KeyMaterial → Option Keypair
  argon2Hash : String → ℕ → Except String String
  argon2Verify : String → String → Except String Bool
  bcryptVerify : String → String → Except String Bool
  /-- The text of a JSON decoding error. -/
  serdeMessage : String

/-- What the service relies on in the functions for keys: the text of a key is base-58 of
at most 44 characters and is read back as the key, and decryption undoes encryption. -/
structure KeyLaws (lib : Libraries) : Prop where
  parse_text : ∀ pk, lib.parsePubkey (lib.pubkeyToString pk) = .ok pk
  text_length : ∀ pk, (lib.pubkeyToString pk).toList.length ≤ 44
  decrypt_encrypt : ∀ s t keypair salt key, lib.encryptPrivateKey s t keypair salt = .ok key →
    lib.decryptPrivateKey s t key = some keypair

structure AuthService where
  config : Config
  lib : Libraries

/-- What a Registry account records of the transaction that created it. -/
structure Registration where
  userType : UserType
  latE7 : Int32
  longE7 : Int32
  h3Index : UInt64
  shardId : UInt8
  deriving DecidableEq

/-- The Registry as the service sees it: the accounts that exist, each with the
registration that created it, and the transactions submitted so far. -/
structure Chain where
  accounts : List (Pubkey × Registration)
  submitted : List (Pubkey × Registration)

namespace Chain

def registration (ch : Chain) (pda : Pubkey) : Option Registration :=
  (ch.accounts.find? (fun a => a.1 = pda)).map Prod.snd

/-- The Registry rejects a second registration of an account. -/
def create (ch : Chain) (a : Pubkey × Registration) : Chain :=
  if (ch.registration a.1).isSome then ch else { ch with accounts := ch.accounts ++ [a] }

/-- Land the transactions at the given positions, then the accounts others created. -/
def advance (ch : Chain) (lands : List ℕ) (foreign : List (Pubkey × Registration)) : Chain :=
  (lands.filterMap (fun i => ch.submitted[i]?) ++ foreign).foldl create ch

end Chain

/-- Values kept in the cache; the source stores their JSON text. -/
inductive CacheValue where
  | profile (u : UserWithHash)
  | flag (b : Bool)
  | text (s : String)
  | number (n : ℕ)
  deriving DecidableEq

/-- The arguments of a detached on-chain registration. -/
structure RegistrationTask where
  userId : Uuid
  pubkey : Pubkey
  walletAddress : String
  userType : UserType
  latitude : Int32
  longitude : Int32
  deriving DecidableEq

structure World (lower : String → String) where
  now : ℕ
  db : Database lower
  cache : Store String CacheValue
  chain : Chain
  events : List Event
  /-- Every access token signed so far. -/
  issued : List Jwt
  /-- Every detached task spawned so far. -/
  tasks : List RegistrationTask

/-- The environment's part in one operation. -/
structure Choice where
  /-- The infrastructure refuses the operation. -/
  fails : Bool := false
  errorText : String := ""
  /-- Time that passes before the operation. -/
  elapsed : ℕ := 0
  /-- Submitted transactions that land before the operation, by position. -/
  lands : List ℕ := []
  /-- Accounts that somebody else creates before the operation. -/
  foreign : List (Pubkey × Registration) := []
  /-- Which of several matching rows `LIMIT 1` returns. -/
  pick : ℕ := 0
  uuid : Uuid := ⟨0⟩
  random : ℕ := 0
  keypair : Keypair := ⟨0⟩
  /-- The registration transaction reaches the network, whatever is answered. -/
  submits : Bool := false
  signature : String := ""
  /-- The account lookup sees an account that exists. -/
  sees : Bool := true

inductive UserOp where
  | findByUsernameOrEmail (identity : String)
  | findById (id : Uuid)
  | create (newUser : NewUser)
  | verifyEmail (email : String)
  | setWalletAddress (userId : Uuid) (address : String)
  | findEmailByToken (token : String)
  | findVerificationStateByEmail (email : String)
  | setVerificationToken (userId : Uuid) (token : String)
  | updatePassword (email passwordHash : String)
  | markUserOnboarded (userId : Uuid) (userType : String) (lat long : Int32)
      (pda signature : String)

@[reducible] def UserOp.Ans : UserOp → Type
  | .findByUsernameOrEmail _ => Result (Option UserWithHash)
  | .findById _ => Result (Option User)
  | .create _ => Result Unit
  | .verifyEmail _ => Result (Option User)
  | .setWalletAddress _ _ => Result Unit
  | .findEmailByToken _ => Result (Option String)
  | .findVerificationStateByEmail _ => Result (Option EmailVerificationState)
  | .setVerificationToken _ _ => Result Unit
  | .updatePassword _ _ => Result ℕ
  | .markUserOnboarded _ _ _ _ _ _ => Result Unit

inductive WalletOp where
  | listByUserId (userId : Uuid)
  | findByIdAndUserId (id userId : Uuid)
  | setPrimary (userId walletId : Uuid)
  | deleteIfNotPrimary (userId walletId : Uuid)
  | exists (userId walletId : Uuid)
  | hasAnyWallet (userId : Uuid)
  | clearPrimary (userId : Uuid)
  | insert (userId : Uuid) (walletAddress : String) (label : Option String) (isPrimary : Bool)
  | findPrimaryAddress (userId : Uuid)
  | markRegistered (userId : Uuid) (address signature : String)
  | persistCustodialWallet (userId : Uuid) (walletAddress : String) (label : Option String)
      (key : KeyMaterial) (kdfVersion : ℕ)

@[reducible] def WalletOp.Ans : WalletOp → Type
  | .listByUserId _ => Result (List UserWallet)
  | .findByIdAndUserId _ _ => Result (Option UserWallet)
  | .setPrimary _ _ => Result (Option UserWallet)
  | .deleteIfNotPrimary _ _ => Result Bool
  | .exists _ _ => Result Bool
  | .hasAnyWallet _ => Result Bool
  | .clearPrimary _ => Result Unit
  | .insert _ _ _ _ => Result UserWallet
  | .findPrimaryAddress _ => Result (Option String)
  | .markRegistered _ _ _ => Result Unit
  | .persistCustodialWallet _ _ _ _ _ => Result UserWallet

inductive CacheOp where
  | getValue (key : String)
  | setValue (key : String) (value : CacheValue) (ttlSecs : Option ℕ)
  | delete (key : String)
  | increment (key : String)
  | incrementWithTtl (key : String) (ttlSecs : ℕ)
  | exists (key : String)

@[reducible] def CacheOp.Ans : CacheOp → Type
  | .getValue _ => Result (Option CacheValue)
  | .setValue _ _ _ => Result Unit
  | .delete _ => Result Unit
  | .increment _ => Result ℕ
  | .incrementWithTtl _ _ => Result ℕ
  | .exists _ => Result Bool

inductive BusOp where
  | publish (event : Event)
  | publishBatch (events : List Event)

inductive ChainOp where
  | registerUserOnChain (authority : Pubkey) (userType : UserType) (latE7 longE7 : Int32)
      (h3Index : UInt64) (shardId : UInt8)
  | accountExists (pda : Pubkey)

@[reducible] def ChainOp.Ans : ChainOp → Type
  | .registerUserOnChain _ _ _ _ _ _ => Result String
  | .accountExists _ => Result Bool

/-- Work of the service process itself that is not a function of its arguments. -/
inductive HostOp where
  | newUuid
  | clock
  | createKeypair
  | encryptPrivateKey (keypair : Keypair)
  | hashPassword (password : String)
  | verifyPassword (password hash : String)
  | encodeToken (claims : Claims)
  | decodeToken (token : Jwt)
  | sleep (ms : ℕ)
  | spawn (task : RegistrationTask)

@[reducible] def HostOp.Ans : HostOp → Type
  | .newUuid => Uuid
  | .clock => ℕ
  | .createKeypair => Keypair
  | .encryptPrivateKey _ => Except String KeyMaterial
  | .hashPassword _ => Result String
  | .verifyPassword _ _ => Result Bool
  | .encodeToken _ => Result Jwt
  | .decodeToken _ => Result Claims
  | .sleep _ => Unit
  | .spawn _ => Unit

inductive Op where
  | user (q : UserOp)
  | wallet (q : WalletOp)
  | cache (q : CacheOp)
  | bus (q : BusOp)
  | chain (q : ChainOp)
  | host (q : HostOp)

@[reducible] def Op.Ans : Op → Type
  | .user q => q.Ans
  | .wallet q => q.Ans
  | .cache q => q.Ans
  | .bus _ => Result Unit
  | .chain q => q.Ans
  | .host q => q.Ans

abbrev Program (α : Type) := Prog Op.Ans α

/-- A method body: operations, with `?` on their errors. -/
abbrev Method (α : Type) := Fallible Op.Ans ApiError α

def userRepo (q : UserOp) : Program q.Ans := .eff (.user q) .ret

def walletRepo (q : WalletOp) : Program q.Ans := .eff (.wallet q) .ret

def cache (q : CacheOp) : Program q.Ans := .eff (.cache q) .ret

def eventBus (q : BusOp) : Program (Result Unit) := .eff (.bus q) .ret

def blockchain (q : ChainOp) : Program q.Ans := .eff (.chain q) .ret

def host (q : HostOp) : Program q.Ans := .eff (.host q) .ret

end IamService
