import IamService.UserRepository

/-!
# The wallets repository

`setPrimary` and `persistCustodialWallet` are transactions of several statements; every
other operation is one statement.
-/

namespace IamService.WalletRepository
open RelationTables

variable {lower : String → String}

def ownedBy (userId : Uuid) (r : WalletRow) : Bool := r.userId = userId

def isWallet (userId walletId : Uuid) (r : WalletRow) : Bool := r.id = walletId ∧ r.userId = userId

/-- `EXISTS(SELECT 1 FROM user_wallets WHERE user_id = $1)`. -/
def hasAnyWallet (db : Database lower) (userId : Uuid) : Bool := db.wallets.any (ownedBy userId)

/-- `UPDATE user_wallets SET is_primary = false WHERE user_id = $1`. -/
def demote (db : Database lower) (userId : Uuid) : Database lower :=
  db.updateWallets (ownedBy userId) (fun r => { r with isPrimary := false })
    (fun _ => ⟨rfl, rfl, rfl, by simp⟩)

def newWalletRow (c : Choice) (now : ℕ) (userId : Uuid) (walletAddress : String)
    (label : Option String) (isPrimary : Bool) : WalletRow where
  id := c.uuid
  userId := userId
  walletAddress := walletAddress
  label := label
  isPrimary := isPrimary
  verified := false
  blockchainRegistered := false
  userAccountPda := none
  shardId := none
  blockchainTxSignature := none
  createdAt := now

/-- The demotion of all wallets and the promotion of one, in one transaction that is
committed whether or not the second statement found a row. -/
def setPrimary (c : Choice) (db : Database lower) (userId walletId : Uuid) :
    Result (Option UserWallet) × Database lower :=
  execute c [] db do
    let demoted := demote db userId
    let db' ← Database.commit demoted.users (updateWhere (isWallet userId walletId)
      (fun r => { r with isPrimary := true }) demoted.wallets)
    return ((db'.wallets.find? (isWallet userId walletId)).map WalletRow.intoDomain, db')

def deleteIfNotPrimary (c : Choice) (db : Database lower) (userId walletId : Uuid) :
    Result Bool × Database lower :=
  execute c [] db (.ok
    (db.wallets.any (fun r => isWallet userId walletId r && !r.isPrimary),
      db.keepWallets (fun r => !(isWallet userId walletId r && !r.isPrimary))))

def clearPrimary (c : Choice) (db : Database lower) (userId : Uuid) :
    Result Unit × Database lower :=
  execute c [] db (.ok ((), demote db userId))

/-- The insertion statement, shared with the custodial transaction. -/
def insertRow (c : Choice) (now : ℕ) (db : Database lower) (userId : Uuid)
    (walletAddress : String) (label : Option String) (isPrimary : Bool) :
    Except DbError (WalletRow × Database lower) := do
  let walletAddress ← fit 64 walletAddress
  let label ← fitOption 50 label
  let row := newWalletRow c now userId walletAddress label isPrimary
  let db' ← Database.commit db.users (db.wallets ++ [row])
  return (row, db')

/-- A violated unique constraint is a conflict; any other refusal is a database error. -/
def insert (c : Choice) (now : ℕ) (db : Database lower) (userId : Uuid) (walletAddress : String)
    (label : Option String) (isPrimary : Bool) : Result UserWallet × Database lower :=
  let r := execute c (walletAddress :: label.toList) db
    (insertRow c now db userId walletAddress label isPrimary)
  match r.1 with
  | .ok row => (.ok row.intoDomain, r.2)
  | .error (.database .uniqueViolation _) =>
    (.error (.conflict ("Wallet address " ++ walletAddress ++ " is already linked")), r.2)
  | .error e => (.error e, r.2)

def findPrimaryAddress (pick : ℕ) (db : Database lower) (userId : Uuid) : Option String :=
  (limitOne pick (fun r => ownedBy userId r && r.isPrimary) db.wallets).map (·.walletAddress)

def markRegistered (c : Choice) (db : Database lower) (userId : Uuid)
    (address signature : String) : Result Unit × Database lower :=
  execute c [signature, address] db do
    let signature ← fit 128 signature
    return ((), db.updateWallets (fun r => r.userId = userId ∧ r.walletAddress = address)
      (fun r => { r with
        blockchainRegistered := true
        blockchainTxSignature := some signature })
      (fun _ => ⟨rfl, rfl, rfl, id⟩))

/-- Demotion, insertion and the key slot of the owner, in one transaction. -/
def persistCustodialWallet (c : Choice) (now : ℕ) (db : Database lower) (userId : Uuid)
    (walletAddress : String) (label : Option String) (key : KeyMaterial) (kdfVersion : ℕ) :
    Result UserWallet × Database lower :=
  execute c (walletAddress :: label.toList) db do
    let (row, inserted) ← insertRow c now (demote db userId) userId walletAddress label true
    let address ← fit 88 walletAddress
    let db' ← Database.commit (updateWhere (fun r => r.id = userId)
      (fun r => { r with
        keyMaterial := some key
        kdfVersion := kdfVersion
        walletAddress := some address }) inserted.users) inserted.wallets
    return (row.intoDomain, db')

/-- `ORDER BY is_primary DESC, created_at ASC`. -/
def listOrder (a b : WalletRow) : Bool :=
  (a.isPrimary && !b.isPrimary) || (a.isPrimary == b.isPrimary && a.createdAt ≤ b.createdAt)

/-- The wallets repository. -/
def handle (c : Choice) (now : ℕ) (db : Database lower) : (q : WalletOp) → q.Ans × Database lower
  | .listByUserId userId =>
    (select c [] (((db.wallets.filter (ownedBy userId)).mergeSort listOrder).map
      WalletRow.intoDomain), db)
  | .findByIdAndUserId id userId =>
    (select c [] ((db.wallets.find? (isWallet userId id)).map WalletRow.intoDomain), db)
  | .setPrimary userId walletId => setPrimary c db userId walletId
  | .deleteIfNotPrimary userId walletId => deleteIfNotPrimary c db userId walletId
  | .exists userId walletId => (select c [] (db.wallets.any (isWallet userId walletId)), db)
  | .hasAnyWallet userId => (select c [] (hasAnyWallet db userId), db)
  | .clearPrimary userId => clearPrimary c db userId
  | .insert userId walletAddress label isPrimary =>
    insert c now db userId walletAddress label isPrimary
  | .findPrimaryAddress userId => (select c [] (findPrimaryAddress c.pick db userId), db)
  | .markRegistered userId address signature => markRegistered c db userId address signature
  | .persistCustodialWallet userId walletAddress label key kdfVersion =>
    persistCustodialWallet c now db userId walletAddress label key kdfVersion

end IamService.WalletRepository
