import IamService.IdentityModels
import IamService.RelationTables

/-!
# The tables `users` and `user_wallets`

Rows carry the columns that the service reads or decides on. A `Database` holds both
tables together with the proof that they satisfy the constraints of the migrations:
unique id, username, email, `lower(email)` and wallet address of a user, unique id and
address of a wallet, at most one primary wallet of a user, and the reference from a
wallet to its owner. A statement that would break one of them has no database to
return and is refused instead.
-/

namespace IamService
open RelationTables

structure UserRow where
  id : Uuid
  username : String
  email : String
  passwordHash : String
  role : String
  firstName : Option String
  lastName : Option String
  walletAddress : Option String
  isActive : Bool
  blockchainRegistered : Bool
  userType : Option String
  latitude : Option Int32
  longitude : Option Int32
  kdfVersion : ℕ
  emailVerified : Bool
  emailVerificationToken : Option String
  emailVerificationExpiresAt : Option ℕ
  /-- The columns `encrypted_private_key`, `wallet_salt` and `encryption_iv`, which are
  only ever written together. -/
  keyMaterial : Option KeyMaterial
  userAccountPda : Option String
  blockchainTxSignature : Option String
  blockchainStatus : String
  deriving DecidableEq

structure WalletRow where
  id : Uuid
  userId : Uuid
  walletAddress : String
  label : Option String
  isPrimary : Bool
  verified : Bool
  blockchainRegistered : Bool
  userAccountPda : Option String
  shardId : Option Int16
  blockchainTxSignature : Option String
  createdAt : ℕ
  deriving DecidableEq

namespace UserRow

def intoDomain (r : UserRow) : User where
  id := r.id
  username := r.username
  email := r.email
  role := r.role
  firstName := r.firstName
  lastName := r.lastName
  walletAddress := r.walletAddress
  -- the source sets the flag on every row it fetches
  isActive := true
  blockchainRegistered := r.blockchainRegistered
  userType := r.userType.bind fun s =>
    if s = "Prosumer" ∨ s = "0" then some .prosumer
    else if s = "Consumer" ∨ s = "1" then some .consumer
    else none
  latitude := r.latitude
  longitude := r.longitude

def intoDomainWithHash (r : UserRow) : UserWithHash := ⟨r.intoDomain, r.passwordHash⟩

@[simp] theorem intoDomain_id (r : UserRow) : r.intoDomain.id = r.id := rfl

@[simp] theorem intoDomainWithHash_id (r : UserRow) : r.intoDomainWithHash.user.id = r.id := rfl

@[simp] theorem intoDomainWithHash_hash (r : UserRow) :
    r.intoDomainWithHash.passwordHash = r.passwordHash := rfl

@[simp] theorem intoDomainWithHash_username (r : UserRow) :
    r.intoDomainWithHash.user.username = r.username := rfl

/-- Two versions of a row that agree on every column under a constraint. -/
structure SameKeys (r s : UserRow) : Prop where
  id : r.id = s.id
  username : r.username = s.username
  email : r.email = s.email
  walletAddress : r.walletAddress = s.walletAddress

end UserRow

namespace WalletRow

def intoDomain (r : WalletRow) : UserWallet where
  id := r.id
  userId := r.userId
  walletAddress := r.walletAddress
  label := r.label
  isPrimary := r.isPrimary
  verified := r.verified
  blockchainRegistered := r.blockchainRegistered
  userAccountPda := r.userAccountPda
  shardId := r.shardId.map (fun v => v.toInt8.toUInt8)
  blockchainTxSignature := r.blockchainTxSignature
  createdAt := r.createdAt

/-- Two versions of a row that agree on every column under a constraint, the first
being primary only if the second is. -/
structure SameKeys (r s : WalletRow) : Prop where
  id : r.id = s.id
  userId : r.userId = s.userId
  walletAddress : r.walletAddress = s.walletAddress
  isPrimary : r.isPrimary = true → s.isPrimary = true

end WalletRow

/-- The unique constraints and unique indexes of the migrations. -/
structure Unique (lower : String → String) (users : List UserRow) (wallets : List WalletRow) :
    Prop where
  userId : (users.map (·.id)).Nodup
  username : (users.map (·.username)).Nodup
  email : (users.map (·.email)).Nodup
  emailLower : (users.map (fun r => lower r.email)).Nodup
  userWallet : (users.filterMap (·.walletAddress)).Nodup
  walletId : (wallets.map (·.id)).Nodup
  walletAddress : (wallets.map (·.walletAddress)).Nodup
  primary : ((wallets.filter (·.isPrimary)).map (·.userId)).Nodup

instance (lower : String → String) (users : List UserRow) (wallets : List WalletRow) :
    Decidable (Unique lower users wallets) :=
  decidable_of_iff
    ((users.map (·.id)).Nodup ∧ (users.map (·.username)).Nodup ∧ (users.map (·.email)).Nodup ∧
      (users.map (fun r => lower r.email)).Nodup ∧ (users.filterMap (·.walletAddress)).Nodup ∧
      (wallets.map (·.id)).Nodup ∧ (wallets.map (·.walletAddress)).Nodup ∧
      ((wallets.filter (·.isPrimary)).map (·.userId)).Nodup)
    ⟨fun ⟨a, b, c, d, e, f, g, h⟩ => ⟨a, b, c, d, e, f, g, h⟩,
      fun ⟨a, b, c, d, e, f, g, h⟩ => ⟨a, b, c, d, e, f, g, h⟩⟩

/-- The foreign key of `user_wallets.user_id`. -/
def References (users : List UserRow) (wallets : List WalletRow) : Prop :=
  ∀ w ∈ wallets, w.userId ∈ users.map (·.id)

instance (users : List UserRow) (wallets : List WalletRow) : Decidable (References users wallets) :=
  inferInstanceAs (Decidable (∀ w ∈ wallets, w.userId ∈ users.map (·.id)))

/-- Both tables, within their constraints. -/
structure Database (lower : String → String) where
  users : List UserRow
  wallets : List WalletRow
  unique : Unique lower users wallets
  references : References users wallets

namespace Database

variable {lower : String → String}

def empty (lower : String → String) : Database lower :=
  ⟨[], [], by constructor <;> simp, by simp [References]⟩

/-- The constraint check at the end of a statement: a violated unique constraint is
reported before a violated reference. -/
def commit (users : List UserRow) (wallets : List WalletRow) : Except DbError (Database lower) :=
  if hu : Unique lower users wallets then
    if hr : References users wallets then .ok ⟨users, wallets, hu, hr⟩
    else .error .foreignKeyViolation
  else .error .uniqueViolation

theorem commit_of_valid {users : List UserRow} {wallets : List WalletRow}
    (hu : Unique lower users wallets) (hr : References users wallets) :
    (commit users wallets : Except DbError (Database lower)) = .ok ⟨users, wallets, hu, hr⟩ := by
  simp [commit, hu, hr]

theorem commit_tables {users : List UserRow} {wallets : List WalletRow} {db : Database lower}
    (h : commit users wallets = .ok db) : db.users = users ∧ db.wallets = wallets := by
  unfold commit at h
  split at h
  · split at h
    · cases h; exact ⟨rfl, rfl⟩
    · cases h
  · cases h

private theorem filterMap_updateWhere {p : UserRow → Bool} {f : UserRow → UserRow}
    (rows : List UserRow) (h : ∀ r, (f r).walletAddress = r.walletAddress) :
    (updateWhere p f rows).filterMap (·.walletAddress) = rows.filterMap (·.walletAddress) := by
  have hm := congrArg (List.filterMap id) (map_updateWhere (p := p) (·.walletAddress) rows h)
  simpa only [List.filterMap_map, Function.id_comp] using hm

/-- `UPDATE users` of columns without constraints. -/
def updateUsers (db : Database lower) (p : UserRow → Bool) (f : UserRow → UserRow)
    (hf : ∀ r, (f r).SameKeys r) : Database lower where
  users := updateWhere p f db.users
  wallets := db.wallets
  unique := by
    have h := db.unique
    exact {
      userId := by rw [map_updateWhere _ _ (fun r => (hf r).id)]; exact h.userId
      username := by rw [map_updateWhere _ _ (fun r => (hf r).username)]; exact h.username
      email := by rw [map_updateWhere _ _ (fun r => (hf r).email)]; exact h.email
      emailLower := by
        rw [map_updateWhere (fun r : UserRow => lower r.email) _
          (fun r => congrArg lower (hf r).email)]
        exact h.emailLower
      userWallet := by
        rw [filterMap_updateWhere _ (fun r => (hf r).walletAddress)]; exact h.userWallet
      walletId := h.walletId
      walletAddress := h.walletAddress
      primary := h.primary }
  references := by
    intro w hw
    rw [map_updateWhere _ _ (fun r => (hf r).id)]
    exact db.references w hw

private theorem primary_sublist {p : WalletRow → Bool} {g : WalletRow → WalletRow}
    (rows : List WalletRow) (hg : ∀ r, (g r).SameKeys r) :
    (((updateWhere p g rows).filter (·.isPrimary)).map (·.userId)).Sublist
      ((rows.filter (·.isPrimary)).map (·.userId)) := by
  induction rows with
  | nil => simp [updateWhere]
  | cons r rows ih =>
    have hs : ((if p r then g r else r) : WalletRow).SameKeys r := by
      split
      · exact hg r
      · exact ⟨rfl, rfl, rfl, id⟩
    simp only [updateWhere, List.map_cons, List.filter_cons] at ih ⊢
    by_cases hq : (if p r then g r else r).isPrimary = true
    · simp only [hq, hs.isPrimary hq, if_true, List.map_cons, hs.userId]
      exact ih.cons_cons _
    · by_cases hr : r.isPrimary = true
      · simp only [hq, hr, if_true, List.map_cons]
        exact ih.cons _
      · simpa only [hq, hr, if_false, Bool.false_eq_true] using ih

/-- `UPDATE user_wallets` that promotes no wallet. -/
def updateWallets (db : Database lower) (p : WalletRow → Bool) (g : WalletRow → WalletRow)
    (hg : ∀ r, (g r).SameKeys r) : Database lower where
  users := db.users
  wallets := updateWhere p g db.wallets
  unique := by
    have h := db.unique
    exact {
      userId := h.userId
      username := h.username
      email := h.email
      emailLower := h.emailLower
      userWallet := h.userWallet
      walletId := by rw [map_updateWhere _ _ (fun r => (hg r).id)]; exact h.walletId
      walletAddress := by
        rw [map_updateWhere _ _ (fun r => (hg r).walletAddress)]; exact h.walletAddress
      primary := h.primary.sublist (primary_sublist db.wallets hg) }
  references := by
    intro w hw
    obtain ⟨r, hr, rfl⟩ := mem_updateWhere.mp hw
    have hid : (if p r then g r else r : WalletRow).userId = r.userId := by
      split
      · exact (hg r).userId
      · rfl
    rw [hid]
    exact db.references r hr

/-- `DELETE FROM user_wallets`, keeping the rows that satisfy `p`. -/
def keepWallets (db : Database lower) (p : WalletRow → Bool) : Database lower where
  users := db.users
  wallets := db.wallets.filter p
  unique := by
    have h := db.unique
    exact {
      userId := h.userId
      username := h.username
      email := h.email
      emailLower := h.emailLower
      userWallet := h.userWallet
      walletId := h.walletId.sublist (List.filter_sublist.map _)
      walletAddress := h.walletAddress.sublist (List.filter_sublist.map _)
      primary := h.primary.sublist ((List.filter_sublist.filter _).map _) }
  references := fun w hw => db.references w (List.mem_filter.mp hw).1

/-- Rows of a user are determined by the user's id. -/
theorem user_eq_of_id (db : Database lower) {r s : UserRow} (hr : r ∈ db.users)
    (hs : s ∈ db.users) (h : r.id = s.id) : r = s := eq_of_key _ db.unique.userId hr hs h

theorem user_eq_of_email (db : Database lower) {r s : UserRow} (hr : r ∈ db.users)
    (hs : s ∈ db.users) (h : r.email = s.email) : r = s := eq_of_key _ db.unique.email hr hs h

theorem user_eq_of_emailLower (db : Database lower) {r s : UserRow} (hr : r ∈ db.users)
    (hs : s ∈ db.users) (h : lower r.email = lower s.email) : r = s :=
  eq_of_key (fun r : UserRow => lower r.email) db.unique.emailLower hr hs h

/-- At most one wallet of a user is primary. -/
theorem primary_unique (db : Database lower) {r s : WalletRow} (hr : r ∈ db.wallets)
    (hs : s ∈ db.wallets) (hu : r.userId = s.userId) (hpr : r.isPrimary = true)
    (hps : s.isPrimary = true) : r = s :=
  eq_of_key (·.userId) db.unique.primary (List.mem_filter.mpr ⟨hr, hpr⟩)
    (List.mem_filter.mpr ⟨hs, hps⟩) hu

end Database

end IamService
