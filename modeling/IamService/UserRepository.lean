import IamService.ServiceEffects

/-!
# Statements and the users repository

A statement is refused when the database is unavailable, when a text parameter holds a
NUL character, when a value does not fit its column, or when the tables would violate a
constraint; a refused statement changes nothing. The reply of an executed statement is never
lost here.
-/

namespace IamService
open RelationTables

/-- Postgres accepts no NUL character in a text. -/
def sqlText (s : String) : Bool := !s.toList.contains (Char.ofNat 0)

/-- A public key is written in base-58 characters, none of which is NUL. -/
def KeyCharacters (lib : Libraries) : Prop :=
  ∀ s pk, lib.parsePubkey s = .ok pk → sqlText s = true

/-- Assignment to a `VARCHAR(n)` column: too long a text is an error unless the excess
consists of spaces, which are cut off. -/
def fit (n : ℕ) (s : String) : Except DbError String :=
  if s.toList.length ≤ n then .ok s
  else if (s.toList.drop n).all (· = ' ') then .ok (String.ofList (s.toList.take n))
  else .error .invalidValue

def fitOption (n : ℕ) : Option String → Except DbError (Option String)
  | none => .ok none
  | some s => (fit n s).map some

theorem fit_of_le {n : ℕ} {s : String} (h : s.toList.length ≤ n) : fit n s = .ok s := if_pos h

theorem fit_text {n : ℕ} {s t : String} (h : fit n s = .ok t) (hs : sqlText s = true) :
    sqlText t = true ∧ t.toList.length ≤ n := by
  unfold fit at h
  split at h
  · cases h
    exact ⟨hs, ‹_›⟩
  · split at h
    · cases h
      refine ⟨?_, by simp⟩
      simp only [sqlText, Bool.not_eq_true', List.contains_eq_mem, decide_eq_false_iff_not,
        String.toList_ofList] at hs ⊢
      exact fun hmem => hs (List.mem_of_mem_take hmem)
    · cases h

/-- A query with text parameters and its answer, if the database gives one. -/
def select {α : Type} (c : Choice) (params : List String) (answer : α) : Result α :=
  if c.fails then .error (.database .unavailable c.errorText)
  else if params.all sqlText then .ok answer
  else .error (.database .invalidValue c.errorText)

/-- A statement or transaction: its effect is kept if the whole of it succeeds. -/
def execute {α : Type} {lower : String → String} (c : Choice) (params : List String)
    (db : Database lower) (body : Except DbError (α × Database lower)) :
    Result α × Database lower :=
  match select c params () with
  | .error e => (.error e, db)
  | .ok () => match body with
    | .error e => (.error (.database e c.errorText), db)
    | .ok (a, db') => (.ok a, db')

/-- The first step of a statement's body succeeded, and so did the rest. -/
theorem bind_eq_ok {ε α β : Type} {x : Except ε α} {f : α → Except ε β} {b : β} :
    (x >>= f) = .ok b ↔ ∃ a, x = .ok a ∧ f a = .ok b := by
  cases x with
  | error e => simp [Bind.bind, Except.bind]
  | ok a => simp [Bind.bind, Except.bind]

theorem pure_eq_ok {ε α : Type} {a b : α} : (pure a : Except ε α) = .ok b ↔ a = b := by
  simp [pure, Except.pure]

theorem select_nil {α : Type} (c : Choice) (a : α) :
    select c [] a = if c.fails then .error (.database .unavailable c.errorText) else .ok a := by
  simp [select]

theorem select_ok {α : Type} {c : Choice} {params : List String} {a b : α}
    (h : select c params a = .ok b) : b = a ∧ c.fails = false ∧ params.all sqlText = true := by
  unfold select at h
  split at h
  · cases h
  · rename_i hf
    split at h
    · rename_i hp
      cases h
      exact ⟨rfl, by simpa using hf, hp⟩
    · cases h

/-- A refused statement leaves the database as it was; any other does what its body says. -/
theorem execute_cases {α : Type} {lower : String → String} (c : Choice) (params : List String)
    (db : Database lower) (body : Except DbError (α × Database lower)) :
    (∃ e, execute c params db body = (.error e, db)) ∨
      ∃ a db', body = .ok (a, db') ∧ execute c params db body = (.ok a, db') := by
  unfold execute
  split
  · exact .inl ⟨_, rfl⟩
  · split
    · exact .inl ⟨_, rfl⟩
    · exact .inr ⟨_, _, rfl, rfl⟩

/-- What a statement that succeeds has done. -/
theorem execute_ok {α : Type} {lower : String → String} {c : Choice} {params : List String}
    {db : Database lower} {body : Except DbError (α × Database lower)} {a : α}
    (h : (execute c params db body).1 = .ok a) :
    body = .ok (a, (execute c params db body).2) := by
  rcases execute_cases c params db body with ⟨e, he⟩ | ⟨a', db', hb, he⟩
  · rw [he] at h; cases h
  · rw [he] at h ⊢; cases h; exact hb

theorem execute_error {α : Type} {lower : String → String} {c : Choice} {params : List String}
    {db : Database lower} {body : Except DbError (α × Database lower)} {e : ApiError}
    (h : (execute c params db body).1 = .error e) : (execute c params db body).2 = db := by
  rcases execute_cases c params db body with ⟨e', he⟩ | ⟨a, db', -, he⟩
  · rw [he]
  · rw [he] at h; cases h

/-- A statement whose parameters are texts, and whose body succeeds, succeeds. -/
theorem execute_of_ok {α : Type} {lower : String → String} {c : Choice} {params : List String}
    {db db' : Database lower} {body : Except DbError (α × Database lower)} {a : α}
    (hf : c.fails = false) (hp : params.all sqlText = true) (h : body = .ok (a, db')) :
    execute c params db body = (.ok a, db') := by simp [execute, select, hf, hp, h]

/-- The statement got as far as its body only if the database was there. -/
theorem execute_available {α : Type} {lower : String → String} {c : Choice}
    {params : List String} {db : Database lower} {body : Except DbError (α × Database lower)}
    {a : α} (h : (execute c params db body).1 = .ok a) :
    c.fails = false ∧ params.all sqlText = true := by
  unfold execute at h
  split at h
  · cases h
  · rename_i hs
    exact (select_ok hs).2

/-- The roles of the type `user_role`. -/
def userRoles : List String := ["user", "admin", "prosumer", "consumer", "corporate"]

/-- The row that `create` inserts: columns it does not name keep their defaults. -/
def newUserRow (now : ℕ) (newUser : NewUser) : UserRow where
  id := newUser.id
  username := newUser.username
  email := newUser.email
  passwordHash := newUser.passwordHash
  role := newUser.role
  firstName := newUser.firstName
  lastName := newUser.lastName
  walletAddress := none
  isActive := false
  blockchainRegistered := false
  userType := none
  latitude := none
  longitude := none
  kdfVersion := 1
  emailVerified := false
  emailVerificationToken := newUser.verificationToken
  emailVerificationExpiresAt := newUser.verificationToken.map (fun _ => now + secs (24 * 3600))
  keyMaterial := none
  userAccountPda := none
  blockchainTxSignature := none
  blockchainStatus := "pending"

/-- The new user with every text cut to its column. -/
def NewUser.fitted (newUser : NewUser) : Except DbError NewUser := do
  let username ← fit 50 newUser.username
  let email ← fit 255 newUser.email
  let passwordHash ← fit 255 newUser.passwordHash
  let firstName ← fitOption 100 newUser.firstName
  let lastName ← fitOption 100 newUser.lastName
  let verificationToken ← fitOption 128 newUser.verificationToken
  if newUser.role ∈ userRoles then
    return ⟨newUser.id, username, email, passwordHash, newUser.role, firstName, lastName,
      verificationToken⟩
  else throw .invalidValue

/-- Cutting the texts keeps the id, and the token if it fits its column. -/
theorem NewUser.fitted_token {newUser fitted : NewUser} (h : newUser.fitted = .ok fitted) :
    fitted.id = newUser.id ∧ fitOption 128 newUser.verificationToken = .ok fitted.verificationToken := by
  unfold NewUser.fitted at h
  simp only [bind_eq_ok] at h
  obtain ⟨username, -, email, -, passwordHash, -, firstName, -, lastName, -, token, htoken, h⟩ := h
  split at h
  · cases h
    exact ⟨rfl, htoken⟩
  · cases h

theorem NewUser.fitted_identifiers {newUser fitted : NewUser} (h : newUser.fitted = .ok fitted) :
    fit 50 newUser.username = .ok fitted.username ∧ fit 255 newUser.email = .ok fitted.email := by
  unfold NewUser.fitted at h
  simp only [bind_eq_ok] at h
  obtain ⟨username, hname, email, hmail, passwordHash, -, firstName, -, lastName, -, token, -, h⟩ := h
  split at h
  · cases h
    exact ⟨hname, hmail⟩
  · cases h

def NewUser.texts (newUser : NewUser) : List String :=
  [newUser.username, newUser.email, newUser.passwordHash, newUser.role] ++
    newUser.firstName.toList ++ newUser.lastName.toList ++ newUser.verificationToken.toList

namespace UserRepository

variable {lower : String → String}

/-- The rows a login identifier names. -/
def named (identity : String) (r : UserRow) : Bool :=
  (r.username = identity ∨ r.email = identity) ∧ r.isActive

/-- The rows whose email is the given one up to letter case. -/
def addressed (lower : String → String) (email : String) (r : UserRow) : Bool :=
  lower r.email = lower email

/-- A row holds an unexpired verification token. -/
def holdsToken (now : ℕ) (token : String) (r : UserRow) : Bool :=
  r.emailVerificationToken = some token ∧ r.emailVerificationExpiresAt.any (fun t => now < t)

def create (c : Choice) (now : ℕ) (db : Database lower) (newUser : NewUser) :
    Result Unit × Database lower :=
  execute c newUser.texts db do
    let fitted ← newUser.fitted
    let db' ← Database.commit (db.users ++ [newUserRow now fitted]) db.wallets
    return ((), db')

/-- `UPDATE users SET is_active = true, email_verified = true WHERE email = $1`. -/
def activate (db : Database lower) (email : String) : Database lower :=
  db.updateUsers (fun r => r.email = email)
    (fun r => { r with isActive := true, emailVerified := true })
    (fun _ => ⟨rfl, rfl, rfl, rfl⟩)

def verifyEmail (c : Choice) (db : Database lower) (email : String) :
    Result (Option User) × Database lower :=
  execute c [email] db
    (.ok ((((activate db email).users.find? (fun r => r.email = email)).map UserRow.intoDomain),
      activate db email))

def setWalletAddress (c : Choice) (db : Database lower) (userId : Uuid) (address : String) :
    Result Unit × Database lower :=
  execute c [address] db do
    let address ← fit 88 address
    let db' ← Database.commit (updateWhere (fun r => r.id = userId)
      (fun r => { r with walletAddress := some address }) db.users) db.wallets
    return ((), db')

def setVerificationToken (c : Choice) (now : ℕ) (db : Database lower) (userId : Uuid)
    (token : String) : Result Unit × Database lower :=
  execute c [token] db do
    let token ← fit 128 token
    return ((), db.updateUsers (fun r => r.id = userId)
      (fun r => { r with
        emailVerificationToken := some token
        emailVerificationExpiresAt := some (now + secs (24 * 3600)) })
      (fun _ => ⟨rfl, rfl, rfl, rfl⟩))

def updatePassword (c : Choice) (db : Database lower) (email passwordHash : String) :
    Result ℕ × Database lower :=
  execute c [email, passwordHash] db do
    let passwordHash ← fit 255 passwordHash
    return ((db.users.filter (fun r => addressed lower email r && r.isActive)).length,
      db.updateUsers (fun r => addressed lower email r && r.isActive)
        (fun r => { r with passwordHash := passwordHash })
        (fun _ => ⟨rfl, rfl, rfl, rfl⟩))

/-- The status trigger leaves a status other than `pending` alone. -/
def markUserOnboarded (c : Choice) (db : Database lower) (userId : Uuid) (userType : String)
    (lat long : Int32) (pda signature : String) : Result Unit × Database lower :=
  execute c [userType, pda, signature] db do
    let userType ← fit 20 userType
    let pda ← fit 88 pda
    let signature ← fit 88 signature
    return ((), db.updateUsers (fun r => r.id = userId)
      (fun r => { r with
        blockchainRegistered := true
        userType := some userType
        latitude := some lat
        longitude := some long
        userAccountPda := some pda
        blockchainTxSignature := some signature
        blockchainStatus := "confirmed" })
      (fun _ => ⟨rfl, rfl, rfl, rfl⟩))

def findVerificationStateByEmail (now : ℕ) (pick : ℕ) (db : Database lower) (email : String) :
    Option EmailVerificationState :=
  (limitOne pick (addressed lower email) db.users).map fun r =>
    { userId := r.id
      username := r.username
      emailVerified := r.emailVerified
      -- an expired token is reported as absent
      verificationToken := if r.emailVerificationExpiresAt.any (fun t => now < t)
        then r.emailVerificationToken else none }

/-- The users repository, one statement for each operation. -/
def handle (c : Choice) (now : ℕ) (db : Database lower) : (q : UserOp) → q.Ans × Database lower
  | .findByUsernameOrEmail identity =>
    (select c [identity] ((limitOne c.pick (named identity) db.users).map
      UserRow.intoDomainWithHash), db)
  | .findById id =>
    (select c [] ((limitOne c.pick (fun r => r.id = id ∧ r.isActive) db.users).map
      UserRow.intoDomain), db)
  | .create newUser => create c now db newUser
  | .verifyEmail email => verifyEmail c db email
  | .setWalletAddress userId address => setWalletAddress c db userId address
  | .findEmailByToken token =>
    (select c [token] ((limitOne c.pick (holdsToken now token) db.users).map UserRow.email), db)
  | .findVerificationStateByEmail email =>
    (select c [email] (findVerificationStateByEmail now c.pick db email), db)
  | .setVerificationToken userId token => setVerificationToken c now db userId token
  | .updatePassword email passwordHash => updatePassword c db email passwordHash
  | .markUserOnboarded userId userType lat long pda signature =>
    markUserOnboarded c db userId userType lat long pda signature

end UserRepository

end IamService
