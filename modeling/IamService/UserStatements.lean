import IamService.Infrastructure

/-!
# What the statements on `users` do

For each writing operation of the users repository, the rows the tables hold after it.
No operation of this repository touches a wallet.
-/

namespace IamService.UserRepository
open RelationTables

variable {lower : String → String} (c : Choice) (now : ℕ) (db : Database lower)

/-- A registration appends an inactive row, or does nothing. -/
theorem create_cases (newUser : NewUser) :
    (∃ e, create c now db newUser = (.error e, db)) ∨ ∃ fitted db', newUser.fitted = .ok fitted ∧
      create c now db newUser = (.ok (), db') ∧ db'.wallets = db.wallets ∧
      db'.users = db.users ++ [newUserRow now fitted] := by
  unfold create
  rcases execute_cases c newUser.texts db (do
    let fitted ← newUser.fitted
    let db' ← Database.commit (db.users ++ [newUserRow now fitted]) db.wallets
    return ((), db')) with h | ⟨a, db', hb, h⟩
  · exact .inl h
  · simp only [bind_eq_ok, pure_eq_ok] at hb
    obtain ⟨fitted, hf, db₁, hc, he⟩ := hb
    cases he
    obtain ⟨hus, hws⟩ := Database.commit_tables hc
    exact .inr ⟨fitted, db', hf, h, hws, hus⟩

/-- Verification activates the rows with exactly the given email. -/
theorem verifyEmail_cases (email : String) :
    (∃ e, verifyEmail c db email = (.error e, db)) ∨ verifyEmail c db email =
      (.ok (((activate db email).users.find? (fun r => r.email = email)).map UserRow.intoDomain),
        activate db email) := by
  unfold verifyEmail
  rcases execute_cases c [email] db (.ok ((((activate db email).users.find?
    (fun r => r.email = email)).map UserRow.intoDomain), activate db email)) with
    h | ⟨a, db', hb, h⟩
  · exact .inl h
  · cases hb
    exact .inr h

theorem setWalletAddress_cases (userId : Uuid) (address : String) :
    (∃ e, setWalletAddress c db userId address = (.error e, db)) ∨ ∃ text db',
      fit 88 address = .ok text ∧ setWalletAddress c db userId address = (.ok (), db') ∧
      db'.wallets = db.wallets ∧ db'.users = updateWhere (fun r => r.id = userId)
        (fun r => { r with walletAddress := some text }) db.users := by
  unfold setWalletAddress
  rcases execute_cases c [address] db (do
    let address ← fit 88 address
    let db' ← Database.commit (updateWhere (fun r => r.id = userId)
      (fun r => { r with walletAddress := some address }) db.users) db.wallets
    return ((), db')) with h | ⟨a, db', hb, h⟩
  · exact .inl h
  · simp only [bind_eq_ok, pure_eq_ok] at hb
    obtain ⟨text, hf, db₁, hc, he⟩ := hb
    cases he
    obtain ⟨hus, hws⟩ := Database.commit_tables hc
    exact .inr ⟨text, db', hf, h, hws, hus⟩

/-- An address that no other user has is unique once it is given to a user. -/
theorem userWallet_nodup {rows : List UserRow} (hid : (rows.map (·.id)).Nodup)
    (hwallet : (rows.filterMap (·.walletAddress)).Nodup) {userId : Uuid} {address : String}
    (hfree : ∀ u ∈ rows, u.id ≠ userId → u.walletAddress ≠ some address) :
    ((updateWhere (fun r => r.id = userId) (fun r => { r with walletAddress := some address })
      rows).filterMap (·.walletAddress)).Nodup := by
  have hpairs : rows.Pairwise (fun r s => r.id ≠ s.id ∧
      ∀ a, r.walletAddress = some a → ∀ b, s.walletAddress = some b → a ≠ b) :=
    (List.pairwise_map.mp hid).and (List.pairwise_filterMap.mp hwallet)
  unfold updateWhere
  rw [List.Nodup, List.pairwise_filterMap, List.pairwise_map]
  refine hpairs.imp_of_mem ?_
  intro r s hr hs hrs a ha b hb
  by_cases hru : r.id = userId
  · have hsu : s.id ≠ userId := fun h => hrs.1 (hru.trans h.symm)
    simp only [hru, hsu, decide_true, decide_false, if_true, Bool.false_eq_true, if_false] at ha hb
    rintro rfl
    exact hfree s hs hsu (hb.trans ha.symm)
  · by_cases hsu : s.id = userId
    · simp only [hru, hsu, decide_true, decide_false, if_true, Bool.false_eq_true, if_false] at ha hb
      rintro rfl
      exact hfree r hr hru (ha.trans hb.symm)
    · simp only [hru, hsu, decide_false, Bool.false_eq_true, if_false] at ha hb
      exact hrs.2 a ha b hb

/-- A user receives an address that no other user has. -/
theorem setWalletAddress_of_ok {userId : Uuid} {address : String} (hf : c.fails = false)
    (htext : sqlText address = true) (hlen : address.toList.length ≤ 88)
    (hfree : ∀ u ∈ db.users, u.id ≠ userId → u.walletAddress ≠ some address) :
    ∃ db', setWalletAddress c db userId address = (.ok (), db') ∧ db'.wallets = db.wallets ∧
      db'.users = updateWhere (fun r => r.id = userId)
        (fun r => { r with walletAddress := some address }) db.users := by
  have hu := db.unique
  have hcolumn : ∀ {K : Type} (key : UserRow → K),
      (∀ r : UserRow, key { r with walletAddress := some address } = key r) →
      (updateWhere (fun r => r.id = userId) (fun r => { r with walletAddress := some address })
        db.users).map key = db.users.map key := fun key h => map_updateWhere key _ h
  have hunique : Unique lower (updateWhere (fun r => r.id = userId)
      (fun r => { r with walletAddress := some address }) db.users) db.wallets := {
    userId := by rw [hcolumn (·.id) (fun _ => rfl)]; exact hu.userId
    username := by rw [hcolumn (·.username) (fun _ => rfl)]; exact hu.username
    email := by rw [hcolumn (·.email) (fun _ => rfl)]; exact hu.email
    emailLower := by rw [hcolumn (fun r => lower r.email) (fun _ => rfl)]; exact hu.emailLower
    userWallet := userWallet_nodup hu.userId hu.userWallet hfree
    walletId := hu.walletId
    walletAddress := hu.walletAddress
    primary := hu.primary }
  have hrefs : References (updateWhere (fun r => r.id = userId)
      (fun r => { r with walletAddress := some address }) db.users) db.wallets := by
    intro w hw
    rw [hcolumn (·.id) (fun _ => rfl)]
    exact db.references w hw
  refine ⟨⟨_, _, hunique, hrefs⟩, execute_of_ok hf (by simp [htext]) ?_, rfl, rfl⟩
  rw [fit_of_le hlen]
  simp only [Bind.bind, Except.bind, Database.commit_of_valid hunique hrefs]
  rfl

theorem setVerificationToken_cases (userId : Uuid) (token : String) :
    (∃ e, setVerificationToken c now db userId token = (.error e, db)) ∨ ∃ text db',
      fit 128 token = .ok text ∧ setVerificationToken c now db userId token = (.ok (), db') ∧
      db'.wallets = db.wallets ∧ db'.users = updateWhere (fun r => r.id = userId)
        (fun r => { r with
          emailVerificationToken := some text
          emailVerificationExpiresAt := some (now + secs (24 * 3600)) }) db.users := by
  unfold setVerificationToken
  rcases execute_cases c [token] db (do
    let token ← fit 128 token
    return ((), db.updateUsers (fun r => r.id = userId)
      (fun r => { r with
        emailVerificationToken := some token
        emailVerificationExpiresAt := some (now + secs (24 * 3600)) })
      (fun _ => ⟨rfl, rfl, rfl, rfl⟩))) with h | ⟨a, db', hb, h⟩
  · exact .inl h
  · simp only [bind_eq_ok, pure_eq_ok] at hb
    obtain ⟨text, hf, he⟩ := hb
    cases he
    exact .inr ⟨text, _, hf, h, rfl, rfl⟩

/-- A password is changed on the active rows with the given email, up to letter case. -/
theorem updatePassword_cases (email passwordHash : String) :
    (∃ e, updatePassword c db email passwordHash = (.error e, db)) ∨ ∃ text db',
      fit 255 passwordHash = .ok text ∧ updatePassword c db email passwordHash =
        (.ok (db.users.filter (fun r => addressed lower email r && r.isActive)).length, db') ∧
      db'.wallets = db.wallets ∧
      db'.users = updateWhere (fun r => addressed lower email r && r.isActive)
        (fun r => { r with passwordHash := text }) db.users := by
  unfold updatePassword
  rcases execute_cases c [email, passwordHash] db (do
    let passwordHash ← fit 255 passwordHash
    return ((db.users.filter (fun r => addressed lower email r && r.isActive)).length,
      db.updateUsers (fun r => addressed lower email r && r.isActive)
        (fun r => { r with passwordHash := passwordHash })
        (fun _ => ⟨rfl, rfl, rfl, rfl⟩))) with h | ⟨a, db', hb, h⟩
  · exact .inl h
  · simp only [bind_eq_ok, pure_eq_ok] at hb
    obtain ⟨text, hf, he⟩ := hb
    cases he
    exact .inr ⟨text, _, hf, h, rfl, rfl⟩

/-- A password that the database accepts. -/
theorem updatePassword_of_ok {email passwordHash : String} (hf : c.fails = false)
    (hemail : sqlText email = true) (hhash : sqlText passwordHash = true)
    (hlen : passwordHash.toList.length ≤ 255) : ∃ db', updatePassword c db email passwordHash =
      (.ok (db.users.filter (fun r => addressed lower email r && r.isActive)).length, db') ∧
      db'.users = updateWhere (fun r => addressed lower email r && r.isActive)
        (fun r => { r with passwordHash := passwordHash }) db.users := by
  refine ⟨db.updateUsers (fun r => addressed lower email r && r.isActive)
    (fun r => { r with passwordHash := passwordHash }) (fun _ => ⟨rfl, rfl, rfl, rfl⟩), ?_, rfl⟩
  refine execute_of_ok hf (by simp [hemail, hhash]) ?_
  rw [fit_of_le hlen]
  rfl

theorem markUserOnboarded_cases (userId : Uuid) (userType : String) (lat long : Int32)
    (pda signature : String) :
    (∃ e, markUserOnboarded c db userId userType lat long pda signature = (.error e, db)) ∨
      ∃ type address text db', fit 20 userType = .ok type ∧ fit 88 pda = .ok address ∧
      fit 88 signature = .ok text ∧
      markUserOnboarded c db userId userType lat long pda signature = (.ok (), db') ∧
      db'.wallets = db.wallets ∧ db'.users = updateWhere (fun r => r.id = userId)
        (fun r => { r with
          blockchainRegistered := true
          userType := some type
          latitude := some lat
          longitude := some long
          userAccountPda := some address
          blockchainTxSignature := some text
          blockchainStatus := "confirmed" }) db.users := by
  unfold markUserOnboarded
  rcases execute_cases c [userType, pda, signature] db (do
    let userType ← fit 20 userType
    let pda ← fit 88 pda
    let signature ← fit 88 signature
    return ((), db.updateUsers (fun r => r.id = userId)
      (fun r => { r with
        blockchainRegistered := true
        userType := some userType
        latitude := some lat
        longitude := some long
        userAccountPda := some pda
        blockchainTxSignature := some signature
        blockchainStatus := "confirmed" })
      (fun _ => ⟨rfl, rfl, rfl, rfl⟩))) with h | ⟨a, db', hb, h⟩
  · exact .inl h
  · simp only [bind_eq_ok, pure_eq_ok] at hb
    obtain ⟨type, ht, address, ha, text, hs, he⟩ := hb
    cases he
    exact .inr ⟨type, address, text, _, ht, ha, hs, h, rfl, rfl⟩

/-- The users repository touches no wallet. -/
theorem handle_wallets (q : UserOp) : (handle c now db q).2.wallets = db.wallets := by
  cases q with
  | create newUser =>
    rcases create_cases c now db newUser with ⟨e, h⟩ | ⟨-, db', -, h, hw, -⟩
    · rw [handle, h]
    · rw [handle, h, hw]
  | verifyEmail email =>
    rcases verifyEmail_cases c db email with ⟨e, h⟩ | h
    · rw [handle, h]
    · rw [handle, h]; rfl
  | setWalletAddress userId address =>
    rcases setWalletAddress_cases c db userId address with ⟨e, h⟩ | ⟨-, db', -, h, hw, -⟩
    · rw [handle, h]
    · rw [handle, h, hw]
  | setVerificationToken userId token =>
    rcases setVerificationToken_cases c now db userId token with ⟨e, h⟩ | ⟨-, db', -, h, hw, -⟩
    · rw [handle, h]
    · rw [handle, h, hw]
  | updatePassword email passwordHash =>
    rcases updatePassword_cases c db email passwordHash with ⟨e, h⟩ | ⟨-, db', -, h, hw, -⟩
    · rw [handle, h]
    · rw [handle, h, hw]
  | markUserOnboarded userId userType lat long pda signature =>
    rcases markUserOnboarded_cases c db userId userType lat long pda signature with
      ⟨e, h⟩ | ⟨-, -, -, db', -, -, -, h, hw, -⟩
    · rw [handle, h]
    · rw [handle, h, hw]
  | findByUsernameOrEmail identity => rfl
  | findById id => rfl
  | findEmailByToken token => rfl
  | findVerificationStateByEmail email => rfl

end IamService.UserRepository
