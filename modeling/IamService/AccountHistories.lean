import IamService.MethodFootprints
import IamService.ReferenceStates
import IamService.TableHistories
import IamService.UserStatements
import IamService.WalletStatements

/-!
# The history of an account

Every statement of the service on `users` changes rows in place or appends one. What one
statement can do to a row is listed once. An account therefore only advances: it keeps its
place, its identity and its role, and no flag of it is taken back.

The columns of a row also stay consistent with each other, whatever runs together, because
rows are only inserted by registrations and keys only stored with the current version.
-/

namespace IamService.AccountHistories
open EffectPrograms RelationTables ReferenceLibraries

/-- What an operation can do to a row of `users`. -/
inductive Change : Op → UserRow → UserRow → Prop where
  | same (o : Op) (r : UserRow) : Change o r r
  | activated (email : String) (r : UserRow) : Change (.user (.verifyEmail email)) r
      { r with isActive := true, emailVerified := true }
  | addressed (userId : Uuid) (address text : String) (r : UserRow) :
      Change (.user (.setWalletAddress userId address)) r { r with walletAddress := some text }
  | tokened (userId : Uuid) (token text : String) (expiry : ℕ) (r : UserRow) :
      Change (.user (.setVerificationToken userId token)) r
        { r with
          emailVerificationToken := some text
          emailVerificationExpiresAt := some expiry }
  | rehashed (email hash text : String) (r : UserRow) :
      Change (.user (.updatePassword email hash)) r { r with passwordHash := text }
  | onboarded (userId : Uuid) (userType : String) (lat long : Int32) (pda signature type address
      text : String) (r : UserRow) :
      Change (.user (.markUserOnboarded userId userType lat long pda signature)) r
        { r with
          blockchainRegistered := true
          userType := some type
          latitude := some lat
          longitude := some long
          userAccountPda := some address
          blockchainTxSignature := some text
          blockchainStatus := "confirmed" }
  | entrusted (userId : Uuid) (walletAddress : String) (label : Option String) (key : KeyMaterial)
      (kdfVersion : ℕ) (address : String) (r : UserRow) :
      Change (.wallet (.persistCustodialWallet userId walletAddress label key kdfVersion)) r
        { r with keyMaterial := some key, kdfVersion := kdfVersion, walletAddress := some address }

/-- A row that an operation inserts. -/
def Inserted (o : Op) (r : UserRow) : Prop :=
  ∃ newUser fitted now, o = .user (.create newUser) ∧ newUser.fitted = .ok fitted ∧
    r = newUserRow now fitted

section Statements

variable {lower : String → String} (c : Choice) (now : ℕ) (db : Database lower)

theorem user_evolves (q : UserOp) : Evolves (Change (.user q)) (Inserted (.user q)) db.users
    (UserRepository.handle c now db q).2.users := by
  have hrefl : ∀ r, Change (.user q) r r := Change.same _
  cases q with
  | create newUser =>
    rcases UserRepository.create_cases c now db newUser with ⟨e, h⟩ | ⟨fitted, db', hf, h, -, hu⟩
    · rw [UserRepository.handle, h]
      exact .refl hrefl _
    · rw [UserRepository.handle, h, hu]
      exact .of_append hrefl _ ⟨newUser, fitted, now, rfl, hf, rfl⟩
  | verifyEmail email =>
    rcases UserRepository.verifyEmail_cases c db email with ⟨e, h⟩ | h
    · rw [UserRepository.handle, h]
      exact .refl hrefl _
    · rw [UserRepository.handle, h]
      exact .of_update hrefl (fun r => .activated email r) _
  | setWalletAddress userId address =>
    rcases UserRepository.setWalletAddress_cases c db userId address with
      ⟨e, h⟩ | ⟨text, db', -, h, -, hu⟩
    · rw [UserRepository.handle, h]
      exact .refl hrefl _
    · rw [UserRepository.handle, h, hu]
      exact .of_update hrefl (fun r => .addressed userId address text r) _
  | setVerificationToken userId token =>
    rcases UserRepository.setVerificationToken_cases c now db userId token with
      ⟨e, h⟩ | ⟨text, db', -, h, -, hu⟩
    · rw [UserRepository.handle, h]
      exact .refl hrefl _
    · rw [UserRepository.handle, h, hu]
      exact .of_update hrefl (fun r => .tokened userId token text _ r) _
  | updatePassword email hash =>
    rcases UserRepository.updatePassword_cases c db email hash with
      ⟨e, h⟩ | ⟨text, db', -, h, -, hu⟩
    · rw [UserRepository.handle, h]
      exact .refl hrefl _
    · rw [UserRepository.handle, h, hu]
      exact .of_update hrefl (fun r => .rehashed email hash text r) _
  | markUserOnboarded userId userType lat long pda signature =>
    rcases UserRepository.markUserOnboarded_cases c db userId userType lat long pda signature with
      ⟨e, h⟩ | ⟨type, address, text, db', -, -, -, h, -, hu⟩
    · rw [UserRepository.handle, h]
      exact .refl hrefl _
    · rw [UserRepository.handle, h, hu]
      exact .of_update hrefl
        (fun r => .onboarded userId userType lat long pda signature type address text r) _
  | findByUsernameOrEmail identity => exact .refl hrefl _
  | findById id => exact .refl hrefl _
  | findEmailByToken token => exact .refl hrefl _
  | findVerificationStateByEmail email => exact .refl hrefl _

theorem wallet_evolves (q : WalletOp) : Evolves (Change (.wallet q)) (Inserted (.wallet q))
    db.users (WalletRepository.handle c now db q).2.users := by
  have hrefl : ∀ r, Change (.wallet q) r r := Change.same _
  have hsame : ∀ {users : List UserRow}, users = db.users →
      Evolves (Change (.wallet q)) (Inserted (.wallet q)) db.users users := by
    rintro _ rfl
    exact .refl hrefl _
  cases q with
  | persistCustodialWallet userId walletAddress label key kdfVersion =>
    rcases WalletRepository.persistCustodialWallet_cases c now db userId walletAddress label key
      kdfVersion with ⟨e, h⟩ | ⟨row, address, db', -, -, -, h, -, hu⟩
    · exact hsame (by rw [WalletRepository.handle, h])
    · rw [WalletRepository.handle, h, hu]
      exact .of_update hrefl
        (fun r => .entrusted userId walletAddress label key kdfVersion address r) _
  | setPrimary userId walletId =>
    simp only [WalletRepository.handle, WalletRepository.setPrimary_eq]
    split <;> exact hsame rfl
  | deleteIfNotPrimary userId walletId =>
    simp only [WalletRepository.handle, WalletRepository.deleteIfNotPrimary_eq]
    split <;> exact hsame rfl
  | clearPrimary userId =>
    simp only [WalletRepository.handle, WalletRepository.clearPrimary_eq]
    split <;> exact hsame rfl
  | insert userId walletAddress label isPrimary =>
    simp only [WalletRepository.handle]
    cases hi : (WalletRepository.insert c now db userId walletAddress label isPrimary).1 with
    | error e => exact hsame (by rw [WalletRepository.insert_error hi])
    | ok wallet =>
      obtain ⟨row, -, -, -, hu, -⟩ := WalletRepository.insert_ok hi
      exact hsame hu
  | markRegistered userId address signature =>
    rcases WalletRepository.markRegistered_cases c db userId address signature with
      ⟨e, h⟩ | ⟨text, db', -, h, hu, -⟩
    · exact hsame (by rw [WalletRepository.handle, h])
    · exact hsame (by rw [WalletRepository.handle, h, hu])
  | listByUserId userId => exact hsame rfl
  | findByIdAndUserId id userId => exact hsame rfl
  | «exists» userId walletId => exact hsame rfl
  | hasAnyWallet userId => exact hsame rfl
  | findPrimaryAddress userId => exact hsame rfl

end Statements

/-- What one operation does to the accounts. -/
theorem handle_evolves (self : AuthService) (c : Choice) (w : self.State) (o : Op) :
    Evolves (Change o) (Inserted o) w.db.users (self.handle c w o).2.db.users := by
  cases o with
  | user q => exact user_evolves c _ w.db q
  | wallet q => exact wallet_evolves c _ w.db q
  | cache q => exact .refl (Change.same _) _
  | bus q => exact .refl (Change.same _) _
  | chain q => exact .refl (Change.same _) _
  | host q => rw [AuthService.handle_host_db]; exact .refl (Change.same _) _

/-- A later version of an account: the same person in the same role, with no less than it had
before. -/
structure Advances (r s : UserRow) : Prop where
  id : s.id = r.id
  username : s.username = r.username
  email : s.email = r.email
  role : s.role = r.role
  firstName : s.firstName = r.firstName
  lastName : s.lastName = r.lastName
  isActive : r.isActive = true → s.isActive = true
  emailVerified : r.emailVerified = true → s.emailVerified = true
  blockchainRegistered : r.blockchainRegistered = true → s.blockchainRegistered = true
  walletAddress : r.walletAddress.isSome = true → s.walletAddress.isSome = true
  keyMaterial : r.keyMaterial.isSome = true → s.keyMaterial.isSome = true

theorem Advances.refl (r : UserRow) : Advances r r :=
  ⟨rfl, rfl, rfl, rfl, rfl, rfl, fun h => h, fun h => h, fun h => h, fun h => h, fun h => h⟩

theorem Advances.trans {r s t : UserRow} (h : Advances r s) (h' : Advances s t) : Advances r t where
  id := h'.id.trans h.id
  username := h'.username.trans h.username
  email := h'.email.trans h.email
  role := h'.role.trans h.role
  firstName := h'.firstName.trans h.firstName
  lastName := h'.lastName.trans h.lastName
  isActive := fun hr => h'.isActive (h.isActive hr)
  emailVerified := fun hr => h'.emailVerified (h.emailVerified hr)
  blockchainRegistered := fun hr => h'.blockchainRegistered (h.blockchainRegistered hr)
  walletAddress := fun hr => h'.walletAddress (h.walletAddress hr)
  keyMaterial := fun hr => h'.keyMaterial (h.keyMaterial hr)

theorem Change.advances {o : Op} {r s : UserRow} (h : Change o r s) : Advances r s := by
  cases h with
  | same => exact .refl r
  | activated =>
    exact ⟨rfl, rfl, rfl, rfl, rfl, rfl, fun _ => rfl, fun _ => rfl, id, id, id⟩
  | addressed => exact ⟨rfl, rfl, rfl, rfl, rfl, rfl, id, id, id, fun _ => rfl, id⟩
  | tokened => exact ⟨rfl, rfl, rfl, rfl, rfl, rfl, id, id, id, id, id⟩
  | rehashed => exact ⟨rfl, rfl, rfl, rfl, rfl, rfl, id, id, id, id, id⟩
  | onboarded => exact ⟨rfl, rfl, rfl, rfl, rfl, rfl, id, id, fun _ => rfl, id, id⟩
  | entrusted => exact ⟨rfl, rfl, rfl, rfl, rfl, rfl, id, id, id, fun _ => rfl, fun _ => rfl⟩

/-- A new account has nothing yet. -/
structure Unclaimed (r : UserRow) : Prop where
  isActive : r.isActive = false
  emailVerified : r.emailVerified = false
  blockchainRegistered : r.blockchainRegistered = false
  walletAddress : r.walletAddress = none
  keyMaterial : r.keyMaterial = none

theorem Inserted.unclaimed {o : Op} {r : UserRow} (h : Inserted o r) : Unclaimed r := by
  obtain ⟨newUser, fitted, now, -, -, rfl⟩ := h
  exact ⟨rfl, rfl, rfl, rfl, rfl⟩

/-- The accounts of one table, at their places, in a later one. -/
def Succeeds (rows rows' : List UserRow) : Prop := Evolves Advances Unclaimed rows rows'

theorem Succeeds.refl (rows : List UserRow) : Succeeds rows rows := Evolves.refl Advances.refl rows

theorem Succeeds.trans {rows rows' rows'' : List UserRow} (h : Succeeds rows rows')
    (h' : Succeeds rows' rows'') : Succeeds rows rows'' := Evolves.trans Advances.trans h h'

theorem handle_succeeds (self : AuthService) (c : Choice) (w : self.State) (o : Op) :
    Succeeds w.db.users (self.handle c w o).2.db.users :=
  (handle_evolves self c w o).mono (fun _ _ h => h.advances) (fun _ h => h.unclaimed)

section Interleavings

variable {self : AuthService} {starts : self.State → Program AuthService.Returned → Prop}
  {admits : Choice → self.State → Op → Prop}

end Interleavings

section Consistency

variable (self : AuthService)

/-- The columns of a row fit together. -/
structure WellKept (auth : AuthService) (r : UserRow) : Prop where
  role : r.role = "user"
  email : '@' ∈ r.email.toList
  verified : r.emailVerified = r.isActive
  token : r.emailVerificationToken.isSome = true ∧ r.emailVerificationExpiresAt.isSome = true
  status : r.blockchainRegistered = true ↔ r.blockchainStatus = "confirmed"
  profile : r.blockchainRegistered = true → r.userType.isSome = true ∧ r.latitude.isSome = true ∧
    r.longitude.isSome = true ∧ r.userAccountPda.isSome = true ∧
    r.blockchainTxSignature.isSome = true
  custody : r.keyMaterial.isSome = true →
    r.walletAddress.isSome = true ∧ r.kdfVersion = auth.lib.currentKdfVersion

/-- Rows are inserted for users with an address and a token, and keys are stored with the
current version. -/
def Regular (o : Op) : Prop :=
  match o with
  | .user (.create newUser) =>
    newUser.role = "user" ∧ '@' ∈ newUser.email.toList ∧ newUser.verificationToken.isSome = true
  | .wallet (.persistCustodialWallet _ _ _ _ kdfVersion) => kdfVersion = self.lib.currentKdfVersion
  | _ => True

variable {self}

/-- Only spaces are cut off a text. -/
theorem mem_of_fit {n : ℕ} {s t : String} (h : fit n s = .ok t) {a : Char} (ha : a ≠ ' ')
    (hmem : a ∈ s.toList) : a ∈ t.toList := by
  unfold fit at h
  split at h
  · cases h
    exact hmem
  · split at h
    · rename_i hspaces
      cases h
      rw [String.toList_ofList]
      rw [← List.take_append_drop n s.toList] at hmem
      rcases List.mem_append.mp hmem with hmem | hmem
      · exact hmem
      · exact absurd (by simpa using List.all_eq_true.mp hspaces a hmem) ha
    · cases h

theorem fitted_columns {newUser fitted : NewUser} (h : newUser.fitted = .ok fitted) :
    fitted.role = newUser.role ∧
      (newUser.verificationToken.isSome = true → fitted.verificationToken.isSome = true) := by
  unfold NewUser.fitted at h
  simp only [bind_eq_ok] at h
  obtain ⟨username, -, email, -, passwordHash, -, firstName, -, lastName, -, token, htoken, h⟩ := h
  split at h
  · cases h
    refine ⟨rfl, ?_⟩
    intro hsome
    obtain ⟨text, htext⟩ := Option.isSome_iff_exists.mp hsome
    rw [htext] at htoken
    cases hfit : fit 128 text with
    | error e =>
      rw [fitOption, hfit] at htoken
      cases htoken
    | ok t =>
      rw [fitOption, hfit] at htoken
      cases htoken
      rfl
  · cases h

theorem Inserted.wellKept {o : Op} (ho : Regular self o) {r : UserRow} (h : Inserted o r) :
    WellKept self r := by
  obtain ⟨newUser, fitted, now, rfl, hfit, rfl⟩ := h
  obtain ⟨hrole, hemail, htoken⟩ := ho
  obtain ⟨hsame, hkept⟩ := fitted_columns hfit
  have hsome := hkept htoken
  exact {
    role := hsame.trans hrole
    email := mem_of_fit (NewUser.fitted_identifiers hfit).2 (by decide) hemail
    verified := rfl
    token := ⟨hsome, by simpa [newUserRow] using hsome⟩
    status := by simp [newUserRow]
    profile := fun h => by cases h
    custody := fun h => by cases h }

theorem Change.wellKept {o : Op} (ho : Regular self o) {r s : UserRow} (h : Change o r s)
    (hr : WellKept self r) : WellKept self s := by
  obtain ⟨hrole, hemail, hverified, htoken, hstatus, hprofile, hcustody⟩ := hr
  cases h with
  | same => exact ⟨hrole, hemail, hverified, htoken, hstatus, hprofile, hcustody⟩
  | activated email => exact ⟨hrole, hemail, rfl, htoken, hstatus, hprofile, hcustody⟩
  | addressed userId address text =>
    exact ⟨hrole, hemail, hverified, htoken, hstatus, hprofile, fun h => ⟨rfl, (hcustody h).2⟩⟩
  | tokened => exact ⟨hrole, hemail, hverified, ⟨rfl, rfl⟩, hstatus, hprofile, hcustody⟩
  | rehashed => exact ⟨hrole, hemail, hverified, htoken, hstatus, hprofile, hcustody⟩
  | onboarded =>
    exact ⟨hrole, hemail, hverified, htoken, ⟨fun _ => rfl, fun _ => rfl⟩,
      fun _ => ⟨rfl, rfl, rfl, rfl, rfl⟩, hcustody⟩
  | entrusted =>
    exact ⟨hrole, hemail, hverified, htoken, hstatus, hprofile, fun _ => ⟨rfl, ho⟩⟩

theorem regular_of_kind {o : Op} (h : o.kind ∉ [OpKind.createUser, .persistCustodialWallet]) :
    Regular self o := by
  unfold Regular
  split <;> simp at h ⊢

theorem regular_of_limited {α : Type} {kinds : List OpKind} {p : Program α}
    (hp : Limited kinds p) (h : ∀ k ∈ kinds, k ∉ [OpKind.createUser, .persistCustodialWallet]) :
    Issues (Regular self) p :=
  hp.mono (fun o ho => regular_of_kind (h o.kind ho))

theorem register_regular (username email password : String) (firstName lastName : Option String) :
    Issues (Regular self) (self.register username email password firstName lastName).run := by
  unfold AuthService.register
  split
  · trivial
  · rename_i hemail
    have hat : '@' ∈ email.toList := by
      simp only [not_or, not_not] at hemail
      simpa using hemail.1
    refine Issues.bindExcept (by simp [host, Regular]) ?_
    intro passwordHash
    refine Issues.bindExcept (by simp [host, Regular]) ?_
    intro userId
    refine Issues.bindExcept (by simp [host, Regular]) ?_
    intro tokenId
    refine Issues.bindExcept (Issues.observe ⟨⟨rfl, hat, rfl⟩, fun _ => trivial⟩) ?_
    intro created
    cases created <;> simp [eventBus, Regular]

theorem verifyEmail_regular (token : String) :
    Issues (Regular self) (self.verifyEmail token).run := by
  refine Issues.bindExcept
    (regular_of_limited (self.verifiedAddress_limited token) (by simp)) ?_
  intro email
  refine Issues.bindExcept (by simp [userRepo, Regular]) ?_
  intro activated
  cases activated with
  | none => trivial
  | some activated =>
    refine Issues.bindExcept ?_ (fun user =>
      regular_of_limited (self.verifiedSession_limited user) (by simp))
    refine Issues.bindExcept (by simp [walletRepo, Regular]) ?_
    intro hasWallet
    split
    · refine Issues.bindExcept (Issues.observe ?_) ?_
      · refine Issues.bindExcept (by simp [host, Regular]) ?_
        intro keypair
        refine Issues.bindExcept (by simp [host, Regular]) ?_
        intro key
        cases key with
        | error e => trivial
        | ok key =>
          refine Issues.bindExcept ⟨rfl, fun _ => trivial⟩ ?_
          intro wallet
          simp [host, Regular]
      · intro wallet
        cases wallet <;> trivial
    · trivial

/-- Every call is regular. -/
theorem program_regular (c : Call) : Issues (Regular self) (self.program c) := by
  refine Issues.bind ?_ (fun _ => trivial)
  have hquiet : ∀ c : Call, (∀ k ∈ c.footprint, k ∉ [OpKind.createUser, .persistCustodialWallet]) →
      Issues (Regular self) (self.method c).run :=
    fun c hc => regular_of_limited (self.method_limited c) hc
  cases c with
  | register username email password firstName lastName =>
    exact register_regular username email password firstName lastName
  | verifyEmail token => exact verifyEmail_regular token
  | _ => exact hquiet _ (by simp)

/-- Programs that share the accounts need no agreement to keep what each of them keeps. -/
def keeping (self : AuthService) (P : UserRow → Prop) : Discipline Op Choice self.State where
  inv := fun w => ∀ r ∈ w.db.users, P r
  rely := fun _ _ => True
  permits := fun _ => Regular self
  admits := fun _ _ _ => True

/-- What every regular operation establishes and keeps holds of all accounts. -/
theorem reach_all {P : UserRow → Prop}
    (hchange : ∀ {o : Op} {r s}, Regular self o → Change o r s → P r → P s)
    (hinsert : ∀ {o : Op} {r}, Regular self o → Inserted o r → P r) {init : self.State → Prop}
    (hinit : ∀ v, init v → ∀ r ∈ v.db.users, P r) {w : self.State}
    {ps : List (Program AuthService.Returned)}
    (h : Reach self.handle (fun _ p => ∃ c, p = self.program c) (fun _ _ _ => True) init w ps) :
    ∀ r ∈ w.db.users, P r := by
  have hsound : (keeping self P).Sound self.handle := {
    refl := fun _ => trivial
    trans := fun _ _ => trivial
    rely_step := fun _ _ _ => trivial
    inv_step := fun {c w o} hw ho _ => (handle_evolves self c w o).all
      (fun _ _ hrs hr => hchange ho hrs hr) (fun _ hr => hinsert ho hr) hw }
  refine Reach.inv hsound hinit ?_ h
  rintro v p - ⟨c, rfl⟩
  exact Issues.safe (fun _ _ ho => ho) (program_regular c) v

/-- Whatever calls and tasks run together and whatever fails, the columns of every account fit
together, provided that they did before. -/
theorem accounts_well_kept {w : self.State} {ps : List (Program AuthService.Returned)}
    (h : Reach self.handle (fun _ p => ∃ c, p = self.program c) (fun _ _ _ => True)
      (fun v => ∀ r ∈ v.db.users, WellKept self r) w ps) :
    ∀ r ∈ w.db.users, WellKept self r :=
  reach_all (fun ho hrs hr => hrs.wellKept ho hr) (fun ho hr => hr.wellKept ho) (fun _ hv => hv) h

end Consistency

section Alice

/-- Alice's registration and a verification of her email, both under way. -/
def signingUp : List (Program AuthService.Returned) :=
  [service.program registerAlice.call, service.program verifyAlice.call]

/-- The registration goes through before the verification starts. -/
def signUp : List (ℕ × Choice) :=
  [(0, {}), (0, { uuid := ⟨1⟩ }), (0, { uuid := ⟨2⟩ }), (0, {}), (0, {}), (0, {}),
    (1, {}), (1, {}), (1, {}), (1, { keypair := ⟨5⟩ }), (1, {}), (1, { uuid := ⟨4⟩ })]

def signedUp : service.State × List (Program AuthService.Returned) :=
  schedule service.handle (World.empty _, signingUp) signUp

theorem reach_signingUp {init : service.State → Prop} (h : init (World.empty _))
    (l : List (ℕ × Choice)) :
    Reach service.handle (fun _ p => ∃ c, p = service.program c) (fun _ _ _ => True) init
      (schedule service.handle (World.empty _, signingUp) l).1
      (schedule service.handle (World.empty _, signingUp) l).2 := by
  refine Reach.schedule (Reach.pool h signingUp ?_) l ?_
  · intro p hp
    simp only [signingUp, List.mem_cons, List.not_mem_nil, or_false] at hp
    rcases hp with rfl | rfl
    · exact ⟨_, rfl⟩
    · exact ⟨_, rfl⟩
  · exact Admitted.of_forall (fun _ _ _ => trivial) _ _

theorem accounts_well_kept_signedUp : (∃ r ∈ signedUp.1.db.users, r.isActive = true) ∧
    ∀ r ∈ signedUp.1.db.users, WellKept service r :=
  ⟨by decide +kernel,
    accounts_well_kept (reach_signingUp (fun _ hr => absurd hr List.not_mem_nil) signUp)⟩

end Alice

end IamService.AccountHistories
