import IamService.UserStatements
import IamService.WalletStatements
import IamService.MethodFootprints
import IamService.ReferenceStates

/-!
# A user's wallet calls stay with the user's rows

Every statement behind the wallet calls is keyed on the user id of the call, beside the
wallet ids and addresses a caller may choose freely. A statement keyed on a user leaves
the rows of all others as they are, and reads of the wallets table see the rows of that
user only.
-/

namespace IamService.TenantIsolation
open EffectPrograms RelationTables WalletRepository UserRepository AuthService ReferenceLibraries

variable {lower : String → String}

/-- The rows of both tables that belong to a user. -/
def ownRows (db : Database lower) (userId : Uuid) : List UserRow × List WalletRow :=
  (db.users.filter (fun r => r.id = userId), db.wallets.filter (ownedBy userId))

/-- The rows of both tables that belong to anybody else. -/
def otherRows (db : Database lower) (userId : Uuid) : List UserRow × List WalletRow :=
  (db.users.filter (fun r => r.id ≠ userId), db.wallets.filter (fun r => r.userId ≠ userId))

/-- The user id on which a statement of the wallets repository is keyed. -/
def owner : WalletOp → Uuid
  | .listByUserId userId => userId
  | .findByIdAndUserId _ userId => userId
  | .setPrimary userId _ => userId
  | .deleteIfNotPrimary userId _ => userId
  | .exists userId _ => userId
  | .hasAnyWallet userId => userId
  | .clearPrimary userId => userId
  | .insert userId _ _ _ => userId
  | .findPrimaryAddress userId => userId
  | .markRegistered userId _ _ => userId
  | .persistCustodialWallet userId _ _ _ _ => userId

/-- The operation is keyed on a user, or on no table. -/
@[simp] def Keyed (userId : Uuid) : Op → Prop
  | .user (.findById id) => id = userId
  | .user (.setWalletAddress id _) => id = userId
  | .user (.setVerificationToken id _) => id = userId
  | .user (.markUserOnboarded id _ _ _ _ _) => id = userId
  | .user _ => False
  | .wallet q => owner q = userId
  | _ => True

section Statements

variable {db db' : Database lower} {userId : Uuid}

/-- An update of the users row of a user, keeping its id. -/
theorem filter_updateUsers {rows rows' : List UserRow} {f : UserRow → UserRow}
    (h : rows' = updateWhere (fun r => r.id = userId) f rows) (hf : ∀ r, (f r).id = r.id) :
    rows'.filter (fun r => r.id ≠ userId) = rows.filter (fun r => r.id ≠ userId) := by
  rw [h]
  apply filter_updateWhere_of_disjoint
  · intro r
    rw [hf r]
  · intro r _ hr
    simpa using hr

/-- A change of some wallets of a user, keeping the owner. -/
theorem filter_updateWallets {rows rows' : List WalletRow} {p : WalletRow → Bool}
    {f : WalletRow → WalletRow} (h : rows' = updateWhere p f rows)
    (hp : ∀ r, p r = true → r.userId = userId) (hf : ∀ r, (f r).userId = r.userId) :
    rows'.filter (fun r => r.userId ≠ userId) = rows.filter (fun r => r.userId ≠ userId) := by
  rw [h]
  apply filter_updateWhere_of_disjoint
  · intro r
    rw [hf r]
  · intro r _ hr
    simpa using hp r hr

theorem filter_append {rows : List WalletRow} {row : WalletRow} (h : row.userId = userId) :
    (rows ++ [row]).filter (fun r => r.userId ≠ userId) = rows.filter (fun r => r.userId ≠ userId) := by
  simp [h]

theorem otherRows_ext
    (hu : db'.users.filter (fun r => r.id ≠ userId) = db.users.filter (fun r => r.id ≠ userId))
    (hw : db'.wallets.filter (fun r => r.userId ≠ userId) =
      db.wallets.filter (fun r => r.userId ≠ userId)) :
    otherRows db' userId = otherRows db userId := Prod.ext hu hw

theorem filter_demote (db : Database lower) (userId : Uuid) :
    (demote db userId).wallets.filter (fun r => r.userId ≠ userId) =
      db.wallets.filter (fun r => r.userId ≠ userId) := by
  apply filter_updateWallets rfl
  · intro r hr
    exact ownedBy_iff.mp hr
  · intro r
    rfl

theorem filter_promoted (db : Database lower) (userId walletId : Uuid) :
    (promoted db userId walletId).filter (fun r => r.userId ≠ userId) =
      db.wallets.filter (fun r => r.userId ≠ userId) := by
  rw [← filter_demote db userId]
  apply filter_updateWallets rfl
  · intro r hr
    exact (isWallet_iff.mp hr).2
  · intro r
    rfl

theorem filter_kept (db : Database lower) (userId walletId : Uuid) :
    (db.keepWallets (fun r => !removable userId walletId r)).wallets.filter
        (fun r => r.userId ≠ userId) = db.wallets.filter (fun r => r.userId ≠ userId) := by
  simp only [Database.keepWallets, List.filter_filter]
  apply List.filter_congr
  intro r _
  by_cases howner : r.userId = userId
  · simp [howner]
  · simp [removable, isWallet, howner]

/-- The wallets repository changes the rows of the owner only. -/
theorem otherRows_wallet (c : Choice) (now : ℕ) (db : Database lower) (q : WalletOp) :
    otherRows (WalletRepository.handle c now db q).2 (owner q) = otherRows db (owner q) := by
  cases q with
  | listByUserId userId => rfl
  | findByIdAndUserId id userId => rfl
  | «exists» userId walletId => rfl
  | hasAnyWallet userId => rfl
  | findPrimaryAddress userId => rfl
  | setPrimary userId walletId =>
    simp only [WalletRepository.handle, setPrimary_eq, owner]
    split
    · rfl
    · exact otherRows_ext rfl (filter_promoted db userId walletId)
  | deleteIfNotPrimary userId walletId =>
    simp only [WalletRepository.handle, deleteIfNotPrimary_eq, owner]
    split
    · rfl
    · exact otherRows_ext rfl (filter_kept db userId walletId)
  | clearPrimary userId =>
    simp only [WalletRepository.handle, clearPrimary_eq, owner]
    split
    · rfl
    · exact otherRows_ext rfl (filter_demote db userId)
  | insert userId walletAddress label isPrimary =>
    cases hq : (WalletRepository.insert c now db userId walletAddress label isPrimary).1 with
    | error e =>
      have hdb := insert_error hq
      simp only [WalletRepository.handle, hdb]
    | ok wallet =>
      obtain ⟨row, hrow, -, -, hu, hw⟩ := insert_ok hq
      have howner : row.userId = userId := (candidate_ok hrow).2.1
      refine otherRows_ext (congrArg _ hu) ?_
      rw [WalletRepository.handle, hw]
      exact filter_append howner
  | markRegistered userId address signature =>
    rcases markRegistered_cases c db userId address signature with ⟨e, h⟩ | ⟨text, db', -, h, hu, hw⟩
    · rw [WalletRepository.handle, h]
    · rw [WalletRepository.handle, h]
      refine otherRows_ext (congrArg _ hu) (filter_updateWallets hw ?_ ?_)
      · intro r hr
        exact (of_decide_eq_true hr).1
      · intro r
        rfl
  | persistCustodialWallet userId walletAddress label key kdfVersion =>
    rcases persistCustodialWallet_cases c now db userId walletAddress label key kdfVersion with
      ⟨e, h⟩ | ⟨row, address, db', hrow, -, -, h, hw, hu⟩
    · rw [WalletRepository.handle, h]
    · rw [WalletRepository.handle, h]
      apply otherRows_ext
      · exact filter_updateUsers hu (fun _ => rfl)
      · rw [hw, ← filter_demote]
        exact filter_append (candidate_ok hrow).2.1

/-- A statement on the users table that is keyed on a user changes the row of the user only. -/
theorem otherRows_user (c : Choice) (now : ℕ) (db : Database lower) {q : UserOp}
    (hq : Keyed userId (.user q)) :
    otherRows (UserRepository.handle c now db q).2 userId = otherRows db userId := by
  refine otherRows_ext ?_ (congrArg _ (UserRepository.handle_wallets c now db q))
  cases q with
  | findById id => rfl
  | setWalletAddress id address =>
    obtain rfl : id = userId := hq
    rcases setWalletAddress_cases c db id address with ⟨e, h⟩ | ⟨text, db', -, h, -, hu⟩
    · rw [UserRepository.handle, h]
    · rw [UserRepository.handle, h]
      exact filter_updateUsers hu (fun _ => rfl)
  | setVerificationToken id token =>
    obtain rfl : id = userId := hq
    rcases setVerificationToken_cases c now db id token with ⟨e, h⟩ | ⟨text, db', -, h, -, hu⟩
    · rw [UserRepository.handle, h]
    · rw [UserRepository.handle, h]
      exact filter_updateUsers hu (fun _ => rfl)
  | markUserOnboarded id userType lat long pda signature =>
    obtain rfl : id = userId := hq
    rcases markUserOnboarded_cases c db id userType lat long pda signature with
      ⟨e, h⟩ | ⟨type, address, text, db', -, -, -, h, -, hu⟩
    · rw [UserRepository.handle, h]
    · rw [UserRepository.handle, h]
      exact filter_updateUsers hu (fun _ => rfl)
  | _ => exact hq.elim

/-- What is keyed on a user leaves the rows of all others alone. -/
theorem otherRows_handle {self : AuthService} (c : Choice) (w : self.State) {o : Op}
    (ho : Keyed userId o) : otherRows (self.handle c w o).2.db userId = otherRows w.db userId := by
  cases o with
  | user q =>
    rw [handle_user]
    exact otherRows_user _ _ _ ho
  | wallet q =>
    obtain rfl : owner q = userId := ho
    rw [handle_wallet]
    exact otherRows_wallet _ _ _ q
  | cache q => rfl
  | bus q => rfl
  | chain q => rfl
  | host q => rw [handle_host_db]

/-- A query of the wallets table is answered from the rows of its owner. -/
theorem answer_of_ownRows (c : Choice) (now now' : ℕ) {q : WalletOp}
    (hq : (Op.wallet q).kind = .readWallets)
    (h : db.wallets.filter (ownedBy (owner q)) =
      db'.wallets.filter (ownedBy (owner q))) :
    (WalletRepository.handle c now db q).1 = (WalletRepository.handle c now' db' q).1 := by
  cases q with
  | listByUserId userId =>
    have hrows : db.wallets.filter (ownedBy userId) = db'.wallets.filter (ownedBy userId) := h
    simp only [WalletRepository.handle, hrows]
  | findByIdAndUserId id userId =>
    have hrows := find_eq_of_filter_eq (p := isWallet userId id) (by simp [owner]) h
    simp only [WalletRepository.handle, hrows]
  | «exists» userId walletId =>
    have hrows := any_eq_of_filter_eq (p := isWallet userId walletId) (by simp [owner]) h
    simp only [WalletRepository.handle, hrows]
  | hasAnyWallet userId =>
    have hrows := any_eq_of_filter_eq (fun _ hr => hr) h
    simp only [owner] at hrows
    simp only [WalletRepository.handle, WalletRepository.hasAnyWallet, hrows]
  | findPrimaryAddress userId =>
    have hrows := limitOne_eq_of_filter_eq (p := fun r => ownedBy userId r && r.isPrimary)
      (by simp +contextual [owner]) h c.pick
    simp only [WalletRepository.handle, WalletRepository.findPrimaryAddress, hrows]
  | _ => simp at hq

end Statements

section Methods

variable (self : AuthService) (userId : Uuid)

/-- Waiting for an account touches no table. -/
theorem keyed_of_polling {α : Type} {p : Program α} (h : Limited [.lookAccount, .sleep] p) :
    Issues (Keyed userId) p := by
  refine Issues.mono ?_ h
  intro o ho
  cases o with
  | user q => cases q <;> simp at ho
  | wallet q => cases q <;> simp at ho
  | _ => trivial

theorem registerLinked_keyed (walletAddress : String) (wallet : UserWallet) :
    Issues (Keyed userId) (self.registerLinked userId walletAddress wallet).run := by
  refine Issues.bindExcept (by simp [userRepo]) ?_
  intro found
  split
  · split
    · unfold autoRegister
      split
      · trivial
      · refine Issues.bindExcept (by simp [blockchain]) ?_
        intro submitted
        cases submitted with
        | error e => trivial
        | ok signature =>
          have hpoll := keyed_of_polling userId (self.confirmRegistered_limited ‹_›)
          refine Issues.bindExcept hpoll.observe ?_
          intro confirmed
          split
          · refine Issues.bindExcept (by simp [walletRepo, owner]) ?_
            intro _
            cases self.lib.pubkeyFromStr self.config.registryProgramId <;> simp [eventBus]
          · trivial
    · trivial
  · trivial

theorem insertLinked_keyed (walletAddress : String) (label : Option String)
    (isPrimary hasExisting : Bool) : Issues (Keyed userId)
      (self.insertLinked userId walletAddress label isPrimary hasExisting).run := by
  refine Issues.bindExcept (by simp [walletRepo, owner]) ?_
  intro wallet
  have hrest := registerLinked_keyed self userId walletAddress wallet
  unfold afterInsert
  split
  · exact Issues.bindExcept (by simp [userRepo]) (fun _ => hrest)
  · exact hrest

theorem linkWallet_keyed (walletAddress : String) (label : Option String) (isPrimary : Bool) :
    Issues (Keyed userId) (self.linkWallet userId walletAddress label isPrimary).run := by
  unfold linkWallet
  split
  · trivial
  · refine Issues.bindExcept (by simp [walletRepo, owner]) ?_
    intro hasExisting
    have hrest := insertLinked_keyed self userId walletAddress label isPrimary hasExisting
    split
    · exact Issues.bindExcept (by simp [walletRepo, owner]) (fun _ => hrest)
    · exact hrest

theorem submitOnboarding_keyed (walletAddress : String) (pubkey pda : Pubkey) (userType : UserType)
    (latE7 longE7 : Int32) (h3Index : UInt64) (shardId : UInt8) :
    Issues (Keyed userId) (self.submitOnboarding userId walletAddress pubkey pda userType latE7
      longE7 h3Index shardId).run := by
  refine Issues.bindExcept (by simp [blockchain]) ?_
  intro submitted
  cases submitted with
  | error e => trivial
  | ok signature =>
    refine Issues.bindExcept (keyed_of_polling userId (pollAccount_limited pda 20)).observe ?_
    intro confirmed
    split
    · simp [recordOnboarding, userRepo, walletRepo, eventBus, owner]
    · trivial

theorem onboardUserOnChain_keyed (userType : UserType) (latE7 longE7 : Int32)
    (h3Index : Option UInt64) (shardId : Option UInt8) : Issues (Keyed userId)
      (self.onboardUserOnChain userId userType latE7 longE7 h3Index shardId).run := by
  refine Issues.bindExcept (by simp [walletRepo, owner]) ?_
  intro address
  cases address with
  | none => trivial
  | some address =>
    dsimp only
    split
    · trivial
    · split
      · trivial
      · refine Issues.bindExcept (by simp [blockchain]) ?_
        intro seen
        split
        · simp [userRepo, walletRepo, owner]
        · exact submitOnboarding_keyed self userId _ _ _ _ _ _ _ _

theorem initializeUserWallet_keyed (walletAddress : String) :
    Issues (Keyed userId) (self.initializeUserWallet userId walletAddress).run := by
  unfold initializeUserWallet
  split
  · trivial
  · refine Issues.bindExcept (by simp [blockchain]) ?_
    intro submitted
    cases submitted with
    | error e => trivial
    | ok signature =>
      have hpoll := keyed_of_polling userId (self.confirmRegistered_limited ‹_›)
      refine Issues.bindExcept hpoll.observe ?_
      intro confirmed
      split
      · exact Issues.bindExcept (by simp [walletRepo, owner]) (fun _ => trivial)
      · trivial

end Methods

/-- The wallet calls made with the id of a user, whatever wallet ids and addresses they name. -/
inductive WalletCall (userId : Uuid) : Call → Prop
  | linkWallet (walletAddress : String) (label : Option String) (isPrimary : Bool) :
    WalletCall userId (.linkWallet userId walletAddress label isPrimary)
  | setPrimaryWallet (walletId : Uuid) : WalletCall userId (.setPrimaryWallet userId walletId)
  | unlinkWallet (walletId : Uuid) : WalletCall userId (.unlinkWallet userId walletId)
  | getWallet (walletId : Uuid) : WalletCall userId (.getWallet userId walletId)
  | listWallets : WalletCall userId (.listWallets userId)
  | getPrimaryWalletAddress : WalletCall userId (.getPrimaryWalletAddress userId)
  | onboardUserOnChain (userType : UserType) (latE7 longE7 : Int32) (h3Index : Option UInt64)
      (shardId : Option UInt8) :
    WalletCall userId (.onboardUserOnChain userId userType latE7 longE7 h3Index shardId)
  | initializeUserWallet (walletAddress : String) :
    WalletCall userId (.initializeUserWallet userId walletAddress)

/-- The calls among them that answer a question about the wallets. -/
inductive WalletQuery (userId : Uuid) : Call → Prop
  | getWallet (walletId : Uuid) : WalletQuery userId (.getWallet userId walletId)
  | listWallets : WalletQuery userId (.listWallets userId)
  | getPrimaryWalletAddress : WalletQuery userId (.getPrimaryWalletAddress userId)

section Calls

variable {self : AuthService} {userId : Uuid}

theorem method_keyed {call : Call} (h : WalletCall userId call) :
    Issues (Keyed userId) (self.method call).run := by
  cases h with
  | linkWallet walletAddress label isPrimary => exact linkWallet_keyed self userId _ _ _
  | setPrimaryWallet walletId =>
    refine Issues.bindExcept (by simp [walletRepo, owner]) ?_
    intro wallet
    cases wallet <;> simp [userRepo]
  | unlinkWallet walletId =>
    refine Issues.bindExcept (by simp [walletRepo, owner]) ?_
    intro deleted
    split
    · trivial
    · refine Issues.bindExcept (by simp [walletRepo, owner]) ?_
      intro found
      split <;> trivial
  | getWallet walletId =>
    refine Issues.bindExcept (by simp [walletRepo, owner]) ?_
    intro wallet
    cases wallet <;> trivial
  | listWallets => simp [method, AuthService.listWallets, walletRepo, owner]
  | getPrimaryWalletAddress =>
    refine Issues.bindExcept (by simp [walletRepo, owner]) ?_
    intro address
    cases address <;> trivial
  | onboardUserOnChain userType latE7 longE7 h3Index shardId =>
    exact onboardUserOnChain_keyed self userId _ _ _ _ _
  | initializeUserWallet walletAddress => exact initializeUserWallet_keyed self userId _

/-- One call leaves the rows of all others alone. -/
theorem otherRows_after (w : self.State) {r : Request} (h : WalletCall userId r.call) :
    otherRows (self.after w r).db userId = otherRows w.db userId := by
  refine (Issues.run (fun w v : self.State => otherRows v.db userId = otherRows w.db userId)
    (fun _ => rfl) (fun h₁ h₂ => h₂.trans h₁) ?_ (method_keyed h) r.oracle w)
  intro c v o ho
  exact otherRows_handle c v ho

theorem otherRows_serveAll (w : self.State) {rs : List Request}
    (h : ∀ r ∈ rs, WalletCall userId r.call) :
    otherRows (self.serveAll w rs).db userId = otherRows w.db userId := by
  induction rs generalizing w with
  | nil => rfl
  | cons r rs ih =>
    have hrest := ih (self.after w r) (fun q hq => h q (List.mem_cons_of_mem r hq))
    exact hrest.trans (otherRows_after w (h r List.mem_cons_self))

theorem query_result {w v : self.State} {r : Request} (hr : WalletQuery userId r.call)
    (h : ownRows w.db userId = ownRows v.db userId) : (self.serve w r).1 = (self.serve v r).1 := by
  have hwallets : w.db.wallets.filter (ownedBy userId) = v.db.wallets.filter (ownedBy userId) :=
    congrArg Prod.snd h
  have hanswer : ∀ q : WalletOp, owner q = userId → (Op.wallet q).kind = .readWallets →
      (self.handle (r.oracle 0) w (.wallet q)).1 = (self.handle (r.oracle 0) v (.wallet q)).1 := by
    intro q howner hread
    rw [handle_wallet, handle_wallet]
    exact answer_of_ownRows _ _ _ hread (howner ▸ hwallets)
  obtain ⟨call, o⟩ := r
  cases hr with
  | getWallet walletId =>
    simp only [serve, method, AuthService.getWallet, run_bind', run_attempt, walletRepo,
      Prog.eff_bind, Prog.ret_bind, run_eff]
    rw [hanswer (.findByIdAndUserId walletId userId) rfl rfl]
    cases (self.handle (o 0) v (.wallet (.findByIdAndUserId walletId userId))).1 with
    | error e => rfl
    | ok wallet => cases wallet <;> rfl
  | listWallets =>
    simp only [serve, method, AuthService.listWallets, run_attempt, walletRepo, run_eff]
    exact hanswer (.listByUserId userId) rfl rfl
  | getPrimaryWalletAddress =>
    simp only [serve, method, AuthService.getPrimaryWalletAddress, run_bind', run_attempt,
      walletRepo, Prog.eff_bind, Prog.ret_bind, run_eff]
    rw [hanswer (.findPrimaryAddress userId) rfl rfl]
    cases (self.handle (o 0) v (.wallet (.findPrimaryAddress userId))).1 with
    | error e => rfl
    | ok address => cases address <;> rfl

end Calls

variable (self : AuthService) in
/-- Wallet calls made with the id of one user change no row of another, in sequences of any
length, and what they report is read from the rows of that user. -/
theorem wallet_calls_isolated (userId : Uuid) :
    (∀ (w : self.State) (rs : List Request), (∀ r ∈ rs, WalletCall userId r.call) →
      otherRows (self.serveAll w rs).db userId = otherRows w.db userId) ∧
    (∀ (w v : self.State) (r : Request), WalletQuery userId r.call →
      ownRows w.db userId = ownRows v.db userId → (self.serve w r).1 = (self.serve v r).1) := by
  constructor
  · intro w rs h
    exact otherRows_serveAll w h
  · intro w v r hr h
    exact query_result hr h

/-- Bob registers and receives the id 11 and the verification token 12. -/
def registerBob : Request where
  call := .register "bob" "bob@example.com" "Str0ng!Pass" none none
  oracle := oracle [{}, { uuid := ⟨11⟩ }, { uuid := ⟨12⟩ }]

/-- Alice and Bob have registered, and Alice has linked a primary wallet. -/
def tenants : service.State := service.serveAll (World.empty _) [registerAlice, registerBob, linkAlice]

/-- Bob names the wallet and the address of Alice, and then links a wallet of his own. -/
def bobsCalls : List Request :=
  [⟨.setPrimaryWallet ⟨11⟩ ⟨3⟩, oracle []⟩, ⟨.unlinkWallet ⟨11⟩ ⟨3⟩, oracle []⟩,
    ⟨.linkWallet ⟨11⟩ "11111111111111111111111111111115" none true, oracle []⟩,
    ⟨.linkWallet ⟨11⟩ "11111111111111111111111111111119" none true, oracle [{}, { uuid := ⟨13⟩ }]⟩]

theorem bobsCalls_own : ∀ r ∈ bobsCalls, WalletCall ⟨11⟩ r.call := by
  simp only [bobsCalls, List.forall_mem_cons]
  exact ⟨.setPrimaryWallet ⟨3⟩, .unlinkWallet ⟨3⟩, .linkWallet _ none true, .linkWallet _ none true,
    by simp⟩

/-- Alice keeps her wallet, Bob receives his, and Bob's list says the same whether or not
Alice has linked hers. -/
theorem bobs_calls_isolated :
    otherRows (service.serveAll tenants bobsCalls).db ⟨11⟩ = otherRows tenants.db ⟨11⟩ ∧
      (otherRows tenants.db ⟨11⟩).2.map (·.id) = [⟨3⟩] ∧
      (ownRows (service.serveAll tenants bobsCalls).db ⟨11⟩).2.map (·.id) = [⟨13⟩] ∧
      (service.serve tenants ⟨.listWallets ⟨11⟩, oracle []⟩).1 =
        (service.serve (service.serveAll (World.empty _) [registerAlice, registerBob])
          ⟨.listWallets ⟨11⟩, oracle []⟩).1 := by
  obtain ⟨hframe, hquery⟩ := wallet_calls_isolated service ⟨11⟩
  have hrun : (otherRows tenants.db ⟨11⟩).2.map (·.id) = [⟨3⟩] ∧
      (ownRows (service.serveAll tenants bobsCalls).db ⟨11⟩).2.map (·.id) = [⟨13⟩] ∧
      ownRows tenants.db ⟨11⟩ =
        ownRows (service.serveAll (World.empty _) [registerAlice, registerBob]).db ⟨11⟩ := by
    unfold tenants
    rw [serveAll_registered, serveAll_registered]
    decide +kernel
  exact ⟨hframe tenants bobsCalls bobsCalls_own, hrun.1, hrun.2.1,
    hquery _ _ _ .listWallets hrun.2.2⟩

end IamService.TenantIsolation
