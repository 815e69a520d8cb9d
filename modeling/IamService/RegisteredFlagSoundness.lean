import IamService.ChainConfirmation
import IamService.ReferenceStates
import IamService.UserStatements
import IamService.WalletStatements

/-!
# The registered flags are sound

All calls and all detached tasks run together, one operation at a time, over a chain
that may drop a transaction it has acknowledged, land one it has refused, and hide an
account that exists. A flag is only written by a path that has seen the account, and
accounts are never removed, so a flag that is set names an account that exists.
-/

namespace IamService.RegisteredFlagSoundness
open EffectPrograms RelationTables WalletRepository ChainConfirmation ReferenceLibraries

variable (self : AuthService)

/-- The Registry account derived from a wallet address exists. -/
def AddressOnChain (w : self.State) (walletAddress : String) : Prop :=
  ∃ pubkey pda, self.lib.parsePubkey walletAddress = .ok pubkey ∧
    self.registryPda pubkey = some pda ∧ w.chain.Exists pda

/-- A text is the address of an account that exists. -/
def TextOnChain (w : self.State) (text : String) : Prop :=
  ∃ pda, text = self.lib.pubkeyToString pda ∧ w.chain.Exists pda

/-- Every flag that is set is backed by an account on chain. -/
structure FlagsSound (w : self.State) : Prop where
  wallets : ∀ r ∈ w.db.wallets, r.blockchainRegistered = true →
    AddressOnChain self w r.walletAddress
  users : ∀ x ∈ w.db.users, x.blockchainRegistered = true →
    ∃ text, x.userAccountPda = some text ∧ TextOnChain self w text

/-- Tables without a flag, and no detached task. -/
structure Unregistered (w : self.State) : Prop where
  wallets : ∀ r ∈ w.db.wallets, r.blockchainRegistered = false
  users : ∀ x ∈ w.db.users, x.blockchainRegistered = false
  tasks : w.tasks = []

/-- Any call may arrive at any time, and a spawned task may start at any time. -/
def Launched (w : self.State) (p : Program AuthService.Returned) : Prop :=
  ∃ call, p = self.program call ∧ ∀ task, call = .registrationTask task → task ∈ w.tasks

/-- A task registers the key of the wallet it was spawned for. -/
def TasksMatch (w : self.State) : Prop :=
  ∀ task ∈ w.tasks, task.walletAddress = self.lib.pubkeyToString task.pubkey

def permitted (w : self.State) (o : Op) : Prop :=
  match o with
  | .wallet (.markRegistered _ walletAddress _) => AddressOnChain self w walletAddress
  | .user (.markUserOnboarded _ _ _ _ pda _) => TextOnChain self w pda
  | .host (.spawn task) => task.walletAddress = self.lib.pubkeyToString task.pubkey
  | _ => True

/-- Programs rely on accounts staying on chain. -/
def discipline : Discipline Op Choice self.State where
  inv := fun w => FlagsSound self w ∧ TasksMatch self w
  rely := fun w v => ∀ pda, w.chain.Exists pda → v.chain.Exists pda
  permits := permitted self
  admits := fun _ _ _ => True

variable {self}

theorem AddressOnChain.rely {w v : self.State} {walletAddress : String}
    (h : AddressOnChain self w walletAddress) (hr : (discipline self).rely w v) :
    AddressOnChain self v walletAddress := by
  obtain ⟨pubkey, pda, hp, hd, he⟩ := h
  exact ⟨pubkey, pda, hp, hd, hr pda he⟩

theorem TextOnChain.rely {w v : self.State} {text : String} (h : TextOnChain self w text)
    (hr : (discipline self).rely w v) : TextOnChain self v text := by
  obtain ⟨pda, ht, he⟩ := h
  exact ⟨pda, ht, hr pda he⟩

section Statements

variable {lower : String → String}

/-- No flag is set that was not set, for the same address, before. -/
structure NoNewFlags (db db' : Database lower) : Prop where
  wallets : ∀ r ∈ db'.wallets, r.blockchainRegistered = true →
    ∃ s ∈ db.wallets, s.blockchainRegistered = true ∧ s.walletAddress = r.walletAddress
  users : ∀ x ∈ db'.users, x.blockchainRegistered = true →
    ∃ y ∈ db.users, y.blockchainRegistered = true ∧ y.userAccountPda = x.userAccountPda

theorem noNewFlags_of_same {db db' : Database lower}
    (hw : db'.wallets.map (fun r => (r.blockchainRegistered, r.walletAddress)) =
      db.wallets.map (fun r => (r.blockchainRegistered, r.walletAddress)))
    (hu : db'.users.map (fun x => (x.blockchainRegistered, x.userAccountPda)) =
      db.users.map (fun x => (x.blockchainRegistered, x.userAccountPda))) :
    NoNewFlags db db' :=
  ⟨flag_of_map _ _ (fun _ ha _ => hw ▸ ha), flag_of_map _ _ (fun _ ha _ => hu ▸ ha)⟩

theorem noNewFlags_user (c : Choice) (now : ℕ) (db : Database lower) (q : UserOp)
    (hq : (Op.user q).kind ≠ .markUserOnboarded) :
    NoNewFlags db (UserRepository.handle c now db q).2 := by
  have hrefl : NoNewFlags db db := noNewFlags_of_same rfl rfl
  cases q with
  | create newUser =>
    rcases UserRepository.create_cases c now db newUser with ⟨e, h⟩ | ⟨fitted, db', -, h, hw, hu⟩
    · simpa only [UserRepository.handle, h] using hrefl
    · simp only [UserRepository.handle, h]
      refine ⟨hw ▸ hrefl.wallets, ?_⟩
      intro x hx hf
      rcases List.mem_append.mp (hu ▸ hx) with hx | hx
      · exact ⟨x, hx, hf, rfl⟩
      · rw [List.mem_singleton.mp hx] at hf
        cases hf
  | verifyEmail email =>
    rcases UserRepository.verifyEmail_cases c db email with ⟨e, h⟩ | h
    · simpa only [UserRepository.handle, h] using hrefl
    · simp only [UserRepository.handle, h]
      exact noNewFlags_of_same rfl (map_updateWhere _ _ (fun _ => rfl))
  | setWalletAddress userId address =>
    rcases UserRepository.setWalletAddress_cases c db userId address with
      ⟨e, h⟩ | ⟨text, db', -, h, hw, hu⟩
    · simpa only [UserRepository.handle, h] using hrefl
    · simp only [UserRepository.handle, h]
      exact noNewFlags_of_same (by rw [hw]) (hu ▸ map_updateWhere _ _ (fun _ => rfl))
  | setVerificationToken userId token =>
    rcases UserRepository.setVerificationToken_cases c now db userId token with
      ⟨e, h⟩ | ⟨text, db', -, h, hw, hu⟩
    · simpa only [UserRepository.handle, h] using hrefl
    · simp only [UserRepository.handle, h]
      exact noNewFlags_of_same (by rw [hw]) (hu ▸ map_updateWhere _ _ (fun _ => rfl))
  | updatePassword email passwordHash =>
    rcases UserRepository.updatePassword_cases c db email passwordHash with
      ⟨e, h⟩ | ⟨text, db', -, h, hw, hu⟩
    · simpa only [UserRepository.handle, h] using hrefl
    · simp only [UserRepository.handle, h]
      exact noNewFlags_of_same (by rw [hw]) (hu ▸ map_updateWhere _ _ (fun _ => rfl))
  | markUserOnboarded userId userType lat long pda signature => simp at hq
  | findByUsernameOrEmail identity => exact hrefl
  | findById id => exact hrefl
  | findEmailByToken token => exact hrefl
  | findVerificationStateByEmail email => exact hrefl

/-- Rows that are appended without the flag, or only change whether they are primary. -/
theorem noNewFlags_append {db db' : Database lower} {rows : List WalletRow} {row : WalletRow}
    (hw : db'.wallets = rows ++ [row]) (hrow : row.blockchainRegistered = false)
    (hrows : rows.map (fun r => (r.blockchainRegistered, r.walletAddress)) =
      db.wallets.map (fun r => (r.blockchainRegistered, r.walletAddress)))
    (hu : db'.users.map (fun x => (x.blockchainRegistered, x.userAccountPda)) =
      db.users.map (fun x => (x.blockchainRegistered, x.userAccountPda))) :
    NoNewFlags db db' := by
  refine ⟨?_, flag_of_map _ _ (fun _ ha _ => hu ▸ ha)⟩
  intro r hr hf
  rcases List.mem_append.mp (hw ▸ hr) with hr | hr
  · exact flag_of_map (·.blockchainRegistered) (·.walletAddress) (fun _ ha _ => hrows ▸ ha) r hr hf
  · rw [List.mem_singleton.mp hr, hrow] at hf
    cases hf

theorem noNewFlags_wallet (c : Choice) (now : ℕ) (db : Database lower) (q : WalletOp)
    (hq : (Op.wallet q).kind ≠ .markRegistered) :
    NoNewFlags db (WalletRepository.handle c now db q).2 := by
  have hrefl : NoNewFlags db db := noNewFlags_of_same rfl rfl
  cases q with
  | setPrimary userId walletId =>
    simp only [WalletRepository.handle, setPrimary_eq]
    split
    · exact hrefl
    · exact noNewFlags_of_same (map_promoted db userId walletId _ (fun _ _ => rfl)) rfl
  | deleteIfNotPrimary userId walletId =>
    simp only [WalletRepository.handle, deleteIfNotPrimary_eq]
    split
    · exact hrefl
    · refine ⟨?_, hrefl.users⟩
      intro r hr hf
      exact ⟨r, (List.mem_filter.mp hr).1, hf, rfl⟩
  | clearPrimary userId =>
    simp only [WalletRepository.handle, clearPrimary_eq]
    split
    · exact hrefl
    · exact noNewFlags_of_same (map_demote db userId _ (fun _ => rfl)) rfl
  | insert userId walletAddress label isPrimary =>
    simp only [WalletRepository.handle]
    cases hi : (WalletRepository.insert c now db userId walletAddress label isPrimary).1 with
    | error e => rw [insert_error hi]; exact hrefl
    | ok wallet =>
      obtain ⟨row, hrow, -, -, hu, hw⟩ := insert_ok hi
      exact noNewFlags_append hw (candidate_ok hrow).2.2.2.1 rfl (by rw [hu])
  | persistCustodialWallet userId walletAddress label key kdfVersion =>
    rcases persistCustodialWallet_cases c now db userId walletAddress label key kdfVersion with
      ⟨e, h⟩ | ⟨row, address, db', hrow, -, -, h, hw, hu⟩
    · simpa only [WalletRepository.handle, h] using hrefl
    · simp only [WalletRepository.handle, h]
      exact noNewFlags_append hw (candidate_ok hrow).2.2.2.1
        (map_demote db userId _ (fun _ => rfl)) (hu ▸ map_updateWhere _ _ (fun _ => rfl))
  | markRegistered userId address signature => simp at hq
  | listByUserId userId => exact hrefl
  | findByIdAndUserId id userId => exact hrefl
  | «exists» userId walletId => exact hrefl
  | hasAnyWallet userId => exact hrefl
  | findPrimaryAddress userId => exact hrefl

end Statements

section Soundness

theorem flagsSound_of_noNewFlags {w v : self.State} (h : FlagsSound self w)
    (hdb : NoNewFlags w.db v.db) (hr : (discipline self).rely w v) : FlagsSound self v := by
  obtain ⟨hwallets, husers⟩ := h
  constructor
  · intro r hrow hf
    obtain ⟨s, hs, hsf, he⟩ := hdb.wallets r hrow hf
    exact he ▸ (hwallets s hs hsf).rely hr
  · intro x hx hf
    obtain ⟨y, hy, hyf, he⟩ := hdb.users x hx hf
    obtain ⟨text, ht, hon⟩ := husers y hy hyf
    exact ⟨text, he ▸ ht, hon.rely hr⟩

/-- Recording the registration of an address that is on chain. -/
theorem flagsSound_markRegistered {w v : self.State} {c : Choice} {userId : Uuid}
    {address signature : String} (h : FlagsSound self w) (hon : AddressOnChain self w address)
    (hv : v.db = (markRegistered c w.db userId address signature).2)
    (hr : (discipline self).rely w v) : FlagsSound self v := by
  rcases markRegistered_cases c w.db userId address signature with
    ⟨e, hm⟩ | ⟨text, db', -, hm, hu, hw⟩
  · exact flagsSound_of_noNewFlags h (hv ▸ hm ▸ noNewFlags_of_same rfl rfl) hr
  · obtain ⟨hwallets, husers⟩ := h
    rw [hm] at hv
    constructor
    · intro r hrow hf
      rw [hv, hw, mem_updateWhere] at hrow
      obtain ⟨s, hs, rfl⟩ := hrow
      by_cases hmatch : s.userId = userId ∧ s.walletAddress = address
      · rw [if_pos (by simpa using hmatch)]
        exact hmatch.2 ▸ hon.rely hr
      · rw [if_neg (by simpa using hmatch)] at hf ⊢
        exact (hwallets s hs hf).rely hr
    · intro x hx hf
      rw [hv, hu] at hx
      obtain ⟨t, ht, hont⟩ := husers x hx hf
      exact ⟨t, ht, hont.rely hr⟩

/-- Recording a user's registration under the text of an account that is on chain. -/
theorem flagsSound_markUserOnboarded (laws : KeyLaws self.lib) {w v : self.State} {c : Choice}
    {userId : Uuid} {userType : String} {lat long : Int32} {pda signature : String}
    (h : FlagsSound self w) (hon : TextOnChain self w pda)
    (hv : v.db = (UserRepository.markUserOnboarded c w.db userId userType lat long pda
      signature).2) (hr : (discipline self).rely w v) : FlagsSound self v := by
  rcases UserRepository.markUserOnboarded_cases c w.db userId userType lat long pda signature with
    ⟨e, hm⟩ | ⟨type, address, text, db', -, ha, -, hm, hw, hu⟩
  · exact flagsSound_of_noNewFlags h (hv ▸ hm ▸ noNewFlags_of_same rfl rfl) hr
  · obtain ⟨hwallets, husers⟩ := h
    rw [hm] at hv
    constructor
    · intro r hrow hf
      rw [hv, hw] at hrow
      exact (hwallets r hrow hf).rely hr
    · intro x hx hf
      rw [hv, hu, mem_updateWhere] at hx
      obtain ⟨y, hy, rfl⟩ := hx
      by_cases hmatch : y.id = userId
      · rw [if_pos (by simpa using hmatch)]
        obtain ⟨key, rfl, he⟩ := hon
        -- the text of a key fits its column, so it is stored as it is
        rw [fit_of_le ((laws.text_length key).trans (by decide))] at ha
        cases ha
        exact ⟨_, rfl, key, rfl, hr key he⟩
      · rw [if_neg (by simpa using hmatch)] at hf ⊢
        obtain ⟨t, ht, hont⟩ := husers y hy hf
        exact ⟨t, ht, hont.rely hr⟩

theorem discipline_sound (laws : KeyLaws self.lib) : (discipline self).Sound self.handle where
  refl := fun _ _ h => h
  trans := fun h₁ h₂ pda h => h₂ pda (h₁ pda h)
  rely_step := fun {c w o} _ _ _ pda h => self.exists_handle c w h o
  inv_step := by
    rintro c w o ⟨hflags, htasks⟩ hperm -
    have hrely : (discipline self).rely w (self.handle c w o).2 :=
      fun pda h => self.exists_handle c w h o
    refine ⟨?_, ?_⟩
    · cases o with
      | user q =>
        by_cases hq : (Op.user q).kind = .markUserOnboarded
        · cases q <;> simp at hq
          exact flagsSound_markUserOnboarded laws hflags hperm rfl hrely
        · exact flagsSound_of_noNewFlags hflags (noNewFlags_user _ _ _ _ hq) hrely
      | wallet q =>
        by_cases hq : (Op.wallet q).kind = .markRegistered
        · cases q <;> simp at hq
          exact flagsSound_markRegistered hflags hperm rfl hrely
        · exact flagsSound_of_noNewFlags hflags (noNewFlags_wallet _ _ _ _ hq) hrely
      | cache q => exact flagsSound_of_noNewFlags hflags (noNewFlags_of_same rfl rfl) hrely
      | bus q => exact flagsSound_of_noNewFlags hflags (noNewFlags_of_same rfl rfl) hrely
      | chain q => exact flagsSound_of_noNewFlags hflags (noNewFlags_of_same rfl rfl) hrely
      | host q =>
        have hdb := self.handle_host_db c w q
        exact flagsSound_of_noNewFlags hflags (noNewFlags_of_same (by rw [hdb]) (by rw [hdb]))
          hrely
    · rcases self.tasks_handle c w o with h | ⟨task, rfl, h⟩
      · exact fun t ht => htasks t (h ▸ ht)
      · intro t ht
        rcases List.mem_append.mp (h ▸ ht) with ht | ht
        · exact htasks t ht
        · rw [List.mem_singleton.mp ht]
          exact hperm

end Soundness

section Programs

/-- Operations that set no flag and spawn nothing are permitted everywhere. -/
theorem permitted_of_kind {o : Op} (h : o.kind ∉ [OpKind.markRegistered, .markUserOnboarded, .spawn])
    (w : self.State) : permitted self w o := by
  unfold permitted
  split <;> simp at h ⊢

theorem limited_safe {α : Type} (kinds : List OpKind) {p : Program α} (h : Limited kinds p)
    (hk : ∀ k ∈ kinds, k ∉ [OpKind.markRegistered, .markUserOnboarded, .spawn]) (w : self.State) :
    Safe self.handle (discipline self) (fun _ _ => True) p w :=
  Issues.safe (fun w o ho => permitted_of_kind (hk o.kind ho) w) h w

/-- Looking at accounts, waiting and submitting are permitted everywhere. -/
theorem permitted_chain (w : self.State) (o : Op)
    (h : o.kind ∈ [OpKind.lookAccount, .sleep, .submit]) : (discipline self).permits w o := by
  have hdisjoint : ∀ k ∈ [OpKind.lookAccount, .sleep, .submit],
      k ∉ [OpKind.markRegistered, .markUserOnboarded, .spawn] := by decide
  exact permitted_of_kind (hdisjoint o.kind h) w

theorem registrationTask_safe (laws : KeyLaws self.lib) (task : RegistrationTask)
    (ht : task.walletAddress = self.lib.pubkeyToString task.pubkey) (w : self.State) :
    Safe self.handle (discipline self) (fun _ _ => True) (self.registrationTask task).run w := by
  refine blockchain_safe permitted_chain ?_
  intro submitted w₁
  cases submitted with
  | error e => trivial
  | ok signature =>
    refine Safe.observeBind ((confirmRegistered_safe permitted_chain task.pubkey w₁).mono ?_)
    intro seen w₂ hseen
    cases seen with
    | false => trivial
    | true =>
      obtain ⟨pda, hpda, hon⟩ := hseen rfl
      refine Safe.observeBind ?_
      intro w₃ hr₃ _
      refine ⟨⟨task.pubkey, pda, by rw [ht, laws.parse_text], hpda, hr₃ pda hon⟩, ?_⟩
      intro c _
      refine Safe.observeBind ?_
      intro w₄ hr₄ _
      refine ⟨⟨pda, by simp [hpda], hr₄ pda (self.exists_handle c w₃ (hr₃ pda hon) _)⟩, ?_⟩
      exact fun _ _ => trivial

theorem provision_safe (user : User) (w : self.State) :
    Safe self.handle (discipline self) (fun _ _ => True)
      (self.provisionCustodialWallet user).run w := by
  refine Safe.andThen (limited_safe [.readHost] (by simp [Limited, host]) (by simp) w) ?_
  intro keypair w
  refine Safe.andThen (limited_safe [.readHost] (by simp [Limited, host]) (by simp) w) ?_
  intro key w
  cases key with
  | error e => trivial
  | ok key =>
    refine Safe.andThen (limited_safe [.persistCustodialWallet] (by simp [Limited, walletRepo])
      (by simp) w) ?_
    intro wallet w
    exact Safe.observeBind (fun _ _ _ => ⟨rfl, fun _ _ => trivial⟩)

theorem verifyEmail_safe (token : String) (w : self.State) :
    Safe self.handle (discipline self) (fun _ _ => True) (self.verifyEmail token).run w := by
  refine Safe.andThen (limited_safe _ (self.verifiedAddress_limited token) (by simp) w) ?_
  intro email w
  refine Safe.andThen (limited_safe [.verifyEmail] (by simp [Limited, userRepo]) (by simp) w) ?_
  intro activated w
  cases activated with
  | none => trivial
  | some activated =>
    refine Safe.andThen ?_ (fun user w =>
      limited_safe _ (self.verifiedSession_limited user) (by simp) w)
    refine Safe.andThen (limited_safe [.readWallets] (by simp [Limited, walletRepo])
      (by simp) w) ?_
    intro hasWallet w
    split
    · refine Safe.andThen (provision_safe activated w).observe ?_
      intro wallet w
      cases wallet <;> trivial
    · trivial

theorem autoRegister_safe (userId : Uuid) (walletAddress : String) (user : User)
    (wallet : UserWallet) (w : self.State) : Safe self.handle (discipline self) (fun _ _ => True)
      (self.autoRegister userId walletAddress user wallet).run w := by
  unfold AuthService.autoRegister
  cases hp : self.lib.parsePubkey walletAddress with
  | error e => trivial
  | ok pubkey =>
    refine blockchain_safe permitted_chain ?_
    intro submitted w₁
    cases submitted with
    | error e => trivial
    | ok signature =>
      refine Safe.observeBind ((confirmRegistered_safe permitted_chain pubkey w₁).mono ?_)
      intro seen w₂ hseen
      cases seen with
      | false => trivial
      | true =>
        obtain ⟨pda, hpda, hon⟩ := hseen rfl
        refine Safe.observeBind ?_
        intro w₃ hr₃ _
        refine ⟨⟨pubkey, pda, hp, hpda, hr₃ pda hon⟩, ?_⟩
        intro c _
        cases self.lib.pubkeyFromStr self.config.registryProgramId with
        | error e => trivial
        | ok programId => exact limited_safe [.publish] (by simp [Limited, eventBus]) (by simp) _

theorem linkWallet_safe (userId : Uuid) (walletAddress : String) (label : Option String)
    (isPrimary : Bool) (w : self.State) : Safe self.handle (discipline self) (fun _ _ => True)
      (self.linkWallet userId walletAddress label isPrimary).run w := by
  have hregister : ∀ wallet w, Safe self.handle (discipline self) (fun _ _ => True)
      (self.registerLinked userId walletAddress wallet).run w := by
    intro wallet w
    refine Safe.andThen (limited_safe [.findById] (by simp [Limited, userRepo]) (by simp) w) ?_
    intro found w
    split
    · split
      · exact autoRegister_safe _ _ _ _ w
      · trivial
    · trivial
  have hinsert : ∀ hasExisting w, Safe self.handle (discipline self) (fun _ _ => True)
      (self.insertLinked userId walletAddress label isPrimary hasExisting).run w := by
    intro hasExisting w
    refine Safe.andThen (limited_safe [.insertWallet] (by simp [Limited, walletRepo])
      (by simp) w) ?_
    intro wallet w
    unfold AuthService.afterInsert
    split
    · exact Safe.andThen (limited_safe [.setWalletAddress] (by simp [Limited, userRepo])
        (by simp) w) (fun _ w => hregister wallet w)
    · exact hregister wallet w
  unfold AuthService.linkWallet
  split
  · trivial
  · refine Safe.andThen (limited_safe [.readWallets] (by simp [Limited, walletRepo])
      (by simp) w) ?_
    intro hasExisting w
    split
    · exact Safe.andThen (limited_safe [.clearPrimary] (by simp [Limited, walletRepo])
        (by simp) w) (fun _ w => hinsert hasExisting w)
    · exact hinsert hasExisting w

theorem initializeUserWallet_safe (userId : Uuid) (walletAddress : String) (w : self.State) :
    Safe self.handle (discipline self) (fun _ _ => True)
      (self.initializeUserWallet userId walletAddress).run w := by
  unfold AuthService.initializeUserWallet
  cases hp : self.lib.parsePubkey walletAddress with
  | error e => trivial
  | ok pubkey =>
    refine blockchain_safe permitted_chain ?_
    intro submitted w₁
    cases submitted with
    | error e => trivial
    | ok signature =>
      refine Safe.observeBind ((confirmRegistered_safe permitted_chain pubkey w₁).mono ?_)
      intro seen w₂ hseen
      cases seen with
      | false => trivial
      | true =>
        obtain ⟨pda, hpda, hon⟩ := hseen rfl
        refine Safe.andThen ?_ (fun _ _ => trivial)
        intro w₃ hr₃ _
        exact ⟨⟨pubkey, pda, hp, hpda, hr₃ pda hon⟩, fun _ _ => trivial⟩

/-- Both flags may be written once the account of the wallet has been seen. -/
theorem marks_safe {ε β : Type} {userId : Uuid} {walletAddress userType signature : String}
    {lat long : Int32} {pubkey pda : Pubkey} {f : Result Unit → Result Unit → Fallible Op.Ans ε β}
    {w : self.State} (hp : self.lib.parsePubkey walletAddress = .ok pubkey)
    (hpda : self.registryPda pubkey = some pda) (hon : w.chain.Exists pda)
    (hf : ∀ a b v, Safe self.handle (discipline self) (fun _ _ => True) (f a b).run v) :
    Safe self.handle (discipline self) (fun _ _ => True) (do
      let userMarked ← observe (userRepo (.markUserOnboarded userId userType lat long
        (self.lib.pubkeyToString pda) signature))
      let walletMarked ← observe (walletRepo (.markRegistered userId walletAddress signature))
      f userMarked walletMarked : Fallible Op.Ans ε β).run w := by
  refine Safe.observeBind ?_
  intro w₁ hr₁ _
  refine ⟨⟨pda, rfl, hr₁ pda hon⟩, ?_⟩
  intro c _
  refine Safe.observeBind ?_
  intro w₂ hr₂ _
  exact ⟨⟨pubkey, pda, hp, hpda, hr₂ pda (self.exists_handle c w₁ (hr₁ pda hon) _)⟩,
    fun _ _ => hf _ _ _⟩

theorem onboardUserOnChain_safe (userId : Uuid) (userType : UserType) (latE7 longE7 : Int32)
    (h3Index : Option UInt64) (shardId : Option UInt8) (w : self.State) :
    Safe self.handle (discipline self) (fun _ _ => True)
      (self.onboardUserOnChain userId userType latE7 longE7 h3Index shardId).run w := by
  refine Safe.andThen (limited_safe [.readWallets] (by simp [Limited, walletRepo]) (by simp) w) ?_
  intro found w
  cases found with
  | none => trivial
  | some walletAddress =>
    dsimp only
    cases hp : self.lib.parsePubkey walletAddress with
    | error e => trivial
    | ok pubkey =>
      dsimp only
      cases hprog : self.lib.pubkeyFromStr self.config.registryProgramId with
      | error e => trivial
      | ok programId =>
        have hpda : self.registryPda pubkey = some (self.lib.findProgramAddress pubkey programId) := by
          rw [AuthService.registryPda, hprog]
        refine Safe.observeBind ?_
        intro w₁ _ _
        refine ⟨trivial, ?_⟩
        intro c _
        change Safe self.handle (discipline self) _ (ExceptT.run (if _ then _ else _)) _
        split
        · rename_i hseen
          exact marks_safe hp hpda (accountExists_seen hseen) (fun _ _ _ => trivial)
        · refine blockchain_safe permitted_chain ?_
          intro submitted w₂
          cases submitted with
          | error e => trivial
          | ok signature =>
            refine Safe.observeBind ((pollAccount_safe permitted_chain _ 20 w₂).mono ?_)
            intro seen w₃ hseen
            cases seen with
            | false => trivial
            | true => exact marks_safe hp hpda (hseen rfl) (fun _ _ v =>
                limited_safe [.publish] (by simp [Limited, eventBus]) (by simp) v)

/-- Every call is safe; a task is, when it registers the key of its wallet. -/
theorem method_safe (laws : KeyLaws self.lib) (call : Call)
    (ht : ∀ task, call = .registrationTask task →
      task.walletAddress = self.lib.pubkeyToString task.pubkey) (w : self.State) :
    Safe self.handle (discipline self) (fun _ _ => True) (self.method call).run w := by
  cases call with
  | registrationTask task => exact registrationTask_safe laws task (ht task rfl) w
  | verifyEmail token => exact verifyEmail_safe token w
  | linkWallet userId walletAddress label isPrimary => exact linkWallet_safe _ _ _ _ w
  | initializeUserWallet userId walletAddress => exact initializeUserWallet_safe _ _ w
  | onboardUserOnChain userId userType latE7 longE7 h3Index shardId =>
    exact onboardUserOnChain_safe _ _ _ _ _ _ w
  | _ => exact limited_safe _ (self.method_limited _) (by simp) w

end Programs

/-- In every interleaving of calls and tasks, over any behaviour of the chain, every flag
that is set names an account that exists. -/
theorem registered_flags_sound (laws : KeyLaws self.lib) {w : self.State}
    {ps : List (Program AuthService.Returned)}
    (h : Reach self.handle (Launched self) (fun _ _ _ => True) (Unregistered self) w ps) :
    FlagsSound self w := by
  have hinv := Reach.inv (D := discipline self) (discipline_sound laws) ?_ ?_ h
  · exact hinv.1
  · rintro s ⟨hwallets, husers, htasks⟩
    refine ⟨⟨?_, ?_⟩, ?_⟩
    · intro r hr hf
      simp [hwallets r hr] at hf
    · intro x hx hf
      simp [husers x hx] at hf
    · simp [TasksMatch, htasks]
  · rintro s _ ⟨-, htasks⟩ ⟨call, rfl, hcall⟩
    refine Safe.bind ((method_safe laws call ?_ s).mono (fun _ _ _ => trivial))
    exact fun task he => htasks task (hcall task he)

section Alice

/-- Alice verifies her email and receives a custodial wallet. -/
def verifying : service.State × List (Program AuthService.Returned) :=
  schedule service.handle (registered, [service.program (.verifyEmail aliceToken)])
    [(0, {}), (0, {}), (0, {}), (0, { keypair := ⟨5⟩ }), (0, {}), (0, { uuid := ⟨4⟩ }), (0, {}),
      (0, {}), (0, {}), (0, {}), (0, {}), (0, {})]

/-- The task submits a transaction, which lands before the first poll. -/
def onboarded : service.State × List (Program AuthService.Returned) :=
  schedule service.handle (verifying.1, verifying.2 ++ [service.program (.registrationTask aliceTask)])
    [(1, { submits := true, signature := "5SiG" }), (1, { lands := [0] }), (1, {}), (1, {})]

theorem reach_onboarded : Reach service.handle (Launched service) (fun _ _ _ => True)
    (Unregistered service) onboarded.1 onboarded.2 := by
  have hinit : Unregistered service registered := by
    rw [registered_eq]
    exact ⟨by decide +kernel, by decide +kernel, by decide +kernel⟩
  have hverify : Launched service registered (service.program (.verifyEmail aliceToken)) := by
    refine ⟨_, rfl, ?_⟩
    intro _ h
    cases h
  have hverified : Reach service.handle (Launched service) (fun _ _ _ => True)
      (Unregistered service) verifying.1 verifying.2 :=
    ((Reach.init hinit).start hverify).schedule _ (Admitted.of_forall (fun _ _ _ => trivial) _ _)
  have htask : Launched service verifying.1 (service.program (.registrationTask aliceTask)) := by
    refine ⟨_, rfl, ?_⟩
    intro task he
    cases he
    unfold verifying
    rw [registered_eq]
    decide +kernel
  exact (hverified.start htask).schedule _ (Admitted.of_forall (fun _ _ _ => trivial) _ _)

theorem registered_flags_sound_onboarded :
    (∃ r ∈ onboarded.1.db.wallets, r.blockchainRegistered = true) ∧
      (∃ x ∈ onboarded.1.db.users, x.blockchainRegistered = true) ∧
      FlagsSound service onboarded.1 := by
  have hflags : (∃ r ∈ onboarded.1.db.wallets, r.blockchainRegistered = true) ∧
      ∃ x ∈ onboarded.1.db.users, x.blockchainRegistered = true := by
    unfold onboarded verifying
    rw [registered_eq]
    decide +kernel
  exact ⟨hflags.1, hflags.2, @registered_flags_sound service keyLaws _ _ reach_onboarded⟩

end Alice

end IamService.RegisteredFlagSoundness
