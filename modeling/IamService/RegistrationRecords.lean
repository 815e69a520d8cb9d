import IamService.DriftRecovery
import IamService.WalletAddressTracking

/-!
# Whether a reported registration is recorded

The chain decides on success, and separate statements record it. An onboarding that has
submitted reports a failed statement as a pending reconciliation; the shortcut of an
onboarding and the linking of a wallet discard it, and the initialization of a wallet
never learns that its statement matched no row.
-/

namespace IamService.RegistrationRecords
open EffectPrograms RelationTables UserRepository WalletRepository AuthService OnboardingRuns
open DriftRecovery WalletAddressTracking

section Statements

variable {lower : String → String} {c : Choice} {db : Database lower} {userId : Uuid}
  {address : String}

/-- The primary wallet of the user has the flag. -/
def PrimaryFlag (db : Database lower) (userId : Uuid) : Prop :=
  ∃ r ∈ db.wallets, r.userId = userId ∧ r.isPrimary = true ∧ r.blockchainRegistered = true

/-- The primary wallet of the user has the address. -/
def PrimaryAt (db : Database lower) (userId : Uuid) (address : String) : Prop :=
  ∃ r ∈ db.wallets, r.userId = userId ∧ r.isPrimary = true ∧ r.walletAddress = address

theorem primaryFlag_iff (h : PrimaryAt db userId address) :
    PrimaryFlag db userId ↔ WalletFlag db userId address true := by
  obtain ⟨r, hr, hu, hp, ha⟩ := h
  constructor
  · rintro ⟨s, hs, hsu, hsp, hflag⟩
    have hsame : s = r := db.primary_unique hs hr (hsu.trans hu.symm) hsp hp
    exact ⟨s, hs, hsu, hsame ▸ ha, hflag⟩
  · rintro ⟨s, hs, hsu, hsa, hflag⟩
    have hsame : s = r :=
      eq_of_key (·.walletAddress) db.unique.walletAddress hs hr (hsa.trans ha.symm)
    exact ⟨s, hs, hsu, hsame ▸ hp, hflag⟩

/-- Recording a wallet moves no primary wallet. -/
theorem primaryAt_markRegistered {signature : String} {userId' : Uuid} {address' : String}
    (h : PrimaryAt db userId address) :
    PrimaryAt (markRegistered c db userId' address' signature).2 userId address := by
  obtain ⟨r, hr, hu, hp, ha⟩ := h
  rcases markRegistered_cases c db userId' address' signature with
    ⟨e, he⟩ | ⟨text, db', -, hdb, -, hwallets⟩
  · rw [he]
    exact ⟨r, hr, hu, hp, ha⟩
  · rw [hdb]
    refine ⟨_, hwallets ▸ mem_updateWhere.mpr ⟨r, hr, rfl⟩, ?_, ?_, ?_⟩
    · split <;> exact hu
    · split <;> exact hp
    · split <;> exact ha

/-- The users row is flagged when the statement succeeds, or was flagged before. -/
theorem userFlag_mark_iff {userType : String} {lat long : Int32} {pda signature : String}
    (hrow : ∃ x ∈ db.users, x.id = userId) :
    UserFlag (markUserOnboarded c db userId userType lat long pda signature).2 userId true ↔
      (markUserOnboarded c db userId userType lat long pda signature).1 = .ok () ∨
        UserFlag db userId true := by
  obtain ⟨x, hx, hid⟩ := hrow
  rcases markUserOnboarded_cases c db userId userType lat long pda signature with
    ⟨e, he⟩ | ⟨type, key, text, db', -, -, -, hdb, -, husers⟩
  · simp [he]
  · rw [hdb]
    refine iff_of_true ⟨_, husers ▸ mem_updateWhere.mpr ⟨x, hx, rfl⟩, ?_, ?_⟩ (.inl rfl)
    · simp [hid]
    · simp [hid]

/-- The wallet row is flagged when the statement succeeds, or was flagged before. -/
theorem walletFlag_mark_iff {signature : String}
    (hrow : ∃ r ∈ db.wallets, r.userId = userId ∧ r.walletAddress = address) :
    WalletFlag (markRegistered c db userId address signature).2 userId address true ↔
      (markRegistered c db userId address signature).1 = .ok () ∨
        WalletFlag db userId address true := by
  obtain ⟨r, hr, hu, ha⟩ := hrow
  rcases markRegistered_cases c db userId address signature with
    ⟨e, he⟩ | ⟨text, db', -, hdb, -, hwallets⟩
  · simp [he]
  · rw [hdb]
    refine iff_of_true ⟨_, hwallets ▸ mem_updateWhere.mpr ⟨r, hr, rfl⟩, ?_, ?_, ?_⟩ (.inl rfl)
    · simp [hu, ha]
    · simp [hu, ha]
    · simp [hu, ha]

theorem markUserOnboarded_wallets (userType : String) (lat long : Int32) (pda signature : String) :
    (markUserOnboarded c db userId userType lat long pda signature).2.wallets = db.wallets := by
  rcases markUserOnboarded_cases c db userId userType lat long pda signature with
    ⟨e, he⟩ | ⟨type, key, text, db', -, -, -, hdb, hwallets, -⟩
  · rw [he]
  · rw [hdb]
    exact hwallets

theorem markRegistered_users (signature : String) :
    (markRegistered c db userId address signature).2.users = db.users := by
  rcases markRegistered_cases c db userId address signature with
    ⟨e, he⟩ | ⟨text, db', -, hdb, husers, -⟩
  · rw [he]
  · rw [hdb]
    exact husers

/-- Both statements one after the other: each flag is set by its own statement. -/
theorem flags_marked_iff {d : Choice} {userType : String} {lat long : Int32}
    {pda signature : String} (h : PrimaryAt db userId address) :
    let marked := markUserOnboarded c db userId userType lat long pda signature
    let ended := (markRegistered d marked.2 userId address signature).2
    (UserFlag ended userId true ∧ PrimaryFlag ended userId) ↔
      (marked.1 = .ok () ∨ UserFlag db userId true) ∧
        ((markRegistered d marked.2 userId address signature).1 = .ok () ∨ PrimaryFlag db userId) := by
  intro marked ended
  have hwallets : marked.2.wallets = db.wallets := markUserOnboarded_wallets _ _ _ _ _
  have husers : ended.users = marked.2.users := markRegistered_users signature
  have hmarked : PrimaryAt marked.2 userId address := by
    unfold PrimaryAt
    rw [hwallets]
    exact h
  have huser : ∃ x ∈ db.users, x.id = userId := by
    obtain ⟨r, hr, hu, -, -⟩ := h
    obtain ⟨x, hx, hid⟩ := List.mem_map.mp (db.references r hr)
    exact ⟨x, hx, hid.trans hu⟩
  have hwallet : ∃ r ∈ marked.2.wallets, r.userId = userId ∧ r.walletAddress = address := by
    obtain ⟨r, hr, hu, -, ha⟩ := hmarked
    exact ⟨r, hr, hu, ha⟩
  have hflag : WalletFlag marked.2 userId address true ↔ WalletFlag db userId address true := by
    unfold WalletFlag
    rw [hwallets]
  have hended : UserFlag ended userId true ↔ UserFlag marked.2 userId true := by
    unfold UserFlag
    rw [husers]
  rw [primaryFlag_iff (primaryAt_markRegistered hmarked), primaryFlag_iff h, hended,
    userFlag_mark_iff huser, walletFlag_mark_iff hwallet, hflag]

end Statements

variable (self : AuthService)

/-- Where the first lookup of an onboarding sees the account, each row has been flagged
before or the database does not fail at the statement that flags it. -/
def ShortcutRecords (w : self.State) (f : ℕ → Choice) (userId : Uuid) : Prop :=
  ∀ address pubkey pda, PrimaryAccount self w.db userId address pubkey pda → Seen w f pda →
    ((f 2).fails = false ∨ UserFlag w.db userId true) ∧
      ((f 3).fails = false ∨ PrimaryFlag w.db userId)

variable {self} {w : self.State} {f : ℕ → Choice} {userId : Uuid} {address : String}
  {pubkey pda : Pubkey} {userType : UserType} {latE7 longE7 : Int32} {h3Index : Option UInt64}
  {shardId : Option UInt8}

section Onboarding

/-- The statements of the shortcut fail with the database only. -/
theorem shortcut_accepted (laws : KeyLaws self.lib) (hkeys : KeyCharacters self.lib)
    (h : PrimaryAccount self w.db userId address pubkey pda) (c d : Choice) :
    let marked := markUserOnboarded c w.db userId userType.name latE7 longE7
      (self.lib.pubkeyToString pda) preexisting
    (marked.1 = .ok () ↔ c.fails = false) ∧
      ((markRegistered d marked.2 userId address preexisting).1 = .ok () ↔ d.fails = false) := by
  intro marked
  have hplain : sqlText preexisting = true := by decide
  have hname : sqlText userType.name = true := by cases userType <;> decide
  have htype : fit 20 userType.name = .ok userType.name := fit_of_le (by cases userType <;> decide)
  have hkey : fit 88 (self.lib.pubkeyToString pda) = .ok (self.lib.pubkeyToString pda) :=
    fit_of_le ((laws.text_length pda).trans (by decide))
  constructor
  · constructor
    · intro hok
      exact (execute_available hok).1
    · intro hup
      exact markUserOnboarded_accepted hup (by simp [hname, hplain, hkeys _ _ (laws.parse_text pda)])
        htype hkey (fit_of_le (by decide))
  · constructor
    · intro hok
      exact (execute_available hok).1
    · intro hup
      exact markRegistered_accepted hup (by simp [hplain, hkeys _ _ h.2.1]) (fit_of_le (by decide))

/-- The shortcut reports success, whatever its statements answer. -/
theorem shortcut_recorded_iff (laws : KeyLaws self.lib) (hkeys : KeyCharacters self.lib)
    (h : PrimaryAccount self w.db userId address pubkey pda) (hup : (f 0).fails = false)
    (hseen : Seen w f pda) :
    let ended := (run self.handle (self.onboardUserOnChain userId userType latE7 longE7 h3Index
      shardId).run f w).2
    (UserFlag ended.db userId true ∧ PrimaryFlag ended.db userId) ↔
      ShortcutRecords self w f userId := by
  intro ended
  have hended : ended.db = (markRegistered (f 3) (markUserOnboarded (f 2) w.db userId userType.name
      latE7 longE7 (self.lib.pubkeyToString pda) preexisting).2 userId address preexisting).2 := by
    simp only [ended, onboard_shortcut h hup hseen]
    rfl
  obtain ⟨huser, hwallet⟩ := @shortcut_accepted self w userId address pubkey pda userType latE7 longE7
    laws hkeys h (f 2) (f 3)
  rw [hended]
  refine (flags_marked_iff h.1).trans ?_
  rw [huser, hwallet]
  constructor
  · intro hflags address' pubkey' pda' _ _
    exact hflags
  · intro hrecords
    exact hrecords address pubkey pda h hseen

/-- Without the shortcut, success without a pending reconciliation was recorded. -/
theorem submitted_recorded (h : PrimaryAccount self w.db userId address pubkey pda)
    (hup : (f 0).fails = false) (hseen : ¬ Seen w f pda) {result : OnChainOnboardingResult}
    (hok : (run self.handle (self.onboardUserOnChain userId userType latE7 longE7 h3Index
      shardId).run f w).1 = .ok result) (hsuccess : result.success = true)
    (hmessage : result.message ≠ pendingMessage) :
    let ended := (run self.handle (self.onboardUserOnChain userId userType latE7 longE7 h3Index
      shardId).run f w).2
    UserFlag ended.db userId true ∧ PrimaryFlag ended.db userId := by
  intro ended
  simp only [onboard_submits h hup hseen, submitOnboarding_run] at hok
  have hended : ended = (run self.handle (self.submitOnboarding userId address pubkey pda userType
      latE7 longE7 (h3Index.getD 0) (shardId.getD 0)).run (fun n => f (n + 2))
      ((w.evolve (f 0)).evolve (f 1))).2 := by
    simp only [ended, onboard_submits h hup hseen]
  rw [submitOnboarding_run] at hended
  cases hsubmit : (f (0 + 2)).fails with
  | true =>
    simp only [hsubmit, if_true] at hok
    cases hok
    cases hsuccess
  | false =>
    simp only [hsubmit, Bool.false_eq_true, if_false] at hok hended
    obtain ⟨result', hresult, hconcluded⟩ := (confirmOnboarding_concluded (w := (self.handle
      (f (0 + 2)) ((w.evolve (f 0)).evolve (f 1)) (.chain (.registerUserOnChain pubkey userType latE7
        longE7 (h3Index.getD 0) (shardId.getD 0)))).2) (f (0 + 2)).signature).encounters
      (Encounters.of_forall (fun _ _ _ => trivial) _ (fun n => f (n + 1 + 2)) _)
    rw [hresult] at hok
    cases hok
    obtain ⟨v, c, d, e, hdb, -, -, -, hlast, hpending⟩ := hconcluded hsuccess
    obtain ⟨huser, hwallet⟩ := hpending.mp hmessage
    have hrecorded : ended.db = (markRegistered d (markUserOnboarded c w.db userId userType.name
        latE7 longE7 (self.lib.pubkeyToString pda) (f (0 + 2)).signature).2 userId address
        (f (0 + 2)).signature).2 := by
      have hv : v.db = w.db := hdb
      rw [hended, hlast, ← hv]
      rfl
    rw [hrecorded]
    exact (flags_marked_iff h.1).mpr ⟨.inl huser, .inl hwallet⟩

/-- An onboarding that reports success without a pending reconciliation has flagged both rows
exactly when its shortcut, if it was taken, could record. -/
theorem onboard_recorded_iff (laws : KeyLaws self.lib) (hkeys : KeyCharacters self.lib)
    {result : OnChainOnboardingResult}
    (hok : (run self.handle (self.onboardUserOnChain userId userType latE7 longE7 h3Index
      shardId).run f w).1 = .ok result) (hsuccess : result.success = true)
    (hmessage : result.message ≠ pendingMessage) :
    let ended := (run self.handle (self.onboardUserOnChain userId userType latE7 longE7 h3Index
      shardId).run f w).2
    (UserFlag ended.db userId true ∧ PrimaryFlag ended.db userId) ↔
      ShortcutRecords self w f userId := by
  obtain ⟨hup, address, pubkey, pda, h⟩ := onboard_ok hok
  by_cases hseen : Seen w f pda
  · exact shortcut_recorded_iff laws hkeys h hup hseen
  · refine iff_of_true (submitted_recorded h hup hseen hok hsuccess hmessage) ?_
    intro address' pubkey' pda' h' hseen'
    obtain ⟨-, rfl⟩ := h.unique h'
    exact absurd hseen' hseen

end Onboarding

section Initialization

/-- Waiting for an account leaves the tables alone. -/
theorem confirmRegistered_db {admits : Choice → self.State → Op → Prop} (pubkey : Pubkey)
    (w : self.State) :
    Safe self.handle (.solo admits) (fun _ v => v.db = w.db) (self.confirmRegistered pubkey) w := by
  unfold confirmRegistered
  split
  · exact rfl
  · exact (pollAccount_confirms _ 20 rfl).mono (fun _ _ h => h.1)

/-- An initialization that returns a signature has executed its statement. -/
theorem initialize_recorded : Safe self.handle (.solo (fun _ _ _ => True))
    (fun r v => ∀ signature, r = .ok signature → ∃ c,
      (markRegistered c w.db userId address signature).1 = .ok () ∧
        v.db = (markRegistered c w.db userId address signature).2)
    (self.initializeUserWallet userId address).run w := by
  unfold initializeUserWallet
  cases self.lib.parsePubkey address with
  | error e =>
    intro signature h
    cases h
  | ok pubkey =>
    refine Safe.observeBind (safe_solo_eff.mpr ?_)
    intro c _
    rw [safe_ret]
    split
    · intro signature h
      cases h
    · rename_i submitted _
      refine Safe.observeBind ((confirmRegistered_db pubkey _).mono ?_)
      intro confirmed v hv
      have hv : v.db = w.db := hv
      split
      · refine Safe.bindExcept (safe_solo_eff.mpr ?_)
        intro d _
        rw [safe_ret, handle_wallet]
        simp only [WalletRepository.handle, hv]
        cases hmark : (markRegistered d w.db userId address submitted).1 with
        | error e =>
          intro signature h
          cases h
        | ok done =>
          intro signature h
          cases h
          exact ⟨d, hmark, rfl⟩
      · intro signature h
        cases h

/-- A wallet that has been initialized has a flagged row exactly when it has a row. -/
theorem initialize_recorded_iff {signature : String}
    (hok : (run self.handle (self.initializeUserWallet userId address).run f w).1 = .ok signature) :
    WalletFlag (run self.handle (self.initializeUserWallet userId address).run f w).2.db userId
        address true ↔
      ∃ r ∈ w.db.wallets, r.userId = userId ∧ r.walletAddress = address := by
  obtain ⟨c, hmark, hended⟩ := (initialize_recorded (w := w)).encounters
    (Encounters.of_forall (fun _ _ _ => trivial) _ f w) signature hok
  rw [hended]
  constructor
  · rintro ⟨r, hr, hu, ha, -⟩
    obtain ⟨text, -, -, -, hwallets⟩ := markRegistered_ok hmark
    rw [hwallets] at hr
    obtain ⟨s, hs, rfl⟩ := mem_updateWhere.mp hr
    refine ⟨s, hs, ?_, ?_⟩
    · split at hu <;> exact hu
    · split at ha <;> exact ha
  · intro hrow
    exact (walletFlag_mark_iff hrow).mpr (.inl hmark)

end Initialization

section Linking

/-- The database accepts the statement that records a wallet. -/
def Accepted (c : Choice) (_ : self.State) : Op → Prop
  | .wallet (.markRegistered _ address signature) =>
    c.fails = false ∧ [signature, address].all sqlText = true ∧ ∃ text, fit 128 signature = .ok text
  | _ => True

theorem markRegistered_ok_iff {lower : String → String} (db : Database lower) {c : Choice}
    {signature : String} : (markRegistered c db userId address signature).1 = .ok () ↔
      Accepted c w (.wallet (.markRegistered userId address signature)) := by
  constructor
  · intro hok
    obtain ⟨hup, htexts⟩ := execute_available hok
    obtain ⟨text, hfit, -⟩ := markRegistered_ok hok
    exact ⟨hup, htexts, text, hfit⟩
  · rintro ⟨hup, htexts, text, hfit⟩
    exact markRegistered_accepted hup htexts hfit

/-- A returned wallet that claims a registration is stored with it exactly when the statement
was accepted. -/
def Stored (r : Result UserWallet) (t : self.State × Prop) : Prop :=
  ∀ wallet, r = .ok wallet → wallet.blockchainRegistered = true →
    ((∃ x ∈ t.1.db.wallets, x.id = wallet.id ∧ x.blockchainRegistered = true) ↔ t.2)

/-- The row of a new wallet, not flagged yet. -/
def NewRow (w : self.State) (userId : Uuid) (address : String) (wallet : UserWallet) : Prop :=
  wallet.blockchainRegistered = false ∧ ∃ x ∈ w.db.wallets, x.id = wallet.id ∧ x.userId = userId ∧
    x.walletAddress = address ∧ x.blockchainRegistered = false

theorem stored_unclaimed {wallet : UserWallet} (h : wallet.blockchainRegistered = false)
    (t : self.State × Prop) : Stored (.ok wallet) t := by
  rintro _ ⟨⟩ hclaims
  rw [h] at hclaims
  cases hclaims

theorem stored_error (e : ApiError) (t : self.State × Prop) : Stored (.error e) t := by
  intro wallet h
  cases h

theorem stored_mark_iff {wallet : UserWallet} (h : NewRow w userId address wallet) (c : Choice)
    (signature : String) :
    (∃ x ∈ (markRegistered c w.db userId address signature).2.wallets,
        x.id = wallet.id ∧ x.blockchainRegistered = true) ↔
      Accepted c w (.wallet (.markRegistered userId address signature)) := by
  obtain ⟨-, x, hx, hid, hu, ha, hflag⟩ := h
  rw [← markRegistered_ok_iff w.db]
  cases hmark : (markRegistered c w.db userId address signature).1 with
  | error e =>
    refine iff_of_false ?_ (by simp)
    rintro ⟨y, hy, hyid, hyflag⟩
    rw [markRegistered, execute_error hmark] at hy
    have hsame : y = x := eq_of_key (·.id) w.db.unique.walletId hy hx (hyid.trans hid.symm)
    rw [hsame, hflag] at hyflag
    cases hyflag
  | ok done =>
    obtain ⟨text, -, -, -, hwallets⟩ := markRegistered_ok hmark
    refine iff_of_true ⟨registeredBy text x, ?_, hid, rfl⟩ rfl
    rw [hwallets]
    exact mem_updateWhere.mpr ⟨x, hx, by simp [hu, ha]⟩

/-- Operations of a link beside its writes to the wallets. -/
def beside : List OpKind :=
  [.readWallets, .findById, .setWalletAddress, .submit, .lookAccount, .sleep, .publish]

/-- Such operations leave the wallets alone and count as accepted. -/
theorem watched_beside {o : Op} (h : o.kind ∈ beside) (c : Choice) (s : self.State × Prop) :
    (watched self.handle Accepted c s o).2.1.db.wallets = s.1.db.wallets ∧
      ((watched self.handle Accepted c s o).2.2 ↔ s.2) := by
  have haccepted : Accepted c s.1 o := by
    unfold Accepted
    split
    · simp [beside] at h
    · trivial
  refine ⟨?_, and_iff_left haccepted⟩
  change (self.handle c s.1 o).2.db.wallets = s.1.db.wallets
  cases o with
  | user q =>
    rw [handle_user]
    exact UserRepository.handle_wallets _ _ _ q
  | wallet q =>
    by_cases hdb : (Op.wallet q).kind ∈ dbWrites
    · cases q <;> simp [beside, dbWrites] at h hdb
    · rw [self.handle_db_of_kind hdb]
  | host q => rw [handle_host_db]
  | cache q => rfl
  | bus q => rfl
  | chain q => rfl

theorem limited_beside {α : Type} (kinds : List OpKind) {p : Program α} (h : Limited kinds p)
    (hk : ∀ k ∈ kinds, k ∈ beside) (s : self.State × Prop) :
    Safe (watched self.handle Accepted) (.solo (fun _ _ _ => True))
      (fun _ t => t.1.db.wallets = s.1.db.wallets ∧ (t.2 ↔ s.2)) p s := by
  induction p generalizing s with
  | ret a => exact ⟨rfl, Iff.rfl⟩
  | eff o k ih =>
    refine safe_solo_eff.mpr ?_
    intro c _
    obtain ⟨hwallets, hmet⟩ := watched_beside (hk _ h.1) c s
    refine (ih _ (h.2 _) _).mono ?_
    intro _ t ht
    exact ⟨ht.1.trans hwallets, ht.2.trans hmet⟩

theorem NewRow.congr {v : self.State} {wallet : UserWallet} (h : NewRow w userId address wallet)
    (hv : v.db.wallets = w.db.wallets) : NewRow v userId address wallet := by
  unfold NewRow at h ⊢
  rw [hv]
  exact h

/-- A body that begins beside the wallets. -/
theorem besideThen {α : Type} (kinds : List OpKind) {p : Program α} {k : α → Method UserWallet}
    (hp : Limited kinds p) (hk : ∀ x ∈ kinds, x ∈ beside) {s : self.State × Prop}
    {wallet : UserWallet} (hnew : NewRow s.1 userId address wallet) (hs : s.2)
    (h : ∀ a t, NewRow t.1 userId address wallet → t.2 →
      Safe (watched self.handle Accepted) (.solo (fun _ _ _ => True)) Stored (k a).run t) :
    Safe (watched self.handle Accepted) (.solo (fun _ _ _ => True)) Stored (observe p >>= k).run s := by
  refine Safe.observeBind ((limited_beside kinds hp hk s).mono ?_)
  intro a t ht
  exact h a t (hnew.congr ht.1) (ht.2.mpr hs)

theorem autoRegister_stored {s : self.State × Prop} {user : User} {wallet : UserWallet}
    (hnew : NewRow s.1 userId address wallet) (hs : s.2) :
    Safe (watched self.handle Accepted) (.solo (fun _ _ _ => True)) Stored
      (self.autoRegister userId address user wallet).run s := by
  unfold autoRegister
  cases self.lib.parsePubkey address with
  | error e => exact stored_error _ s
  | ok pubkey =>
    refine besideThen [.submit] (by simp [Limited, blockchain]) (by simp [beside]) hnew hs ?_
    intro submitted t hnew ht
    cases submitted with
    | error e => exact stored_unclaimed hnew.1 t
    | ok signature =>
      refine besideThen _ (self.confirmRegistered_limited pubkey) (by simp [beside]) hnew ht ?_
      intro confirmed t hnew ht
      split
      · -- the answer of the statement is discarded
        refine Safe.observeBind (safe_solo_eff.mpr ?_)
        intro c _
        rw [safe_ret]
        cases self.lib.pubkeyFromStr self.config.registryProgramId with
        | error e => exact stored_error _ _
        | ok programId =>
          refine Safe.observeBind ((limited_beside [.publish] (by simp [Limited, eventBus])
            (by simp [beside]) _).mono ?_)
          rintro _ t' ⟨hwallets, hmet⟩
          rintro _ ⟨⟩ -
          have hmark := stored_mark_iff hnew c signature
          rw [hwallets, hmet]
          exact hmark.trans (and_iff_right ht).symm
      · exact stored_unclaimed hnew.1 t

theorem afterInsert_stored {s : self.State × Prop} {isPrimary hasExisting : Bool}
    {wallet : UserWallet} (hnew : NewRow s.1 userId address wallet) (hs : s.2) :
    Safe (watched self.handle Accepted) (.solo (fun _ _ _ => True)) Stored
      (self.afterInsert userId address isPrimary hasExisting wallet).run s := by
  have hlinked : ∀ t : self.State × Prop, NewRow t.1 userId address wallet → t.2 →
      Safe (watched self.handle Accepted) (.solo (fun _ _ _ => True)) Stored
        (self.registerLinked userId address wallet).run t := by
    intro t hnew ht
    refine besideThen [.findById] (by simp [Limited, userRepo]) (by simp [beside]) hnew ht ?_
    intro found t' hnew ht'
    split
    · split
      · exact autoRegister_stored hnew ht'
      · exact stored_unclaimed hnew.1 t'
    · exact stored_unclaimed hnew.1 t'
  unfold afterInsert
  split
  · refine besideThen [.setWalletAddress] (by simp [Limited, userRepo]) (by simp [beside]) hnew hs ?_
    intro _ t hnew ht
    exact hlinked t hnew ht
  · exact hlinked s hnew hs

/-- The insertion stores the row that a link goes on to flag. -/
theorem insertLinked_stored {s : self.State × Prop} {label : Option String}
    {isPrimary hasExisting : Bool} (hlen : address.toList.length ≤ 64) (hs : s.2) :
    Safe (watched self.handle Accepted) (.solo (fun _ _ _ => True)) Stored
      (self.insertLinked userId address label isPrimary hasExisting).run s := by
  refine Safe.bindExcept (safe_solo_eff.mpr ?_)
  intro c _
  rw [safe_ret]
  split
  · rename_i wallet hok
    refine afterInsert_stored ?_ ⟨hs, trivial⟩
    obtain ⟨row, hrow, -, rfl, -, hwallets⟩ := insert_ok hok
    obtain ⟨-, hu, -, hflag, hfit⟩ := candidate_ok hrow
    rw [fit_of_le hlen] at hfit
    refine ⟨hflag, row, ?_, rfl, hu, (Except.ok.inj hfit).symm, hflag⟩
    change row ∈ (WalletRepository.insert c (s.1.evolve c).now (s.1.evolve c).db userId address label
      isPrimary).2.wallets
    rw [hwallets]
    exact List.mem_append_right _ (List.mem_singleton.mpr rfl)
  · exact stored_error _ _

theorem linkWallet_stored (hparse : KeyTextLength self.lib) {s : self.State × Prop}
    {label : Option String} {isPrimary : Bool} (hs : s.2) :
    Safe (watched self.handle Accepted) (.solo (fun _ _ _ => True)) Stored
      (self.linkWallet userId address label isPrimary).run s := by
  unfold linkWallet
  cases hkey : self.lib.parsePubkey address with
  | error e => exact stored_error _ s
  | ok pubkey =>
    have hlen : address.toList.length ≤ 64 := (hparse _ _ hkey).trans (by decide)
    refine Safe.bindExcept (safe_solo_eff.mpr ?_)
    intro c _
    rw [safe_ret]
    split
    · split
      · refine Safe.bindExcept (safe_solo_eff.mpr ?_)
        intro d _
        rw [safe_ret]
        split
        · exact insertLinked_stored hlen ⟨⟨hs, trivial⟩, trivial⟩
        · exact stored_error _ _
      · exact insertLinked_stored hlen ⟨hs, trivial⟩
    · exact stored_error _ _

/-- A link that returns a registered wallet has stored the flag exactly when the database
accepted the statement that records it. -/
theorem link_recorded_iff (hparse : KeyTextLength self.lib) {label : Option String}
    {isPrimary : Bool} {wallet : UserWallet}
    (hok : (run self.handle (self.linkWallet userId address label isPrimary).run f w).1 = .ok wallet)
    (hclaims : wallet.blockchainRegistered = true) :
    (∃ x ∈ (run self.handle (self.linkWallet userId address label isPrimary).run f w).2.db.wallets,
        x.id = wallet.id ∧ x.blockchainRegistered = true) ↔
      Encounters self.handle Accepted (self.linkWallet userId address label isPrimary).run f w := by
  obtain ⟨hresult, hstate, hmet⟩ := run_watched (H := self.handle) (P := Accepted)
    (self.linkWallet userId address label isPrimary).run f (w, True)
  have hstored := (linkWallet_stored hparse (s := (w, True)) trivial).encounters
    (Encounters.of_forall (fun _ _ _ => trivial)
      (self.linkWallet userId address label isPrimary).run f (w, True))
    wallet (hresult.trans hok) hclaims
  rw [hstate, hmet, true_and] at hstored
  exact hstored

end Linking

variable (self) in
/-- When a reported success is recorded: for an onboarding without a pending reconciliation,
for the initialization of a wallet and for a link that returns a registered wallet. -/
theorem reported_success_recorded_iff (laws : KeyLaws self.lib) (hkeys : KeyCharacters self.lib)
    (hparse : KeyTextLength self.lib) :
    (∀ (w : self.State) f userId userType latE7 longE7 h3Index shardId result,
      (run self.handle (self.onboardUserOnChain userId userType latE7 longE7 h3Index shardId).run f
        w).1 = .ok result → result.success = true → result.message ≠ pendingMessage →
      let ended := (run self.handle (self.onboardUserOnChain userId userType latE7 longE7 h3Index
        shardId).run f w).2
      ((UserFlag ended.db userId true ∧ PrimaryFlag ended.db userId) ↔
        ShortcutRecords self w f userId)) ∧
    (∀ (w : self.State) f userId address signature,
      (run self.handle (self.initializeUserWallet userId address).run f w).1 = .ok signature →
      (WalletFlag (run self.handle (self.initializeUserWallet userId address).run f w).2.db userId
          address true ↔
        ∃ r ∈ w.db.wallets, r.userId = userId ∧ r.walletAddress = address)) ∧
    (∀ (w : self.State) f userId address label isPrimary wallet,
      (run self.handle (self.linkWallet userId address label isPrimary).run f w).1 = .ok wallet →
      wallet.blockchainRegistered = true →
      ((∃ x ∈ (run self.handle (self.linkWallet userId address label isPrimary).run f w).2.db.wallets,
          x.id = wallet.id ∧ x.blockchainRegistered = true) ↔
        Encounters self.handle Accepted (self.linkWallet userId address label isPrimary).run f w)) := by
  refine ⟨?_, ?_, ?_⟩
  · intro w f userId userType latE7 longE7 h3Index shardId result hok hsuccess hmessage
    exact onboard_recorded_iff laws hkeys hok hsuccess hmessage
  · intro w f userId address signature hok
    exact initialize_recorded_iff hok
  · intro w f userId address label isPrimary wallet hok hclaims
    exact link_recorded_iff hparse hok hclaims

section Alice
open ReferenceLibraries

/-- A submission that lands before the first lookup. -/
def landing : List Choice := [{ submits := true, signature := "5SiG" }, { lands := [0] }]

/-- Alice is onboarded through the shortcut. -/
def onboardAlice : Method OnChainOnboardingResult :=
  service.onboardUserOnChain ⟨1⟩ .consumer 0 0 none none

def onboardedAlice : service.State := (run service.handle onboardAlice.run (oracle []) drifted).2

/-- Her custodial wallet is initialized. -/
def initializeAlice : Method String :=
  service.initializeUserWallet ⟨1⟩ (pubkeyToString (keypairPubkey ⟨5⟩))

/-- A further wallet is linked after the onboarding. -/
def linkOnboarded : Method UserWallet :=
  service.linkWallet ⟨1⟩ "11111111111111111111111111111119" none false

def linkChoices : List Choice :=
  [{}, { uuid := ⟨9⟩ }, {}, { submits := true, signature := "6SiG" }, { lands := [1] }]

/-- The wallet that the link returns. -/
def linkedWallet : UserWallet where
  id := ⟨9⟩
  userId := ⟨1⟩
  walletAddress := "11111111111111111111111111111119"
  label := none
  isPrimary := false
  verified := false
  blockchainRegistered := true
  userAccountPda := some "1111111111111111111111111111111e"
  shardId := none
  blockchainTxSignature := some "6SiG"
  createdAt := 0

theorem reported_success_recorded_alice :
    ShortcutRecords service drifted (oracle []) ⟨1⟩ ∧
      WalletFlag (run service.handle initializeAlice.run (oracle landing) verified).2.db ⟨1⟩
        (pubkeyToString (keypairPubkey ⟨5⟩)) true ∧
      Encounters service.handle Accepted linkOnboarded.run (oracle linkChoices) onboardedAlice := by
  obtain ⟨honboard, hinit, hlink⟩ :=
    reported_success_recorded_iff service keyLaws keyCharacters keyTextLength
  have honboarded : (run service.handle onboardAlice.run (oracle []) drifted).1 =
        .ok ⟨true, "User already registered on-chain", none⟩ ∧
      (∃ x ∈ onboardedAlice.db.users, x.id = ⟨1⟩ ∧ x.blockchainRegistered = true) ∧
      ∃ r ∈ onboardedAlice.db.wallets, r.userId = ⟨1⟩ ∧ r.isPrimary = true ∧
        r.blockchainRegistered = true := by
    unfold onboardedAlice
    rw [drifted_eq]
    decide +kernel
  have hinited : (run service.handle initializeAlice.run (oracle landing) verified).1 = .ok "5SiG" ∧
      ∃ r ∈ verified.db.wallets, r.userId = ⟨1⟩ ∧
        r.walletAddress = pubkeyToString (keypairPubkey ⟨5⟩) := by
    rw [verified_eq]
    decide +kernel
  have hlinked : (run service.handle linkOnboarded.run (oracle linkChoices) onboardedAlice).1 =
        .ok linkedWallet ∧
      ∃ x ∈ (run service.handle linkOnboarded.run (oracle linkChoices) onboardedAlice).2.db.wallets,
        x.id = linkedWallet.id ∧ x.blockchainRegistered = true := by
    unfold onboardedAlice
    rw [drifted_eq]
    decide +kernel
  have hmessage : "User already registered on-chain" ≠ pendingMessage := by decide +kernel
  refine ⟨?_, ?_, ?_⟩
  · unfold onboardedAlice onboardAlice at honboarded
    exact (honboard drifted (oracle []) ⟨1⟩ .consumer 0 0 none none
      ⟨true, "User already registered on-chain", none⟩ honboarded.1 rfl hmessage).mp honboarded.2
  · unfold initializeAlice at hinited ⊢
    exact (hinit verified (oracle landing) ⟨1⟩ (pubkeyToString (keypairPubkey ⟨5⟩)) "5SiG"
      hinited.1).mpr hinited.2
  · unfold linkOnboarded at hlinked ⊢
    exact (hlink onboardedAlice (oracle linkChoices) ⟨1⟩ "11111111111111111111111111111119" none
      false linkedWallet hlinked.1 rfl).mp hlinked.2

/-- Alice has no wallet: the initialization of one succeeds and records nothing. -/
theorem initialized_without_row : ¬ ∀ (w : service.State) f userId address signature,
    (run service.handle (service.initializeUserWallet userId address).run f w).1 = .ok signature →
      WalletFlag (run service.handle (service.initializeUserWallet userId address).run f w).2.db userId
        address true := by
  intro h
  have hok : (run service.handle initializeAlice.run (oracle landing) activated).1 = .ok "5SiG" := by
    rw [activated_eq]
    decide +kernel
  unfold initializeAlice at hok
  have hflag := h activated (oracle landing) ⟨1⟩ (pubkeyToString (keypairPubkey ⟨5⟩)) "5SiG" hok
  rw [activated_eq] at hflag
  revert hflag
  decide +kernel

end Alice

end IamService.RegistrationRecords
