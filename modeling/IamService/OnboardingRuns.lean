import IamService.ChainConfirmation
import IamService.UserStatements
import IamService.WalletStatements

/-!
# On-chain onboarding, step by step

An onboarding whose first lookup sees the account on chain takes a shortcut: it records the
registration at once and discards what the two statements answer. Any other onboarding
submits a transaction, waits for the account and records it under its signature.
-/

namespace IamService.OnboardingRuns
open EffectPrograms RelationTables UserRepository WalletRepository AuthService

/-- The signature that the shortcut records. -/
def preexisting : String := "preexisting-onchain"

/-- The message that announces a reconciliation. -/
def pendingMessage : String :=
  "User registered on-chain; DB persistence lagged — reconciliation pending"

section Statements

variable {lower : String → String} {c : Choice} {db : Database lower} {userId : Uuid}

/-- A users row with a recorded registration. -/
def onboarded (userType : String) (lat long : Int32) (pda signature : String) (r : UserRow) :
    UserRow :=
  { r with
    blockchainRegistered := true
    userType := some userType
    latitude := some lat
    longitude := some long
    userAccountPda := some pda
    blockchainTxSignature := some signature
    blockchainStatus := "confirmed" }

/-- A wallet row with a recorded registration. -/
def registeredBy (signature : String) (r : WalletRow) : WalletRow :=
  { r with
    blockchainRegistered := true
    blockchainTxSignature := some signature }

/-- What a recorded registration of a user has done. -/
theorem markUserOnboarded_ok {userType : String} {lat long : Int32} {pda signature : String}
    (h : (markUserOnboarded c db userId userType lat long pda signature).1 = .ok ()) :
    ∃ type address text, fit 20 userType = .ok type ∧ fit 88 pda = .ok address ∧
      fit 88 signature = .ok text ∧ [userType, pda, signature].all sqlText = true ∧
      (markUserOnboarded c db userId userType lat long pda signature).2.wallets = db.wallets ∧
      (markUserOnboarded c db userId userType lat long pda signature).2.users =
        updateWhere (fun r => r.id = userId) (onboarded type lat long address text) db.users := by
  have htexts := (execute_available h).2
  rcases markUserOnboarded_cases c db userId userType lat long pda signature with
    ⟨e, he⟩ | ⟨type, address, text, db', htype, haddress, htext, hdb, hwallets, husers⟩
  · rw [he] at h
    cases h
  · rw [hdb]
    exact ⟨type, address, text, htype, haddress, htext, htexts, hwallets, husers⟩

/-- A registration of a user is recorded when the database is there and the texts fit. -/
theorem markUserOnboarded_accepted {userType : String} {lat long : Int32} {pda signature : String}
    {type address text : String} (hup : c.fails = false)
    (htexts : [userType, pda, signature].all sqlText = true) (htype : fit 20 userType = .ok type)
    (haddress : fit 88 pda = .ok address) (htext : fit 88 signature = .ok text) :
    (markUserOnboarded c db userId userType lat long pda signature).1 = .ok () := by
  unfold markUserOnboarded
  rw [execute_of_ok hup htexts (by rw [htype, haddress, htext]; rfl)]

/-- What a recorded registration of a wallet has done. -/
theorem markRegistered_ok {address signature : String}
    (h : (markRegistered c db userId address signature).1 = .ok ()) :
    ∃ text, fit 128 signature = .ok text ∧ [signature, address].all sqlText = true ∧
      (markRegistered c db userId address signature).2.users = db.users ∧
      (markRegistered c db userId address signature).2.wallets =
        updateWhere (fun r => r.userId = userId ∧ r.walletAddress = address) (registeredBy text)
          db.wallets := by
  have htexts := (execute_available h).2
  rcases markRegistered_cases c db userId address signature with
    ⟨e, he⟩ | ⟨text, db', htext, hdb, husers, hwallets⟩
  · rw [he] at h
    cases h
  · rw [hdb]
    exact ⟨text, htext, htexts, husers, hwallets⟩

theorem markRegistered_accepted {address signature text : String} (hup : c.fails = false)
    (htexts : [signature, address].all sqlText = true) (htext : fit 128 signature = .ok text) :
    (markRegistered c db userId address signature).1 = .ok () := by
  unfold markRegistered
  rw [execute_of_ok hup htexts (by rw [htext]; rfl)]

end Statements

/-- Whatever row the selection picks, it returns the address of the primary wallet. -/
theorem findPrimaryAddress_iff {lower : String → String} {pick : ℕ} {db : Database lower}
    {userId : Uuid} {address : String} : findPrimaryAddress pick db userId = some address ↔
      ∃ r ∈ db.wallets, r.userId = userId ∧ r.isPrimary = true ∧ r.walletAddress = address := by
  unfold findPrimaryAddress
  rw [Option.map_eq_some_iff]
  constructor
  · rintro ⟨r, hr, rfl⟩
    obtain ⟨hmem, hp⟩ := limitOne_some hr
    simp only [Bool.and_eq_true, ownedBy_iff] at hp
    exact ⟨r, hmem, hp.1, hp.2, rfl⟩
  · rintro ⟨r, hmem, hu, hp, rfl⟩
    refine ⟨r, limitOne_eq_some hmem (by simp [hu, hp]) ?_, rfl⟩
    intro s hs hps
    simp only [Bool.and_eq_true, ownedBy_iff] at hps
    exact db.primary_unique hs hmem (hps.1.trans hu.symm) hps.2 hp

variable (self : AuthService)

/-- The primary wallet of a user has the address, whose Registry account is `pda`. -/
def PrimaryAccount (db : Database self.lib.pgLower) (userId : Uuid) (address : String)
    (pubkey pda : Pubkey) : Prop :=
  (∃ r ∈ db.wallets, r.userId = userId ∧ r.isPrimary = true ∧ r.walletAddress = address) ∧
    self.lib.parsePubkey address = .ok pubkey ∧ self.registryPda pubkey = some pda

variable {self}

/-- A user has one primary account. -/
theorem PrimaryAccount.unique {db : Database self.lib.pgLower} {userId : Uuid}
    {address address' : String} {pubkey pubkey' pda pda' : Pubkey}
    (h : PrimaryAccount self db userId address pubkey pda)
    (h' : PrimaryAccount self db userId address' pubkey' pda') : address = address' ∧ pda = pda' := by
  obtain ⟨⟨r, hr, hu, hp, rfl⟩, hkey, hpda⟩ := h
  obtain ⟨⟨s, hs, hu', hp', rfl⟩, hkey', hpda'⟩ := h'
  have hsame : r = s := db.primary_unique hr hs (hu.trans hu'.symm) hp hp'
  subst hsame
  rw [hkey] at hkey'
  cases hkey'
  rw [hpda] at hpda'
  exact ⟨rfl, Option.some.inj hpda'⟩

/-- An account stays where it is while time passes. -/
theorem exists_evolve {w : self.State} {pda : Pubkey} (h : w.chain.Exists pda) (c : Choice) :
    (w.evolve c).chain.Exists pda := self.exists_handle c w h (.host .newUuid)

/-- The first lookup of an onboarding sees the account. -/
def Seen (w : self.State) (f : ℕ → Choice) (pda : Pubkey) : Prop :=
  (f 1).fails = false ∧ (f 1).sees = true ∧ ((w.evolve (f 0)).evolve (f 1)).chain.Exists pda

instance (w : self.State) (f : ℕ → Choice) (pda : Pubkey) : Decidable (Seen w f pda) :=
  inferInstanceAs (Decidable (_ ∧ _ ∧ (_ : Bool) = true))

variable {w : self.State} {f : ℕ → Choice} {userId : Uuid} {address : String} {pubkey pda : Pubkey}
  {userType : UserType} {latE7 longE7 : Int32} {h3Index : Option UInt64} {shardId : Option UInt8}

theorem seen_iff : (self.handle (f 1) (w.evolve (f 0)) (.chain (.accountExists pda))).1.toOption.getD
    false = true ↔ Seen w f pda := by
  rw [handle_chain]
  simp only [BlockchainProvider.handle, Seen, Chain.Exists]
  cases (f 1).fails <;> simp [Except.toOption]

theorem registryPda_some (h : self.registryPda pubkey = some pda) : ∃ programId,
    self.lib.pubkeyFromStr self.config.registryProgramId = .ok programId ∧
      self.lib.findProgramAddress pubkey programId = pda := by
  unfold registryPda at h
  split at h
  · rename_i programId hprogram
    exact ⟨programId, hprogram, Option.some.inj h⟩
  · cases h

theorem findPrimaryAddress_answer (h : PrimaryAccount self w.db userId address pubkey pda)
    (hup : (f 0).fails = false) :
    (self.handle (f 0) w (.wallet (.findPrimaryAddress userId))).1 = .ok (some address) := by
  rw [handle_wallet]
  simp only [WalletRepository.handle, select_nil, hup, Bool.false_eq_true, if_false]
  rw [findPrimaryAddress_iff.mpr h.1]

theorem handle_wallet_reads (c : Choice) (w : self.State) (userId : Uuid) :
    (self.handle c w (.wallet (.findPrimaryAddress userId))).2 = w.evolve c := rfl

/-- The shortcut records the registration with two statements and reports success. -/
theorem onboard_shortcut (h : PrimaryAccount self w.db userId address pubkey pda)
    (hup : (f 0).fails = false) (hseen : Seen w f pda) :
    run self.handle (self.onboardUserOnChain userId userType latE7 longE7 h3Index shardId).run f w =
      (.ok ⟨true, "User already registered on-chain", none⟩,
        (self.handle (f 3) (self.handle (f 2) ((w.evolve (f 0)).evolve (f 1))
          (.user (.markUserOnboarded userId userType.name latE7 longE7 (self.lib.pubkeyToString pda)
            preexisting))).2 (.wallet (.markRegistered userId address preexisting))).2) := by
  obtain ⟨programId, hprogram, rfl⟩ := registryPda_some h.2.2
  simp only [onboardUserOnChain, run_bind', run_attempt, walletRepo, Prog.eff_bind, Prog.ret_bind,
    run_eff, findPrimaryAddress_answer h hup, proceed_ok, h.2.1, hprogram, run_observe, blockchain,
    handle_wallet_reads, seen_iff.mpr hseen, if_true]
  rfl

/-- Without the shortcut a transaction is submitted. -/
theorem onboard_submits (h : PrimaryAccount self w.db userId address pubkey pda)
    (hup : (f 0).fails = false) (hseen : ¬ Seen w f pda) :
    run self.handle (self.onboardUserOnChain userId userType latE7 longE7 h3Index shardId).run f w =
      run self.handle (self.submitOnboarding userId address pubkey pda userType latE7 longE7
        (h3Index.getD 0) (shardId.getD 0)).run (fun n => f (n + 2))
        ((w.evolve (f 0)).evolve (f 1)) := by
  obtain ⟨programId, hprogram, rfl⟩ := registryPda_some h.2.2
  simp only [onboardUserOnChain, run_bind', run_attempt, walletRepo, Prog.eff_bind, Prog.ret_bind,
    run_eff, findPrimaryAddress_answer h hup, proceed_ok, h.2.1, hprogram, run_observe, blockchain,
    handle_wallet_reads, (not_congr seen_iff).mpr hseen]
  rfl

section Encountered

variable {P : Choice → self.State → Op → Prop}

theorem onboard_find_encounters
    (hP : Encounters self.handle P (self.onboardUserOnChain userId userType latE7 longE7 h3Index
      shardId).run f w) : P (f 0) w (.wallet (.findPrimaryAddress userId)) := by
  simp only [onboardUserOnChain, run_bind', run_attempt, walletRepo, Prog.eff_bind, Prog.ret_bind,
    encounters_eff] at hP
  exact hP.1

theorem onboard_lookup_encounters (h : PrimaryAccount self w.db userId address pubkey pda)
    (hup : (f 0).fails = false)
    (hP : Encounters self.handle P (self.onboardUserOnChain userId userType latE7 longE7 h3Index
      shardId).run f w) : P (f 1) (w.evolve (f 0)) (.chain (.accountExists pda)) := by
  obtain ⟨programId, hprogram, rfl⟩ := registryPda_some h.2.2
  simp only [onboardUserOnChain, run_bind', run_attempt, walletRepo, Prog.eff_bind, Prog.ret_bind,
    encounters_eff, findPrimaryAddress_answer h hup, proceed_ok, h.2.1, hprogram, run_observe,
    blockchain, handle_wallet_reads] at hP
  exact hP.2.1

theorem onboard_shortcut_encounters (h : PrimaryAccount self w.db userId address pubkey pda)
    (hup : (f 0).fails = false) (hseen : Seen w f pda)
    (hP : Encounters self.handle P (self.onboardUserOnChain userId userType latE7 longE7 h3Index
      shardId).run f w) :
    P (f 2) ((w.evolve (f 0)).evolve (f 1)) (.user (.markUserOnboarded userId userType.name latE7
      longE7 (self.lib.pubkeyToString pda) preexisting)) ∧
    P (f 3) (self.handle (f 2) ((w.evolve (f 0)).evolve (f 1)) (.user (.markUserOnboarded userId
      userType.name latE7 longE7 (self.lib.pubkeyToString pda) preexisting))).2
      (.wallet (.markRegistered userId address preexisting)) := by
  obtain ⟨programId, hprogram, rfl⟩ := registryPda_some h.2.2
  simp only [onboardUserOnChain, run_bind', run_attempt, walletRepo, Prog.eff_bind, Prog.ret_bind,
    encounters_eff, findPrimaryAddress_answer h hup, proceed_ok, h.2.1, hprogram, run_observe,
    blockchain, userRepo, handle_wallet_reads, seen_iff.mpr hseen, if_true] at hP
  obtain ⟨-, -, huser, hwallet, -⟩ := hP
  exact ⟨huser, hwallet⟩

theorem onboard_submits_encounters (h : PrimaryAccount self w.db userId address pubkey pda)
    (hup : (f 0).fails = false) (hseen : ¬ Seen w f pda)
    (hP : Encounters self.handle P (self.onboardUserOnChain userId userType latE7 longE7 h3Index
      shardId).run f w) :
    Encounters self.handle P (self.submitOnboarding userId address pubkey pda userType latE7 longE7
      (h3Index.getD 0) (shardId.getD 0)).run (fun n => f (n + 2)) ((w.evolve (f 0)).evolve (f 1)) := by
  obtain ⟨programId, hprogram, rfl⟩ := registryPda_some h.2.2
  simp only [onboardUserOnChain, run_bind', run_attempt, walletRepo, Prog.eff_bind, Prog.ret_bind,
    encounters_eff, findPrimaryAddress_answer h hup, proceed_ok, h.2.1, hprogram, run_observe,
    blockchain, handle_wallet_reads, (not_congr seen_iff).mpr hseen] at hP
  exact hP.2.2

end Encountered

/-- An onboarding that returns has found the account of the primary wallet. -/
theorem onboard_ok {result : OnChainOnboardingResult}
    (h : (run self.handle (self.onboardUserOnChain userId userType latE7 longE7 h3Index
      shardId).run f w).1 = .ok result) :
    (f 0).fails = false ∧ ∃ address pubkey pda, PrimaryAccount self w.db userId address pubkey pda := by
  simp only [onboardUserOnChain, run_bind', run_attempt, walletRepo, Prog.eff_bind, Prog.ret_bind,
    run_eff, handle_wallet, WalletRepository.handle, select_nil] at h
  cases hup : (f 0).fails with
  | true =>
    rw [hup] at h
    cases h
  | false =>
    simp only [hup, Bool.false_eq_true, if_false, proceed_ok] at h
    cases hfound : findPrimaryAddress (f 0).pick w.db userId with
    | none =>
      rw [hfound] at h
      cases h
    | some address =>
      simp only [hfound] at h
      cases hkey : self.lib.parsePubkey address with
      | error e =>
        rw [hkey] at h
        cases h
      | ok pubkey =>
        simp only [hkey] at h
        cases hprogram : self.lib.pubkeyFromStr self.config.registryProgramId with
        | error e =>
          rw [hprogram] at h
          cases h
        | ok programId =>
          refine ⟨rfl, address, pubkey, self.lib.findProgramAddress pubkey programId,
            findPrimaryAddress_iff.mp hfound, hkey, ?_⟩
          simp [registryPda, hprogram]

section Submission

variable {admits : Choice → self.State → Op → Prop}

/-- Wait for the account of a submitted registration and record it. -/
def confirmOnboarding (self : AuthService) (userId : Uuid) (address : String) (pda : Pubkey)
    (userType : UserType) (latE7 longE7 : Int32) (shardId : UInt8) (signature : String) :
    Method OnChainOnboardingResult := do
  if ← observe (pollAccount pda 20) then
    recordOnboarding userId address (self.lib.pubkeyToString pda) signature userType latE7 longE7
      shardId
  else return ⟨false, "On-chain registration submitted but not confirmed on-chain; please retry",
    some signature⟩

/-- A submission that is refused ends the onboarding; any other is waited for. -/
theorem submitOnboarding_run {h3Index : UInt64} {shardId : UInt8} :
    run self.handle (self.submitOnboarding userId address pubkey pda userType latE7 longE7 h3Index
        shardId).run f w =
      let v := (self.handle (f 0) w (.chain (.registerUserOnChain pubkey userType latE7 longE7 h3Index
        shardId))).2
      if (f 0).fails then
        (.ok ⟨false, (ApiError.internal (f 0).errorText).display, none⟩, v)
      else run self.handle (confirmOnboarding self userId address pda userType latE7 longE7 shardId
        (f 0).signature).run (fun n => f (n + 1)) v := by
  have hanswer : (self.handle (f 0) w (.chain (.registerUserOnChain pubkey userType latE7 longE7
      h3Index shardId))).1 =
      if (f 0).fails then .error (.internal (f 0).errorText) else .ok (f 0).signature := rfl
  simp only [submitOnboarding, run_bind', run_observe, blockchain, Prog.eff_bind, Prog.ret_bind,
    run_eff, proceed_ok, hanswer]
  cases (f 0).fails <;> rfl

theorem submitOnboarding_encounters {P : Choice → self.State → Op → Prop} {h3Index : UInt64}
    {shardId : UInt8} (hup : (f 0).fails = false)
    (hP : Encounters self.handle P (self.submitOnboarding userId address pubkey pda userType latE7
      longE7 h3Index shardId).run f w) :
    Encounters self.handle P (confirmOnboarding self userId address pda userType latE7 longE7 shardId
      (f 0).signature).run (fun n => f (n + 1)) (self.handle (f 0) w (.chain (.registerUserOnChain
        pubkey userType latE7 longE7 h3Index shardId))).2 := by
  have hanswer : (self.handle (f 0) w (.chain (.registerUserOnChain pubkey userType latE7 longE7
      h3Index shardId))).1 = .ok (f 0).signature := by
    simp [handle_chain, BlockchainProvider.handle, hup]
  simp only [submitOnboarding, run_bind', run_observe, blockchain, Prog.eff_bind, Prog.ret_bind,
    encounters_eff, proceed_ok, hanswer] at hP
  simp only [confirmOnboarding, run_bind', run_observe]
  exact hP.2

/-- A poll leaves the tables alone, and has seen the account if it ends well. -/
theorem pollAccount_confirms (pda : Pubkey) (n : ℕ) {v : self.State} (hv : v.db = w.db) :
    Safe self.handle (.solo admits) (fun seen u => u.db = w.db ∧
      (seen = true → u.chain.Exists pda)) (pollAccount pda n) v := by
  induction n generalizing v with
  | zero =>
    refine ⟨hv, ?_⟩
    intro h
    cases h
  | succ n ih =>
    rw [pollAccount, blockchain, Prog.eff_bind, safe_solo_eff]
    intro c _
    have hdb : (self.handle c v (.chain (.accountExists pda))).2.db = w.db := hv
    rw [Prog.ret_bind]
    split
    · rename_i hseen
      exact ⟨hdb, fun _ => ChainConfirmation.accountExists_seen hseen⟩
    · rw [host, Prog.eff_bind, safe_solo_eff]
      intro d _
      exact ih hdb

/-- The two statements that record a registration under a signature, and the announcement:
how an onboarding ends that has seen its account after submitting. -/
def Concluded (admits : Choice → self.State → Op → Prop) (w : self.State) (userId : Uuid)
    (address : String) (pda : Pubkey) (userType : UserType) (latE7 longE7 : Int32) (shardId : UInt8)
    (signature : String) (result : OnChainOnboardingResult) (u : self.State) : Prop :=
  let markUser : Op := .user (.markUserOnboarded userId userType.name latE7 longE7
    (self.lib.pubkeyToString pda) signature)
  let markWallet : Op := .wallet (.markRegistered userId address signature)
  ∃ v c d e, v.db = w.db ∧ v.chain.Exists pda ∧ admits c v markUser ∧
    admits d (self.handle c v markUser).2 markWallet ∧
    u = (self.handle e (self.handle d (self.handle c v markUser).2 markWallet).2 (.bus (.publish
      (.userOnboarded userId address (self.lib.pubkeyToString pda) signature userType.name
        shardId)))).2 ∧
    (result.message ≠ pendingMessage ↔
      (markUserOnboarded c w.db userId userType.name latE7 longE7 (self.lib.pubkeyToString pda)
        signature).1 = .ok () ∧
      (markRegistered d (markUserOnboarded c w.db userId userType.name latE7 longE7
        (self.lib.pubkeyToString pda) signature).2 userId address signature).1 = .ok ())

theorem confirmOnboarding_concluded {shardId : UInt8} (signature : String) :
    Safe self.handle (.solo admits) (fun r u => ∃ result, r = .ok result ∧
      (result.success = true → Concluded admits w userId address pda userType latE7 longE7 shardId
        signature result u))
      (confirmOnboarding self userId address pda userType latE7 longE7 shardId signature).run w := by
  refine Safe.observeBind ((pollAccount_confirms pda 20 rfl).mono ?_)
  rintro seen v ⟨hdb, hexists⟩
  cases seen with
  | false =>
    refine ⟨_, rfl, ?_⟩
    intro h
    cases h
  | true =>
    refine Safe.observeBind (safe_solo_eff.mpr ?_)
    intro c hc
    refine Safe.observeBind (safe_solo_eff.mpr ?_)
    intro d hd
    refine Safe.observeBind (safe_solo_eff.mpr ?_)
    intro e _
    refine ⟨_, rfl, fun _ => ⟨v, c, d, e, hdb, hexists rfl, hc, hd, rfl, ?_⟩⟩
    simp only [handle_user, handle_wallet, UserRepository.handle, WalletRepository.handle, hdb]
    cases (markUserOnboarded c w.db userId userType.name latE7 longE7 (self.lib.pubkeyToString pda)
        signature).1 with
    | error error => simp [Except.toOption, pendingMessage]
    | ok _ =>
      cases (markRegistered d (markUserOnboarded c w.db userId userType.name latE7 longE7
          (self.lib.pubkeyToString pda) signature).2 userId address signature).1 with
      | error error => simp [Except.toOption, pendingMessage]
      | ok _ => simp [Except.toOption, pendingMessage]

end Submission

end IamService.OnboardingRuns
