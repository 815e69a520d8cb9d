import IamService.OnboardingRuns
import IamService.ReferenceStates

/-!
# Healing an interrupted registration

A registration that landed on chain but was not recorded leaves the two apart. Onboarding
looks before it submits and records what it finds. Initializing a wallet submits at once,
and the Registry refuses to register an account twice.
-/

namespace IamService.DriftRecovery
open EffectPrograms RelationTables UserRepository WalletRepository AuthService OnboardingRuns

/-- The wallet row of the user has the flag. -/
def WalletFlag {lower : String → String} (db : Database lower) (userId : Uuid) (address : String)
    (flag : Bool) : Prop :=
  ∃ r ∈ db.wallets, r.userId = userId ∧ r.walletAddress = address ∧ r.blockchainRegistered = flag

/-- The users row has the flag. -/
def UserFlag {lower : String → String} (db : Database lower) (userId : Uuid) (flag : Bool) : Prop :=
  ∃ r ∈ db.users, r.id = userId ∧ r.blockchainRegistered = flag

instance {lower : String → String} (db : Database lower) (userId : Uuid) (address : String)
    (flag : Bool) : Decidable (WalletFlag db userId address flag) :=
  inferInstanceAs (Decidable (∃ r ∈ db.wallets, _ ∧ _ ∧ _))

variable {self : AuthService}

/-- Nothing fails, lookups see what is on chain, and an account is not registered twice. -/
def Orderly (c : Choice) (w : self.State) : Op → Prop
  | .chain (.registerUserOnChain authority _ _ _ _ _) =>
    ∀ pda ∈ self.registryPda authority, w.chain.Exists pda → c.fails = true
  | .chain (.accountExists _) => c.fails = false ∧ c.sees = true
  | _ => c.fails = false

instance (ch : Chain) (pda : Pubkey) : Decidable (ch.Exists pda) :=
  inferInstanceAs (Decidable ((ch.registration pda).isSome = true))

instance (c : Choice) (w : self.State) (o : Op) : Decidable (Orderly c w o) := by
  unfold Orderly
  split <;> infer_instance

/-- The account of a wallet is on chain while its row is unmarked. -/
def Drifted (w : self.State) (userId : Uuid) (address : String) (pubkey pda : Pubkey) : Prop :=
  self.lib.parsePubkey address = .ok pubkey ∧ self.registryPda pubkey = some pda ∧
    w.chain.Exists pda ∧ WalletFlag w.db userId address false

/-- Initializing the wallet returns a signature and marks the row. -/
def InitializeHeals (w : self.State) (f : ℕ → Choice) (userId : Uuid) (address : String) : Prop :=
  let ended := run self.handle (self.initializeUserWallet userId address).run f w
  (∃ signature, ended.1 = .ok signature) ∧ WalletFlag ended.2.db userId address true

/-- Onboarding the user reports success and marks both rows. -/
def OnboardHeals (w : self.State) (f : ℕ → Choice) (userId : Uuid) (address : String)
    (userType : UserType) (latE7 longE7 : Int32) (h3Index : Option UInt64) (shardId : Option UInt8) :
    Prop :=
  let ended := run self.handle (self.onboardUserOnChain userId userType latE7 longE7 h3Index
    shardId).run f w
  (∃ result, ended.1 = .ok result ∧ result.success = true) ∧ UserFlag ended.2.db userId true ∧
    WalletFlag ended.2.db userId address true

variable {w : self.State} {f : ℕ → Choice} {userId : Uuid} {address : String} {pubkey pda : Pubkey}

/-- The Registry refuses the submission, and initializing the wallet ends there. -/
theorem initialize_refused (h : Drifted w userId address pubkey pda)
    (hf : Encounters self.handle Orderly (self.initializeUserWallet userId address).run f w) :
    (run self.handle (self.initializeUserWallet userId address).run f w).1 =
      .error (.internal (ApiError.internal (f 0).errorText).display) := by
  obtain ⟨hkey, hpda, hexists, -⟩ := h
  simp only [initializeUserWallet, hkey, run_bind', run_observe, blockchain, Prog.eff_bind,
    Prog.ret_bind, encounters_eff, run_eff] at hf ⊢
  have hrefused : (f 0).fails = true := hf.1 pda hpda hexists
  have hanswer : (self.handle (f 0) w (.chain (.registerUserOnChain pubkey .consumer 0 0 0 0))).1 =
      .error (.internal (f 0).errorText) := by
    simp [handle_chain, BlockchainProvider.handle, hrefused]
  rw [hanswer]
  rfl

/-- The two statements of the shortcut mark the rows of a primary wallet. -/
theorem onboard_heals (laws : KeyLaws self.lib) (hkeys : KeyCharacters self.lib)
    (h : Drifted w userId address pubkey pda)
    (hprimary : ∃ r ∈ w.db.wallets, r.userId = userId ∧ r.isPrimary = true ∧ r.walletAddress = address)
    (userType : UserType) (latE7 longE7 : Int32) (h3Index : Option UInt64) (shardId : Option UInt8)
    (hf : Encounters self.handle Orderly (self.onboardUserOnChain userId userType latE7 longE7 h3Index
      shardId).run f w) : OnboardHeals w f userId address userType latE7 longE7 h3Index shardId := by
  obtain ⟨hkey, hpda, hexists, -⟩ := h
  have haccount : PrimaryAccount self w.db userId address pubkey pda := ⟨hprimary, hkey, hpda⟩
  have hup : (f 0).fails = false := onboard_find_encounters hf
  have hlookup : (f 1).fails = false ∧ (f 1).sees = true := onboard_lookup_encounters haccount hup hf
  have hseen : Seen w f pda := ⟨hlookup.1, hlookup.2, exists_evolve (exists_evolve hexists _) _⟩
  obtain ⟨hup₂, hup₃⟩ := onboard_shortcut_encounters haccount hup hseen hf
  have hplain : sqlText preexisting = true := by decide
  have hname : sqlText userType.name = true := by cases userType <;> decide
  have htype : fit 20 userType.name = .ok userType.name := fit_of_le (by cases userType <;> decide)
  have huser : (markUserOnboarded (f 2) w.db userId userType.name latE7 longE7
      (self.lib.pubkeyToString pda) preexisting).1 = .ok () :=
    markUserOnboarded_accepted hup₂ (by simp [hname, hplain, hkeys _ _ (laws.parse_text pda)]) htype
      (fit_of_le ((laws.text_length pda).trans (by decide))) (fit_of_le (by decide))
  have hwallet : ∀ db : Database self.lib.pgLower,
      (markRegistered (f 3) db userId address preexisting).1 = .ok () := fun db =>
    markRegistered_accepted hup₃ (by simp [hplain, hkeys _ _ hkey]) (fit_of_le (by decide))
  obtain ⟨type, key, text, -, -, -, -, hwallets, husers⟩ := markUserOnboarded_ok huser
  obtain ⟨text', -, -, husers', hwallets'⟩ := markRegistered_ok (hwallet (markUserOnboarded (f 2) w.db
    userId userType.name latE7 longE7 (self.lib.pubkeyToString pda) preexisting).2)
  obtain ⟨r, hr, hu, -, ha⟩ := hprimary
  obtain ⟨x, hx, hid⟩ := List.mem_map.mp (w.db.references r hr)
  rw [OnboardHeals, onboard_shortcut haccount hup hseen]
  refine ⟨⟨_, rfl, rfl⟩, ⟨onboarded type latE7 longE7 key text x, ?_, hid.trans hu, rfl⟩,
    ⟨registeredBy text' r, ?_, hu, ha, rfl⟩⟩
  · refine husers' ▸ husers ▸ mem_updateWhere.mpr ⟨x, hx, ?_⟩
    simp [hid.trans hu]
  · refine hwallets' ▸ hwallets ▸ mem_updateWhere.mpr ⟨r, hr, ?_⟩
    simp [hu, ha]

/-- A registration that landed without being recorded is never healed by initializing the wallet
again; for a primary wallet an onboarding heals it. -/
theorem only_onboarding_heals (laws : KeyLaws self.lib) (hkeys : KeyCharacters self.lib)
    (h : Drifted w userId address pubkey pda) :
    (∀ f, Encounters self.handle Orderly (self.initializeUserWallet userId address).run f w →
      ¬ InitializeHeals w f userId address) ∧
    ((∃ r ∈ w.db.wallets, r.userId = userId ∧ r.isPrimary = true ∧ r.walletAddress = address) →
      ∀ f userType latE7 longE7 h3Index shardId,
        Encounters self.handle Orderly (self.onboardUserOnChain userId userType latE7 longE7 h3Index
          shardId).run f w → OnboardHeals w f userId address userType latE7 longE7 h3Index shardId) := by
  constructor
  · intro f hf hheals
    obtain ⟨⟨signature, hsignature⟩, -⟩ := hheals
    rw [initialize_refused h hf] at hsignature
    cases hsignature
  · intro hprimary f userType latE7 longE7 h3Index shardId hf
    exact onboard_heals laws hkeys h hprimary userType latE7 longE7 h3Index shardId hf

section Alice
open ReferenceLibraries

/-- The Registry account of Alice's custodial wallet. -/
def aliceAccount : Pubkey := findProgramAddress aliceTask.pubkey aliceTask.pubkey

theorem drifted_alice :
    Drifted drifted ⟨1⟩ aliceTask.walletAddress aliceTask.pubkey aliceAccount := by
  rw [drifted_eq]
  exact ⟨by decide +kernel, by decide +kernel, by decide +kernel, by decide +kernel⟩

/-- The chain refuses the first operation. -/
def refusing : ℕ → Choice := oracle [{ fails := true }]

theorem orderly_refusing : Encounters service.handle Orderly
    (service.initializeUserWallet ⟨1⟩ aliceTask.walletAddress).run refusing drifted := by
  rw [drifted_eq]
  decide +kernel

theorem only_onboarding_heals_alice :
    Drifted drifted ⟨1⟩ aliceTask.walletAddress aliceTask.pubkey aliceAccount ∧
      ¬ InitializeHeals drifted refusing ⟨1⟩ aliceTask.walletAddress ∧
      OnboardHeals drifted (oracle []) ⟨1⟩ aliceTask.walletAddress .consumer 0 0 none none := by
  have hprimary : ∃ r ∈ drifted.db.wallets, r.userId = ⟨1⟩ ∧ r.isPrimary = true ∧
      r.walletAddress = aliceTask.walletAddress := by
    rw [drifted_eq]
    decide +kernel
  have horderly : Encounters service.handle Orderly
      (service.onboardUserOnChain ⟨1⟩ .consumer 0 0 none none).run (oracle []) drifted := by
    rw [drifted_eq]
    decide +kernel
  have hboth := @only_onboarding_heals service drifted ⟨1⟩ _ _ _ keyLaws keyCharacters drifted_alice
  exact ⟨drifted_alice, hboth.1 _ orderly_refusing, hboth.2 hprimary _ _ _ _ _ _ horderly⟩

/-- The answer to Alice's registration was lost and the transaction landed: initializing her
wallet fails and leaves her row unmarked. -/
theorem initialize_fails_after_lost_answer :
    ¬ ∀ (rs : List Request) (f : ℕ → Choice),
      Drifted (service.serveAll (World.empty _) rs) ⟨1⟩ aliceTask.walletAddress aliceTask.pubkey
        aliceAccount →
      Encounters service.handle Orderly
        (service.initializeUserWallet ⟨1⟩ aliceTask.walletAddress).run f
        (service.serveAll (World.empty _) rs) →
      InitializeHeals (service.serveAll (World.empty _) rs) f ⟨1⟩ aliceTask.walletAddress := by
  intro h
  obtain ⟨⟨signature, hsignature⟩, -⟩ := h _ refusing drifted_alice orderly_refusing
  have hrefused : (run service.handle (service.initializeUserWallet ⟨1⟩ aliceTask.walletAddress).run
      refusing drifted).1.toOption = none := by
    rw [drifted_eq]
    decide +kernel
  rw [drifted, hsignature] at hrefused
  cases hrefused

end Alice

end IamService.DriftRecovery
