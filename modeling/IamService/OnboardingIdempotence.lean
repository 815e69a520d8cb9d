import IamService.OnboardingRuns
import IamService.ReferenceStates

/-!
# Onboarding a user twice

The first onboarding submits and confirms a transaction and records its signature. The
second takes the shortcut and records the same registration again, with a placeholder in
the place of the signature.
-/

namespace IamService.OnboardingIdempotence
open EffectPrograms RelationTables UserRepository WalletRepository AuthService OnboardingRuns

/-- The columns of a users row that a registration sets. -/
def userColumns (r : UserRow) :
    Uuid × Bool × Option String × Option Int32 × Option Int32 × Option String × String × Option String :=
  (r.id, r.blockchainRegistered, r.userType, r.latitude, r.longitude, r.userAccountPda,
    r.blockchainStatus, r.blockchainTxSignature)

/-- The columns of a wallet row that belong to a registration. -/
def walletColumns (r : WalletRow) : Uuid × Bool × Option String × Option Int16 × Option String :=
  (r.id, r.blockchainRegistered, r.userAccountPda, r.shardId, r.blockchainTxSignature)

/-- No registration column differs. -/
def SameRegistrations {lower : String → String} (db db' : Database lower) : Prop :=
  db'.users.map userColumns = db.users.map userColumns ∧
    db'.wallets.map walletColumns = db.wallets.map walletColumns

section Statements

variable {lower : String → String}

/-- Both rows of a registration have been recorded under a signature. -/
structure Marked (db db' : Database lower) (userId : Uuid) (address userType : String)
    (lat long : Int32) (pda signature : String) : Prop where
  texts : sqlText userType = true ∧ sqlText pda = true ∧ sqlText address = true
  users : ∃ type key text, fit 20 userType = .ok type ∧ fit 88 pda = .ok key ∧
    fit 88 signature = .ok text ∧
    db'.users = updateWhere (fun r => r.id = userId) (onboarded type lat long key text) db.users
  wallets : ∃ text, fit 128 signature = .ok text ∧
    db'.wallets = updateWhere (fun r => r.userId = userId ∧ r.walletAddress = address)
      (registeredBy text) db.wallets

variable {db db₁ db₂ : Database lower} {userId : Uuid} {address userType pda signature : String}
  {lat long : Int32} {c d : Choice}

theorem marked_of_ok
    (huser : (markUserOnboarded c db userId userType lat long pda signature).1 = .ok ())
    (hwallet : (markRegistered d (markUserOnboarded c db userId userType lat long pda signature).2
      userId address signature).1 = .ok ()) :
    Marked db (markRegistered d (markUserOnboarded c db userId userType lat long pda signature).2
      userId address signature).2 userId address userType lat long pda signature := by
  obtain ⟨type, key, text, htype, hkey, htext, htexts, hwallets, husers⟩ := markUserOnboarded_ok huser
  obtain ⟨text', htext', htexts', husers', hwallets'⟩ := markRegistered_ok hwallet
  simp only [List.all_cons, List.all_nil, Bool.and_true, Bool.and_eq_true] at htexts htexts'
  refine ⟨⟨htexts.1, htexts.2.1, htexts'.2⟩, ⟨type, key, text, htype, hkey, htext, ?_⟩,
    ⟨text', htext', ?_⟩⟩
  · rw [husers', husers]
  · rw [hwallets', hwallets]

/-- What a text of the placeholder's length is stored as tells whether it is the placeholder. -/
theorem fit_preexisting {n : ℕ} (hn : 19 ≤ n) : fit n preexisting = .ok preexisting :=
  fit_of_le (Nat.le_trans (by decide) hn)

theorem fit_eq_preexisting {n : ℕ} (hn : 19 < n) {s text : String} (h : fit n s = .ok text) :
    text = preexisting ↔ s = preexisting := by
  unfold fit at h
  split at h
  · rw [Except.ok.inj h]
  · rename_i hlong
    split at h
    · have hlength : text.toList.length = n := by
        rw [← Except.ok.inj h, String.toList_ofList, List.length_take]
        omega
      constructor
      · rintro rfl
        rw [← hlength] at hn
        exact absurd hn (by decide)
      · rintro rfl
        exact absurd (Nat.le_trans (by decide) hn.le) hlong
    · cases h

/-- Columns that an update keeps on the rows it touches, it keeps on all rows. -/
theorem map_updateWhere_eq_iff {R K : Type} {p : R → Bool} {f : R → R} (columns : R → K)
    (rows : List R) : (updateWhere p f rows).map columns = rows.map columns ↔
      ∀ r ∈ rows, p r = true → columns (f r) = columns r := by
  unfold updateWhere
  rw [List.map_map, List.map_inj_left]
  constructor
  · intro h r hr hp
    simpa [hp] using h r hr
  · intro h r hr
    by_cases hp : p r = true
    · simpa [hp] using h r hr hp
    · simp [hp]

/-- Recording a registration again under the placeholder leaves the registration columns as
they were exactly when the placeholder was recorded before. -/
theorem sameRegistrations_iff (hrow : ∃ r ∈ db.users, r.id = userId)
    (h : Marked db db₁ userId address userType lat long pda signature)
    (h' : Marked db₁ db₂ userId address userType lat long pda preexisting) :
    SameRegistrations db₁ db₂ ↔ signature = preexisting := by
  obtain ⟨-, ⟨type, key, text, htype, hkey, htext, husers⟩, ⟨text', htext', hwallets⟩⟩ := h
  obtain ⟨-, ⟨type₂, key₂, text₂, htype₂, hkey₂, htext₂, husers₂⟩, ⟨text₂', htext₂', hwallets₂⟩⟩ := h'
  rw [fit_preexisting (by decide)] at htext₂ htext₂'
  rw [htype] at htype₂
  rw [hkey] at hkey₂
  cases htext₂
  cases htext₂'
  cases htype₂
  cases hkey₂
  rw [SameRegistrations, husers₂, hwallets₂, map_updateWhere_eq_iff, map_updateWhere_eq_iff,
    ← fit_eq_preexisting (by decide) htext]
  constructor
  · rintro ⟨hsame, -⟩
    obtain ⟨r, hr, hid⟩ := hrow
    have hmem : onboarded type lat long key text r ∈ db₁.users := by
      rw [husers]
      exact mem_updateWhere.mpr ⟨r, hr, by simp [hid]⟩
    have hcolumns := hsame _ hmem (by simp [onboarded, hid])
    simp only [userColumns, onboarded, Prod.mk.injEq, Option.some.injEq, true_and] at hcolumns
    exact hcolumns.symm
  · intro hplaceholder
    have hplaceholder' : text' = preexisting :=
      (fit_eq_preexisting (by decide) htext').mpr ((fit_eq_preexisting (by decide) htext).mp hplaceholder)
    subst hplaceholder hplaceholder'
    constructor
    · intro r hr hid
      rw [husers] at hr
      obtain ⟨s, -, rfl⟩ := mem_updateWhere.mp hr
      by_cases hs : s.id = userId
      · simp [hs, onboarded, userColumns]
      · simp [hs] at hid
    · intro r hr hid
      rw [hwallets] at hr
      obtain ⟨s, -, rfl⟩ := mem_updateWhere.mp hr
      by_cases hs : s.userId = userId ∧ s.walletAddress = address
      · simp [hs, registeredBy, walletColumns]
      · simp [hs] at hid

end Statements

variable {self : AuthService}

/-- The statements that record a registration are accepted. -/
def Records (c : Choice) (w : self.State) : Op → Prop
  | .user (.markUserOnboarded userId userType lat long pda signature) =>
    (markUserOnboarded c w.db userId userType lat long pda signature).1 = .ok ()
  | .wallet (.markRegistered userId address signature) =>
    (markRegistered c w.db userId address signature).1 = .ok ()
  | _ => True

instance (c : Choice) (w : self.State) (o : Op) : Decidable (Records c w o) := by
  apply Op.casesOn (motive := fun o => Decidable (Records c w o)) o
  · intro q
    apply UserOp.casesOn (motive := fun q => Decidable (Records c w (.user q))) q <;> intros <;>
      dsimp only [Records] <;> infer_instance
  · intro q
    apply WalletOp.casesOn (motive := fun q => Decidable (Records c w (.wallet q))) q <;> intros <;>
      dsimp only [Records] <;> infer_instance
  all_goals
    intros
    dsimp only [Records]
    infer_instance

/-- Only submitting adds a transaction. -/
theorem submitted_handle {o : Op} (h : o.kind ≠ .submit) (c : Choice) (w : self.State) :
    (self.handle c w o).2.chain.submitted = w.chain.submitted := by
  have hevolve : (w.evolve c).chain.submitted = w.chain.submitted :=
    Chain.submitted_advance _ _ _
  cases o with
  | chain q =>
    cases q with
    | registerUserOnChain authority userType latE7 longE7 h3Index shardId => exact absurd rfl h
    | accountExists pda => exact hevolve
  | host q =>
    cases q with
    | encodeToken claims => cases hf : c.fails <;> simpa [handle_host, hostHandle, hf] using hevolve
    | _ => exact hevolve
  | _ => exact hevolve

variable {w : self.State} {f g : ℕ → Choice} {userId : Uuid} {userType : UserType}
  {latE7 longE7 : Int32} {h3Index : Option UInt64} {shardId : Option UInt8}

/-- The signature that an onboarding records: the placeholder after the shortcut, else the
signature of its transaction. -/
def signatureOf (w : self.State) (f : ℕ → Choice) (pda : Pubkey) : String :=
  if Seen w f pda then preexisting else (f 2).signature

/-- What an onboarding has done that reports success and has recorded both rows. -/
theorem onboard_marked {result : OnChainOnboardingResult}
    (hresult : (run self.handle (self.onboardUserOnChain userId userType latE7 longE7 h3Index
      shardId).run f w).1 = .ok result) (hsuccess : result.success = true)
    (hrecords : Encounters self.handle Records (self.onboardUserOnChain userId userType latE7 longE7
      h3Index shardId).run f w) :
    let w₁ := (run self.handle (self.onboardUserOnChain userId userType latE7 longE7 h3Index
      shardId).run f w).2
    ∃ address pubkey pda, PrimaryAccount self w.db userId address pubkey pda ∧
      w₁.chain.Exists pda ∧ Marked w.db w₁.db userId address userType.name latE7 longE7
        (self.lib.pubkeyToString pda) (signatureOf w f pda) := by
  obtain ⟨hup, address, pubkey, pda, haccount⟩ := onboard_ok hresult
  refine ⟨address, pubkey, pda, haccount, ?_⟩
  by_cases hseen : Seen w f pda
  · obtain ⟨huser, hwallet⟩ := onboard_shortcut_encounters haccount hup hseen hrecords
    rw [onboard_shortcut haccount hup hseen, signatureOf, if_pos hseen]
    refine ⟨?_, marked_of_ok huser hwallet⟩
    exact self.exists_handle _ _ (self.exists_handle _ _ hseen.2.2 _) _
  · have hencounters := onboard_submits_encounters haccount hup hseen hrecords
    rw [onboard_submits haccount hup hseen, submitOnboarding_run] at hresult ⊢
    dsimp only at hresult ⊢
    rw [Nat.zero_add] at hresult ⊢
    rw [signatureOf, if_neg hseen]
    cases hsubmit : (f 2).fails with
    | true =>
      rw [hsubmit, if_pos rfl] at hresult
      cases hresult
      cases hsuccess
    | false =>
      rw [hsubmit] at hresult
      simp only [Bool.false_eq_true, if_false] at hresult ⊢
      obtain ⟨result', hresult', hconcluded⟩ :=
        (confirmOnboarding_concluded (f 2).signature).encounters
          (submitOnboarding_encounters hsubmit hencounters)
      have heq : result' = result := Except.ok.inj (hresult'.symm.trans hresult)
      subst heq
      obtain ⟨v, c, d, e, hdb, hexists, huser, hwallet, hlast, -⟩ := hconcluded hsuccess
      have hmarked := marked_of_ok huser hwallet
      have hsame : v.db = w.db := hdb
      rw [hsame] at hmarked
      refine ⟨?_, ?_⟩
      · exact hlast ▸ self.exists_handle e _ (self.exists_handle d _ (self.exists_handle c v hexists _) _) _
      · have hstored := congrArg World.db hlast
        simp only [handle_bus_db, handle_wallet, handle_user, UserRepository.handle,
          WalletRepository.handle, hsame] at hstored
        exact hstored ▸ hmarked

/-- Recording a registration moves no primary wallet. -/
theorem Marked.primaryAccount {db' : Database self.lib.pgLower} {address userType pda signature : String}
    {lat long : Int32} {pubkey account : Pubkey}
    (h : Marked w.db db' userId address userType lat long pda signature)
    (haccount : PrimaryAccount self w.db userId address pubkey account) :
    PrimaryAccount self db' userId address pubkey account := by
  obtain ⟨⟨r, hr, hu, hp, ha⟩, hkey⟩ := haccount
  obtain ⟨text, -, hwallets⟩ := h.wallets
  refine ⟨⟨registeredBy text r, ?_, hu, hp, ha⟩, hkey⟩
  rw [hwallets]
  exact mem_updateWhere.mpr ⟨r, hr, by simp [hu, ha]⟩

/-- A second onboarding in a healthy environment takes the shortcut: it submits nothing, reports
success and records the placeholder. -/
theorem onboard_again {w₁ : self.State} {address signature : String} {pubkey pda : Pubkey}
    (haccount : PrimaryAccount self w₁.db userId address pubkey pda) (hexists : w₁.chain.Exists pda)
    (hmarked : Marked w.db w₁.db userId address userType.name latE7 longE7
      (self.lib.pubkeyToString pda) signature)
    (hg : ∀ n, (g n).fails = false ∧ (g n).sees = true) (h3Index : Option UInt64)
    (shardId : Option UInt8) :
    let again := run self.handle (self.onboardUserOnChain userId userType latE7 longE7 h3Index
      shardId).run g w₁
    again.1 = .ok ⟨true, "User already registered on-chain", none⟩ ∧
      again.2.chain.submitted = w₁.chain.submitted ∧
      Marked w₁.db again.2.db userId address userType.name latE7 longE7
        (self.lib.pubkeyToString pda) preexisting := by
  have hseen : Seen w₁ g pda := ⟨(hg 1).1, (hg 1).2, exists_evolve (exists_evolve hexists _) _⟩
  obtain ⟨⟨htype, hpda, haddress⟩, ⟨type, key, -, hfit, hfit', -, -⟩, -⟩ := hmarked
  have hplain : sqlText preexisting = true := by decide
  have huser : (markUserOnboarded (g 2) w₁.db userId userType.name latE7 longE7
      (self.lib.pubkeyToString pda) preexisting).1 = .ok () :=
    markUserOnboarded_accepted (hg 2).1 (by simp [htype, hpda, hplain]) hfit hfit'
      (fit_preexisting (by decide))
  have hwallet : ∀ db : Database self.lib.pgLower,
      (markRegistered (g 3) db userId address preexisting).1 = .ok () := fun db =>
    markRegistered_accepted (hg 3).1 (by simp [haddress, hplain]) (fit_preexisting (by decide))
  dsimp only
  rw [onboard_shortcut haccount (hg 0).1 hseen]
  refine ⟨rfl, ?_, marked_of_ok huser (hwallet _)⟩
  rw [submitted_handle (by simp), submitted_handle (by simp)]
  have hfirst := submitted_handle (o := .host .newUuid) (by simp) (g 0) w₁
  have hsecond := submitted_handle (o := .host .newUuid) (by simp) (g 1) (w₁.evolve (g 0))
  exact hsecond.trans hfirst

/-- An onboarding that has recorded both rows is idempotent exactly when it found the account on
chain before it submitted anything, or recorded the placeholder as the signature of its
transaction. -/
theorem onboard_again_iff {result : OnChainOnboardingResult}
    (hresult : (run self.handle (self.onboardUserOnChain userId userType latE7 longE7 h3Index
      shardId).run f w).1 = .ok result) (hsuccess : result.success = true)
    (hrecords : Encounters self.handle Records (self.onboardUserOnChain userId userType latE7 longE7
      h3Index shardId).run f w)
    (hg : ∀ n, (g n).fails = false ∧ (g n).sees = true) :
    let w₁ := (run self.handle (self.onboardUserOnChain userId userType latE7 longE7 h3Index
      shardId).run f w).2
    let again := run self.handle (self.onboardUserOnChain userId userType latE7 longE7 h3Index
      shardId).run g w₁
    ((∃ result', again.1 = .ok result' ∧ result'.success = true) ∧
        again.2.chain.submitted = w₁.chain.submitted ∧ SameRegistrations w₁.db again.2.db) ↔
      (∃ address pubkey pda, PrimaryAccount self w.db userId address pubkey pda ∧ Seen w f pda) ∨
        (f 2).signature = preexisting := by
  dsimp only
  obtain ⟨address, pubkey, pda, haccount, hexists, hmarked⟩ :=
    onboard_marked hresult hsuccess hrecords
  obtain ⟨hanswer, hsubmitted, hagain⟩ := onboard_again (hmarked.primaryAccount haccount) hexists
    hmarked hg h3Index shardId
  have hrow : ∃ r ∈ w.db.users, r.id = userId := by
    obtain ⟨r, hr, hu, -⟩ := haccount.1
    obtain ⟨u, hmem, hid⟩ := List.mem_map.mp (w.db.references r hr)
    exact ⟨u, hmem, hid.trans hu⟩
  rw [hanswer, sameRegistrations_iff hrow hmarked hagain]
  have hcond : signatureOf w f pda = preexisting ↔ Seen w f pda ∨ (f 2).signature = preexisting := by
    unfold signatureOf
    by_cases hseen : Seen w f pda <;> simp [hseen]
  rw [hcond]
  constructor
  · rintro ⟨-, -, hseen | hsignature⟩
    · exact .inl ⟨address, pubkey, pda, haccount, hseen⟩
    · exact .inr hsignature
  · intro h
    refine ⟨⟨_, rfl, rfl⟩, hsubmitted, ?_⟩
    rcases h with ⟨address', pubkey', pda', haccount', hseen⟩ | hsignature
    · rw [(haccount.unique haccount').2]
      exact .inl hseen
    · exact .inr hsignature

section Alice
open ReferenceLibraries

/-- Alice onboards as a prosumer. -/
def onboardAlice : Method OnChainOnboardingResult :=
  service.onboardUserOnChain ⟨1⟩ .prosumer 137563000 1005018000 none none

/-- Nothing fails, and lookups see what is on chain. -/
theorem healthy_oracle : ∀ n, (oracle [] n).fails = false ∧ (oracle [] n).sees = true := by
  intro n
  exact ⟨rfl, rfl⟩

theorem onboard_again_iff_drifted :
    let w₁ := (run service.handle onboardAlice.run (oracle []) drifted).2
    let again := run service.handle onboardAlice.run (oracle []) w₁
    (∃ result', again.1 = .ok result' ∧ result'.success = true) ∧
      again.2.chain.submitted = w₁.chain.submitted ∧ SameRegistrations w₁.db again.2.db := by
  have hfirst : (run service.handle onboardAlice.run (oracle []) drifted).1 =
      .ok ⟨true, "User already registered on-chain", none⟩ ∧
      Encounters service.handle Records onboardAlice.run (oracle []) drifted ∧
      (∃ r ∈ drifted.db.wallets, r.userId = ⟨1⟩ ∧ r.isPrimary = true ∧
        r.walletAddress = aliceTask.walletAddress) ∧
      Seen drifted (oracle []) (findProgramAddress aliceTask.pubkey aliceTask.pubkey) := by
    rw [drifted_eq]
    decide +kernel
  unfold onboardAlice at hfirst ⊢
  obtain ⟨hanswer, hrecords, hwallet, hseen⟩ := hfirst
  have hiff := @onboard_again_iff service drifted (oracle []) (oracle []) ⟨1⟩ .prosumer 137563000
    1005018000 none none _ hanswer rfl hrecords healthy_oracle
  exact hiff.mpr (.inl ⟨_, aliceTask.pubkey, _,
    ⟨hwallet, by decide +kernel, by decide +kernel⟩, hseen⟩)

/-- Her onboarding sends a transaction, which lands before the first poll. -/
def submitting : ℕ → Choice :=
  oracle [{}, {}, { submits := true, signature := "5SiG" }, { lands := [0] }]

/-- The second onboarding replaces the signature of the transaction by the placeholder. -/
theorem second_onboarding_overwrites_signature :
    ¬ ∀ (w : service.State) (f g : ℕ → Choice) (result : OnChainOnboardingResult),
      (run service.handle onboardAlice.run f w).1 = .ok result → result.success = true →
      Encounters service.handle Records onboardAlice.run f w →
      (∀ n, (g n).fails = false ∧ (g n).sees = true) →
      SameRegistrations (run service.handle onboardAlice.run f w).2.db
        (run service.handle onboardAlice.run g (run service.handle onboardAlice.run f w).2).2.db := by
  intro h
  have hfirst : (run service.handle onboardAlice.run submitting verified).1 =
      .ok ⟨true, "User registered on-chain", some "5SiG"⟩ ∧
      Encounters service.handle Records onboardAlice.run submitting verified := by
    rw [verified_eq]
    decide +kernel
  have hsame := h verified submitting (oracle []) _ hfirst.1 rfl hfirst.2 healthy_oracle
  have hsignatures := congrArg (List.map fun columns => columns.2.2.2.2.2.2.2) hsame.1
  rw [List.map_map, List.map_map, verified_eq] at hsignatures
  revert hsignatures
  decide +kernel

end Alice

end IamService.OnboardingIdempotence
