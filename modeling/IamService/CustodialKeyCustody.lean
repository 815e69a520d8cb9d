import IamService.ReferenceStates
import IamService.UserStatements
import IamService.WalletStatements

/-!
# Custodial wallets and their keys

Any number of verifications run together, one operation at a time. The check for an
existing wallet and the transaction that creates one are separate operations, and the
transaction overwrites the single key slot of the user: two verifications that both
pass the check create two wallets and keep the key of the second only. As long as no
transaction starts for a user who has received a wallet since the check, every custodial
wallet has its key.
-/

namespace IamService.CustodialKeyCustody
open EffectPrograms RelationTables WalletRepository ReferenceLibraries

variable (self : AuthService)

/-- A wallet that was not there at the start. -/
def Created (w₀ w : self.State) (r : WalletRow) : Prop :=
  r ∈ w.db.wallets ∧ r.id ∉ w₀.db.wallets.map (·.id)

/-- The owner's key slot holds the encryption of the keypair behind the wallet's address. -/
def Recoverable (w : self.State) (r : WalletRow) : Prop :=
  ∃ x ∈ w.db.users, x.id = r.userId ∧ ∃ key keypair, x.keyMaterial = some key ∧
    self.lib.decryptPrivateKey self.config.encryptionSecret self.config.masterSecret key =
      some keypair ∧
    self.lib.pubkeyToString (self.lib.keypairPubkey keypair) = r.walletAddress

/-- Every custodial wallet can be recovered, and no user has received two. -/
def KeysKept (w₀ w : self.State) : Prop :=
  ∀ r, Created self w₀ w r → Recoverable self w r ∧
    ∀ s, Created self w₀ w s → s.userId = r.userId → s = r

/-- A custodial transaction runs only while its user still has no wallet. -/
def NotOvertaken (_ : Choice) (w : self.State) (o : Op) : Prop :=
  match o with
  | .wallet (.persistCustodialWallet userId _ _ _ _) => hasAnyWallet w.db userId = false
  | _ => True

instance (c : Choice) (w : self.State) (o : Op) : Decidable (NotOvertaken self c w o) := by
  unfold NotOvertaken
  split <;> infer_instance

/-- Verifications, launched at any time with any tokens. -/
def Verification (_ : self.State) (p : Program (Result VerifyEmailResult)) : Prop :=
  ∃ token, p = (self.verifyEmail token).run

/-- The operations of a verification; a custodial transaction stores the encryption of
the keypair whose address it inserts. -/
def permitted (o : Op) : Prop :=
  match o with
  | .wallet (.persistCustodialWallet _ walletAddress _ key _) => ∃ keypair salt,
      self.lib.encryptPrivateKey self.config.encryptionSecret self.config.masterSecret keypair
        salt = .ok key ∧
      walletAddress = self.lib.pubkeyToString (self.lib.keypairPubkey keypair)
  | o => o.kind ∈ (Call.verifyEmail "").footprint

/-- Verifications rely on nothing but on their own keypairs. -/
def discipline (w₀ : self.State) : Discipline Op Choice self.State where
  inv := KeysKept self w₀
  rely := fun _ _ => True
  permits := fun _ => permitted self
  admits := NotOvertaken self

variable {self}

theorem permitted_of_kind {o : Op} (h : o.kind ∈ (Call.verifyEmail "").footprint)
    (hp : o.kind ≠ .persistCustodialWallet) : permitted self o := by
  unfold permitted
  split
  · simp at hp
  · exact h

theorem permitted_kind {o : Op} (h : permitted self o) :
    o.kind ∈ (Call.verifyEmail "").footprint := by
  unfold permitted at h
  split at h
  · simp
  · exact h

theorem limited_safe {α : Type} (kinds : List OpKind) {p : Program α} {w₀ : self.State}
    (h : Limited kinds p) (hk : ∀ k ∈ kinds, k ∈ (Call.verifyEmail "").footprint ∧
      k ≠ .persistCustodialWallet) (w : self.State) :
    Safe self.handle (discipline self w₀) (fun _ _ => True) p w :=
  Issues.safe (fun _ o ho => permitted_of_kind (hk o.kind ho).1 (hk o.kind ho).2) h w

/-- Provisioning encrypts the keypair whose address it persists. -/
theorem provision_safe (w₀ w : self.State) (user : User) :
    Safe self.handle (discipline self w₀) (fun _ _ => True)
      (self.provisionCustodialWallet user).run w := by
  refine Safe.andThen (limited_safe [.readHost] (by simp [Limited, host]) (by simp) w) ?_
  intro keypair t
  simp only [run_bind', run_observe, host, Prog.eff_bind, Prog.ret_bind]
  rw [safe_eff]
  intro t' _ _
  have hperm : permitted self (.host (.encryptPrivateKey keypair)) :=
    permitted_of_kind (by simp) (by simp)
  refine ⟨hperm, ?_⟩
  intro c _
  -- the answer is the encryption under the random value of this step
  have hans : (self.handle c t' (.host (.encryptPrivateKey keypair))).1 =
    self.lib.encryptPrivateKey self.config.encryptionSecret self.config.masterSecret keypair
      c.random := rfl
  rw [hans]
  cases hk : self.lib.encryptPrivateKey self.config.encryptionSecret self.config.masterSecret
      keypair c.random with
  | error e => trivial
  | ok key =>
    refine Safe.andThen ?_ ?_
    · intro t'' _ _
      exact ⟨⟨keypair, c.random, hk, rfl⟩, fun _ _ => trivial⟩
    · intro wallet t''
      exact limited_safe [.spawn] (by simp [Limited]) (by simp) _

theorem verifyEmail_safe (w₀ w : self.State) (token : String) :
    Safe self.handle (discipline self w₀) (fun _ _ => True) (self.verifyEmail token).run w := by
  refine Safe.andThen (limited_safe _ (self.verifiedAddress_limited token) (by simp) w) ?_
  intro email t
  refine Safe.andThen (limited_safe [.verifyEmail] (by simp [Limited, userRepo])
    (by simp) t) ?_
  intro activated t
  cases activated with
  | none => trivial
  | some activated =>
    refine Safe.andThen ?_ (fun user t =>
      limited_safe _ (self.verifiedSession_limited user) (by simp) t)
    refine Safe.andThen (limited_safe [.readWallets] (by simp [Limited, walletRepo])
      (by simp) t) ?_
    intro hasWallet t
    split
    · refine Safe.andThen (provision_safe w₀ t activated).observe ?_
      intro wallet t
      cases wallet <;> trivial
    · trivial

theorem keysKept_of_same {w₀ w v : self.State} (hw : v.db.wallets = w.db.wallets)
    (hu : v.db.users.map (fun x => (x.id, x.keyMaterial)) =
      w.db.users.map (fun x => (x.id, x.keyMaterial)))
    (h : KeysKept self w₀ w) : KeysKept self w₀ v := by
  have hcreated : ∀ r, Created self w₀ v r ↔ Created self w₀ w r := by
    intro r
    rw [Created, Created, hw]
  intro r hr
  obtain ⟨⟨x, hx, hid, key, keypair, hkey, hdec, hadd⟩, honly⟩ := h r ((hcreated r).mp hr)
  refine ⟨?_, fun s hs hu => honly s ((hcreated s).mp hs) hu⟩
  have hmem : (x.id, x.keyMaterial) ∈ v.db.users.map (fun x => (x.id, x.keyMaterial)) := by
    rw [hu]
    exact List.mem_map_of_mem hx
  obtain ⟨y, hy, he⟩ := List.mem_map.mp hmem
  simp only [Prod.mk.injEq] at he
  exact ⟨y, hy, he.1.trans hid, key, keypair, he.2.trans hkey, hdec, hadd⟩

/-- A custodial transaction for a user without wallets: the new wallet is the only one of
its user, and the key slot holds its key. -/
theorem keysKept_persist (laws : KeyLaws self.lib) {w₀ w v : self.State} {c : Choice} {now : ℕ}
    {userId : Uuid} {label : Option String} {key : KeyMaterial} {kdfVersion : ℕ} {keypair : Keypair}
    {salt : ℕ} (hkey : self.lib.encryptPrivateKey self.config.encryptionSecret
      self.config.masterSecret keypair salt = .ok key)
    (hnone : hasAnyWallet w.db userId = false)
    (hv : v.db = (persistCustodialWallet c now w.db userId
      (self.lib.pubkeyToString (self.lib.keypairPubkey keypair)) label key kdfVersion).2)
    (h : KeysKept self w₀ w) : KeysKept self w₀ v := by
  rcases persistCustodialWallet_cases c now w.db userId (self.lib.pubkeyToString
    (self.lib.keypairPubkey keypair)) label key kdfVersion with
    ⟨e, hp⟩ | ⟨row, address, db', hrow, hacc, -, hp, hws, hus⟩
  · rw [hp] at hv
    exact keysKept_of_same (by rw [hv]) (by rw [hv]) h
  · rw [hp] at hv
    have hdem : (demote w.db userId).wallets = w.db.wallets := by
      refine demote_eq_iff.mpr ?_
      rintro ⟨r, hr, hu, -⟩
      rw [hasAnyWallet_iff.mpr ⟨r, hr, hu⟩] at hnone
      cases hnone
    have hnew : ∀ r ∈ w.db.wallets, r.userId ≠ userId := by
      intro r hr hu
      rw [hasAnyWallet_iff.mpr ⟨r, hr, hu⟩] at hnone
      cases hnone
    obtain ⟨-, hru, -, -, hfit⟩ := candidate_ok hrow
    have hra : row.walletAddress = self.lib.pubkeyToString (self.lib.keypairPubkey keypair) := by
      rw [fit_of_le ((laws.text_length _).trans (by decide))] at hfit
      exact (Except.ok.inj hfit).symm
    have hwallets : v.db.wallets = w.db.wallets ++ [row] := by rw [hv, hws, hdem]
    have husers := hus
    rw [show db' = v.db from hv.symm] at husers
    intro r hr
    rcases List.mem_append.mp (hwallets ▸ hr.1) with hrw | hrw
    · obtain ⟨⟨x, hx, hid, hrec⟩, honly⟩ := h r ⟨hrw, hr.2⟩
      refine ⟨⟨x, ?_, hid, hrec⟩, ?_⟩
      · rw [husers, mem_updateWhere]
        exact ⟨x, hx, by simp [hid, hnew r hrw]⟩
      · intro s hs hu
        rcases List.mem_append.mp (hwallets ▸ hs.1) with hsw | hsw
        · exact honly s ⟨hsw, hs.2⟩ hu
        · rw [List.mem_singleton.mp hsw, hru] at hu
          exact absurd hu.symm (hnew r hrw)
    · rw [List.mem_singleton.mp hrw]
      refine ⟨?_, ?_⟩
      · obtain ⟨x, hx, hid⟩ := List.mem_map.mp hacc.owner
        refine ⟨{ x with
          keyMaterial := some key
          kdfVersion := kdfVersion
          walletAddress := some address }, ?_, hid, key, keypair, rfl,
          laws.decrypt_encrypt _ _ _ _ _ hkey, hra.symm⟩
        rw [husers, mem_updateWhere]
        exact ⟨x, hx, by simp [hid, hru]⟩
      · intro s hs hu
        rcases List.mem_append.mp (hwallets ▸ hs.1) with hsw | hsw
        · rw [hru] at hu
          exact absurd hu (hnew s hsw)
        · exact List.mem_singleton.mp hsw

/-- Activation keeps ids and key slots. -/
theorem map_activate {lower : String → String} (db : Database lower) (email : String) :
    (UserRepository.activate db email).users.map (fun x => (x.id, x.keyMaterial)) =
      db.users.map (fun x => (x.id, x.keyMaterial)) :=
  map_updateWhere _ _ (fun _ => rfl)

theorem discipline_sound (laws : KeyLaws self.lib) (w₀ : self.State) :
    (discipline self w₀).Sound self.handle where
  refl := fun _ => trivial
  trans := fun _ _ => trivial
  rely_step := fun _ _ _ => trivial
  inv_step := by
    intro c w o hinv hperm hadm
    by_cases hk : o.kind ∉ dbWrites
    · have hdb := self.handle_db_of_kind hk c w
      exact keysKept_of_same (by rw [hdb]) (by rw [hdb]) hinv
    · have hkind : o.kind = .verifyEmail ∨ o.kind = .persistCustodialWallet := by
        have hfoot := permitted_kind hperm
        revert hfoot hk
        cases o.kind <;> simp [dbWrites]
      unfold Op.kind at hkind
      split at hkind <;> simp at hkind
      · rename_i email
        rcases UserRepository.verifyEmail_cases c w.db email with ⟨e, h⟩ | h
        · refine keysKept_of_same ?_ ?_ hinv <;> rw [AuthService.handle_user] <;>
            simp only [UserRepository.handle, h]
        · refine keysKept_of_same ?_ ?_ hinv <;> rw [AuthService.handle_user] <;>
            simp only [UserRepository.handle, h]
          · rfl
          · exact map_activate w.db email
      · rename_i userId walletAddress label key kdfVersion
        obtain ⟨keypair, salt, hkey, rfl⟩ := hperm
        exact keysKept_persist laws hkey hadm rfl hinv

/-- In every interleaving of verifications in which no custodial transaction has been
overtaken, every custodial wallet can be recovered and no user has received two. -/
theorem custodial_keys_kept (laws : KeyLaws self.lib) {w₀ w : self.State}
    {ps : List (Program (Result VerifyEmailResult))}
    (h : Reach self.handle (Verification self) (NotOvertaken self) (· = w₀) w ps) :
    KeysKept self w₀ w := by
  refine Reach.inv (D := discipline self w₀) (discipline_sound laws w₀) ?_ ?_ h
  · rintro _ rfl r ⟨hr, hnew⟩
    exact absurd (List.mem_map_of_mem hr) hnew
  · rintro s p - ⟨token, rfl⟩
    exact verifyEmail_safe w₀ s token

section Alice

/-- Two verifications of Alice's token. -/
def twice : List (Program (Result VerifyEmailResult)) :=
  [(service.verifyEmail aliceToken).run, (service.verifyEmail aliceToken).run]

theorem reach_twice (admits : Choice → service.State → Op → Prop) :
    Reach service.handle (Verification service) admits (· = registered) registered twice := by
  refine Reach.pool (s := registered) ?_ twice ?_
  · rfl
  · intro p hp
    exact ⟨aliceToken, by simpa [twice] using hp⟩

/-- The first verification runs to its end, then the second. -/
def oneAfterTheOther : List (ℕ × Choice) :=
  [(0, {}), (0, {}), (0, {}), (0, { keypair := ⟨5⟩ }), (0, {}), (0, { uuid := ⟨4⟩ }), (0, {}),
    (0, {}), (0, {}), (0, {}), (0, {}), (0, {}), (1, {}), (1, {}), (1, {}), (1, {}), (1, {})]

theorem custodial_keys_kept_one_after_the_other :
    (∃ r ∈ (schedule service.handle (registered, twice) oneAfterTheOther).1.db.wallets,
      r.id ∉ registered.db.wallets.map (·.id)) ∧
      KeysKept service registered
        (schedule service.handle (registered, twice) oneAfterTheOther).1 := by
  have hrun : (∃ r ∈ (schedule service.handle (registered, twice) oneAfterTheOther).1.db.wallets,
        r.id ∉ registered.db.wallets.map (·.id)) ∧
      Admitted service.handle (NotOvertaken service) (registered, twice) oneAfterTheOther := by
    rw [registered_eq]
    decide +kernel
  exact ⟨hrun.1, @custodial_keys_kept service keyLaws registered _ _
    ((reach_twice (NotOvertaken service)).schedule oneAfterTheOther hrun.2)⟩

/-- Both verifications pass the check before either has created a wallet. -/
def overlapping : List (ℕ × Choice) :=
  [(0, {}), (0, {}), (0, {}), (1, {}), (1, {}), (1, {}),
    (0, { keypair := ⟨5⟩ }), (0, {}), (0, { uuid := ⟨4⟩ }),
    (1, { keypair := ⟨6⟩ }), (1, {}), (1, { uuid := ⟨7⟩ })]

/-- The second transaction overwrites the key of the first wallet. -/
theorem overlapping_verifications_lose_a_key :
    ¬ ∀ (w : service.State) (ps : List (Program (Result VerifyEmailResult))),
      Reach service.handle (Verification service) (fun _ _ _ => True) (· = registered) w ps →
        KeysKept service registered w := by
  intro h
  have hkept := h _ _ ((reach_twice (fun _ _ _ => True)).schedule overlapping
    (Admitted.of_forall (fun _ _ _ => trivial) _ _))
  have hlost : ∃ r ∈ (schedule service.handle (registered, twice) overlapping).1.db.wallets,
      r.id ∉ registered.db.wallets.map (·.id) ∧
      ∀ x ∈ (schedule service.handle (registered, twice) overlapping).1.db.users,
        x.id = r.userId →
        (x.keyMaterial.bind (libraries.decryptPrivateKey "encryption" "master")).map
          (fun k => pubkeyToString (keypairPubkey k)) ≠ some r.walletAddress := by
    rw [registered_eq]
    decide +kernel
  obtain ⟨r, hr, hnew, hno⟩ := hlost
  obtain ⟨⟨x, hx, hid, key, keypair, hkey, hdec, haddr⟩, -⟩ := hkept r ⟨hr, hnew⟩
  refine hno x hx hid ?_
  rw [hkey, Option.bind_some]
  exact (congrArg (Option.map (fun k => pubkeyToString (keypairPubkey k))) hdec).trans
    (congrArg some haddr)

end Alice

end IamService.CustodialKeyCustody
