import IamService.ChainConfirmation
import IamService.ReferenceStates
import IamService.UserStatements
import IamService.WalletStatements

/-!
# The profile of a user in the database and on chain

The Registry keeps the profile of the first registration that lands for an account. The
detached task and the onboarding calls of a user compete for that record, and each of
them writes its own profile to the database as soon as some account exists. The two agree
as long as no call records a profile other than the one that the chain already holds.
-/

namespace IamService.OnChainProfileAgreement
open EffectPrograms RelationTables WalletRepository ChainConfirmation ReferenceLibraries

variable (self : AuthService) (userId : Uuid) (walletAddress : String)

/-- What the chain holds for the account derived from the wallet of the user. -/
def recordOf (w : self.State) : Option Registration :=
  ((self.lib.parsePubkey walletAddress).toOption.bind self.registryPda).bind w.chain.registration

/-- A user who is marked as registered has the profile that the chain holds. -/
def Agrees (w : self.State) : Prop :=
  ∀ x ∈ w.db.users, x.id = userId → x.blockchainRegistered = true →
    ∃ reg ∈ recordOf self walletAddress w, x.userType = some reg.userType.name ∧
      x.latitude = some reg.latE7 ∧ x.longitude = some reg.longE7

instance (w : self.State) : Decidable (Agrees self userId walletAddress w) := by
  unfold Agrees
  infer_instance

/-- The addresses of the wallets a user owns. -/
def ownedAddresses (w : self.State) : List String :=
  (w.db.wallets.filter (ownedBy userId)).map (·.walletAddress)

/-- A user with one wallet, who is not registered yet. -/
structure OneWallet (w : self.State) : Prop where
  wallets : ownedAddresses self userId w = [walletAddress]
  unregistered : ∀ x ∈ w.db.users, x.id = userId → x.blockchainRegistered = false

/-- The onboarding calls of the user, with any arguments, and the detached tasks that
register the wallet of the user. -/
inductive Launched (w : self.State) : Program AuthService.Returned → Prop where
  | onboard (userType : UserType) (latE7 longE7 : Int32) (h3Index : Option UInt64)
      (shardId : Option UInt8) : Launched w (self.program
        (.onboardUserOnChain userId userType latE7 longE7 h3Index shardId))
  | task (t : RegistrationTask) (user : t.userId = userId)
      (wallet : t.walletAddress = walletAddress)
      (key : t.walletAddress = self.lib.pubkeyToString t.pubkey) :
      Launched w (self.program (.registrationTask t))

/-- If an account exists when a profile is recorded, it was created with that profile. -/
def SameProfile (c : Choice) (w : self.State) (o : Op) : Prop :=
  match o with
  | .user (.markUserOnboarded _ userType lat long _ _) =>
    c.fails = false → ∀ reg ∈ recordOf self walletAddress w,
      userType = reg.userType.name ∧ lat = reg.latE7 ∧ long = reg.longE7
  | _ => True

instance (c : Choice) (w : self.State) (o : Op) :
    Decidable (SameProfile self walletAddress c w o) := by
  unfold SameProfile
  split <;> infer_instance

/-- The operations of the two writers that touch no profile. -/
def quiet : List OpKind := [.readWallets, .lookAccount, .submit, .sleep, .markRegistered, .publish]

/-- A profile is recorded only when the account of the wallet exists. -/
def permitted (w : self.State) (o : Op) : Prop :=
  match o with
  | .user (.markUserOnboarded ..) => (recordOf self walletAddress w).isSome = true
  | o => o.kind ∈ quiet

/-- The writers rely on the record staying as it is, and on the wallet. -/
def discipline : Discipline Op Choice self.State where
  inv := fun w => Agrees self userId walletAddress w ∧
    ownedAddresses self userId w = [walletAddress]
  rely := fun w v => ∀ reg ∈ recordOf self walletAddress w, reg ∈ recordOf self walletAddress v
  permits := permitted self walletAddress
  admits := SameProfile self walletAddress

variable {self userId walletAddress}

section Records

theorem mem_recordOf {w : self.State} {reg : Registration} :
    reg ∈ recordOf self walletAddress w ↔ ∃ pubkey pda,
      self.lib.parsePubkey walletAddress = .ok pubkey ∧ self.registryPda pubkey = some pda ∧
      w.chain.registration pda = some reg := by
  unfold recordOf
  cases self.lib.parsePubkey walletAddress <;> simp [Except.toOption, Option.bind_eq_some_iff]

/-- The chain never changes a record. -/
theorem recordOf_handle {w : self.State} {reg : Registration}
    (h : reg ∈ recordOf self walletAddress w) (c : Choice) (o : Op) :
    reg ∈ recordOf self walletAddress (self.handle c w o).2 := by
  obtain ⟨pubkey, pda, hp, hd, hr⟩ := mem_recordOf.mp h
  exact mem_recordOf.mpr ⟨pubkey, pda, hp, hd, self.registration_handle c w hr o⟩

theorem recordOf_isSome {w : self.State} {pubkey pda : Pubkey}
    (hp : self.lib.parsePubkey walletAddress = .ok pubkey)
    (hd : self.registryPda pubkey = some pda) (he : w.chain.Exists pda) :
    (recordOf self walletAddress w).isSome = true := by
  obtain ⟨reg, hr⟩ := Option.isSome_iff_exists.mp he
  exact Option.isSome_of_mem (mem_recordOf.mpr ⟨pubkey, pda, hp, hd, hr⟩)

theorem recordOf_isSome_rely {w v : self.State}
    (h : (recordOf self walletAddress w).isSome = true)
    (hr : (discipline self userId walletAddress).rely w v) :
    (recordOf self walletAddress v).isSome = true := by
  obtain ⟨reg, hreg⟩ := Option.isSome_iff_exists.mp h
  exact Option.isSome_of_mem (hr reg hreg)

end Records

section Soundness

theorem agrees_of_same_users {w v : self.State} (h : Agrees self userId walletAddress w)
    (hu : v.db.users = w.db.users) (hr : (discipline self userId walletAddress).rely w v) :
    Agrees self userId walletAddress v := by
  intro x hx hid hf
  obtain ⟨reg, hreg, hprofile⟩ := h x (hu ▸ hx) hid hf
  exact ⟨reg, hr reg hreg, hprofile⟩

/-- Recording the profile that the chain holds. -/
theorem agrees_markUserOnboarded {w v : self.State} {c : Choice} {user : Uuid} {userType : String}
    {lat long : Int32} {pda signature : String} (h : Agrees self userId walletAddress w)
    (hex : (recordOf self walletAddress w).isSome = true)
    (hsame : c.fails = false → ∀ reg ∈ recordOf self walletAddress w,
      userType = reg.userType.name ∧ lat = reg.latE7 ∧ long = reg.longE7)
    (hv : v.db = (UserRepository.markUserOnboarded c w.db user userType lat long pda signature).2)
    (hr : (discipline self userId walletAddress).rely w v) :
    Agrees self userId walletAddress v := by
  rcases UserRepository.markUserOnboarded_cases c w.db user userType lat long pda signature with
    ⟨e, hm⟩ | ⟨type, address, text, db', ht, -, -, hm, -, hu⟩
  · exact agrees_of_same_users h (by rw [hv, hm]) hr
  · have hok : c.fails = false := (execute_available (congrArg Prod.fst hm)).1
    intro x hx hid hf
    rw [hv, hm, hu, mem_updateWhere] at hx
    obtain ⟨y, hy, rfl⟩ := hx
    by_cases hmatch : y.id = user
    · rw [if_pos (by simpa using hmatch)]
      obtain ⟨reg, hreg⟩ := Option.isSome_iff_exists.mp hex
      obtain ⟨rfl, rfl, rfl⟩ := hsame hok reg hreg
      have htype : type = reg.userType.name := by
        have hfit : fit 20 reg.userType.name = .ok reg.userType.name :=
          fit_of_le (by cases reg.userType <;> decide)
        rw [hfit] at ht
        exact (Except.ok.inj ht).symm
      exact ⟨reg, hr reg hreg, by rw [htype], rfl, rfl⟩
    · rw [if_neg (by simpa using hmatch)] at hid hf ⊢
      obtain ⟨reg, hreg, hprofile⟩ := h y hy hid hf
      exact ⟨reg, hr reg hreg, hprofile⟩

theorem kind_markRegistered {o : Op} (h : o.kind = .markRegistered) :
    ∃ user address signature, o = .wallet (.markRegistered user address signature) := by
  unfold Op.kind at h
  split at h <;> first | exact ⟨_, _, _, rfl⟩ | cases h

/-- Operations that touch no profile leave the users and the owners of addresses alone. -/
theorem quiet_handle (c : Choice) (w : self.State) {o : Op} (h : o.kind ∈ quiet) :
    (self.handle c w o).2.db.users = w.db.users ∧
      ownedAddresses self userId (self.handle c w o).2 = ownedAddresses self userId w := by
  by_cases hdb : o.kind ∈ dbWrites
  · have hk : o.kind = .markRegistered := by
      have hall : ∀ k ∈ quiet, k ∈ dbWrites → k = .markRegistered := by decide
      exact hall o.kind h hdb
    obtain ⟨user, address, signature, rfl⟩ := kind_markRegistered hk
    rcases markRegistered_cases c w.db user address signature with
      ⟨e, hm⟩ | ⟨text, db', -, hm, hu, hw⟩
    · simp [AuthService.handle_wallet, WalletRepository.handle, hm, ownedAddresses]
    · simp only [AuthService.handle_wallet, WalletRepository.handle, hm, ownedAddresses, hu, hw,
        true_and]
      exact map_filter_updateWhere (fun r : WalletRow => r.walletAddress) _ (fun _ => rfl)
        (fun _ => rfl)
  · rw [ownedAddresses, self.handle_db_of_kind hdb c w]
    exact ⟨rfl, rfl⟩

theorem discipline_sound : (discipline self userId walletAddress).Sound self.handle where
  refl := fun _ _ h => h
  trans := fun h₁ h₂ reg h => h₂ reg (h₁ reg h)
  rely_step := fun {c w o} _ _ _ reg h => recordOf_handle h c o
  inv_step := by
    rintro c w o ⟨hagrees, hwallet⟩ hperm hsame
    have hrely : (discipline self userId walletAddress).rely w (self.handle c w o).2 :=
      fun reg h => recordOf_handle h c o
    by_cases hk : o.kind ∈ quiet
    · obtain ⟨hu, ha⟩ : (self.handle c w o).2.db.users = w.db.users ∧
          ownedAddresses self userId (self.handle c w o).2 = ownedAddresses self userId w :=
        quiet_handle c w hk
      exact ⟨agrees_of_same_users hagrees hu hrely, ha.trans hwallet⟩
    · change permitted self walletAddress w o at hperm
      unfold permitted at hperm
      split at hperm
      · refine ⟨agrees_markUserOnboarded hagrees hperm hsame rfl hrely, ?_⟩
        rw [ownedAddresses, AuthService.handle_user]
        simp only [UserRepository.handle_wallets]
        exact hwallet
      · exact absurd hperm hk

end Soundness

section Programs

theorem permitted_quiet {o : Op} (h : o.kind ∈ quiet) (w : self.State) :
    (discipline self userId walletAddress).permits w o := by
  change permitted self walletAddress w o
  unfold permitted
  split
  · simp [quiet] at h
  · exact h

theorem permitted_chain (w : self.State) (o : Op)
    (h : o.kind ∈ [OpKind.lookAccount, .sleep, .submit]) :
    (discipline self userId walletAddress).permits w o := by
  have hsub : ∀ k ∈ [OpKind.lookAccount, .sleep, .submit], k ∈ quiet := by decide
  exact permitted_quiet (hsub o.kind h) w

theorem limited_safe {α : Type} (kinds : List OpKind) {p : Program α} (h : Limited kinds p)
    (hk : ∀ k ∈ kinds, k ∈ quiet) (w : self.State) :
    Safe self.handle (discipline self userId walletAddress) (fun _ _ => True) p w := by
  refine Issues.safe (fun w o ho => ?_) h w
  exact permitted_quiet (hk o.kind ho) w

/-- A profile may be recorded once the account has been seen. -/
theorem mark_safe {ε β : Type} {user : Uuid} {userType pda signature : String} {lat long : Int32}
    {f : Result Unit → Fallible Op.Ans ε β} {w : self.State}
    (hon : (recordOf self walletAddress w).isSome = true)
    (hf : ∀ a v, Safe self.handle (discipline self userId walletAddress) (fun _ _ => True)
      (f a).run v) :
    Safe self.handle (discipline self userId walletAddress) (fun _ _ => True)
      (observe (userRepo (.markUserOnboarded user userType lat long pda signature)) >>= f).run w := by
  refine Safe.observeBind ?_
  intro t hr _
  exact ⟨recordOf_isSome_rely hon hr, fun _ _ => hf _ _⟩

theorem registrationTask_safe (laws : KeyLaws self.lib) (task : RegistrationTask)
    (ht : task.walletAddress = walletAddress)
    (hkey : task.walletAddress = self.lib.pubkeyToString task.pubkey) (w : self.State) :
    Safe self.handle (discipline self userId walletAddress) (fun _ _ => True)
      (self.registrationTask task).run w := by
  have hp : self.lib.parsePubkey walletAddress = .ok task.pubkey := by
    rw [← ht, hkey, laws.parse_text]
  refine blockchain_safe permitted_chain ?_
  intro submitted w₁
  cases submitted with
  | error e => trivial
  | ok signature =>
    refine Safe.observeBind ((confirmRegistered_safe permitted_chain task.pubkey w₁).mono ?_)
    intro seen w₂ hseen
    cases seen with
    | false => trivial
    | true =>
      obtain ⟨pda, hpda, hon⟩ := hseen rfl
      refine Safe.observeBind ?_
      intro w₃ hr₃ _
      refine ⟨permitted_quiet (by simp [quiet]) w₃, ?_⟩
      intro c _
      -- the flag of the wallet is written first; the record is still there afterwards
      have hsome := recordOf_isSome_rely (recordOf_isSome hp hpda hon) hr₃
      have hrely : (discipline self userId walletAddress).rely w₃ (self.handle c w₃
          (.wallet (.markRegistered task.userId task.walletAddress signature))).2 :=
        fun reg h => recordOf_handle h c _
      exact mark_safe (recordOf_isSome_rely hsome hrely) (fun _ _ => trivial)

/-- The address that an onboarding call finds is that of the one wallet. -/
theorem findPrimaryAddress_eq {w : self.State} {pick : ℕ} {address : String}
    (hw : ownedAddresses self userId w = [walletAddress])
    (h : findPrimaryAddress pick w.db userId = some address) : address = walletAddress := by
  unfold findPrimaryAddress at h
  obtain ⟨r, hr, rfl⟩ := Option.map_eq_some_iff.mp h
  obtain ⟨hmem, hp⟩ := limitOne_some hr
  rw [Bool.and_eq_true] at hp
  have hin : r.walletAddress ∈ ownedAddresses self userId w :=
    List.mem_map_of_mem (List.mem_filter.mpr ⟨hmem, hp.1⟩)
  simpa [hw] using hin

theorem onboardUserOnChain_safe (userType : UserType) (latE7 longE7 : Int32)
    (h3Index : Option UInt64) (shardId : Option UInt8) (w : self.State) :
    Safe self.handle (discipline self userId walletAddress) (fun _ _ => True)
      (self.onboardUserOnChain userId userType latE7 longE7 h3Index shardId).run w := by
  refine Safe.bindExcept ?_
  intro t _ ht
  refine ⟨permitted_quiet (by simp [quiet]) t, ?_⟩
  intro c _
  have hans : (self.handle c t (.wallet (.findPrimaryAddress userId))).1 =
    select c [] (findPrimaryAddress c.pick t.db userId) := rfl
  rw [hans]
  cases hfound : select c [] (findPrimaryAddress c.pick t.db userId) with
  | error e => trivial
  | ok found =>
    cases found with
    | none => trivial
    | some address =>
      obtain rfl := findPrimaryAddress_eq ht.2 (select_ok hfound).1.symm
      rw [safe_ret]
      dsimp only
      cases hp : self.lib.parsePubkey address with
      | error e => trivial
      | ok pubkey =>
        dsimp only
        cases hprog : self.lib.pubkeyFromStr self.config.registryProgramId with
        | error e => trivial
        | ok programId =>
          have hpda : self.registryPda pubkey =
              some (self.lib.findProgramAddress pubkey programId) := by
            rw [AuthService.registryPda, hprog]
          refine Safe.observeBind ?_
          intro t₁ _ _
          refine ⟨permitted_quiet (by simp [quiet]) t₁, ?_⟩
          intro c₁ _
          change Safe self.handle (discipline self userId address) _
            (ExceptT.run (if _ then _ else _)) _
          split
          · rename_i hseen
            refine mark_safe (recordOf_isSome hp hpda (accountExists_seen hseen)) ?_
            intro _ v
            exact limited_safe [.markRegistered] (by simp [Limited, walletRepo]) (by decide) v
          · refine blockchain_safe permitted_chain ?_
            intro submitted t₂
            cases submitted with
            | error e => trivial
            | ok signature =>
              refine Safe.observeBind ((pollAccount_safe permitted_chain _ 20 t₂).mono ?_)
              intro seen t₃ hseen
              cases seen with
              | false => trivial
              | true =>
                refine mark_safe (recordOf_isSome hp hpda (hseen rfl)) ?_
                intro _ v
                exact limited_safe [.markRegistered, .publish]
                  (by simp [Limited, walletRepo, eventBus]) (by decide) v

end Programs

/-- Whichever of the user's writers run: as long as none records a profile that differs from the
record on chain, the registered user has the profile on chain. -/
theorem agrees_of_writers (laws : KeyLaws self.lib)
    {starts : self.State → Program AuthService.Returned → Prop} {init : self.State → Prop}
    (hstarts : ∀ s p, starts s p → Launched self userId walletAddress s p)
    (hinit : ∀ s, init s → OneWallet self userId walletAddress s) {w : self.State}
    {ps : List (Program AuthService.Returned)}
    (h : Reach self.handle starts (SameProfile self walletAddress) init w ps) :
    Agrees self userId walletAddress w := by
  have hinv := Reach.inv (D := discipline self userId walletAddress) discipline_sound ?_ ?_ h
  · exact hinv.1
  · intro s hs
    obtain ⟨hwallets, hunregistered⟩ := hinit s hs
    refine ⟨?_, hwallets⟩
    intro x hx hid hf
    simp [hunregistered x hx hid] at hf
  · intro s p _ hp
    cases hstarts s p hp with
    | onboard userType latE7 longE7 h3Index shardId =>
      exact Safe.bind ((onboardUserOnChain_safe _ _ _ _ _ s).mono (fun _ _ _ => trivial))
    | task t user wallet key =>
      exact Safe.bind ((registrationTask_safe laws t wallet key s).mono (fun _ _ _ => trivial))

/-- In every interleaving of onboarding calls and registration tasks for a user with one
wallet, in which no call records a profile that differs from the record on chain, the
profile of the registered user is the one on chain. -/
theorem profile_agrees_with_chain (laws : KeyLaws self.lib) {w : self.State}
    {ps : List (Program AuthService.Returned)}
    (h : Reach self.handle (Launched self userId walletAddress) (SameProfile self walletAddress)
      (OneWallet self userId walletAddress) w ps) : Agrees self userId walletAddress w :=
  agrees_of_writers laws (fun _ _ hp => hp) (fun _ hs => hs) h

section OneProfile

/-- The profile of a registration. -/
structure Profile where
  userType : UserType
  latE7 : Int32
  longE7 : Int32

variable (self userId walletAddress) (profile : Profile)

/-- The registrations of the user's account carry the profile. -/
def Uniform (as : List (Pubkey × Registration)) : Prop :=
  ∀ a ∈ as, (self.lib.parsePubkey walletAddress).toOption.bind self.registryPda = some a.1 →
    profile = ⟨a.2.userType, a.2.latE7, a.2.longE7⟩

/-- The writers of one profile. A task submits the coordinates zero, whatever it records. -/
inductive LaunchedWith (w : self.State) : Program AuthService.Returned → Prop where
  | onboard (h3Index : Option UInt64) (shardId : Option UInt8) : LaunchedWith w (self.program
      (.onboardUserOnChain userId profile.userType profile.latE7 profile.longE7 h3Index shardId))
  | task (t : RegistrationTask) (user : t.userId = userId)
      (wallet : t.walletAddress = walletAddress)
      (key : t.walletAddress = self.lib.pubkeyToString t.pubkey)
      (submits : profile = ⟨t.userType, 0, 0⟩)
      (records : profile = ⟨t.userType, t.latitude, t.longitude⟩) :
      LaunchedWith w (self.program (.registrationTask t))

/-- The profile that an operation submits or records. -/
def Carries : Op → Prop
  | .user (.markUserOnboarded _ userType lat long _ _) =>
    userType = profile.userType.name ∧ lat = profile.latE7 ∧ long = profile.longE7
  | .chain (.registerUserOnChain _ userType latE7 longE7 _ _) => profile = ⟨userType, latE7, longE7⟩
  | _ => True

/-- One profile is submitted and recorded, by the service and by everyone else. -/
def uniformity : Discipline Op Choice self.State where
  inv := fun w => Uniform self walletAddress profile (w.chain.accounts ++ w.chain.submitted)
  rely := fun _ _ => True
  permits := fun _ o => Carries profile o
  admits := fun c _ _ => Uniform self walletAddress profile c.foreign

variable {self userId walletAddress profile}

theorem uniform_evolve {c : Choice} {w : self.State}
    (h : Uniform self walletAddress profile (w.chain.accounts ++ w.chain.submitted))
    (hc : Uniform self walletAddress profile c.foreign) :
    Uniform self walletAddress profile
      ((w.evolve c).chain.accounts ++ (w.evolve c).chain.submitted) := by
  intro a ha
  rcases List.mem_append.mp ha with ha | ha
  · rcases Chain.mem_accounts_advance ha with ha | ha | ha
    · exact h a (List.mem_append_left _ ha)
    · exact h a (List.mem_append_right _ ha)
    · exact hc a ha
  · have hsame : (w.evolve c).chain.submitted = w.chain.submitted := Chain.submitted_advance _ _ _
    exact h a (List.mem_append_right _ (hsame ▸ ha))

theorem uniformity_sound : (uniformity self walletAddress profile).Sound self.handle where
  refl := fun _ => trivial
  trans := fun _ _ => trivial
  rely_step := fun _ _ _ => trivial
  inv_step := by
    intro c w o hinv hcarries hc
    have hev := uniform_evolve hinv hc
    cases o with
    | chain q =>
      cases q with
      | accountExists pda => exact hev
      | registerUserOnChain authority userType latE7 longE7 h3Index shardId =>
        obtain rfl : profile = ⟨userType, latE7, longE7⟩ := hcarries
        change Uniform self walletAddress _ (_ ++ _)
        rw [AuthService.handle_chain]
        simp only [BlockchainProvider.handle]
        split
        · intro a ha
          simp only [List.mem_append, List.mem_singleton] at ha
          rcases ha with ha | ha | rfl
          · exact hev a (List.mem_append_left _ ha)
          · exact hev a (List.mem_append_right _ ha)
          · exact fun _ => rfl
        · exact hev
    | host q =>
      cases q with
      | encodeToken claims =>
        cases hf : c.fails <;>
          simpa [uniformity, AuthService.handle_host, AuthService.hostHandle, hf] using hev
      | _ => exact hev
    | _ => exact hev

theorem carries_of_wait {o : Op} (h : o.kind ∈ [OpKind.lookAccount, .sleep]) :
    Carries profile o := by
  unfold Carries
  split
  · simp at h
  · simp at h
  · trivial

theorem registrationTask_carries (t : RegistrationTask) (hsubmits : profile = ⟨t.userType, 0, 0⟩)
    (hrecords : profile = ⟨t.userType, t.latitude, t.longitude⟩) :
    Issues (Carries profile) (self.registrationTask t).run := by
  refine Issues.bindExcept (by simp [blockchain, Carries, hsubmits]) ?_
  intro submitted
  cases submitted with
  | error e => simp
  | ok signature =>
    refine Issues.bindExcept
      ((self.confirmRegistered_limited _).mono (fun _ => carries_of_wait)).observe ?_
    intro confirmed
    split
    · simp [userRepo, walletRepo, Carries, hrecords]
    · simp

theorem onboardUserOnChain_carries (h3Index : Option UInt64) (shardId : Option UInt8) :
    Issues (Carries profile) (self.onboardUserOnChain userId profile.userType profile.latE7
      profile.longE7 h3Index shardId).run := by
  refine Issues.bindExcept (by simp [walletRepo, Carries]) ?_
  intro found
  cases found with
  | none => simp
  | some address =>
    dsimp only
    split
    · simp
    · split
      · simp
      · refine Issues.bindExcept (by simp [blockchain, Carries]) ?_
        intro seen
        split
        · simp [userRepo, walletRepo, Carries]
        · refine Issues.bindExcept (by simp [blockchain, Carries]) ?_
          intro submitted
          cases submitted with
          | error e => simp
          | ok signature =>
            refine Issues.bindExcept
              ((AuthService.pollAccount_limited _ _).mono (fun _ => carries_of_wait)).observe ?_
            intro confirmed
            split
            · simp [AuthService.recordOnboarding, userRepo, walletRepo, eventBus, Carries]
            · simp

/-- When only one profile is on chain, an operation that carries it records no other. -/
theorem sameProfile_of_carries (c : Choice) {w : self.State} {o : Op}
    (h : Uniform self walletAddress profile (w.chain.accounts ++ w.chain.submitted))
    (ho : Carries profile o) : SameProfile self walletAddress c w o := by
  unfold SameProfile
  split
  · obtain ⟨rfl, rfl, rfl⟩ := ho
    intro _ reg hreg
    obtain ⟨pubkey, pda, hp, hd, hr⟩ := mem_recordOf.mp hreg
    unfold Chain.registration at hr
    obtain ⟨a, ha, rfl⟩ := Option.map_eq_some_iff.mp hr
    have hpda : a.1 = pda := by simpa using List.find?_some ha
    have hmem : a ∈ w.chain.accounts ++ w.chain.submitted :=
      List.mem_append_left _ (List.mem_of_find?_eq_some ha)
    have hprofile := h a hmem (by simp [hp, hpda, Except.toOption, hd])
    rw [hprofile]
    exact ⟨rfl, rfl, rfl⟩
  · trivial

/-- In every interleaving in which all writers carry one profile, and nobody registers the
account of the wallet with another one, the profile of the registered user is the one on
chain. -/
theorem agrees_of_one_profile (laws : KeyLaws self.lib) {w : self.State}
    {ps : List (Program AuthService.Returned)}
    (h : Reach self.handle (LaunchedWith self userId walletAddress profile)
      (fun c _ _ => Uniform self walletAddress profile c.foreign)
      (fun v => OneWallet self userId walletAddress v ∧
        Uniform self walletAddress profile (v.chain.accounts ++ v.chain.submitted)) w ps) :
    Agrees self userId walletAddress w := by
  have hsame := Reach.readmit (D := uniformity self walletAddress profile) uniformity_sound
    (fun _ hs => hs.2) ?_ (fun c _ _ hinv ho _ => sameProfile_of_carries c hinv ho) h
  · refine agrees_of_writers laws ?_ (fun _ hs => hs.1) hsame
    intro s p hp
    cases hp with
    | onboard h3Index shardId => exact .onboard _ _ _ h3Index shardId
    | task t user wallet key submits records => exact .task t user wallet key
  · intro s p _ hp
    refine Issues.safe (P := Carries profile) (fun _ _ ho => ho) ?_ s
    cases hp with
    | onboard h3Index shardId =>
      exact (onboardUserOnChain_carries h3Index shardId).bind (fun _ => trivial)
    | task t user wallet key submits records =>
      exact (registrationTask_carries t submits records).bind (fun _ => trivial)

end OneProfile

section Alice

/-- The address of Alice's custodial wallet. -/
def aliceAddress : String := aliceTask.walletAddress

/-- Alice's registration task and an onboarding call of hers. -/
def writers (userType : UserType) (latE7 longE7 : Int32) : List (Program AuthService.Returned) :=
  [service.program (.registrationTask aliceTask),
    service.program (.onboardUserOnChain ⟨1⟩ userType latE7 longE7 none none)]

/-- The task registers Alice as a consumer, and the record lands before the first poll;
then the onboarding call finds the account. -/
def taskFirst : List (ℕ × Choice) :=
  [(0, { submits := true, signature := "5SiG" }), (0, { lands := [0] }), (0, {}), (0, {}),
    (1, {}), (1, {}), (1, {}), (1, {})]

def competing (userType : UserType) (latE7 longE7 : Int32) :
    service.State × List (Program AuthService.Returned) :=
  schedule service.handle (verified, writers userType latE7 longE7) taskFirst

theorem reach_competing (userType : UserType) (latE7 longE7 : Int32)
    {admits : Choice → service.State → Op → Prop}
    (h : Admitted service.handle admits (verified, writers userType latE7 longE7) taskFirst) :
    Reach service.handle (Launched service ⟨1⟩ aliceAddress) admits
      (OneWallet service ⟨1⟩ aliceAddress) (competing userType latE7 longE7).1
      (competing userType latE7 longE7).2 := by
  have hinit : OneWallet service ⟨1⟩ aliceAddress verified := by
    rw [verified_eq]
    exact ⟨by decide +kernel, by decide +kernel⟩
  refine Reach.schedule (Reach.pool hinit _ ?_) _ h
  intro p hp
  simp only [writers, List.mem_cons, List.not_mem_nil, or_false] at hp
  rcases hp with rfl | rfl
  · exact .task aliceTask rfl rfl rfl
  · exact .onboard userType latE7 longE7 none none

theorem profile_agrees_with_chain_consumer :
    (∃ x ∈ (competing .consumer 0 0).1.db.users, x.blockchainRegistered = true) ∧
      Agrees service ⟨1⟩ aliceAddress (competing .consumer 0 0).1 := by
  have hrun : (∃ x ∈ (competing .consumer 0 0).1.db.users, x.blockchainRegistered = true) ∧
      Admitted service.handle (SameProfile service aliceAddress)
        (verified, writers .consumer 0 0) taskFirst := by
    unfold competing
    rw [verified_eq]
    decide +kernel
  exact ⟨hrun.1, @profile_agrees_with_chain service ⟨1⟩ aliceAddress keyLaws _ _
    (reach_competing .consumer 0 0 hrun.2)⟩

/-- Alice onboards as a prosumer after the task has registered her as a consumer: the
database follows the request, the chain does not. -/
theorem onboarding_overwrites_registered_profile :
    ¬ ∀ w ps, Reach service.handle (Launched service ⟨1⟩ aliceAddress) (fun _ _ _ => True)
      (OneWallet service ⟨1⟩ aliceAddress) w ps → Agrees service ⟨1⟩ aliceAddress w := by
  intro h
  have hreach := reach_competing .prosumer 137563000 1005018000
    (Admitted.of_forall (fun _ _ _ => trivial) _ _)
  have hagrees := h _ _ hreach
  unfold competing at hagrees
  rw [verified_eq] at hagrees
  revert hagrees
  decide +kernel

end Alice

end IamService.OnChainProfileAgreement
