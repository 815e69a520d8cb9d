import IamService.UserStatements
import IamService.WalletCallRuns
import IamService.ReferenceStates

/-!
# The address in the users table follows the wallets

`users.wallet_address` is written beside the wallets table, by statements of their own.
Linking, promotion and custodial provisioning keep it on the primary wallet of its user,
or else on some wallet of the user. Unlinking never touches it, and leaves the address of
a wallet that is gone exactly when it removes the wallet whose address the user has.
-/

namespace IamService.WalletAddressTracking
open EffectPrograms RelationTables WalletRepository UserRepository AuthService ReferenceLibraries

variable {lower : String → String}

/-- A user with a primary wallet has its address, and any other user has no address or that
of a linked wallet. -/
def Tracked (db : Database lower) : Prop :=
  ∀ u ∈ db.users,
    (∀ r ∈ db.wallets, r.userId = u.id → r.isPrimary = true →
      u.walletAddress = some r.walletAddress) ∧
    (¬ hasPrimary db u.id → u.walletAddress = none ∨
      ∃ r ∈ db.wallets, r.userId = u.id ∧ u.walletAddress = some r.walletAddress)

/-- The same without the distinction: every address is that of a linked wallet. -/
structure Follows (db : Database lower) : Prop where
  primary : ∀ u ∈ db.users, ∀ r ∈ db.wallets, r.userId = u.id → r.isPrimary = true →
    u.walletAddress = some r.walletAddress
  linked : ∀ u ∈ db.users, ∀ address, u.walletAddress = some address →
    ∃ r ∈ db.wallets, r.userId = u.id ∧ r.walletAddress = address

theorem tracked_iff {db : Database lower} : Tracked db ↔ Follows db := by
  constructor
  · intro h
    refine ⟨fun u hu => (h u hu).1, ?_⟩
    intro u hu address haddress
    by_cases hp : hasPrimary db u.id
    · obtain ⟨r, hr, hru, hrp⟩ := hp
      have hsame := (h u hu).1 r hr hru hrp
      exact ⟨r, hr, hru, Option.some.inj (hsame.symm.trans haddress)⟩
    · rcases (h u hu).2 hp with hnone | ⟨r, hr, hru, hsome⟩
      · rw [hnone] at haddress
        cases haddress
      · exact ⟨r, hr, hru, Option.some.inj (hsome.symm.trans haddress)⟩
  · intro h u hu
    refine ⟨h.primary u hu, ?_⟩
    intro _
    cases haddress : u.walletAddress with
    | none => exact .inl rfl
    | some address =>
      obtain ⟨r, hr, hru, rfl⟩ := h.linked u hu address haddress
      exact .inr ⟨r, hr, hru, rfl⟩

/-- Every stored address is a text that fits the column of the users table. -/
def Writable (db : Database lower) : Prop :=
  ∀ r ∈ db.wallets, sqlText r.walletAddress = true ∧ r.walletAddress.toList.length ≤ 64

section Tables

variable {db db' : Database lower}

/-- Only the address of each user, and owner, address and flag of each wallet matter. -/
theorem Follows.congr (h : Follows db)
    (hu : db'.users.map (fun u => (u.id, u.walletAddress)) =
      db.users.map (fun u => (u.id, u.walletAddress)))
    (hw : db'.wallets.map (fun r => (r.userId, r.walletAddress, r.isPrimary)) =
      db.wallets.map (fun r => (r.userId, r.walletAddress, r.isPrimary))) : Follows db' := by
  constructor
  · intro u' hu' r' hr' howner hprimary
    obtain ⟨u, hmu, hue⟩ := exists_of_map_eq _ hu.symm hu'
    obtain ⟨r, hmr, hre⟩ := exists_of_map_eq _ hw.symm hr'
    simp only [Prod.mk.injEq] at hue hre
    rw [← hue.2, ← hre.2.1]
    exact h.primary u hmu r hmr (by rw [hre.1, hue.1, howner]) (hre.2.2.trans hprimary)
  · intro u' hu' address haddress
    obtain ⟨u, hmu, hue⟩ := exists_of_map_eq _ hu.symm hu'
    simp only [Prod.mk.injEq] at hue
    obtain ⟨r, hmr, howner, hsame⟩ := h.linked u hmu address (hue.2.trans haddress)
    obtain ⟨r', hr', hre⟩ := exists_of_map_eq _ hw hmr
    simp only [Prod.mk.injEq] at hre
    exact ⟨r', hr', by rw [hre.1, howner, hue.1], hre.2.1.trans hsame⟩

/-- Demoting wallets leaves every address linked. -/
theorem Follows.demote (h : Follows db) (userId : Uuid) :
    Follows (WalletRepository.demote db userId) := by
  constructor
  · intro u hu r hr howner hprimary
    obtain ⟨hmem, -⟩ := mem_demote_primary hr hprimary
    exact h.primary u hu r hmem howner hprimary
  · intro u hu address haddress
    obtain ⟨r, hr, howner, hsame⟩ := h.linked u hu address haddress
    refine ⟨_, mem_demote.mpr ⟨r, hr, rfl⟩, ?_⟩
    split
    · exact ⟨howner, hsame⟩
    · exact ⟨howner, hsame⟩

/-- A new user has neither an address nor wallets. -/
theorem Follows.register (h : Follows db) {row : UserRow} (hnone : row.walletAddress = none)
    (hu : db'.users = db.users ++ [row]) (hw : db'.wallets = db.wallets) : Follows db' := by
  have hfresh : ∀ r ∈ db.wallets, r.userId ≠ row.id := by
    intro r hr he
    obtain ⟨v, hv, hid⟩ := List.mem_map.mp (db.references r hr)
    have hids := db'.unique.userId
    rw [hu, List.map_append, List.nodup_append] at hids
    exact hids.2.2 _ (List.mem_map_of_mem hv) row.id (by simp) (hid.trans he)
  constructor
  · intro u hmu r hr howner hprimary
    rw [hu] at hmu
    rw [hw] at hr
    rcases List.mem_append.mp hmu with hmu | hmu
    · exact h.primary u hmu r hr howner hprimary
    · rw [List.mem_singleton.mp hmu] at howner
      exact absurd howner (hfresh r hr)
  · intro u hmu address haddress
    rw [hu] at hmu
    rw [hw]
    rcases List.mem_append.mp hmu with hmu | hmu
    · exact h.linked u hmu address haddress
    · rw [List.mem_singleton.mp hmu, hnone] at haddress
      cases haddress

/-- One more wallet that is not primary. -/
theorem Follows.append (h : Follows db) {row : WalletRow} (hflag : row.isPrimary = false)
    (hu : db'.users = db.users) (hw : db'.wallets = db.wallets ++ [row]) : Follows db' := by
  constructor
  · intro u hmu r hr howner hprimary
    rw [hu] at hmu
    rw [hw] at hr
    rcases List.mem_append.mp hr with hr | hr
    · exact h.primary u hmu r hr howner hprimary
    · rw [List.mem_singleton.mp hr, hflag] at hprimary
      cases hprimary
  · intro u hmu address haddress
    rw [hu] at hmu
    rw [hw]
    obtain ⟨r, hr, hlink⟩ := h.linked u hmu address haddress
    exact ⟨r, List.mem_append_left _ hr, hlink⟩

/-- Giving a user the address of a wallet: all others are as before, and the user's own primary
wallet, if there is one, has that address. -/
theorem Follows.assign {userId : Uuid} {address : String}
    (hothers : ∀ u ∈ db.users, u.id ≠ userId →
      (∀ r ∈ db'.wallets, r.userId = u.id → r.isPrimary = true → u.walletAddress = some r.walletAddress) ∧
      ∀ a, u.walletAddress = some a → ∃ r ∈ db'.wallets, r.userId = u.id ∧ r.walletAddress = a)
    (hlinked : ∃ r ∈ db'.wallets, r.userId = userId ∧ r.walletAddress = address)
    (hprimary : ∀ r ∈ db'.wallets, r.userId = userId → r.isPrimary = true → r.walletAddress = address)
    {f : UserRow → UserRow} (hf : ∀ u, (f u).id = u.id ∧ (f u).walletAddress = some address)
    (hu : db'.users = updateWhere (fun r => r.id = userId) f db.users) : Follows db' := by
  have hcases : ∀ u' ∈ db'.users, (u'.id = userId ∧ u'.walletAddress = some address) ∨
      (u' ∈ db.users ∧ u'.id ≠ userId) := by
    intro u' hu'
    rw [hu] at hu'
    obtain ⟨u, hmu, rfl⟩ := mem_updateWhere.mp hu'
    by_cases hid : u.id = userId
    · simp [hid, hf]
    · simp [hid, hmu]
  constructor
  · intro u' hu' r hr howner hflag
    rcases hcases u' hu' with ⟨hid, haddress⟩ | ⟨hold, hid⟩
    · rw [haddress, hprimary r hr (howner.trans hid) hflag]
    · exact (hothers u' hold hid).1 r hr howner hflag
  · intro u' hu' a ha
    rcases hcases u' hu' with ⟨hid, haddress⟩ | ⟨hold, hid⟩
    · obtain ⟨r, hr, howner, hsame⟩ := hlinked
      exact ⟨r, hr, howner.trans hid.symm, hsame.trans (Option.some.inj (haddress.symm.trans ha))⟩
    · exact (hothers u' hold hid).2 a ha

/-- A user without a primary wallet receives a wallet together with its address. -/
theorem Follows.receive (h : Follows db) {userId : Uuid} {row : WalletRow}
    (hnone : ¬ hasPrimary db userId) (howner : row.userId = userId)
    (hw : db'.wallets = db.wallets ++ [row]) {f : UserRow → UserRow}
    (hf : ∀ u, (f u).id = u.id ∧ (f u).walletAddress = some row.walletAddress)
    (hu : db'.users = updateWhere (fun r => r.id = userId) f db.users) : Follows db' := by
  refine Follows.assign ?_ ⟨row, by simp [hw], howner, rfl⟩ ?_ hf hu
  · intro u hmu hid
    constructor
    · intro r hr hru hprimary
      rw [hw] at hr
      rcases List.mem_append.mp hr with hr | hr
      · exact h.primary u hmu r hr hru hprimary
      · rw [List.mem_singleton.mp hr] at hru
        exact absurd (hru.symm.trans howner) hid
    · intro address haddress
      obtain ⟨r, hr, hlink⟩ := h.linked u hmu address haddress
      exact ⟨r, by simp [hw, hr], hlink⟩
  · intro r hr hru hprimary
    rw [hw] at hr
    rcases List.mem_append.mp hr with hr | hr
    · exact absurd ⟨r, hr, hru, hprimary⟩ hnone
    · rw [List.mem_singleton.mp hr]

/-- Promoting a wallet of a user together with its address. -/
theorem Follows.promote (h : Follows db) {userId walletId : Uuid} {row : WalletRow}
    (hrow : row ∈ promoted db userId walletId) (hid : row.id = walletId) (howner : row.userId = userId)
    (hw : db'.wallets = promoted db userId walletId) {f : UserRow → UserRow}
    (hf : ∀ u, (f u).id = u.id ∧ (f u).walletAddress = some row.walletAddress)
    (hu : db'.users = updateWhere (fun r => r.id = userId) f db.users) : Follows db' := by
  refine Follows.assign ?_ ⟨row, hw ▸ hrow, howner, rfl⟩ ?_ hf hu
  · intro u hmu hne
    rw [hw]
    constructor
    · intro r hr hru hprimary
      obtain ⟨s, hs, rfl⟩ := mem_promoted.mp hr
      by_cases hsu : s.userId = userId
      · simp only [hsu, if_true] at hru
        exact absurd hru.symm hne
      · simp only [hsu, if_false] at hru hprimary ⊢
        exact h.primary u hmu s hs hru hprimary
    · intro address haddress
      obtain ⟨r, hr, hru, hsame⟩ := h.linked u hmu address haddress
      have hother : r.userId ≠ userId := by rw [hru]; exact hne
      exact ⟨r, mem_promoted.mpr ⟨r, hr, if_neg hother⟩, hru, hsame⟩
  · intro r hr hru hprimary
    rw [hw] at hr
    have hrid : r.id = walletId := by
      obtain ⟨s, hs, rfl⟩ := mem_promoted.mp hr
      by_cases hsu : s.userId = userId
      · simpa [hsu] using hprimary
      · simp [hsu] at hru
    have hids : ((promoted db userId walletId).map (·.id)).Nodup :=
      (promoted_valid db userId walletId).walletId
    rw [eq_of_key (·.id) hids hr hrow (hrid.trans hid.symm)]

/-- Removing a wallet breaks the link of the user who has its address, and no other. -/
theorem follows_keepWallets_iff (h : Follows db) (userId walletId : Uuid) :
    Follows (db.keepWallets (fun r => !removable userId walletId r)) ↔
      ∀ x ∈ db.wallets, removable userId walletId x = true →
        ∀ u ∈ db.users, u.walletAddress ≠ some x.walletAddress := by
  constructor
  · intro hafter x hx hremoved u hu haddress
    obtain ⟨r, hr, -, hsame⟩ := hafter.linked u hu _ haddress
    obtain ⟨hmem, hkept⟩ := List.mem_filter.mp hr
    have hrx : r = x := eq_of_key (·.walletAddress) db.unique.walletAddress hmem hx hsame
    rw [hrx, hremoved] at hkept
    cases hkept
  · intro hspared
    constructor
    · intro u hu r hr howner hprimary
      exact h.primary u hu r (List.mem_filter.mp hr).1 howner hprimary
    · intro u hu address haddress
      obtain ⟨r, hr, howner, hsame⟩ := h.linked u hu address haddress
      refine ⟨r, List.mem_filter.mpr ⟨hr, ?_⟩, howner, hsame⟩
      cases hremoved : removable userId walletId r with
      | true => exact absurd (hsame ▸ haddress) (hspared r hr hremoved u hu)
      | false => rfl

end Tables

section Texts

variable {db db' : Database lower}

theorem Writable.congr (h : Writable db)
    (hw : db'.wallets.map (·.walletAddress) = db.wallets.map (·.walletAddress)) : Writable db' := by
  intro r' hr'
  obtain ⟨r, hr, he⟩ := exists_of_map_eq _ hw.symm hr'
  rw [← he]
  exact h r hr

theorem Writable.append (h : Writable db) {c : Choice} {now : ℕ} {userId : Uuid}
    {walletAddress : String} {label : Option String} {isPrimary : Bool} {row : WalletRow}
    (hrow : candidate c now userId walletAddress label isPrimary = .ok row)
    (htext : sqlText walletAddress = true)
    (hw : db'.wallets.map (·.walletAddress) = db.wallets.map (·.walletAddress) ++ [row.walletAddress]) :
    Writable db' := by
  intro r hr
  have hmem : r.walletAddress ∈ db.wallets.map (·.walletAddress) ++ [row.walletAddress] :=
    hw ▸ List.mem_map_of_mem hr
  rcases List.mem_append.mp hmem with hmem | hmem
  · obtain ⟨s, hs, he⟩ := List.mem_map.mp hmem
    rw [← he]
    exact h s hs
  · rw [List.mem_singleton.mp hmem]
    exact fit_text (candidate_ok hrow).2.2.2.2 htext

end Texts

variable {self : AuthService}

section Operations

/-- Statements that move an address or a wallet. -/
def moves : List OpKind :=
  [.setWalletAddress, .setPrimary, .deleteIfNotPrimary, .insertWallet, .persistCustodialWallet]

theorem follows_of_tables {db db' : Database lower} (h : Follows db) (hu : db'.users = db.users)
    (hw : db'.wallets = db.wallets) : Follows db' := h.congr (by rw [hu]) (by rw [hw])

/-- Every other statement keeps the addresses on their wallets. -/
theorem follows_step (c : Choice) (w : self.State) (o : Op) (ho : o.kind ∉ moves)
    (h : Follows w.db) : Follows (self.handle c w o).2.db := by
  by_cases hdb : o.kind ∉ dbWrites
  · rw [self.handle_db_of_kind hdb]
    exact h
  · cases o with
    | user q =>
      rw [handle_user]
      cases q with
      | create newUser =>
        rcases create_cases c (w.evolve c).now w.db newUser with ⟨e, hq⟩ | ⟨fitted, db', -, hq, hw, hu⟩
        · simp only [UserRepository.handle, hq]
          exact h
        · simp only [UserRepository.handle, hq]
          exact h.register rfl hu hw
      | verifyEmail email =>
        rcases verifyEmail_cases c w.db email with ⟨e, hq⟩ | hq
        · simp only [UserRepository.handle, hq]
          exact h
        · simp only [UserRepository.handle, hq]
          exact h.congr (map_updateWhere _ _ (fun _ => rfl)) rfl
      | setVerificationToken userId token =>
        rcases setVerificationToken_cases c (w.evolve c).now w.db userId token with
          ⟨e, hq⟩ | ⟨text, db', -, hq, hw, hu⟩
        · simp only [UserRepository.handle, hq]
          exact h
        · simp only [UserRepository.handle, hq]
          exact h.congr (by rw [hu]; exact map_updateWhere _ _ (fun _ => rfl)) (by rw [hw])
      | updatePassword email hash =>
        rcases updatePassword_cases c w.db email hash with ⟨e, hq⟩ | ⟨text, db', -, hq, hw, hu⟩
        · simp only [UserRepository.handle, hq]
          exact h
        · simp only [UserRepository.handle, hq]
          exact h.congr (by rw [hu]; exact map_updateWhere _ _ (fun _ => rfl)) (by rw [hw])
      | markUserOnboarded userId userType lat long pda signature =>
        rcases markUserOnboarded_cases c w.db userId userType lat long pda signature with
          ⟨e, hq⟩ | ⟨type, address, text, db', -, -, -, hq, hw, hu⟩
        · simp only [UserRepository.handle, hq]
          exact h
        · simp only [UserRepository.handle, hq]
          exact h.congr (by rw [hu]; exact map_updateWhere _ _ (fun _ => rfl)) (by rw [hw])
      | _ => simp [moves, dbWrites] at ho hdb
    | wallet q =>
      rw [handle_wallet]
      cases q with
      | clearPrimary userId =>
        simp only [WalletRepository.handle, clearPrimary_eq]
        split
        · exact h
        · exact h.demote userId
      | markRegistered userId address signature =>
        rcases markRegistered_cases c w.db userId address signature with
          ⟨e, hq⟩ | ⟨text, db', -, hq, hu, hw⟩
        · simp only [WalletRepository.handle, hq]
          exact h
        · simp only [WalletRepository.handle, hq]
          exact h.congr (by rw [hu]) (by rw [hw]; exact map_updateWhere _ _ (fun _ => rfl))
      | _ => simp [moves, dbWrites] at ho hdb
    | cache q => exact h
    | bus q => exact h
    | chain q => exact h
    | host q => simpa using h

/-- The custodial transaction moves the address with the wallet. -/
theorem follows_persist (c : Choice) (now : ℕ) {db : Database lower} (h : Follows db) (userId : Uuid)
    {walletAddress : String} (hlen : walletAddress.toList.length ≤ 64) (label : Option String)
    (key : KeyMaterial) (kdfVersion : ℕ) :
    Follows (persistCustodialWallet c now db userId walletAddress label key kdfVersion).2 := by
  rcases persistCustodialWallet_cases c now db userId walletAddress label key kdfVersion with
    ⟨e, hq⟩ | ⟨row, address, db', hrow, -, haddress, hq, hw, hu⟩
  · rw [hq]
    exact h
  · rw [hq]
    obtain ⟨-, howner, -, -, hfit⟩ := candidate_ok hrow
    rw [fit_of_le hlen] at hfit
    rw [fit_of_le (by omega)] at haddress
    cases haddress
    refine (h.demote userId).receive (not_hasPrimary_demote db userId) howner hw ?_ hu
    intro u
    exact ⟨rfl, by rw [← Except.ok.inj hfit]⟩

/-- Stored addresses stay writable, whatever a statement does. -/
theorem writable_step (c : Choice) (w : self.State) (o : Op) (h : Writable w.db) :
    Writable (self.handle c w o).2.db := by
  cases o with
  | user q =>
    refine h.congr ?_
    rw [handle_user, UserRepository.handle_wallets]
  | wallet q =>
    rw [handle_wallet]
    cases q with
    | setPrimary userId walletId =>
      simp only [WalletRepository.handle, setPrimary_eq]
      split
      · exact h
      · exact h.congr (map_promoted w.db userId walletId _ (fun _ _ => rfl))
    | deleteIfNotPrimary userId walletId =>
      simp only [WalletRepository.handle, deleteIfNotPrimary_eq]
      split
      · exact h
      · exact fun r hr => h r (List.mem_filter.mp hr).1
    | clearPrimary userId =>
      simp only [WalletRepository.handle, clearPrimary_eq]
      split
      · exact h
      · exact h.congr (map_demote w.db userId _ (fun _ => rfl))
    | insert userId walletAddress label isPrimary =>
      simp only [WalletRepository.handle]
      cases hq : (WalletRepository.insert c (w.evolve c).now w.db userId walletAddress label
          isPrimary).1 with
      | error e =>
        rw [insert_error hq]
        exact h
      | ok wallet =>
        obtain ⟨row, hrow, -, -, -, hw⟩ := insert_ok hq
        refine h.append hrow (insert_text hq) ?_
        rw [hw, List.map_append]
        rfl
    | markRegistered userId address signature =>
      simp only [WalletRepository.handle]
      rcases markRegistered_cases c w.db userId address signature with
        ⟨e, hq⟩ | ⟨text, db', -, hq, -, hw⟩
      · rw [hq]
        exact h
      · rw [hq]
        exact h.congr (by rw [hw]; exact map_updateWhere _ _ (fun _ => rfl))
    | persistCustodialWallet userId walletAddress label key kdfVersion =>
      simp only [WalletRepository.handle]
      rcases persistCustodialWallet_cases c (w.evolve c).now w.db userId walletAddress label key
        kdfVersion with ⟨e, hq⟩ | ⟨row, address, db', hrow, -, -, hq, hw, -⟩
      · rw [hq]
        exact h
      · have htexts := (execute_available (congrArg Prod.fst hq)).2
        simp only [List.all_cons, Bool.and_eq_true] at htexts
        rw [hq]
        refine h.append hrow htexts.1 ?_
        rw [hw, List.map_append, map_demote w.db userId _ (fun _ => rfl)]
        rfl
    | _ => exact h
  | host q => simpa using h
  | cache q => exact h
  | bus q => exact h
  | chain q => exact h

theorem follows_limited {α : Type} {kinds : List OpKind} {p : Program α} (h : Limited kinds p)
    (hk : ∀ k ∈ kinds, k ∉ moves) (f : ℕ → Choice) (w : self.State) (hw : Follows w.db) :
    Follows (run self.handle p f w).2.db :=
  Issues.run (fun w v : self.State => Follows w.db → Follows v.db) (fun _ h => h)
    (fun h₁ h₂ h => h₂ (h₁ h)) (fun c w o ho => follows_step c w o (hk o.kind ho)) h f w hw

theorem writable_run {α : Type} (p : Program α) (f : ℕ → Choice) (w : self.State)
    (hw : Writable w.db) : Writable (run self.handle p f w).2.db := by
  induction p generalizing f w with
  | ret a => exact hw
  | eff o k ih => exact ih _ _ _ (writable_step (f 0) w o hw)

end Operations

section Calls

variable {w : self.State} {o : ℕ → Choice} {userId : Uuid}

/-- An accepted wallet that becomes the address of its user. -/
theorem follows_afterInsert {db : Database self.lib.pgLower} (h : Follows db) {row : WalletRow}
    (haccepts : Accepts db row) (hup : ∀ n, (o n).fails = false) (hnone : ¬ hasPrimary db row.userId)
    (htext : sqlText row.walletAddress = true) (hlen : row.walletAddress.toList.length ≤ 64)
    (hu : w.db.users = db.users) (hw : w.db.wallets = db.wallets ++ [row])
    (isPrimary hasExisting : Bool) (hset : (isPrimary || !hasExisting) = true) (wallet : UserWallet) :
    Follows (run self.handle (self.afterInsert row.userId row.walletAddress isPrimary hasExisting
      wallet).run o w).2.db := by
  have hfree : ∀ u ∈ w.db.users, u.id ≠ row.userId → u.walletAddress ≠ some row.walletAddress := by
    intro u hmu _ haddress
    rw [hu] at hmu
    obtain ⟨r, hr, -, hsame⟩ := h.linked u hmu _ haddress
    exact haccepts.address r hr hsame
  obtain ⟨db', hq, hw', hu'⟩ :=
    setWalletAddress_of_ok (o 0) w.db (hup 0) htext (by omega) hfree
  have hassigned : Follows db' := by
    rw [hu] at hu'
    rw [hw] at hw'
    refine h.receive hnone rfl hw' ?_ hu'
    intro u
    exact ⟨rfl, rfl⟩
  have hstep : (self.handle (o 0) w (.user (.setWalletAddress row.userId row.walletAddress))).2.db =
      db' := congrArg Prod.snd hq
  simp only [afterInsert, hset, if_true, run_bind', run_observe, userRepo, Prog.eff_bind,
    Prog.ret_bind, run_eff, proceed_ok]
  refine follows_limited (self.registerLinked_limited _ _ _) (by simp [moves]) _ _ ?_
  rw [hstep]
  exact hassigned

/-- The insertion of a link, with the address that follows it. -/
theorem follows_insertLinked {walletAddress : String} {label : Option String}
    {isPrimary hasExisting : Bool} (h : Follows w.db) (hup : ∀ n, (o n).fails = false)
    (hlen : walletAddress.toList.length ≤ 64)
    (hnone : (isPrimary || !hasExisting) = true → ¬ hasPrimary w.db userId) :
    Follows (run self.handle
      (self.insertLinked userId walletAddress label isPrimary hasExisting).run o w).2.db := by
  rw [insertLinked_run]
  dsimp only
  cases hq : (WalletRepository.insert (o 0) (w.now + (o 0).elapsed) w.db userId walletAddress label
      isPrimary).1 with
  | error e =>
    dsimp only
    rw [insert_error hq]
    exact h
  | ok wallet =>
    dsimp only
    obtain ⟨row, hrow, haccepts, -, hu, hw⟩ := insert_ok hq
    obtain ⟨-, howner, hflag, -, hfit⟩ := candidate_ok hrow
    rw [fit_of_le hlen] at hfit
    obtain rfl := Except.ok.inj hfit
    subst howner
    cases hset : isPrimary || !hasExisting with
    | true =>
      exact follows_afterInsert h haccepts (fun n => hup (n + 1)) (hnone hset) (insert_text hq) hlen
        hu hw isPrimary hasExisting hset wallet
    | false =>
      simp only [afterInsert, hset, Bool.false_eq_true, if_false]
      refine follows_limited (self.registerLinked_limited _ _ _) (by simp [moves]) _ _ ?_
      have hplain : row.isPrimary = false := by
        rw [hflag]
        exact (Bool.or_eq_false_iff.mp hset).1
      exact h.append hplain hu hw

/-- What the service relies on in the reading of keys: a key is written in base 58 with at most
44 characters. -/
def KeyTextLength (lib : Libraries) : Prop :=
  ∀ s pk, lib.parsePubkey s = .ok pk → s.toList.length ≤ 44

theorem follows_linkWallet (hparse : KeyTextLength self.lib) {walletAddress : String}
    {label : Option String} {isPrimary : Bool} (h : Follows w.db) (hup : ∀ n, (o n).fails = false) :
    Follows (self.after w ⟨.linkWallet userId walletAddress label isPrimary, o⟩).db := by
  simp only [AuthService.after, AuthService.serve, AuthService.method, linkWallet_run, hup]
  cases hkey : self.lib.parsePubkey walletAddress with
  | error e => exact h
  | ok pubkey =>
    have hlen : walletAddress.toList.length ≤ 64 := (hparse _ _ hkey).trans (by decide)
    simp only [Bool.false_eq_true, if_false]
    split
    · -- the wallets of the user have been demoted
      refine follows_insertLinked (h.demote userId) (fun n => hup (n + 2)) hlen ?_
      intro _
      exact not_hasPrimary_demote w.db userId
    · rename_i hnot
      refine follows_insertLinked h (fun n => hup (n + 1)) hlen ?_
      rintro hset ⟨r, hr, howner, -⟩
      have hany : hasAnyWallet w.db userId = true := hasAnyWallet_iff.mpr ⟨r, hr, howner⟩
      simp [hany] at hset hnot
      simp [hset] at hnot

theorem follows_setPrimaryWallet (h : Follows w.db) (htexts : Writable w.db)
    (hup : ∀ n, (o n).fails = false) (walletId : Uuid) :
    Follows (self.after w ⟨.setPrimaryWallet userId walletId, o⟩).db := by
  simp only [AuthService.after, AuthService.serve, AuthService.method, setPrimaryWallet_run, hup,
    setPrimary_eq, Bool.false_eq_true, if_false]
  cases hfind : (promoted w.db userId walletId).find? (isWallet userId walletId) with
  | none =>
    have habsent : ¬ ∃ r ∈ w.db.wallets, r.id = walletId ∧ r.userId = userId := by
      rw [← find_promoted, hfind]
      simp
    exact follows_of_tables (h.demote userId) rfl (promoted_of_absent habsent)
  | some row =>
    have hrow := List.mem_of_find?_eq_some hfind
    have hwallet := List.find?_some hfind
    rw [isWallet_iff] at hwallet
    -- the row as it was before the promotion
    obtain ⟨s, hs, hse⟩ := mem_promoted.mp hrow
    have hsame : s.walletAddress = row.walletAddress ∧ s.userId = row.userId := by
      rw [← hse]
      split
      · exact ⟨rfl, rfl⟩
      · exact ⟨rfl, rfl⟩
    obtain ⟨htext, hlen⟩ := htexts s hs
    rw [hsame.1] at htext hlen
    have hfree : ∀ u ∈ w.db.users, u.id ≠ userId → u.walletAddress ≠ some row.walletAddress := by
      intro u hu hne haddress
      obtain ⟨r, hr, howner, hra⟩ := h.linked u hu _ haddress
      have hrs : r = s :=
        eq_of_key (·.walletAddress) w.db.unique.walletAddress hr hs (hra.trans hsame.1.symm)
      rw [hrs, hsame.2, hwallet.2] at howner
      exact hne howner.symm
    obtain ⟨db', hq, hw', hu'⟩ := setWalletAddress_of_ok (o 1) ⟨w.db.users,
      promoted w.db userId walletId, promoted_valid w.db userId walletId,
      promoted_references w.db userId walletId⟩ (hup 1) htext (by omega) hfree
    have hassigned : Follows db' := by
      refine h.promote hrow hwallet.1 hwallet.2 hw' ?_ hu'
      intro u
      exact ⟨rfl, rfl⟩
    dsimp only
    rw [handle_user]
    simp only [UserRepository.handle]
    exact (congrArg Prod.snd hq).symm ▸ hassigned

/-- Unlinking keeps the addresses on their wallets exactly when it spares the wallet whose
address its user has. -/
theorem follows_unlinkWallet_iff (h : Follows w.db) (hup : ∀ n, (o n).fails = false) (walletId : Uuid) :
    Follows (self.after w ⟨.unlinkWallet userId walletId, o⟩).db ↔
      ∀ x ∈ w.db.wallets, removable userId walletId x = true →
        ∀ u ∈ w.db.users, u.walletAddress ≠ some x.walletAddress := by
  have hdb : (self.after w ⟨.unlinkWallet userId walletId, o⟩).db =
      w.db.keepWallets (fun r => !removable userId walletId r) := by
    simp only [AuthService.after, AuthService.serve, AuthService.method, unlinkWallet_run, hup,
      Bool.false_eq_true, if_false]
    split
    · rfl
    · split <;> rfl
  rw [hdb]
  exact follows_keepWallets_iff h userId walletId

/-- A custodial wallet has the text of a key as its address. -/
def CustodialText (o : Op) : Prop :=
  match o with
  | .wallet (.persistCustodialWallet _ walletAddress _ _ _) => walletAddress.toList.length ≤ 44
  | o => o.kind ∉ moves

theorem custodialText_of_limited {α : Type} {kinds : List OpKind} {p : Program α}
    (h : Limited kinds p) (hk : ∀ k ∈ kinds, k ∉ moves) : Issues CustodialText p := by
  refine Issues.mono ?_ h
  intro o ho
  unfold CustodialText
  split
  · exact absurd (by simp [moves]) (hk _ ho)
  · exact hk _ ho

theorem verifyEmail_custodialText (laws : KeyLaws self.lib) (token : String) :
    Issues CustodialText (self.verifyEmail token).run := by
  refine Issues.bindExcept (custodialText_of_limited (self.verifiedAddress_limited token)
    (by simp [moves])) ?_
  intro email
  refine Issues.bindExcept (by simp [userRepo, CustodialText, moves]) ?_
  intro activated
  cases activated with
  | none => simp
  | some activated =>
    refine Issues.bindExcept ?_ (fun user =>
      custodialText_of_limited (self.verifiedSession_limited user) (by simp [moves]))
    refine Issues.bindExcept (by simp [walletRepo, CustodialText, moves]) ?_
    intro hasWallet
    split
    · refine Issues.bindExcept (Issues.observe ?_) ?_
      · refine Issues.bindExcept (by simp [host, CustodialText, moves]) ?_
        intro keypair
        refine Issues.bindExcept (by simp [host, CustodialText, moves]) ?_
        intro encrypted
        cases encrypted with
        | error e => simp
        | ok key =>
          refine Issues.bindExcept ?_ ?_
          · exact ⟨laws.text_length _, fun _ => trivial⟩
          · intro wallet
            simp [host, CustodialText, moves]
      · intro provisioned
        cases provisioned <;> simp
    · simp

theorem follows_verifyEmail (laws : KeyLaws self.lib) (h : Follows w.db) (token : String) :
    Follows (self.after w ⟨.verifyEmail token, o⟩).db := by
  refine Issues.run (fun w v : self.State => Follows w.db → Follows v.db) (fun _ h => h)
    (fun h₁ h₂ h => h₂ (h₁ h)) ?_ (verifyEmail_custodialText laws token) o w h
  intro c v q hq hv
  unfold CustodialText at hq
  split at hq
  · exact follows_persist c _ hv _ (hq.trans (by decide)) _ _ _
  · exact follows_step c v q hq hv

end Calls

section Runs

variable (self)

/-- No infrastructure fails during the request. -/
def Healthy (r : Request) : Prop := ∀ n, (r.oracle n).fails = false

/-- The request does not unlink the wallet whose address a user has. -/
def SparesAddress (w : self.State) (r : Request) : Prop :=
  match r.call with
  | .unlinkWallet userId walletId => ∀ x ∈ w.db.wallets, removable userId walletId x = true →
      ∀ u ∈ w.db.users, u.walletAddress ≠ some x.walletAddress
  | _ => True

instance (w : self.State) : (r : Request) → Decidable (SparesAddress self w r)
  | ⟨.unlinkWallet userId walletId, _⟩ => inferInstanceAs (Decidable (∀ x ∈ w.db.wallets,
      removable userId walletId x = true → ∀ u ∈ w.db.users, u.walletAddress ≠ some x.walletAddress))
  | ⟨.login .., _⟩ | ⟨.register .., _⟩ | ⟨.verifyEmail _, _⟩ | ⟨.resendVerification _, _⟩
  | ⟨.forgotPassword _, _⟩ | ⟨.resetPassword .., _⟩ | ⟨.refreshToken _, _⟩ | ⟨.getUserProfile _, _⟩
  | ⟨.listWallets _, _⟩ | ⟨.getPrimaryWalletAddress _, _⟩ | ⟨.getWallet .., _⟩
  | ⟨.setPrimaryWallet .., _⟩ | ⟨.linkWallet .., _⟩ | ⟨.onboardUserOnChain .., _⟩
  | ⟨.initializeUserWallet .., _⟩ | ⟨.checkRateLimit .., _⟩ | ⟨.registrationTask _, _⟩ =>
    inferInstanceAs (Decidable True)

variable {self}

theorem tracked_after_iff (laws : KeyLaws self.lib) (hparse : KeyTextLength self.lib)
    (w : self.State) (r : Request) (hr : Healthy r) (hw : Tracked w.db ∧ Writable w.db) :
    (Tracked (self.after w r).db ∧ Writable (self.after w r).db) ↔ SparesAddress self w r := by
  have htexts : Writable (self.after w r).db := writable_run _ _ _ hw.2
  rw [tracked_iff] at hw ⊢
  rw [and_iff_left htexts]
  obtain ⟨call, oracle⟩ := r
  cases call with
  | unlinkWallet userId walletId => exact follows_unlinkWallet_iff hw.1 hr walletId
  | linkWallet userId walletAddress label isPrimary =>
    exact iff_of_true (follows_linkWallet hparse hw.1 hr) trivial
  | setPrimaryWallet userId walletId =>
    exact iff_of_true (follows_setPrimaryWallet hw.1 hw.2 hr walletId) trivial
  | verifyEmail token => exact iff_of_true (follows_verifyEmail laws hw.1 token) trivial
  | _ => exact iff_of_true (follows_limited (self.method_limited _) (by simp [moves]) _ _ hw.1) trivial

theorem writable_serveAll (rs : List Request) :
    Writable (self.serveAll (World.empty _) rs).db := by
  have hall : ∀ (rs : List Request) (w : self.State), Writable w.db → Writable (self.serveAll w rs).db := by
    intro rs
    induction rs with
    | nil => exact fun w hw => hw
    | cons r rs ih => exact fun w hw => ih (self.after w r) (writable_run _ _ _ hw)
  apply hall
  simp [Writable, World.empty, Database.empty]

variable (self) in
/-- In a run from empty tables in which only constraints are violated, the address of every
user follows the wallets in all states exactly when no request unlinks the wallet whose
address its user has. -/
theorem address_tracks_wallets_iff (laws : KeyLaws self.lib) (hparse : KeyTextLength self.lib)
    (rs : List Request) (hup : ∀ r ∈ rs, Healthy r) :
    (∀ n, Tracked (self.serveAll (World.empty _) (rs.take n)).db) ↔
      self.Along (SparesAddress self) (World.empty _) rs := by
  have hempty : Tracked (World.empty self.lib.pgLower).db ∧ Writable (World.empty self.lib.pgLower).db := by
    simp [Tracked, Writable, World.empty, Database.empty]
  have hboth := AuthService.along_iff_invariant_of (tracked_after_iff laws hparse) hempty rs hup
  rw [← hboth]
  constructor
  · intro h n
    exact ⟨h n, writable_serveAll _⟩
  · intro h n
    exact (h n).1

end Runs

section Examples

theorem keyTextLength : KeyTextLength libraries := by
  intro s pk h
  simp only [libraries, pubkeyFromStr] at h
  split at h
  · rename_i hs
    exact hs.2.2
  · cases h

/-- An environment that is given no failing choice is healthy. -/
theorem healthy_oracle {call : Call} {choices : List Choice} (h : ∀ c ∈ choices, c.fails = false) :
    Healthy ⟨call, oracle choices⟩ := by
  intro n
  simp only [oracle, List.getD_eq_getElem?_getD]
  cases hc : choices[n]? with
  | none => rfl
  | some c => exact h c (List.mem_of_getElem? hc)

/-- Alice links a second wallet beside her custodial one and unlinks it again. -/
def secondWallet : List Request :=
  [registerAlice, verifyAlice,
    ⟨.linkWallet ⟨1⟩ "11111111111111111111111111111119" none false, oracle [{}, { uuid := ⟨7⟩ }]⟩,
    ⟨.unlinkWallet ⟨1⟩ ⟨7⟩, oracle []⟩]

theorem secondWallet_healthy : ∀ r ∈ secondWallet, Healthy r := by
  simp only [secondWallet, registerAlice, verifyAlice, List.forall_mem_cons]
  exact ⟨healthy_oracle (by decide), healthy_oracle (by decide), healthy_oracle (by decide),
    healthy_oracle (by decide), by simp⟩

/-- The address of Alice follows her wallets all along, and the unlinking does remove one. -/
theorem second_wallet_tracked :
    (∀ r ∈ secondWallet, Healthy r) ∧
      (∀ n, Tracked (service.serveAll (World.empty _) (secondWallet.take n)).db) ∧
      (service.serveAll (World.empty _) (secondWallet.take 3)).db.wallets.length = 2 ∧
      (service.serveAll (World.empty _) secondWallet).db.wallets.length = 1 := by
  have hspares : service.Along (SparesAddress service) (World.empty _) secondWallet := by
    refine ⟨by decide, ?_⟩
    rw [after_registerAlice]
    decide +kernel
  have hlengths : (service.serveAll (World.empty _) (secondWallet.take 3)).db.wallets.length = 2 ∧
      (service.serveAll (World.empty _) secondWallet).db.wallets.length = 1 := by
    simp only [secondWallet, List.take_succ_cons, List.take_zero]
    rw [serveAll_registered, serveAll_registered]
    decide +kernel
  refine ⟨secondWallet_healthy, ?_, hlengths⟩
  exact (address_tracks_wallets_iff service keyLaws keyTextLength _ secondWallet_healthy).mpr hspares

/-- Alice's only wallet, linked without the flag, gives her its address and is unlinked. -/
def onlyWallet : List Request :=
  [registerAlice,
    ⟨.linkWallet ⟨1⟩ "11111111111111111111111111111115" none false, oracle [{}, { uuid := ⟨3⟩ }]⟩,
    ⟨.unlinkWallet ⟨1⟩ ⟨3⟩, oracle []⟩]

theorem onlyWallet_healthy : ∀ r ∈ onlyWallet, Healthy r := by
  simp only [onlyWallet, registerAlice, List.forall_mem_cons]
  exact ⟨healthy_oracle (by decide), healthy_oracle (by decide), healthy_oracle (by decide), by simp⟩

/-- The address of an unlinked wallet stays in the users table. -/
theorem unlinked_address_stays :
    ¬ ∀ rs : List Request, (∀ r ∈ rs, Healthy r) →
      Tracked (service.serveAll (World.empty _) rs).db := by
  intro h
  have hfollows := tracked_iff.mp (h onlyWallet onlyWallet_healthy)
  have htables : some "11111111111111111111111111111115" ∈
      (service.serveAll (World.empty _) onlyWallet).db.users.map (·.walletAddress) ∧
      (service.serveAll (World.empty _) onlyWallet).db.wallets.map (·.id) = [] := by
    unfold onlyWallet
    rw [serveAll_registered]
    decide +kernel
  obtain ⟨haddress, hwallets⟩ := htables
  obtain ⟨u, hu, hua⟩ := List.mem_map.mp haddress
  obtain ⟨r, hr, -⟩ := hfollows.linked u hu _ hua
  rw [List.map_eq_nil_iff.mp hwallets] at hr
  cases hr

end Examples

end IamService.WalletAddressTracking
