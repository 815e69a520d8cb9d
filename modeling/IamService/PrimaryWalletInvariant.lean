import IamService.UserStatements
import IamService.WalletFailureAtomicity

/-!
# Exactly one primary wallet

Sequential runs of all calls from empty tables. That a user has at most one primary
wallet is a constraint of the table; that a user with wallets has one depends on every
write path, and three kinds of requests break it: a first wallet linked without the
primary flag, a promotion of a wallet that is not there, and a link whose insertion is
refused after its demotion. Every other request keeps it.
-/

namespace IamService.PrimaryWalletInvariant
open EffectPrograms RelationTables WalletRepository WalletFailureAtomicity ReferenceLibraries

variable (self : AuthService)

/-- Every user with a wallet has exactly one primary wallet, and the lookup of the mint
recipient answers. -/
def OnePrimaryEach (w : self.State) : Prop :=
  ∀ userId, hasAnyWallet w.db userId = true →
    (∃! r, r ∈ w.db.wallets ∧ r.userId = userId ∧ r.isPrimary = true) ∧
    ∀ o : ℕ → Choice, (o 0).fails = false →
      ∃ address, (self.serve w ⟨.getPrimaryWalletAddress userId, o⟩).1 = .ok address

/-- The requests that leave every user with wallets a primary one. -/
def KeepsPrimary (w : self.State) (r : Request) : Prop :=
  match r.call with
  | .linkWallet userId walletAddress label true =>
    ¬ ((self.lib.parsePubkey walletAddress).isOk ∧ (r.oracle 0).fails = false ∧
      (r.oracle 1).fails = false ∧ hasAnyWallet w.db userId = true ∧
      InsertionRefused (r.oracle 2) w.db walletAddress label)
  | .linkWallet userId walletAddress label false =>
    ¬ ((self.lib.parsePubkey walletAddress).isOk ∧ (r.oracle 0).fails = false ∧
      hasAnyWallet w.db userId = false ∧
      ¬ Refused (r.oracle 1) (w.now + (r.oracle 0).elapsed + (r.oracle 1).elapsed) w.db userId
        walletAddress label false)
  | .setPrimaryWallet userId walletId =>
    (r.oracle 0).fails = true ∨ hasAnyWallet w.db userId = false ∨
      ∃ x ∈ w.db.wallets, x.id = walletId ∧ x.userId = userId
  | _ => True

section Holdings

variable {lower : String → String}

/-- Owner and primary flag of every wallet. -/
def holdings (db : Database lower) : List (Uuid × Bool) :=
  db.wallets.map (fun r => (r.userId, r.isPrimary))

/-- Every owner of a wallet owns a primary one. -/
def Covered (l : List (Uuid × Bool)) : Prop := ∀ p ∈ l, (p.1, true) ∈ l

theorem mem_holdings {db : Database lower} {p : Uuid × Bool} :
    p ∈ holdings db ↔ ∃ r ∈ db.wallets, r.userId = p.1 ∧ r.isPrimary = p.2 := by
  simp [holdings, Prod.ext_iff]

theorem hasPrimary_iff_holdings {db : Database lower} {userId : Uuid} :
    hasPrimary db userId ↔ (userId, true) ∈ holdings db := by
  rw [mem_holdings]
  rfl

theorem hasAny_iff_holdings {db : Database lower} {userId : Uuid} :
    hasAnyWallet db userId = true ↔ ∃ b, (userId, b) ∈ holdings db := by
  rw [hasAnyWallet_iff]
  constructor
  · rintro ⟨r, hr, hu⟩
    exact ⟨r.isPrimary, mem_holdings.mpr ⟨r, hr, hu, rfl⟩⟩
  · rintro ⟨b, hb⟩
    obtain ⟨r, hr, hu, -⟩ := mem_holdings.mp hb
    exact ⟨r, hr, hu⟩

theorem holdings_demote (db : Database lower) (userId : Uuid) :
    holdings (demote db userId) =
      (holdings db).map (fun p => if p.1 = userId then (p.1, false) else p) := by
  simp only [holdings, demote, Database.updateWallets, updateWhere, List.map_map]
  refine List.map_congr_left ?_
  intro r _
  simp only [Function.comp, ownedBy_iff]
  split <;> rfl

/-- Adding a primary wallet to a demoted table covers its owner. -/
theorem covered_demote_append {db : Database lower} (h : Covered (holdings db)) (userId : Uuid) :
    Covered (holdings (demote db userId) ++ [(userId, true)]) := by
  intro p hp
  by_cases hu : p.1 = userId
  · simp [hu]
  · rcases List.mem_append.mp hp with hp | hp
    · rw [holdings_demote] at hp ⊢
      obtain ⟨q, hq, rfl⟩ := List.mem_map.mp hp
      have hqu : q.1 ≠ userId := by
        intro he
        simp [he] at hu
      rw [if_neg hqu] at hu ⊢
      exact List.mem_append_left _ (List.mem_map.mpr ⟨_, h q hq, by simp [hqu]⟩)
    · simp [List.mem_singleton.mp hp] at hu

/-- After a demotion the owner of a wallet has no primary one. -/
theorem not_covered_demote {db : Database lower} {userId : Uuid}
    (h : hasAnyWallet db userId = true) : ¬ Covered (holdings (demote db userId)) := by
  intro hc
  obtain ⟨b, hb⟩ := hasAny_iff_holdings.mp h
  refine not_hasPrimary_demote db userId (hasPrimary_iff_holdings.mpr (hc (userId, false) ?_))
  rw [holdings_demote]
  exact List.mem_map.mpr ⟨_, hb, by simp⟩

theorem covered_append_iff {db : Database lower} (h : Covered (holdings db)) (userId : Uuid)
    (b : Bool) : Covered (holdings db ++ [(userId, b)]) ↔
      (b = true ∨ hasAnyWallet db userId = true) := by
  constructor
  · intro hc
    have hmem := hc (userId, b) (by simp)
    rcases List.mem_append.mp hmem with hm | hm
    · exact .inr (hasAny_iff_holdings.mpr ⟨true, hm⟩)
    · exact .inl (by simpa [eq_comm] using hm)
  · intro hb p hp
    rcases List.mem_append.mp hp with hp | hp
    · exact List.mem_append_left _ (h p hp)
    · rw [List.mem_singleton.mp hp]
      rcases hb with rfl | hb
      · simp
      · obtain ⟨x, hx⟩ := hasAny_iff_holdings.mp hb
        exact List.mem_append_left _ (h (userId, x) hx)

/-- A promotion keeps every owner covered exactly when it finds its wallet or its user
has none. -/
theorem covered_promoted_iff {db : Database lower} (h : Covered (holdings db))
    (userId walletId : Uuid) :
    Covered ((promoted db userId walletId).map (fun r => (r.userId, r.isPrimary))) ↔
      (hasAnyWallet db userId = false ∨ ∃ x ∈ db.wallets, x.id = walletId ∧ x.userId = userId) := by
  by_cases hw : ∃ x ∈ db.wallets, x.id = walletId ∧ x.userId = userId
  · refine iff_of_true ?_ (.inr hw)
    intro p hp
    obtain ⟨r, hr, rfl⟩ := List.mem_map.mp hp
    obtain ⟨s, hs, rfl⟩ := mem_promoted.mp hr
    by_cases hu : s.userId = userId
    · obtain ⟨x, hx, hid, hxu⟩ := hw
      refine List.mem_map.mpr ⟨_, mem_promoted.mpr ⟨x, hx, rfl⟩, ?_⟩
      simp [hu, hid, hxu]
    · obtain ⟨t, ht, htu, htp⟩ := mem_holdings.mp (h (s.userId, s.isPrimary)
        (mem_holdings.mpr ⟨s, hs, rfl, rfl⟩))
      refine List.mem_map.mpr ⟨_, mem_promoted.mpr ⟨t, ht, rfl⟩, ?_⟩
      simp only at htu htp
      simp [hu, htu, htp]
  · rw [promoted_of_absent hw]
    cases ha : hasAnyWallet db userId with
    | true => exact iff_of_false (not_covered_demote ha) (by simp [hw])
    | false =>
      refine iff_of_true ?_ (.inl rfl)
      have hnone : ¬ hasPrimary db userId := by
        rintro ⟨r, hr, hu, -⟩
        rw [hasAnyWallet_iff.mpr ⟨r, hr, hu⟩] at ha
        cases ha
      rw [demote_eq_iff.mpr hnone]
      exact h

theorem covered_keepWallets {db : Database lower} (h : Covered (holdings db))
    (userId walletId : Uuid) :
    Covered (holdings (db.keepWallets (fun r => !removable userId walletId r))) := by
  intro p hp
  obtain ⟨r, hr, hru, -⟩ := mem_holdings.mp hp
  obtain ⟨s, hs, hsu, hsp⟩ := mem_holdings.mp (h (r.userId, r.isPrimary)
    (mem_holdings.mpr ⟨r, (List.mem_filter.mp hr).1, rfl, rfl⟩))
  refine mem_holdings.mpr ⟨s, List.mem_filter.mpr ⟨hs, ?_⟩, hsu.trans hru, hsp⟩
  simp only at hsp
  simp [removable, hsp]

end Holdings

variable {self}

/-- The property in terms of the holdings: the constraint of the table gives the rest. -/
theorem onePrimaryEach_iff {w : self.State} : OnePrimaryEach self w ↔ Covered (holdings w.db) := by
  constructor
  · intro h p hp
    obtain ⟨r, hr, hu, -⟩ := mem_holdings.mp hp
    obtain ⟨s, ⟨hs, hsu, hsp⟩, -⟩ := (h p.1 (hasAnyWallet_iff.mpr ⟨r, hr, hu⟩)).1
    exact mem_holdings.mpr ⟨s, hs, hsu, hsp⟩
  · intro h userId hany
    obtain ⟨b, hb⟩ := hasAny_iff_holdings.mp hany
    obtain ⟨s, hs, hsu, hsp⟩ := mem_holdings.mp (h _ hb)
    refine ⟨⟨s, ⟨hs, hsu, hsp⟩, ?_⟩, ?_⟩
    · rintro t ⟨ht, htu, htp⟩
      exact w.db.primary_unique ht hs (htu.trans hsu.symm) htp hsp
    · intro o ho
      have hfind : findPrimaryAddress (o 0).pick w.db userId = some s.walletAddress := by
        rw [findPrimaryAddress, limitOne_eq_some hs (by simp [hsu, hsp])]
        · rfl
        · intro t ht hp
          simp only [Bool.and_eq_true, ownedBy_iff] at hp
          exact w.db.primary_unique ht hs (hp.1.trans hsu.symm) hp.2 hsp
      refine ⟨s.walletAddress, ?_⟩
      simp only [AuthService.serve, AuthService.method, AuthService.getPrimaryWalletAddress,
        run_bind', run_attempt, walletRepo, Prog.eff_bind, Prog.ret_bind, run_eff,
        AuthService.handle_wallet, WalletRepository.handle, select_nil, ho, hfind]
      rfl

section Steps

/-- Writes to the wallets other than the recording of a registration. -/
def walletWrites : List OpKind :=
  [.setPrimary, .deleteIfNotPrimary, .clearPrimary, .insertWallet, .persistCustodialWallet]

theorem holdings_markRegistered {lower : String → String} (c : Choice) (db : Database lower)
    (userId : Uuid) (address signature : String) :
    holdings (markRegistered c db userId address signature).2 = holdings db := by
  rcases markRegistered_cases c db userId address signature with ⟨e, h⟩ | ⟨text, db', -, h, -, hw⟩
  · rw [h]
  · rw [h, holdings, hw]
    exact map_updateWhere _ _ (fun _ => rfl)

/-- Every other operation leaves the holdings alone. -/
theorem holdings_step (c : Choice) (w : self.State) (o : Op) (h : o.kind ∉ walletWrites) :
    holdings (self.handle c w o).2.db = holdings w.db := by
  cases o with
  | user q =>
    rw [AuthService.handle_user, holdings, UserRepository.handle_wallets]
    rfl
  | wallet q =>
    cases q with
    | markRegistered userId address signature => exact holdings_markRegistered _ _ _ _ _
    | setPrimary userId walletId => simp [walletWrites] at h
    | deleteIfNotPrimary userId walletId => simp [walletWrites] at h
    | clearPrimary userId => simp [walletWrites] at h
    | insert userId walletAddress label isPrimary => simp [walletWrites] at h
    | persistCustodialWallet userId walletAddress label key kdfVersion =>
      simp [walletWrites] at h
    | _ => rfl
  | host q => rw [AuthService.handle_host_db]
  | cache q => rfl
  | bus q => rfl
  | chain q => rfl

/-- A custodial wallet is primary, and a deletion spares primary wallets. -/
theorem covered_step (c : Choice) (w : self.State) (o : Op)
    (h : o.kind ∉ [OpKind.setPrimary, .clearPrimary, .insertWallet])
    (hc : Covered (holdings w.db)) : Covered (holdings (self.handle c w o).2.db) := by
  by_cases hk : o.kind ∉ walletWrites
  · rw [holdings_step c w o hk]
    exact hc
  · have hkind : o.kind = .deleteIfNotPrimary ∨ o.kind = .persistCustodialWallet := by
      revert h hk
      cases o.kind <;> simp [walletWrites]
    unfold Op.kind at hkind
    split at hkind <;> simp at hkind
    · rename_i userId walletId
      rw [AuthService.handle_wallet]
      simp only [WalletRepository.handle, deleteIfNotPrimary_eq]
      split
      · exact hc
      · exact covered_keepWallets hc userId walletId
    · rename_i userId walletAddress label key kdfVersion
      rw [AuthService.handle_wallet]
      rcases persistCustodialWallet_cases c (w.evolve c).now w.db userId walletAddress label key
        kdfVersion with ⟨e, hp⟩ | ⟨row, -, db', hrow, -, -, hp, hw, -⟩
      · simp only [WalletRepository.handle, hp]
        exact hc
      · obtain ⟨-, hu, hb, -⟩ := candidate_ok hrow
        simp only [WalletRepository.handle, hp, holdings, hw, List.map_append, List.map_cons,
          List.map_nil, hu, hb]
        exact covered_demote_append hc userId

/-- A call that neither promotes, demotes nor inserts keeps every owner covered. -/
theorem covered_after (w : self.State) (r : Request)
    (h : ∀ k ∈ r.call.footprint, k ∉ [OpKind.setPrimary, .clearPrimary, .insertWallet])
    (hc : Covered (holdings w.db)) : Covered (holdings (self.after w r).db) :=
  self.after_preserves (fun w v => Covered (holdings w.db) → Covered (holdings v.db))
    (fun _ hw => hw) (fun h₁ h₂ hw => h₂ (h₁ hw)) r
    (fun c w o ho hw => covered_step c w o (h o.kind ho) hw) w hc

/-- What follows an insertion leaves the holdings alone. -/
theorem holdings_afterInsert (w : self.State) (o : ℕ → Choice) (userId : Uuid)
    (walletAddress : String) (isPrimary hasExisting : Bool) (wallet : UserWallet) :
    holdings (run self.handle
      (self.afterInsert userId walletAddress isPrimary hasExisting wallet).run o w).2.db =
      holdings w.db :=
  Issues.run (fun w v : self.State => holdings v.db = holdings w.db) (fun _ => rfl)
    (fun h₁ h₂ => h₂.trans h₁)
    (fun c w o ho => holdings_step c w o (fun hk => by
      revert ho hk; cases o.kind <;> simp [walletWrites]))
    (self.afterInsert_limited userId walletAddress isPrimary hasExisting wallet) o w

/-- An accepted insertion adds one holding, a refused one adds none. -/
theorem holdings_insertLinked (w : self.State) (o : ℕ → Choice) (userId : Uuid)
    (walletAddress : String) (label : Option String) (isPrimary hasExisting : Bool) :
    holdings (run self.handle
      (self.insertLinked userId walletAddress label isPrimary hasExisting).run o w).2.db =
      holdings w.db ∧ Refused (o 0) (w.now + (o 0).elapsed) w.db userId walletAddress label
        isPrimary ∨
    holdings (run self.handle
      (self.insertLinked userId walletAddress label isPrimary hasExisting).run o w).2.db =
      holdings w.db ++ [(userId, isPrimary)] ∧ ¬ Refused (o 0) (w.now + (o 0).elapsed) w.db userId
        walletAddress label isPrimary := by
  simp only [AuthService.insertLinked_run, ← insert_error_iff]
  cases hq : (WalletRepository.insert (o 0) (w.now + (o 0).elapsed) w.db userId walletAddress
      label isPrimary).1 with
  | error e =>
    refine .inl ⟨?_, e, rfl⟩
    simp only [insert_error hq]
  | ok wallet =>
    obtain ⟨row, hrow, -, -, -, hws⟩ := insert_ok hq
    obtain ⟨-, hu, hp, -⟩ := candidate_ok hrow
    refine .inr ⟨?_, by simp⟩
    simp only [holdings_afterInsert]
    simp only [holdings, hws, List.map_append, List.map_cons, List.map_nil, hu, hp]

theorem covered_link_iff (w : self.State) (o : ℕ → Choice) (userId : Uuid)
    (walletAddress : String) (label : Option String) (isPrimary : Bool)
    (hc : Covered (holdings w.db)) :
    Covered (holdings
      (self.after w ⟨.linkWallet userId walletAddress label isPrimary, o⟩).db) ↔
      KeepsPrimary self w ⟨.linkWallet userId walletAddress label isPrimary, o⟩ := by
  simp only [AuthService.after, AuthService.serve, AuthService.method, AuthService.linkWallet_run]
  cases hp : self.lib.parsePubkey walletAddress with
  | error e =>
    refine iff_of_true hc ?_
    cases isPrimary <;> simp [KeepsPrimary, hp, Except.isOk, Except.toBool]
  | ok pubkey =>
    have hpk : (self.lib.parsePubkey walletAddress).isOk := by
      simp [hp, Except.isOk, Except.toBool]
    cases h0 : (o 0).fails with
    | true =>
      refine iff_of_true hc ?_
      cases isPrimary <;> simp [KeepsPrimary, h0]
    | false =>
      cases isPrimary with
      | false =>
        -- no demotion: an accepted first wallet is left without the flag
        simp only [Bool.false_eq_true, if_false, Bool.and_false, KeepsPrimary, hpk, h0, true_and]
        rcases holdings_insertLinked (w.evolve (o 0)) (fun n => o (n + 1)) userId walletAddress
          label false (hasAnyWallet w.db userId) with ⟨hh, hr⟩ | ⟨hh, hr⟩
        · rw [hh]
          exact iff_of_true hc (fun h => h.2 hr)
        · have happend := covered_append_iff hc userId false
          rw [hh, World.evolve_db, happend]
          cases hasAnyWallet w.db userId with
          | true => simp
          | false => simpa using hr
      | true =>
        simp only [Bool.and_true, Bool.false_eq_true, if_false, KeepsPrimary, hpk, h0, true_and]
        cases hany : hasAnyWallet w.db userId with
        | false =>
          simp only [Bool.false_eq_true, if_false, false_and, and_false, not_false_iff, iff_true]
          rcases holdings_insertLinked (w.evolve (o 0)) (fun n => o (n + 1)) userId walletAddress
            label true false with ⟨hh, -⟩ | ⟨hh, -⟩
          · rw [hh]
            exact hc
          · rw [hh]
            exact (covered_append_iff hc userId true).mpr (.inl rfl)
        | true =>
          cases h1 : (o 1).fails with
          | true => exact iff_of_true hc (by simp)
          | false =>
            -- the demotion is committed: the insertion decides
            have hP : hasPrimary w.db userId := by
              obtain ⟨b, hb⟩ := hasAny_iff_holdings.mp hany
              exact hasPrimary_iff_holdings.mpr (hc _ hb)
            simp only [Bool.false_eq_true, if_false, if_true, true_and]
            rcases holdings_insertLinked { (w.evolve (o 0)).evolve (o 1) with
              db := demote w.db userId } (fun n => o (n + 2)) userId walletAddress label true
              true with ⟨hh, hr⟩ | ⟨hh, hr⟩
            · rw [hh]
              rw [refused_demote_iff hP] at hr
              exact iff_of_false (not_covered_demote hany) (fun h => h hr)
            · rw [hh]
              rw [refused_demote_iff hP] at hr
              exact iff_of_true (covered_demote_append hc userId) hr

theorem covered_setPrimary_iff (w : self.State) (o : ℕ → Choice) (userId walletId : Uuid)
    (hc : Covered (holdings w.db)) :
    Covered (holdings (self.after w ⟨.setPrimaryWallet userId walletId, o⟩).db) ↔
      KeepsPrimary self w ⟨.setPrimaryWallet userId walletId, o⟩ := by
  simp only [AuthService.after, AuthService.serve, AuthService.method,
    AuthService.setPrimaryWallet_run, KeepsPrimary]
  cases hf : (o 0).fails with
  | true => exact iff_of_true hc (.inl rfl)
  | false =>
    have hafter : holdings (setPrimary (o 0) w.db userId walletId).2 =
        (promoted w.db userId walletId).map (fun r => (r.userId, r.isPrimary)) := by
      rw [setPrimary_eq, hf]
      rfl
    simp only [Bool.false_eq_true, if_false, false_or]
    rw [← covered_promoted_iff hc, ← hafter]
    cases (promoted w.db userId walletId).find? (isWallet userId walletId) with
    | none => rfl
    | some r => rw [holdings_step _ _ _ (by simp [walletWrites])]

/-- Which requests keep the property, in a state that has it. -/
theorem onePrimaryEach_after_iff (w : self.State) (r : Request) (hw : OnePrimaryEach self w) :
    OnePrimaryEach self (self.after w r) ↔ KeepsPrimary self w r := by
  rw [onePrimaryEach_iff] at hw ⊢
  obtain ⟨call, o⟩ := r
  cases call with
  | linkWallet userId walletAddress label isPrimary => exact covered_link_iff _ _ _ _ _ _ hw
  | setPrimaryWallet userId walletId => exact covered_setPrimary_iff _ _ _ _ hw
  | _ => exact iff_of_true (covered_after _ _ (by simp) hw) trivial

end Steps

variable (self) in
/-- In a run from empty tables every user with wallets has exactly one primary wallet, and
the mint recipient is found, in all states of the run exactly when every request of the
run is one that keeps it. -/
theorem one_primary_in_run_iff (rs : List Request) :
    (∀ n, OnePrimaryEach self (self.serveAll (World.empty _) (rs.take n))) ↔
      self.Along (KeepsPrimary self) (World.empty _) rs := by
  refine AuthService.along_iff_invariant (fun w r hw => onePrimaryEach_after_iff w r hw) ?_ rs
  rw [onePrimaryEach_iff]
  simp [Covered, holdings, World.empty, Database.empty]

/-- Alice's first wallet, linked without the flag, leaves her without a primary one. -/
theorem first_link_without_flag_has_no_primary :
    ¬ ∀ rs : List Request, OnePrimaryEach service (service.serveAll (World.empty _) rs) := by
  intro h
  have hcov := onePrimaryEach_iff.mp (h [registerAlice,
    ⟨.linkWallet ⟨1⟩ "11111111111111111111111111111115" none false, oracle [{}, { uuid := ⟨3⟩ }]⟩])
  have hmem : ((⟨1⟩, false) : Uuid × Bool) ∈ holdings (service.serveAll (World.empty _)
      [registerAlice, ⟨.linkWallet ⟨1⟩ "11111111111111111111111111111115" none false,
        oracle [{}, { uuid := ⟨3⟩ }]⟩]).db ∧
      ((⟨1⟩, true) : Uuid × Bool) ∉ holdings (service.serveAll (World.empty _)
      [registerAlice, ⟨.linkWallet ⟨1⟩ "11111111111111111111111111111115" none false,
        oracle [{}, { uuid := ⟨3⟩ }]⟩]).db := by
    decide +kernel
  exact hmem.2 (hcov _ hmem.1)

end IamService.PrimaryWalletInvariant
