import IamService.AccountCallRuns
import IamService.CacheFootprints
import IamService.ReferenceLibraries
import IamService.WalletStatements

/-!
# A password reset revokes the old password

A login answers from a profile cached under the identifier as it was typed. The cache is
coherent when every profile it shows carries the password hash that the account named by
its identifier has in the database. Logins, registrations and verifications keep it
coherent; a reset does when the profiles it drops include every profile of the accounts
whose passwords it changes.
-/

namespace IamService.PasswordResetRevocation
open EffectPrograms RelationTables ExpiringStore UserRepository AuthService ReferenceLibraries

variable (self : AuthService)

/-- The identifiers of an account. -/
def Owns (u : UserRow) (identifier : String) : Prop :=
  u.username = identifier ∨ u.email = identifier

/-- No account has the email of another one as its username. -/
def Separate (users : List UserRow) : Prop :=
  ∀ u ∈ users, ∀ v ∈ users, u.username = v.email → u.username = v.username

/-- A profile carries the password of an account with the identifier. -/
def Current (users : List UserRow) (identifier : String) (p : UserWithHash) : Prop :=
  ∃ u ∈ users, Owns u identifier ∧ p.passwordHash = u.passwordHash

/-- Every profile that the cache shows carries the password in the database. -/
structure Coherent (w : self.State) : Prop where
  separate : Separate w.db.users
  cached : ∀ x p, w.cache.get w.now (CacheKeys.userProfile x) = some (.profile p) →
    Current w.db.users x p

/-- A new account shares no identifier with an account of another kind. -/
def Unclaimed (users : List UserRow) (username email : String) : Prop :=
  ∀ x ∈ users, x.username ≠ email ∧ x.email ≠ username

/-- The email that a reset reads under its token. -/
def tokenEmail (w : self.State) (token : String) (now : ℕ) : Option String :=
  (w.cache.get now (CacheKeys.passwordResetToken token)).bind CacheValue.asText

/-- A reset drops every live profile of the accounts whose passwords it changes. -/
def Covers (w : self.State) (token : String) (o : ℕ → Choice) : Prop :=
  ∀ email ∈ tokenEmail self w token (w.now + (o 0).elapsed), ∀ u ∈ w.db.users,
    addressed self.lib.pgLower email u = true → u.isActive = true → ∀ x ∈ [u.username, u.email],
    (w.cache.get (w.now + (o 0).elapsed) (CacheKeys.userProfile x)).isSome = true →
    Invalidated email (lookup (o 1).pick w.db email) x

instance (w : self.State) (token : String) (o : ℕ → Choice) : Decidable (Covers self w token o) := by
  unfold Covers
  infer_instance

/-- The requests of a run: registrations of unclaimed identifiers, verifications, logins,
requests for a reset, and resets that cover their profiles and during whose invalidation
the cache does not fail. -/
def Allowed (w : self.State) (r : Request) : Prop :=
  match r.call with
  | .register username email _ _ _ => ∀ name ∈ (fit 50 username).toOption,
      ∀ mail ∈ (fit 255 email).toOption, Unclaimed w.db.users name mail
  | .verifyEmail _ => True
  | .login .. => True
  | .forgotPassword _ => True
  | .resetPassword token newPassword =>
    (r.oracle 4).fails = false ∧ (r.oracle 5).fails = false ∧
      (PasswordService.validatePasswordStrength self.lib newPassword = .ok () →
        Covers self w token r.oracle)
  | _ => False

instance (w : self.State) (r : Request) : Decidable (Allowed self w r) := by
  apply Request.casesOn (motive := fun r => Decidable (Allowed self w r)) r
  intro call oracle
  apply Call.casesOn (motive := fun call => Decidable (Allowed self w ⟨call, oracle⟩)) call <;>
    intros <;> dsimp only [Allowed, Unclaimed] <;> infer_instance

def harmlessKinds : List OpKind :=
  [.findByUsernameOrEmail, .verifyEmail, .findEmailByToken, .readWallets, .persistCustodialWallet,
    .readCache, .deleteKey, .publish, .readHost, .encodeToken, .spawn]

/-- Operations that neither show a profile nor change a password or an identifier. -/
def Harmless (o : Op) : Prop :=
  o.kind ∈ harmlessKinds ∨ o.kind ∈ [OpKind.storeOther, .countKey] ∧ ∀ x, o.writtenKey ≠ some (CacheKeys.userProfile x)

/-- What a call other than a reset may do. -/
def permitted (w : self.State) (o : Op) : Prop :=
  match o with
  | .cache (.setValue key (.profile p) _) =>
    ∃ x, key = CacheKeys.userProfile x ∧ Current w.db.users x p
  | .user (.create newUser) => ∀ fitted ∈ newUser.fitted.toOption,
      Unclaimed w.db.users fitted.username fitted.email
  | o => Harmless o

def discipline : Discipline Op Choice self.State :=
  Discipline.alone (Coherent self) (permitted self)

variable {self}

section Identifiers

/-- An identifier belongs to one account. -/
theorem Owns.unique {w : self.State} (hsep : Separate w.db.users) {u v : UserRow} {x : String}
    (hu : u ∈ w.db.users) (hv : v ∈ w.db.users) (hux : Owns u x) (hvx : Owns v x) : u = v := by
  have hname : ∀ {a b : UserRow}, a ∈ w.db.users → b ∈ w.db.users → a.username = b.username →
      a = b := fun ha hb h => eq_of_key (·.username) w.db.unique.username ha hb h
  rcases hux with rfl | rfl
  · rcases hvx with h | h
    · exact hname hu hv h.symm
    · exact hname hu hv (hsep u hu v hv h.symm)
  · rcases hvx with h | h
    · exact (hname hv hu (hsep v hv u hu h)).symm
    · exact w.db.user_eq_of_email hu hv h.symm

/-- What a login compares of an account. -/
def credential (u : UserRow) : String × String × String := (u.username, u.email, u.passwordHash)

theorem mem_of_credentials {rows rows' : List UserRow}
    (h : rows'.map credential = rows.map credential) {u : UserRow} (hu : u ∈ rows) :
    ∃ v ∈ rows', v.username = u.username ∧ v.email = u.email ∧ v.passwordHash = u.passwordHash := by
  have hmem : credential u ∈ rows'.map credential := h ▸ List.mem_map_of_mem hu
  obtain ⟨v, hv, he⟩ := List.mem_map.mp hmem
  simp only [credential, Prod.mk.injEq] at he
  exact ⟨v, hv, he⟩

theorem separate_of_names {rows rows' : List UserRow}
    (h : rows'.map (fun u => (u.username, u.email)) = rows.map (fun u => (u.username, u.email)))
    (hsep : Separate rows) : Separate rows' := by
  have hold : ∀ u ∈ rows', ∃ v ∈ rows, v.username = u.username ∧ v.email = u.email := by
    intro u hu
    have hmem : (u.username, u.email) ∈ rows.map (fun u => (u.username, u.email)) :=
      h ▸ List.mem_map_of_mem hu
    simpa using hmem
  intro u hu v hv huv
  obtain ⟨u₀, hu₀, hun, -⟩ := hold u hu
  obtain ⟨v₀, hv₀, hvn, hve⟩ := hold v hv
  rw [← hun, ← hvn]
  exact hsep u₀ hu₀ v₀ hv₀ (by rw [hun, hve, huv])

theorem separate_of_credentials {rows rows' : List UserRow}
    (h : rows'.map credential = rows.map credential) (hsep : Separate rows) : Separate rows' := by
  refine separate_of_names ?_ hsep
  have hnames := congrArg (List.map (fun c : String × String × String => (c.1, c.2.1))) h
  simp only [List.map_map] at hnames
  exact hnames

theorem Current.of_credentials {rows rows' : List UserRow} {x : String} {p : UserWithHash}
    (h : rows'.map credential = rows.map credential) (hp : Current rows x p) :
    Current rows' x p := by
  obtain ⟨u, hu, hx, hhash⟩ := hp
  obtain ⟨u', hu', hname, hmail, hsame⟩ := mem_of_credentials h hu
  refine ⟨u', hu', ?_, hhash.trans hsame.symm⟩
  unfold Owns
  rwa [hname, hmail]

end Identifiers

section Soundness

/-- Operations that leave credentials alone, and show no profile that was not shown. -/
theorem coherent_of_kept {w v : self.State} (h : Coherent self w)
    (hcred : v.db.users.map credential = w.db.users.map credential)
    (hcache : ∀ x p, v.cache.get v.now (CacheKeys.userProfile x) = some (.profile p) →
      w.cache.get w.now (CacheKeys.userProfile x) = some (.profile p) ∨ Current w.db.users x p) :
    Coherent self v := by
  obtain ⟨hsep, hcached⟩ := h
  refine ⟨separate_of_credentials hcred hsep, ?_⟩
  intro x p hp
  rcases hcache x p hp with hp | hp
  · exact (hcached x p hp).of_credentials hcred
  · exact hp.of_credentials hcred

/-- An entry that was kept or dropped shows nothing new. -/
theorem shown_before {w v : self.State} {key : String} {a : CacheValue} (hle : w.now ≤ v.now)
    (hkey : v.cache key = w.cache key ∨ v.cache key = none)
    (h : v.cache.get v.now key = some a) : w.cache.get w.now key = some a := by
  rcases hkey with hkey | hkey
  · rw [Store.get_congr hkey] at h
    exact Store.get_of_later h hle
  · obtain ⟨e, he, -⟩ := Store.get_eq_some.mp h
    rw [hkey] at he
    cases he

theorem credentials_harmless {o : Op} (h : Harmless o) (c : Choice) (w : self.State) :
    (self.handle c w o).2.db.users.map credential = w.db.users.map credential := by
  by_cases hdb : o.kind ∈ dbWrites
  · cases o with
    | user q =>
      cases q with
      | verifyEmail email =>
        rw [handle_user]
        rcases verifyEmail_cases c w.db email with ⟨e, hv⟩ | hv
        · simp only [UserRepository.handle, hv]
        · simp only [UserRepository.handle, hv]
          exact map_updateWhere credential _ (fun _ => rfl)
      | _ => simp [Harmless, harmlessKinds, dbWrites] at h hdb
    | wallet q =>
      cases q with
      | persistCustodialWallet userId walletAddress label key kdfVersion =>
        rw [handle_wallet]
        rcases WalletRepository.persistCustodialWallet_cases c (w.evolve c).now w.db userId
          walletAddress label key kdfVersion with ⟨e, hp⟩ | ⟨row, address, db', -, -, -, hp, -, hu⟩
        · simp only [WalletRepository.handle, hp]
        · simp only [WalletRepository.handle, hp, hu]
          exact map_updateWhere credential _ (fun _ => rfl)
      | _ => simp [Harmless, harmlessKinds, dbWrites] at h hdb
    | cache q => rfl
    | bus q => rfl
    | chain q => rfl
    | host q => rw [handle_host_db]
  · rw [self.handle_db_of_kind hdb]

/-- A harmless operation keeps or drops every profile. -/
theorem profiles_harmless {o : Op} (h : Harmless o) (c : Choice) (w : self.State) (x : String) :
    (self.handle c w o).2.cache (CacheKeys.userProfile x) =
        w.cache (CacheKeys.userProfile x) ∨
      (self.handle c w o).2.cache (CacheKeys.userProfile x) = none := by
  by_cases hkey : o.writtenKey = some (CacheKeys.userProfile x)
  · rcases h with h | ⟨-, h⟩
    · cases o with
      | cache q =>
        cases q with
        | delete k => exact self.delete_kept w c k _
        | getValue k => exact .inl rfl
        | «exists» k => exact .inl rfl
        | setValue k v ttl => cases v <;> simp [harmlessKinds] at h
        | increment k => simp [harmlessKinds] at h
        | incrementWithTtl k ttl => simp [harmlessKinds] at h
      | _ => simp at hkey
    · exact absurd hkey (h x)
  · exact .inl (self.handle_cache_of_key hkey c w)

theorem coherent_harmless {o : Op} (h : Harmless o) (c : Choice) {w : self.State}
    (hw : Coherent self w) : Coherent self (self.handle c w o).2 :=
  coherent_of_kept hw (credentials_harmless h c w)
    (fun x _ hp => .inl (shown_before (self.now_handle c w o) (profiles_harmless h c w x) hp))

/-- Caching the profile of an account. -/
theorem coherent_store {x : String} {p : UserWithHash} {ttl : Option ℕ} (c : Choice)
    {w : self.State} (hw : Coherent self w) (hp : Current w.db.users x p) :
    Coherent self
      (self.handle c w (.cache (.setValue (CacheKeys.userProfile x) (.profile p) ttl))).2 := by
  refine coherent_of_kept hw rfl ?_
  intro y q hq
  by_cases hxy : y = x
  · subst hxy
    rw [handle_cache] at hq
    simp only [CacheService.handle] at hq
    split at hq
    · exact .inl (Store.get_of_later hq (Nat.le_add_right _ _))
    · obtain ⟨e, he, -, hv⟩ := Store.get_eq_some.mp hq
      simp only [Store.put_same, Option.some.injEq] at he
      subst he
      cases hv
      exact .inr hp
  · refine .inl (shown_before (self.now_handle c w _) (.inl ?_) hq)
    exact self.handle_cache_of_key (by simpa using Ne.symm hxy) c w

/-- Registering an account with identifiers of its own. -/
theorem coherent_create {newUser : NewUser} (c : Choice) {w : self.State} (hw : Coherent self w)
    (hnew : ∀ fitted ∈ newUser.fitted.toOption,
      Unclaimed w.db.users fitted.username fitted.email) :
    Coherent self (self.handle c w (.user (.create newUser))).2 := by
  rw [handle_user]
  rcases create_cases c (w.evolve c).now w.db newUser with ⟨e, hc⟩ | ⟨fitted, db', hf, hc, -, hu⟩
  · simp only [UserRepository.handle, hc]
    exact coherent_of_kept hw rfl
      (fun x _ hp => .inl (Store.get_of_later hp (Nat.le_add_right _ _)))
  · simp only [UserRepository.handle, hc]
    have hfree := hnew fitted (by simp [hf, Except.toOption])
    obtain ⟨hsep, hcached⟩ := hw
    refine ⟨?_, ?_⟩
    · intro u hmu v hmv huv
      simp only [hu, List.mem_append, List.mem_singleton] at hmu hmv
      rcases hmu with hmu | rfl
      · rcases hmv with hmv | rfl
        · exact hsep u hmu v hmv huv
        · exact absurd huv (hfree u hmu).1
      · rcases hmv with hmv | rfl
        · exact absurd huv.symm (hfree v hmv).2
        · rfl
    · intro x p hp
      obtain ⟨u, hmu, hx, hhash⟩ := hcached x p (Store.get_of_later hp (Nat.le_add_right _ _))
      exact ⟨u, by simp only [hu]; exact List.mem_append_left _ hmu, hx, hhash⟩

theorem coherent_step (c : Choice) (w : self.State) (o : Op) (hw : Coherent self w)
    (h : permitted self w o) : Coherent self (self.handle c w o).2 := by
  unfold permitted at h
  split at h
  · obtain ⟨x, rfl, hp⟩ := h
    exact coherent_store c hw hp
  · exact coherent_create c hw h
  · exact coherent_harmless h c hw

end Soundness

section Programs

variable {w : self.State}

theorem toOption_eq_some {ε α : Type} {r : Except ε α} {a : α} :
    r.toOption = some a ↔ r = .ok a := by
  cases r <;> simp [Except.toOption]

theorem harmless_permitted {o : Op} (h : Harmless o) (w : self.State) :
    (discipline self).permits w o := by
  change permitted self w o
  unfold permitted
  split
  · simp [Harmless, harmlessKinds] at h
  · simp [Harmless, harmlessKinds] at h
  · exact h

theorem issues_safe {α : Type} {p : Program α} (h : Issues Harmless p) (w : self.State) :
    Safe self.handle (discipline self) (fun _ _ => True) p w :=
  Issues.safe (fun w _ ho => harmless_permitted ho w) h w

theorem limited_harmless {α : Type} {kinds : List OpKind} {p : Program α} (h : Limited kinds p)
    (hk : ∀ k ∈ kinds, k ∈ harmlessKinds) : Issues Harmless p :=
  Issues.mono (fun o ho => .inl (hk o.kind ho)) h

theorem verifyEmail_harmless (token : String) :
    Issues Harmless (self.verifyEmail token).run := by
  have hsub : ∀ k ∈ (Call.verifyEmail "").footprint, k ∈ harmlessKinds := by decide
  exact limited_harmless (self.verifyEmail_limited token) hsub

theorem forgotPassword_harmless (email : String) :
    Issues Harmless (self.forgotPassword email).run := by
  have hkey : ∀ t x, CacheKeys.passwordResetToken t ≠ CacheKeys.userProfile x := by simp
  refine Issues.bindExcept (by simp [userRepo, Harmless, harmlessKinds]) ?_
  intro user
  cases user with
  | none => simp
  | some user =>
    refine Issues.bindExcept (by simp [host, Harmless, harmlessKinds]) ?_
    intro id
    refine Issues.bindExcept (by simp [cacheSet, cache, Harmless, harmlessKinds]) ?_
    intro _
    simp [eventBus, Harmless, harmlessKinds]

/-- A step of the process itself leaves the database as it was. -/
theorem host_safe {β : Type} {q : HostOp} (hq : (Op.host q).kind = .readHost)
    {k : q.Ans → Program β} {Q : β → self.State → Prop}
    (h : ∀ a v, v.db = w.db → Safe self.handle (discipline self) Q (k a) v) :
    Safe self.handle (discipline self) Q (host q >>= k) w := by
  rintro _ rfl _
  exact ⟨harmless_permitted (.inl (by rw [hq]; decide)) _,
    fun c _ => h _ _ (self.handle_host_db c w q)⟩

/-- A registration runs alone, so that its identifiers are still unclaimed when the row
is inserted. -/
theorem register_safe {username email password : String} {firstName lastName : Option String}
    (h : ∀ name ∈ (fit 50 username).toOption, ∀ mail ∈ (fit 255 email).toOption,
      Unclaimed w.db.users name mail) :
    Safe self.handle (discipline self) (fun _ _ => True)
      (self.register username email password firstName lastName).run w := by
  unfold AuthService.register
  split
  · trivial
  · refine host_safe (by simp) ?_
    intro hashed v₁ hv₁
    cases hashed with
    | error e => trivial
    | ok passwordHash =>
      refine Safe.observeBind (host_safe (k := .ret) (by simp) ?_)
      intro userId v₂ hv₂
      refine Safe.observeBind (host_safe (k := .ret) (by simp) ?_)
      intro tokenId v₃ hv₃
      refine Safe.observeBind ?_
      rintro _ rfl _
      refine ⟨?_, fun c _ => ?_⟩
      · intro fitted hfit
        rw [hv₃, hv₂, hv₁]
        obtain ⟨hname, hmail⟩ := NewUser.fitted_identifiers (toOption_eq_some.mp hfit)
        exact h _ (toOption_eq_some.mpr hname) _ (toOption_eq_some.mpr hmail)
      · rw [safe_ret]
        split
        · trivial
        · exact issues_safe (by simp [eventBus, Harmless, harmlessKinds]) _

/-- The database reports an account with the identifier. -/
theorem lookup_current {pick : ℕ} {username : String} {user : UserWithHash}
    (h : lookup pick w.db username = some user) : Current w.db.users username user := by
  obtain ⟨row, hrow, rfl⟩ := Option.map_eq_some_iff.mp h
  obtain ⟨hmem, hnamed⟩ := limitOne_some hrow
  simp only [named, decide_eq_true_eq] at hnamed
  exact ⟨row, hmem, hnamed.1, rfl⟩

theorem fetchProfile_safe (username : String) : Safe self.handle (discipline self)
    (fun r v => v.db = w.db ∧ ∀ user, r = .ok user → Current w.db.users username user)
    (fetchProfile username).run w := by
  refine Safe.bindExcept ?_
  rintro _ rfl _
  refine ⟨harmless_permitted (.inl (by simp [harmlessKinds])) _, fun c _ => ?_⟩
  rw [safe_ret]
  have hans : (self.handle c w (.user (.findByUsernameOrEmail username))).1 =
    select c [username] (lookup c.pick w.db username) := rfl
  rw [hans]
  cases hfind : select c [username] (lookup c.pick w.db username) with
  | error e => exact ⟨rfl, by simp⟩
  | ok found =>
    cases found with
    | none => exact ⟨rfl, by simp⟩
    | some user =>
      have hcurrent := lookup_current (select_ok hfind).1.symm
      refine Safe.observeBind ?_
      rintro _ rfl _
      refine ⟨⟨username, rfl, hcurrent⟩, fun _ _ => ⟨rfl, ?_⟩⟩
      intro _ h
      cases h
      exact hcurrent

/-- The profile of a login is current, whether it comes from the cache or not. -/
theorem loginProfile_safe (username : String) : Safe self.handle (discipline self)
    (fun r v => v.db = w.db ∧ ∀ user, r = .ok user → Current w.db.users username user)
    (self.loginProfile username).run w := by
  rw [loginProfile_eq]
  rintro _ rfl hcoherent
  refine ⟨harmless_permitted (.inl (by simp [harmlessKinds])) _, fun c _ => ?_⟩
  dsimp only
  cases hshown : cachedProfile
      (self.handle c w (.cache (.getValue (CacheKeys.userProfile username)))).1 with
  | none => exact fetchProfile_safe username
  | some user =>
    refine ⟨rfl, ?_⟩
    intro _ h
    cases h
    obtain ⟨-, hcached⟩ := hcoherent
    exact hcached _ _ (Store.get_of_later (self.cachedProfile_shown hshown) (Nat.le_add_right _ _))

theorem failedLogin_harmless (username : String) : Issues Harmless (failedLogin username).run := by
  refine Issues.bindExcept (by simp [cache, Harmless, harmlessKinds]) ?_
  intro counted
  refine Issues.bindExcept (by simp [eventBus, Harmless, harmlessKinds]) ?_
  intro _
  split <;> simp [cacheSet, cache, eventBus, Harmless, harmlessKinds]

/-- A login that succeeds has matched the password of an account with its identifier. -/
theorem login_safe (username password : String) : Safe self.handle (discipline self)
    (fun r _ => ∀ a, r = .ok a → ∃ u ∈ w.db.users, Owns u username ∧
      PasswordService.verifyPassword self.lib password u.passwordHash = .ok true)
    (self.login username password).run w := by
  refine Safe.observeBind ?_
  rintro _ rfl _
  refine ⟨harmless_permitted (.inl (by simp [harmlessKinds])) _, fun c _ => ?_⟩
  rw [safe_ret]
  split
  · refine Safe.observeBind ?_
    rintro _ rfl _
    refine ⟨harmless_permitted (.inl (by simp [harmlessKinds])) _, ?_⟩
    intro _ _ _ h
    cases h
  · refine Safe.bindExcept ((loginProfile_safe username).mono ?_)
    rintro r v ⟨hdb, hcurrent⟩
    cases r with
    | error e =>
      intro _ h
      cases h
    | ok user =>
      obtain ⟨u, hu, hx, hhash⟩ := hcurrent user rfl
      refine Safe.bindExcept ?_
      rintro _ rfl _
      refine ⟨harmless_permitted (.inl (by simp [harmlessKinds])) _, fun c' _ => ?_⟩
      rw [safe_ret]
      cases hverify : (self.handle c' v (.host (.verifyPassword password user.passwordHash))).1 with
      | error e =>
        intro _ h
        cases h
      | ok valid =>
        cases valid with
        | true =>
          have hharmless : Issues Harmless (self.successfulLogin username user.user).run :=
            limited_harmless (self.successfulLogin_limited username user.user) (by decide)
          refine (issues_safe hharmless _).mono ?_
          intro _ _ _ _ _
          exact ⟨u, hu, hx, hhash ▸ self.verifyPassword_ok hverify⟩
        | false =>
          refine (failedLogin_refuses username).safe (issues_safe (failedLogin_harmless username) _)
            |>.mono ?_
          intro r _ hr a ha
          exact absurd ha (hr.1 a)

end Programs

section Reset

variable {w : self.State} {token newPassword : String} {o : ℕ → Choice}

/-- A reset that covers the profiles of the accounts it changes leaves the cache
coherent. -/
theorem coherent_reset (hw : Coherent self w)
    (h : Allowed self w ⟨.resetPassword token newPassword, o⟩) :
    Coherent self (self.after w ⟨.resetPassword token newPassword, o⟩) := by
  set v : self.State := self.after w ⟨.resetPassword token newPassword, o⟩ with hv
  have hget : w.now + (o 0).elapsed ≤ v.now :=
    self.now_run (self.handle (o 0) w
      (.cache (.getValue (CacheKeys.passwordResetToken token)))).2 _ _
  have hle : w.now ≤ v.now := (Nat.le_add_right _ _).trans hget
  rcases self.resetPassword_cases w o token newPassword with
    ⟨e, -, husers, hcache⟩ | ⟨email, hemail, -, ⟨hash, n, hhash, hup⟩, hkept, hcleared⟩
  · exact coherent_of_kept hw (congrArg (List.map credential) husers)
      (fun x _ hp => .inl (shown_before hle (.inl (congrFun hcache _)) hp))
  · obtain ⟨hdel₁, hdel₂, hcovers⟩ := h
    have hstrong := PasswordService.strength_of_hashPassword hhash
    have htoken : email ∈ tokenEmail self w token (w.now + (o 0).elapsed) := by
      simp [tokenEmail, hemail, CacheValue.asText]
    obtain ⟨hsep, hcached⟩ := hw
    rcases updatePassword_cases (o 3) w.db email hash with ⟨e, hno⟩ | ⟨text, db', -, hyes, -, hu⟩
    · cases (congrArg Prod.fst hno).symm.trans (congrArg Prod.fst hup)
    · have husers : v.db.users = updateWhere (fun r => addressed self.lib.pgLower email r &&
          r.isActive) (fun r => { r with passwordHash := text }) w.db.users := by
        rw [← hu]
        exact congrArg Database.users (congrArg Prod.snd (hup.symm.trans hyes))
      refine ⟨separate_of_names ?_ hsep, ?_⟩
      · rw [husers]
        exact map_updateWhere _ _ (fun _ => rfl)
      · intro x p hp
        have hshown : w.cache.get (w.now + (o 0).elapsed) (CacheKeys.userProfile x) =
            some (.profile p) :=
          shown_before (w := w.evolve (o 0)) hget (hkept _) hp
        obtain ⟨u, hmu, hx, hpass⟩ := hcached x p
          (Store.get_of_later hshown (Nat.le_add_right _ _))
        -- an account whose password has changed has no profile left
        have hunmatched : ¬ (addressed self.lib.pgLower email u && u.isActive) = true := by
          intro hmatch
          rw [Bool.and_eq_true] at hmatch
          have hdropped := hcleared hdel₁ hdel₂ x (hcovers hstrong email htoken u hmu hmatch.1
            hmatch.2 x (by rcases hx with rfl | rfl <;> simp) (by simp [hshown]))
          obtain ⟨entry, hentry, -⟩ := Store.get_eq_some.mp hp
          cases hdropped.symm.trans hentry
        refine ⟨u, ?_, hx, hpass⟩
        rw [husers]
        exact mem_updateWhere.mpr ⟨u, hmu, if_neg hunmatched⟩

end Reset

/-- Every allowed request keeps the cache coherent. -/
theorem coherent_after (w : self.State) (r : Request) (hw : Coherent self w)
    (h : Allowed self w r) : Coherent self (self.after w r) := by
  obtain ⟨call, oracle⟩ := r
  cases call with
  | register username email password firstName lastName =>
    exact (Safe.run coherent_step (register_safe h) hw).2
  | verifyEmail token =>
    exact (Safe.run coherent_step (issues_safe (verifyEmail_harmless token) w) hw).2
  | login username password => exact (Safe.run coherent_step (login_safe username password) hw).2
  | forgotPassword email =>
    exact (Safe.run coherent_step (issues_safe (forgotPassword_harmless email) w) hw).2
  | resetPassword token newPassword => exact coherent_reset hw h
  | _ => exact h.elim

theorem coherent_empty : Coherent self (World.empty self.lib.pgLower) := by
  constructor
  · intro u hu
    cases hu
  · intro x p hp
    obtain ⟨entry, hentry, -⟩ := Store.get_eq_some.mp hp
    cases hentry

/-- After every run of allowed requests, and so after every reset in it, a login under the
username or the email of an account succeeds only with a password that matches the hash
now stored for the account. -/
theorem login_matches_stored_hash {rs : List Request}
    (h : self.Along (Allowed self) (World.empty self.lib.pgLower) rs) {u : UserRow}
    (hu : u ∈ (self.serveAll (World.empty self.lib.pgLower) rs).db.users)
    {identifier password : String} (hx : Owns u identifier) {f : ℕ → Choice} {a : AuthResult}
    (hok : (self.serve (self.serveAll (World.empty self.lib.pgLower) rs)
      ⟨.login identifier password, f⟩).1 = .ok a) :
    PasswordService.verifyPassword self.lib password u.passwordHash = .ok true := by
  have hw : Coherent self (self.serveAll (World.empty self.lib.pgLower) rs) :=
    serveAll_invariant coherent_after coherent_empty h
  obtain ⟨v, hv, hvx, hverified⟩ :=
    (Safe.run coherent_step (login_safe identifier password) hw).1 a hok
  obtain ⟨hsep, -⟩ := hw
  rwa [Owns.unique hsep hu hv hx hvx]

section Alice

/-- Alice registers with the given email, verifies it, logs in under her username and
resets her password by email. -/
def resetCycle (email : String) : List Request :=
  [⟨.register "alice" email "Str0ng!Pass" none none, registerAlice.oracle⟩, verifyAlice,
    ⟨.login "alice" "Str0ng!Pass", oracle []⟩, forgot email, resetAlice]

theorem login_matches_stored_hash_lowercase :
    ∃ u ∈ (service.serveAll (World.empty _) (resetCycle "alice@example.com")).db.users,
      PasswordService.verifyPassword service.lib "N3w!Secret" u.passwordHash = .ok true := by
  have hstate : service.Along (Allowed service) (World.empty _) (resetCycle "alice@example.com") ∧
      (∃ u ∈ (service.serveAll (World.empty _) (resetCycle "alice@example.com")).db.users,
        u.username = "alice") ∧
      (service.serve (service.serveAll (World.empty _) (resetCycle "alice@example.com"))
        ⟨.login "alice" "N3w!Secret", oracle []⟩).1.toOption.isSome = true := by decide +kernel
  obtain ⟨hrun, ⟨u, hu, hname⟩, hsome⟩ := hstate
  obtain ⟨a, ha⟩ := Option.isSome_iff_exists.mp hsome
  exact ⟨u, hu, @login_matches_stored_hash service _ hrun u hu "alice" "N3w!Secret" (.inl hname)
    (oracle []) a (toOption_eq_some.mp ha)⟩

/-- Alice's email has a capital letter: the reset succeeds, and her old password is still
accepted under her username. -/
theorem stale_profile_accepts_old_password :
    (service.serve (service.serveAll (World.empty _) ((resetCycle "Alice@example.com").take 4))
        resetAlice).1 = .ok () ∧
      ∃ u ∈ (service.serveAll (World.empty _) (resetCycle "Alice@example.com")).db.users,
        Owns u "alice" ∧
        (∃ v ∈ (service.serveAll (World.empty _)
          ((resetCycle "Alice@example.com").take 4)).db.users,
          v.id = u.id ∧ v.passwordHash ≠ u.passwordHash) ∧
        PasswordService.verifyPassword service.lib "Str0ng!Pass" u.passwordHash ≠ .ok true ∧
        (service.serve (service.serveAll (World.empty _) (resetCycle "Alice@example.com"))
          ⟨.login "alice" "Str0ng!Pass", oracle []⟩).1.toOption.isSome = true := by
  unfold Owns
  decide +kernel

end Alice

end IamService.PasswordResetRevocation
