import IamService.AccountHistories
import IamService.ChainConfirmation
import IamService.SessionVerification

/-!
# The audit trail tells the truth

Calls publish events about accounts, sessions and wallets, in any interleaving and with any
failures between their operations. Every event in the trail is backed by the state: the
account it names is there, a session it reports has been opened, an account on chain that it
reports exists. The same holds of access tokens, which carry the name and the role of an
account, however old the profile is that they were made from.

Accounts only advance, tokens stay issued and accounts on chain stay, so what backs an event
when it is published backs it for ever.
-/

namespace IamService.AuditTrail
open EffectPrograms RelationTables ExpiringStore AccountHistories ChainConfirmation
  ReferenceLibraries

variable (self : AuthService)

/-- A row shows what a profile says about identity and role. -/
structure Shows (r : UserRow) (user : User) : Prop where
  isActive : r.isActive = true
  id : r.id = user.id
  username : r.username = user.username
  role : r.role = user.role

/-- An active account that a login identifier names. -/
def Named (identifier : String) (r : UserRow) : Prop :=
  r.username = identifier ∨ r.email = identifier

/-- The claims are about an active account. -/
def Vouched (w : self.State) (claims : Claims) : Prop :=
  ∃ r ∈ w.db.users, r.isActive = true ∧ r.id = claims.sub ∧ r.username = claims.username ∧
    r.role = claims.role

/-- A session has been opened for a user. -/
def Opened (w : self.State) (userId : Uuid) (username : String) : Prop :=
  ∃ token ∈ w.issued, token.claims.sub = userId ∧ token.claims.username = username

/-- The second text is the Registry account of the wallet, and exists. -/
def OnChain (w : self.State) (walletAddress pda : String) : Prop :=
  ∃ pubkey key, self.lib.parsePubkey walletAddress = .ok pubkey ∧
    self.registryPda pubkey = some key ∧ pda = self.lib.pubkeyToString key ∧ w.chain.Exists key

/-- What the state has to show for an event. Texts of a registration may have lost spaces on
their way into the table, and a resent link goes to the address as the caller wrote it. -/
def Attested (w : self.State) : Event → Prop
  | .userRegistered userId username email => ∃ r ∈ w.db.users, r.id = userId ∧
      fit 50 username = .ok r.username ∧ fit 255 email = .ok r.email
  | .userLoggedIn userId username _ => Opened self w userId username
  | .verificationEmailRequested userId username email _ => ∃ r ∈ w.db.users, r.id = userId ∧
      (r.username = username ∨ fit 50 username = .ok r.username) ∧
      (self.lib.pgLower r.email = self.lib.pgLower email ∨ fit 255 email = .ok r.email)
  | .emailVerified userId username email walletAddress => ∃ r ∈ w.db.users, r.id = userId ∧
      r.username = username ∧ r.email = email ∧ r.isActive = true ∧ r.emailVerified = true ∧
      (walletAddress ≠ "" → r.walletAddress.isSome = true)
  | .userOnboarded _ walletAddress pda _ _ _ => OnChain self w walletAddress pda
  | .loginAttempt identifier success _ => success = true →
      ∃ r ∈ w.db.users, Named identifier r ∧ r.isActive = true ∧ Opened self w r.id r.username
  | .accountLocked _ lockoutSecs => lockoutSecs = loginLockoutSecs
  -- published by the verification of keys, which none of these calls performs
  | .apiKeyVerified .. => False
  | .userWalletLinked _ walletAddress pda _ _ => OnChain self w walletAddress pda
  | .passwordResetRequested userId email resetUrl => ∃ r ∈ w.db.users, r.id = userId ∧
      Named email r ∧ r.isActive = true ∧
      ∃ token, resetUrl = self.config.appBaseUrl ++ "/reset-password?token=" ++ token

/-- A profile belongs to an active account, and to the identifier it is cached under. -/
def Cached (w : self.State) (key : String) (p : UserWithHash) : Prop :=
  ∃ r ∈ w.db.users, Shows r p.user ∧
    ∀ identifier, key = CacheKeys.userProfile identifier → Named identifier r

/-- Profiles, tokens and events are backed. -/
structure Grounded (auth : AuthService) (w : auth.State) : Prop where
  profiles : ∀ key p t, w.cache key = some ⟨.profile p, t⟩ → Cached auth w key p
  issued : ∀ token ∈ w.issued, Vouched auth w token.claims
  events : ∀ e ∈ w.events, Attested auth w e

def permitted (w : self.State) (o : Op) : Prop :=
  match o with
  | .host (.encodeToken claims) => Vouched self w claims
  | .cache (.setValue key (.profile p) _) => Cached self w key p
  | .bus (.publish event) => Attested self w event
  | .bus (.publishBatch batch) => ∀ e ∈ batch, Attested self w e
  | _ => True

/-- What backs an event stays. -/
structure Follows (auth : AuthService) (w v : auth.State) : Prop where
  users : Succeeds w.db.users v.db.users
  issued : w.issued ⊆ v.issued
  chain : ∀ pda, w.chain.Exists pda → v.chain.Exists pda

def discipline : Discipline Op Choice self.State where
  inv := Grounded self
  rely := Follows self
  permits := permitted self
  admits := fun _ _ _ => True

variable {self}

theorem Follows.refl (w : self.State) : Follows self w w :=
  ⟨.refl _, fun _ h => h, fun _ h => h⟩

theorem Follows.trans {w v u : self.State} (h : Follows self w v) (h' : Follows self v u) :
    Follows self w u :=
  ⟨h.users.trans h'.users, fun _ ht => h'.issued (h.issued ht),
    fun pda hp => h'.chain pda (h.chain pda hp)⟩

theorem follows_handle (c : Choice) (w : self.State) (o : Op) :
    Follows self w (self.handle c w o).2 := by
  refine ⟨handle_succeeds self c w o, ?_, fun pda h => self.exists_handle c w h o⟩
  rcases self.issued_handle c w o with h | ⟨claims, -, h⟩
  · rw [h]
    exact fun _ ht => ht
  · rw [h]
    exact List.subset_append_left _ _

section Lasting

variable {w v : self.State}

theorem Shows.advances {r s : UserRow} {user : User} (h : Shows r user) (hrs : Advances r s) :
    Shows s user :=
  ⟨hrs.isActive h.isActive, hrs.id.trans h.id, hrs.username.trans h.username,
    hrs.role.trans h.role⟩

theorem Named.advances {r s : UserRow} {identifier : String} (h : Named identifier r)
    (hrs : Advances r s) : Named identifier s := by
  unfold Named at h ⊢
  rwa [hrs.username, hrs.email]

theorem Vouched.later {claims : Claims} (h : Vouched self w claims) (hv : Follows self w v) :
    Vouched self v claims := by
  obtain ⟨r, hr, hactive, hid, hname, hrole⟩ := h
  obtain ⟨s, hs, hrs⟩ := hv.users.mem hr
  exact ⟨s, hs, hrs.isActive hactive, hrs.id.trans hid, hrs.username.trans hname,
    hrs.role.trans hrole⟩

theorem Opened.later {userId : Uuid} {username : String} (h : Opened self w userId username)
    (hv : Follows self w v) : Opened self v userId username := by
  obtain ⟨token, htoken, hclaims⟩ := h
  exact ⟨token, hv.issued htoken, hclaims⟩

theorem OnChain.later {walletAddress pda : String} (h : OnChain self w walletAddress pda)
    (hv : Follows self w v) : OnChain self v walletAddress pda := by
  obtain ⟨pubkey, key, hp, hkey, htext, hon⟩ := h
  exact ⟨pubkey, key, hp, hkey, htext, hv.chain key hon⟩

theorem Cached.later {key : String} {p : UserWithHash} (h : Cached self w key p)
    (hv : Follows self w v) : Cached self v key p := by
  obtain ⟨r, hr, hshows, hnamed⟩ := h
  obtain ⟨s, hs, hrs⟩ := hv.users.mem hr
  exact ⟨s, hs, hshows.advances hrs, fun x hx => (hnamed x hx).advances hrs⟩

/-- What backs an event backs it for ever. -/
theorem Attested.later {e : Event} (h : Attested self w e) (hv : Follows self w v) :
    Attested self v e := by
  cases e with
  | userRegistered userId username email =>
    obtain ⟨r, hr, hid, hname, hmail⟩ := h
    obtain ⟨s, hs, hrs⟩ := hv.users.mem hr
    exact ⟨s, hs, hrs.id.trans hid, by rw [hname, hrs.username], by rw [hmail, hrs.email]⟩
  | userLoggedIn userId username ip => exact Opened.later h hv
  | verificationEmailRequested userId username email token =>
    obtain ⟨r, hr, hid, hname, hmail⟩ := h
    obtain ⟨s, hs, hrs⟩ := hv.users.mem hr
    exact ⟨s, hs, hrs.id.trans hid, by rw [hrs.username]; exact hname,
      by rw [hrs.email]; exact hmail⟩
  | emailVerified userId username email walletAddress =>
    obtain ⟨r, hr, hid, hname, hmail, hactive, hverified, hwallet⟩ := h
    obtain ⟨s, hs, hrs⟩ := hv.users.mem hr
    exact ⟨s, hs, hrs.id.trans hid, hrs.username.trans hname, hrs.email.trans hmail,
      hrs.isActive hactive, hrs.emailVerified hverified,
      fun hne => hrs.walletAddress (hwallet hne)⟩
  | userOnboarded userId walletAddress pda signature userType shardId => exact OnChain.later h hv
  | loginAttempt identifier success ip =>
    intro hsuccess
    obtain ⟨r, hr, hnamed, hactive, hopened⟩ := h hsuccess
    obtain ⟨s, hs, hrs⟩ := hv.users.mem hr
    refine ⟨s, hs, hnamed.advances hrs, hrs.isActive hactive, ?_⟩
    rw [hrs.id, hrs.username]
    exact hopened.later hv
  | accountLocked identifier lockoutSecs => exact h
  | apiKeyVerified keyName role => exact h
  | userWalletLinked userId walletAddress pda signature shardId => exact OnChain.later h hv
  | passwordResetRequested userId email resetUrl =>
    obtain ⟨r, hr, hid, hnamed, hactive, hurl⟩ := h
    obtain ⟨s, hs, hrs⟩ := hv.users.mem hr
    exact ⟨s, hs, hrs.id.trans hid, hnamed.advances hrs, hrs.isActive hactive, hurl⟩

end Lasting

section Soundness

/-- An event in the trail was there before, or has just been published. -/
theorem events_handle {c : Choice} {w : self.State} {o : Op} {e : Event}
    (h : e ∈ (self.handle c w o).2.events) : e ∈ w.events ∨ o = .bus (.publish e) ∨
      ∃ batch, o = .bus (.publishBatch batch) ∧ e ∈ batch := by
  cases o with
  | bus q =>
    rw [AuthService.handle_bus] at h
    unfold AuthService.busHandle at h
    cases hf : c.fails with
    | true => exact .inl (by simpa [hf] using h)
    | false =>
      cases q with
      | publish event =>
        simp only [hf, Bool.false_eq_true, if_false, List.mem_append, List.mem_singleton] at h
        rcases h with h | rfl
        · exact .inl h
        · exact .inr (.inl rfl)
      | publishBatch batch =>
        simp only [hf, Bool.false_eq_true, if_false, List.mem_append] at h
        rcases h with h | h
        · exact .inl h
        · exact .inr (.inr ⟨batch, rfl, h⟩)
  | host q =>
    cases q with
    | encodeToken claims =>
      cases hf : c.fails <;> exact .inl (by simpa [AuthService.handle_host,
        AuthService.hostHandle, hf, World.evolve] using h)
    | _ => exact .inl h
  | _ => exact .inl h

theorem discipline_sound : (discipline self).Sound self.handle where
  refl := Follows.refl
  trans := Follows.trans
  rely_step := fun {c w o} _ _ _ => follows_handle c w o
  inv_step := by
    rintro c w o ⟨hprofiles, hissued, hevents⟩ hperm -
    have hnext := follows_handle c w o
    change permitted self w o at hperm
    refine ⟨?_, ?_, ?_⟩
    · intro key p t hentry
      rcases self.profile_before hentry with ⟨t', hold⟩ | ⟨ttl, rfl⟩
      · exact (hprofiles key p t' hold).later hnext
      · exact Cached.later hperm hnext
    · intro token htoken
      rcases self.issued_handle c w o with h | ⟨claims, rfl, h⟩
      · exact (hissued token (h ▸ htoken)).later hnext
      · rcases List.mem_append.mp (h ▸ htoken) with htoken | htoken
        · exact (hissued token htoken).later hnext
        · rw [List.mem_singleton.mp htoken]
          exact Vouched.later hperm hnext
    · intro e he
      rcases events_handle he with hold | rfl | ⟨batch, rfl, hmem⟩
      · exact (hevents e hold).later hnext
      · exact Attested.later hperm hnext
      · exact Attested.later (hperm e hmem) hnext

end Soundness

section Steps

variable {w : self.State} {β : Type} {Q : Result β → self.State → Prop}

theorem permitted_of_kind {o : Op} (h : o.kind ∉ [OpKind.encodeToken, .storeProfile, .publish])
    (w : self.State) : (discipline self).permits w o := by
  change permitted self w o
  unfold permitted
  split <;> simp at h ⊢

theorem limited_safe {α : Type} (kinds : List OpKind) {p : Program α} (h : Limited kinds p)
    (hk : ∀ k ∈ kinds, k ∉ [OpKind.encodeToken, .storeProfile, .publish]) (w : self.State) :
    Safe self.handle (discipline self) (fun _ _ => True) p w :=
  Issues.safe (fun w o ho => permitted_of_kind (hk o.kind ho) w) h w

/-- What is permitted in every state is safe. -/
theorem harmless_safe {α : Type} {p : Program α}
    (h : Issues (fun o => ∀ v : self.State, permitted self v o) p) (w : self.State) :
    Safe self.handle (discipline self) (fun _ _ => True) p w :=
  Issues.safe (fun v _ ho => ho v) h w

/-- An operation whose answer is looked at. -/
theorem observe_safe {o : Op} {f : o.Ans → Method β}
    (hp : ∀ v, Follows self w v → (discipline self).permits v o)
    (hf : ∀ c v, Follows self w v → Safe self.handle (discipline self) Q
      (f (self.handle c v o).1).run (self.handle c v o).2) :
    Safe self.handle (discipline self) Q (observe (.eff o .ret) >>= f).run w := by
  refine Safe.observeBind ?_
  intro v hv _
  exact ⟨hp v hv, fun c _ => hf c v hv⟩

/-- An operation of which only the effect on others matters. -/
theorem quiet_safe {o : Op} {f : o.Ans → Method β}
    (hkind : o.kind ∉ [OpKind.encodeToken, .storeProfile, .publish])
    (hf : ∀ a v, Follows self w v → Safe self.handle (discipline self) Q (f a).run v) :
    Safe self.handle (discipline self) Q (observe (.eff o .ret) >>= f).run w :=
  observe_safe (fun v _ => permitted_of_kind hkind v)
    (fun c v hv => hf _ _ (hv.trans (follows_handle c v o)))

theorem publish_safe {e : Event} {f : Result Unit → Method β} (he : Attested self w e)
    (hf : ∀ a v, Follows self w v → Safe self.handle (discipline self) Q (f a).run v) :
    Safe self.handle (discipline self) Q (observe (eventBus (.publish e)) >>= f).run w := by
  refine observe_safe (o := .bus (.publish e)) (fun v hv => he.later hv) ?_
  exact fun c v hv => hf _ _ (hv.trans (follows_handle c v _))

theorem encodeToken_issued {c : Choice} {claims : Claims} {token : Jwt}
    (h : (self.handle c w (.host (.encodeToken claims))).1 = .ok token) :
    token ∈ (self.handle c w (.host (.encodeToken claims))).2.issued ∧ token.claims = claims := by
  cases hf : c.fails with
  | true => simp [AuthService.handle_host, AuthService.hostHandle, hf] at h
  | false =>
    simp only [AuthService.handle_host, AuthService.hostHandle, hf, Bool.false_eq_true,
      if_false] at h ⊢
    cases h
    exact ⟨List.mem_append_right _ (List.mem_singleton.mpr rfl), rfl⟩

/-- A token is signed for an active account, and stays. -/
theorem mintToken_safe {userId : Uuid} {username role : String}
    (h : ∃ r ∈ w.db.users, r.isActive = true ∧ r.id = userId ∧ r.username = username ∧
      r.role = role) : Safe self.handle (discipline self)
        (fun r v => ∀ token, r = .ok token → Opened self v userId username)
        (AuthService.mintToken userId username role).run w := by
  refine observe_safe (o := .host .clock) (fun v _ => permitted_of_kind (by simp) v) ?_
  intro c v hv
  have hnext := hv.trans (follows_handle c v (.host .clock))
  intro u hu _
  have hvouched : ∀ now, Vouched self w (Claims.new now userId username role) := fun _ => h
  refine ⟨(hvouched _).later (hnext.trans hu), ?_⟩
  intro d _ token htoken
  obtain ⟨hissued, hclaims⟩ := encodeToken_issued htoken
  exact ⟨token, hissued, by rw [hclaims]; rfl, by rw [hclaims]; rfl⟩

end Steps

section Sessions

variable {w : self.State}

/-- The database shows active accounts under their identifiers. -/
theorem lookup_shows {lower : String → String} {c : Choice} {db : Database lower}
    {identity : String} {user : UserWithHash}
    (h : select c [identity] (AuthService.lookup c.pick db identity) = .ok (some user)) :
    ∃ r ∈ db.users, Shows r user.user ∧ Named identity r := by
  obtain ⟨r, hr, rfl⟩ := Option.map_eq_some_iff.mp (select_ok h).1.symm
  obtain ⟨hmem, hnamed⟩ := limitOne_some hr
  simp only [UserRepository.named, Bool.decide_and, Bool.and_eq_true, decide_eq_true_eq,
    Bool.decide_or, Bool.or_eq_true, Bool.decide_eq_true] at hnamed
  exact ⟨r, hmem, ⟨hnamed.2, rfl, rfl, rfl⟩, hnamed.1⟩

theorem fetchProfile_safe (username : String) : Safe self.handle (discipline self)
    (fun r v => ∀ user, r = .ok user → ∃ x ∈ v.db.users, Shows x user.user ∧ Named username x)
    (AuthService.fetchProfile username).run w := by
  refine Safe.bindExcept ?_
  intro v _ _
  refine ⟨permitted_of_kind (by simp) v, ?_⟩
  intro c _
  rw [safe_ret]
  cases hfind : select c [username] (AuthService.lookup c.pick v.db username) with
  | error e =>
    rw [show (self.handle c v (.user (.findByUsernameOrEmail username))).1 = .error e from hfind]
    intro _ h
    cases h
  | ok found =>
    rw [show (self.handle c v (.user (.findByUsernameOrEmail username))).1 = .ok found from hfind]
    cases found with
    | none =>
      intro _ h
      cases h
    | some user =>
      obtain ⟨r, hr, hshows, hnamed⟩ := lookup_shows hfind
      have hcached : Cached self v (CacheKeys.userProfile username) user := by
        refine ⟨r, hr, hshows, ?_⟩
        intro x hx
        rwa [← CacheKeys.userProfile_inj.mp hx]
      refine observe_safe
        (o := .cache (.setValue (CacheKeys.userProfile username) (.profile user) (some 300)))
        (fun u hu => hcached.later ((follows_handle c v _).trans hu)) ?_
      intro d u hu _ h
      cases h
      obtain ⟨s, hs, hrs⟩ := ((follows_handle c v _).trans hu).users.mem hr
      exact ⟨s, hs, hshows.advances hrs, hnamed.advances hrs⟩

theorem loginProfile_safe (username : String) : Safe self.handle (discipline self)
    (fun r v => ∀ user, r = .ok user → ∃ x ∈ v.db.users, Shows x user.user ∧ Named username x)
    (self.loginProfile username).run w := by
  rw [AuthService.loginProfile_eq]
  intro v _ hinv
  refine ⟨permitted_of_kind (by simp) v, ?_⟩
  intro c _
  dsimp only
  cases hshown : AuthService.cachedProfile (self.handle c v
      (.cache (.getValue (CacheKeys.userProfile username)))).1 with
  | none => exact fetchProfile_safe username
  | some user =>
    rw [safe_ret]
    intro _ h
    cases h
    obtain ⟨e, hentry, -, hvalue⟩ := Store.get_eq_some.mp (self.cachedProfile_shown hshown)
    obtain ⟨value, expiry⟩ := e
    cases hvalue
    obtain ⟨r, hr, hshows, hnamed⟩ := hinv.profiles _ user expiry hentry
    exact ⟨r, hr, hshows, hnamed username rfl⟩

theorem failedLogin_harmless (username : String) :
    Issues (fun o => ∀ v : self.State, permitted self v o)
      (AuthService.failedLogin username).run := by
  refine Issues.bindExcept (by simp [cache, permitted]) ?_
  intro counted
  refine Issues.bindExcept (by simp [eventBus, permitted, Attested]) ?_
  intro _
  split <;> simp [AuthService.cacheSet, cache, eventBus, permitted, Attested]

theorem successfulLogin_safe {username : String} {user : User}
    (h : ∃ r ∈ w.db.users, Shows r user ∧ Named username r) :
    Safe self.handle (discipline self) (fun _ _ => True)
      (self.successfulLogin username user).run w := by
  refine quiet_safe (o := .cache (.delete (CacheKeys.loginAttempts username))) (by simp) ?_
  intro _ v hv
  obtain ⟨r, hr, hshows, hnamed⟩ := h
  obtain ⟨s, hs, hrs⟩ := hv.users.mem hr
  have hs' := hshows.advances hrs
  have hmint : ∃ r ∈ v.db.users, r.isActive = true ∧ r.id = user.id ∧ r.username = user.username ∧
      r.role = user.role := ⟨s, hs, hs'.isActive, hs'.id, hs'.username, hs'.role⟩
  refine Safe.bindExcept (((mintToken_safe hmint).reaches discipline_sound).mono ?_)
  rintro (e | token) u ⟨hu, hopened⟩
  · trivial
  · refine observe_safe (o := .bus (.publishBatch
      [.loginAttempt username true none, .userLoggedIn user.id user.username none])) ?_ ?_
    · intro t ht e he
      obtain ⟨x, hx, hsx⟩ := (Follows.trans hu ht).users.mem hs
      have hopen : Opened self t user.id user.username := (hopened token rfl).later ht
      have hx' := hs'.advances hsx
      simp only [List.mem_cons, List.not_mem_nil, or_false] at he
      rcases he with rfl | rfl
      · intro _
        refine ⟨x, hx, (hnamed.advances hrs).advances hsx, hx'.isActive, ?_⟩
        rw [hx'.id, hx'.username]
        exact hopen
      · exact hopen
    · exact fun _ _ _ => trivial

theorem login_safe (username password : String) :
    Safe self.handle (discipline self) (fun _ _ => True) (self.login username password).run w := by
  refine quiet_safe (o := .cache (.exists (CacheKeys.accountLock username))) (by simp) ?_
  intro locked v _
  split
  · exact publish_safe (fun h => by cases h) (fun _ _ _ => trivial)
  · refine Safe.bindExcept ((loginProfile_safe username).mono ?_)
    rintro (e | user) u hfound
    · trivial
    · refine Safe.bindExcept ?_
      intro t ht _
      refine ⟨permitted_of_kind (by simp) t, ?_⟩
      intro c _
      rw [safe_ret]
      obtain ⟨r, hr, hshows, hnamed⟩ := hfound user rfl
      obtain ⟨s, hs, hrs⟩ := (Follows.trans ht (follows_handle c t _)).users.mem hr
      cases (self.handle c t (.host (.verifyPassword password user.passwordHash))).1 with
      | error e => trivial
      | ok valid =>
        dsimp only
        split
        · exact successfulLogin_safe ⟨s, hs, hshows.advances hrs, hnamed.advances hrs⟩
        · exact harmless_safe (failedLogin_harmless username) _

/-- Only a token that was issued is refreshed, and it names an account. -/
theorem refreshToken_safe (token : Jwt) :
    Safe self.handle (discipline self) (fun _ _ => True) (self.refreshToken token).run w := by
  refine Safe.bindExcept ?_
  intro v _ hinv
  refine ⟨permitted_of_kind (by simp) v, ?_⟩
  intro c _
  rw [safe_ret]
  cases hdecode : (self.handle c v (.host (.decodeToken token))).1 with
  | error e => trivial
  | ok claims =>
    obtain ⟨hmem, rfl⟩ := SessionVerification.decodeToken_ok hdecode
    have hvouched := (hinv.issued token hmem).later (follows_handle c v (.host (.decodeToken token)))
    exact Safe.andThen ((mintToken_safe hvouched).mono (fun _ _ _ => trivial)) (fun _ _ => trivial)

end Sessions

section Accounts

variable {w : self.State}

/-- A registration that succeeds has inserted its account. -/
theorem create_inserted {c : Choice} {newUser : NewUser}
    (h : (self.handle c w (.user (.create newUser))).1 = .ok ()) :
    ∃ r ∈ (self.handle c w (.user (.create newUser))).2.db.users, r.id = newUser.id ∧
      fit 50 newUser.username = .ok r.username ∧ fit 255 newUser.email = .ok r.email := by
  rw [AuthService.handle_user] at h ⊢
  rcases UserRepository.create_cases c (w.evolve c).now w.db newUser with
    ⟨e, hc⟩ | ⟨fitted, db', hfit, hc, -, hu⟩
  · simp only [UserRepository.handle, hc] at h
    cases h
  · simp only [UserRepository.handle, hc, hu]
    obtain ⟨hname, hmail⟩ := NewUser.fitted_identifiers hfit
    exact ⟨_, List.mem_append_right _ (List.mem_singleton.mpr rfl),
      (NewUser.fitted_token hfit).1, hname, hmail⟩

theorem register_safe (username email password : String) (firstName lastName : Option String) :
    Safe self.handle (discipline self) (fun _ _ => True)
      (self.register username email password firstName lastName).run w := by
  unfold AuthService.register
  split
  · trivial
  · refine Safe.andThen (limited_safe [.readHost] (by simp [Limited, host])
      (by simp) w) ?_
    intro passwordHash w
    refine quiet_safe (o := .host .newUuid) (by simp) ?_
    intro userId w _
    refine quiet_safe (o := .host .newUuid) (by simp) ?_
    intro tokenId w _
    refine observe_safe (o := .user (.create _)) (fun v _ => permitted_of_kind (by simp) v) ?_
    intro c v _
    cases hcreated : (self.handle c v (.user (.create ⟨userId, username, email, passwordHash,
        "user", firstName, lastName, some (self.lib.uuidToString tokenId)⟩))).1 with
    | error e => trivial
    | ok _ =>
      obtain ⟨r, hr, hid, hname, hmail⟩ := create_inserted hcreated
      refine publish_safe ⟨r, hr, hid, hname, hmail⟩ ?_
      intro _ u hu
      refine publish_safe (Attested.later (e := .verificationEmailRequested ..)
        ⟨r, hr, hid, .inr hname, .inr hmail⟩ hu) ?_
      exact fun _ _ _ => trivial

/-- The account of a user who has verified the email. -/
def Confirmed (self : AuthService) (w : self.State) (user : User) : Prop :=
  ∃ r ∈ w.db.users, Shows r user ∧ r.email = user.email ∧ r.emailVerified = true ∧
    (user.walletAddress.isSome = true → r.walletAddress.isSome = true)

theorem Confirmed.later {v : self.State} {user : User} (h : Confirmed self w user)
    (hv : Follows self w v) : Confirmed self v user := by
  obtain ⟨r, hr, hshows, hmail, hverified, hwallet⟩ := h
  obtain ⟨s, hs, hrs⟩ := hv.users.mem hr
  exact ⟨s, hs, hshows.advances hrs, hrs.email.trans hmail, hrs.emailVerified hverified,
    fun hsome => hrs.walletAddress (hwallet hsome)⟩

theorem activate_active {lower : String → String} {db : Database lower} {email : String}
    {r : UserRow} (hr : r ∈ (UserRepository.activate db email).users) (hemail : r.email = email) :
    r.isActive = true ∧ r.emailVerified = true := by
  obtain ⟨s, -, rfl⟩ := mem_updateWhere.mp hr
  by_cases hs : s.email = email
  · rw [if_pos (by simpa using hs)]
    exact ⟨rfl, rfl⟩
  · rw [if_neg (by simpa using hs)] at hemail
    exact absurd hemail hs

theorem verifyEmail_confirmed {c : Choice} {email : String} {user : User}
    (h : (self.handle c w (.user (.verifyEmail email))).1 = .ok (some user)) :
    Confirmed self (self.handle c w (.user (.verifyEmail email))).2 user := by
  rw [AuthService.handle_user] at h ⊢
  rcases UserRepository.verifyEmail_cases c w.db email with ⟨e, hv⟩ | hv
  · simp only [UserRepository.handle, hv] at h
    cases h
  · simp only [UserRepository.handle, hv, Except.ok.injEq] at h
    obtain ⟨r, hr, rfl⟩ := Option.map_eq_some_iff.mp h
    have hmem := List.mem_of_find?_eq_some hr
    obtain ⟨hactive, hverified⟩ := activate_active hmem (by simpa using List.find?_some hr)
    unfold Confirmed
    simp only [UserRepository.handle, hv]
    exact ⟨r, hmem, ⟨hactive, rfl, rfl, rfl⟩, rfl, hverified, id⟩

/-- A stored key comes with an address for the account. -/
theorem persist_addressed {c : Choice} {user : User} {walletAddress : String}
    {label : Option String} {key : KeyMaterial} {kdfVersion : ℕ} {wallet : UserWallet}
    (hw : Confirmed self w user)
    (h : (self.handle c w (.wallet (.persistCustodialWallet user.id walletAddress label key
      kdfVersion))).1 = .ok wallet) :
    ∃ r ∈ (self.handle c w (.wallet (.persistCustodialWallet user.id walletAddress label key
      kdfVersion))).2.db.users, Shows r user ∧ r.email = user.email ∧ r.emailVerified = true ∧
        r.walletAddress.isSome = true := by
  obtain ⟨r, hr, hshows, hmail, hverified, -⟩ := hw
  rw [AuthService.handle_wallet] at h ⊢
  rcases WalletRepository.persistCustodialWallet_cases c (w.evolve c).now w.db user.id
    walletAddress label key kdfVersion with ⟨e, hp⟩ | ⟨row, address, db', -, -, -, hp, -, hu⟩
  · simp only [WalletRepository.handle, hp] at h
    cases h
  · simp only [WalletRepository.handle, hp, hu]
    refine ⟨_, mem_updateWhere.mpr ⟨r, hr, rfl⟩, ?_⟩
    rw [if_pos (by simpa using hshows.id)]
    exact ⟨⟨hshows.isActive, hshows.id, hshows.username, hshows.role⟩, hmail, hverified, rfl⟩

theorem provision_safe {user : User} (hw : Confirmed self w user) :
    Safe self.handle (discipline self) (fun r v => ∀ wallet, r = .ok wallet →
      ∃ x ∈ v.db.users, Shows x user ∧ x.email = user.email ∧ x.emailVerified = true ∧
        x.walletAddress.isSome = true) (self.provisionCustodialWallet user).run w := by
  refine quiet_safe (o := .host .createKeypair) (by simp) ?_
  intro keypair v hv
  refine quiet_safe (o := .host (.encryptPrivateKey keypair)) (by simp) ?_
  intro key u hu
  cases key with
  | error e =>
    intro _ h
    cases h
  | ok key =>
    refine Safe.bindExcept ?_
    intro t ht _
    refine ⟨permitted_of_kind (by simp) t, ?_⟩
    intro c _
    rw [safe_ret]
    cases hstored : (self.handle c t (.wallet (.persistCustodialWallet user.id
        (self.lib.pubkeyToString (self.lib.keypairPubkey keypair)) (some "Custodial") key
        self.lib.currentKdfVersion))).1 with
    | error e =>
      intro _ h
      cases h
    | ok wallet =>
      obtain ⟨x, hx, hshows, hmail, hverified, haddress⟩ :=
        persist_addressed (((hw.later hv).later hu).later ht) hstored
      refine quiet_safe (o := .host (.spawn _)) (by simp) ?_
      intro _ s hs _ _
      obtain ⟨y, hy, hxy⟩ := hs.users.mem hx
      exact ⟨y, hy, hshows.advances hxy, hxy.email.trans hmail, hxy.emailVerified hverified,
        hxy.walletAddress haddress⟩

theorem ensureWallet_safe {user : User} (hw : Confirmed self w user) :
    Safe self.handle (discipline self)
      (fun r v => ∀ user', r = .ok user' → Confirmed self v user')
      (self.ensureWallet user).run w := by
  refine quiet_safe (o := .wallet (.hasAnyWallet user.id)) (by simp) ?_
  intro hasWallet v hv
  split
  · refine Safe.observeBind (((provision_safe (hw.later hv)).reaches discipline_sound).mono ?_)
    rintro (e | wallet) u ⟨hu, hprovisioned⟩
    · rintro _ ⟨⟩
      exact (hw.later hv).later hu
    · rintro _ ⟨⟩
      obtain ⟨x, hx, hshows, hmail, hverified, haddress⟩ := hprovisioned wallet rfl
      exact ⟨x, hx, ⟨hshows.isActive, hshows.id, hshows.username, hshows.role⟩, hmail, hverified,
        fun _ => haddress⟩
  · rintro _ ⟨⟩
    exact hw.later hv

theorem verifiedSession_safe {user : User} (hw : Confirmed self w user) :
    Safe self.handle (discipline self) (fun _ _ => True) (self.verifiedSession user).run w := by
  have hmint : ∃ r ∈ w.db.users, r.isActive = true ∧ r.id = user.id ∧ r.username = user.username ∧
      r.role = user.role := by
    obtain ⟨r, hr, hshows, -⟩ := hw
    exact ⟨r, hr, hshows.isActive, hshows.id, hshows.username, hshows.role⟩
  refine Safe.bindExcept (((mintToken_safe hmint).reaches discipline_sound).mono ?_)
  rintro (e | token) v ⟨hv, -⟩
  · trivial
  · obtain ⟨x, hx, hxshows, hmail, hverified, haddress⟩ := hw.later hv
    refine publish_safe (e := .emailVerified ..)
      ⟨x, hx, hxshows.id, hxshows.username, hmail, hxshows.isActive, hverified, ?_⟩ ?_
    · intro hne
      cases hwallet : user.walletAddress with
      | none => simp [hwallet] at hne
      | some address => exact haddress (by rw [hwallet]; rfl)
    · intro _ u _
      exact limited_safe [.deleteKey] (by simp [Limited, cache]) (by simp) u

theorem verifyEmail_safe (token : String) :
    Safe self.handle (discipline self) (fun _ _ => True) (self.verifyEmail token).run w := by
  refine Safe.andThen (limited_safe _ (self.verifiedAddress_limited token) (by simp) w) ?_
  intro email v
  refine Safe.bindExcept ?_
  intro u _ _
  refine ⟨permitted_of_kind (by simp) u, ?_⟩
  intro c _
  rw [safe_ret]
  cases hactivated : (self.handle c u (.user (.verifyEmail email))).1 with
  | error e => trivial
  | ok activated =>
    cases activated with
    | none => trivial
    | some user =>
      refine Safe.bindExcept ((ensureWallet_safe (verifyEmail_confirmed hactivated)).mono ?_)
      rintro (e | user') t hconfirmed
      · trivial
      · exact verifiedSession_safe (hconfirmed user' rfl)

theorem resendVerification_safe (email : String) :
    Safe self.handle (discipline self) (fun _ _ => True)
      (self.resendVerification email).run w := by
  refine Safe.bindExcept ?_
  intro v _ _
  refine ⟨permitted_of_kind (by simp) v, ?_⟩
  intro c _
  rw [safe_ret]
  cases hfind : (self.handle c v (.user (.findVerificationStateByEmail email))).1 with
  | error e => trivial
  | ok found =>
    cases found with
    | none => trivial
    | some state =>
      obtain ⟨r, hlimit, rfl⟩ := Option.map_eq_some_iff.mp (select_ok hfind).1.symm
      obtain ⟨hr, haddressed⟩ := limitOne_some hlimit
      have hattested : ∀ token, Attested self (self.handle c v
          (.user (.findVerificationStateByEmail email))).2
          (.verificationEmailRequested r.id r.username email token) :=
        fun _ => ⟨r, hr, rfl, .inl rfl, .inl (by simpa [UserRepository.addressed] using haddressed)⟩
      dsimp only
      split
      · trivial
      · refine quiet_safe (o := .cache (.exists _)) (by simp) ?_
        intro cooling u hu
        split
        · trivial
        · refine Safe.bindExcept (((limited_safe _ (self.verificationTokenFor_limited _) (by simp)
            u).reaches discipline_sound).mono ?_)
          rintro (e | token) t ⟨ht, -⟩
          · trivial
          · refine publish_safe ((hattested token).later (hu.trans ht)) ?_
            intro _ s _
            exact limited_safe [.storeOther]
              (by simp [Limited, AuthService.cacheSet, cache]) (by simp) s

theorem forgotPassword_safe (email : String) :
    Safe self.handle (discipline self) (fun _ _ => True) (self.forgotPassword email).run w := by
  refine Safe.bindExcept ?_
  intro v _ _
  refine ⟨permitted_of_kind (by simp) v, ?_⟩
  intro c _
  rw [safe_ret]
  cases hfind : (self.handle c v (.user (.findByUsernameOrEmail email))).1 with
  | error e => trivial
  | ok found =>
    cases found with
    | none => trivial
    | some user =>
      obtain ⟨r, hr, hshows, hnamed⟩ := lookup_shows hfind
      refine quiet_safe (o := .host .newUuid) (by simp) ?_
      intro id u hu
      refine Safe.bindExcept (((limited_safe [.storeOther]
        (by simp [Limited, AuthService.cacheSet, cache]) (by simp) u).reaches
        discipline_sound).mono ?_)
      rintro (e | _) t ⟨ht, -⟩
      · trivial
      · refine publish_safe (Attested.later (e := .passwordResetRequested ..)
          ⟨r, hr, hshows.id, hnamed, hshows.isActive, _, rfl⟩ (hu.trans ht)) ?_
        exact fun _ _ _ => trivial

end Accounts

section Wallets

variable {w : self.State}

/-- Looking at accounts, waiting and submitting are permitted everywhere. -/
theorem permitted_chain (w : self.State) (o : Op)
    (h : o.kind ∈ [OpKind.lookAccount, .sleep, .submit]) : (discipline self).permits w o := by
  have hdisjoint : ∀ k ∈ [OpKind.lookAccount, .sleep, .submit],
      k ∉ [OpKind.encodeToken, .storeProfile, .publish] := by decide
  exact permitted_of_kind (hdisjoint o.kind h) w

theorem autoRegister_safe (userId : Uuid) (walletAddress : String) (user : User)
    (wallet : UserWallet) : Safe self.handle (discipline self) (fun _ _ => True)
      (self.autoRegister userId walletAddress user wallet).run w := by
  unfold AuthService.autoRegister
  cases hp : self.lib.parsePubkey walletAddress with
  | error e => trivial
  | ok pubkey =>
    refine blockchain_safe permitted_chain ?_
    intro submitted v
    cases submitted with
    | error e => trivial
    | ok signature =>
      refine Safe.observeBind ((confirmRegistered_safe permitted_chain pubkey v).mono ?_)
      intro seen u hseen
      cases seen with
      | false => trivial
      | true =>
        obtain ⟨pda, hpda, hon⟩ := hseen rfl
        refine quiet_safe (o := .wallet (.markRegistered _ _ _)) (by simp) ?_
        intro _ t ht
        cases hprogram : self.lib.pubkeyFromStr self.config.registryProgramId with
        | error e => trivial
        | ok programId =>
          have hkey : self.registryPda pubkey = some (self.lib.findProgramAddress pubkey programId) := by
            rw [AuthService.registryPda, hprogram]
          rw [hkey] at hpda
          cases hpda
          exact publish_safe (e := .userWalletLinked ..)
            ⟨pubkey, _, hp, hkey, rfl, ht.chain _ hon⟩ (fun _ _ _ => trivial)

theorem linkWallet_safe (userId : Uuid) (walletAddress : String) (label : Option String)
    (isPrimary : Bool) : Safe self.handle (discipline self) (fun _ _ => True)
      (self.linkWallet userId walletAddress label isPrimary).run w := by
  have hregister : ∀ wallet v, Safe self.handle (discipline self) (fun _ _ => True)
      (self.registerLinked userId walletAddress wallet).run v := by
    intro wallet v
    refine quiet_safe (o := .user (.findById userId)) (by simp) ?_
    intro found u _
    split
    · split
      · exact autoRegister_safe _ _ _ _
      · trivial
    · trivial
  have hinsert : ∀ hasExisting v, Safe self.handle (discipline self) (fun _ _ => True)
      (self.insertLinked userId walletAddress label isPrimary hasExisting).run v := by
    intro hasExisting v
    refine Safe.andThen (limited_safe [.insertWallet] (by simp [Limited, walletRepo])
      (by simp) v) ?_
    intro wallet u
    unfold AuthService.afterInsert
    split
    · exact quiet_safe (o := .user (.setWalletAddress userId walletAddress)) (by simp)
        (fun _ t _ => hregister wallet t)
    · exact hregister wallet u
  unfold AuthService.linkWallet
  split
  · trivial
  · refine Safe.andThen (limited_safe [.readWallets] (by simp [Limited, walletRepo])
      (by simp) w) ?_
    intro hasExisting v
    split
    · exact Safe.andThen (limited_safe [.clearPrimary] (by simp [Limited, walletRepo])
        (by simp) v) (fun _ u => hinsert hasExisting u)
    · exact hinsert hasExisting v

theorem onboardUserOnChain_safe (userId : Uuid) (userType : UserType) (latE7 longE7 : Int32)
    (h3Index : Option UInt64) (shardId : Option UInt8) :
    Safe self.handle (discipline self) (fun _ _ => True)
      (self.onboardUserOnChain userId userType latE7 longE7 h3Index shardId).run w := by
  refine Safe.andThen (limited_safe [.readWallets] (by simp [Limited, walletRepo]) (by simp) w) ?_
  intro found v
  cases found with
  | none => trivial
  | some walletAddress =>
    dsimp only
    cases hp : self.lib.parsePubkey walletAddress with
    | error e => trivial
    | ok pubkey =>
      dsimp only
      cases hprogram : self.lib.pubkeyFromStr self.config.registryProgramId with
      | error e => trivial
      | ok programId =>
        have hkey : self.registryPda pubkey = some (self.lib.findProgramAddress pubkey programId) := by
          rw [AuthService.registryPda, hprogram]
        refine quiet_safe (o := .chain (.accountExists _)) (by simp) ?_
        intro seen u _
        split
        · exact limited_safe [.markUserOnboarded, .markRegistered]
            (by simp [Limited, userRepo, walletRepo]) (by simp) u
        · refine blockchain_safe permitted_chain ?_
          intro submitted t
          cases submitted with
          | error e => trivial
          | ok signature =>
            refine Safe.observeBind ((pollAccount_safe permitted_chain _ 20 t).mono ?_)
            intro confirmed s hconfirmed
            cases confirmed with
            | false => trivial
            | true =>
              refine quiet_safe (o := .user (.markUserOnboarded ..)) (by simp) ?_
              intro _ x hx
              refine quiet_safe (o := .wallet (.markRegistered ..)) (by simp) ?_
              intro _ y hy
              exact publish_safe (e := .userOnboarded ..)
                ⟨pubkey, _, hp, hkey, rfl, (hx.trans hy).chain _ (hconfirmed rfl)⟩
                (fun _ _ _ => trivial)

end Wallets

section Trail

/-- Every method publishes what the state shows. -/
theorem method_safe (c : Call) (w : self.State) :
    Safe self.handle (discipline self) (fun _ _ => True) (self.method c).run w := by
  have hquiet : ∀ c : Call, (∀ k ∈ c.footprint, k ∉ [OpKind.encodeToken, .storeProfile,
      .publish]) → Safe self.handle (discipline self) (fun _ _ => True) (self.method c).run w :=
    fun c hc => limited_safe _ (self.method_limited c) hc w
  cases c with
  | login username password => exact login_safe username password
  | register username email password firstName lastName =>
    exact register_safe username email password firstName lastName
  | verifyEmail token => exact verifyEmail_safe token
  | resendVerification email => exact resendVerification_safe email
  | forgotPassword email => exact forgotPassword_safe email
  | refreshToken token => exact refreshToken_safe token
  | linkWallet userId walletAddress label isPrimary =>
    exact linkWallet_safe userId walletAddress label isPrimary
  | onboardUserOnChain userId userType latE7 longE7 h3Index shardId =>
    exact onboardUserOnChain_safe userId userType latE7 longE7 h3Index shardId
  | _ => exact hquiet _ (by simp)

theorem program_safe (c : Call) (w : self.State) :
    Safe self.handle (discipline self) (fun _ _ => True) (self.program c) w :=
  Safe.bind ((method_safe c w).mono (fun _ _ _ => trivial))

/-- Nothing has been published or signed yet, and no profile is cached. -/
structure Blank (auth : AuthService) (w : auth.State) : Prop where
  cache : ∀ key p t, w.cache key ≠ some ⟨.profile p, t⟩
  issued : w.issued = []
  events : w.events = []

theorem Blank.grounded {w : self.State} (h : Blank self w) : Grounded self w := by
  obtain ⟨hcache, hissued, hevents⟩ := h
  refine ⟨fun key p t hentry => absurd hentry (hcache key p t), ?_, ?_⟩
  · rw [hissued]
    exact fun _ ht => absurd ht List.not_mem_nil
  · rw [hevents]
    exact fun _ he => absurd he List.not_mem_nil

theorem grounded_of_reach {init : self.State → Prop} (hinit : ∀ v, init v → Blank self v)
    {w : self.State} {ps : List (Program AuthService.Returned)}
    (h : Reach self.handle (fun _ p => ∃ c, p = self.program c) (fun _ _ _ => True) init w ps) :
    Grounded self w := by
  refine Reach.inv (D := discipline self) discipline_sound ?_ ?_ h
  · exact fun v hv => (hinit v hv).grounded
  · rintro v p - ⟨c, rfl⟩
    exact program_safe c v

/-- Without privileged accounts to begin with, no interleaving of calls and tasks signs a
privileged token: every token carries the id, the name and the role of an active account, and
that role is `user`. -/
theorem tokens_unprivileged {w : self.State} {ps : List (Program AuthService.Returned)}
    (h : Reach self.handle (fun _ p => ∃ c, p = self.program c) (fun _ _ _ => True)
      (fun v => Blank self v ∧ ∀ r ∈ v.db.users, r.role = "user") w ps) :
    ∀ token ∈ w.issued, Vouched self w token.claims ∧ token.claims.role = "user" := by
  have hroles : ∀ r ∈ w.db.users, r.role = "user" := by
    refine reach_all ?_ ?_ (fun _ hv => hv.2) h
    · intro o r s _ hrs hr
      exact hrs.advances.role.trans hr
    · intro o r ho hr
      exact (hr.wellKept ho).role
  have hgrounded : Grounded self w := grounded_of_reach (fun _ hv => hv.1) h
  intro token htoken
  obtain ⟨r, hr, hactive, hid, hname, hrole⟩ := hgrounded.issued token htoken
  exact ⟨⟨r, hr, hactive, hid, hname, hrole⟩, hrole ▸ hroles r hr⟩

end Trail

section Alice

theorem blank_empty : Blank service (World.empty _) := by
  refine ⟨?_, rfl, rfl⟩
  intro key p t h
  cases h

/-- Alice signs up until her verification has been published. -/
def announced : List (ℕ × Choice) := signUp ++ List.replicate 4 (1, ({} : Choice))

theorem tokens_unprivileged_announced :
    let w := (schedule service.handle (World.empty _, signingUp) announced).1
    w.issued.length = 1 ∧
      ∀ token ∈ w.issued, Vouched service w token.claims ∧ token.claims.role = "user" :=
  ⟨by decide +kernel, tokens_unprivileged
    (reach_signingUp ⟨blank_empty, fun _ hr => absurd hr List.not_mem_nil⟩ announced)⟩

end Alice

end IamService.AuditTrail
