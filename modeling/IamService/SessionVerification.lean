import IamService.AccountCallRuns
import IamService.AccountPersistence
import IamService.CacheFootprints
import IamService.ReferenceLibraries

/-!
# Only a verified mailbox yields a session

In production the account calls run together, one operation at a time, with any failures.
Whatever lets an access token be signed goes back to a verification: an active account, a
cached profile, a token that is refreshed. The history of operations shows the lookup in
which the verification token of the account was presented while it was stored and had not
expired.
-/

namespace IamService.SessionVerification
open EffectPrograms RelationTables ExpiringStore UserRepository AuthService ReferenceLibraries

variable (self : AuthService)

abbrev History := List (Observed Op.Ans self.State)

/-- A verification presents the token that is stored for the user and has not expired. Only
`verifyEmail` looks a token up, and it looks up its argument. -/
def Confirms (userId : Uuid) : Observed Op.Ans self.State → Prop
  | ⟨before, .user (.findEmailByToken token), .ok (some email), after⟩ =>
    ∃ r ∈ before.db.users, r.id = userId ∧ r.email = email ∧ holdsToken after.now token r = true
  | _ => False

def Verified (h : History self) (userId : Uuid) : Prop := ∃ ob ∈ h, Confirms self userId ob

/-- Every signing of an access token comes after a verification of its user. -/
def SessionsVerified (h : History self) : Prop :=
  ∀ h₁ ob h₂, h = h₁ ++ ob :: h₂ → ∀ claims, ob.op = .host (.encodeToken claims) →
    Verified self h₁ claims.sub

/-- No active users, an empty cache and no access token. -/
structure Start (s : self.State × History self) : Prop where
  history : s.2 = []
  users : ∀ x ∈ s.1.db.users, x.isActive = false
  cache : ∀ key, s.1.cache key = none
  issued : s.1.issued = []

/-- The account calls, with any arguments. -/
inductive AccountCall : Call → Prop where
  | register (username email password firstName lastName) :
      AccountCall (.register username email password firstName lastName)
  | resendVerification (email) : AccountCall (.resendVerification email)
  | verifyEmail (token) : AccountCall (.verifyEmail token)
  | login (username password) : AccountCall (.login username password)
  | refreshToken (token) : AccountCall (.refreshToken token)
  | forgotPassword (email) : AccountCall (.forgotPassword email)
  | resetPassword (token newPassword) : AccountCall (.resetPassword token newPassword)

def Launched (_ : self.State × History self) (p : Program AuthService.Returned) : Prop :=
  ∃ call, AccountCall call ∧ p = self.program call

/-- Operations of the account calls that neither activate an account nor show a profile
nor sign a token. -/
def quiet : List OpKind :=
  [.findByUsernameOrEmail, .createUser, .findEmailByToken, .findVerificationStateByEmail,
    .setVerificationToken, .updatePassword, .readWallets, .persistCustodialWallet, .readCache,
    .storeOther, .deleteKey, .countKey, .publish, .readHost, .decodeToken, .spawn]

/-- Accounts are activated, profiles cached and tokens signed for verified users only. -/
def permitted (s : self.State × History self) (o : Op) : Prop :=
  match o with
  | .host (.encodeToken claims) => Verified self s.2 claims.sub
  | .user (.verifyEmail email) => ∀ x ∈ s.1.db.users, x.email = email → Verified self s.2 x.id
  | .cache (.setValue _ (.profile p) _) => Verified self s.2 p.user.id
  | o => o.kind ∈ quiet

/-- Whatever can lead to a session belongs to a verified user. -/
structure Sound (s : self.State × History self) : Prop where
  users : ∀ x ∈ s.1.db.users, x.isActive = true → Verified self s.2 x.id
  cache : ∀ key p t, s.1.cache key = some ⟨.profile p, t⟩ → Verified self s.2 p.user.id
  issued : ∀ token ∈ s.1.issued, Verified self s.2 token.claims.sub
  sessions : SessionsVerified self s.2

/-- Programs rely on the history and on the accounts. -/
def discipline : Discipline Op Choice (self.State × History self) where
  inv := Sound self
  rely := fun s t => s.2 <+: t.2 ∧ Retained s.1.db.users t.1.db.users
  permits := permitted self
  admits := fun _ _ _ => True

variable {self}

section Histories

theorem Verified.mono {h h' : History self} {userId : Uuid} (hv : Verified self h userId)
    (hp : h <+: h') : Verified self h' userId := by
  obtain ⟨ob, hob, hc⟩ := hv
  exact ⟨ob, hp.subset hob, hc⟩

theorem sessionsVerified_append {h : History self} {ob : Observed Op.Ans self.State}
    (hs : SessionsVerified self h)
    (hob : ∀ claims, ob.op = .host (.encodeToken claims) → Verified self h claims.sub) :
    SessionsVerified self (h ++ [ob]) := by
  intro h₁ ob' h₂ he claims hop
  rcases List.eq_nil_or_concat h₂ with rfl | ⟨h₃, last, rfl⟩
  · obtain ⟨rfl, hsame⟩ := List.append_inj' he rfl
    cases hsame
    exact hob claims hop
  · rw [List.concat_eq_append, ← List.cons_append, ← List.append_assoc] at he
    obtain ⟨rfl, -⟩ := List.append_inj' he rfl
    exact hs h₁ ob' h₃ rfl claims hop

end Histories

section Soundness

variable (c : Choice) (w : self.State)

/-- Only a verification activates an account. -/
theorem active_before {o : Op} (h : o.kind ∈ quiet) :
    ∀ x ∈ (self.handle c w o).2.db.users, x.isActive = true →
      ∃ y ∈ w.db.users, y.isActive = true ∧ y.id = x.id := by
  have hsame : ∀ {rows : List UserRow},
      rows.map (fun r => (r.isActive, r.id)) = w.db.users.map (fun r => (r.isActive, r.id)) →
      ∀ x ∈ rows, x.isActive = true → ∃ y ∈ w.db.users, y.isActive = true ∧ y.id = x.id :=
    fun he => flag_of_map _ _ (fun _ ha _ => he ▸ ha)
  by_cases hdb : o.kind ∈ dbWrites
  · cases o with
    | user q =>
      rw [handle_user]
      cases q with
      | create newUser =>
        rcases create_cases c (w.evolve c).now w.db newUser with ⟨e, hc⟩ | ⟨fitted, db', -, hc, -, hu⟩
        · simp only [UserRepository.handle, hc]
          exact hsame rfl
        · simp only [UserRepository.handle, hc]
          intro x hx hactive
          rcases List.mem_append.mp (hu ▸ hx) with hx | hx
          · exact ⟨x, hx, hactive, rfl⟩
          · rw [List.mem_singleton.mp hx] at hactive
            cases hactive
      | setVerificationToken userId token =>
        rcases setVerificationToken_cases c (w.evolve c).now w.db userId token with
          ⟨e, hc⟩ | ⟨text, db', -, hc, -, hu⟩
        · simp only [UserRepository.handle, hc]
          exact hsame rfl
        · simp only [UserRepository.handle, hc]
          exact hsame (hu ▸ map_updateWhere _ _ (fun _ => rfl))
      | updatePassword email hash =>
        rcases updatePassword_cases c w.db email hash with ⟨e, hc⟩ | ⟨text, db', -, hc, -, hu⟩
        · simp only [UserRepository.handle, hc]
          exact hsame rfl
        · simp only [UserRepository.handle, hc]
          exact hsame (hu ▸ map_updateWhere _ _ (fun _ => rfl))
      | _ => simp [quiet, dbWrites] at h hdb
    | wallet q =>
      rw [handle_wallet]
      cases q with
      | persistCustodialWallet userId walletAddress label key kdfVersion =>
        rcases WalletRepository.persistCustodialWallet_cases c (w.evolve c).now w.db userId
          walletAddress label key kdfVersion with ⟨e, hp⟩ | ⟨row, address, db', -, -, -, hp, -, hu⟩
        · simp only [WalletRepository.handle, hp]
          exact hsame rfl
        · simp only [WalletRepository.handle, hp]
          exact hsame (hu ▸ map_updateWhere _ _ (fun _ => rfl))
      | _ => simp [quiet, dbWrites] at h hdb
    | cache q => exact hsame rfl
    | bus q => exact hsame rfl
    | chain q => exact hsame rfl
    | host q => exact hsame (by rw [handle_host_db])
  · exact hsame (by rw [self.handle_db_of_kind hdb])

/-- A verification activates the accounts with its email. -/
theorem active_after_verification (email : String) :
    ∀ x ∈ (self.handle c w (.user (.verifyEmail email))).2.db.users, x.isActive = true →
      ∃ y ∈ w.db.users, (y.isActive = true ∨ y.email = email) ∧ y.id = x.id := by
  rw [handle_user]
  rcases verifyEmail_cases c w.db email with ⟨e, hv⟩ | hv
  · simp only [UserRepository.handle, hv]
    exact fun x hx hactive => ⟨x, hx, .inl hactive, rfl⟩
  · simp only [UserRepository.handle, hv]
    intro x hx hactive
    obtain ⟨y, hy, rfl⟩ := mem_updateWhere.mp hx
    by_cases he : y.email = email
    · exact ⟨y, hy, .inr he, by split <;> rfl⟩
    · rw [if_neg (by simpa using he)] at hactive ⊢
      exact ⟨y, hy, .inl hactive, rfl⟩

/-- The users that are active after a permitted operation have been verified. -/
theorem users_step {s : self.State × History self} {o : Op} (h : Sound self s)
    (hp : permitted self s o) :
    ∀ x ∈ (self.handle c s.1 o).2.db.users, x.isActive = true → Verified self s.2 x.id := by
  intro x hx hactive
  obtain ⟨husers, -, -, -⟩ := h
  by_cases hq : o.kind ∈ quiet
  · obtain ⟨y, hy, hya, hid⟩ := active_before c s.1 hq x hx hactive
    exact hid ▸ husers y hy hya
  · unfold permitted at hp
    split at hp
    · rw [handle_host_db] at hx
      exact husers x hx hactive
    · obtain ⟨y, hy, hya | hye, hid⟩ := active_after_verification c s.1 _ x hx hactive
      · exact hid ▸ husers y hy hya
      · exact hid ▸ hp y hy hye
    · exact husers x hx hactive
    · exact absurd hp hq

theorem discipline_sound : (discipline self).Sound (recorded self.handle) where
  refl := fun s => ⟨List.prefix_rfl, .refl _⟩
  trans := fun h₁ h₂ => ⟨h₁.1.trans h₂.1, h₁.2.trans h₂.2⟩
  rely_step := fun {c s o} _ _ _ => ⟨List.prefix_append _ _, self.handle_retained c s.1 o⟩
  inv_step := by
    intro c s o hs hp _
    have hgrow : ∀ {userId}, Verified self s.2 userId →
        Verified self (recorded self.handle c s o).2.2 userId :=
      fun hv => hv.mono (List.prefix_append _ _)
    have husers := users_step c hs hp
    obtain ⟨-, hcache, hissued, hsessions⟩ := hs
    change permitted self s o at hp
    refine ⟨fun x hx hactive => hgrow (husers x hx hactive), ?_, ?_, ?_⟩
    · intro key p t hentry
      rcases self.profile_before hentry with ⟨t', hold⟩ | ⟨ttl, rfl⟩
      · exact hgrow (hcache key p t' hold)
      · exact hgrow hp
    · intro token htoken
      rcases self.issued_handle c s.1 o with h | ⟨claims, rfl, h⟩
      · exact hgrow (hissued token (h ▸ htoken))
      · rcases List.mem_append.mp (h ▸ htoken) with htoken | htoken
        · exact hgrow (hissued token htoken)
        · rw [List.mem_singleton.mp htoken]
          exact hgrow hp
    · refine sessionsVerified_append hsessions ?_
      rintro claims rfl
      exact hp

end Soundness

section Programs

variable {s : self.State × History self}

theorem permitted_quiet (s : self.State × History self) {o : Op} (h : o.kind ∈ quiet) :
    (discipline self).permits s o := by
  change permitted self s o
  unfold permitted
  split
  · simp [quiet] at h
  · simp [quiet] at h
  · simp [quiet] at h
  · exact h

theorem limited_safe {α : Type} {kinds : List OpKind} {p : Program α} (h : Limited kinds p)
    (hk : ∀ k ∈ kinds, k ∈ quiet) (s : self.State × History self) :
    Safe (recorded self.handle) (discipline self) (fun _ _ => True) p s :=
  Issues.safe (fun s o ho => permitted_quiet s (hk o.kind ho)) h s

/-- A token is signed for a user who has been verified. -/
theorem mintToken_safe {userId : Uuid} (username role : String) (hv : Verified self s.2 userId) :
    Safe (recorded self.handle) (discipline self) (fun _ _ => True)
      (mintToken userId username role).run s := by
  refine Safe.observeBind ?_
  intro t ht _
  refine ⟨permitted_quiet t (by simp [quiet]), fun c _ => ?_⟩
  intro t' ht' _
  have hgrow : s.2 <+: t'.2 := ht.1.trans ((List.prefix_append _ _).trans ht'.1)
  exact ⟨hv.mono hgrow, fun _ _ => trivial⟩

/-- The database shows active accounts only. -/
theorem fetchProfile_safe (username : String) : Safe (recorded self.handle) (discipline self)
    (fun r t => ∀ user, r = .ok user → Verified self t.2 user.user.id)
    (fetchProfile username).run s := by
  refine Safe.bindExcept ?_
  intro t _ hsound
  refine ⟨permitted_quiet t (by simp [quiet]), fun c _ => ?_⟩
  rw [safe_ret, recorded_ans]
  have hans : (self.handle c t.1 (.user (.findByUsernameOrEmail username))).1 =
    select c [username] (lookup c.pick t.1.db username) := rfl
  rw [hans]
  cases hfind : select c [username] (lookup c.pick t.1.db username) with
  | error e =>
    intro _ h
    cases h
  | ok found =>
    cases found with
    | none =>
      intro _ h
      cases h
    | some user =>
      obtain ⟨r, hr, hru⟩ := Option.map_eq_some_iff.mp (select_ok hfind).1.symm
      obtain ⟨hmem, hnamed⟩ := limitOne_some hr
      have hactive : r.isActive = true := by
        simp only [named, Bool.decide_and, Bool.and_eq_true, decide_eq_true_eq] at hnamed
        exact hnamed.2
      obtain ⟨husers, -, -, -⟩ := hsound
      have hv : Verified self t.2 user.user.id := hru ▸ husers r hmem hactive
      refine Safe.observeBind ?_
      intro t' ht' _
      have hgrow : t.2 <+: t'.2 := (List.prefix_append _ _).trans ht'.1
      refine ⟨hv.mono hgrow, fun c' _ => ?_⟩
      rw [safe_ret]
      intro _ h
      cases h
      exact hv.mono (hgrow.trans (List.prefix_append _ _))

theorem loginProfile_safe (username : String) : Safe (recorded self.handle) (discipline self)
    (fun r t => ∀ user, r = .ok user → Verified self t.2 user.user.id)
    (self.loginProfile username).run s := by
  rw [loginProfile_eq]
  intro t _ hsound
  refine ⟨permitted_quiet t (by simp [quiet]), fun c _ => ?_⟩
  dsimp only
  cases hshown : cachedProfile (recorded self.handle c t
      (.cache (.getValue (CacheKeys.userProfile username)))).1 with
  | none => exact fetchProfile_safe username
  | some user =>
    rw [safe_ret]
    intro _ h
    cases h
    obtain ⟨e, hentry, -, hvalue⟩ := Store.get_eq_some.mp (self.cachedProfile_shown hshown)
    obtain ⟨-, hcache, -, -⟩ := hsound
    obtain ⟨value, expiry⟩ := e
    cases hvalue
    exact (hcache _ user expiry hentry).mono (List.prefix_append _ _)

theorem login_safe (username password : String) :
    Safe (recorded self.handle) (discipline self) (fun _ _ => True)
      (self.login username password).run s := by
  refine Safe.observeBind ?_
  intro t _ _
  refine ⟨permitted_quiet t (by simp [quiet]), fun c _ => ?_⟩
  rw [safe_ret]
  split
  · exact limited_safe (show Limited [.publish] _ by simp [Limited, eventBus]) (by decide) _
  · refine Safe.bindExcept ((loginProfile_safe username).mono ?_)
    intro r t' hr
    cases r with
    | error e => trivial
    | ok user =>
      have hv := hr user rfl
      refine Safe.bindExcept ?_
      intro t'' ht'' _
      refine ⟨permitted_quiet t'' (by simp [quiet]), fun c' _ => ?_⟩
      have hgrow : t'.2 <+: (recorded self.handle c' t''
          (.host (.verifyPassword password user.passwordHash))).2.2 :=
        ht''.1.trans (List.prefix_append _ _)
      rw [safe_ret]
      cases (recorded self.handle c' t'' (.host (.verifyPassword password user.passwordHash))).1 with
      | error e => trivial
      | ok valid =>
        dsimp only
        split
        · refine Safe.observeBind ?_
          intro t₃ ht₃ _
          refine ⟨permitted_quiet t₃ (by simp [quiet]), fun c₃ _ => ?_⟩
          refine Safe.andThen (mintToken_safe _ _ (hv.mono ?_)) ?_
          · exact hgrow.trans (ht₃.1.trans (List.prefix_append _ _))
          · intro token v
            exact limited_safe (show Limited [.publish] _ by simp [Limited, eventBus]) (by decide) v
        · exact limited_safe (failedLogin_limited username) (by decide) _

/-- Only a token that was signed here is refreshed. -/
theorem decodeToken_ok {now : ℕ} {issued : List Jwt} {token : Jwt} {claims : Claims}
    (h : JwtService.decodeToken now issued token = .ok claims) :
    token ∈ issued ∧ claims = token.claims := by
  unfold JwtService.decodeToken at h
  split at h
  · cases h
  · rename_i hmem
    split at h
    · cases h
    · cases h
      exact ⟨not_not.mp hmem, rfl⟩

theorem refreshToken_safe (token : Jwt) :
    Safe (recorded self.handle) (discipline self) (fun _ _ => True)
      (self.refreshToken token).run s := by
  refine Safe.bindExcept ?_
  intro t _ hsound
  refine ⟨permitted_quiet t (by simp [quiet]), fun c _ => ?_⟩
  rw [safe_ret]
  cases hdecode : (recorded self.handle c t (.host (.decodeToken token))).1 with
  | error e => trivial
  | ok claims =>
    obtain ⟨hmem, rfl⟩ := decodeToken_ok hdecode
    obtain ⟨-, -, hissued, -⟩ := hsound
    refine Safe.andThen (mintToken_safe _ _ ((hissued token hmem).mono ?_)) (fun _ _ => trivial)
    exact List.prefix_append _ _

/-- The account with the email has been verified. -/
def Confirmed (self : AuthService) (s : self.State × History self) (email : String) : Prop :=
  ∃ x ∈ s.1.db.users, x.email = email ∧ Verified self s.2 x.id

theorem Confirmed.later {s t : self.State × History self} {email : String}
    (h : Confirmed self s email) (ht : (discipline self).rely s t) : Confirmed self t email := by
  obtain ⟨x, hx, he, hv⟩ := h
  obtain ⟨hstart, hretained⟩ := ht
  obtain ⟨y, hy, hxy⟩ := hretained x hx
  exact ⟨y, hy, hxy.email.trans he, hxy.id ▸ hv.mono hstart⟩

/-- An email belongs to one account. -/
theorem Confirmed.verified {s : self.State × History self} {email : String}
    (h : Confirmed self s email) {y : UserRow} (hy : y ∈ s.1.db.users) (he : y.email = email) :
    Verified self s.2 y.id := by
  obtain ⟨x, hx, hxe, hv⟩ := h
  rwa [s.1.db.user_eq_of_email hy hx (he.trans hxe.symm)]

/-- In production an address comes from a token that is stored for it. -/
theorem verifiedAddress_safe (hprod : eqIgnoreAsciiCase self.config.environment "production" = true)
    (token : String) : Safe (recorded self.handle) (discipline self)
      (fun r t => ∀ email, r = .ok email → Confirmed self t email)
      (self.verifiedAddress token).run s := by
  unfold verifiedAddress
  rw [if_neg (fun h => h.1 hprod)]
  refine Safe.bindExcept ?_
  intro t _ _
  refine ⟨permitted_quiet t (by simp [quiet]), fun c _ => ?_⟩
  rw [safe_ret]
  cases hfind : (recorded self.handle c t (.user (.findEmailByToken token))).1 with
  | error e =>
    intro _ h
    cases h
  | ok found =>
    cases found with
    | none =>
      intro _ h
      cases h
    | some email =>
      intro _ h
      cases h
      obtain ⟨r, hr, hre⟩ := Option.map_eq_some_iff.mp (select_ok hfind).1.symm
      obtain ⟨hmem, hholds⟩ := limitOne_some hr
      refine ⟨r, hmem, hre, _, List.mem_append_right _ (List.mem_singleton.mpr rfl), ?_⟩
      rw [recorded_ans] at hfind
      rw [hfind]
      exact ⟨r, hmem, rfl, hre, hholds⟩

/-- Provisioning keeps the user. -/
theorem ensureWallet_returns (user : User) :
    Returns (fun r => ∀ u, r = .ok u → u.id = user.id) (self.ensureWallet user).run := by
  refine Returns.observeBind ?_
  intro hasWallet
  split
  · refine Returns.observeBind ?_
    intro wallet
    cases wallet <;> simp
  · simp

theorem ensureWallet_safe (user : User) : Safe (recorded self.handle) (discipline self)
    (fun r t => (∀ u, r = .ok u → u.id = user.id) ∧ s.2 <+: t.2) (self.ensureWallet user).run s := by
  have hquiet : Safe (recorded self.handle) (discipline self) (fun _ _ => True)
      (self.ensureWallet user).run s :=
    limited_safe (self.ensureWallet_limited user) (by decide) s
  refine ((ensureWallet_returns user).safe (hquiet.reaches discipline_sound)).mono ?_
  rintro r t ⟨hid, ht, -⟩
  exact ⟨hid, ht.1⟩

/-- A verification answers with the account of the email. -/
theorem verifyEmail_answer {c : Choice} {w : self.State} {email : String} {user : User}
    (h : (self.handle c w (.user (.verifyEmail email))).1 = .ok (some user)) :
    ∃ y ∈ w.db.users, y.email = email ∧ y.id = user.id := by
  rw [handle_user, UserRepository.handle] at h
  rcases verifyEmail_cases c w.db email with ⟨e, hv⟩ | hv
  · rw [hv] at h
    cases h
  · rw [hv] at h
    obtain ⟨x, hx, rfl⟩ := Option.map_eq_some_iff.mp (Except.ok.inj h)
    obtain ⟨y, hy, hxy⟩ := mem_updateWhere.mp (List.mem_of_find?_eq_some hx)
    have hsame : x.email = y.email ∧ x.id = y.id := by
      rw [← hxy]
      split <;> exact ⟨rfl, rfl⟩
    have he : x.email = email := by simpa using List.find?_some hx
    exact ⟨y, hy, hsame.1.symm.trans he, hsame.2.symm⟩

theorem verifyEmail_safe (hprod : eqIgnoreAsciiCase self.config.environment "production" = true)
    (token : String) : Safe (recorded self.handle) (discipline self) (fun _ _ => True)
      (self.verifyEmail token).run s := by
  refine Safe.bindExcept ((verifiedAddress_safe hprod token).mono ?_)
  intro r t hr
  cases r with
  | error e => trivial
  | ok email =>
    have hconfirmed := hr email rfl
    refine Safe.bindExcept ?_
    intro t₁ ht₁ _
    have hverified := fun y hy he => (hconfirmed.later ht₁).verified (y := y) hy he
    refine ⟨hverified, fun c _ => ?_⟩
    rw [safe_ret]
    cases hans : (recorded self.handle c t₁ (.user (.verifyEmail email))).1 with
    | error e => trivial
    | ok activated =>
      cases activated with
      | none => trivial
      | some user =>
        obtain ⟨y, hy, he, hid⟩ := verifyEmail_answer hans
        have hv : Verified self t₁.2 user.id := hid ▸ hverified y hy he
        refine Safe.bindExcept ((ensureWallet_safe user).mono ?_)
        intro r t₂ hr₂
        cases r with
        | error e => trivial
        | ok u =>
          obtain ⟨hsame, ht₂⟩ := hr₂
          have hgrow : t₁.2 <+: t₂.2 := (List.prefix_append _ _).trans ht₂
          refine Safe.andThen (mintToken_safe _ _ (hsame u rfl ▸ hv.mono hgrow)) ?_
          intro token v
          exact limited_safe (show Limited [.publish, .deleteKey] _ by
            simp [Limited, eventBus, cache]) (by decide) v

theorem call_safe (hprod : eqIgnoreAsciiCase self.config.environment "production" = true)
    {call : Call} (h : AccountCall call) : Safe (recorded self.handle) (discipline self)
      (fun _ _ => True) (self.method call).run s := by
  cases h with
  | register username email password firstName lastName =>
    exact limited_safe (self.register_limited _ _ _ _ _) (by simp [quiet]) s
  | resendVerification email =>
    exact limited_safe (self.resendVerification_limited email) (by simp [quiet]) s
  | verifyEmail token => exact verifyEmail_safe hprod token
  | login username password => exact login_safe username password
  | refreshToken token => exact refreshToken_safe token
  | forgotPassword email => exact limited_safe (self.forgotPassword_limited email) (by simp [quiet]) s
  | resetPassword token newPassword =>
    exact limited_safe (self.resetPassword_limited token newPassword) (by simp [quiet]) s

end Programs

/-- A token is looked up by the verification it was given to, and by no other call. -/
theorem looked_up_by_verification {call : Call} (h : AccountCall call) :
    Issues (fun o => ∀ token, o = .user (.findEmailByToken token) → call = .verifyEmail token)
      (self.method call).run := by
  have hother : ∀ {α : Type} {kinds : List OpKind} {p : Program α}, Limited kinds p →
      .findEmailByToken ∉ kinds →
      Issues (fun o => ∀ token, o = .user (.findEmailByToken token) → call = .verifyEmail token) p := by
    intro α kinds p hp hk
    refine Issues.mono ?_ hp
    rintro o ho token rfl
    exact absurd ho hk
  cases h with
  | verifyEmail token =>
    refine Issues.bindExcept ?_ ?_
    · unfold verifiedAddress
      split
      · simp
      · refine Issues.bindExcept (by simp [userRepo]) ?_
        intro email
        cases email <;> simp
    · intro email
      refine Issues.bindExcept (by simp [userRepo]) ?_
      intro activated
      cases activated with
      | none => simp
      | some activated =>
        refine Issues.bindExcept (hother (self.ensureWallet_limited _) (by decide)) ?_
        intro user
        exact hother (self.verifiedSession_limited user) (by decide)
  | register username email password firstName lastName =>
    exact hother (self.register_limited _ _ _ _ _) (by simp)
  | resendVerification email => exact hother (self.resendVerification_limited email) (by simp)
  | login username password => exact hother (self.login_limited username password) (by simp)
  | refreshToken token => exact hother (self.refreshToken_limited token) (by simp)
  | forgotPassword email => exact hother (self.forgotPassword_limited email) (by simp)
  | resetPassword token newPassword =>
    exact hother (self.resetPassword_limited token newPassword) (by simp)

theorem sound_start {s : self.State × History self} (h : Start self s) : Sound self s := by
  obtain ⟨hhistory, husers, hcache, hissued⟩ := h
  refine ⟨?_, ?_, ?_, ?_⟩
  · intro x hx hactive
    rw [husers x hx] at hactive
    cases hactive
  · intro key p t hentry
    rw [hcache key] at hentry
    cases hentry
  · intro token htoken
    rw [hissued] at htoken
    cases htoken
  · intro h₁ ob h₂ he
    rw [hhistory] at he
    simp at he

/-- In production every access token that is ever signed was preceded by the lookup of the
verification token stored for its user, and such a lookup is made by `verifyEmail` with its
own argument. -/
theorem sessions_follow_verification
    (hprod : eqIgnoreAsciiCase self.config.environment "production" = true)
    {s : self.State × History self} {ps : List (Program AuthService.Returned)}
    (h : Reach (recorded self.handle) (Launched self) (fun _ _ _ => True) (Start self) s ps) :
    SessionsVerified self s.2 ∧ ∀ call, AccountCall call →
      Issues (fun o => ∀ token, o = .user (.findEmailByToken token) → call = .verifyEmail token)
        (self.program call) := by
  refine ⟨?_, ?_⟩
  · have hsound : Sound self s := by
      refine Reach.inv discipline_sound (fun s hs => sound_start hs) ?_ h
      rintro s p - ⟨call, hcall, rfl⟩
      exact Safe.bind ((call_safe hprod hcall).mono (fun _ _ _ => trivial))
    obtain ⟨-, -, -, hsessions⟩ := hsound
    exact hsessions
  · intro call hcall
    exact Issues.bind (looked_up_by_verification hcall) (fun _ => trivial)

section Alice

/-- Alice registers, verifies her email and logs in. -/
def aliceCalls : List Call :=
  [.register "alice" "alice@example.com" "Str0ng!Pass" none none, .verifyEmail aliceToken,
    .login "alice" "Str0ng!Pass"]

/-- The calls one after the other; the registration draws the id 1 and the token 2. -/
def oneByOne : List (ℕ × Choice) :=
  (List.replicate 6 0 ++ List.replicate 12 1 ++ List.replicate 9 2).mapIdx
    (fun n i => (i, oracle [{}, { uuid := ⟨1⟩ }, { uuid := ⟨2⟩ }] n))

/-- The verification and the login each sign a token. -/
theorem sessions_of_alice_follow_verification :
    ((schedule (recorded service.handle) ((World.empty _, []), aliceCalls.map service.program)
        oneByOne).1.2.map (fun ob => ob.op.kind)).count .encodeToken = 2 ∧
      SessionsVerified service (schedule (recorded service.handle)
        ((World.empty _, []), aliceCalls.map service.program) oneByOne).1.2 := by
  have hcalls : ∀ call ∈ aliceCalls, AccountCall call := by
    simp only [aliceCalls, List.forall_mem_cons, List.not_mem_nil, false_implies, implies_true,
      and_true]
    exact ⟨.register .., .verifyEmail _, .login ..⟩
  have hpool : Reach (recorded service.handle) (Launched service) (fun _ _ _ => True)
      (Start service) (World.empty _, []) (aliceCalls.map service.program) := by
    refine Reach.pool ⟨rfl, by simp [World.empty, Database.empty], fun _ => rfl, rfl⟩ _ ?_
    intro p hp
    obtain ⟨call, hcall, rfl⟩ := List.mem_map.mp hp
    exact ⟨call, hcalls call hcall, rfl⟩
  have hprod : eqIgnoreAsciiCase service.config.environment "production" = true := by
    decide +kernel
  have hrun := hpool.schedule oneByOne (Admitted.of_forall (fun _ _ _ => trivial) _ _)
  exact ⟨by decide +kernel, (sessions_follow_verification hprod hrun).1⟩

end Alice

end IamService.SessionVerification
