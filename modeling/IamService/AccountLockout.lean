import IamService.LoginRuns
import IamService.ReferenceStates

/-!
# What an account lock covers

The fifth failure locks the identifier under which the logins were made, not the account.
Logins never shorten a lock, so for fifteen minutes every login under the locked identifier
is refused. The account is covered as long as the logins that resolve to it use that
identifier.
-/

namespace IamService.AccountLockout
open EffectPrograms ExpiringStore RelationTables UserRepository AuthService ReferenceLibraries

variable (self : AuthService)

/-- A login with the choices of its environment. -/
structure Login where
  identifier : String
  password : String
  oracle : ℕ → Choice

abbrev Login.request (l : Login) : Request := ⟨.login l.identifier l.password, l.oracle⟩

/-- The cache does not fail. -/
def CacheUp (c : Choice) (_ : self.State) : Op → Prop
  | .cache _ => c.fails = false
  | _ => True

instance (c : Choice) (w : self.State) (o : Op) : Decidable (CacheUp self c w o) := by
  unfold CacheUp
  split <;> infer_instance

/-- The cache does not fail, and no time passes once the lock is written. -/
def Prompt (c : Choice) (_ : self.State) : Op → Prop
  | .cache (.delete _) => c.fails = false ∧ c.elapsed = 0
  | .cache _ => c.fails = false
  | .bus (.publish (.accountLocked ..)) => c.elapsed = 0
  | _ => True

instance (c : Choice) (w : self.State) (o : Op) : Decidable (Prompt self c w o) := by
  unfold Prompt
  split <;> infer_instance

/-- The answer to the login that locks the identifier. -/
def lockedNow : Result AuthResult := .error (.withCode .accountLocked accountLockedMessage)

/-- The identifier may lead a login to the user, through the cache or the database. -/
def Resolves (w : self.State) (identifier : String) (userId : Uuid) : Prop :=
  (∃ p, w.cache.get w.now (CacheKeys.userProfile identifier) = some (.profile p) ∧
      p.user.id = userId) ∨
    ∃ u ∈ w.db.users, named identifier u = true ∧ u.id = userId

/-- A login during which the cache does not fail. Before the lock of `identifier` expires, a
login under another identifier does not resolve to the user. -/
def Allowed (identifier : String) (userId : Uuid) (release : ℕ) (w : self.State) (r : Request) :
    Prop :=
  Encounters self.handle (CacheUp self) (self.method r.call).run r.oracle w ∧
    match r.call with
    | .login used _ => used = identifier ∨ release ≤ w.now + (r.oracle 0).elapsed ∨
        ¬ Resolves self w used userId
    | _ => False

/-- The identifier is locked, and stays so at least until `release`. -/
structure LockedUntil (identifier : String) (release : ℕ) (w : self.State) : Prop where
  entry : ∃ t, w.cache (CacheKeys.accountLock identifier) = some ⟨.flag true, some t⟩ ∧ release ≤ t
  bound : release ≤ w.now + secs loginLockoutSecs

variable {self}

theorem Prompt.cacheUp {c : Choice} {w : self.State} {o : Op} (h : Prompt self c w o) :
    CacheUp self c w o := by
  cases o with
  | cache q =>
    cases q with
    | delete key => exact h.1
    | _ => exact h
  | _ => trivial

section Persistence

variable {identifier : String}

/-- The operation leaves a lock alone or writes it anew. -/
def KeepsLock (identifier : String) (o : Op) : Prop :=
  o.writtenKey ≠ some (CacheKeys.accountLock identifier) ∨
    o = .cache (.setValue (CacheKeys.accountLock identifier) (.flag true) (some loginLockoutSecs))

theorem failedLogin_keepsLock (used : String) :
    Issues (KeepsLock identifier) (failedLogin used).run := by
  refine Issues.bindExcept (by simp [cache, KeepsLock]) ?_
  intro counted
  refine Issues.bindExcept (by simp [eventBus, KeepsLock]) ?_
  intro _
  split
  · refine Issues.bindExcept ?_ ?_
    · by_cases h : used = identifier
      · subst h
        simp [cacheSet, cache, KeepsLock]
      · simp [cacheSet, cache, KeepsLock, h]
    · intro _
      simp [cache, eventBus, KeepsLock]
  · simp

theorem spares_keepsLock {α : Type} {p : Program α}
    (h : Spares (CacheKeys.accountLock identifier) p) : Issues (KeepsLock identifier) p :=
  Issues.mono (fun _ ho => .inl ho) h

theorem login_keepsLock (used password : String) :
    Issues (KeepsLock identifier) (self.login used password).run := by
  refine Issues.bindExcept (by simp [cache, KeepsLock]) ?_
  intro locked
  split
  · simp [eventBus, KeepsLock]
  · refine Issues.bindExcept (spares_keepsLock (loginProfile_spares (by simp))) ?_
    intro user
    refine Issues.bindExcept (by simp [host, KeepsLock]) ?_
    intro isValid
    split
    · refine spares_keepsLock (successfulLogin_spares ?_)
      exact (CacheKeys.loginAttempts_ne_accountLock used identifier).symm
    · exact failedLogin_keepsLock used

/-- A lock that is written anew lasts longer. -/
theorem LockedUntil.step {release : ℕ} {w : self.State} {o : Op}
    (h : LockedUntil self identifier release w) (ho : KeepsLock identifier o) (c : Choice) :
    LockedUntil self identifier release (self.handle c w o).2 := by
  obtain ⟨⟨t, hentry, ht⟩, hbound⟩ := h
  have hnow := self.now_handle c w o
  refine ⟨?_, by omega⟩
  rcases ho with ho | rfl
  · exact ⟨t, (self.handle_cache_of_key ho c w).trans hentry, ht⟩
  · cases hf : c.fails with
    | true => exact ⟨t, by simp [handle_cache, CacheService.handle, hf, hentry], ht⟩
    | false =>
      refine ⟨w.now + c.elapsed + secs loginLockoutSecs, ?_, by omega⟩
      simp [handle_cache, CacheService.handle, hf, loginLockoutSecs]

theorem LockedUntil.login {release : ℕ} {w : self.State}
    (h : LockedUntil self identifier release w) (used password : String) (o : ℕ → Choice) :
    LockedUntil self identifier release (run self.handle (self.login used password).run o w).2 :=
  Issues.run (fun w v => LockedUntil self identifier release w → LockedUntil self identifier release v)
    (fun _ h => h) (fun h₁ h₂ h => h₂ (h₁ h)) (fun c _ _ ho h => h.step ho c)
    (login_keepsLock used password) o w h

end Persistence

section Locking

variable {identifier : String} {w : self.State} {A : Choice → self.State → Op → Prop}

theorem select_ne_locked {α : Type} {c : Choice} {params : List String} {a : α} {e : ApiError}
    (h : select c params a = .error e) : e ≠ .withCode .accountLocked accountLockedMessage := by
  unfold select at h
  split at h
  · cases h
    simp
  · split at h
    · cases h
    · cases h
      simp

theorem verifyPassword_ne_locked {password hash : String} {e : ApiError}
    (h : PasswordService.verifyPassword self.lib password hash = .error e) :
    e ≠ .withCode .accountLocked accountLockedMessage := by
  unfold PasswordService.verifyPassword at h
  split at h
  · split at h
    · cases h
      simp
    · cases h
  · split at h
    · split at h
      · cases h
        simp
      · cases h
    · cases h
      simp

theorem hostError_ne_locked {c : Choice} {v : self.State} {password hash : String} {e : ApiError}
    (h : (self.handle c v (.host (.verifyPassword password hash))).1 = .error e) :
    e ≠ .withCode .accountLocked accountLockedMessage := by
  rw [handle_host] at h
  simp only [hostHandle] at h
  split at h
  · cases h
    simp
  · exact verifyPassword_ne_locked h

/-- A session that cannot be opened does not lock anything either. -/
theorem successfulLogin_ne_locked {used : String} {user : User} :
    Safe self.handle (Discipline.solo A) (fun r _ => r ≠ lockedNow)
      (self.successfulLogin used user).run w := by
  refine Safe.observeBind (safe_solo_eff.mpr ?_)
  intro _ _
  rw [safe_ret]
  refine Safe.bindExcept (Safe.observeBind (safe_solo_eff.mpr ?_))
  intro c₂ _
  refine safe_solo_eff.mpr ?_
  intro c₃ _
  rw [safe_ret]
  cases hf : c₃.fails with
  | true =>
    simp only [handle_host, hostHandle, hf, if_true]
    intro h
    cases h
  | false =>
    simp only [handle_host, hostHandle, hf, Bool.false_eq_true, if_false]
    refine Safe.observeBind (safe_solo_eff.mpr ?_)
    intro _ _
    rw [safe_ret]
    intro h
    cases h

/-- A profile that is not found does not lock anything. -/
theorem loginProfile_ne_locked (used : String) :
    Safe self.handle (Discipline.solo A)
      (fun r _ => r ≠ .error (.withCode .accountLocked accountLockedMessage))
      (self.loginProfile used).run w := by
  rw [loginProfile_eq]
  refine safe_solo_eff.mpr ?_
  intro c _
  split
  · rw [safe_ret]
    intro h
    cases h
  · refine Safe.bindExcept (safe_solo_eff.mpr ?_)
    intro c' _
    rw [safe_ret]
    cases hfind : (self.handle c' _ (.user (.findByUsernameOrEmail used))).1 with
    | error e =>
      intro h
      cases h
      exact select_ne_locked hfind rfl
    | ok found =>
      cases found with
      | none =>
        intro h
        cases h
      | some user =>
        refine Safe.observeBind (safe_solo_eff.mpr ?_)
        intro _ _
        rw [safe_ret]
        intro h
        cases h

/-- The lock was written since an earlier state and lasts fifteen minutes from then. It was
written in the present instant if operations that meet `A` are prompt. -/
def LockWritten (A : Choice → self.State → Op → Prop) (identifier : String) (w v : self.State) :
    Prop :=
  ∃ written, w.now ≤ written ∧ written ≤ v.now ∧
    ((∀ c u o, A c u o → Prompt self c u o) → written = v.now) ∧
    v.cache (CacheKeys.accountLock identifier) =
      some ⟨.flag true, some (written + secs loginLockoutSecs)⟩

theorem LockWritten.since {u v : self.State} (h : LockWritten A identifier u v)
    (hnow : w.now ≤ u.now) : LockWritten A identifier w v := by
  obtain ⟨written, hafter, hrest⟩ := h
  exact ⟨written, hnow.trans hafter, hrest⟩

/-- The call that locks the identifier has written the lock. -/
theorem failedLogin_locks (hA : ∀ c u o, A c u o → CacheUp self c u o) :
    Safe self.handle (Discipline.solo A) (fun r v => r = lockedNow → LockWritten A identifier w v)
      (failedLogin identifier).run w := by
  refine Safe.observeBind (safe_solo_eff.mpr ?_)
  intro c₁ _
  rw [safe_ret]
  refine Safe.observeBind (safe_solo_eff.mpr ?_)
  intro c₂ _
  rw [safe_ret]
  split
  · refine Safe.observeBind (safe_solo_eff.mpr ?_)
    intro c₃ hc₃
    rw [safe_ret]
    refine Safe.observeBind (safe_solo_eff.mpr ?_)
    intro c₄ hc₄
    rw [safe_ret]
    refine Safe.observeBind (safe_solo_eff.mpr ?_)
    intro c₅ hc₅
    rw [safe_ret]
    intro _
    have hup₃ : c₃.fails = false := hA _ _ _ hc₃
    have hup₄ : c₄.fails = false := hA _ _ _ hc₄
    have hne := (CacheKeys.loginAttempts_ne_accountLock identifier identifier).symm
    refine ⟨w.now + c₁.elapsed + c₂.elapsed + c₃.elapsed, ?_, ?_, ?_, ?_⟩
    · omega
    · simp [handle_bus, handle_cache]
      omega
    · intro hprompt
      obtain ⟨-, hat₄⟩ : c₄.fails = false ∧ c₄.elapsed = 0 := hprompt _ _ _ hc₄
      have hat₅ : c₅.elapsed = 0 := hprompt _ _ _ hc₅
      simp [handle_bus, handle_cache, hat₄, hat₅]
    · simp [handle_bus, handle_cache, CacheService.handle, hup₃, hup₄, loginLockoutSecs, hne]
  · intro h
    cases h

theorem still_locked_ne : (.error (.withCode .accountLocked
    "Account temporarily locked due to too many failed attempts") : Result AuthResult) ≠ lockedNow := by
  intro h
  have hmessage : "Account temporarily locked due to too many failed attempts" =
      accountLockedMessage := (ApiError.withCode.inj (Except.error.inj h)).2
  exact absurd hmessage (by decide +kernel)

theorem login_locks (hA : ∀ c u o, A c u o → CacheUp self c u o) (password : String) :
    Safe self.handle (Discipline.solo A) (fun r v => r = lockedNow → LockWritten A identifier w v)
      (self.login identifier password).run w := by
  refine Safe.observeBind (safe_solo_eff.mpr ?_)
  intro c₁ _
  rw [safe_ret]
  split
  · refine Safe.observeBind (safe_solo_eff.mpr ?_)
    intro _ _
    rw [safe_ret]
    exact fun h => absurd h still_locked_ne
  · refine Safe.bindExcept ((Safe.keeps (fun u v : self.State => u.now ≤ v.now)
      (fun _ => Nat.le_refl _) Nat.le_trans self.now_handle
      (loginProfile_ne_locked identifier)).mono ?_)
    rintro r v ⟨hv, hr⟩
    have hnow : w.now ≤ v.now := (self.now_handle c₁ w _).trans hv
    cases r with
    | error e =>
      intro h
      exact absurd (congrArg _ (Except.error.inj h)) hr
    | ok user =>
      refine Safe.bindExcept (safe_solo_eff.mpr ?_)
      intro c₂ _
      rw [safe_ret]
      cases hverify : (self.handle c₂ v (.host (.verifyPassword password user.passwordHash))).1 with
      | error e =>
        intro h
        have he := hostError_ne_locked hverify
        exact absurd (Except.error.inj h) he
      | ok valid =>
        cases valid with
        | false =>
          refine (failedLogin_locks hA).mono ?_
          intro r u hu h
          exact (hu h).since (hnow.trans (self.now_handle c₂ v _))
        | true => exact successfulLogin_ne_locked.mono (fun r v hr h => absurd h hr)

end Locking

section Resolution

variable (w : self.State)

/-- The database shows a profile of a row with the identifier. -/
theorem fetchProfile_resolves {v : self.State} (hdb : v.db = w.db) (used : String) :
    Safe self.handle (Discipline.solo (fun _ _ _ => True))
      (fun r _ => ∀ user, r = .ok user → Resolves self w used user.user.id)
      (fetchProfile used).run v := by
  refine Safe.bindExcept (safe_solo_eff.mpr ?_)
  intro c _
  rw [safe_ret]
  cases hfind : (self.handle c v (.user (.findByUsernameOrEmail used))).1 with
  | error e =>
    intro _ h
    cases h
  | ok found =>
    cases found with
    | none =>
      intro _ h
      cases h
    | some user =>
      refine Safe.observeBind (safe_solo_eff.mpr ?_)
      intro _ _
      rw [safe_ret]
      intro _ h
      cases h
      obtain ⟨r, hr, hru⟩ := Option.map_eq_some_iff.mp (select_ok hfind).1.symm
      obtain ⟨hmem, hnamed⟩ := limitOne_some hr
      rw [World.evolve_db, hdb] at hmem
      exact .inr ⟨r, hmem, hnamed, hru ▸ rfl⟩

theorem loginProfile_resolves {v : self.State} (hnow : w.now ≤ v.now) (hdb : v.db = w.db)
    (hcache : v.cache = w.cache) (used : String) :
    Safe self.handle (Discipline.solo (fun _ _ _ => True))
      (fun r _ => ∀ user, r = .ok user → Resolves self w used user.user.id)
      (self.loginProfile used).run v := by
  rw [loginProfile_eq]
  refine safe_solo_eff.mpr ?_
  intro c _
  cases hshown : cachedProfile (self.handle c v
      (.cache (.getValue (CacheKeys.userProfile used)))).1 with
  | none => exact fetchProfile_resolves w ((handle_cache_db ..).trans hdb) used
  | some user =>
    rw [safe_ret]
    intro _ h
    cases h
    have hvisible := self.cachedProfile_shown hshown
    rw [hcache] at hvisible
    exact .inl ⟨user, Store.get_of_later hvisible (hnow.trans (Nat.le_add_right _ _)), rfl⟩

omit w in
theorem successfulLogin_user {v : self.State} {used : String} (user : User) :
    Safe self.handle (Discipline.solo (fun _ _ _ => True)) (fun r _ => ∀ a, r = .ok a → user = a.user)
      (self.successfulLogin used user).run v := by
  refine Safe.observeBind (safe_solo_eff.mpr ?_)
  intro _ _
  rw [safe_ret]
  refine Safe.bindExcept (Safe.observeBind (safe_solo_eff.mpr ?_))
  intro c₂ _
  refine safe_solo_eff.mpr ?_
  intro c₃ _
  rw [safe_ret]
  split
  · refine Safe.observeBind (safe_solo_eff.mpr ?_)
    intro _ _
    rw [safe_ret]
    intro a h
    cases h
    rfl
  · intro _ h
    cases h

/-- The user of a session is one to whom the identifier led. -/
theorem login_resolves (used password : String) :
    Safe self.handle (Discipline.solo (fun _ _ _ => True))
      (fun r _ => ∀ a, r = .ok a → Resolves self w used a.user.id)
      (self.login used password).run w := by
  refine Safe.observeBind (safe_solo_eff.mpr ?_)
  intro c₁ _
  rw [safe_ret]
  split
  · refine Safe.observeBind (safe_solo_eff.mpr ?_)
    intro _ _
    rw [safe_ret]
    intro _ h
    cases h
  · refine Safe.bindExcept ((loginProfile_resolves w (self.now_handle c₁ w _) rfl rfl used).mono ?_)
    intro r v hr
    cases r with
    | error e =>
      intro _ h
      cases h
    | ok user =>
      have hresolves := hr user rfl
      refine Safe.bindExcept (safe_solo_eff.mpr ?_)
      intro c₂ _
      rw [safe_ret]
      cases (self.handle c₂ v (.host (.verifyPassword password user.passwordHash))).1 with
      | error e =>
        intro _ h
        cases h
      | ok valid =>
        cases valid with
        | false =>
          have hquiet : ∀ s, Safe self.handle (Discipline.solo (fun _ _ _ => True)) (fun _ _ => True)
              (failedLogin used).run s :=
            Issues.safe (fun _ _ _ => trivial) (failedLogin_limited used)
          refine ((failedLogin_refuses used).safe (hquiet _)).mono ?_
          intro r _ hr a ha
          exact absurd ha (hr.1 a)
        | true => exact (successfulLogin_user user.user).mono (fun _ _ h a ha => h a ha ▸ hresolves)

end Resolution

/-- While the lock is there, a login under the locked identifier is refused. -/
theorem locked_refuses {identifier password : String} {release : ℕ} {w : self.State}
    {o : ℕ → Choice} (h : LockedUntil self identifier release w) (hup : (o 0).fails = false)
    (hearly : w.now + (o 0).elapsed < release) (a : AuthResult) :
    (run self.handle (self.login identifier password).run o w).1 ≠ .ok a := by
  obtain ⟨⟨t, hentry, ht⟩, -⟩ := h
  have hvisible : (w.cache.entry (w.now + (o 0).elapsed) (CacheKeys.accountLock identifier)).isSome =
      true := by
    have hlive : w.now + (o 0).elapsed < t := by omega
    simp [Store.entry, hentry, Entry.visible, hlive]
  have hans : (self.handle (o 0) w (.cache (.exists (CacheKeys.accountLock identifier)))).1 =
      .ok true := by
    simp [handle_cache, CacheService.handle, hup, hvisible]
  rw [LoginRuns.login_eq, run_eff, hans]
  intro h
  cases h

/-- Until the lock expires, no login opens a session of the user, provided that the logins which
resolve to the user use the identifier that is locked. -/
theorem lock_covers_until_release {identifier : String} {release : ℕ} {userId : Uuid}
    {logins before after : List Login} {l : Login} {v : self.State}
    (hlocked : LockedUntil self identifier release v)
    (h : self.Along (Allowed self identifier userId release) v (logins.map Login.request))
    (hl : logins = before ++ l :: after)
    (hearly : (self.serveAll v (before.map Login.request)).now + (l.oracle 0).elapsed < release) :
    (self.serve (self.serveAll v (before.map Login.request)) l.request).1.toOption.map
      (·.user.id) ≠ some userId := by
  subst hl
  induction before generalizing v with
  | nil =>
    obtain ⟨⟨hcache, hused⟩, -⟩ := h
    change (self.serve v l.request).1.toOption.map (·.user.id) ≠ some userId
    cases ha : (self.serve v l.request).1 with
    | error e =>
      intro h
      cases h
    | ok a =>
      intro hopen
      obtain rfl : a.user.id = userId := Option.some.inj hopen
      rcases hused with hused | hused | hused
      · have hup : (l.oracle 0).fails = false := hcache.1
        have hcall : (run self.handle (self.login identifier l.password).run l.oracle v).1 =
            .ok a := hused ▸ ha
        exact locked_refuses hlocked hup hearly a hcall
      · exact absurd hearly (Nat.not_lt.mpr hused)
      · have hall := (login_resolves v l.identifier l.password).encounters
          (Encounters.of_forall (fun _ _ _ => trivial) _ l.oracle v)
        exact hused (hall a ha)
  | cons first before ih =>
    exact ih (hlocked.login first.identifier first.password first.oracle) hearly h.2

/-- The login that locks its identifier has written the lock in some instant of its own, and no
login opens a session of the user before fifteen minutes have passed since that instant. -/
theorem lock_covers_from_write {identifier password : String} {o : ℕ → Choice} {w v : self.State}
    (hcache : Encounters self.handle (CacheUp self) (self.login identifier password).run o w)
    (hlocked : (run self.handle (self.login identifier password).run o w).1 = lockedNow)
    (hv : v = (run self.handle (self.login identifier password).run o w).2) :
    ∃ written, w.now ≤ written ∧ written ≤ v.now ∧
      ∀ {userId : Uuid} {logins before after : List Login} {l : Login},
        self.Along (Allowed self identifier userId (written + secs loginLockoutSecs)) v
          (logins.map Login.request) → logins = before ++ l :: after →
        (self.serveAll v (before.map Login.request)).now + (l.oracle 0).elapsed <
          written + secs loginLockoutSecs →
        (self.serve (self.serveAll v (before.map Login.request)) l.request).1.toOption.map
          (·.user.id) ≠ some userId := by
  obtain ⟨written, hafter, hbefore, -, hentry⟩ :=
    (login_locks (fun _ _ _ h => h) password).encounters hcache hlocked
  rw [← hv] at hbefore hentry
  refine ⟨written, hafter, hbefore, ?_⟩
  intro userId logins before after l h hl hearly
  exact lock_covers_until_release ⟨⟨_, hentry, Nat.le_refl _⟩, by omega⟩ h hl hearly

/-- When a login has just locked its identifier, no login that follows within fifteen minutes
opens a session of the user, provided that the logins which resolve to the user use the
identifier that is locked. -/
theorem lock_covers_account {identifier password : String} {o : ℕ → Choice} {w : self.State}
    (hprompt : Encounters self.handle (Prompt self) (self.login identifier password).run o w)
    (hlocked : (run self.handle (self.login identifier password).run o w).1 = lockedNow)
    {userId : Uuid} {logins : List Login} {v : self.State}
    (hv : v = (run self.handle (self.login identifier password).run o w).2)
    (h : self.Along (Allowed self identifier userId (v.now + secs loginLockoutSecs)) v
      (logins.map Login.request)) {before after : List Login} {l : Login}
    (hl : logins = before ++ l :: after)
    (hearly : (self.serveAll v (before.map Login.request)).now + (l.oracle 0).elapsed <
      v.now + secs loginLockoutSecs) :
    (self.serve (self.serveAll v (before.map Login.request)) l.request).1.toOption.map
      (·.user.id) ≠ some userId := by
  obtain ⟨written, -, -, hnow, hentry⟩ :=
    (login_locks (fun _ _ _ => Prompt.cacheUp) password).encounters hprompt hlocked
  rw [hnow (fun _ _ _ h => h), ← hv] at hentry
  exact lock_covers_until_release ⟨⟨_, hentry, Nat.le_refl _⟩, Nat.le_refl _⟩ h hl hearly

section Alice

def aliceLogin (identifier password : String) : Login := ⟨identifier, password, oracle []⟩

/-- The state before the fifth failure of Alice. -/
def fourFailures : service.State :=
  service.serveAll activated (List.replicate 4 (aliceLogin "alice" "wrong").request)

/-- The state after it. -/
def aliceLocked : service.State := service.after fourFailures (aliceLogin "alice" "wrong").request

theorem lock_covers_username :
    (service.serve fourFailures (aliceLogin "alice" "wrong").request).1 = lockedNow ∧
      (service.serve aliceLocked (aliceLogin "alice" "Str0ng!Pass").request).1.toOption.map
        (·.user.id) ≠ some ⟨1⟩ := by
  have hrun : Encounters service.handle (Prompt service) (service.login "alice" "wrong").run
        (oracle []) fourFailures ∧
      (service.serve fourFailures (aliceLogin "alice" "wrong").request).1 = lockedNow ∧
      Encounters service.handle (CacheUp service) (service.login "alice" "Str0ng!Pass").run
        (oracle []) aliceLocked ∧
      (service.serveAll aliceLocked []).now + ((aliceLogin "alice" "Str0ng!Pass").oracle 0).elapsed <
        aliceLocked.now + secs loginLockoutSecs := by
    unfold aliceLocked fourFailures
    rw [activated_eq]
    decide +kernel
  obtain ⟨hprompt, hlocked, hcache, hearly⟩ := hrun
  have hallowed : service.Along (Allowed service "alice" ⟨1⟩ (aliceLocked.now + secs loginLockoutSecs))
      aliceLocked ([aliceLogin "alice" "Str0ng!Pass"].map Login.request) :=
    ⟨⟨hcache, .inl rfl⟩, trivial⟩
  have hsplit : [aliceLogin "alice" "Str0ng!Pass"] =
      [] ++ aliceLogin "alice" "Str0ng!Pass" :: [] := rfl
  have hserve : service.serve fourFailures (aliceLogin "alice" "wrong").request =
      run service.handle (service.login "alice" "wrong").run (oracle []) fourFailures := rfl
  have hafter : aliceLocked = (run service.handle (service.login "alice" "wrong").run (oracle [])
      fourFailures).2 := by
    rw [← hserve, aliceLocked, AuthService.after]
  have hcovered := lock_covers_account hprompt hlocked hafter hallowed hsplit hearly
  exact ⟨hlocked, hcovered⟩

/-- The email of the account opens what its username has locked. -/
theorem locked_account_opens_by_email :
    (service.serve fourFailures (aliceLogin "alice" "wrong").request).1 = lockedNow ∧
      ((service.serve aliceLocked
        (aliceLogin "alice@example.com" "Str0ng!Pass").request).1.toOption.map (·.user.id) =
        some ⟨1⟩) := by
  unfold aliceLocked fourFailures
  rw [activated_eq]
  decide +kernel

end Alice

end IamService.AccountLockout
