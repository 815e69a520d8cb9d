import IamService.MethodFootprints

/-!
# Which cache keys the methods write

Every method writes keys of its own kinds only. A key that no operation of a program
writes keeps its entry, and keys of different kinds are different, so that an entry is
settled by the few methods that write its kind.
-/

namespace IamService
open EffectPrograms ExpiringStore

/-- The key an operation may write. -/
@[simp] def Op.writtenKey : Op → Option String
  | .cache (.setValue key _ _) => some key
  | .cache (.delete key) => some key
  | .cache (.increment key) => some key
  | .cache (.incrementWithTtl key _) => some key
  | _ => none

/-- The kinds of operations that can write the cache. -/
def cacheWrites : List OpKind := [.storeProfile, .storeOther, .deleteKey, .countKey]

theorem writtenKey_of_kind {o : Op} (h : o.kind ∉ cacheWrites) : o.writtenKey = none := by
  unfold Op.writtenKey
  split
  · rename_i key value _
    cases value <;> simp [cacheWrites] at h
  all_goals simp [cacheWrites] at h ⊢

/-- No operation of the program writes the key. -/
def Spares {α : Type} (key : String) (p : Program α) : Prop :=
  Issues (fun o => o.writtenKey ≠ some key) p

theorem Limited.spares {α : Type} {kinds : List OpKind} {p : Program α} (h : Limited kinds p)
    (hk : ∀ k ∈ kinds, k ∉ cacheWrites) (key : String) : Spares key p := by
  refine Issues.mono ?_ h
  intro o ho
  rw [writtenKey_of_kind (hk o.kind ho)]
  exact Option.some_ne_none key |>.symm

namespace AuthService

variable (self : AuthService)

theorem incr_ne (now : ℕ) (s : Store String CacheValue) {key j : String} (h : j ≠ key)
    (errorText : String) (expiry : Option ℕ → Option ℕ) :
    (CacheService.incr now s key errorText expiry).2 j = s j := by
  unfold CacheService.incr
  split <;> exact Store.put_ne s h _ _

/-- An operation keeps the entries of all keys but the one it writes. -/
theorem handle_cache_of_key {o : Op} {key : String} (h : o.writtenKey ≠ some key) (c : Choice)
    (w : self.State) : (self.handle c w o).2.cache key = w.cache key := by
  cases o with
  | cache q =>
    rw [handle_cache]
    cases q with
    | getValue k => rfl
    | «exists» k => rfl
    | setValue k value ttl =>
      have hk : key ≠ k := fun he => h (congrArg some he.symm)
      simp only [CacheService.handle]
      split
      · rfl
      · exact Store.put_ne _ hk _ _
    | delete k =>
      have hk : key ≠ k := fun he => h (congrArg some he.symm)
      simp only [CacheService.handle]
      split
      · rfl
      · exact Store.erase_ne _ hk
    | increment k =>
      have hk : key ≠ k := fun he => h (congrArg some he.symm)
      simp only [CacheService.handle]
      split
      · rfl
      · exact incr_ne _ _ hk _ _
    | incrementWithTtl k ttl =>
      have hk : key ≠ k := fun he => h (congrArg some he.symm)
      simp only [CacheService.handle]
      split
      · rfl
      · exact incr_ne _ _ hk _ _
  | user q => rfl
  | wallet q => rfl
  | bus q => rfl
  | chain q => rfl
  | host q => rw [handle_host_cache]

/-- Counting a key shows no profile that was not there. -/
theorem profile_of_incr {now : ℕ} {s : Store String CacheValue} {key k : String}
    {errorText : String} {expiry : Option ℕ → Option ℕ} {p : UserWithHash} {t : Option ℕ}
    (h : (CacheService.incr now s k errorText expiry).2 key = some ⟨.profile p, t⟩) :
    ∃ t', s key = some ⟨.profile p, t'⟩ := by
  by_cases hk : key = k
  · subst hk
    unfold CacheService.incr at h
    split at h
    · simp at h
    · simp at h
    · rename_i v t' _ hentry
      simp only [Store.put_same, Option.some.injEq, Entry.mk.injEq] at h
      obtain ⟨rfl, -⟩ := h
      exact ⟨t', (Option.filter_eq_some_iff.mp hentry).1⟩
  · rw [incr_ne now s hk] at h
    exact ⟨t, h⟩

/-- A profile in the cache was there before, or has just been stored. -/
theorem profile_before {c : Choice} {w : self.State} {o : Op} {key : String} {p : UserWithHash}
    {t : Option ℕ} (h : (self.handle c w o).2.cache key = some ⟨.profile p, t⟩) :
    (∃ t', w.cache key = some ⟨.profile p, t'⟩) ∨
      ∃ ttl, o = .cache (.setValue key (.profile p) ttl) := by
  by_cases hkey : o.writtenKey = some key
  · cases o with
    | cache q =>
      rw [handle_cache] at h
      cases q with
      | setValue k v ttl =>
        cases hkey
        simp only [CacheService.handle] at h
        split at h
        · exact .inl ⟨t, h⟩
        · simp only [Store.put_same, Option.some.injEq, Entry.mk.injEq] at h
          exact .inr ⟨ttl, by rw [h.1]⟩
      | delete k =>
        cases hkey
        simp only [CacheService.handle] at h
        split at h
        · exact .inl ⟨t, h⟩
        · simp at h
      | increment k =>
        simp only [CacheService.handle] at h
        split at h
        · exact .inl ⟨t, h⟩
        · exact .inl (profile_of_incr h)
      | incrementWithTtl k ttl =>
        simp only [CacheService.handle] at h
        split at h
        · exact .inl ⟨t, h⟩
        · exact .inl (profile_of_incr h)
      | getValue k => cases hkey
      | «exists» k => cases hkey
    | user q => cases hkey
    | wallet q => cases hkey
    | bus q => cases hkey
    | chain q => cases hkey
    | host q => cases hkey
  · rw [self.handle_cache_of_key hkey] at h
    exact .inl ⟨t, h⟩

end AuthService

section Methods

variable {self : AuthService} {key : String}

theorem fetchProfile_spares {username : String} (h : key ≠ CacheKeys.userProfile username) :
    Spares key (AuthService.fetchProfile username).run := by
  refine Issues.bindExcept (by simp [userRepo]) ?_
  intro v
  cases v <;> simp [AuthService.cacheSet, cache, h.symm]

theorem loginProfile_spares {username : String} (h : key ≠ CacheKeys.userProfile username) :
    Spares key (self.loginProfile username).run := by
  refine Issues.bindExcept ?_ ?_
  · exact ((self.cacheGet_limited _ _).spares (by decide) key).observe
  · intro r
    split
    · simp
    · exact fetchProfile_spares h

theorem failedLogin_spares {username : String} (hl : key ≠ CacheKeys.accountLock username)
    (ha : key ≠ CacheKeys.loginAttempts username) :
    Spares key (AuthService.failedLogin username).run := by
  refine Issues.bindExcept (by simp [cache, ha.symm]) ?_
  intro counted
  refine Issues.bindExcept (by simp [eventBus]) ?_
  intro _
  split <;> simp [AuthService.cacheSet, cache, eventBus, hl.symm, ha.symm]

theorem successfulLogin_spares {username : String} {user : User}
    (ha : key ≠ CacheKeys.loginAttempts username) :
    Spares key (self.successfulLogin username user).run := by
  refine Issues.bindExcept (by simp [cache, ha.symm]) ?_
  intro _
  refine Issues.bindExcept ((AuthService.mintToken_limited _ _ _).spares (by decide) key) ?_
  intro _
  simp [eventBus]

theorem login_spares {username password : String} (hp : key ≠ CacheKeys.userProfile username)
    (hl : key ≠ CacheKeys.accountLock username) (ha : key ≠ CacheKeys.loginAttempts username) :
    Spares key (self.login username password).run := by
  refine Issues.bindExcept (by simp [cache]) ?_
  intro locked
  split
  · simp [eventBus]
  · refine Issues.bindExcept (loginProfile_spares hp) ?_
    intro user
    refine Issues.bindExcept (by simp [host]) ?_
    intro isValid
    split
    · exact successfulLogin_spares ha
    · exact failedLogin_spares hl ha

theorem verifyEmail_spares {token : String} (h : ∀ x, key ≠ CacheKeys.userProfile x) :
    Spares key (self.verifyEmail token).run := by
  refine Issues.bindExcept ((self.verifiedAddress_limited token).spares (by decide) key) ?_
  intro email
  refine Issues.bindExcept (by simp [userRepo]) ?_
  intro activated
  cases activated with
  | none => simp
  | some activated =>
    refine Issues.bindExcept ((self.ensureWallet_limited _).spares (by decide) key) ?_
    intro user
    refine Issues.bindExcept ((AuthService.mintToken_limited _ _ _).spares (by decide) key) ?_
    intro _
    simp [eventBus, cache, (h _).symm]

theorem resendVerification_spares {email : String}
    (h : ∀ x, key ≠ CacheKeys.resendVerificationCooldown x) :
    Spares key (self.resendVerification email).run := by
  refine Issues.bindExcept (by simp [userRepo]) ?_
  intro state
  cases state with
  | none => simp
  | some state =>
    dsimp only
    split
    · simp
    · refine Issues.bindExcept (by simp [cache]) ?_
      intro cooling
      split
      · simp
      · refine Issues.bindExcept
          ((self.verificationTokenFor_limited _).spares (by decide) key) ?_
        intro token
        simp [eventBus, AuthService.cacheSet, cache, (h _).symm]

theorem resetPassword_spares {token newPassword : String}
    (hp : ∀ x, key ≠ CacheKeys.userProfile x) (ht : key ≠ CacheKeys.passwordResetToken token) :
    Spares key (self.resetPassword token newPassword).run := by
  refine Issues.bindExcept ((self.cacheGet_limited _ _).spares (by decide) key) ?_
  intro email
  cases email with
  | none => simp
  | some email =>
    refine Issues.bindExcept (by simp [userRepo]) ?_
    intro user
    refine Issues.bindExcept (by simp [host]) ?_
    intro passwordHash
    refine Issues.bindExcept (by simp [userRepo]) ?_
    intro rows
    split
    · simp
    · refine Issues.bindExcept (by simp [cache, (hp _).symm]) ?_
      intro _
      cases user <;> simp [cache, (hp _).symm, ht.symm]

theorem checkRateLimit_spares {ip endpoint : String} {limit windowSecs : ℕ}
    (h : key ≠ CacheKeys.rateLimit ip endpoint) :
    Spares key (AuthService.checkRateLimit ip endpoint limit windowSecs).run := by
  refine Issues.bindExcept (by simp [cache, h.symm]) ?_
  intro count
  split <;> split <;> simp [cache, h.symm]

end Methods

theorem Spares.run {self : AuthService} {α : Type} {key : String} {p : Program α}
    (h : Spares key p) (f : ℕ → Choice) (w : self.State) :
    (EffectPrograms.run self.handle p f w).2.cache key = w.cache key := by
  refine Issues.run (fun w v : self.State => v.cache key = w.cache key) (fun _ => rfl)
    (fun h₁ h₂ => h₂.trans h₁) ?_ h f w
  intro c w o ho
  exact self.handle_cache_of_key ho c w

end IamService
