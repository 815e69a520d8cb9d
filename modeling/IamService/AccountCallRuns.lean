import IamService.MethodFootprints
import IamService.UserStatements

/-!
# Account calls served alone

What a password reset cycle and a login do to the tables and to the cache when they run
alone: a call that fails before its first write leaves both as they were, and a call that
succeeds has gone through every one of its checks.
-/

namespace IamService.AuthService
open EffectPrograms ExpiringStore UserRepository

variable (self : AuthService) (w : self.State) (o : ℕ → Choice)

section Login

/-- The profile in an answer of the cache; a failure or another value counts as none. -/
def cachedProfile : Result (Option CacheValue) → Option UserWithHash
  | .ok (some (.profile user)) => some user
  | _ => none

/-- A profile that is read from the cache was visible there. -/
theorem cachedProfile_shown {c : Choice} {w : self.State} {key : String} {user : UserWithHash}
    (h : cachedProfile (self.handle c w (.cache (.getValue key))).1 = some user) :
    w.cache.get (w.now + c.elapsed) key = some (.profile user) := by
  rw [handle_cache] at h
  simp only [CacheService.handle] at h
  cases hf : c.fails with
  | true => simp [hf, cachedProfile] at h
  | false =>
    simp only [hf, Bool.false_eq_true, if_false] at h
    unfold cachedProfile at h
    split at h
    · rename_i u hu
      cases h
      exact Except.ok.inj hu
    · cases h

/-- A failed login never returns a session. -/
theorem failedLogin_refuses (username : String) :
    Returns (fun r => ∀ a, r ≠ .ok a) (failedLogin username).run := by
  refine Returns.observeBind ?_
  intro counted
  refine Returns.observeBind ?_
  intro _
  split <;> simp [cacheSet, cache, eventBus]

theorem verifyPassword_ok {c : Choice} {w : self.State} {password hash : String} {valid : Bool}
    (h : (self.handle c w (.host (.verifyPassword password hash))).1 = .ok valid) :
    PasswordService.verifyPassword self.lib password hash = .ok valid := by
  change (if c.fails then _ else _) = _ at h
  split at h
  · cases h
  · exact h

/-- A login looks into the cache once, and into the database if that shows no profile. -/
theorem loginProfile_eq (username : String) : (self.loginProfile username).run =
    .eff (.cache (.getValue (CacheKeys.userProfile username))) fun answer =>
      match cachedProfile answer with
      | some user => .ret (.ok user)
      | none => (fetchProfile username).run := by
  simp only [loginProfile, cacheGet, run_bind', run_observe, run_attempt, cache, Prog.eff_bind,
    Prog.ret_bind]
  apply congrArg
  funext answer
  cases answer with
  | error e => rfl
  | ok value =>
    cases value with
    | none => rfl
    | some v => cases v <;> rfl

end Login

section Reset

/-- The profile behind an identifier, as the database reports it. -/
def lookup {lower : String → String} (pick : ℕ) (db : Database lower) (identity : String) :
    Option UserWithHash :=
  (RelationTables.limitOne pick (named identity) db.users).map UserRow.intoDomainWithHash

/-- The identifiers whose profiles a reset drops from the cache. -/
def Invalidated (email : String) (user : Option UserWithHash) (identifier : String) : Prop :=
  identifier = email ∨ ∃ u ∈ user, u.user.username = identifier

instance (email : String) (user : Option UserWithHash) (identifier : String) :
    Decidable (Invalidated email user identifier) := by
  unfold Invalidated
  infer_instance

/-- Deleting a key keeps every entry or drops it. -/
theorem delete_kept (c : Choice) (k key : String) :
    (self.handle c w (.cache (.delete k))).2.cache key = w.cache key ∨
      (self.handle c w (.cache (.delete k))).2.cache key = none := by
  rw [handle_cache]
  simp only [CacheService.handle]
  split
  · exact .inl rfl
  · by_cases hk : key = k
    · exact .inr (hk ▸ Store.erase_same _ _)
    · exact .inl (Store.erase_ne _ hk)

theorem delete_same {c : Choice} (hc : c.fails = false) (k : String) :
    (self.handle c w (.cache (.delete k))).2.cache k = none := by
  simp [handle_cache, CacheService.handle, hc]

/-- Invalidation succeeds, leaves the database alone and adds nothing to the cache; the
profiles it is meant for are gone unless the cache fails. -/
theorem invalidateReset_run (token email : String) (user : Option UserWithHash) :
    let r := run self.handle (invalidateReset token email user).run o w
    r.1 = .ok () ∧ r.2.db = w.db ∧
      (∀ key, r.2.cache key = w.cache key ∨ r.2.cache key = none) ∧
      ((o 0).fails = false → (o 1).fails = false → ∀ x, Invalidated email user x →
        r.2.cache (CacheKeys.userProfile x) = none) := by
  dsimp only
  have hstep : ∀ c k key {v : self.State}, (v.cache key = w.cache key ∨ v.cache key = none) →
      (self.handle c v (.cache (.delete k))).2.cache key = w.cache key ∨
        (self.handle c v (.cache (.delete k))).2.cache key = none := by
    intro c k key v hv
    rcases self.delete_kept v c k key with h | h
    · rwa [h]
    · exact .inr h
  have hgone : ∀ c k key {v : self.State}, v.cache key = none →
      (self.handle c v (.cache (.delete k))).2.cache key = none := by
    intro c k key v hv
    rcases self.delete_kept v c k key with h | h
    · rwa [h]
    · exact h
  cases user with
  | none =>
    simp only [invalidateReset, run_bind', run_observe, cache, Prog.eff_bind, Prog.ret_bind,
      run_eff, proceed_ok, run_pure', run_ret, handle_cache_db, true_and]
    refine ⟨fun key => hstep _ _ _ (hstep _ _ _ (.inl rfl)), ?_⟩
    rintro h₀ - x (rfl | ⟨u, hu, -⟩)
    · exact hgone _ _ _ (self.delete_same _ h₀ _)
    · cases hu
  | some u =>
    simp only [invalidateReset, run_bind', run_observe, cache, Prog.eff_bind, Prog.ret_bind,
      run_eff, proceed_ok, run_pure', run_ret, handle_cache_db, true_and]
    refine ⟨fun key => hstep _ _ _ (hstep _ _ _ (hstep _ _ _ (.inl rfl))), ?_⟩
    rintro h₀ h₁ x (rfl | ⟨u', hu', rfl⟩)
    · exact hgone _ _ _ (hgone _ _ _ (self.delete_same _ h₀ _))
    · cases hu'
      exact hgone _ _ _ (self.delete_same _ h₁ _)

/-- What a rotation has gone through when it succeeds. -/
structure Rotated (newPassword token email : String) (r : Result Unit × self.State) : Prop where
  ok : r.1 = .ok ()
  updated : ∃ hash n, PasswordService.hashPassword self.lib newPassword (o 1).random = .ok hash ∧
    updatePassword (o 2) w.db email hash = (.ok (n + 1), r.2.db)
  kept : ∀ key, r.2.cache key = w.cache key ∨ r.2.cache key = none
  cleared : (o 3).fails = false → (o 4).fails = false → ∀ x,
    Invalidated email (lookup (o 0).pick w.db email) x → r.2.cache (CacheKeys.userProfile x) = none

/-- A rotation that goes wrong changes nothing. -/
theorem rotatePassword_cases (token newPassword email : String) :
    let r := run self.handle (rotatePassword token newPassword email).run o w
    (∃ e, r.1 = .error e ∧ r.2.db.users = w.db.users ∧ r.2.cache = w.cache) ∨
      Rotated self w o newPassword token email r := by
  dsimp only
  simp only [rotatePassword, run_bind', run_attempt, userRepo, host, Prog.eff_bind, Prog.ret_bind,
    run_eff, handle_user, UserRepository.handle]
  cases hfind : select (o 0) [email] (lookup (o 0).pick w.db email) with
  | error e =>
    rw [lookup] at hfind
    rw [hfind]
    exact .inl ⟨_, rfl, rfl, rfl⟩
  | ok user =>
    obtain rfl := (select_ok hfind).1
    rw [lookup] at hfind
    simp only [hfind, proceed_ok, run_bind', run_attempt, Prog.eff_bind, Prog.ret_bind, run_eff,
      handle_host, hostHandle]
    cases (o (0 + 1)).fails with
    | true => exact .inl ⟨_, rfl, rfl, rfl⟩
    | false =>
      simp only [Bool.false_eq_true, if_false]
      cases hhash : PasswordService.hashPassword self.lib newPassword (o (0 + 1)).random with
      | error e => exact .inl ⟨_, rfl, rfl, rfl⟩
      | ok hash =>
        simp only [proceed_ok, run_bind', run_attempt, Prog.eff_bind, Prog.ret_bind, run_eff,
          handle_user, UserRepository.handle, World.evolve_db]
        rcases updatePassword_cases (o (0 + 1 + 1)) w.db email hash with
          ⟨e, hup⟩ | ⟨text, db', -, hup, -, hu⟩
        · simp only [hup]
          exact .inl ⟨_, rfl, rfl, rfl⟩
        · simp only [hup, proceed_ok]
          cases hn : (w.db.users.filter (fun r => addressed self.lib.pgLower email r &&
              r.isActive)).length with
          | zero =>
            refine .inl ⟨_, rfl, ?_, rfl⟩
            exact hu.trans (RelationTables.updateWhere_of_none hn)
          | succ n =>
            rw [hn] at hup
            rw [if_neg (Nat.succ_ne_zero n)]
            obtain ⟨hok, hdb, hkept, hcleared⟩ := self.invalidateReset_run _
              (fun n => o (n + 1 + 1 + 1)) token email (lookup (o 0).pick w.db email)
            exact .inr ⟨hok, ⟨hash, n, hhash, hup.trans (congrArg (Prod.mk _) hdb.symm)⟩, hkept,
              hcleared⟩

/-- A reset that goes wrong changes nothing; one that goes well has read the email kept
with the token and rotated the passwords of that email. -/
theorem resetPassword_cases (token newPassword : String) :
    let r := run self.handle (self.resetPassword token newPassword).run o w
    (∃ e, r.1 = .error e ∧ r.2.db.users = w.db.users ∧ r.2.cache = w.cache) ∨
      ∃ email, w.cache.get (w.now + (o 0).elapsed) (CacheKeys.passwordResetToken token) =
          some (.text email) ∧
        Rotated self (w.evolve (o 0)) (fun n => o (n + 1)) newPassword token email r := by
  dsimp only
  simp only [resetPassword, cacheGet, run_bind', run_attempt, cache, Prog.eff_bind, Prog.ret_bind,
    run_eff, handle_cache, CacheService.handle]
  cases (o 0).fails with
  | true => exact .inl ⟨_, rfl, rfl, rfl⟩
  | false =>
    simp only [Bool.false_eq_true, if_false, proceed_ok, World.evolve_now]
    cases w.cache.get (w.now + (o 0).elapsed) (CacheKeys.passwordResetToken token) with
    | none => exact .inl ⟨_, rfl, rfl, rfl⟩
    | some v =>
      cases v with
      | profile u => exact .inl ⟨_, rfl, rfl, rfl⟩
      | flag b => exact .inl ⟨_, rfl, rfl, rfl⟩
      | number n => exact .inl ⟨_, rfl, rfl, rfl⟩
      | text email =>
        rcases self.rotatePassword_cases (w.evolve (o 0)) (fun n => o (n + 1)) token newPassword
          email with h | h
        · exact .inl h
        · exact .inr ⟨email, rfl, h⟩

/-- A rotation that meets no failure, with a password that is hashed and an email that
addresses some active account. -/
theorem rotatePassword_succeeds (token newPassword email : String) (h : ∀ n, (o n).fails = false)
    (htext : sqlText email = true) {hash : String} {n : ℕ} {db' : Database self.lib.pgLower}
    (hhash : PasswordService.hashPassword self.lib newPassword (o 1).random = .ok hash)
    (hup : updatePassword (o 2) w.db email hash = (.ok (n + 1), db')) :
    (run self.handle (rotatePassword token newPassword email).run o w).1 = .ok () := by
  have hfind : ∀ user : Option UserWithHash, select (o 0) [email] user = .ok user := by
    intro user
    simp [select, h 0, htext]
  simp only [rotatePassword, run_bind', run_attempt, userRepo, host, Prog.eff_bind, Prog.ret_bind,
    run_eff, handle_user, UserRepository.handle, hfind, proceed_ok, handle_host, hostHandle, h,
    Bool.false_eq_true, if_false, hhash, World.evolve_db, Nat.zero_add, Nat.reduceAdd, hup,
    Nat.succ_ne_zero]
  exact (self.invalidateReset_run _ _ _ _ _).1

theorem resetPassword_succeeds (token newPassword : String) {email : String}
    (h : ∀ n, (o n).fails = false)
    (hget : w.cache.get (w.now + (o 0).elapsed) (CacheKeys.passwordResetToken token) =
      some (.text email)) (htext : sqlText email = true) {hash : String} {n : ℕ}
    {db' : Database self.lib.pgLower}
    (hhash : PasswordService.hashPassword self.lib newPassword (o 2).random = .ok hash)
    (hup : updatePassword (o 3) w.db email hash = (.ok (n + 1), db')) :
    (run self.handle (self.resetPassword token newPassword).run o w).1 = .ok () := by
  simp only [resetPassword, cacheGet, run_bind', run_attempt, cache, Prog.eff_bind, Prog.ret_bind,
    run_eff, handle_cache, CacheService.handle, h, Bool.false_eq_true, if_false, proceed_ok,
    World.evolve_now, hget, CacheValue.asText, run_pure']
  exact self.rotatePassword_succeeds _ (fun n => o (n + 1)) token newPassword email
    (fun n => h (n + 1)) htext hhash hup

/-- The token that a request for a reset draws. -/
def mintedToken : String := self.lib.uuidToString (o 1).uuid

/-- The instant at which a request for a reset stores its token. -/
def mintedAt : ℕ := w.now + (o 0).elapsed + (o 1).elapsed + (o 2).elapsed

def resetRequested (userId : Uuid) (email token : String) : Event :=
  .passwordResetRequested userId email
    (self.config.appBaseUrl ++ "/reset-password?token=" ++ token)

/-- A request for a reset keeps the lower-cased identifier with a fresh token, if some
active account has that identifier. -/
theorem forgotPassword_cases (email : String) :
    let r := run self.handle (self.forgotPassword email).run o w
    r.2.db = w.db ∧ ((r.2.cache = w.cache ∧ r.2.events = w.events) ∨
      ∃ user, select (o 0) [email] (lookup (o 0).pick w.db email) = .ok (some user) ∧
        r.2.cache = w.cache.put (CacheKeys.passwordResetToken (mintedToken self o))
          (.text (self.lib.toLowercase email))
          (some (mintedAt self w o + secs resetTokenTtlSecs)) ∧
        (r.2.events = w.events ∨
          r.2.events = w.events ++ [resetRequested self user.user.id email (mintedToken self o)])) := by
  dsimp only
  simp only [forgotPassword, run_bind', run_attempt, userRepo, host, Prog.eff_bind, Prog.ret_bind,
    run_eff, handle_user, UserRepository.handle]
  cases hfind : select (o 0) [email] (lookup (o 0).pick w.db email) with
  | error e =>
    rw [lookup] at hfind
    rw [hfind]
    exact ⟨rfl, .inl ⟨rfl, rfl⟩⟩
  | ok user =>
    rw [lookup] at hfind
    rw [hfind]
    cases user with
    | none => exact ⟨rfl, .inl ⟨rfl, rfl⟩⟩
    | some user =>
      simp only [proceed_ok, run_bind', run_observe, Prog.eff_bind, Prog.ret_bind, run_eff,
        handle_host, hostHandle, cacheSet, run_attempt, cache, handle_cache, CacheService.handle,
        Option.getD_some, resetTokenTtlSecs, Nat.reduceEqDiff, or_false]
      cases hset : (o (0 + 1 + 1)).fails with
      | true => exact ⟨rfl, .inl ⟨rfl, rfl⟩⟩
      | false =>
        simp only [Bool.false_eq_true, if_false, proceed_ok, run_bind', run_observe, eventBus,
          Prog.eff_bind, Prog.ret_bind, run_eff, handle_bus, busHandle]
        cases hpub : (o (0 + 1 + 1 + 1)).fails with
        | true => exact ⟨rfl, .inr ⟨user, rfl, rfl, .inl rfl⟩⟩
        | false => exact ⟨rfl, .inr ⟨user, rfl, rfl, .inr rfl⟩⟩

end Reset

end IamService.AuthService
