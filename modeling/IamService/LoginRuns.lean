import IamService.AccountCallRuns
import IamService.CacheFootprints

/-!
# Logins that are not disturbed

What a login for one identifier does when it runs alone, nothing but a publication fails
and no entry of the lockout expires in the meantime. The lock and the count of failures
that the cache shows are a state of the lockout; a login moves it to the next one and
compares its password with the stored hash unless the identifier is locked.
-/

namespace IamService.LoginRuns
open EffectPrograms ExpiringStore UserRepository AuthService

variable (self : AuthService) (identifier : String)

/-- The state of the service with the history of operations. -/
abbrev Traced := self.State × List (Observed Op.Ans self.State)

/-- What a key shows at the current instant. -/
def shown (w : self.State) (key : String) : Option (Entry CacheValue) := w.cache.entry w.now key

def lockoutKeys : List String :=
  [CacheKeys.accountLock identifier, CacheKeys.loginAttempts identifier]

/-- No entry of the lockout expires. -/
def Unexpired (c : Choice) (s : Traced self) : Prop := ∀ key ∈ lockoutKeys identifier,
  (shown self s.1 key).isSome = true → (s.1.cache.entry (s.1.now + c.elapsed) key).isSome = true

/-- Nothing but a publication fails, and no entry of the lockout expires. -/
def Steady (c : Choice) (s : Traced self) (o : Op) : Prop :=
  (o.kind = .publish ∨ c.fails = false) ∧ Unexpired self identifier c s

instance (c : Choice) (s : Traced self) : Decidable (Unexpired self identifier c s) := by
  unfold Unexpired
  infer_instance

instance (c : Choice) (s : Traced self) (o : Op) : Decidable (Steady self identifier c s o) :=
  inferInstanceAs (Decidable (_ ∧ _))

/-- The operation compares a password with a stored hash. -/
def compares : Op → Bool
  | .host (.verifyPassword ..) => true
  | _ => false

/-- How many passwords have been compared. -/
def compared (h : List (Observed Op.Ans self.State)) : ℕ := h.countP (fun ob => compares ob.op)

/-- The identifier names active accounts with one well-formed hash, and a profile that is
cached for it carries that hash. -/
structure Account (hash : String) (w : self.State) : Prop where
  text : sqlText identifier = true
  active : ∃ u ∈ w.db.users, named identifier u = true
  stored : ∀ u ∈ w.db.users, named identifier u = true → u.passwordHash = hash
  cached : ∀ p, w.cache.get w.now (CacheKeys.userProfile identifier) = some (.profile p) →
    p.passwordHash = hash
  verifiable : ∀ password, ∃ valid, PasswordService.verifyPassword self.lib password hash = .ok valid

/-- The state of the lockout: failures counted until a deadline, or a lock until a release. -/
inductive Lockout where
  | unlocked (count deadline : ℕ)
  | locked (release : ℕ)
  deriving DecidableEq

/-- The cache shows the state of the lockout. -/
def Tracks (w : self.State) : Lockout → Prop
  | .unlocked count deadline =>
    shown self w (CacheKeys.accountLock identifier) = none ∧
      (shown self w (CacheKeys.loginAttempts identifier) = some ⟨.number count, some deadline⟩ ∨
        shown self w (CacheKeys.loginAttempts identifier) = none ∧ count = 0)
  | .locked release =>
    shown self w (CacheKeys.accountLock identifier) = some ⟨.flag true, some release⟩ ∧
      shown self w (CacheKeys.loginAttempts identifier) = none

/-- How a login ends. -/
inductive Outcome where
  | success | invalidCredentials | accountLocked | other
  deriving DecidableEq, Repr

def outcome : Result AuthResult → Outcome
  | .ok _ => .success
  | .error (.withCode .invalidCredentials _) => .invalidCredentials
  | .error (.withCode .accountLocked _) => .accountLocked
  | .error _ => .other

/-- The next state of the lockout when nothing has expired, with the outcome of the login and
the number of passwords it compares; what it writes is written at `now`. -/
def Lockout.next (now : ℕ) (correct : Bool) : Lockout → (Outcome × ℕ) × Lockout
  | .locked release => ((.accountLocked, 0), .locked release)
  | .unlocked count _ =>
    if correct then ((.success, 1), .unlocked 0 0)
    else if count + 1 < loginMaxFailedAttempts then
      ((.invalidCredentials, 1), .unlocked (count + 1) (now + secs loginLockoutSecs))
    else ((.accountLocked, 1), .locked (now + secs loginLockoutSecs))

/-- A login compares its password unless the identifier is locked. -/
theorem Lockout.next_compares (now : ℕ) (correct : Bool) (count deadline : ℕ) :
    (Lockout.next now correct (.unlocked count deadline)).1.2 = 1 := by
  simp only [Lockout.next]
  split
  · rfl
  · split <;> rfl

variable {self identifier}

section Histories

@[simp] theorem compared_append (h : List (Observed Op.Ans self.State))
    (ob : Observed Op.Ans self.State) :
    compared self (h ++ [ob]) = compared self h + if compares ob.op then 1 else 0 := by
  simp [compared, List.countP_append, List.countP_singleton]

end Histories

section Steps

variable {hash : String} {c : Choice} {s : Traced self} {o : Op}

theorem now_of_kind (c : Choice) (w : self.State) (h : o.kind ≠ .sleep) :
    (self.handle c w o).2.now = w.now + c.elapsed := by
  cases o with
  | host q =>
    cases q with
    | encodeToken claims => cases hf : c.fails <;> simp [handle_host, hostHandle, hf]
    | sleep ms => exact absurd rfl h
    | _ => rfl
  | _ => rfl

theorem lockoutKeys_ne_userProfile {key : String} (h : key ∈ lockoutKeys identifier) (x : String) :
    key ≠ CacheKeys.userProfile x := by
  simp only [lockoutKeys, List.mem_cons, List.not_mem_nil, or_false] at h
  rcases h with rfl | rfl
  · exact CacheKeys.accountLock_ne_userProfile identifier x
  · exact CacheKeys.loginAttempts_ne_userProfile identifier x

/-- An operation that does not write a key of the lockout leaves it shown as before. -/
theorem shown_of_unexpired (h : Unexpired self identifier c s) (ho : o.kind ≠ .sleep) {key : String}
    (hkey : key ∈ lockoutKeys identifier) (hw : o.writtenKey ≠ some key) :
    shown self (recorded self.handle c s o).2.1 key = shown self s.1 key := by
  have hsame : (self.handle c s.1 o).2.cache key = s.1.cache key :=
    self.handle_cache_of_key hw c s.1
  unfold shown
  rw [recorded_state, Store.entry_congr hsame, now_of_kind c s.1 ho]
  exact Store.entry_eq_of_live (Nat.le_add_right _ _) (h key hkey)

theorem shown_of_steady (h : Steady self identifier c s o) (ho : o.kind ≠ .sleep) {key : String}
    (hkey : key ∈ lockoutKeys identifier) (hw : o.writtenKey ≠ some key) :
    shown self (recorded self.handle c s o).2.1 key = shown self s.1 key :=
  shown_of_unexpired h.2 ho hkey hw

/-- A profile shown later under a key that is not written is shown before. -/
theorem Account.step {w : self.State} (h : Account self identifier hash w)
    (hdb : o.kind ∉ dbWrites) (hw : o.writtenKey ≠ some (CacheKeys.userProfile identifier))
    (c : Choice) : Account self identifier hash (self.handle c w o).2 := by
  obtain ⟨htext, hactive, hstored, hcached, hverifiable⟩ := h
  rw [← self.handle_db_of_kind hdb c w] at hactive hstored
  refine ⟨htext, hactive, hstored, ?_, hverifiable⟩
  intro p hp
  rw [Store.get_congr (self.handle_cache_of_key hw c w)] at hp
  exact hcached p (Store.get_of_later hp (self.now_handle c w o))

/-- The account is as it was, and no password has been compared. -/
structure Carried (identifier hash : String) (s t : Traced self) : Prop where
  account : Account self identifier hash t.1
  compared : compared self t.2 = compared self s.2
  now : s.1.now ≤ t.1.now

theorem Carried.refl (h : Account self identifier hash s.1) : Carried identifier hash s s :=
  ⟨h, rfl, Nat.le_refl _⟩

theorem Carried.step {t : Traced self} (h : Carried identifier hash s t) (hdb : o.kind ∉ dbWrites)
    (hw : o.writtenKey ≠ some (CacheKeys.userProfile identifier)) (hcmp : compares o = false)
    (c : Choice) : Carried identifier hash s (recorded self.handle c t o).2 := by
  obtain ⟨haccount, hcompared, hnow⟩ := h
  exact ⟨haccount.step hdb hw c, by simp [hcompared, hcmp], hnow.trans (self.now_handle c t.1 o)⟩

/-- The lockout is as it was, too. -/
structure Unmoved (identifier hash : String) (s t : Traced self) : Prop
    extends Carried identifier hash s t where
  lockout : ∀ key ∈ lockoutKeys identifier, shown self t.1 key = shown self s.1 key

theorem Unmoved.refl (h : Account self identifier hash s.1) : Unmoved identifier hash s s :=
  ⟨.refl h, fun _ _ => rfl⟩

theorem Unmoved.tracks {t : Traced self} {m : Lockout} (h : Unmoved identifier hash s t)
    (hm : Tracks self identifier s.1 m) : Tracks self identifier t.1 m := by
  obtain ⟨-, hlockout⟩ := h
  have hlock := hlockout (CacheKeys.accountLock identifier) (by simp [lockoutKeys])
  have hcount := hlockout (CacheKeys.loginAttempts identifier) (by simp [lockoutKeys])
  cases m <;> simpa only [Tracks, hlock, hcount] using hm

/-- Operations of a login that write nothing. -/
def reading : List OpKind :=
  [.readCache, .publish, .findByUsernameOrEmail, .readHost, .encodeToken]

theorem Unmoved.unexpired {t : Traced self} (h : Unmoved identifier hash s t)
    (hc : Unexpired self identifier c t) (hk : o.kind ∈ reading) (hcmp : compares o = false) :
    Unmoved identifier hash s (recorded self.handle c t o).2 := by
  obtain ⟨hcarried, hlockout⟩ := h
  have hdb : o.kind ∉ dbWrites := fun hw =>
    (by decide : ∀ k ∈ reading, k ∉ dbWrites) _ hk hw
  have hcache : o.kind ∉ cacheWrites := fun hw =>
    (by decide : ∀ k ∈ reading, k ∉ cacheWrites) _ hk hw
  have hsleep : o.kind ≠ .sleep := fun he => (by decide : OpKind.sleep ∉ reading) (he ▸ hk)
  have hwritten : ∀ key, o.writtenKey ≠ some key := by
    intro key
    rw [writtenKey_of_kind hcache]
    exact Option.some_ne_none key |>.symm
  refine ⟨hcarried.step hdb (hwritten _) hcmp c, ?_⟩
  intro key hkey
  rw [shown_of_unexpired hc hsleep hkey (hwritten key), hlockout key hkey]

theorem Unmoved.read {t : Traced self} (h : Unmoved identifier hash s t)
    (hc : Steady self identifier c t o) (hk : o.kind ∈ reading) (hcmp : compares o = false) :
    Unmoved identifier hash s (recorded self.handle c t o).2 := h.unexpired hc.2 hk hcmp

/-- Caching a profile with the stored hash. -/
theorem Unmoved.store {t : Traced self} (h : Unmoved identifier hash s t) {p : UserWithHash}
    {ttl : Option ℕ} (hp : p.passwordHash = hash)
    (hc : Unexpired self identifier c t) :
    Unmoved identifier hash s (recorded self.handle c t
      (.cache (.setValue (CacheKeys.userProfile identifier) (.profile p) ttl))).2 := by
  obtain ⟨⟨⟨htext, hactive, hstored, hcached, hverifiable⟩, hcompared, hnow⟩, hlockout⟩ := h
  refine ⟨⟨⟨htext, hactive, hstored, ?_, hverifiable⟩, by simp [hcompared, compares],
    hnow.trans (self.now_handle c t.1 _)⟩, ?_⟩
  · intro q hq
    obtain ⟨e, hentry, hvisible, hvalue⟩ := Store.get_eq_some.mp hq
    rw [recorded_state, handle_cache] at hentry
    simp only [CacheService.handle] at hentry
    split at hentry
    · exact hcached q (Store.get_of_later (Store.get_eq_some.mpr ⟨e, hentry, hvisible, hvalue⟩)
        (self.now_handle c t.1 _))
    · simp only [Store.put_same, Option.some.injEq] at hentry
      rw [← hentry] at hvalue
      cases hvalue
      exact hp
  · intro key hkey
    have hne := lockoutKeys_ne_userProfile hkey identifier
    rw [shown_of_unexpired hc (by simp) hkey (by simpa using hne.symm), hlockout key hkey]

end Steps

section Specification

variable {hash : String} {s : Traced self}

/-- The wp of a login under a steady environment. -/
abbrev Ends (self : AuthService) (identifier : String) {α : Type} (Q : α → Traced self → Prop)
    (p : Program α) (s : Traced self) : Prop :=
  Safe (recorded self.handle) (Discipline.solo (Steady self identifier)) Q p s

/-- The profile that a login works with carries the stored hash. One is found when the database
does not fail. -/
theorem fetchProfile_ends {A : Choice → Traced self → Op → Prop}
    (hA : ∀ c t o, A c t o → Unexpired self identifier c t) {s₀ : Traced self}
    (h : Unmoved identifier hash s₀ s) :
    Safe (recorded self.handle) (Discipline.solo A) (fun r t =>
      (∀ user, r = .ok user → user.passwordHash = hash) ∧
      ((∀ c t o, A c t o → Steady self identifier c t o) → ∃ user, r = .ok user) ∧
      Unmoved identifier hash s₀ t) (fetchProfile identifier).run s := by
  refine Safe.bindExcept (safe_solo_eff.mpr ?_)
  intro c hc
  have hread : Unmoved identifier hash s₀ (recorded self.handle c s
      (.user (.findByUsernameOrEmail identifier))).2 :=
    h.unexpired (hA _ _ _ hc) (by simp [reading]) rfl
  rw [safe_ret]
  obtain ⟨⟨⟨htext, ⟨u, hu, hnamed⟩, hstored, -, -⟩, -, -⟩, -⟩ := h
  cases hf : c.fails with
  | true =>
    have hans : ∃ e, (recorded self.handle c s (.user (.findByUsernameOrEmail identifier))).1 =
        .error e := by
      rw [recorded_ans, handle_user]
      simp [UserRepository.handle, select, hf]
    obtain ⟨e, he⟩ := hans
    rw [he]
    refine ⟨?_, ?_, hread⟩
    · intro user huser
      cases huser
    · intro hsteady
      have hup : c.fails = false := by simpa using (hsteady _ _ _ hc).1
      rw [hf] at hup
      cases hup
  | false =>
    obtain ⟨r, hr⟩ : ∃ r, RelationTables.limitOne c.pick (named identifier) s.1.db.users = some r := by
      refine Option.ne_none_iff_exists'.mp (fun hnone => ?_)
      rw [RelationTables.limitOne_eq_none.mp hnone u hu] at hnamed
      cases hnamed
    have hans : (recorded self.handle c s (.user (.findByUsernameOrEmail identifier))).1 =
        .ok (some r.intoDomainWithHash) := by
      rw [recorded_ans, handle_user]
      simp [UserRepository.handle, select, hf, htext, hr]
    rw [hans]
    have hhash : r.passwordHash = hash := by
      obtain ⟨hmem, hrow⟩ := RelationTables.limitOne_some hr
      exact hstored r hmem hrow
    refine Safe.observeBind (safe_solo_eff.mpr ?_)
    intro c' hc'
    rw [safe_ret]
    refine ⟨?_, fun _ => ⟨_, rfl⟩, hread.store hhash (hA _ _ _ hc')⟩
    intro user huser
    cases huser
    exact hhash

theorem loginProfile_ends {A : Choice → Traced self → Op → Prop}
    (hA : ∀ c t o, A c t o → Unexpired self identifier c t) {s₀ : Traced self}
    (h : Unmoved identifier hash s₀ s) :
    Safe (recorded self.handle) (Discipline.solo A) (fun r t =>
      (∀ user, r = .ok user → user.passwordHash = hash) ∧
      ((∀ c t o, A c t o → Steady self identifier c t o) → ∃ user, r = .ok user) ∧
      Unmoved identifier hash s₀ t) (self.loginProfile identifier).run s := by
  rw [loginProfile_eq]
  refine safe_solo_eff.mpr ?_
  intro c hc
  have hread : Unmoved identifier hash s₀ (recorded self.handle c s
      (.cache (.getValue (CacheKeys.userProfile identifier)))).2 :=
    h.unexpired (hA _ _ _ hc) (by simp [reading]) rfl
  cases hshown : cachedProfile (recorded self.handle c s
      (.cache (.getValue (CacheKeys.userProfile identifier)))).1 with
  | none => exact fetchProfile_ends hA hread
  | some user =>
    obtain ⟨⟨⟨-, -, -, hcached, -⟩, -, -⟩, -⟩ := h
    have hvisible := Store.get_of_later (self.cachedProfile_shown hshown) (Nat.le_add_right _ _)
    refine ⟨?_, fun _ => ⟨user, rfl⟩, hread⟩
    intro user' huser
    cases huser
    exact hcached user hvisible

/-- A failure is counted on top of the failures shown. -/
theorem count_steady {c : Choice} {count deadline : ℕ}
    (hm : Tracks self identifier s.1 (.unlocked count deadline))
    (hc : Steady self identifier c s
      (.cache (.incrementWithTtl (CacheKeys.loginAttempts identifier) loginLockoutSecs))) :
    let x := recorded self.handle c s
      (.cache (.incrementWithTtl (CacheKeys.loginAttempts identifier) loginLockoutSecs))
    x.1 = .ok (count + 1) ∧
      Tracks self identifier x.2.1 (.unlocked (count + 1) (x.2.1.now + secs loginLockoutSecs)) := by
  dsimp only
  obtain ⟨hlock, hcount⟩ := hm
  have hup : c.fails = false := by simpa using hc.1
  have hkept := shown_of_steady hc (by simp)
    (show CacheKeys.accountLock identifier ∈ lockoutKeys identifier by simp [lockoutKeys]) (by simp)
  have hlive : s.1.cache.entry (s.1.now + c.elapsed) (CacheKeys.loginAttempts identifier) =
      shown self s.1 (CacheKeys.loginAttempts identifier) :=
    Store.entry_eq_of_live (Nat.le_add_right _ _) (hc.2 _ (by simp [lockoutKeys]))
  have hvisible : ∀ (st : Store String CacheValue) (n now : ℕ),
      (st.put (CacheKeys.loginAttempts identifier) (.number n)
        (some (now + secs loginLockoutSecs))).entry now (CacheKeys.loginAttempts identifier) =
      some ⟨.number n, some (now + secs loginLockoutSecs)⟩ := by
    intro st n now
    simp [Store.entry, Entry.visible, secs, loginLockoutSecs]
  rw [hlock] at hkept
  have hincr : CacheService.incr (s.1.now + c.elapsed) s.1.cache
      (CacheKeys.loginAttempts identifier) c.errorText
      (fun _ => some (s.1.now + c.elapsed + secs loginLockoutSecs)) =
      (.ok (count + 1), s.1.cache.put (CacheKeys.loginAttempts identifier) (.number (count + 1))
        (some (s.1.now + c.elapsed + secs loginLockoutSecs))) := by
    unfold CacheService.incr
    rcases hcount with hcount | ⟨hcount, rfl⟩
    · rw [hlive, hcount]
    · rw [hlive, hcount]
  rw [recorded_ans, recorded_state] at *
  simp only [handle_cache, CacheService.handle, hup, Bool.false_eq_true, if_false, World.evolve_now,
    hincr] at hkept ⊢
  exact ⟨trivial, hkept, .inl (hvisible _ _ _)⟩

/-- Writing the lock. -/
theorem lock_steady {c : Choice}
    (hc : Steady self identifier c s (.cache (.setValue (CacheKeys.accountLock identifier)
      (.flag true) (some loginLockoutSecs)))) :
    let t := (recorded self.handle c s (.cache (.setValue (CacheKeys.accountLock identifier)
      (.flag true) (some loginLockoutSecs)))).2
    shown self t.1 (CacheKeys.accountLock identifier) =
        some ⟨.flag true, some (t.1.now + secs loginLockoutSecs)⟩ ∧
      t.1.now = s.1.now + c.elapsed := by
  have hup : c.fails = false := by simpa using hc.1
  simp only [recorded_state, handle_cache, CacheService.handle, hup, Bool.false_eq_true, false_or,
    Option.getD_some, loginLockoutSecs, Nat.reduceEqDiff, if_false, World.evolve_now, and_true]
  simp [shown, Store.entry, Entry.visible, secs]

/-- Clearing the count. -/
theorem clear_steady {c : Choice}
    (hc : Steady self identifier c s (.cache (.delete (CacheKeys.loginAttempts identifier)))) :
    let t := (recorded self.handle c s (.cache (.delete (CacheKeys.loginAttempts identifier)))).2
    shown self t.1 (CacheKeys.loginAttempts identifier) = none ∧
      shown self t.1 (CacheKeys.accountLock identifier) =
        shown self s.1 (CacheKeys.accountLock identifier) := by
  have hup : c.fails = false := by simpa using hc.1
  refine ⟨?_, shown_of_steady hc (by simp) (by simp [lockoutKeys]) (by simp)⟩
  simp [handle_cache, CacheService.handle, hup, shown, Store.entry]

/-- What a login that has compared its password leaves behind. -/
structure Moved (identifier hash : String) (s : Traced self) (correct : Bool) (m : Lockout)
    (r : Result AuthResult) (t : Traced self) (now : ℕ) : Prop where
  carried : Carried identifier hash s t
  after : s.1.now ≤ now
  before : now ≤ t.1.now
  outcome : outcome r = (m.next now correct).1.1
  tracks : Tracks self identifier t.1 (m.next now correct).2

theorem failedLogin_ends {count deadline : ℕ} (haccount : Account self identifier hash s.1)
    (hm : Tracks self identifier s.1 (.unlocked count deadline)) :
    Ends self identifier
      (fun r t => ∃ now, Moved identifier hash s false (.unlocked count deadline) r t now)
      (failedLogin identifier).run s := by
  refine Safe.observeBind (safe_solo_eff.mpr ?_)
  intro c₁ hc₁
  rw [safe_ret]
  obtain ⟨hans, htracks⟩ := count_steady hm hc₁
  have hcarried := (Carried.refl haccount).step (o := .cache (.incrementWithTtl
    (CacheKeys.loginAttempts identifier) loginLockoutSecs)) (by simp [dbWrites]) (by simp) rfl c₁
  rw [hans]
  generalize (recorded self.handle c₁ s (.cache (.incrementWithTtl
    (CacheKeys.loginAttempts identifier) loginLockoutSecs))).2 = s₁ at htracks hcarried ⊢
  refine Safe.observeBind (safe_solo_eff.mpr ?_)
  intro c₂ hc₂
  rw [safe_ret]
  obtain ⟨haccount₁, hcompared₁, hnow₁⟩ := hcarried
  have hpublished := (Unmoved.refl haccount₁).read hc₂ (by simp [reading]) rfl
  generalize (recorded self.handle c₂ s₁ (.bus (.publish (.loginAttempt identifier false none)))).2 =
    s₂ at hpublished ⊢
  have htracks₂ := hpublished.tracks htracks
  obtain ⟨⟨haccount₂, hcompared₂, hnow₂⟩, -⟩ := hpublished
  split
  · rename_i hmax
    have hreached : ¬ count + 1 < loginMaxFailedAttempts := Nat.not_lt.mpr hmax
    refine Safe.observeBind (safe_solo_eff.mpr ?_)
    intro c₃ hc₃
    rw [safe_ret]
    obtain ⟨hlock, hsame⟩ := lock_steady hc₃
    have hcarried₃ := (Carried.refl haccount₂).step (o := .cache (.setValue
      (CacheKeys.accountLock identifier) (.flag true) (some loginLockoutSecs)))
      (by simp [dbWrites]) (by simp) rfl c₃
    generalize (recorded self.handle c₃ s₂ (.cache (.setValue (CacheKeys.accountLock identifier)
      (.flag true) (some loginLockoutSecs)))).2 = s₃ at hlock hcarried₃ hsame ⊢
    refine Safe.observeBind (safe_solo_eff.mpr ?_)
    intro c₄ hc₄
    rw [safe_ret]
    obtain ⟨hcleared, hkept⟩ := clear_steady hc₄
    have hcarried₄ := hcarried₃.step (o := .cache (.delete (CacheKeys.loginAttempts identifier)))
      (by simp [dbWrites]) (by simp) rfl c₄
    generalize hs₄ : (recorded self.handle c₄ s₃
      (.cache (.delete (CacheKeys.loginAttempts identifier)))).2 = s₄ at hcleared hkept hcarried₄ ⊢
    have hnow₄ : s₃.1.now ≤ s₄.1.now := hs₄ ▸ self.now_handle c₄ s₃.1 _
    refine Safe.observeBind (safe_solo_eff.mpr ?_)
    intro c₅ hc₅
    rw [safe_ret]
    have htracks₄ : Tracks self identifier s₄.1 (.locked (s₃.1.now + secs loginLockoutSecs)) :=
      ⟨hkept.trans hlock, hcleared⟩
    obtain ⟨haccount₄, hcompared₄, hnow₂₄⟩ := hcarried₄
    have hdone := (Unmoved.refl haccount₄).read hc₅ (by simp [reading]) rfl
    have htracks₅ := hdone.tracks htracks₄
    obtain ⟨⟨haccount₅, hcompared₅, hnow₅⟩, -⟩ := hdone
    refine ⟨s₃.1.now, ⟨haccount₅, ?_, ?_⟩, ?_, hnow₄.trans hnow₅, ?_, ?_⟩
    · rw [hcompared₅, hcompared₄, hcompared₂, hcompared₁]
    · exact hnow₁.trans (hnow₂.trans (hnow₂₄.trans hnow₅))
    · omega
    · simp [Lockout.next, hreached]
      rfl
    · simpa [Lockout.next, hreached] using htracks₅
  · rename_i hmax
    have hbelow : count + 1 < loginMaxFailedAttempts := Nat.not_le.mp hmax
    refine ⟨s₁.1.now, ⟨haccount₂, hcompared₂.trans hcompared₁, hnow₁.trans hnow₂⟩, hnow₁, hnow₂, ?_, ?_⟩
    · simp [Lockout.next, hbelow]
      rfl
    · simpa [Lockout.next, hbelow] using htracks₂

theorem successfulLogin_ends {count deadline : ℕ} {user : User}
    (haccount : Account self identifier hash s.1)
    (hm : Tracks self identifier s.1 (.unlocked count deadline)) :
    Ends self identifier
      (fun r t => ∃ now, Moved identifier hash s true (.unlocked count deadline) r t now)
      (self.successfulLogin identifier user).run s := by
  refine Safe.observeBind (safe_solo_eff.mpr ?_)
  intro c₁ hc₁
  rw [safe_ret]
  obtain ⟨hcleared, hkept⟩ := clear_steady hc₁
  have hcarried := (Carried.refl haccount).step (o := .cache (.delete
    (CacheKeys.loginAttempts identifier))) (by simp [dbWrites]) (by simp) rfl c₁
  generalize (recorded self.handle c₁ s
    (.cache (.delete (CacheKeys.loginAttempts identifier)))).2 = s₁ at hcleared hkept hcarried ⊢
  have htracks : Tracks self identifier s₁.1 (.unlocked 0 0) :=
    ⟨hkept.trans hm.1, .inr ⟨hcleared, rfl⟩⟩
  obtain ⟨haccount₁, hcompared₁, hnow₁⟩ := hcarried
  refine Safe.bindExcept (Safe.observeBind (safe_solo_eff.mpr ?_))
  intro c₂ hc₂
  have hclock := (Unmoved.refl haccount₁).read hc₂ (by simp [reading]) rfl
  refine safe_solo_eff.mpr ?_
  intro c₃ hc₃
  have hup : c₃.fails = false := by simpa using hc₃.1
  have hsigned := hclock.read hc₃ (by simp [reading]) rfl
  rw [safe_ret]
  simp only [recorded_ans, handle_host, hostHandle, hup, Bool.false_eq_true, if_false]
  refine Safe.observeBind (safe_solo_eff.mpr ?_)
  intro c₄ hc₄
  have hdone := hsigned.read hc₄ (by simp [reading]) rfl
  rw [safe_ret]
  have htracks₄ := hdone.tracks htracks
  obtain ⟨⟨haccount₄, hcompared₄, hnow₄⟩, -⟩ := hdone
  refine ⟨s₁.1.now, ⟨haccount₄, hcompared₄.trans hcompared₁, hnow₁.trans hnow₄⟩, hnow₁, hnow₄, rfl, ?_⟩
  exact htracks₄

/-- The password is compared with the stored hash. -/
theorem compare_steady {c : Choice} {m : Lockout} {password : String} {user : UserWithHash}
    {correct : Bool} (haccount : Account self identifier hash s.1)
    (hm : Tracks self identifier s.1 m) (hhash : user.passwordHash = hash)
    (hpassword : PasswordService.verifyPassword self.lib password hash = .ok correct)
    (hc : Steady self identifier c s (.host (.verifyPassword password user.passwordHash))) :
    let x := recorded self.handle c s (.host (.verifyPassword password user.passwordHash))
    x.1 = .ok correct ∧ Account self identifier hash x.2.1 ∧
      compared self x.2.2 = compared self s.2 + 1 ∧ s.1.now ≤ x.2.1.now ∧
      Tracks self identifier x.2.1 m := by
  have hup : c.fails = false := by simpa using hc.1
  have hkept : ∀ key ∈ lockoutKeys identifier, shown self (recorded self.handle c s
      (.host (.verifyPassword password user.passwordHash))).2.1 key = shown self s.1 key :=
    fun key hkey => shown_of_steady hc (by simp) hkey (by simp)
  have hlock := hkept (CacheKeys.accountLock identifier) (by simp [lockoutKeys])
  have hcount := hkept (CacheKeys.loginAttempts identifier) (by simp [lockoutKeys])
  refine ⟨?_, haccount.step (by simp [dbWrites]) (by simp) c, by simp [compares],
    self.now_handle c s.1 _, ?_⟩
  · simp [handle_host, hostHandle, hup, hhash, hpassword]
  · cases m <;> simpa only [Tracks, hlock, hcount] using hm

/-- What a login leaves behind. -/
structure Answered (identifier hash : String) (s : Traced self) (correct : Bool) (m : Lockout)
    (r : Result AuthResult) (t : Traced self) (now : ℕ) : Prop where
  account : Account self identifier hash t.1
  after : s.1.now ≤ now
  before : now ≤ t.1.now
  outcome : outcome r = (m.next now correct).1.1
  compared : compared self t.2 = compared self s.2 + (m.next now correct).1.2
  tracks : Tracks self identifier t.1 (m.next now correct).2

/-- A login from the answer to its check of the lock on. -/
def checkedLogin (self : AuthService) (identifier password : String) (answer : Result Bool) :
    Method AuthResult := do
  if answer.toOption.getD false then do
    let _ ← observe (eventBus (.publish (.loginAttempt identifier false none)))
    throw (.withCode .accountLocked
      "Account temporarily locked due to too many failed attempts")
  else do
    let userWithHash ← self.loginProfile identifier
    let isValid ← attempt (host (.verifyPassword password userWithHash.passwordHash))
    if isValid then self.successfulLogin identifier userWithHash.user else failedLogin identifier

theorem login_eq (password : String) : (self.login identifier password).run =
    .eff (.cache (.exists (CacheKeys.accountLock identifier)))
      (fun answer => (checkedLogin self identifier password answer).run) := rfl

theorem checkedLogin_limited (self : AuthService) (identifier password : String) (answer : Result Bool) :
    Limited (Call.login identifier password).footprint
      (checkedLogin self identifier password answer).run :=
  (self.login_limited identifier password).2 answer

theorem checkedLogin_ends {s₀ : Traced self} {m : Lockout} {password : String} {correct : Bool}
    (h : Unmoved identifier hash s₀ s) (hm : Tracks self identifier s₀.1 m)
    (hpassword : PasswordService.verifyPassword self.lib password hash = .ok correct) :
    Ends self identifier (fun r t => ∃ now, Answered identifier hash s₀ correct m r t now)
      (checkedLogin self identifier password
        (.ok (shown self s₀.1 (CacheKeys.accountLock identifier)).isSome)).run s := by
  cases m with
  | locked release =>
    rw [hm.1]
    refine Safe.observeBind (safe_solo_eff.mpr ?_)
    intro c₂ hc₂
    rw [safe_ret]
    have hdone := h.read hc₂ (by simp [reading]) rfl
    have htracks := hdone.tracks hm
    obtain ⟨⟨haccount₂, hcompared₂, hnow₂⟩, -⟩ := hdone
    exact ⟨s₀.1.now, haccount₂, Nat.le_refl _, hnow₂, rfl, hcompared₂, htracks⟩
  | unlocked count deadline =>
    rw [hm.1]
    refine Safe.bindExcept ((loginProfile_ends (fun _ _ _ hc => hc.2) h).mono ?_)
    rintro r s₂ ⟨hhashes, hfound, hprofile⟩
    obtain ⟨user, rfl⟩ := hfound (fun _ _ _ hc => hc)
    have hhash := hhashes user rfl
    have htracks := hprofile.tracks hm
    obtain ⟨⟨haccount₂, hcompared₂, hnow₂⟩, -⟩ := hprofile
    refine Safe.bindExcept (safe_solo_eff.mpr ?_)
    intro c₃ hc₃
    obtain ⟨hans₃, haccount₃, hcompared₃, hnow₃, htracks₃⟩ :=
      compare_steady haccount₂ htracks hhash hpassword hc₃
    rw [safe_ret, hans₃]
    have hassemble : ∀ {r t now}, Moved identifier hash (recorded self.handle c₃ s₂
        (.host (.verifyPassword password user.passwordHash))).2 correct
        (.unlocked count deadline) r t now →
        Answered identifier hash s₀ correct (.unlocked count deadline) r t now := by
      rintro r t now ⟨⟨haccount₄, hcompared₄, -⟩, hafter, hbefore, houtcome, htracks₄⟩
      refine ⟨haccount₄, hnow₂.trans (hnow₃.trans hafter), hbefore, houtcome, ?_, htracks₄⟩
      rw [hcompared₄, hcompared₃, hcompared₂, Lockout.next_compares]
    cases correct with
    | true =>
      exact (successfulLogin_ends haccount₃ htracks₃).mono (fun _ _ ⟨now, h⟩ => ⟨now, hassemble h⟩)
    | false =>
      exact (failedLogin_ends haccount₃ htracks₃).mono (fun _ _ ⟨now, h⟩ => ⟨now, hassemble h⟩)

/-- The check of the lock answers what the cache shows. -/
theorem lockCheck_steady {c : Choice}
    (hc : Steady self identifier c s (.cache (.exists (CacheKeys.accountLock identifier)))) :
    (recorded self.handle c s (.cache (.exists (CacheKeys.accountLock identifier)))).1 =
      .ok (shown self s.1 (CacheKeys.accountLock identifier)).isSome := by
  have hup : c.fails = false := by simpa using hc.1
  have hlive : s.1.cache.entry (s.1.now + c.elapsed) (CacheKeys.accountLock identifier) =
      shown self s.1 (CacheKeys.accountLock identifier) :=
    Store.entry_eq_of_live (Nat.le_add_right _ _) (hc.2 _ (by simp [lockoutKeys]))
  simp [handle_cache, CacheService.handle, hup, hlive]

end Specification

end IamService.LoginRuns
