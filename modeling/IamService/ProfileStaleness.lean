import IamService.LoginRuns
import IamService.ReferenceLibraries
import IamService.TimedCaches

/-!
# How long an old password still opens a session

A login checks its password against the profile in the cache, or against the row in the
table, which it then caches for five minutes. Timed runs serve calls while time passes and
somebody else edits the tables. No other call stores a profile, so a password that opens a
session was the password of an active row at most five minutes ago.
-/

namespace IamService.ProfileStaleness
open EffectPrograms ExpiringStore TimedCaches UserRepository AuthService

variable (self : AuthService)

/-- One step of a timed run. -/
inductive Step where
  | wait (ms : ℕ)
  | edit (db : Database self.lib.pgLower)
  | serve (r : Request)

/-- No time passes during a login, a verification or a reset. -/
def Step.Atomic : Step self → Prop
  | .serve ⟨.login .., f⟩ => ∀ n, (f n).elapsed = 0
  | .serve ⟨.verifyEmail _, f⟩ => ∀ n, (f n).elapsed = 0
  | .serve ⟨.resetPassword .., f⟩ => ∀ n, (f n).elapsed = 0
  | _ => True

def advance (w : self.State) : Step self → self.State
  | .wait ms => { w with now := w.now + ms }
  | .edit db => { w with db := db }
  | .serve r => self.after w r

/-- Timed runs of the service. -/
def timeline : Timeline self.State (Step self) String CacheValue where
  advance := advance self
  clock := World.now
  cache := World.cache

/-- A profile cached for a login identifier. -/
def Matters (k : String) (v : CacheValue) : Prop :=
  ∃ identifier p, k = CacheKeys.userProfile identifier ∧ v = .profile p

/-- The profile is that of an active row which the identifier names. -/
def Backs (w : self.State) (k : String) (v : CacheValue) : Prop :=
  ∀ identifier p, k = CacheKeys.userProfile identifier → v = .profile p →
    ∃ row ∈ w.db.users, named identifier row = true ∧ row.intoDomainWithHash = p

variable {self}

section OtherCalls

/-- The operation stores no profile, nor does it count in the place of one. -/
def Storeless (x : String) (o : Op) : Prop :=
  o.kind ∉ [.storeProfile, .countKey] ∨ o.writtenKey ≠ some (CacheKeys.userProfile x)

/-- A profile that is cached after such an operation was cached before, with the same expiry. -/
theorem Storeless.entry {x : String} {o : Op} (h : Storeless x o) {c : Choice} {w : self.State}
    {p : UserWithHash} {t : Option ℕ}
    (he : (self.handle c w o).2.cache (CacheKeys.userProfile x) = some ⟨.profile p, t⟩) :
    w.cache (CacheKeys.userProfile x) = some ⟨.profile p, t⟩ := by
  by_cases hkey : o.writtenKey = some (CacheKeys.userProfile x)
  · have hkind : o.kind ∉ [.storeProfile, .countKey] := by
      rcases h with h | h
      · exact h
      · exact absurd hkey h
    unfold Op.writtenKey at hkey
    split at hkey
    · rename_i key value ttl
      cases hkey
      rw [handle_cache] at he
      simp only [CacheService.handle] at he
      split at he
      · exact he
      · simp only [Store.put_same, Option.some.injEq, Entry.mk.injEq] at he
        rw [he.1] at hkind
        simp at hkind
    · cases hkey
      rw [handle_cache] at he
      simp only [CacheService.handle] at he
      split at he
      · exact he
      · simp at he
    · simp at hkind
    · simp at hkind
    · cases hkey
  · rwa [self.handle_cache_of_key hkey] at he

/-- A program that stores no profile leaves no entry of a profile that was not there. -/
theorem entry_of_storeless {α : Type} {program : Program α} {x : String}
    (hprogram : Issues (Storeless x) program) (f : ℕ → Choice) (w : self.State) {p : UserWithHash}
    {t : Option ℕ}
    (he : (run self.handle program f w).2.cache (CacheKeys.userProfile x) = some ⟨.profile p, t⟩) :
    w.cache (CacheKeys.userProfile x) = some ⟨.profile p, t⟩ := by
  refine Issues.run (fun w v : self.State =>
    v.cache (CacheKeys.userProfile x) = some ⟨.profile p, t⟩ →
      w.cache (CacheKeys.userProfile x) = some ⟨.profile p, t⟩) (fun _ h => h)
    (fun h₁ h₂ he => h₁ (h₂ he)) ?_ hprogram f w he
  intro c w o ho he
  exact ho.entry he

/-- Only a login stores profiles. -/
theorem storeless_of_call {call : Call} (h : ∀ s p, call ≠ .login s p) (x : String) :
    Issues (Storeless x) (self.method call).run := by
  have hlimited : (∀ k ∈ call.footprint, k ∉ [OpKind.storeProfile, .countKey]) →
      Issues (Storeless x) (self.method call).run :=
    fun hk => Issues.mono (fun o ho => .inl (hk o.kind ho)) (self.method_limited call)
  cases call with
  | login s p => exact absurd rfl (h s p)
  | checkRateLimit ip endpoint limit windowSecs =>
    have hspares : Spares (CacheKeys.userProfile x)
        (checkRateLimit ip endpoint limit windowSecs).run :=
      checkRateLimit_spares (CacheKeys.userProfile_ne_rateLimit x ip endpoint)
    exact Issues.mono (fun o ho => .inr ho) hspares
  | _ => exact hlimited (by simp)

end OtherCalls

section Login

/-- The environment of a call during which no time passes. -/
abbrev instant (self : AuthService) : Discipline Op Choice self.State :=
  .solo fun c _ _ => c.elapsed = 0

/-- What a login from `w` may have done: only the row that its identifier names is cached. -/
structure Served (w : self.State) (identifier : String) (v : self.State) : Prop where
  now : v.now = w.now
  db : v.db = w.db
  entries : ∀ x p t, v.cache (CacheKeys.userProfile x) = some ⟨.profile p, t⟩ →
    w.cache (CacheKeys.userProfile x) = some ⟨.profile p, t⟩ ∨
      x = identifier ∧ t = some (w.now + secs 300) ∧
        ∃ row ∈ w.db.users, named identifier row = true ∧ row.intoDomainWithHash = p

/-- Operations that change neither the tables nor the profiles, and take no time. -/
structure Quiet (o : Op) : Prop where
  tables : o.kind ∉ dbWrites
  awake : o.kind ≠ .sleep
  storeless : ∀ x, Storeless x o

variable {w v : self.State} {identifier : String} {c : Choice} {o : Op}

theorem Served.step (h : Served w identifier v) (ho : Quiet o) (hc : c.elapsed = 0) :
    Served w identifier (self.handle c v o).2 := by
  obtain ⟨hnow, hdb, hentries⟩ := h
  refine ⟨?_, ?_, ?_⟩
  · rw [LoginRuns.now_of_kind c v ho.awake, hc, Nat.add_zero, hnow]
  · rw [self.handle_db_of_kind ho.tables, hdb]
  · intro x p t hentry
    exact hentries x p t ((ho.storeless x).entry hentry)

/-- A part of a login that only issues quiet operations. -/
theorem Served.quiet {α : Type} {program : Program α} (h : Served w identifier v)
    (hprogram : Issues Quiet program) :
    Safe self.handle (instant self) (fun _ u => Served w identifier u) program v := by
  induction program generalizing v with
  | ret a => exact h
  | eff o k ih =>
    rw [safe_solo_eff]
    intro c hc
    exact ih _ (h.step hprogram.1 hc) (hprogram.2 _)

/-- A profile that a login may use: cached for the identifier, or that of a row it names. -/
def Source (w : self.State) (identifier : String) (p : UserWithHash) : Prop :=
  w.cache.get w.now (CacheKeys.userProfile identifier) = some (.profile p) ∨
    ∃ row ∈ w.db.users, named identifier row = true ∧ row.intoDomainWithHash = p

theorem Served.store (h : Served w identifier v) {row : UserRow} (hrow : row ∈ w.db.users)
    (hnamed : named identifier row = true) (hc : c.elapsed = 0) :
    Served w identifier (self.handle c v (.cache (.setValue (CacheKeys.userProfile identifier)
      (.profile row.intoDomainWithHash) (some 300)))).2 := by
  obtain ⟨hnow, hdb, hentries⟩ := h
  refine ⟨?_, ?_, ?_⟩
  · rw [LoginRuns.now_of_kind c v (by simp), hc, Nat.add_zero, hnow]
  · rw [handle_cache_db, hdb]
  · intro x p t hentry
    by_cases hx : x = identifier
    · subst hx
      rw [handle_cache] at hentry
      simp only [CacheService.handle] at hentry
      split at hentry
      · exact hentries x p t hentry
      · simp only [Store.put_same, Option.some.injEq, Entry.mk.injEq, CacheValue.profile.injEq,
          World.evolve_now, hc, Nat.add_zero, hnow, Option.getD_some] at hentry
        obtain ⟨hp, ht⟩ := hentry
        exact .inr ⟨rfl, ht.symm, row, hrow, hnamed, hp⟩
    · rw [self.handle_cache_of_key (by simp [Ne.symm hx])] at hentry
      exact hentries x p t hentry

theorem fetchProfile_served (h : Served w identifier v) :
    Safe self.handle (instant self) (fun r u => Served w identifier u ∧
      ∀ p, r = .ok p → Source w identifier p) (fetchProfile identifier).run v := by
  refine Safe.bindExcept (safe_solo_eff.mpr ?_)
  intro c hc
  have hread := h.step (o := .user (.findByUsernameOrEmail identifier))
    ⟨by simp [dbWrites], by simp, fun x => .inl (by simp)⟩ hc
  rw [safe_ret]
  cases hfound : (self.handle c v (.user (.findByUsernameOrEmail identifier))).1 with
  | error e =>
    refine ⟨hread, ?_⟩
    intro p hp
    cases hp
  | ok found =>
    have hrow : found = (RelationTables.limitOne c.pick (named identifier) v.db.users).map
      UserRow.intoDomainWithHash := (select_ok hfound).1
    subst hrow
    cases hpick : RelationTables.limitOne c.pick (named identifier) v.db.users with
    | none =>
      refine ⟨hread, ?_⟩
      intro p hp
      cases hp
    | some row =>
      obtain ⟨hmem, hnamed⟩ := RelationTables.limitOne_some hpick
      obtain ⟨-, hdb, -⟩ := h
      rw [hdb] at hmem
      refine Safe.observeBind (safe_solo_eff.mpr ?_)
      intro d hd
      rw [safe_ret]
      refine ⟨hread.store hmem hnamed hd, ?_⟩
      intro p hp
      cases hp
      exact .inr ⟨row, hmem, hnamed, rfl⟩

/-- A profile that is shown after a part of a login was shown before, or is that of a row. -/
theorem Served.source (h : Served w identifier v) {p : UserWithHash}
    (hshown : v.cache.get v.now (CacheKeys.userProfile identifier) = some (.profile p)) :
    Source w identifier p := by
  obtain ⟨hnow, -, hentries⟩ := h
  obtain ⟨⟨value, t⟩, hentry, hvisible, rfl⟩ := Store.get_eq_some.mp hshown
  rcases hentries identifier p t hentry with hold | ⟨-, -, hrow⟩
  · rw [hnow] at hvisible
    exact .inl (Store.get_eq_some.mpr ⟨_, hold, hvisible, rfl⟩)
  · exact .inr hrow

theorem loginProfile_served (h : Served w identifier v) :
    Safe self.handle (instant self) (fun r u => Served w identifier u ∧
      ∀ p, r = .ok p → Source w identifier p) (self.loginProfile identifier).run v := by
  rw [loginProfile_eq]
  refine safe_solo_eff.mpr ?_
  intro c hc
  have hread := h.step (o := .cache (.getValue (CacheKeys.userProfile identifier)))
    ⟨by simp [dbWrites], by simp, fun x => .inl (by simp)⟩ hc
  cases hcached : cachedProfile (self.handle c v
      (.cache (.getValue (CacheKeys.userProfile identifier)))).1 with
  | none => exact fetchProfile_served hread
  | some user =>
    have hshown := self.cachedProfile_shown hcached
    rw [hc, Nat.add_zero] at hshown
    refine ⟨hread, ?_⟩
    intro p hp
    cases hp
    exact h.source hshown

/-- A session is opened for the user whose profile was used. -/
theorem successfulLogin_returns (user : User) : Returns (fun r => ∀ a, r = .ok a → a.user = user)
    (self.successfulLogin identifier user).run := by
  refine Returns.observeBind ?_
  intro _
  unfold mintToken
  simp only [run_bind', run_observe, run_attempt, host, Prog.eff_bind, Prog.ret_bind, proceed_ok,
    returns_eff]
  intro now token
  cases token with
  | error e => simp
  | ok token => simp [eventBus]

/-- Few kinds of operations and no profile written: the operations are quiet. -/
theorem quiet_of_limited {α : Type} {program : Program α} {kinds : List OpKind}
    (hlimited : Limited kinds program) (htables : ∀ k ∈ kinds, k ∉ dbWrites)
    (hawake : OpKind.sleep ∉ kinds)
    (hspares : ∀ x, Spares (CacheKeys.userProfile x) program) : Issues Quiet program := by
  refine Issues.mono ?_ (hlimited.and (Issues.forall hspares))
  rintro o ⟨hkind, hkeys⟩
  exact ⟨htables _ hkind, fun he => hawake (he ▸ hkind), fun x => .inr (hkeys x)⟩

theorem successfulLogin_quiet (user : User) :
    Issues Quiet (self.successfulLogin identifier user).run :=
  quiet_of_limited (self.successfulLogin_limited identifier user) (by decide) (by decide)
    (fun x => successfulLogin_spares (CacheKeys.loginAttempts_ne_userProfile identifier x).symm)

theorem failedLogin_quiet : Issues Quiet (failedLogin identifier).run :=
  quiet_of_limited (failedLogin_limited identifier) (by decide) (by decide)
    (fun x => failedLogin_spares (CacheKeys.accountLock_ne_userProfile identifier x).symm
      (CacheKeys.loginAttempts_ne_userProfile identifier x).symm)

theorem Served.refl (w : self.State) (identifier : String) : Served w identifier w :=
  ⟨rfl, rfl, fun _ _ _ h => .inl h⟩

/-- A login that opens a session has checked its password against a profile it may use, and
opens the session for the user of that profile. -/
theorem login_served (w : self.State) (identifier password : String) :
    Safe self.handle (instant self) (fun r u => Served w identifier u ∧
      ∀ a, r = .ok a → ∃ p, Source w identifier p ∧ a.user = p.user ∧
        PasswordService.verifyPassword self.lib password p.passwordHash = .ok true)
      (self.login identifier password).run w := by
  refine Safe.observeBind (safe_solo_eff.mpr ?_)
  intro c hc
  rw [safe_ret]
  have hstart := (Served.refl w identifier).step
    (o := .cache (.exists (CacheKeys.accountLock identifier)))
    ⟨by simp [dbWrites], by simp, fun x => .inl (by simp)⟩ hc
  split
  · refine Safe.observeBind (safe_solo_eff.mpr ?_)
    intro d hd
    rw [safe_ret]
    refine ⟨hstart.step ⟨by simp [dbWrites], by simp, fun x => .inl (by simp)⟩ hd, ?_⟩
    intro a ha
    cases ha
  · refine Safe.bindExcept ((loginProfile_served hstart).mono ?_)
    rintro r v ⟨hserved, hsource⟩
    cases r with
    | error e =>
      refine ⟨hserved, ?_⟩
      intro a ha
      cases ha
    | ok p =>
      refine Safe.bindExcept (safe_solo_eff.mpr ?_)
      intro d hd
      rw [safe_ret]
      have hchecked := hserved.step (o := .host (.verifyPassword password p.passwordHash))
        ⟨by simp [dbWrites], by simp, fun x => .inl (by simp)⟩ hd
      cases hvalid : (self.handle d v (.host (.verifyPassword password p.passwordHash))).1 with
      | error e =>
        refine ⟨hchecked, ?_⟩
        intro a ha
        cases ha
      | ok isValid =>
        cases isValid with
        | true =>
          refine ((successfulLogin_returns p.user).safe
            (hchecked.quiet (successfulLogin_quiet p.user))).mono ?_
          rintro r u ⟨hreturns, hserved⟩
          exact ⟨hserved, fun a ha =>
            ⟨p, hsource p rfl, hreturns a ha, self.verifyPassword_ok hvalid⟩⟩
        | false =>
          refine ((failedLogin_refuses identifier).safe (hchecked.quiet failedLogin_quiet)).mono ?_
          rintro r u ⟨hrefuses, hserved⟩
          exact ⟨hserved, fun a ha => absurd ha (hrefuses a)⟩

/-- A login served alone during which no time passes. -/
theorem login_run {f : ℕ → Choice} (hf : ∀ n, (f n).elapsed = 0) (w : self.State)
    (identifier password : String) :
    let x := run self.handle (self.login identifier password).run f w
    Served w identifier x.2 ∧ ∀ a, x.1 = .ok a → ∃ p, Source w identifier p ∧ a.user = p.user ∧
      PasswordService.verifyPassword self.lib password p.passwordHash = .ok true :=
  (login_served w identifier password).encounters (Encounters.of_choices _ hf w)

end Login

/-- Logins fill the cache from the table; no other call stores a profile. -/
theorem refreshes (self : AuthService) :
    Refreshes (timeline self) (secs 300) (Step.Atomic self) Matters (Backs self) where
  clock_le := by
    intro w s _
    cases s with
    | wait ms => exact Nat.le_add_right _ _
    | edit db => exact Nat.le_refl _
    | serve r => exact self.now_run w _ _
  entry := by
    rintro w s hs _ ⟨_, t⟩ he ⟨x, p, rfl, rfl⟩
    cases s with
    | wait ms => exact .inl he
    | edit db => exact .inl he
    | serve r =>
      obtain ⟨call, f⟩ := r
      by_cases hlogin : ∃ identifier password, call = .login identifier password
      · obtain ⟨identifier, password, rfl⟩ := hlogin
        obtain ⟨⟨-, -, hentries⟩, -⟩ := login_run hs w identifier password
        rcases hentries x p t he with hold | ⟨rfl, ht, hrow⟩
        · exact .inl hold
        · refine .inr ⟨?_, ht⟩
          intro identifier q hkey hvalue
          rw [CacheKeys.userProfile_inj] at hkey
          subst hkey
          cases hvalue
          exact hrow
      · refine .inl (entry_of_storeless (storeless_of_call ?_ x) f w he)
        intro identifier password heq
        exact hlogin ⟨identifier, password, heq⟩

/-- A password that opens a session was the password of an active row that the identifier
named at most five minutes ago. -/
theorem password_staleness_bounded (self : AuthService) (w : self.State)
    (hw : ∀ k e, w.cache k = some e → ¬ Matters k e.value) (steps : List (Step self))
    (hatomic : ∀ s ∈ steps, s.Atomic) (identifier password : String) (f : ℕ → Choice)
    (hf : ∀ n, (f n).elapsed = 0) (session : AuthResult)
    (hlogin : (run self.handle (self.login identifier password).run f
      ((timeline self).after w steps)).1 = .ok session) :
    ∃ past, past <+: steps ∧
      ((timeline self).after w steps).now ≤ ((timeline self).after w past).now + secs 300 ∧
      ((timeline self).after w past).now ≤ ((timeline self).after w steps).now ∧
      ∃ row ∈ ((timeline self).after w past).db.users, row.isActive = true ∧
        row.id = session.user.id ∧ (row.username = identifier ∨ row.email = identifier) ∧
        PasswordService.verifyPassword self.lib password row.passwordHash = .ok true := by
  obtain ⟨p, hsource, huser, hverified⟩ := (login_run hf _ identifier password).2 session hlogin
  have hpast : ∃ past, past <+: steps ∧
      ((timeline self).after w steps).now ≤ ((timeline self).after w past).now + secs 300 ∧
      ((timeline self).after w past).now ≤ ((timeline self).after w steps).now ∧
      ∃ row ∈ ((timeline self).after w past).db.users,
        named identifier row = true ∧ row.intoDomainWithHash = p := by
    rcases hsource with hcached | hrow
    · obtain ⟨past, hpast, hlate, hearly, hbacks⟩ :=
        (refreshes self).read_granted hw hatomic hcached ⟨identifier, p, rfl, rfl⟩
      exact ⟨past, hpast, hlate, hearly, hbacks identifier p rfl rfl⟩
    · exact ⟨steps, List.prefix_rfl, Nat.le_add_right _ _, Nat.le_refl _, hrow⟩
  obtain ⟨past, hpre, hlate, hearly, row, hrow, hnamed, rfl⟩ := hpast
  simp only [named, decide_eq_true_eq] at hnamed
  refine ⟨past, hpre, hlate, hearly, row, hrow, hnamed.2, ?_, hnamed.1, hverified⟩
  rw [huser]
  rfl

section Alice
open ReferenceLibraries

def loginAlice : Request := ⟨.login "alice" "Str0ng!Pass", oracle []⟩

/-- Alice activates her account and logs in; her row is removed and 100 seconds pass. -/
def removal : List (Step service) :=
  [.serve registerAlice, .serve activateAlice, .serve loginAlice, .edit (Database.empty _),
    .wait (secs 100)]

theorem removal_atomic : ∀ s ∈ removal, s.Atomic := by
  intro s hs
  simp only [removal, List.mem_cons, List.not_mem_nil, or_false] at hs
  rcases hs with rfl | rfl | rfl | rfl | rfl
  · trivial
  · intro n
    rcases n with _ | _ | _ | n <;> rfl
  · exact fun n => rfl
  · trivial
  · trivial

/-- Her password still opens a session, and her row was there five minutes ago or less. -/
theorem removed_account_opens_session : ∃ session,
    (run service.handle (service.login "alice" "Str0ng!Pass").run (oracle [])
      ((timeline service).after (World.empty _) removal)).1 = .ok session ∧
    ∃ past, past <+: removal ∧
      ((timeline service).after (World.empty _) removal).now ≤
        ((timeline service).after (World.empty _) past).now + secs 300 ∧
      ((timeline service).after (World.empty _) past).now ≤
        ((timeline service).after (World.empty _) removal).now ∧
      ∃ row ∈ ((timeline service).after (World.empty _) past).db.users, row.isActive = true ∧
        row.id = session.user.id ∧ (row.username = "alice" ∨ row.email = "alice") ∧
        PasswordService.verifyPassword service.lib "Str0ng!Pass" row.passwordHash = .ok true := by
  have hopen : (run service.handle (service.login "alice" "Str0ng!Pass").run (oracle [])
      ((timeline service).after (World.empty _) removal)).1.toOption.isSome = true := by
    decide +kernel
  cases hlogin : (run service.handle (service.login "alice" "Str0ng!Pass").run (oracle [])
      ((timeline service).after (World.empty _) removal)).1 with
  | error e =>
    rw [hlogin] at hopen
    cases hopen
  | ok session =>
    refine ⟨session, rfl, ?_⟩
    have hempty : ∀ k e, (World.empty service.lib.pgLower).cache k = some e →
        ¬ Matters k e.value := by
      intro k e he
      cases he
    exact password_staleness_bounded service (World.empty _) hempty removal removal_atomic "alice"
      "Str0ng!Pass" (oracle []) (fun _ => rfl) session hlogin

end Alice

end IamService.ProfileStaleness
