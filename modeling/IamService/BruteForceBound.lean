import IamService.ExclusiveSections
import IamService.LockoutAutomaton

/-!
# How many passwords a brute-force attack compares

Any number of logins with wrong passwords run together for one identifier. The lock is
checked by the first operation of a login and written near its end, so logins that overlap
all pass the check before any of them locks the identifier. When no login checks the lock
while another one is under way, at most five passwords are compared.
-/

namespace IamService.BruteForceBound
open EffectPrograms ExpiringStore AuthService LoginRuns LockoutAutomaton ReferenceLibraries

variable (self : AuthService) (identifier : String)

/-- The logins for the identifier, one for each password. -/
def logins (passwords : List String) : List (Program (Result AuthResult)) :=
  passwords.map (fun password => (self.login identifier password).run)

/-- The operation is a command of the cache or a comparison. -/
def guarded : Op → Bool
  | .cache _ => true
  | .host (.verifyPassword ..) => true
  | _ => false

/-- The cache does not fail, a comparison that has begun ends, and no entry of the lockout
expires. -/
def Undisturbed (c : Choice) (s : Traced self) (o : Op) : Prop :=
  (guarded o = true → c.fails = false) ∧ Unexpired self identifier c s

instance (c : Choice) (s : Traced self) (o : Op) : Decidable (Undisturbed self identifier c s o) :=
  inferInstanceAs (Decidable (_ ∧ _))

/-- The operation checks a lock. -/
def checksLock : Op → Bool
  | .cache (.exists _) => true
  | _ => false

/-- The count of failures accounts for the passwords compared. -/
structure Accounted (hash : String) (s : Traced self) : Prop where
  account : Account self identifier hash s.1
  counted : ∃ m, Tracks self identifier s.1 m ∧ match m with
    | .unlocked count _ => compared self s.2 = count ∧ count < loginMaxFailedAttempts
    | .locked _ => compared self s.2 ≤ loginMaxFailedAttempts

variable {self identifier}

section Sections

theorem limited_passed {α : Type} {kinds : List OpKind} {p : Program α} (h : Limited kinds p)
    (hk : .readCache ∉ kinds) : Entered checksLock p := by
  refine Issues.mono ?_ h
  intro o ho
  unfold checksLock
  split
  · exact absurd ho hk
  · rfl

/-- Once the lock has been checked it is not checked again. -/
theorem checkedLogin_entered (password : String) (answer : Result Bool) :
    Entered checksLock (checkedLogin self identifier password answer).run := by
  unfold checkedLogin
  split
  · simp [Entered, eventBus, checksLock]
  · refine Issues.bindExcept ?_ ?_
    · rw [loginProfile_eq]
      refine ⟨rfl, ?_⟩
      intro shown
      dsimp only
      split
      · trivial
      · exact limited_passed (fetchProfile_limited identifier) (by decide)
    · intro user
      refine Issues.bindExcept (by simp [host, checksLock]) ?_
      intro isValid
      split
      · exact limited_passed (self.successfulLogin_limited identifier user.user) (by decide)
      · exact limited_passed (failedLogin_limited identifier) (by decide)

theorem login_enclosed (password : String) :
    Enclosed checksLock (self.login identifier password).run := by
  rw [login_eq]
  exact ⟨rfl, checkedLogin_entered password⟩

/-- A guarded operation or a publication finds a steady environment. -/
theorem Undisturbed.steady {c : Choice} {s : Traced self} {o : Op}
    (h : Undisturbed self identifier c s o) (ho : guarded o = true ∨ o.kind = .publish) :
    Steady self identifier c s o := by
  refine ⟨?_, h.2⟩
  rcases ho with ho | ho
  · exact .inr (h.1 ho)
  · exact .inl ho

theorem failedLogin_guarded :
    Issues (fun o => guarded o = true ∨ o.kind = .publish) (failedLogin identifier).run := by
  refine Issues.mono ?_ (failedLogin_limited identifier)
  intro o ho
  unfold Op.kind at ho ⊢
  split at ho <;> simp_all [guarded]

/-- Whatever a login has done without a comparison, the account stays. -/
theorem Accounted.unmoved {hash : String} {s t : Traced self} (h : Accounted self identifier hash s)
    (ht : Unmoved identifier hash s t) : Accounted self identifier hash t := by
  obtain ⟨-, m, hm, hcounted⟩ := h
  have htracks := ht.tracks hm
  obtain ⟨⟨haccount, hcompared, -⟩, -⟩ := ht
  refine ⟨haccount, m, htracks, ?_⟩
  rw [hcompared]
  exact hcounted

/-- One more failure is counted for one more comparison, or locks the identifier. -/
theorem accounted_failure {hash : String} {s t : Traced self} {count deadline now : ℕ}
    {r : Result AuthResult} (hcount : compared self s.2 = count + 1)
    (hbelow : count < loginMaxFailedAttempts)
    (h : Moved identifier hash s false (.unlocked count deadline) r t now) :
    Accounted self identifier hash t := by
  obtain ⟨⟨haccount, hcompared, -⟩, -, -, -, htracks⟩ := h
  refine ⟨haccount, _, htracks, ?_⟩
  rw [hcompared, hcount]
  by_cases hnext : count + 1 < loginMaxFailedAttempts
  · simp [Lockout.next, hnext]
  · simp only [Lockout.next, hnext, if_false, Bool.false_eq_true]
    exact hbelow

/-- A login with a wrong password that runs alone keeps the account of the comparisons. -/
theorem login_accounted {hash password : String} {s : Traced self}
    (h : Accounted self identifier hash s)
    (hwrong : PasswordService.verifyPassword self.lib password hash = .ok false) :
    Safe (recorded self.handle) (Discipline.solo (Undisturbed self identifier))
      (fun _ t => Accounted self identifier hash t) (self.login identifier password).run s := by
  rw [login_eq]
  refine safe_solo_eff.mpr ?_
  intro c₁ hc₁
  rw [lockCheck_steady (hc₁.steady (.inl rfl))]
  obtain ⟨haccount, m, hm, hcounted⟩ := id h
  have hchecked : Unmoved identifier hash s (recorded self.handle c₁ s
      (.cache (.exists (CacheKeys.accountLock identifier)))).2 :=
    (Unmoved.refl haccount).unexpired hc₁.2 (by simp [reading]) rfl
  cases m with
  | locked release =>
    rw [hm.1]
    refine Safe.observeBind (safe_solo_eff.mpr ?_)
    intro c₂ hc₂
    rw [safe_ret]
    exact h.unmoved (hchecked.unexpired hc₂.2 (by simp [reading]) rfl)
  | unlocked count deadline =>
    obtain ⟨hcount, hbelow⟩ := hcounted
    rw [hm.1]
    refine Safe.bindExcept ((loginProfile_ends (fun _ _ _ hc => hc.2) hchecked).mono ?_)
    rintro r s₂ ⟨hhash, -, hprofile⟩
    cases r with
    | error e => exact h.unmoved hprofile
    | ok user =>
      have htracks := hprofile.tracks hm
      obtain ⟨⟨haccount₂, hcompared₂, -⟩, -⟩ := hprofile
      refine Safe.bindExcept (safe_solo_eff.mpr ?_)
      intro c₃ hc₃
      obtain ⟨hans, haccount₃, hcompared₃, -, htracks₃⟩ :=
        compare_steady haccount₂ htracks (hhash user rfl) hwrong (hc₃.steady (.inl rfl))
      rw [safe_ret, hans]
      refine failedLogin_guarded.readmits (fun _ _ _ ho hc => hc.steady ho)
        ((failedLogin_ends haccount₃ htracks₃).mono ?_)
      rintro _ t ⟨now, hmoved⟩
      exact accounted_failure (by rw [hcompared₃, hcompared₂, hcount]) hbelow hmoved

theorem Accounted.bounded {hash : String} {s : Traced self} (h : Accounted self identifier hash s) :
    compared self s.2 ≤ loginMaxFailedAttempts := by
  obtain ⟨-, m, -, hcounted⟩ := h
  cases m with
  | locked release => exact hcounted
  | unlocked count deadline =>
    obtain ⟨hcount, hbelow⟩ := hcounted
    omega

/-- A login under way has compared no more passwords than it will have at its end. -/
theorem compared_le_end {α : Type} {P : Traced self → Prop} {p : Program α} {s : Traced self}
    (h : Safe (recorded self.handle) (Discipline.solo (Undisturbed self identifier))
      (fun _ t => P t) p s) : ∃ t, P t ∧ compared self s.2 ≤ compared self t.2 := by
  induction p generalizing s with
  | ret a => exact ⟨s, h, Nat.le_refl _⟩
  | eff o k ih =>
    have hcalm : Undisturbed self identifier {} s o := ⟨fun _ => rfl, fun _ _ hshown => hshown⟩
    obtain ⟨t, ht, hle⟩ := ih _ (safe_solo_eff.mp h {} hcalm)
    refine ⟨t, ht, ?_⟩
    rw [recorded_history, compared_append] at hle
    omega

end Sections

/-- Logins with wrong passwords that do not overlap compare at most five of them. -/
theorem comparisons_bounded {hash : String} {passwords : List String} {w : self.State}
    {l : List (ℕ × Choice)} (haccount : Account self identifier hash w)
    (hlock : shown self w (CacheKeys.accountLock identifier) = none)
    (hcount : shown self w (CacheKeys.loginAttempts identifier) = none)
    (hwrong : ∀ password ∈ passwords,
      PasswordService.verifyPassword self.lib password hash = .ok false)
    (h : Throughout (recorded self.handle) (Exclusive checksLock (Undisturbed self identifier))
      ((w, []), logins self identifier passwords) l) :
    compared self (schedule (recorded self.handle) ((w, []), logins self identifier passwords) l).1.2 ≤
      loginMaxFailedAttempts := by
  have hstart : Accounted self identifier hash (w, []) :=
    ⟨haccount, .unlocked 0 0, ⟨hlock, .inr ⟨hcount, rfl⟩⟩, rfl, by decide⟩
  have hlogins : ∀ p ∈ logins self identifier passwords, Enclosed checksLock p ∧
      ∀ s, Accounted self identifier hash s → Safe (recorded self.handle)
        (Discipline.solo (Undisturbed self identifier))
        (fun _ t => Accounted self identifier hash t) p s := by
    intro p hp
    obtain ⟨password, hpassword, rfl⟩ := List.mem_map.mp hp
    exact ⟨login_enclosed password, fun s hs => login_accounted hs (hwrong password hpassword)⟩
  have hrun := oneOpen_schedule hstart hlogins h
  rcases hrun with ⟨hsettled, -⟩ | ⟨i, p, -, ⟨-, hsafe⟩, -⟩
  · exact hsettled.bounded
  · obtain ⟨t, ht, hle⟩ := compared_le_end hsafe
    exact hle.trans ht.bounded

section Alice

/-- Six wrong passwords. -/
def guesses : List String := List.replicate 6 "wrong"

/-- The logins one after the other. -/
def oneByOne : List (ℕ × Choice) :=
  ((List.range 6).flatMap (fun i => List.replicate 11 i)).map (fun i => (i, {}))

/-- Every login checks the lock before any of them goes on. -/
def overlapping : List (ℕ × Choice) :=
  (List.range 6 ++ (List.range 6).flatMap (fun i => List.replicate 10 i)).map (fun i => (i, {}))

/-- Five wrong passwords are compared when the logins follow one another. -/
theorem one_by_one_compares_five :
    compared service (schedule (recorded service.handle)
        ((activated, []), logins service "alice" guesses) oneByOne).1.2 = 5 ∧
      compared service (schedule (recorded service.handle)
        ((activated, []), logins service "alice" guesses) oneByOne).1.2 ≤
          loginMaxFailedAttempts := by
  have hrun : Throughout (recorded service.handle) (Exclusive checksLock (Undisturbed service "alice"))
        ((activated, []), logins service "alice" guesses) oneByOne ∧
      compared service (schedule (recorded service.handle)
        ((activated, []), logins service "alice" guesses) oneByOne).1.2 = 5 := by
    rw [activated_eq]
    decide +kernel
  have hnone : (shown service activated (CacheKeys.accountLock "alice")).isNone = true ∧
      (shown service activated (CacheKeys.loginAttempts "alice")).isNone = true := by
    rw [activated_eq]
    decide +kernel
  refine ⟨hrun.2, comparisons_bounded alice_account (Option.isNone_iff_eq_none.mp hnone.1)
    (Option.isNone_iff_eq_none.mp hnone.2) ?_ hrun.1⟩
  intro password hpassword
  rw [List.eq_of_mem_replicate hpassword]
  decide +kernel

/-- Six logins that overlap compare six wrong passwords. -/
theorem overlapping_logins_compare_six :
    ¬ ∀ (identifier hash : String) (passwords : List String) (w : service.State)
        (l : List (ℕ × Choice)), Account service identifier hash w →
        shown service w (CacheKeys.accountLock identifier) = none →
        shown service w (CacheKeys.loginAttempts identifier) = none →
        (∀ password ∈ passwords,
          PasswordService.verifyPassword service.lib password hash = .ok false) →
        (∀ j ∈ l, j.2.fails = false ∧ j.2.elapsed = 0) →
        compared service (schedule (recorded service.handle)
          ((w, []), logins service identifier passwords) l).1.2 ≤ loginMaxFailedAttempts := by
  intro h
  have hrun : (∀ j ∈ overlapping, j.2.fails = false ∧ j.2.elapsed = 0) ∧
      compared service (schedule (recorded service.handle)
        ((activated, []), logins service "alice" guesses) overlapping).1.2 = 6 ∧
      (shown service activated (CacheKeys.accountLock "alice")).isNone = true ∧
      (shown service activated (CacheKeys.loginAttempts "alice")).isNone = true := by
    rw [activated_eq]
    decide +kernel
  have hbound := h "alice" aliceHash guesses activated overlapping alice_account
    (Option.isNone_iff_eq_none.mp hrun.2.2.1) (Option.isNone_iff_eq_none.mp hrun.2.2.2) (by
      intro password hpassword
      rw [List.eq_of_mem_replicate hpassword]
      decide +kernel) hrun.1
  rw [hrun.2.1] at hbound
  exact absurd hbound (by decide)

end Alice

end IamService.BruteForceBound
