import IamService.LoginRuns
import IamService.ReferenceStates

/-!
# The lockout is a small automaton

A reference machine for the logins of one identifier: failures are counted until a
deadline that moves with each of them, the fifth locks the identifier for fifteen minutes,
a correct password clears the count. Its state lives in the service as two cache keys with
a time to live of their own. Every timed list of logins is answered as the machine answers
it, and the password is looked at exactly when the machine looks at it.
-/

namespace IamService.LockoutAutomaton
open EffectPrograms ExpiringStore AuthService LoginRuns ReferenceLibraries

/-- A password is checked when `count` failures are remembered until `deadline`. The answer
comes with the number of passwords compared. -/
def check (now : ℕ) (correct : Bool) (count deadline : ℕ) : (Outcome × ℕ) × Lockout :=
  if correct then ((.success, 1), .unlocked 0 0)
  else
    let failures := 1 + if now < deadline then count else 0
    if failures < 5 then ((.invalidCredentials, 1), .unlocked failures (now + secs 900))
    else ((.accountLocked, 1), .locked (now + secs 900))

/-- One login at an instant. -/
def step (now : ℕ) (correct : Bool) : Lockout → (Outcome × ℕ) × Lockout
  | .unlocked count deadline => check now correct count deadline
  | .locked release =>
    if now < release then ((.accountLocked, 0), .locked release) else check now correct 0 0

/-- The answers of the machine to a timed list of passwords. -/
def answers (correct : String → Bool) : Lockout → List (ℕ × String) → List (Outcome × ℕ)
  | _, [] => []
  | m, (now, password) :: rest =>
    (step now (correct password) m).1 :: answers correct (step now (correct password) m).2 rest

/-- A login that happens at one instant: time passes only before its first operation. -/
structure Attempt where
  password : String
  oracle : ℕ → Choice
  atOnce : ∀ n, (oracle (n + 1)).elapsed = 0

section Service

variable (self : AuthService) (identifier : String)

/-- Serve a login and keep the history of its operations. -/
def attempt (w : self.State) (a : Attempt) : Result AuthResult × Traced self :=
  run (recorded self.handle) (self.login identifier a.password).run a.oracle (w, [])

def instant (w : self.State) (a : Attempt) : ℕ := w.now + (a.oracle 0).elapsed

/-- The outcomes of the logins, each with the number of passwords it compares. -/
def outcomes : self.State → List Attempt → List (Outcome × ℕ)
  | _, [] => []
  | w, a :: rest => (outcome (attempt self identifier w a).1,
      compared self (attempt self identifier w a).2.2) ::
      outcomes (attempt self identifier w a).2.1 rest

/-- When the passwords are tried. -/
def timeline : self.State → List Attempt → List (ℕ × String)
  | _, [] => []
  | w, a :: rest =>
    (instant self w a, a.password) :: timeline (attempt self identifier w a).2.1 rest

/-- No operation of a login fails, publications apart. -/
def Undisturbed (w : self.State) (a : Attempt) : Prop :=
  Encounters (recorded self.handle) (fun c _ o => o.kind = .publish ∨ c.fails = false)
    (self.login identifier a.password).run a.oracle (w, [])

instance (w : self.State) (a : Attempt) : Decidable (Undisturbed self identifier w a) := by
  unfold Undisturbed
  infer_instance

/-- Every login of the list is undisturbed in the state in which it is served. -/
def AllUndisturbed : self.State → List Attempt → Prop
  | _, [] => True
  | w, a :: rest =>
    Undisturbed self identifier w a ∧ AllUndisturbed (attempt self identifier w a).2.1 rest

instance decidableAllUndisturbed : (w : self.State) → (l : List Attempt) →
    Decidable (AllUndisturbed self identifier w l)
  | _, [] => inferInstanceAs (Decidable True)
  | w, a :: rest =>
    have := decidableAllUndisturbed (attempt self identifier w a).2.1 rest
    inferInstanceAs (Decidable (Undisturbed self identifier w a ∧
      AllUndisturbed self identifier (attempt self identifier w a).2.1 rest))

/-- What is left of a state of the machine at an instant. -/
def expire (now : ℕ) : Lockout → Lockout
  | .unlocked count deadline => if now < deadline then .unlocked count deadline else .unlocked 0 0
  | .locked release => if now < release then .locked release else .unlocked 0 0

/-- The cache shows what is left of the machine's state. -/
def Matches (w : self.State) (m : Lockout) : Prop :=
  Tracks self identifier w (expire w.now m)

end Service

section Machine

/-- A check counts on top of what is left of the count. -/
theorem check_eq (now : ℕ) (correct : Bool) (count deadline : ℕ) :
    check now correct count deadline =
      Lockout.next now correct (.unlocked (if now < deadline then count else 0) deadline) := by
  simp only [check, Lockout.next]
  rw [Nat.add_comm]
  rfl

/-- The machine forgets what has expired and goes on. -/
theorem step_eq (now : ℕ) (correct : Bool) (m : Lockout) :
    step now correct m = (expire now m).next now correct := by
  cases m with
  | unlocked count deadline =>
    rw [step, check_eq, expire]
    split <;> rfl
  | locked release =>
    rw [step, check_eq, expire]
    split
    · rfl
    · rw [if_neg (Nat.not_lt_zero _)]

end Machine

section Simulation

variable {self : AuthService} {identifier : String}

/-- What a key shows at a later instant. -/
theorem shown_later {w v : self.State} {key : String} (hcache : v.cache key = w.cache key)
    (hnow : w.now ≤ v.now) :
    shown self v key = (shown self w key).filter (fun e => e.visible v.now) := by
  unfold shown
  rw [Store.entry_congr hcache]
  cases hentry : w.cache.entry v.now key with
  | some e =>
    have hvisible := (Option.filter_eq_some_iff.mp hentry).2
    rw [Store.entry_of_later hentry hnow, Option.filter_some, if_pos hvisible]
  | none =>
    cases hbefore : w.cache.entry w.now key with
    | none => rfl
    | some e =>
      obtain ⟨hraw, -⟩ := Option.filter_eq_some_iff.mp hbefore
      simp only [Store.entry, hraw, Option.filter_some] at hentry
      rw [Option.filter_some]
      exact hentry.symm

/-- The match survives the passage of time. -/
theorem Matches.later {w v : self.State} {m : Lockout} (h : Matches self identifier w m)
    (hcache : v.cache = w.cache) (hnow : w.now ≤ v.now) : Matches self identifier v m := by
  have hlock : shown self v (CacheKeys.accountLock identifier) = _ :=
    shown_later (congrFun hcache _) hnow
  have hcount : shown self v (CacheKeys.loginAttempts identifier) = _ :=
    shown_later (congrFun hcache _) hnow
  unfold Matches at h ⊢
  cases m with
  | unlocked count deadline =>
    simp only [expire] at h ⊢
    by_cases hv : v.now < deadline
    · rw [if_pos (Nat.lt_of_le_of_lt hnow hv)] at h
      obtain ⟨h₁, h₂ | ⟨h₂, rfl⟩⟩ := h
      · simp [hv, Tracks, hlock, hcount, h₁, h₂, Entry.visible]
      · simp [hv, Tracks, hlock, hcount, h₁, h₂]
    · split at h
      · obtain ⟨h₁, h₂ | ⟨h₂, -⟩⟩ := h
        · simp [hv, Tracks, hlock, hcount, h₁, h₂, Entry.visible]
        · simp [hv, Tracks, hlock, hcount, h₁, h₂]
      · obtain ⟨h₁, h₂ | ⟨h₂, -⟩⟩ := h
        · simp [hv, Tracks, hlock, hcount, h₁, h₂, Entry.visible]
        · simp [hv, Tracks, hlock, hcount, h₁, h₂]
  | locked release =>
    simp only [expire] at h ⊢
    split at h
    · obtain ⟨h₁, h₂⟩ := h
      by_cases hv : v.now < release
      · simp [hv, Tracks, hlock, hcount, h₁, h₂, Entry.visible]
      · simp [hv, Tracks, hlock, hcount, h₁, h₂, Entry.visible]
    · rename_i hw
      have hv : ¬ v.now < release := fun hv => hw (Nat.lt_of_le_of_lt hnow hv)
      obtain ⟨h₁, h₂ | ⟨h₂, -⟩⟩ := h
      · simp [hv, Tracks, hlock, hcount, h₁, h₂, Entry.visible]
      · simp [hv, Tracks, hlock, hcount, h₁, h₂]

/-- The account survives the passage of time. -/
theorem account_later {w v : self.State} {hash : String} (h : Account self identifier hash w)
    (hdb : v.db = w.db) (hcache : v.cache = w.cache) (hnow : w.now ≤ v.now) :
    Account self identifier hash v := by
  obtain ⟨htext, hactive, hstored, hcached, hverifiable⟩ := h
  rw [← hdb] at hactive hstored
  refine ⟨htext, hactive, hstored, ?_, hverifiable⟩
  intro p hp
  rw [hcache] at hp
  exact hcached p (Store.get_of_later hp hnow)

theorem expire_expire (now : ℕ) (m : Lockout) : expire now (expire now m) = expire now m := by
  cases m with
  | unlocked count deadline =>
    by_cases hd : now < deadline
    · simp [expire, hd]
    · simp [expire, hd]
  | locked release =>
    by_cases hr : now < release
    · simp [expire, hr]
    · simp [expire, hr]

/-- A state of the machine that was just reached has not expired. -/
theorem expire_next (now : ℕ) (correct : Bool) (m : Lockout) :
    expire now ((expire now m).next now correct).2 = ((expire now m).next now correct).2 := by
  have hlive : now < now + secs loginLockoutSecs := by simp [secs, loginLockoutSecs]
  have hagain := expire_expire now m
  cases hm : expire now m with
  | locked release =>
    rw [hm] at hagain
    exact hagain
  | unlocked count deadline =>
    simp only [Lockout.next]
    split
    · simp [expire]
    · split <;> simp [expire, hlive]

/-- Without delays and without sleep time stands still. -/
theorem now_of_still {α : Type} {kinds : List OpKind} {p : Program α} (h : Limited kinds p)
    (hk : .sleep ∉ kinds) {f : ℕ → Choice} (hf : ∀ n, (f n).elapsed = 0) (s : Traced self) :
    (run (recorded self.handle) p f s).2.1.now = s.1.now := by
  induction p generalizing f s with
  | ret a => rfl
  | eff o k ih =>
    have hkind : o.kind ≠ .sleep := fun he => hk (he ▸ h.1)
    rw [run_eff, ih _ (h.2 _) (fun n => hf (n + 1)), recorded_state, now_of_kind _ _ hkind, hf 0,
      Nat.add_zero]

/-- While time stands still nothing expires. -/
theorem steady_of_still (identifier : String) {α : Type} {p : Program α} {f : ℕ → Choice} {s : Traced self}
    (h : Encounters (recorded self.handle) (fun c _ o => o.kind = .publish ∨ c.fails = false) p f s)
    (hf : ∀ n, (f n).elapsed = 0) :
    Encounters (recorded self.handle) (Steady self identifier) p f s := by
  refine Encounters.mono (R := fun c => c.elapsed = 0) ?_ h hf
  intro c s o hfails helapsed
  refine ⟨hfails, fun key _ hshown => ?_⟩
  rw [helapsed]
  exact hshown

/-- The service accepts a password for a hash. -/
def accepts (self : AuthService) (hash password : String) : Bool :=
  match PasswordService.verifyPassword self.lib password hash with
  | .ok valid => valid
  | .error _ => false

/-- A login answers as the machine does, and the match goes on. -/
theorem attempt_step {w : self.State} {a : Attempt} {m : Lockout} {hash : String}
    (haccount : Account self identifier hash w) (hm : Matches self identifier w m)
    (h : Undisturbed self identifier w a) :
    let x := attempt self identifier w a
    let y := step (instant self w a) (accepts self hash a.password) m
    (outcome x.1, compared self x.2.2) = y.1 ∧ Matches self identifier x.2.1 y.2 ∧
      Account self identifier hash x.2.1 := by
  dsimp only
  obtain ⟨correct, hcorrect⟩ : ∃ b, PasswordService.verifyPassword self.lib a.password hash = .ok b := by
    obtain ⟨-, -, -, -, hverifiable⟩ := haccount
    exact hverifiable a.password
  have haccepts : accepts self hash a.password = correct := by rw [accepts, hcorrect]
  -- the login as it is seen from the instant at which it happens
  let s₀ : Traced self := ({ w with now := instant self w a }, [])
  have hlater : w.now ≤ s₀.1.now := Nat.le_add_right _ _
  have haccount₀ : Account self identifier hash s₀.1 := account_later haccount rfl rfl hlater
  have hm₀ : Matches self identifier s₀.1 m := hm.later rfl hlater
  unfold Undisturbed at h
  unfold attempt
  rw [login_eq] at h ⊢
  rw [run_eff]
  have hup : (a.oracle 0).fails = false := by simpa using h.1
  have hans : (recorded self.handle (a.oracle 0) (w, [])
      (.cache (.exists (CacheKeys.accountLock identifier)))).1 =
      .ok (shown self s₀.1 (CacheKeys.accountLock identifier)).isSome := by
    simp [handle_cache, CacheService.handle, hup, shown, s₀, instant]
  have hsteady := steady_of_still identifier h.2 a.atOnce
  have hstart : Unmoved identifier hash s₀ (recorded self.handle (a.oracle 0) (w, [])
      (.cache (.exists (CacheKeys.accountLock identifier)))).2 := by
    refine ⟨⟨account_later haccount₀ rfl rfl (Nat.le_refl _), rfl, Nat.le_refl _⟩, ?_⟩
    intro key _
    rfl
  rw [hans] at hsteady ⊢
  have hstill := now_of_still (checkedLogin_limited self identifier a.password
    (.ok (shown self s₀.1 (CacheKeys.accountLock identifier)).isSome)) (by simp) a.atOnce
    (recorded self.handle (a.oracle 0) (w, [])
      (.cache (.exists (CacheKeys.accountLock identifier)))).2
  obtain ⟨now, haccount₁, hafter, hbefore, houtcome, hcompared, htracks⟩ :=
    (checkedLogin_ends hstart hm₀ hcorrect).encounters hsteady
  obtain rfl : now = instant self w a := Nat.le_antisymm (hbefore.trans_eq hstill) hafter
  rw [haccepts, step_eq]
  refine ⟨Prod.ext houtcome (hcompared.trans (Nat.zero_add _)), ?_, haccount₁⟩
  unfold Matches
  rw [hstill]
  exact (expire_next _ _ _).symm ▸ htracks

/-- Every timed list of logins for an identifier has the outcomes of the machine, and the
passwords are compared that the machine compares. -/
theorem outcomes_eq_answers {hash : String} (l : List Attempt) {w : self.State} {m : Lockout}
    (haccount : Account self identifier hash w) (hm : Matches self identifier w m)
    (h : AllUndisturbed self identifier w l) :
    outcomes self identifier w l =
      answers (accepts self hash) m (timeline self identifier w l) := by
  induction l generalizing w m with
  | nil => rfl
  | cons a l ih =>
    obtain ⟨hanswer, hm', haccount'⟩ := attempt_step haccount hm h.1
    rw [outcomes, timeline, answers, hanswer, ih haccount' hm' h.2]

end Simulation

section Alice

/-- A login after a delay. -/
def attemptAfter (delay : ℕ) (password : String) : Attempt where
  password := password
  oracle := fun n => if n = 0 then { elapsed := delay } else {}
  atOnce := fun _ => rfl

/-- Five failures a minute apart lock Alice out; a correct password is refused until the very
instant at which the lock expires, and then a single failure does not lock again. -/
def aliceAttempts : List Attempt :=
  List.replicate 5 (attemptAfter (secs 60) "wrong") ++
    [attemptAfter (secs 900 - 1) "Str0ng!Pass", attemptAfter 1 "wrong",
      attemptAfter (secs 60) "Str0ng!Pass"]

def aliceHash : String := "$argon2id$00000000$Str0ng!Pass"

theorem alice_account : Account service "alice" aliceHash activated := by
  rw [activated_eq]
  have hrow : (∃ u ∈ activatedState.db.users, UserRepository.named "alice" u = true) ∧
      (∀ u ∈ activatedState.db.users, UserRepository.named "alice" u = true →
        u.passwordHash = aliceHash) ∧
      (activatedState.cache.get activatedState.now (CacheKeys.userProfile "alice")).isNone = true := by
    decide +kernel
  refine ⟨by decide +kernel, hrow.1, hrow.2.1, ?_, ?_⟩
  · intro p hp
    rw [Option.isNone_iff_eq_none.mp hrow.2.2] at hp
    cases hp
  · intro password
    have hargon : CharacterSequences.startsWith aliceHash "$argon2" = true := by decide +kernel
    exact ⟨_, by rw [PasswordService.verifyPassword, if_pos hargon]; rfl⟩

theorem alice_unlocked : Matches service "alice" activated (.unlocked 0 0) := by
  rw [activated_eq]
  have hnone : (shown service activatedState (CacheKeys.accountLock "alice")).isNone = true ∧
      (shown service activatedState (CacheKeys.loginAttempts "alice")).isNone = true := by
    decide +kernel
  simp [Matches, expire, Tracks, Option.isNone_iff_eq_none.mp hnone.1,
    Option.isNone_iff_eq_none.mp hnone.2]

theorem alice_outcomes_eq_answers :
    outcomes service "alice" activated aliceAttempts =
        List.replicate 4 (.invalidCredentials, 1) ++ [(.accountLocked, 1), (.accountLocked, 0),
          (.invalidCredentials, 1), (.success, 1)] ∧
      outcomes service "alice" activated aliceAttempts = answers (accepts service aliceHash)
        (.unlocked 0 0) (timeline service "alice" activated aliceAttempts) := by
  have hrun : AllUndisturbed service "alice" activated aliceAttempts ∧
      outcomes service "alice" activated aliceAttempts =
        List.replicate 4 (.invalidCredentials, 1) ++ [(.accountLocked, 1), (.accountLocked, 0),
          (.invalidCredentials, 1), (.success, 1)] := by
    rw [activated_eq]
    decide +kernel
  have haccount := alice_account
  have hmatches := alice_unlocked
  rw [activated_eq] at hrun haccount hmatches ⊢
  exact ⟨hrun.2, outcomes_eq_answers aliceAttempts haccount hmatches hrun.1⟩

end Alice

end IamService.LockoutAutomaton
