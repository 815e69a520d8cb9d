import IamService.LoginRuns
import IamService.PasswordResetRevocation
import IamService.ReferenceStates

/-!
# Logins that race a password reset

One reset runs together with any number of logins for its account. After the password has
been changed the reset deletes the profiles cached for the account. A login that looked
the account up before the change may store what it found after the deletion, and so bring
the old password back. As long as no login does, every login that starts after the reset
has returned matches its password with the new hash.
-/

namespace IamService.ResetLoginRace
open EffectPrograms RelationTables ExpiringStore UserRepository AuthService LoginRuns
open PasswordResetRevocation ReferenceLibraries

variable (self : AuthService) (u : UserRow) (token : String)

/-- The identifiers under which the account logs in. -/
def identifiers : List String := [u.username, u.email]

/-- Whether the profile of an identifier has been deleted since the last change of a
password. -/
def settles (identifier : String) (settled : Bool) : Op → Bool
  | .user (.updatePassword ..) => false
  | .cache (.delete key) => settled || key = CacheKeys.userProfile identifier
  | _ => settled

def settled (h : List (Observed Op.Ans self.State)) (identifier : String) : Bool :=
  h.foldl (fun b ob => settles identifier b ob.op) false

instance (users : List UserRow) (identifier : String) (p : UserWithHash) :
    Decidable (Current users identifier p) := by
  unfold Current Owns
  infer_instance

/-- The step does not bring back a profile: once the profile of an identifier has been
deleted, only the password in the database is cached for it. -/
def NotStale (s : Traced self) : Op → Prop
  | .cache (.setValue key (.profile p) _) => ∀ x ∈ identifiers u, key = CacheKeys.userProfile x →
      settled self s.2 x = true → Current s.1.db.users x p
  | _ => True

/-- The cache does not fail. -/
def CacheUp (c : Choice) : Op → Prop
  | .cache _ => c.fails = false
  | _ => True

/-- The steps of a run without a failure of the cache and without a stale profile. -/
def Orderly (c : Choice) (s : Traced self) (o : Op) : Prop := CacheUp c o ∧ NotStale self u s o

instance (s : Traced self) (o : Op) : Decidable (NotStale self u s o) := by
  unfold NotStale
  split <;> infer_instance

instance (c : Choice) : (o : Op) → Decidable (CacheUp c o)
  | .cache _ => inferInstanceAs (Decidable (c.fails = false))
  | .user _ | .wallet _ | .bus _ | .chain _ | .host _ => inferInstanceAs (Decidable True)

instance (c : Choice) (s : Traced self) (o : Op) : Decidable (Orderly self u c s o) :=
  inferInstanceAs (Decidable (_ ∧ _))

/-- The account is active, its identifiers are its own, and a reset token, if there is one,
carries its email in lower case. -/
structure Resettable (w : self.State) : Prop where
  active : ∃ v ∈ w.db.users, v.username = u.username ∧ v.email = u.email ∧ v.isActive = true
  sole : ∀ v ∈ w.db.users, ∀ x ∈ identifiers u, Owns v x → v.username = u.username
  token : ∀ e, w.cache (CacheKeys.passwordResetToken token) = some e →
    e.value = .text (self.lib.toLowercase u.email)

/-- The profiles that have been deleted since the change are stored again with the password
in the database only. -/
structure Guarded (s : Traced self) : Prop where
  account : Resettable self u token s.1
  fresh : ∀ x ∈ identifiers u, settled self s.2 x = true → ∀ p t,
    s.1.cache (CacheKeys.userProfile x) = some ⟨.profile p, t⟩ → Current s.1.db.users x p

/-- Operations that leave names alone and do not replace the token. -/
def Tame (o : Op) : Prop :=
  (o.kind ∉ dbWrites ∨ o.kind = .updatePassword) ∧
    (o.writtenKey = some (CacheKeys.passwordResetToken token) → o.kind = .deleteKey)

/-- The operations of logins. -/
def Reading (o : Op) : Prop :=
  o.kind ∉ dbWrites ∧ o.writtenKey ≠ some (CacheKeys.passwordResetToken token)

/-- Logins leave the database alone and take no deletion back. -/
def Undisturbed (s t : Traced self) : Prop :=
  t.1.db = s.1.db ∧ ∀ x, settled self s.2 x = true → settled self t.2 x = true

/-- The terms on which the reset runs beside logins. -/
def resetting : Discipline Op Choice (Traced self) where
  inv := Guarded self u token
  rely := Undisturbed self
  permits := fun _ o => Tame token o
  admits := Orderly self u

/-- Every profile of the account has been deleted since the change. -/
def Settled (s : Traced self) : Prop := ∀ x ∈ identifiers u, settled self s.2 x = true

/-- The terms on which a login runs after the reset, beside other logins: the database has
been left as it is. -/
def afterwards (db : Database self.lib.pgLower) : Discipline Op Choice (Traced self) where
  inv := fun s => Guarded self u token s ∧ Settled self u s ∧ s.1.db = db
  rely := fun _ _ => True
  permits := fun _ o => Reading token o
  admits := Orderly self u

variable {self u token}

section Steps

variable {c : Choice} {s : Traced self} {o : Op}

@[simp] theorem settled_append (h : List (Observed Op.Ans self.State))
    (ob : Observed Op.Ans self.State) (x : String) :
    settled self (h ++ [ob]) x = settles x (settled self h x) ob.op := by
  simp [settled, List.foldl_append]

theorem Reading.tame (h : Reading token o) : Tame token o := ⟨.inl h.1, fun hk => absurd hk h.2⟩

/-- The names of all accounts are as before. -/
theorem names_step (ho : Tame token o) (c : Choice) (w : self.State) :
    (self.handle c w o).2.db.users.map (fun v => (v.username, v.email, v.isActive)) =
      w.db.users.map (fun v => (v.username, v.email, v.isActive)) := by
  rcases ho.1 with hdb | hdb
  · rw [self.handle_db_of_kind hdb]
  · cases o with
    | user q =>
      cases q with
      | updatePassword email hash =>
        rw [handle_user]
        rcases updatePassword_cases c w.db email hash with ⟨e, h⟩ | ⟨text, db', -, h, -, hu⟩
        · simp only [UserRepository.handle, h]
        · simp only [UserRepository.handle, h, hu]
          exact map_updateWhere _ _ (fun _ => rfl)
      | _ => simp at hdb
    | wallet q => cases q <;> simp at hdb
    | cache q => exact congrArg _ rfl
    | bus q => rfl
    | chain q => rfl
    | host q => rw [handle_host_db]

theorem resettable_step (ho : Tame token o) {w : self.State} (h : Resettable self u token w)
    (c : Choice) : Resettable self u token (self.handle c w o).2 := by
  obtain ⟨⟨v, hv, hname, hmail, hactive⟩, hsole, htoken⟩ := h
  have hnames := names_step ho c w
  refine ⟨?_, ?_, ?_⟩
  · obtain ⟨v', hv', he⟩ := exists_of_map_eq _ hnames hv
    simp only [Prod.mk.injEq] at he
    exact ⟨v', hv', he.1.trans hname, he.2.1.trans hmail, he.2.2.trans hactive⟩
  · intro v' hv' x hx hown
    obtain ⟨v₀, hv₀, he⟩ := exists_of_map_eq _ hnames.symm hv'
    simp only [Prod.mk.injEq] at he
    rw [← he.1]
    refine hsole v₀ hv₀ x hx ?_
    unfold Owns at hown ⊢
    rwa [he.1, he.2.1]
  · intro e he
    by_cases hk : o.writtenKey = some (CacheKeys.passwordResetToken token)
    · have hdelete := ho.2 hk
      cases o with
      | cache q =>
        cases q with
        | delete key =>
          rcases self.delete_kept w c key (CacheKeys.passwordResetToken token) with hkept | hgone
          · exact htoken e (hkept.symm.trans he)
          · cases hgone.symm.trans he
        | setValue key value ttl => cases value <;> simp at hdelete
        | increment key => simp at hdelete
        | incrementWithTtl key ttl => simp at hdelete
        | getValue key => cases hk
        | «exists» key => cases hk
      | _ => cases hk
    · rw [self.handle_cache_of_key hk] at he
      exact htoken e he

theorem guarded_step (hs : Guarded self u token s) (ho : Tame token o)
    (hc : Orderly self u c s o) : Guarded self u token (recorded self.handle c s o).2 := by
  obtain ⟨haccount, hfresh⟩ := hs
  refine ⟨resettable_step ho haccount c, ?_⟩
  intro x hx hsettled p t hp
  rw [recorded_state] at hp ⊢
  rw [recorded_history, settled_append] at hsettled
  dsimp only at hsettled
  by_cases hupdate : o.kind = .updatePassword
  · cases o with
    | user q => cases q <;> simp [settles] at hupdate hsettled
    | wallet q => cases q <;> simp at hupdate
    | cache q =>
      cases q with
      | setValue key value ttl => cases value <;> simp at hupdate
      | _ => simp at hupdate
    | bus q => simp at hupdate
    | chain q => cases q <;> simp at hupdate
    | host q => cases q <;> simp at hupdate
  · have hdb : (self.handle c s.1 o).2.db = s.1.db :=
      self.handle_db_of_kind (ho.1.resolve_right hupdate) c s.1
    rw [hdb]
    by_cases hdelete : o = .cache (.delete (CacheKeys.userProfile x))
    · subst hdelete
      have hgone := self.delete_same s.1 hc.1 (CacheKeys.userProfile x)
      cases hgone.symm.trans hp
    · have hbefore : settled self s.2 x = true := by
        unfold settles at hsettled
        split at hsettled
        · cases hsettled
        · simp only [Bool.or_eq_true, decide_eq_true_eq] at hsettled
          refine hsettled.resolve_right ?_
          rintro rfl
          exact hdelete rfl
        · exact hsettled
      rcases self.profile_before hp with ⟨t', hold⟩ | ⟨ttl, rfl⟩
      · exact hfresh x hx hbefore p t' hold
      · exact hc.2 x hx rfl hbefore

theorem settled_reading (ho : Reading token o) (x : String) (h : settled self s.2 x = true) :
    settled self (recorded self.handle c s o).2.2 x = true := by
  rw [recorded_history, settled_append]
  dsimp only
  unfold settles
  split
  · simp [Reading, dbWrites] at ho
  · simp [h]
  · exact h

theorem undisturbed_reading (ho : Reading token o) :
    Undisturbed self s (recorded self.handle c s o).2 :=
  ⟨self.handle_db_of_kind ho.1 c s.1, fun x hx => settled_reading ho x hx⟩

theorem Undisturbed.trans {s t r : Traced self} (h₁ : Undisturbed self s t)
    (h₂ : Undisturbed self t r) : Undisturbed self s r :=
  ⟨h₂.1.trans h₁.1, fun x hx => h₂.2 x (h₁.2 x hx)⟩

theorem resetting_tolerates :
    (resetting self u token).Tolerates (recorded self.handle) (Reading token) where
  refl := fun _ => ⟨rfl, fun _ hx => hx⟩
  trans := Undisturbed.trans
  own := guarded_step
  others := fun hs ho hc => ⟨guarded_step hs ho.tame hc, undisturbed_reading ho⟩

theorem afterwards_step {db : Database self.lib.pgLower} (hs : (afterwards self u token db).inv s)
    (ho : Reading token o) (hc : Orderly self u c s o) :
    (afterwards self u token db).inv (recorded self.handle c s o).2 := by
  obtain ⟨hguarded, hsettled, hdb⟩ := hs
  refine ⟨guarded_step hguarded ho.tame hc, ?_, ?_⟩
  · intro x hx
    exact settled_reading ho x (hsettled x hx)
  · exact (self.handle_db_of_kind ho.1 c s.1).trans hdb

theorem afterwards_tolerates (db : Database self.lib.pgLower) :
    (afterwards self u token db).Tolerates (recorded self.handle) (Reading token) where
  refl := fun _ => trivial
  trans := fun _ _ => trivial
  own := afterwards_step
  others := fun hs ho hc => ⟨afterwards_step hs ho hc, trivial⟩

end Steps

section Reset

variable {s : Traced self}

/-- The reset has deleted the profiles of the account when it returns `Ok`. -/
def Cleared (self : AuthService) (u : UserRow) (r : Result Unit) (s : Traced self) : Prop :=
  r = .ok () → Settled self u s

theorem invalidateReset_safe {user : UserWithHash} (huser : user.user.username = u.username) :
    Safe (recorded self.handle) (resetting self u token) (Cleared self u)
      (invalidateReset token u.email (some user)).run s := by
  have hdeleted : ∀ (c : Choice) (t : Traced self) (x : String),
      settled self (recorded self.handle c t (.cache (.delete (CacheKeys.userProfile x)))).2.2 x =
        true := by
    intro c t x
    simp [settles]
  have hkept : ∀ (c : Choice) (t : Traced self) (key x : String), settled self t.2 x = true →
      settled self (recorded self.handle c t (.cache (.delete key))).2.2 x = true := by
    intro c t key x hx
    simp [settles, hx]
  refine Safe.observeBind ?_
  intro t₁ _ _
  refine ⟨⟨.inl (by simp [dbWrites]), fun _ => rfl⟩, fun c₁ _ => ?_⟩
  rw [safe_ret]
  have hemail := hdeleted c₁ t₁ u.email
  generalize (recorded self.handle c₁ t₁ (.cache (.delete (CacheKeys.userProfile u.email)))).2 = s₁
    at hemail ⊢
  refine Safe.observeBind ?_
  intro t₂ ht₂ _
  refine ⟨⟨.inl (by simp [dbWrites]), fun _ => rfl⟩, fun c₂ _ => ?_⟩
  rw [safe_ret, huser]
  have hboth : Settled self u
      (recorded self.handle c₂ t₂ (.cache (.delete (CacheKeys.userProfile u.username)))).2 := by
    intro x hx
    simp only [identifiers, List.mem_cons, List.not_mem_nil, or_false] at hx
    rcases hx with rfl | rfl
    · exact hdeleted c₂ t₂ u.username
    · exact hkept c₂ t₂ _ _ (ht₂.2 _ hemail)
  generalize (recorded self.handle c₂ t₂ (.cache (.delete (CacheKeys.userProfile u.username)))).2 =
    s₂ at hboth ⊢
  refine Safe.observeBind ?_
  intro t₃ ht₃ _
  refine ⟨⟨.inl (by simp [dbWrites]), fun _ => rfl⟩, fun c₃ _ => ?_⟩
  rw [safe_ret]
  intro _ x hx
  exact hkept c₃ t₃ _ x (ht₃.2 x (hboth x hx))

/-- The account is found under its email. -/
theorem lookup_account {w : self.State} (h : Resettable self u token w) (pick : ℕ) :
    ∃ user, lookup pick w.db u.email = some user ∧ user.user.username = u.username := by
  obtain ⟨⟨v, hv, -, hmail, hactive⟩, hsole, -⟩ := h
  cases hfind : limitOne pick (named u.email) w.db.users with
  | none =>
    have hno := limitOne_eq_none.mp hfind v hv
    simp [named, hmail, hactive] at hno
  | some row =>
    obtain ⟨hmem, hnamed⟩ := limitOne_some hfind
    simp only [named, decide_eq_true_eq] at hnamed
    refine ⟨row.intoDomainWithHash, by simp [lookup, hfind], ?_⟩
    exact hsole row hmem u.email (by simp [identifiers]) hnamed.1

theorem rotatePassword_safe (newPassword : String) :
    Safe (recorded self.handle) (resetting self u token) (Cleared self u)
      (rotatePassword token newPassword u.email).run s := by
  refine Safe.bindExcept ?_
  intro t₁ _ hs₁
  refine ⟨⟨.inl (by simp [dbWrites]), by simp⟩, fun c₁ _ => ?_⟩
  rw [safe_ret]
  obtain ⟨haccount, -⟩ := hs₁
  obtain ⟨user, huser, hname⟩ := lookup_account haccount c₁.pick
  have hans : (recorded self.handle c₁ t₁ (.user (.findByUsernameOrEmail u.email))).1 =
    select c₁ [u.email] (lookup c₁.pick t₁.1.db u.email) := rfl
  rw [hans, huser]
  cases hfind : select c₁ [u.email] (some user) with
  | error e =>
    intro h
    cases h
  | ok found =>
    obtain rfl := (select_ok hfind).1
    refine Safe.bindExcept ?_
    intro t₂ _ _
    refine ⟨⟨.inl (by simp [dbWrites]), by simp⟩, fun c₂ _ => ?_⟩
    rw [safe_ret]
    split
    · rename_i hash _
      refine Safe.bindExcept ?_
      intro t₃ _ _
      refine ⟨⟨.inr rfl, by simp⟩, fun c₃ _ => ?_⟩
      rw [safe_ret]
      split
      · split
        · intro h
          cases h
        · exact invalidateReset_safe hname
      · intro h
        cases h
    · intro h
      cases h

/-- A reset of the account that returns `Ok` has deleted its profiles after the change. -/
theorem resetPassword_safe (hlower : self.lib.toLowercase u.email = u.email) (newPassword : String) :
    Safe (recorded self.handle) (resetting self u token) (Cleared self u)
      (self.resetPassword token newPassword).run s := by
  intro t _ hs
  refine ⟨⟨.inl (by simp [dbWrites]), by simp⟩, fun c hc => ?_⟩
  have hup : c.fails = false := hc.1
  have hans : (recorded self.handle c t (.cache (.getValue (CacheKeys.passwordResetToken token)))).1 =
      .ok (t.1.cache.get (t.1.now + c.elapsed) (CacheKeys.passwordResetToken token)) := by
    simp [handle_cache, CacheService.handle, hup]
  rw [hans]
  cases hshown : t.1.cache.get (t.1.now + c.elapsed) (CacheKeys.passwordResetToken token) with
  | none =>
    intro h
    cases h
  | some value =>
    obtain ⟨e, he, -, hvalue⟩ := Store.get_eq_some.mp hshown
    obtain ⟨⟨-, -, htoken⟩, -⟩ := hs
    have htext : value = .text u.email := by rw [← hvalue, htoken e he, hlower]
    subst htext
    exact rotatePassword_safe newPassword

end Reset

section Login

variable {s : Traced self} {identifier : String} {db : Database self.lib.pgLower}

theorem limited_reading {α : Type} {kinds : List OpKind} {p : Program α} (h : Limited kinds p)
    (hk : ∀ k ∈ kinds, k ∉ dbWrites) (hp : Spares (CacheKeys.passwordResetToken token) p) :
    Issues (Reading token) p :=
  Issues.and (Issues.mono (fun o ho => hk o.kind ho) h) hp

theorem login_reading (identifier password : String) :
    Issues (Reading token) (self.login identifier password).run :=
  limited_reading (self.login_limited identifier password) (by simp [dbWrites])
    (login_spares (by simp) (by simp) (by simp))

theorem reading_safe {α : Type} {p : Program α} (h : Issues (Reading token) p) :
    Safe (recorded self.handle) (afterwards self u token db) (fun _ _ => True) p s :=
  Issues.safe (fun _ _ ho => ho) h s

/-- Whatever a login goes on with carries the password in the database. -/
def Found (db : Database self.lib.pgLower) (identifier : String) (r : Result UserWithHash)
    (_ : Traced self) : Prop := ∀ user, r = .ok user → Current db.users identifier user

theorem fetchProfile_found : Safe (recorded self.handle) (afterwards self u token db)
    (Found db identifier) (fetchProfile identifier).run s := by
  refine Safe.bindExcept ?_
  rintro t - ⟨-, -, hdb⟩
  refine ⟨⟨by simp [dbWrites], by simp⟩, fun c _ => ?_⟩
  rw [safe_ret]
  have hans : (recorded self.handle c t (.user (.findByUsernameOrEmail identifier))).1 =
    select c [identifier] (lookup c.pick t.1.db identifier) := rfl
  rw [hans, hdb]
  cases hfind : select c [identifier] (lookup c.pick db identifier) with
  | error e =>
    intro _ h
    cases h
  | ok found =>
    cases found with
    | none =>
      intro _ h
      cases h
    | some user =>
      refine Safe.observeBind (Safe.mono ?_ (reading_safe ?_))
      · intro _ _ _ _ h
        cases h
        have hlookup := (select_ok hfind).1.symm
        rw [← hdb] at hlookup ⊢
        exact lookup_current hlookup
      · have hkey := (CacheKeys.passwordResetToken_ne_userProfile token identifier).symm
        exact ⟨⟨by simp [dbWrites], by simpa using hkey⟩, fun _ => trivial⟩

theorem loginProfile_found (hx : identifier ∈ identifiers u) :
    Safe (recorded self.handle) (afterwards self u token db) (Found db identifier)
      (self.loginProfile identifier).run s := by
  rw [loginProfile_eq]
  rintro t - ⟨⟨-, hfresh⟩, hsettled, hdb⟩
  refine ⟨⟨by simp [dbWrites], by simp⟩, fun c _ => ?_⟩
  dsimp only
  cases hshown : cachedProfile
      (recorded self.handle c t (.cache (.getValue (CacheKeys.userProfile identifier)))).1 with
  | none => exact fetchProfile_found
  | some user =>
    intro _ h
    cases h
    obtain ⟨⟨v, expiry⟩, he, -, rfl⟩ := Store.get_eq_some.mp (self.cachedProfile_shown hshown)
    exact hdb ▸ hfresh identifier hx (hsettled identifier hx) user expiry he

/-- The password of a login that succeeds matches the hash in the database. -/
def Matched (db : Database self.lib.pgLower) (identifier password : String) (r : Result AuthResult)
    (_ : Traced self) : Prop := ∀ a, r = .ok a → ∃ v ∈ db.users, Owns v identifier ∧
  PasswordService.verifyPassword self.lib password v.passwordHash = .ok true

theorem login_matched (hx : identifier ∈ identifiers u) (password : String) :
    Safe (recorded self.handle) (afterwards self u token db) (Matched db identifier password)
      (self.login identifier password).run s := by
  refine Safe.observeBind ?_
  intro t _ _
  refine ⟨⟨by simp [dbWrites], by simp⟩, fun c _ => ?_⟩
  rw [safe_ret]
  split
  · refine Safe.observeBind (Safe.mono ?_ (reading_safe ?_))
    · intro _ _ _ _ h
      cases h
    · exact ⟨⟨by simp [dbWrites], by simp⟩, fun _ => trivial⟩
  · refine Safe.bindExcept ((loginProfile_found hx).mono ?_)
    intro r t' hfound
    cases r with
    | error e =>
      intro _ h
      cases h
    | ok user =>
      obtain ⟨v, hv, hown, hhash⟩ := hfound user rfl
      refine Safe.bindExcept ?_
      intro t'' _ _
      refine ⟨⟨by simp [dbWrites], by simp⟩, fun c' _ => ?_⟩
      rw [safe_ret]
      cases hverify : (recorded self.handle c' t''
          (.host (.verifyPassword password user.passwordHash))).1 with
      | error e =>
        intro _ h
        cases h
      | ok valid =>
        cases valid with
        | true =>
          refine (reading_safe (limited_reading (self.successfulLogin_limited identifier user.user)
            (by decide) (successfulLogin_spares (by simp)))).mono ?_
          intro _ _ _ _ _
          exact ⟨v, hv, hown, hhash ▸ self.verifyPassword_ok (w := t''.1) hverify⟩
        | false =>
          refine ((failedLogin_refuses identifier).safe (reading_safe (limited_reading
            (failedLogin_limited identifier) (by decide) (failedLogin_spares (by simp) (by simp)))))
            |>.mono ?_
          intro _ _ hr a ha
          exact absurd ha (hr.1 a)

end Login

section Race

variable (self token)

/-- Logins, each with an identifier and a password. -/
def logins (attempts : List (String × String)) : List (Program Returned) :=
  attempts.map (fun q => self.program (.login q.1 q.2))

/-- The reset and the logins that may overlap it. -/
def race (newPassword : String) (attempts : List (String × String)) : List (Program Returned) :=
  self.program (.resetPassword token newPassword) :: logins self attempts

/-- Further logins start. -/
def joined (x : Traced self × List (Program Returned)) (attempts : List (String × String)) :
    Traced self × List (Program Returned) := (x.1, x.2 ++ logins self attempts)

/-- The call has returned `Ok`. -/
def succeeded : Program Returned → Bool
  | .ret ⟨_, .ok _⟩ => true
  | _ => false

variable {self token} {w : self.State} {newPassword : String}
  {earlier later : List (String × String)}

theorem logins_reading {attempts : List (String × String)} {p : Program Returned}
    (h : p ∈ logins self attempts) : Issues (Reading token) p := by
  obtain ⟨q, -, rfl⟩ := List.mem_map.mp h
  exact (login_reading q.1 q.2).bind (fun _ => trivial)

/-- The reset runs beside the logins that overlap it. -/
theorem race_beside (haccount : Resettable self u token w)
    (hlower : self.lib.toLowercase u.email = u.email) :
    Beside (recorded self.handle) (resetting self u token) (Reading token)
      (fun r t => succeeded (.ret r) = true → Settled self u t) 0
      ((w, []), race self token newPassword earlier) := by
  refine ⟨⟨haccount, ?_⟩, ⟨_, rfl, Safe.bind ((resetPassword_safe hlower newPassword).mono ?_)⟩, ?_⟩
  · intro x _ hsettled
    cases hsettled
  · intro r t hr h
    cases r with
    | ok _ => exact hr rfl
    | error e => cases h
  · intro j q hj hq
    obtain ⟨k, rfl⟩ := Nat.exists_eq_succ_of_ne_zero hj
    exact logins_reading (List.mem_of_getElem? hq)

/-- A login that starts after the reset runs beside the others. -/
theorem joined_beside {x : Traced self × List (Program Returned)} {i : ℕ} {identifier password : String}
    (hguarded : Guarded self u token x.1) (hsettled : Settled self u x.1)
    (hothers : ∀ p ∈ x.2, Issues (Reading token) p) (hi : later[i]? = some (identifier, password))
    (hx : identifier ∈ identifiers u) :
    Beside (recorded self.handle) (afterwards self u token x.1.1.db) (Reading token)
      (fun r _ => succeeded (.ret r) = true → ∃ v ∈ x.1.1.db.users, Owns v identifier ∧
        PasswordService.verifyPassword self.lib password v.passwordHash = .ok true)
      (x.2.length + i) (joined self x later) := by
  refine ⟨⟨hguarded, hsettled, rfl⟩, ⟨self.program (.login identifier password), ?_, ?_⟩, ?_⟩
  · simp [joined, logins, List.getElem?_append_right, hi]
  · refine Safe.bind ((login_matched hx password).mono ?_)
    intro r t hr h
    cases r with
    | ok a => exact hr a rfl
    | error e => cases h
  · intro j q _ hq
    rcases List.mem_append.mp (List.mem_of_getElem? hq) with hq | hq
    · exact hothers q hq
    · exact logins_reading hq

/-- What is safe beside others and has returned `Ok` has reached its result. -/
theorem result_of_succeeded {D : Discipline Op Choice (Traced self)} {P : Op → Prop} {n : ℕ}
    {R : Traced self → Prop} {x : Traced self × List (Program Returned)}
    (h : Beside (recorded self.handle) D P (fun r t => succeeded (.ret r) = true → R t) n x)
    (hdone : (x.2[n]?).any succeeded = true) : R x.1 := by
  obtain ⟨-, ⟨p, hp, hsafe⟩, -⟩ := h
  rw [hp, Option.any_some] at hdone
  cases p with
  | ret r => exact hsafe hdone
  | eff o k => cases hdone

end Race

/-- While no stale profile is brought back, a login that starts after the reset has returned
succeeds only with a password that matches the new hash. -/
theorem later_login_matches_new_hash {w : self.State} {newPassword : String}
    {earlier later : List (String × String)} {l₁ l₂ : List (ℕ × Choice)}
    (haccount : Resettable self u token w) (hlower : self.lib.toLowercase u.email = u.email)
    (hfor : ∀ q ∈ later, q.1 ∈ identifiers u)
    (h₁ : Admitted (recorded self.handle) (Orderly self u)
      ((w, []), race self token newPassword earlier) l₁)
    (hreset : ((schedule (recorded self.handle) ((w, []), race self token newPassword earlier)
      l₁).2[0]?).any succeeded = true)
    (h₂ : Admitted (recorded self.handle) (Orderly self u) (joined self
      (schedule (recorded self.handle) ((w, []), race self token newPassword earlier) l₁) later) l₂)
    {i : ℕ} {identifier password : String} (hi : later[i]? = some (identifier, password))
    (hok : ((schedule (recorded self.handle) (joined self (schedule (recorded self.handle)
      ((w, []), race self token newPassword earlier) l₁) later) l₂).2[earlier.length + 1 + i]?).any
        succeeded = true)
    {v : UserRow} (hv : v ∈ (schedule (recorded self.handle) (joined self
      (schedule (recorded self.handle) ((w, []), race self token newPassword earlier) l₁) later)
        l₂).1.1.db.users) (hname : v.username = u.username) :
    PasswordService.verifyPassword self.lib password v.passwordHash = .ok true := by
  have hrace := @race_beside self u token w newPassword earlier haccount hlower
  have hduring := hrace.schedule resetting_tolerates (fun r s t hr ht h x hx => ht.2 x (hr h x hx)) h₁
  have hlength : (schedule (recorded self.handle) ((w, []), race self token newPassword earlier)
      l₁).2.length = earlier.length + 1 := by simp [race, logins]
  generalize schedule (recorded self.handle) ((w, []), race self token newPassword earlier) l₁ = x
    at hreset h₂ hok hv hduring hlength
  have hsettled := result_of_succeeded hduring hreset
  obtain ⟨hguarded, -, hothers⟩ := hduring
  have hreading : ∀ q ∈ x.2, Issues (Reading token) q := by
    intro q hq
    obtain ⟨j, hj⟩ := List.getElem?_of_mem hq
    by_cases hzero : j = 0
    · subst hzero
      rw [hj, Option.any_some] at hreset
      cases q with
      | ret r => trivial
      | eff o k => cases hreset
    · exact hothers j q hzero hj
  have hidentifier := hfor _ (List.mem_of_getElem? hi)
  have hafter := (joined_beside hguarded hsettled hreading hi hidentifier).schedule
    (afterwards_tolerates x.1.1.db) (fun _ _ _ hr _ => hr) h₂
  rw [hlength] at hafter
  generalize schedule (recorded self.handle) (joined self x later) l₂ = y at hok hv hafter
  obtain ⟨v', hv', hown, hverified⟩ := result_of_succeeded hafter hok
  obtain ⟨⟨⟨⟨-, hsole, -⟩, -⟩, -, hdb⟩, -, -⟩ := hafter
  have hsame : v = v' := by
    rw [hdb] at hv hsole
    exact eq_of_key (·.username) x.1.1.db.unique.username hv hv'
      (hname.trans (hsole v' hv' identifier hidentifier hown).symm)
  rwa [hsame]

section Alice

/-- Alice has asked for a reset. -/
def requested : service.State :=
  service.serveAll (World.empty _) [registerAlice, activateAlice, forgot "alice@example.com"]

theorem requested_eq : requested = service.after activatedState (forgot "alice@example.com") :=
  serveAll_activated [forgot "alice@example.com"]

/-- A row with the names of Alice's account. -/
def aliceRow : UserRow :=
  newUserRow 0 ⟨⟨1⟩, "alice", "alice@example.com", "", "user", none, none, none⟩

theorem alice_resettable : Resettable service aliceRow resetToken requested := by
  have hstate : (∃ v ∈ requested.db.users, v.username = "alice" ∧ v.email = "alice@example.com" ∧
        v.isActive = true) ∧
      (∀ v ∈ requested.db.users, v.username = "alice") ∧
      (requested.cache (CacheKeys.passwordResetToken resetToken)).map Entry.value =
        some (.text "alice@example.com") := by
    rw [requested_eq]
    decide +kernel
  obtain ⟨hactive, hsole, htoken⟩ := hstate
  refine ⟨hactive, fun v hv _ _ _ => hsole v hv, ?_⟩
  intro e he
  rw [he] at htoken
  exact Option.some.inj htoken

/-- A login with the old password that is under way during the reset. -/
def overlapped : List (String × String) := [("alice", "Str0ng!Pass")]

/-- The login stores what it found before the reset deletes the profiles. -/
def storedBefore : List (ℕ × Choice) := [1, 1, 1, 0, 0, 0, 0, 1, 0, 0, 0].map (fun i => (i, {}))

/-- The login stores what it found after the reset has returned. -/
def storedAfter : List (ℕ × Choice) := [1, 1, 1, 0, 0, 0, 0, 0, 0, 0, 1].map (fun i => (i, {}))

/-- The next login runs to its end. -/
def nextLogin : List (ℕ × Choice) := (List.replicate 9 2).map (fun i => (i, {}))

theorem alice_logs_in_with_new_password :
    ((schedule (recorded service.handle) (joined service (schedule (recorded service.handle)
        ((requested, []), race service resetToken "N3w!Secret" overlapped) storedBefore)
        [("alice", "N3w!Secret")]) nextLogin).2[2]?).any succeeded = true ∧
    ∀ v ∈ (schedule (recorded service.handle) (joined service (schedule (recorded service.handle)
        ((requested, []), race service resetToken "N3w!Secret" overlapped) storedBefore)
        [("alice", "N3w!Secret")]) nextLogin).1.1.db.users, v.username = "alice" →
      PasswordService.verifyPassword service.lib "N3w!Secret" v.passwordHash = .ok true := by
  have hrun : Admitted (recorded service.handle) (Orderly service aliceRow)
        ((requested, []), race service resetToken "N3w!Secret" overlapped) storedBefore ∧
      ((schedule (recorded service.handle) ((requested, []),
        race service resetToken "N3w!Secret" overlapped) storedBefore).2[0]?).any succeeded = true ∧
      Admitted (recorded service.handle) (Orderly service aliceRow) (joined service
        (schedule (recorded service.handle) ((requested, []),
          race service resetToken "N3w!Secret" overlapped) storedBefore)
        [("alice", "N3w!Secret")]) nextLogin ∧
      ((schedule (recorded service.handle) (joined service (schedule (recorded service.handle)
        ((requested, []), race service resetToken "N3w!Secret" overlapped) storedBefore)
        [("alice", "N3w!Secret")]) nextLogin).2[2]?).any succeeded = true := by
    rw [requested_eq]
    decide +kernel
  obtain ⟨h₁, hreset, h₂, hok⟩ := hrun
  have hfor : ∀ q ∈ [("alice", "N3w!Secret")], q.1 ∈ identifiers aliceRow := by decide
  refine ⟨hok, ?_⟩
  intro v hv hname
  exact @later_login_matches_new_hash service aliceRow resetToken requested "N3w!Secret" overlapped
    [("alice", "N3w!Secret")] storedBefore nextLogin alice_resettable (by decide +kernel) hfor h₁
    hreset h₂ 0 "alice" "N3w!Secret" rfl hok v hv hname

/-- A login that stores what it found after the reset brings the old password back. -/
theorem old_password_brought_back :
    ¬ ∀ (u : UserRow) (token newPassword : String) (w : service.State)
        (earlier later : List (String × String)) (l₁ l₂ : List (ℕ × Choice)),
        Resettable service u token w → service.lib.toLowercase u.email = u.email →
        (∀ q ∈ earlier ++ later, q.1 ∈ identifiers u) →
        Admitted (recorded service.handle) (fun c _ o => CacheUp c o)
          ((w, []), race service token newPassword earlier) l₁ →
        ((schedule (recorded service.handle) ((w, []), race service token newPassword earlier)
          l₁).2[0]?).any succeeded = true →
        Admitted (recorded service.handle) (fun c _ o => CacheUp c o) (joined service
          (schedule (recorded service.handle) ((w, []), race service token newPassword earlier) l₁)
          later) l₂ →
        ∀ (i : ℕ) (identifier password : String), later[i]? = some (identifier, password) →
        ((schedule (recorded service.handle) (joined service (schedule (recorded service.handle)
          ((w, []), race service token newPassword earlier) l₁) later)
          l₂).2[earlier.length + 1 + i]?).any succeeded = true →
        ∀ v ∈ (schedule (recorded service.handle) (joined service (schedule (recorded service.handle)
          ((w, []), race service token newPassword earlier) l₁) later) l₂).1.1.db.users,
        v.username = u.username →
        PasswordService.verifyPassword service.lib password v.passwordHash = .ok true := by
  intro h
  have hrun : Admitted (recorded service.handle) (fun c _ o => CacheUp c o)
        ((requested, []), race service resetToken "N3w!Secret" overlapped) storedAfter ∧
      ((schedule (recorded service.handle) ((requested, []),
        race service resetToken "N3w!Secret" overlapped) storedAfter).2[0]?).any succeeded = true ∧
      Admitted (recorded service.handle) (fun c _ o => CacheUp c o) (joined service
        (schedule (recorded service.handle) ((requested, []),
          race service resetToken "N3w!Secret" overlapped) storedAfter) overlapped) nextLogin ∧
      ((schedule (recorded service.handle) (joined service (schedule (recorded service.handle)
        ((requested, []), race service resetToken "N3w!Secret" overlapped) storedAfter)
        overlapped) nextLogin).2[2]?).any succeeded = true ∧
      ∃ v ∈ (schedule (recorded service.handle) (joined service (schedule (recorded service.handle)
        ((requested, []), race service resetToken "N3w!Secret" overlapped) storedAfter)
        overlapped) nextLogin).1.1.db.users, v.username = "alice" ∧
        PasswordService.verifyPassword service.lib "Str0ng!Pass" v.passwordHash ≠ .ok true := by
    rw [requested_eq]
    decide +kernel
  obtain ⟨h₁, hreset, h₂, hok, v, hv, hname, hwrong⟩ := hrun
  have hfor : ∀ q ∈ overlapped ++ overlapped, q.1 ∈ identifiers aliceRow := by decide
  exact hwrong (h aliceRow resetToken "N3w!Secret" requested overlapped overlapped storedAfter
    nextLogin alice_resettable (by decide +kernel) hfor h₁ hreset h₂ 0 "alice" "Str0ng!Pass" rfl hok
    v hv hname)

end Alice

end IamService.ResetLoginRace
