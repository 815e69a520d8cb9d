import IamService.AccountCallRuns
import IamService.AccountPersistence
import IamService.CacheFootprints
import IamService.ReferenceStates

/-!
# Which account a reset token rotates

A request for a reset resolves its identifier to an account by username or by email, but
keeps the lower-cased identifier with the token. The reset resolves that text once more,
as an email. The account that receives the event is the account whose password is changed
exactly when the identifier is its email up to letter case.
-/

namespace IamService.PasswordResetTargets
open EffectPrograms RelationTables ExpiringStore UserRepository AuthService ReferenceLibraries

variable (self : AuthService)

/-- The request for a reset publishes a token for a user. -/
def Mints (w : self.State) (f : ℕ → Choice) (identifier : String) (userId : Uuid)
    (token : String) : Prop :=
  (self.after w ⟨.forgotPassword identifier, f⟩).events =
    w.events ++ [resetRequested self userId identifier token]

instance (w : self.State) (f : ℕ → Choice) (identifier : String) (userId : Uuid)
    (token : String) : Decidable (Mints self w f identifier userId token) :=
  inferInstanceAs (Decidable (_ = _))

/-- The token is not used up by a request, and not drawn again. -/
def Unused (token : String) (w : self.State) (r : Request) : Prop :=
  (∀ newPassword, r.call = .resetPassword token newPassword →
    (self.serve w r).1.toOption.isSome = false) ∧
  ∀ n, self.lib.uuidToString (r.oracle n).uuid ≠ token

/-- A reset returns `Ok`, changes the password of one user and no other row. -/
structure Rotates (w : self.State) (r : Result Unit × self.State) (userId : Uuid) : Prop where
  ok : r.1 = .ok ()
  changed : ∃ x ∈ w.db.users, ∃ y ∈ r.2.db.users, x.id = userId ∧ y.id = userId ∧
    y.passwordHash ≠ x.passwordHash
  others : r.2.db.users.filter (fun x => x.id ≠ userId) =
    w.db.users.filter (fun x => x.id ≠ userId)

variable {self}

/-- A request that does not use the token keeps its entry. -/
theorem token_kept {token : String} {w : self.State} {r : Request} (h : Unused self token w r) :
    (self.after w r).cache (CacheKeys.passwordResetToken token) =
      w.cache (CacheKeys.passwordResetToken token) := by
  obtain ⟨call, oracle⟩ := r
  obtain ⟨hused, hfresh⟩ := h
  cases call with
  | login username password => exact (login_spares (by simp) (by simp) (by simp)).run oracle w
  | verifyEmail t => exact (verifyEmail_spares (by simp)).run oracle w
  | resendVerification email => exact (resendVerification_spares (by simp)).run oracle w
  | checkRateLimit ip endpoint limit windowSecs =>
    exact (checkRateLimit_spares (by simp)).run oracle w
  | forgotPassword email =>
    rcases (self.forgotPassword_cases w oracle email).2 with ⟨hc, -⟩ | ⟨user, -, hc, -⟩
    · exact congrFun hc _
    · refine (congrFun hc _).trans (Store.put_ne _ ?_ _ _)
      simpa [mintedToken] using (hfresh 1).symm
  | resetPassword t newPassword =>
    by_cases ht : t = token
    · subst ht
      rcases self.resetPassword_cases w oracle t newPassword with ⟨e, -, -, hc⟩ | ⟨email, -, hr⟩
      · exact congrFun hc _
      · obtain ⟨hok, -, -, -⟩ := hr
        have hnone := hused newPassword rfl
        have hserve : (self.serve w ⟨.resetPassword t newPassword, oracle⟩).1 = .ok () := hok
        rw [hserve] at hnone
        cases hnone
    · exact (resetPassword_spares (by simp) (by simpa using Ne.symm ht)).run oracle w
  | _ => exact ((self.method_limited _).spares (by simp [cacheWrites]) _).run oracle w

theorem token_kept_along {token : String} {w : self.State} {rs : List Request}
    (h : self.Along (Unused self token) w rs) :
    (self.serveAll w rs).cache (CacheKeys.passwordResetToken token) =
      w.cache (CacheKeys.passwordResetToken token) := by
  induction rs generalizing w with
  | nil => rfl
  | cons r rs ih => exact (ih h.2).trans (token_kept h.1)

/-- The request found an active account under its identifier, and keeps the lower-cased
identifier with the token. -/
theorem minted {w : self.State} {f : ℕ → Choice} {identifier token : String} {userId : Uuid}
    (h : Mints self w f identifier userId token) :
    (∃ x ∈ w.db.users, x.id = userId ∧ x.isActive = true) ∧ sqlText identifier = true ∧
      (self.after w ⟨.forgotPassword identifier, f⟩).db = w.db ∧
      (self.after w ⟨.forgotPassword identifier, f⟩).cache (CacheKeys.passwordResetToken token) =
        some ⟨.text (self.lib.toLowercase identifier),
          some (mintedAt self w f + secs resetTokenTtlSecs)⟩ := by
  have hone : ∀ e : Event, w.events ≠ w.events ++ [e] := by
    intro e he
    simpa using congrArg List.length he
  obtain ⟨hdb, ⟨-, hev⟩ | ⟨user, hfind, hc, hev | hev⟩⟩ := self.forgotPassword_cases w f identifier
  · exact absurd (hev.symm.trans h) (hone _)
  · exact absurd (hev.symm.trans h) (hone _)
  · have hsame := List.append_cancel_left (hev.symm.trans h)
    simp only [resetRequested, List.cons.injEq, Event.passwordResetRequested.injEq, true_and,
      and_true, String.append_right_inj] at hsame
    obtain ⟨rfl, rfl⟩ := hsame
    obtain ⟨hlookup, -, htext⟩ := select_ok hfind
    obtain ⟨row, hrow, rfl⟩ := Option.map_eq_some_iff.mp hlookup.symm
    obtain ⟨hmem, hnamed⟩ := limitOne_some hrow
    simp only [named, decide_eq_true_eq] at hnamed
    refine ⟨⟨row, hmem, rfl, hnamed.2⟩, by simpa using htext, hdb, ?_⟩
    exact (congrFun hc _).trans (Store.put_same _ _ _ _)

section Rotation

variable {w : self.State} {x : UserRow} {email : String}

/-- Within the constraints, an email addresses the account whose email it is, alone. -/
theorem addressed_iff (hx : x ∈ w.db.users)
    (he : self.lib.pgLower email = self.lib.pgLower x.email) {y : UserRow} (hy : y ∈ w.db.users) :
    addressed self.lib.pgLower email y = true ↔ y = x := by
  unfold addressed
  rw [he, decide_eq_true_eq]
  constructor
  · exact fun h => w.db.user_eq_of_emailLower hy hx h
  · exact fun h => by rw [h]

/-- A rotation of the email of an account changes the password of that account. -/
theorem rotates_of_email {hash : String} {v : self.State} (hx : x ∈ w.db.users)
    (hactive : x.isActive = true) (he : self.lib.pgLower email = self.lib.pgLower x.email)
    (hfresh : x.passwordHash ≠ hash)
    (hv : v.db.users = updateWhere (fun r => addressed self.lib.pgLower email r && r.isActive)
      (fun r => { r with passwordHash := hash }) w.db.users) :
    Rotates self w (.ok (), v) x.id := by
  have hmatch : (addressed self.lib.pgLower email x && x.isActive) = true := by
    rw [(addressed_iff hx he hx).mpr rfl, hactive]
    rfl
  constructor
  · rfl
  · refine ⟨x, hx, _, hv ▸ mem_updateWhere.mpr ⟨x, hx, rfl⟩, rfl, ?_, ?_⟩
    · rw [if_pos hmatch]
    · rw [if_pos hmatch]
      exact hfresh.symm
  · rw [hv]
    apply filter_updateWhere_of_disjoint
    · exact fun _ => rfl
    · intro r hr hp
      rw [Bool.and_eq_true] at hp
      simp [(addressed_iff hx he hr).mp hp.1]

/-- A rotation that changes the password of an account has used its email. -/
theorem email_of_changed {hash : String} {v : self.State} {userId : Uuid}
    (hv : v.db.users = updateWhere (fun r => addressed self.lib.pgLower email r && r.isActive)
      (fun r => { r with passwordHash := hash }) w.db.users)
    (hchanged : ∃ x ∈ w.db.users, ∃ y ∈ v.db.users, x.id = userId ∧ y.id = userId ∧
      y.passwordHash ≠ x.passwordHash) (hx : x ∈ w.db.users) (hid : x.id = userId) :
    self.lib.pgLower email = self.lib.pgLower x.email := by
  obtain ⟨x', hx', y, hy, hidx, hidy, hne⟩ := hchanged
  obtain rfl := w.db.user_eq_of_id hx hx' (hid.trans hidx.symm)
  rw [hv, mem_updateWhere] at hy
  obtain ⟨s, hs, rfl⟩ := hy
  by_cases hp : (addressed self.lib.pgLower email s && s.isActive) = true
  · rw [if_pos hp] at hidy
    obtain rfl := w.db.user_eq_of_id hs hx (hidy.trans hid.symm)
    rw [Bool.and_eq_true] at hp
    exact (decide_eq_true_eq.mp hp.1).symm
  · rw [if_neg hp] at hidy hne
    obtain rfl := w.db.user_eq_of_id hs hx (hidy.trans hid.symm)
    exact absurd rfl hne

end Rotation

/-- What a reset meets: a token within its lifetime, no failure, and a password that the
policy accepts and whose hash is a new text that fits its column. -/
structure Undisturbed (self : AuthService) (before : self.State) (newPassword hash : String)
    (g : ℕ → Choice) (expiry : ℕ) : Prop where
  alive : before.now + (g 0).elapsed < expiry
  available : ∀ n, (g n).fails = false
  strong : PasswordService.validatePasswordStrength self.lib newPassword = .ok ()
  hashed : self.lib.argon2Hash newPassword (g 2).random = .ok hash
  short : hash.toList.length ≤ 255
  text : sqlText hash = true
  fresh : ∀ x ∈ before.db.users, x.passwordHash ≠ hash

/-- A reset with the token of an identifier changes the password of the account that the
request was published for, and of no other, exactly when the identifier is the email of
that account up to letter case. Any requests that do not use the token may be served in
between. -/
theorem reset_rotates_iff
    (hlower : ∀ s, sqlText s = true → sqlText (self.lib.toLowercase s) = true)
    {w : self.State} {f : ℕ → Choice} {identifier token : String} {userId : Uuid}
    (hmint : Mints self w f identifier userId token) {rs : List Request}
    (hrs : self.Along (Unused self token) (self.after w ⟨.forgotPassword identifier, f⟩) rs)
    {newPassword hash : String} {g : ℕ → Choice}
    (hreset : Undisturbed self (self.serveAll w (⟨.forgotPassword identifier, f⟩ :: rs))
      newPassword hash g (mintedAt self w f + secs resetTokenTtlSecs))
    {x : UserRow} (hx : x ∈ w.db.users) (hid : x.id = userId) :
    Rotates self (self.serveAll w (⟨.forgotPassword identifier, f⟩ :: rs))
        (self.serve (self.serveAll w (⟨.forgotPassword identifier, f⟩ :: rs))
          ⟨.resetPassword token newPassword, g⟩) userId ↔
      self.lib.pgLower (self.lib.toLowercase identifier) = self.lib.pgLower x.email := by
  obtain ⟨⟨x', hx', hidx', hactive⟩, htext, hdb, hentry⟩ := minted hmint
  obtain rfl := w.db.user_eq_of_id hx hx' (hid.trans hidx'.symm)
  obtain ⟨halive, havailable, hstrong, hhashed, hshort, hhashtext, hfresh⟩ := hreset
  set before : self.State := self.serveAll w (⟨.forgotPassword identifier, f⟩ :: rs) with hbefore
  -- the account and the token as the reset finds them
  obtain ⟨y, hy, hyid, -, hyemail, hyactive⟩ :=
    self.serveAll_retained w (⟨.forgotPassword identifier, f⟩ :: rs) x hx
  have hget : before.cache.get (before.now + (g 0).elapsed) (CacheKeys.passwordResetToken token) =
      some (.text (self.lib.toLowercase identifier)) := by
    refine Store.get_eq_some.mpr ⟨_, (token_kept_along hrs).trans hentry, ?_, rfl⟩
    simpa [Entry.visible] using halive
  have hhash : PasswordService.hashPassword self.lib newPassword (g 2).random = .ok hash := by
    simp [PasswordService.hashPassword, hstrong, hhashed]
  obtain ⟨db', hup, hu⟩ := updatePassword_of_ok (g 3) before.db (havailable 3) (hlower _ htext)
    hhashtext hshort
  have hafter : (self.serve before ⟨.resetPassword token newPassword, g⟩).1 = .ok () →
      (self.serve before ⟨.resetPassword token newPassword, g⟩).2.db.users =
        updateWhere (fun r => addressed self.lib.pgLower (self.lib.toLowercase identifier) r &&
          r.isActive) (fun r => { r with passwordHash := hash }) before.db.users := by
    intro hok
    rcases self.resetPassword_cases before g token newPassword with
      ⟨e, herror, -, -⟩ | ⟨email, hemail, -, ⟨hash', n, hhash', hup'⟩, -, -⟩
    · cases hok.symm.trans herror
    · cases hget.symm.trans hemail
      cases hhash.symm.trans hhash'
      have hsame := congrArg Prod.snd (hup.symm.trans hup')
      exact (congrArg Database.users hsame).symm.trans hu
  rw [← hyemail]
  constructor
  · rintro ⟨hok, hchanged, -⟩
    exact email_of_changed (hafter hok) hchanged hy (hyid.trans hid)
  · intro he
    obtain ⟨n, hn⟩ : ∃ n, (before.db.users.filter (fun r => addressed self.lib.pgLower
        (self.lib.toLowercase identifier) r && r.isActive)).length = n + 1 := by
      refine Nat.exists_eq_succ_of_ne_zero (List.length_pos_of_mem (a := y) ?_).ne'
      refine List.mem_filter.mpr ⟨hy, ?_⟩
      rw [(addressed_iff hy he hy).mpr rfl, hyactive hactive]
      rfl
    have hok := self.resetPassword_succeeds before g token newPassword havailable hget
      (hlower _ htext) hhash (hn ▸ hup)
    have hrotates := rotates_of_email hy (hyactive hactive) he (hfresh y hy) (hafter hok)
    rw [hyid, hid] at hrotates
    obtain ⟨-, hchanged, hothers⟩ := hrotates
    exact ⟨hok, hchanged, hothers⟩

section Alice

/-- The hash of Alice's new password. -/
def newHash : String := "$argon2id$00000000$N3w!Secret"

theorem newHash_accepted :
    PasswordService.validatePasswordStrength service.lib "N3w!Secret" = .ok () ∧
      service.lib.argon2Hash "N3w!Secret" 0 = .ok newHash ∧ newHash.toList.length ≤ 255 ∧
      sqlText newHash = true := by decide +kernel

theorem undisturbed (identifier : String)
    (halive : (service.serveAll verified [forgot identifier]).now < 900000)
    (hfresh : ∀ x ∈ (service.serveAll verified [forgot identifier]).db.users,
      x.passwordHash ≠ newHash) :
    Undisturbed service (service.serveAll verified [forgot identifier]) "N3w!Secret" newHash
      (oracle []) (mintedAt service verified (forgot identifier).oracle + secs resetTokenTtlSecs) where
  alive := Nat.lt_of_lt_of_le halive (Nat.le_add_left _ _)
  available := fun _ => rfl
  strong := newHash_accepted.1
  hashed := newHash_accepted.2.1
  short := newHash_accepted.2.2.1
  text := newHash_accepted.2.2.2
  fresh := hfresh

theorem reset_rotates_iff_email :
    Rotates service (service.serveAll verified [forgot "alice@example.com"])
      (service.serve (service.serveAll verified [forgot "alice@example.com"])
        resetAlice) ⟨1⟩ := by
  have hstate : Mints service verified (forgot "alice@example.com").oracle "alice@example.com" ⟨1⟩
        resetToken ∧
      (service.serveAll verified [forgot "alice@example.com"]).now < 900000 ∧
      (∀ x ∈ (service.serveAll verified [forgot "alice@example.com"]).db.users,
        x.passwordHash ≠ newHash) ∧
      ∃ x ∈ verified.db.users, x.id = ⟨1⟩ ∧
        toLower (toLower "alice@example.com") = toLower x.email := by
    rw [verified_eq]
    decide +kernel
  obtain ⟨hmint, halive, hfresh, x, hx, hid, hemail⟩ := hstate
  exact (@reset_rotates_iff service (fun s hs => sqlText_toLower hs) verified
    (forgot "alice@example.com").oracle "alice@example.com" resetToken ⟨1⟩ hmint []
    trivial "N3w!Secret" newHash (oracle []) (undisturbed _ halive hfresh) x hx hid).mpr hemail

/-- Alice asks for a reset under her username: the token is minted for her, but no reset
with it succeeds. -/
theorem reset_by_username_fails :
    Mints service verified (forgot "alice").oracle "alice" ⟨1⟩ resetToken ∧
      Undisturbed service (service.serveAll verified [forgot "alice"]) "N3w!Secret" newHash
        (oracle []) (mintedAt service verified (forgot "alice").oracle + secs resetTokenTtlSecs) ∧
      ¬ Rotates service (service.serveAll verified [forgot "alice"])
        (service.serve (service.serveAll verified [forgot "alice"])
          resetAlice) ⟨1⟩ := by
  have hstate : Mints service verified (forgot "alice").oracle "alice" ⟨1⟩ resetToken ∧
      (service.serveAll verified [forgot "alice"]).now < 900000 ∧
      (∀ x ∈ (service.serveAll verified [forgot "alice"]).db.users, x.passwordHash ≠ newHash) ∧
      (service.serve (service.serveAll verified [forgot "alice"])
        resetAlice).1 ≠ .ok () := by
    rw [verified_eq]
    decide +kernel
  obtain ⟨hmint, halive, hfresh, herror⟩ := hstate
  refine ⟨hmint, undisturbed _ halive hfresh, ?_⟩
  rintro ⟨hok, -, -⟩
  exact herror hok

end Alice

end IamService.PasswordResetTargets
