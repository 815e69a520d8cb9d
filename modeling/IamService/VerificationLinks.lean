import IamService.ResendCooldown
import IamService.WalletStatements

/-!
# Verification links

In production a verification mail carries a token and nothing else, so its link works when the
token leads back to the account that the mail is for. As long as minted tokens are fresh, every
published token is the one that the account holds. It was valid when the call looked at it, and
the link works unless the token has expired before the event is published.
-/

namespace IamService.VerificationLinks
open EffectPrograms RelationTables UserRepository AuthService AccountEnumeration

variable (self : AuthService)

section Redeeming

/-- What a verification changes of an account. -/
def status (r : UserRow) : Uuid × Bool × Bool := (r.id, r.isActive, r.emailVerified)

/-- Verifying the token at this instant, without failures, succeeds and activates the account
and no other one. -/
def Opens (w : self.State) (userId : Uuid) (token : String) : Prop :=
  ∀ o : ℕ → Choice, (∀ n, (o n).fails = false) → (o 0).elapsed = 0 →
    (∃ result, (run self.handle (self.verifyEmail token).run o w).1 = .ok result ∧
      result.success = true) ∧
    (run self.handle (self.verifyEmail token).run o w).2.db.users.map status =
      w.db.users.map (fun r => if r.id = userId then (r.id, true, true) else status r)

/-- What tells accounts and their links apart. -/
def identity (r : UserRow) : Uuid × String × Option String :=
  (r.id, r.email, r.emailVerificationToken)

/-- Emails and tokens are texts, and a token is held by one account. -/
def Tidy (rows : List UserRow) : Prop :=
  ∀ a ∈ rows.map identity, sqlText a.2.1 = true ∧ ∀ token, a.2.2 = some token →
    sqlText token = true ∧ ∀ b ∈ rows.map identity, b.2.2 = some token → b.1 = a.1

theorem Tidy.email {rows : List UserRow} (h : Tidy rows) {r : UserRow} (hr : r ∈ rows) :
    sqlText r.email = true := (h _ (List.mem_map_of_mem hr)).1

theorem Tidy.text {rows : List UserRow} (h : Tidy rows) {r : UserRow} (hr : r ∈ rows)
    {token : String} (ht : r.emailVerificationToken = some token) : sqlText token = true :=
  ((h _ (List.mem_map_of_mem hr)).2 token ht).1

theorem Tidy.owner {rows : List UserRow} (h : Tidy rows) {r s : UserRow} (hr : r ∈ rows)
    (hs : s ∈ rows) {token : String} (ht : r.emailVerificationToken = some token)
    (ht' : s.emailVerificationToken = some token) : s.id = r.id :=
  ((h _ (List.mem_map_of_mem hr)).2 token ht).2 _ (List.mem_map_of_mem hs) ht'

theorem tidy_of_rows {rows : List UserRow} (hemail : ∀ r ∈ rows, sqlText r.email = true)
    (htext : ∀ r ∈ rows, ∀ token, r.emailVerificationToken = some token → sqlText token = true)
    (howner : ∀ r ∈ rows, ∀ s ∈ rows, ∀ token, r.emailVerificationToken = some token →
      s.emailVerificationToken = some token → s.id = r.id) : Tidy rows := by
  intro a ha
  obtain ⟨r, hr, rfl⟩ := List.mem_map.mp ha
  refine ⟨hemail r hr, fun token ht => ⟨htext r hr token ht, ?_⟩⟩
  intro b hb ht'
  obtain ⟨s, hs, rfl⟩ := List.mem_map.mp hb
  exact howner r hr s hs token ht ht'

/-- The rest of a verification, once the token is known to stand for the email. -/
def activating (email : String) : Method VerifyEmailResult := do
  match ← attempt (userRepo (.verifyEmail email)) with
  | none => throw (.notFound "User not found")
  | some activated => do
    let user ← self.ensureWallet activated
    self.verifiedSession user

/-- What follows the lookup of a token. -/
def redeemed : Result (Option String) → Program (Result VerifyEmailResult)
  | .error e => .ret (.error e)
  | .ok none => .ret (.error (.badRequest "Invalid or expired verification token"))
  | .ok (some email) => (activating self email).run

variable {self}

theorem verifyEmail_eq (hproduction : eqIgnoreAsciiCase self.config.environment "production" = true)
    (token : String) : (self.verifyEmail token).run =
      .eff (.user (.findEmailByToken token)) (redeemed self) := by
  unfold AuthService.verifyEmail verifiedAddress
  rw [if_neg (by simp [hproduction])]
  simp only [run_bind', run_attempt, userRepo, Prog.eff_bind, Prog.ret_bind]
  congr 1
  funext answer
  rcases answer with e | _ | email <;> rfl

/-- Provisioning a wallet always leaves a user. -/
theorem ensureWallet_ok (user : User) :
    Returns (fun r => ∃ u, r = .ok u) (self.ensureWallet user).run := by
  refine Returns.observeBind ?_
  intro hasWallet
  split
  · refine Returns.observeBind ?_
    intro wallet
    cases wallet <;> simp
  · simp

/-- Operations of a verification other than the activation keep the columns of an account that
provisioning does not write. -/
theorem users_kept {β : Type} (f : UserRow → β)
    (hf : ∀ (r : UserRow) key kdfVersion address, f { r with
      keyMaterial := key
      kdfVersion := kdfVersion
      walletAddress := address } = f r) {o : Op}
    (ho : o.kind ∉ dbWrites ∨ o.kind = .persistCustodialWallet) (c : Choice) (w : self.State) :
    (self.handle c w o).2.db.users.map f = w.db.users.map f := by
  by_cases hkind : o.kind ∉ dbWrites
  · rw [self.handle_db_of_kind hkind]
  · have hpersist := ho.resolve_left hkind
    cases o with
    | wallet q =>
      cases q with
      | persistCustodialWallet userId walletAddress label key kdfVersion =>
        rw [handle_wallet]
        rcases WalletRepository.persistCustodialWallet_cases c (w.evolve c).now w.db userId
          walletAddress label key kdfVersion with
          ⟨e, h⟩ | ⟨row, address, db', -, -, -, h, -, hu⟩
        · rw [WalletRepository.handle, h]
        · rw [WalletRepository.handle, h, hu]
          exact map_updateWhere f w.db.users (fun r => hf r _ _ _)
      | _ => simp at hpersist
    | user q => cases q <;> simp at hpersist
    | cache q =>
      cases q with
      | setValue key value ttl => cases value <;> simp at hpersist
      | _ => simp at hpersist
    | bus q => simp at hpersist
    | chain q => cases q <;> simp at hpersist
    | host q => cases q <;> simp at hpersist

abbrev healthy (self : AuthService) : Discipline Op Choice self.State :=
  .solo fun c _ _ => c.fails = false

/-- A session is opened, and the accounts stay as they are. -/
theorem verifiedSession_safe (user : User) (w : self.State) :
    Safe self.handle (healthy self) (fun r v => (∃ result, r = .ok result ∧ result.success = true) ∧
      v.db.users = w.db.users) (self.verifiedSession user).run w := by
  refine Safe.bindExcept (Safe.observeBind (safe_solo_eff.mpr ?_))
  intro c _
  rw [safe_ret]
  refine safe_solo_eff.mpr ?_
  intro d hd
  have hsigned : ∀ (v : self.State) (claims : Claims),
      (self.handle d v (.host (.encodeToken claims))).1 = .ok ⟨claims⟩ := by
    intro v claims
    simp [handle_host, hostHandle, hd]
  rw [safe_ret, hsigned]
  refine Safe.observeBind (safe_solo_eff.mpr fun _ _ => ?_)
  refine Safe.observeBind (safe_solo_eff.mpr fun _ _ => ?_)
  refine Safe.observeBind (safe_solo_eff.mpr fun _ _ => ?_)
  refine ⟨⟨_, rfl, rfl⟩, ?_⟩
  rw [handle_cache_db, handle_cache_db, handle_bus_db, handle_host_db, handle_host_db]

/-- Provisioning succeeds or not, and keeps who is active. -/
theorem ensureWallet_safe (user : User) (w : self.State) :
    Safe self.handle (healthy self) (fun r v => (∃ u, r = .ok u) ∧
      v.db.users.map status = w.db.users.map status) (self.ensureWallet user).run w := by
  have hkinds : ∀ k ∈ [OpKind.readWallets, .readHost, .persistCustodialWallet, .spawn],
      k ∉ dbWrites ∨ k = .persistCustodialWallet := by decide
  refine (ensureWallet_ok user).safe (Issues.keeps (fun v u : self.State =>
    u.db.users.map status = v.db.users.map status) (fun _ => rfl) (fun h h' => h'.trans h) ?_
    (self.ensureWallet_limited user) w)
  intro c v o ho
  exact users_kept status (fun _ _ _ _ => rfl) (hkinds o.kind ho) c v

/-- A healthy verification of the email of an account activates the account. -/
theorem activating_safe {w : self.State} {row : UserRow} (hrow : row ∈ w.db.users)
    (htext : sqlText row.email = true) :
    Safe self.handle (healthy self) (fun r v =>
      (∃ result, r = .ok result ∧ result.success = true) ∧ v.db.users.map status =
        w.db.users.map (fun r => if r.id = row.id then (r.id, true, true) else status r))
      (activating self row.email).run w := by
  have hsame : ∀ r ∈ w.db.users, (r.email = row.email ↔ r.id = row.id) := by
    intro r hr
    constructor
    · intro he
      rw [eq_of_key (·.email) w.db.unique.email hr hrow he]
    · intro he
      rw [eq_of_key (·.id) w.db.unique.userId hr hrow he]
  have hstatus : (activate w.db row.email).users.map status =
      w.db.users.map (fun r => if r.id = row.id then (r.id, true, true) else status r) := by
    simp only [activate, Database.updateUsers, updateWhere, List.map_map]
    apply List.map_congr_left
    intro r hr
    by_cases he : r.id = row.id
    · simp [he, (hsame r hr).mpr he, status]
    · simp [he, mt (hsame r hr).mp he, status]
  have hmem : { row with isActive := true, emailVerified := true } ∈
      (activate w.db row.email).users := mem_updateWhere.mpr ⟨row, hrow, by simp⟩
  obtain ⟨activated, hactivated⟩ := Option.isSome_iff_exists.mp
    (List.find?_isSome (p := fun r : UserRow => decide (r.email = row.email)).mpr ⟨_, hmem, by simp⟩)
  refine Safe.bindExcept (safe_solo_eff.mpr ?_)
  intro c hc
  have hexecuted : self.handle c w (.user (.verifyEmail row.email)) =
      (.ok (some activated.intoDomain), { w.evolve c with db := activate w.db row.email }) := by
    rw [handle_user]
    simp only [UserRepository.handle, UserRepository.verifyEmail]
    rw [execute_of_ok hc (by simp [htext]) rfl, hactivated]
    rfl
  rw [safe_ret, hexecuted]
  refine Safe.bindExcept ((ensureWallet_safe activated.intoDomain _).mono ?_)
  rintro _ v ⟨⟨user, rfl⟩, hv⟩
  refine (verifiedSession_safe user v).mono ?_
  rintro r u ⟨hr, hu⟩
  refine ⟨hr, ?_⟩
  rw [hu, hv]
  exact hstatus

/-- A token that an account holds opens the account exactly until it expires. -/
theorem opens_iff (hproduction : eqIgnoreAsciiCase self.config.environment "production" = true)
    {w : self.State} (hw : Tidy w.db.users) {row : UserRow} (hrow : row ∈ w.db.users)
    {token : String} (htoken : row.emailVerificationToken = some token) {e : ℕ}
    (he : row.emailVerificationExpiresAt = some e) : Opens self w row.id token ↔ w.now < e := by
  have hholds : ∀ r ∈ w.db.users, ∀ now, holdsToken now token r = true → r = row ∧ now < e := by
    intro r hr now h
    obtain ⟨ht, hexpiry⟩ := of_decide_eq_true h
    have hsame : r = row := eq_of_key (·.id) w.db.unique.userId hr hrow (hw.owner hrow hr htoken ht)
    rw [hsame, he] at hexpiry
    exact ⟨hsame, by simpa using hexpiry⟩
  have hanswer : ∀ c : Choice, c.fails = false → c.elapsed = 0 →
      (self.handle c w (.user (.findEmailByToken token))).1 =
        .ok ((limitOne c.pick (holdsToken w.now token) w.db.users).map UserRow.email) := by
    intro c hc helapsed
    rw [handle_user]
    simp [UserRepository.handle, select, hc, hw.text hrow htoken, helapsed]
  constructor
  · intro h
    obtain ⟨⟨result, hresult, -⟩, -⟩ := h (fun _ => {}) (fun _ => rfl) rfl
    by_contra hexpired
    -- nobody holds the token any more, so the lookup finds no email
    have hnone : limitOne 0 (holdsToken w.now token) w.db.users = none := by
      refine limitOne_eq_none.mpr ?_
      intro r hr
      cases hr' : holdsToken w.now token r with
      | false => rfl
      | true => exact absurd (hholds r hr w.now hr').2 hexpired
    rw [verifyEmail_eq hproduction, run_eff, hanswer {} rfl rfl, hnone] at hresult
    cases hresult
  · intro hlive o ho helapsed
    have hone : limitOne (o 0).pick (holdsToken w.now token) w.db.users = some row := by
      refine limitOne_eq_some hrow ?_ (fun r hr h => (hholds r hr w.now h).1)
      simp [holdsToken, htoken, he, hlive]
    rw [verifyEmail_eq hproduction, run_eff, hanswer (o 0) (ho 0) helapsed, hone]
    exact (activating_safe (w := (self.handle (o 0) w (.user (.findEmailByToken token))).2) hrow
      (hw.email hrow)).encounters (Encounters.of_choices _ (fun n => ho (n + 1)) _)

end Redeeming

section Issuing

/-- No account holds the token. -/
def Unheld (w : self.State) (token : String) : Prop :=
  ∀ row ∈ w.db.users, row.emailVerificationToken ≠ some token

instance (w : self.State) (token : String) : Decidable (Unheld self w token) :=
  inferInstanceAs (Decidable (∀ row ∈ w.db.users, row.emailVerificationToken ≠ some token))

/-- The token that an operation stores with an account. -/
def storedToken : Op → Option String
  | .user (.create newUser) => newUser.verificationToken
  | .user (.setVerificationToken _ token) => some token
  | _ => none

/-- Nothing fails, and a token that is stored is a fresh one. -/
def Healthy (c : Choice) (w : self.State) (o : Op) : Prop :=
  c.fails = false ∧ ∀ token ∈ storedToken o, Unheld self w token

instance (c : Choice) (w : self.State) (o : Op) : Decidable (Healthy self c w o) :=
  inferInstanceAs (Decidable (c.fails = false ∧ ∀ token ∈ storedToken o, Unheld self w token))

/-- An operation of the account calls: tokens that it stores are texts of identifiers. -/
def Proper : Op → Prop
  | .user (.create newUser) => ∃ id, newUser.verificationToken = some (self.lib.uuidToString id)
  | .user (.setVerificationToken _ token) => ∃ id, token = self.lib.uuidToString id
  | .user (.verifyEmail _) => True
  | o => o.kind ∉ dbWrites ∨ o.kind = .persistCustodialWallet

/-- The account holds the token, which expires later than the given instant. -/
def Held (first : ℕ) (w : self.State) (userId : Uuid) (token : String) : Prop :=
  ∃ row ∈ w.db.users, row.id = userId ∧ row.emailVerificationToken = some token ∧
    ∃ e, row.emailVerificationExpiresAt = some e ∧ first < e

/-- Only tokens that the account holds are published. -/
def Permitted (first : ℕ) (w : self.State) (o : Op) : Prop :=
  Proper self o ∧ ∀ userId username email token,
    o = .bus (.publish (.verificationEmailRequested userId username email token)) →
      Held self first w userId token

def discipline (first : ℕ) : Discipline Op Choice self.State where
  inv := fun w => Tidy w.db.users ∧ first ≤ w.now
  rely := Eq
  permits := Permitted self first
  admits := Healthy self

variable {self}

theorem Tidy.append {rows : List UserRow} (h : Tidy rows) {row : UserRow} {token : String}
    (hemail : sqlText row.email = true) (htoken : row.emailVerificationToken = some token)
    (htext : sqlText token = true) (hfresh : ∀ r ∈ rows, r.emailVerificationToken ≠ some token) :
    Tidy (rows ++ [row]) := by
  have hcases : ∀ r ∈ rows ++ [row], r ∈ rows ∨ r = row := by
    intro r hr
    rcases List.mem_append.mp hr with hr | hr
    · exact .inl hr
    · exact .inr (List.mem_singleton.mp hr)
  refine tidy_of_rows ?_ ?_ ?_
  · intro r hr
    rcases hcases r hr with hr | rfl
    · exact h.email hr
    · exact hemail
  · intro r hr t ht
    rcases hcases r hr with hr | rfl
    · exact h.text hr ht
    · cases htoken.symm.trans ht
      exact htext
  · intro r hr s hs t ht ht'
    rcases hcases r hr with hrold | rfl <;> rcases hcases s hs with hsold | rfl
    · exact h.owner hrold hsold ht ht'
    · cases htoken.symm.trans ht'
      exact absurd ht (hfresh r hrold)
    · cases htoken.symm.trans ht
      exact absurd ht' (hfresh s hsold)
    · rfl

theorem Tidy.assign {rows : List UserRow} (h : Tidy rows) {userId : Uuid} {token : String} {e : ℕ}
    (htext : sqlText token = true) (hfresh : ∀ r ∈ rows, r.emailVerificationToken ≠ some token) :
    Tidy (updateWhere (fun r => r.id = userId) (fun r => { r with
      emailVerificationToken := some token
      emailVerificationExpiresAt := some e }) rows) := by
  have hcases : ∀ r' ∈ updateWhere (fun r => r.id = userId) (fun r => { r with
      emailVerificationToken := some token
      emailVerificationExpiresAt := some e }) rows,
      ∃ r ∈ rows, r'.id = r.id ∧ r'.email = r.email ∧
        ((r.id = userId ∧ r'.emailVerificationToken = some token) ∨
          r'.emailVerificationToken = r.emailVerificationToken) := by
    intro r' hr'
    obtain ⟨r, hr, rfl⟩ := mem_updateWhere.mp hr'
    by_cases hid : r.id = userId
    · exact ⟨r, hr, by simp [hid]⟩
    · exact ⟨r, hr, by simp [hid]⟩
  refine tidy_of_rows ?_ ?_ ?_
  · intro r' hr'
    obtain ⟨r, hr, -, hemail, -⟩ := hcases r' hr'
    rw [hemail]
    exact h.email hr
  · intro r' hr' t ht
    obtain ⟨r, hr, -, -, ⟨-, hnew⟩ | hold⟩ := hcases r' hr'
    · cases hnew.symm.trans ht
      exact htext
    · exact h.text hr (hold ▸ ht)
  · intro r' hr' s' hs' t ht ht'
    obtain ⟨r, hr, hrid, -, hrow⟩ := hcases r' hr'
    obtain ⟨s, hs, hsid, -, hsow⟩ := hcases s' hs'
    rw [hrid, hsid]
    rcases hrow with ⟨hru, hnew⟩ | hold <;> rcases hsow with ⟨hsu, hnew'⟩ | hold'
    · rw [hru, hsu]
    · cases hnew.symm.trans ht
      exact absurd (hold' ▸ ht') (hfresh s hs)
    · cases hnew'.symm.trans ht'
      exact absurd (hold ▸ ht) (hfresh r hr)
    · exact h.owner hr hs (hold ▸ ht) (hold' ▸ ht')

/-- Healthy operations keep tokens apart. -/
theorem tidy_handle (huuid : UuidText self.lib) {c : Choice} {w : self.State} {o : Op}
    (hw : Tidy w.db.users) (ho : Proper self o) (hc : Healthy self c w o) :
    Tidy (self.handle c w o).2.db.users := by
  have hfit : ∀ id, fit 128 (self.lib.uuidToString id) = .ok (self.lib.uuidToString id) :=
    fun id => fit_of_le ((huuid.length id).trans (by decide))
  have hkeep : o.kind ∉ dbWrites ∨ o.kind = .persistCustodialWallet →
      Tidy (self.handle c w o).2.db.users := by
    intro hkind
    unfold Tidy
    rw [users_kept identity (fun _ _ _ _ => rfl) hkind]
    exact hw
  cases o with
  | user q =>
    cases q with
    | create newUser =>
      obtain ⟨id, hid⟩ := ho
      rw [handle_user]
      simp only [UserRepository.handle]
      rcases create_cases c (w.evolve c).now w.db newUser with
        ⟨e, hcreate⟩ | ⟨fitted, db', hfitted, hcreate, -, hu⟩
      · rw [hcreate]
        exact hw
      · rw [hcreate, hu]
        have htexts := List.all_eq_true.mp (execute_available (congrArg Prod.fst hcreate)).2
        have hemail : sqlText newUser.email = true :=
          htexts newUser.email (by simp [NewUser.texts])
        have htoken : fitted.verificationToken = some (self.lib.uuidToString id) := by
          have hfits := (NewUser.fitted_token hfitted).2
          rw [hid, fitOption, hfit id] at hfits
          exact (Except.ok.inj hfits).symm
        refine Tidy.append hw ?_ htoken (huuid.text id) (hc.2 _ hid)
        exact (fit_text (NewUser.fitted_identifiers hfitted).2 hemail).1
    | setVerificationToken userId token =>
      obtain ⟨id, rfl⟩ := ho
      rw [handle_user]
      simp only [UserRepository.handle]
      rcases setVerificationToken_cases c (w.evolve c).now w.db userId (self.lib.uuidToString id) with
        ⟨e, hset⟩ | ⟨text, db', htext, hset, -, hu⟩
      · rw [hset]
        exact hw
      · cases (hfit id).symm.trans htext
        rw [hset, hu]
        exact hw.assign (huuid.text id) (hc.2 _ rfl)
    | verifyEmail email =>
      rw [handle_user]
      simp only [UserRepository.handle]
      rcases verifyEmail_cases c w.db email with ⟨e, hverify⟩ | hverify
      · rw [hverify]
        exact hw
      · have hsame : (activate w.db email).users.map identity = w.db.users.map identity :=
          map_updateWhere identity w.db.users (fun _ => rfl)
        rw [hverify]
        unfold Tidy
        rw [hsame]
        exact hw
    | _ => exact hkeep ho
  | _ => exact hkeep ho

/-- An operation that neither stores a token without need nor mails one. -/
def Harmless (self : AuthService) (o : Op) : Prop :=
  Proper self o ∧ ∀ userId username email token,
    o ≠ .bus (.publish (.verificationEmailRequested userId username email token))

theorem Harmless.permitted {o : Op} (h : Harmless self o) (first : ℕ) (w : self.State) :
    Permitted self first w o :=
  ⟨h.1, fun userId username email token he => absurd he (h.2 userId username email token)⟩

theorem harmless_of_kind {o : Op}
    (h : (o.kind ∉ dbWrites ∨ o.kind = .persistCustodialWallet) ∧ o.kind ≠ .publish) :
    Harmless self o := by
  refine ⟨?_, ?_⟩
  · unfold Proper
    split
    · simp [dbWrites] at h
    · simp [dbWrites] at h
    · trivial
    · exact h.1
  · rintro userId username email token rfl
    exact h.2 rfl

theorem limited_harmless {α : Type} {kinds : List OpKind} {p : Program α} (h : Limited kinds p)
    (hk : ∀ k ∈ kinds, (k ∉ dbWrites ∨ k = .persistCustodialWallet) ∧ k ≠ .publish) :
    Issues (Harmless self) p :=
  Issues.mono (fun o ho => harmless_of_kind (hk o.kind ho)) h

section Calls

variable {first : ℕ} {w : self.State}

abbrev Mails (first : ℕ) {α : Type} (p : Program α) (w : self.State) : Prop :=
  Safe self.handle (discipline self first) (fun _ _ => True) p w

/-- One operation, in a state in which tokens are apart. -/
theorem mails_eff {α : Type} {Q : α → self.State → Prop} {o : Op} {k : Op.Ans o → Program α}
    (h : Tidy w.db.users → first ≤ w.now → Permitted self first w o ∧ ∀ c, Healthy self c w o →
      Safe self.handle (discipline self first) Q (k (self.handle c w o).1) (self.handle c w o).2) :
    Safe self.handle (discipline self first) Q (.eff o k) w := by
  intro v hv hinv
  obtain rfl : w = v := hv
  exact h hinv.1 hinv.2

theorem mails_quiet {α : Type} {Q : α → self.State → Prop} {o : Op} {k : Op.Ans o → Program α}
    (ho : Harmless self o) (h : ∀ c, Healthy self c w o →
      Safe self.handle (discipline self first) Q (k (self.handle c w o).1) (self.handle c w o).2) :
    Safe self.handle (discipline self first) Q (.eff o k) w :=
  mails_eff (fun _ _ => ⟨ho.permitted first w, h⟩)

theorem verifyEmail_harmless (token : String) :
    Issues (Harmless self) (self.verifyEmail token).run := by
  refine Issues.bindExcept (limited_harmless (self.verifiedAddress_limited token) (by decide)) ?_
  intro email
  refine Issues.bindExcept ⟨⟨trivial, by simp⟩, fun _ => trivial⟩ ?_
  intro activated
  cases activated with
  | none => trivial
  | some activated =>
    refine Issues.bindExcept (limited_harmless (self.ensureWallet_limited activated) (by decide)) ?_
    intro user
    refine Issues.bindExcept (limited_harmless (mintToken_limited _ _ _) (by decide)) ?_
    intro _
    refine Issues.bindExcept ⟨⟨.inl (by simp [dbWrites]), by simp⟩, fun _ => trivial⟩ ?_
    intro _
    refine Issues.bindExcept ⟨harmless_of_kind (by simp [dbWrites]), fun _ => trivial⟩ ?_
    intro _
    refine Issues.bindExcept ⟨harmless_of_kind (by simp [dbWrites]), fun _ => trivial⟩ ?_
    intro _
    trivial

/-- A token is mailed that the account holds. -/
theorem mail_mails {state : EmailVerificationState} {email token : String}
    (h : Held self first w state.userId token) :
    Mails first (ResendCooldown.mail self state email token) w := by
  refine mails_eff (fun _ _ => ⟨⟨.inl (by simp [dbWrites]), ?_⟩, ?_⟩)
  · intro userId username mail token' he
    cases he
    exact h
  · intro c _
    exact mails_quiet (harmless_of_kind (by simp [dbWrites])) (fun _ _ => trivial)

/-- A call that passes the gate mails the token it has read, or the one that it stores. -/
theorem send_mails (huuid : UuidText self.lib) {state : EmailVerificationState} (email : String)
    (hpresent : state.userId ∈ w.db.users.map (·.id))
    (htoken : ∀ token, state.verificationToken = some token → Held self first w state.userId token) :
    Mails first (ResendCooldown.send self state email) w := by
  unfold ResendCooldown.send
  cases hstate : state.verificationToken with
  | some token => exact mail_mails (htoken token hstate)
  | none =>
    refine mails_quiet (harmless_of_kind (by simp [dbWrites])) ?_
    intro c _
    refine mails_eff (fun _ hfirst => ⟨⟨⟨_, rfl⟩, by simp⟩, ?_⟩)
    intro d _
    split
    · rename_i hstored
      have hfit : fit 128 (self.lib.uuidToString (self.handle c w (.host .newUuid)).1) =
          .ok (self.lib.uuidToString (self.handle c w (.host .newUuid)).1) :=
        fit_of_le ((huuid.length _).trans (by decide))
      obtain ⟨⟨row, hrow, hid, ht, he⟩, -⟩ := ResendCooldown.stored_after
        (w := (self.handle c w (.host .newUuid)).2) (c := d) hpresent hfit hstored
      refine mail_mails ⟨row, hrow, hid, ht, _, he, ?_⟩
      simp only [secs]
      omega
    · trivial

theorem check_mails (huuid : UuidText self.lib) {state : EmailVerificationState} (email : String)
    (hpresent : state.userId ∈ w.db.users.map (·.id))
    (htoken : ∀ token, state.verificationToken = some token → Held self first w state.userId token) :
    Mails first (ResendCooldown.check self state email) w := by
  refine mails_quiet (harmless_of_kind (by simp [dbWrites])) ?_
  intro c _
  split
  · trivial
  · exact send_mails huuid email hpresent htoken

/-- What a resending mails after its lookup was valid at the lookup. -/
theorem found_mails (huuid : UuidText self.lib) (email : String) (c : Choice) :
    Mails (self.handle c w (.user (.findVerificationStateByEmail email))).2.now
      (ResendCooldown.found self email
        (self.handle c w (.user (.findVerificationStateByEmail email))).1)
      (self.handle c w (.user (.findVerificationStateByEmail email))).2 := by
  rw [handle_user]
  dsimp only [UserRepository.handle, select]
  split
  · trivial
  · split
    · cases hrow : limitOne c.pick (addressed self.lib.pgLower email) w.db.users with
      | none =>
        simp only [findVerificationStateByEmail, hrow, Option.map_none]
        trivial
      | some row =>
        simp only [findVerificationStateByEmail, hrow, Option.map_some, ResendCooldown.found]
        have hmem := (limitOne_some hrow).1
        split
        · trivial
        · refine check_mails huuid email (List.mem_map_of_mem hmem) ?_
          intro token htoken
          dsimp only at htoken
          split at htoken
          · rename_i hlive
            cases he : row.emailVerificationExpiresAt with
            | none => simp [he] at hlive
            | some e =>
              rw [he] at hlive
              exact ⟨row, hmem, rfl, htoken, e, he, of_decide_eq_true hlive⟩
          · cases htoken
    · trivial

/-- A registration after its password has been hashed. -/
def registering (self : AuthService) (username email : String) (firstName lastName : Option String)
    (passwordHash : String) : Method RegistrationResult := do
  let userId ← observe (host .newUuid)
  let tokenId ← observe (host .newUuid)
  let verificationToken := self.lib.uuidToString tokenId
  match ← observe (userRepo (.create ⟨userId, username, email, passwordHash, "user", firstName,
      lastName, some verificationToken⟩)) with
  | .error e => throw (createError e)
  | .ok () => do
    let _ ← observe (eventBus (.publish (.userRegistered userId username email)))
    let _ ← observe (eventBus (.publish
      (.verificationEmailRequested userId username email verificationToken)))
    return ⟨userId, username, email, firstName, lastName,
      "User registered successfully. Please verify your email."⟩

theorem register_eq (username email password : String) (firstName lastName : Option String) :
    (self.register username email password firstName lastName).run =
      if ¬ email.toList.contains '@' ∨ email.utf8ByteSize < 5 then
        .ret (.error (.withCode .invalidEmail "Invalid email format"))
      else .eff (.host (.hashPassword password))
        (proceed (registering self username email firstName lastName)) := by
  unfold register
  split
  · rfl
  · exact run_bind' (attempt (host (.hashPassword password)))
      (registering self username email firstName lastName)

/-- The row of an account that was just created. -/
theorem created_after (huuid : UuidText self.lib) {c : Choice} {newUser : NewUser} {id : Uuid}
    (hid : newUser.verificationToken = some (self.lib.uuidToString id))
    (hok : (self.handle c w (.user (.create newUser))).1 = .ok ()) :
    ∃ row ∈ (self.handle c w (.user (.create newUser))).2.db.users, row.id = newUser.id ∧
      row.emailVerificationToken = some (self.lib.uuidToString id) ∧
      row.emailVerificationExpiresAt = some (w.now + c.elapsed + secs (24 * 3600)) := by
  have hfit : fit 128 (self.lib.uuidToString id) = .ok (self.lib.uuidToString id) :=
    fit_of_le ((huuid.length id).trans (by decide))
  rw [handle_user] at hok ⊢
  simp only [UserRepository.handle] at hok ⊢
  rcases create_cases c (w.evolve c).now w.db newUser with
    ⟨e, hcreate⟩ | ⟨fitted, db', hfitted, hcreate, -, hu⟩
  · rw [hcreate] at hok
    cases hok
  · obtain ⟨hsame, htoken⟩ := NewUser.fitted_token hfitted
    rw [hid, fitOption, hfit] at htoken
    have htoken' := (Except.ok.inj htoken).symm
    rw [hcreate, hu]
    refine ⟨newUserRow (w.evolve c).now fitted, List.mem_append_right _ (List.mem_singleton.mpr rfl),
      hsame, htoken', ?_⟩
    simp [newUserRow, htoken']

/-- A registration mails the token of the new account. -/
theorem registering_mails (huuid : UuidText self.lib) (username email : String)
    (firstName lastName : Option String) (passwordHash : String) :
    Mails first (registering self username email firstName lastName passwordHash).run w := by
  have hdraw : Harmless self (.host .newUuid) := harmless_of_kind (by simp [dbWrites])
  refine Safe.observeBind (mails_quiet hdraw ?_)
  intro c _
  rw [safe_ret]
  refine Safe.observeBind (mails_quiet hdraw ?_)
  intro d _
  rw [safe_ret]
  refine Safe.observeBind (mails_eff ?_)
  intro _ hfirst
  refine ⟨⟨⟨_, rfl⟩, by simp⟩, ?_⟩
  intro e _
  rw [safe_ret]
  split
  · trivial
  · rename_i hcreated
    obtain ⟨row, hrow, hid, ht, he⟩ := created_after huuid rfl hcreated
    refine Safe.observeBind (mails_eff ?_)
    intro _ _
    refine ⟨⟨.inl (by simp [dbWrites]), by simp⟩, ?_⟩
    intro g _
    rw [safe_ret]
    refine Safe.observeBind (mails_eff ?_)
    intro _ _
    refine ⟨⟨.inl (by simp [dbWrites]), ?_⟩, fun _ _ => trivial⟩
    intro userId name mail token heq
    cases heq
    refine ⟨row, hrow, hid, ht, _, he, ?_⟩
    simp only [secs]
    omega

end Calls

section Runs

/-- Registrations, verifications and requests for another mail. -/
def accountCall : Call → Bool
  | .register .. => true
  | .verifyEmail _ => true
  | .resendVerification _ => true
  | _ => false

/-- A published link belongs to the account it is for, was valid at the given instant, and opens
the account exactly until its token expires. -/
def Works (self : AuthService) (first : ℕ) (c : Choice) (w : self.State) (o : Op) : Prop :=
  ∀ userId username email token,
    o = .bus (.publish (.verificationEmailRequested userId username email token)) →
      ∃ row ∈ w.db.users, row.id = userId ∧ row.emailVerificationToken = some token ∧
        ∃ e, row.emailVerificationExpiresAt = some e ∧ first < e ∧
          (Opens self (self.handle c w o).2 userId token ↔ (self.handle c w o).2.now < e)

/-- A call without failures, with fresh tokens. -/
def Served (self : AuthService) (w : self.State) (r : Request) : Prop :=
  Encounters self.handle (Healthy self) (self.method r.call).run r.oracle w

instance (w : self.State) (r : Request) : Decidable (Served self w r) :=
  decidableEncounters self.handle (Healthy self) (self.method r.call).run r.oracle w

theorem works_of_permitted
    (hproduction : eqIgnoreAsciiCase self.config.environment "production" = true) {first : ℕ}
    {c : Choice} {w : self.State} {o : Op} (hw : Tidy w.db.users) (ho : Permitted self first w o) :
    Works self first c w o := by
  rintro userId username email token rfl
  obtain ⟨row, hrow, rfl, htoken, e, he, hfirst⟩ := ho.2 userId username email token rfl
  have hpost : Tidy (self.handle c w (.bus (.publish
    (.verificationEmailRequested row.id username email token)))).2.db.users := hw
  exact ⟨row, hrow, rfl, htoken, e, he, hfirst, opens_iff hproduction hpost hrow htoken he⟩

/-- What follows the first operation of a call decides about its links. -/
theorem works_of_mails (hproduction : eqIgnoreAsciiCase self.config.environment "production" = true)
    (huuid : UuidText self.lib) {α : Type} {p : Program α} {f : ℕ → Choice} {first : ℕ}
    {w : self.State} (h : Mails first p w) (hw : Tidy w.db.users) (hfirst : first ≤ w.now)
    (hf : Encounters self.handle (Healthy self) p f w) :
    Encounters self.handle (Works self first) p f w ∧
      Tidy (run self.handle p f w).2.db.users := by
  have hstep : ∀ (c : Choice) (v : self.State) (o : Op), (discipline self first).inv v →
      (discipline self first).permits v o → (discipline self first).admits c v o →
      (discipline self first).inv (self.handle c v o).2 := by
    intro c v o hv ho hc
    exact ⟨tidy_handle huuid hv.1 ho.1 hc, hv.2.trans (self.now_handle c v o)⟩
  obtain ⟨hmet, hinv⟩ := Safe.meets (fun _ => rfl) hstep h ⟨hw, hfirst⟩ hf
  refine ⟨Encounters.mono (R := fun _ => True) ?_ hmet (fun _ => trivial), hinv.1⟩
  intro c v o hv _
  exact works_of_permitted hproduction hv.1.1 hv.2.1

theorem works_of_first (hproduction : eqIgnoreAsciiCase self.config.environment "production" = true)
    (huuid : UuidText self.lib) {α : Type} {o : Op} {k : Op.Ans o → Program α} {f : ℕ → Choice}
    {w : self.State} (ho : Harmless self o) (hnow : ∀ c, (self.handle c w o).2.now = w.now + c.elapsed)
    (h : ∀ c, Mails (self.handle c w o).2.now (k (self.handle c w o).1) (self.handle c w o).2)
    (hw : Tidy w.db.users) (hf : Encounters self.handle (Healthy self) (.eff o k) f w) :
    Encounters self.handle (Works self (w.now + (f 0).elapsed)) (.eff o k) f w ∧
      Tidy (run self.handle (.eff o k) f w).2.db.users := by
  obtain ⟨hmet, hinv⟩ := works_of_mails hproduction huuid (h (f 0))
    (tidy_handle huuid hw ho.1 hf.1) (Nat.le_refl _) hf.2
  rw [hnow] at hmet
  exact ⟨⟨works_of_permitted hproduction hw (ho.permitted _ w), hmet⟩, hinv⟩

/-- One call of a run. -/
theorem works_served (hproduction : eqIgnoreAsciiCase self.config.environment "production" = true)
    (huuid : UuidText self.lib) {w : self.State} {r : Request} (hr : accountCall r.call = true)
    (hw : Tidy w.db.users) (h : Served self w r) :
    Encounters self.handle (Works self (w.now + (r.oracle 0).elapsed)) (self.method r.call).run
      r.oracle w ∧ Tidy (self.after w r).db.users := by
  obtain ⟨call, f⟩ := r
  cases call with
  | register username email password firstName lastName =>
    simp only [Served, method] at h ⊢
    unfold AuthService.after serve
    simp only [method]
    rw [register_eq] at h ⊢
    by_cases hinvalid : ¬ email.toList.contains '@' ∨ email.utf8ByteSize < 5
    · rw [if_pos hinvalid]
      exact ⟨trivial, hw⟩
    · rw [if_neg hinvalid] at h ⊢
      refine works_of_first hproduction huuid (harmless_of_kind (by simp [dbWrites])) ?_ ?_ hw h
      · intro c
        rfl
      · intro c
        cases hhash : (self.handle c w (.host (.hashPassword password))).1 with
        | error e => trivial
        | ok hash => exact registering_mails huuid username email firstName lastName hash
  | verifyEmail token =>
    have hharmless := @verifyEmail_harmless self token
    have hmails : Mails 0 (self.verifyEmail token).run w :=
      hharmless.safe (fun v o ho => Harmless.permitted ho 0 v) w
    refine ⟨?_, (works_of_mails hproduction huuid hmails hw (Nat.zero_le _) h).2⟩
    refine Encounters.mono (R := fun _ => True) ?_ (hharmless.encounters f w) (fun _ => trivial)
    intro c v o ho _ userId username email token' he
    exact absurd he (ho.2 userId username email token')
  | resendVerification email =>
    simp only [Served, method] at h ⊢
    unfold AuthService.after serve
    simp only [method]
    rw [ResendCooldown.resendVerification_eq] at h ⊢
    refine works_of_first hproduction huuid (harmless_of_kind (by simp [dbWrites])) ?_ ?_ hw h
    · intro c
      rfl
    · intro c
      exact found_mails huuid email c
  | _ => exact absurd hr Bool.false_ne_true

/-- In every run of registrations, verifications and requests for another mail, in production,
without failures and with fresh tokens, a link that is published belongs to its account, was
valid when its call began, and opens the account and no other one until its token expires. -/
theorem published_links_work
    (hproduction : eqIgnoreAsciiCase self.config.environment "production" = true)
    (huuid : UuidText self.lib) {rs : List Request} (hcalls : ∀ r ∈ rs, accountCall r.call = true)
    (hrs : self.Along (Served self) (World.empty self.lib.pgLower) rs) :
    self.Along (fun w r => Encounters self.handle (Works self (w.now + (r.oracle 0).elapsed))
      (self.method r.call).run r.oracle w) (World.empty self.lib.pgLower) rs := by
  have hrun : ∀ (w : self.State), Tidy w.db.users → self.Along (Served self) w rs →
      self.Along (fun w r => Encounters self.handle (Works self (w.now + (r.oracle 0).elapsed))
        (self.method r.call).run r.oracle w) w rs := by
    clear hrs
    induction rs with
    | nil => exact fun _ _ _ => trivial
    | cons r rs ih =>
      intro w hw hrs
      obtain ⟨hworks, hafter⟩ := works_served hproduction huuid (hcalls r List.mem_cons_self) hw hrs.1
      exact ⟨hworks, ih (fun q hq => hcalls q (List.mem_cons_of_mem r hq)) _ hafter hrs.2⟩
  refine hrun _ ?_ hrs
  intro a ha
  cases ha

end Runs

end Issuing

section Alice
open ReferenceLibraries

/-- Alice asks for another mail. -/
def resendAlice (choices : List Choice) : Request where
  call := .resendVerification "alice@example.com"
  oracle := oracle choices

/-- The links that are mailed to Alice when she registers and when she asks again work. -/
theorem links_of_alice_work :
    service.Along (fun w r => Encounters service.handle
      (Works service (w.now + (r.oracle 0).elapsed)) (service.method r.call).run r.oracle w)
      (World.empty _) [registerAlice, resendAlice [], verifyAlice] := by
  have hrun : (∀ r ∈ [registerAlice, resendAlice [], verifyAlice], accountCall r.call = true) ∧
      service.Along (Served service) (World.empty _) [registerAlice, resendAlice [], verifyAlice] := by
    decide +kernel
  exact published_links_work (by decide) uuidText hrun.1 hrun.2

/-- The token is looked up a millisecond before it expires, and published a millisecond later. -/
def lateResend : Request :=
  resendAlice [{ elapsed := secs (24 * 3600) - 1 }, {}, { elapsed := 1 }]

/-- The token that an operation mails. -/
def mailedToken : Op → Option String
  | .bus (.publish (.verificationEmailRequested _ _ _ token)) => some token
  | _ => none

/-- A token that is mailed can be verified at that instant, when nothing disturbs it. -/
def Usable (c : Choice) (w : service.State) (o : Op) : Prop :=
  ∀ token ∈ mailedToken o, (run service.handle (service.verifyEmail token).run (fun _ => {})
    (service.handle c w o).2).1.isOk = true

instance (c : Choice) (w : service.State) (o : Op) : Decidable (Usable c w o) :=
  inferInstanceAs (Decidable (∀ token ∈ mailedToken o, (run service.handle
    (service.verifyEmail token).run (fun _ => {}) (service.handle c w o).2).1.isOk = true))

/-- A token can expire between its lookup and its publication. -/
theorem link_expires_during_call :
    ¬ ∀ rs : List Request, (∀ r ∈ rs, accountCall r.call = true) →
      service.Along (Served service) (World.empty _) rs →
      service.Along (fun w r => Encounters service.handle (fun c v o =>
        ∀ userId username email token,
          o = .bus (.publish (.verificationEmailRequested userId username email token)) →
            Opens service (service.handle c v o).2 userId token) (service.method r.call).run
          r.oracle w) (World.empty _) rs := by
  intro h
  have hrun : (∀ r ∈ [registerAlice, lateResend], accountCall r.call = true) ∧
      service.Along (Served service) (World.empty _) [registerAlice, lateResend] ∧
      ¬ Encounters service.handle Usable (service.method lateResend.call).run lateResend.oracle
        registered := by decide +kernel
  obtain ⟨hcalls, hserved, hunusable⟩ := hrun
  obtain ⟨-, hlate, -⟩ := h _ hcalls hserved
  apply hunusable
  refine Encounters.mono (R := fun _ => True) ?_ hlate (fun _ => trivial)
  intro c v o hopens _ token htoken
  unfold mailedToken at htoken
  split at htoken
  · cases htoken
    obtain ⟨⟨result, hresult, -⟩, -⟩ := hopens _ _ _ token rfl (fun _ => {}) (fun _ => rfl) rfl
    rw [hresult]
    rfl
  · cases htoken

end Alice

end IamService.VerificationLinks
