import IamService.UnverifiedAccounts

/-!
# What a request cannot do

Two limits of the REST surface, in every interleaving and with any failures. Without a token of
a user no request changes what the user holds: the wallets, the address, the custodial key and
the registration on chain. And while the cache is down no request about accounts and sessions is
served at all, because the rate limiter refuses whatever it cannot count.
-/

namespace IamService.RestConfinement
open EffectPrograms RelationTables AccountHistories AuditTrail RestApi TenantIsolation
  UnverifiedAccounts WalletRepository ReferenceLibraries

section Holdings

variable (self : AuthService) (userId : Uuid)

/-- The columns of an account that describe what it holds. -/
def columns (r : UserRow) : Option String × Option KeyMaterial × Bool :=
  (r.walletAddress, r.keyMaterial, r.blockchainRegistered)

/-- The user holds these wallets and has these columns. -/
structure Holds (auth : AuthService) (userId : Uuid) (rows : List WalletRow)
    (kept : Option String × Option KeyMaterial × Bool) (w : auth.State) : Prop where
  wallets : w.db.wallets.filter (ownedBy userId) = rows
  account : ∀ r ∈ w.db.users, r.id = userId → columns r = kept

/-- Operations for the user only read wallets. -/
def discipline (rows : List WalletRow) (kept : Option String × Option KeyMaterial × Bool) :
    Discipline Op Choice self.State where
  inv := Holds self userId rows kept
  rely := fun _ _ => True
  permits := fun _ o => subject o = some userId → o.kind = .readWallets
  admits := fun _ _ _ => True

variable {self} {userId} {rows : List WalletRow} {kept : Option String × Option KeyMaterial × Bool}
  {w : self.State}

/-- A user with a wallet has an account. -/
theorem Holds.exists_account (h : Holds self userId rows kept w) (hrows : rows ≠ []) :
    ∃ r ∈ w.db.users, r.id = userId := by
  obtain ⟨x, hx⟩ := List.exists_mem_of_ne_nil rows hrows
  rw [← h.wallets] at hx
  obtain ⟨hmem, howner⟩ := List.mem_filter.mp hx
  obtain ⟨r, hr, hid⟩ := List.mem_map.mp (w.db.references x hmem)
  exact ⟨r, hr, hid.trans (by simpa [ownedBy] using howner)⟩

theorem Holds.hasAnyWallet (h : Holds self userId rows kept w) (hrows : rows ≠ []) :
    hasAnyWallet w.db userId = true := by
  obtain ⟨x, hx⟩ := List.exists_mem_of_ne_nil rows hrows
  rw [← h.wallets] at hx
  obtain ⟨hmem, howner⟩ := List.mem_filter.mp hx
  exact List.any_eq_true.mpr ⟨x, hmem, howner⟩

/-- Without a subject an operation leaves these columns alone. -/
theorem columns_of_change {o : Op} (ho : subject o = none) {r s : UserRow} (h : Change o r s) :
    columns s = columns r := by
  cases h with
  | addressed => cases ho
  | onboarded => cases ho
  | entrusted => cases ho
  | _ => rfl

theorem holds_of_no_subject {c : Choice} {o : Op} (h : Holds self userId rows kept w)
    (hrows : rows ≠ []) (ho : subject o = none) :
    Holds self userId rows kept (self.handle c w o).2 := by
  refine ⟨by rw [wallets_of_no_subject ho]; exact h.wallets, ?_⟩
  intro r hr hid
  -- the row is the account that was there before
  obtain ⟨old, hold, holdid⟩ := h.exists_account hrows
  obtain ⟨s, hs, hchange⟩ := (handle_evolves self c w o).mem hold
  have hsame : r = s := List.inj_on_of_nodup_map (self.handle c w o).2.db.unique.userId hr hs
    (by rw [hid, hchange.advances.id, holdid])
  rw [hsame, columns_of_change ho hchange]
  exact h.account old hold holdid

theorem holds_of_other {c : Choice} {o : Op} {u : Uuid} (h : Holds self userId rows kept w)
    (ho : subject o = some u) (hu : u ≠ userId) :
    Holds self userId rows kept (self.handle c w o).2 := by
  have hothers := otherRows_handle c w (keyed_of_subject ho)
  have hfilter : ∀ l : List WalletRow,
      (l.filter (fun r => r.userId ≠ u)).filter (ownedBy userId) = l.filter (ownedBy userId) := by
    intro l
    rw [List.filter_filter]
    apply List.filter_congr
    intro r _
    by_cases hr : r.userId = userId
    · simp [ownedBy, hr, Ne.symm hu]
    · simp [ownedBy, hr]
  constructor
  · have hwallets := congrArg (fun x => x.2.filter (ownedBy userId)) hothers
    simp only [otherRows, hfilter] at hwallets
    rw [hwallets]
    exact h.wallets
  · intro r hr hid
    have hmem : r ∈ (otherRows (self.handle c w o).2.db u).1 :=
      List.mem_filter.mpr ⟨hr, by simpa [hid] using Ne.symm hu⟩
    rw [hothers] at hmem
    exact h.account r (List.mem_filter.mp hmem).1 hid

theorem discipline_sound (hrows : rows ≠ []) :
    (discipline self userId rows kept).Sound self.handle where
  refl := fun _ => trivial
  trans := fun _ _ => trivial
  rely_step := fun _ _ _ => trivial
  inv_step := by
    intro c w o hinv hperm _
    cases ho : subject o with
    | none => exact holds_of_no_subject hinv hrows ho
    | some u =>
      by_cases hu : u = userId
      · have hread := hperm (by rw [ho, hu])
        have hdb := self.handle_db_of_kind (by rw [hread]; simp [dbWrites]) c w
        exact ⟨by rw [hdb]; exact hinv.wallets, by rw [hdb]; exact hinv.account⟩
      · exact holds_of_other hinv ho hu

section Programs

variable {α : Type}

/-- Operations for somebody else are permitted. -/
theorem other_safe {u : Uuid} (hu : u ≠ userId) {p : Program α}
    (h : Issues (fun o => ∀ x, subject o = some x → x = u) p) (w : self.State) :
    Safe self.handle (discipline self userId rows kept) (fun _ _ => True) p w := by
  refine Issues.safe ?_ h w
  intro v o ho hsub
  exact absurd (ho userId hsub).symm hu

theorem limited_safe (kinds : List OpKind) {p : Program α} (h : Limited kinds p)
    (hk : ∀ k ∈ kinds, k ∉ subjectKinds) (w : self.State) :
    Safe self.handle (discipline self userId rows kept) (fun _ _ => True) p w := by
  refine Issues.safe ?_ h w
  intro v o ho hsub
  rw [subject_of_kind (hk o.kind ho)] at hsub
  cases hsub

/-- The check finds the wallets of the user, or fails and counts as having found some. -/
theorem hasAnyWallet_answer (c : Choice) (h : Holds self userId rows kept w) (hrows : rows ≠ []) :
    (self.handle c w (.wallet (.hasAnyWallet userId))).1.toOption.getD true = true := by
  rw [AuthService.handle_wallet]
  simp only [WalletRepository.handle, h.hasAnyWallet hrows, select_nil]
  split <;> rfl

/-- No wallet is provisioned for a user who has one. -/
theorem ensureWallet_safe (hrows : rows ≠ []) (user : User) :
    Safe self.handle (discipline self userId rows kept) (fun _ _ => True)
      (self.ensureWallet user).run w := by
  by_cases hid : user.id = userId
  · refine Safe.observeBind ?_
    intro v _ hinv
    refine ⟨fun _ => rfl, ?_⟩
    intro c _
    rw [safe_ret]
    have hanswer := hasAnyWallet_answer c hinv hrows
    rw [hid, hanswer]
    simp
  · exact other_safe hid (ensureWallet_owned user) w

theorem verifyEmail_safe (hrows : rows ≠ []) (token : String) :
    Safe self.handle (discipline self userId rows kept) (fun _ _ => True)
      (self.verifyEmail token).run w := by
  refine Safe.andThen (limited_safe _ (self.verifiedAddress_limited token)
    (by simp [subjectKinds]) w) ?_
  intro email v
  refine Safe.andThen (limited_safe [.verifyEmail] (by simp [Limited, userRepo])
    (by simp [subjectKinds]) v) ?_
  intro activated u
  cases activated with
  | none => trivial
  | some user =>
    refine Safe.andThen (ensureWallet_safe hrows user) ?_
    intro verified x
    exact limited_safe _ (self.verifiedSession_limited verified) (by simp [subjectKinds]) x

theorem publicCall_safe (hrows : rows ≠ []) {r : Route} {call : Call}
    (h : r.publicCall = some call) (w : self.State) :
    Safe self.handle (discipline self userId rows kept) (fun _ _ => True)
      (self.method call).run w := by
  rcases publicCall_cases h with ⟨token, rfl⟩ | hquiet
  · exact verifyEmail_safe hrows token
  · exact limited_safe _ (self.method_limited call) hquiet w

variable {t : Transport}

/-- The request bears no token of the user. -/
def Stranger (userId : Uuid) (r : HttpRequest t) : Prop :=
  ∀ token, bearer t r.parts = some token → token.claims.sub ≠ userId

theorem stranger_safe (hrows : rows ≠ []) {r : HttpRequest t} (hr : Stranger userId r)
    (w : self.State) : Safe self.handle (discipline self userId rows kept) (fun _ _ => True)
      (RestApi.program self r) w := by
  refine RestApi.program_safe ?_ ?_ w
  · intro v ip path limit window
    exact limited_safe _ (AuthService.checkRateLimit_limited ip path limit window)
      (by simp [subjectKinds]) v
  · intro v
    refine handler_safe ?_ r.route (fun call h => publicCall_safe hrows h v) ?_ ?_
    · intro u token hsub
      cases hsub
    · intro token c u call hbearer _ _ _ hcall
      rcases privateCall_cases hcall with hwallet | rfl
      · exact other_safe (hr token hbearer) (method_owned hwallet) _
      · exact limited_safe _ (self.method_limited (.getUserProfile _)) (by simp [subjectKinds]) _
    · intro token c u _ _ _
      exact limited_safe _ (AuthService.mintToken_limited _ _ _) (by simp [subjectKinds]) _

/-- Requests without a token of the user, and tasks for others. -/
def Strange (self : AuthService) (t : Transport) (userId : Uuid) (_ : self.State)
    (p : Program Outcome) : Prop :=
  (∃ r : HttpRequest t, Stranger userId r ∧ p = RestApi.program self r) ∨
    ∃ task, task.userId ≠ userId ∧ p = taskProgram self task

/-- A user who has a wallet keeps all there is: in every interleaving of requests that do not
bear a token of the user and of tasks for others, whatever fails, the wallets of the user, the
address, the custodial key and the registration on chain stay as they are. -/
theorem untouched_without_token (hrows : rows ≠ []) {w : self.State} {ps : List (Program Outcome)}
    (h : Reach self.handle (Strange self t userId) (fun _ _ _ => True)
      (Holds self userId rows kept) w ps) : Holds self userId rows kept w := by
  refine Reach.inv (discipline_sound hrows) (fun _ hv => hv) ?_ h
  rintro v p - (⟨r, hr, rfl⟩ | ⟨task, htask, rfl⟩)
  · exact stranger_safe hrows hr v
  · exact Safe.bind ((other_safe htask (registrationTask_owned task) v).mono (fun _ _ _ => trivial))

end Programs

end Holdings

section Limiter

variable {self : AuthService} {t : Transport} {w₀ w : self.State}

/-- The cache refuses every command. -/
def CacheDown (c : Choice) (_ : self.State) : Op → Prop
  | .cache _ => c.fails = true
  | _ => True

/-- Nothing has happened but what the environment does. -/
structure Unserved (auth : AuthService) (w v : auth.State) : Prop where
  db : v.db = w.db
  cache : v.cache = w.cache
  events : v.events = w.events
  issued : v.issued = w.issued
  tasks : v.tasks = w.tasks
  submitted : v.chain.submitted = w.chain.submitted

theorem Unserved.refl (w : self.State) : Unserved self w w := ⟨rfl, rfl, rfl, rfl, rfl, rfl⟩

theorem Unserved.trans {w v u : self.State} (h : Unserved self w v) (h' : Unserved self v u) :
    Unserved self w u :=
  ⟨h'.db.trans h.db, h'.cache.trans h.cache, h'.events.trans h.events, h'.issued.trans h.issued,
    h'.tasks.trans h.tasks, h'.submitted.trans h.submitted⟩

/-- A command that the cache refuses changes nothing. -/
theorem cacheHandle_down {c : Choice} (hc : c.fails = true) (now : ℕ)
    (s : ExpiringStore.Store String CacheValue) (q : CacheOp) :
    (CacheService.handle c now s q).2 = s := by
  cases q <;> simp [CacheService.handle, hc]

/-- Only the cache is asked. -/
def limiterDiscipline (w₀ : self.State) : Discipline Op Choice self.State where
  inv := Unserved self w₀
  rely := fun _ _ => True
  permits := fun _ o => ∃ q, o = .cache q
  admits := CacheDown

theorem limiterDiscipline_sound : (limiterDiscipline w₀).Sound self.handle where
  refl := fun _ => trivial
  trans := fun _ _ => trivial
  rely_step := fun _ _ _ => trivial
  inv_step := by
    rintro c w _ ⟨hdb, hcache, hevents, hissued, htasks, hsubmitted⟩ ⟨q, rfl⟩ hc
    refine ⟨hdb, ?_, hevents, hissued, htasks, ?_⟩
    · exact (cacheHandle_down hc _ _ q).trans hcache
    · exact (Chain.submitted_advance _ _ _).trans hsubmitted

/-- A request that cannot be counted fails the check. -/
theorem checkRateLimit_down (ip path : String) (limit window : ℕ) :
    Safe self.handle (limiterDiscipline w₀) (fun r _ => ∃ e, r = .error e)
      (AuthService.checkRateLimit ip path limit window).run w := by
  refine Safe.bindExcept ?_
  intro v _ _
  refine ⟨⟨_, rfl⟩, ?_⟩
  intro c hc
  have hfails : c.fails = true := hc
  have hrefused : (self.handle c v (.cache (.increment (CacheKeys.rateLimit ip path)))).1 =
      .error (.internal c.errorText) := by
    rw [AuthService.handle_cache]
    simp [CacheService.handle, hfails]
  rw [safe_ret, hrefused]
  exact ⟨_, rfl⟩

/-- The rate limiter has refused the request. -/
def Refused (a : Outcome) : Prop := ∃ route, a = .answered route (.error .tooManyRequests)

theorem limited_request_safe {r : HttpRequest t} (hr : r.route.authPath.isSome = true) :
    Safe self.handle (limiterDiscipline w₀) (fun a _ => Refused a) (RestApi.program self r) w := by
  obtain ⟨path, hpath⟩ := Option.isSome_iff_exists.mp hr
  refine Safe.bind (Safe.mono (Q := fun x _ => x = .error .tooManyRequests) ?_ ?_)
  · rintro x v rfl
    exact ⟨r.route, rfl⟩
  · unfold RestApi.serve
    rw [hpath]
    refine Safe.bind ((checkRateLimit_down _ path _ _).mono ?_)
    rintro _ v ⟨e, rfl⟩
    rfl

/-- While the cache is down, no interleaving of requests about accounts and sessions has any
effect: no account changes, no session is opened, nothing is published, spawned or submitted,
and every request is answered by the rate limiter. -/
theorem auth_routes_fail_closed {ps : List (Program Outcome)}
    (h : Reach self.handle (fun _ p => ∃ r : HttpRequest t, r.route.authPath.isSome = true ∧
      p = RestApi.program self r) CacheDown (fun v => v = w₀) w ps) :
    Unserved self w₀ w ∧ ∀ a, .ret a ∈ ps → Refused a := by
  obtain ⟨hunserved, hpool⟩ := Reach.safe (D := limiterDiscipline w₀) (Q := fun a _ => Refused a)
    limiterDiscipline_sound (fun _ _ _ h _ => h)
    (by
      rintro v rfl
      exact .refl v)
    (by
      rintro v p - ⟨r, hr, rfl⟩
      exact limited_request_safe hr) h
  exact ⟨hunserved, fun a ha => hpool _ ha⟩

end Limiter

section Alice

/-- Somebody forges a token to unlink Alice's wallet, and her email is verified once more. -/
def intruders : List (HttpRequest transport) :=
  [viaGateway (some "Bearer forged.session.token") (.unlinkWallet ⟨4⟩),
    viaGateway none (.verify aliceToken)]

theorem intruders_strange : ∀ r ∈ intruders, Stranger ⟨1⟩ r := by
  have hbearer : ∀ r ∈ intruders, bearer transport r.parts = none := by decide +kernel
  intro r hr token htoken
  rw [hbearer r hr] at htoken
  cases htoken

def intruded : service.State × List (Program Outcome) :=
  schedule service.handle (verifiedState, intruders.map (RestApi.program service))
    (List.replicate 10 (1, ({} : Choice)))

theorem verifiedState_holds :
    Holds service ⟨1⟩ [custodialRow] (columns verifiedRow) verifiedState := by
  refine ⟨by decide +kernel, ?_⟩
  intro r hr _
  rw [List.mem_singleton.mp hr]

/-- Both requests have been answered, and Alice keeps her wallet and her key. -/
theorem untouched_without_token_intruded :
    (intruded.2.all fun p => match p with
      | .ret _ => true
      | .eff _ _ => false) = true ∧
      Holds service ⟨1⟩ [custodialRow] (columns verifiedRow) intruded.1 := by
  have hreach : Reach service.handle (Strange service transport ⟨1⟩) (fun _ _ _ => True)
      (Holds service ⟨1⟩ [custodialRow] (columns verifiedRow)) intruded.1 intruded.2 := by
    refine Reach.schedule (Reach.pool verifiedState_holds _ ?_) _
      (Admitted.of_forall (fun _ _ _ => trivial) _ _)
    intro p hp
    obtain ⟨r, hr, rfl⟩ := List.mem_map.mp hp
    exact .inl ⟨r, intruders_strange r hr, rfl⟩
  exact ⟨by decide +kernel, untouched_without_token (by decide) hreach⟩

/-- A login and a registration while the cache is down. -/
def turnedAway : service.State × List (Program Outcome) :=
  schedule service.handle (verifiedState,
    [RestApi.program service (viaGateway none (.login "alice" "Str0ng!Pass")),
      RestApi.program service (viaGateway none
        (.register "bob" "bob@example.com" "Str0ng!Pass" none none))])
    [(0, { fails := true }), (1, { fails := true })]

theorem auth_routes_fail_closed_turnedAway :
    turnedAway.2.length = 2 ∧ Unserved service verifiedState turnedAway.1 ∧
      ∀ a, .ret a ∈ turnedAway.2 → Refused a := by
  refine ⟨rfl, auth_routes_fail_closed (t := transport) ?_⟩
  refine Reach.schedule (Reach.pool (by rfl) _ ?_) _ ?_
  · intro p hp
    simp only [List.mem_cons, List.not_mem_nil, or_false] at hp
    rcases hp with rfl | rfl
    · exact ⟨_, rfl, rfl⟩
    · exact ⟨_, rfl, rfl⟩
  · exact ⟨rfl, rfl, trivial⟩

end Alice

end IamService.RestConfinement
