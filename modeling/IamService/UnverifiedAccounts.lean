import IamService.AuditTrail
import IamService.RestHandlers
import IamService.TenantIsolation

/-!
# What an unverified account can hold

Over the REST surface a user is known by a token only, and a token is signed for an active
account only. So whatever the requests are, however they interleave and whatever fails, an
account whose email has not been verified has no wallet, no key, no session and no registration
on chain, and no task works for it.

The argument follows the user an operation works for. The wallet statements, the columns that
describe a wallet and the detached tasks are all keyed on a user id, and each time that id comes
from a token or from the verification of an email.
-/

namespace IamService.UnverifiedAccounts
open EffectPrograms RelationTables AccountHistories AuditTrail RestApi TenantIsolation
  ReferenceLibraries

variable (self : AuthService)

/-- The user has an active account. -/
def Active (w : self.State) (userId : Uuid) : Prop :=
  ∃ r ∈ w.db.users, r.id = userId ∧ r.isActive = true

/-- The account has no address, no key and no registration on chain. -/
structure Bare (r : UserRow) : Prop where
  walletAddress : r.walletAddress = none
  keyMaterial : r.keyMaterial = none
  blockchainRegistered : r.blockchainRegistered = false

/-- Only active accounts hold anything. -/
structure Clean (auth : AuthService) (w : auth.State) : Prop where
  users : ∀ r ∈ w.db.users, r.isActive = false → Bare r
  wallets : ∀ r ∈ w.db.wallets, Active auth w r.userId
  tasks : ∀ task ∈ w.tasks, Active auth w task.userId

/-- The user for whom an operation works. -/
def subject : Op → Option Uuid
  | .user (.setWalletAddress userId _) => some userId
  | .user (.markUserOnboarded userId _ _ _ _ _) => some userId
  | .wallet q => some (owner q)
  | .host (.spawn task) => some task.userId
  | _ => none

/-- Operations work for active accounts only. -/
def discipline : Discipline Op Choice self.State where
  inv := fun w => Grounded self w ∧ Clean self w
  rely := Follows self
  permits := fun w o => ∀ userId, subject o = some userId → Active self w userId
  admits := fun _ _ _ => True

variable {self} {w v : self.State}

theorem Active.later {userId : Uuid} (h : Active self w userId) (hv : Follows self w v) :
    Active self v userId := by
  obtain ⟨r, hr, hid, hactive⟩ := h
  obtain ⟨s, hs, hrs⟩ := hv.users.mem hr
  exact ⟨s, hs, hrs.id.trans hid, hrs.isActive hactive⟩

theorem active_of_vouched {claims : Claims} (h : Vouched self w claims) :
    Active self w claims.sub := by
  obtain ⟨r, hr, hactive, hid, -, -⟩ := h
  exact ⟨r, hr, hid, hactive⟩

section Steps

/-- The one account with an active id is active. -/
theorem Active.isActive {userId : Uuid} (h : Active self w userId) {r : UserRow}
    (hr : r ∈ w.db.users) (hid : r.id = userId) : r.isActive = true := by
  obtain ⟨s, hs, hsid, hactive⟩ := h
  have hsame := List.inj_on_of_nodup_map w.db.unique.userId hr hs (hid.trans hsid.symm)
  rw [hsame]
  exact hactive

theorem inserted_bare {o : Op} {r : UserRow} (h : Inserted o r) : Bare r := by
  obtain ⟨newUser, fitted, now, -, -, rfl⟩ := h
  exact ⟨rfl, rfl, rfl⟩

/-- Without a subject no account gains anything but its activation. -/
theorem change_bare {o : Op} (ho : subject o = none) {r s : UserRow} (h : Change o r s)
    (hr : r.isActive = false → Bare r) (hs : s.isActive = false) : Bare s := by
  cases h with
  | same => exact hr hs
  | activated => cases hs
  | tokened =>
    obtain ⟨haddress, hkey, hflag⟩ := hr hs
    exact ⟨haddress, hkey, hflag⟩
  | rehashed =>
    obtain ⟨haddress, hkey, hflag⟩ := hr hs
    exact ⟨haddress, hkey, hflag⟩
  | addressed => cases ho
  | onboarded => cases ho
  | entrusted => cases ho

theorem wallets_of_no_subject {o : Op} (ho : subject o = none) (c : Choice) (w : self.State) :
    (self.handle c w o).2.db.wallets = w.db.wallets := by
  cases o with
  | user q => exact UserRepository.handle_wallets c _ w.db q
  | wallet q => cases ho
  | cache q => rfl
  | bus q => rfl
  | chain q => rfl
  | host q => rw [AuthService.handle_host_db]

/-- An operation with a subject is keyed on it, or spawns a task for it. -/
theorem keyed_of_subject {o : Op} {userId : Uuid} (ho : subject o = some userId) :
    Keyed userId o := by
  unfold subject at ho
  split at ho <;> simp_all

theorem tasks_after {c : Choice} {o : Op} {task : RegistrationTask}
    (h : task ∈ (self.handle c w o).2.tasks) : task ∈ w.tasks ∨ o = .host (.spawn task) := by
  rcases self.tasks_handle c w o with hsame | ⟨task', rfl, happend⟩
  · exact .inl (hsame ▸ h)
  · rw [happend] at h
    rcases List.mem_append.mp h with h | h
    · exact .inl h
    · rw [List.mem_singleton.mp h]
      exact .inr rfl

theorem clean_handle {c : Choice} {o : Op} (h : Clean self w)
    (hperm : ∀ userId, subject o = some userId → Active self w userId) :
    Clean self (self.handle c w o).2 := by
  have hnext := follows_handle c w o
  have htasks : ∀ task ∈ (self.handle c w o).2.tasks,
      Active self (self.handle c w o).2 task.userId := by
    intro task htask
    rcases tasks_after htask with hold | rfl
    · exact (h.tasks task hold).later hnext
    · exact (hperm task.userId rfl).later hnext
  cases hsub : subject o with
  | none =>
    refine ⟨?_, ?_, htasks⟩
    · refine (handle_evolves self c w o).all (P := fun r => r.isActive = false → Bare r) ?_ ?_ h.users
      · exact fun r s hrs hr => change_bare hsub hrs hr
      · exact fun r hr _ => inserted_bare hr
    · intro r hr
      rw [wallets_of_no_subject hsub] at hr
      exact (h.wallets r hr).later hnext
  | some userId =>
    have hactive := (hperm userId hsub).later hnext
    have hothers := otherRows_handle c w (keyed_of_subject hsub)
    refine ⟨?_, ?_, htasks⟩
    · intro r hr hinactive
      by_cases hid : r.id = userId
      · rw [hactive.isActive hr hid] at hinactive
        cases hinactive
      · have hmem : r ∈ (otherRows (self.handle c w o).2.db userId).1 :=
          List.mem_filter.mpr ⟨hr, by simpa using hid⟩
        rw [hothers] at hmem
        exact h.users r (List.mem_filter.mp hmem).1 hinactive
    · intro r hr
      by_cases hid : r.userId = userId
      · rw [hid]
        exact hactive
      · have hmem : r ∈ (otherRows (self.handle c w o).2.db userId).2 :=
          List.mem_filter.mpr ⟨hr, by simpa using hid⟩
        rw [hothers] at hmem
        exact (h.wallets r (List.mem_filter.mp hmem).1).later hnext

/-- Both disciplines together keep what each of them needs. -/
theorem discipline_sound : ((AuditTrail.discipline self).both (discipline self)).Sound
    self.handle where
  refl := fun w => ⟨.refl w, .refl w⟩
  trans := fun h h' => ⟨h.1.trans h'.1, h.2.trans h'.2⟩
  rely_step := fun {c w o} _ _ _ => ⟨follows_handle c w o, follows_handle c w o⟩
  inv_step := by
    intro c w o hinv hperm _
    have hgrounded := AuditTrail.discipline_sound.inv_step (c := c) hinv.1 hperm.1 trivial
    exact ⟨hgrounded, hgrounded, clean_handle hinv.2.2 hperm.2⟩

end Steps

section Programs

variable {α : Type}

/-- Operations for one user are permitted once the account is active. -/
theorem owned_safe {userId : Uuid} (hactive : Active self w userId) {p : Program α}
    (h : Issues (fun o => ∀ u, subject o = some u → u = userId) p) :
    Safe self.handle (discipline self) (fun _ _ => True) p w := by
  induction p generalizing w with
  | ret a => trivial
  | eff o k ih =>
    intro v hv _
    refine ⟨fun u hu => h.1 u hu ▸ hactive.later hv, ?_⟩
    intro c _
    exact ih _ (hactive.later (hv.trans (follows_handle c v o))) (h.2 _)

theorem unowned_safe {p : Program α} (h : Issues (fun o => subject o = none) p) (w : self.State) :
    Safe self.handle (discipline self) (fun _ _ => True) p w := by
  refine Issues.safe ?_ h w
  intro v o ho userId hsub
  rw [ho] at hsub
  cases hsub

/-- The kinds of operations that work for a user. -/
def subjectKinds : List OpKind :=
  [.setWalletAddress, .markUserOnboarded, .spawn, .readWallets, .setPrimary, .deleteIfNotPrimary,
    .clearPrimary, .insertWallet, .markRegistered, .persistCustodialWallet]

theorem subject_of_kind {o : Op} (h : o.kind ∉ subjectKinds) : subject o = none := by
  unfold subject
  split
  · simp [subjectKinds] at h
  · simp [subjectKinds] at h
  · rename_i q
    cases q <;> simp [subjectKinds] at h
  · simp [subjectKinds] at h
  · rfl

theorem limited_safe (kinds : List OpKind) {p : Program α} (h : Limited kinds p)
    (hk : ∀ k ∈ kinds, k ∉ subjectKinds) (w : self.State) :
    Safe self.handle (discipline self) (fun _ _ => True) p w :=
  unowned_safe (Issues.mono (fun o ho => subject_of_kind (hk o.kind ho)) h) w

theorem owned_of_limited {userId : Uuid} (kinds : List OpKind) {p : Program α}
    (h : Limited kinds p) (hk : ∀ k ∈ kinds, k ∉ subjectKinds) :
    Issues (fun o => ∀ u, subject o = some u → u = userId) p := by
  refine Issues.mono ?_ h
  intro o ho u hsub
  rw [subject_of_kind (hk o.kind ho)] at hsub
  cases hsub

/-- A wallet call works for its user. -/
theorem method_owned {userId : Uuid} {call : Call} (h : WalletCall userId call) :
    Issues (fun o => ∀ u, subject o = some u → u = userId) (self.method call).run := by
  have hspawn : OpKind.spawn ∉ call.footprint := by
    cases h <;> simp
  refine Issues.mono ?_ ((method_keyed h).and (self.method_limited call))
  rintro o ⟨hkeyed, hkind⟩ u hsub
  unfold subject at hsub
  split at hsub
  · cases hsub
    exact hkeyed
  · cases hsub
    exact hkeyed
  · cases hsub
    exact hkeyed
  · exact absurd hkind hspawn
  · cases hsub

theorem registrationTask_owned (task : RegistrationTask) :
    Issues (fun o => ∀ u, subject o = some u → u = task.userId)
      (self.registrationTask task).run := by
  refine Issues.bindExcept (by simp [blockchain, subject]) ?_
  intro submitted
  cases submitted with
  | error e => trivial
  | ok signature =>
    refine Issues.bindExcept (Issues.observe
      (owned_of_limited _ (self.confirmRegistered_limited _) (by simp [subjectKinds]))) ?_
    intro confirmed
    split
    · simp [walletRepo, userRepo, subject, owner]
    · trivial

theorem ensureWallet_owned (user : User) :
    Issues (fun o => ∀ u, subject o = some u → u = user.id) (self.ensureWallet user).run := by
  refine Issues.bindExcept (by simp [walletRepo, subject, owner]) ?_
  intro hasWallet
  split
  · refine Issues.bindExcept (Issues.observe ?_) ?_
    · refine Issues.bindExcept (by simp [host, subject]) ?_
      intro keypair
      refine Issues.bindExcept (by simp [host, subject]) ?_
      intro key
      cases key with
      | error e => trivial
      | ok key =>
        refine Issues.bindExcept (by simp [walletRepo, subject, owner]) ?_
        intro wallet
        simp [host, subject]
    · intro wallet
      cases wallet <;> trivial
  · trivial

/-- A verification works for the account that it has just activated. -/
theorem verifyEmail_safe (token : String) :
    Safe self.handle (discipline self) (fun _ _ => True) (self.verifyEmail token).run w := by
  refine Safe.andThen (limited_safe _ (self.verifiedAddress_limited token)
    (by simp [subjectKinds]) w) ?_
  intro email v
  refine Safe.bindExcept ?_
  intro u _ _
  have hunowned : ∀ userId, subject (.user (.verifyEmail email)) = some userId →
      Active self u userId := by
    intro userId hsub
    cases hsub
  refine ⟨hunowned, ?_⟩
  intro c _
  rw [safe_ret]
  cases hans : (self.handle c u (.user (.verifyEmail email))).1 with
  | error e => trivial
  | ok activated =>
    cases activated with
    | none => trivial
    | some user =>
      obtain ⟨r, hr, hshows, -⟩ := verifyEmail_confirmed hans
      have hactive : Active self (self.handle c u (.user (.verifyEmail email))).2 user.id :=
        ⟨r, hr, hshows.id, hshows.isActive⟩
      refine Safe.andThen (owned_safe hactive (ensureWallet_owned user)) ?_
      intro verified x
      exact limited_safe _ (self.verifiedSession_limited verified) (by simp [subjectKinds]) x

/-- Among the calls behind public routes only a verification works for a user. -/
theorem publicCall_cases {r : Route} {call : Call} (h : r.publicCall = some call) :
    (∃ token, call = .verifyEmail token) ∨ ∀ k ∈ call.footprint, k ∉ subjectKinds := by
  cases r with
  | verify token =>
    cases h
    exact .inl ⟨token, rfl⟩
  | register username email password firstName lastName =>
    cases h
    exact .inr (by simp [subjectKinds])
  | login username password =>
    cases h
    exact .inr (by simp [subjectKinds])
  | resendVerification email =>
    cases h
    exact .inr (by simp [subjectKinds])
  | forgotPassword email =>
    cases h
    exact .inr (by simp [subjectKinds])
  | resetPassword token newPassword =>
    cases h
    exact .inr (by simp [subjectKinds])
  | _ => cases h

theorem publicCall_safe {r : Route} {call : Call} (h : r.publicCall = some call) (w : self.State) :
    Safe self.handle (discipline self) (fun _ _ => True) (self.method call).run w := by
  rcases publicCall_cases h with ⟨token, rfl⟩ | hquiet
  · exact verifyEmail_safe token
  · exact limited_safe _ (self.method_limited call) hquiet w

/-- The calls behind private routes are wallet calls of the user, or read the profile. -/
theorem privateCall_cases {r : Route} {userId : Uuid} {call : Call}
    (h : r.privateCall userId = some call) :
    WalletCall userId call ∨ call = .getUserProfile userId := by
  cases r with
  | getMe =>
    cases h
    exact .inr rfl
  | onboardUser userType latE7 longE7 h3Index shardId =>
    cases h
    exact .inl (.onboardUserOnChain userType latE7 longE7 h3Index shardId)
  | linkWallet walletAddress label isPrimary =>
    cases h
    exact .inl (.linkWallet walletAddress label isPrimary)
  | listWallets =>
    cases h
    exact .inl .listWallets
  | getWallet walletId =>
    cases h
    exact .inl (.getWallet walletId)
  | updateWallet walletId isPrimary =>
    simp only [Route.privateCall] at h
    split at h
    · cases h
      exact .inl (.setPrimaryWallet walletId)
    · cases h
  | unlinkWallet walletId =>
    cases h
    exact .inl (.unlinkWallet walletId)
  | _ => cases h

theorem privateCall_safe {r : Route} {userId : Uuid} {call : Call}
    (h : r.privateCall userId = some call) (hactive : Active self w userId) :
    Safe self.handle (discipline self) (fun _ _ => True) (self.method call).run w := by
  rcases privateCall_cases h with hwallet | rfl
  · exact owned_safe hactive (method_owned hwallet)
  · exact limited_safe _ (self.method_limited (.getUserProfile userId)) (by simp [subjectKinds]) w

variable {t : Transport}

theorem request_safe (r : HttpRequest t) (w : self.State) :
    Safe self.handle (discipline self) (fun _ _ => True) (RestApi.program self r) w := by
  refine RestApi.program_safe ?_ ?_ w
  · intro v ip path limit window
    exact limited_safe _ (AuthService.checkRateLimit_limited ip path limit window)
      (by simp [subjectKinds]) v
  · intro v
    refine handler_safe ?_ r.route (fun call h => publicCall_safe h v) ?_ ?_
    · intro u token userId hsub
      cases hsub
    · intro token c u call _ _ hinv hmem hcall
      have hactive := active_of_vouched (hinv.1.issued token hmem)
      exact privateCall_safe hcall
        (hactive.later (follows_handle c u (.host (.decodeToken token))))
    · intro token c u _ _ _
      exact limited_safe _ (AuthService.mintToken_limited _ _ _) (by simp [subjectKinds]) _

/-- The surface publishes what the state shows, as the methods behind it do. -/
theorem request_attested (r : HttpRequest t) (w : self.State) :
    Safe self.handle (AuditTrail.discipline self) (fun _ _ => True) (RestApi.program self r) w := by
  refine RestApi.program_safe ?_ ?_ w
  · intro v ip path limit window
    exact AuditTrail.method_safe (.checkRateLimit ip path limit window) v
  · intro v
    refine handler_safe ?_ r.route (fun call _ => AuditTrail.method_safe call v) ?_ ?_
    · intro u token
      exact permitted_of_kind (by simp) u
    · intro token c u call _ _ _ _ _
      exact AuditTrail.method_safe call _
    · intro token c u _ hinv hmem
      have hvouched := (hinv.issued token hmem).later
        (follows_handle c u (.host (.decodeToken token)))
      exact (mintToken_safe hvouched).mono (fun _ _ _ => trivial)

end Programs

section Runs

variable {t : Transport}

/-- A request arrives, or a task that was spawned starts. -/
def Launched (self : AuthService) (t : Transport) (w : self.State) (p : Program Outcome) : Prop :=
  (∃ r : HttpRequest t, p = RestApi.program self r) ∨ ∃ task ∈ w.tasks, p = taskProgram self task

theorem launched_safe {p : Program Outcome} (hclean : Clean self w) (h : Launched self t w p) :
    Safe self.handle ((AuditTrail.discipline self).both (discipline self)) (fun _ _ => True) p w := by
  rcases h with ⟨r, rfl⟩ | ⟨task, htask, rfl⟩
  · exact (Safe.both (request_attested r w) (request_safe r w)).mono (fun _ _ _ => trivial)
  · have hattested := AuditTrail.method_safe (.registrationTask task) w
    have howned := owned_safe (hclean.tasks task htask) (@registrationTask_owned self task)
    exact Safe.bind ((Safe.both hattested howned).mono (fun _ _ _ => trivial))

/-- In every interleaving of requests over the REST surface and of the tasks they spawn, whatever
fails, an account that is not active has no session, no wallet, no address, no key and no
registration on chain. -/
theorem unverified_hold_nothing {w : self.State} {ps : List (Program Outcome)}
    (h : Reach self.handle (Launched self t) (fun _ _ _ => True)
      (fun v => Blank self v ∧ Clean self v) w ps) {r : UserRow} (hr : r ∈ w.db.users)
    (hinactive : r.isActive = false) :
    Bare r ∧ (∀ x ∈ w.db.wallets, x.userId ≠ r.id) ∧ (∀ token ∈ w.issued, token.claims.sub ≠ r.id) ∧
      ∀ task ∈ w.tasks, task.userId ≠ r.id := by
  have hreach : Reach self.handle (Launched self t)
      ((AuditTrail.discipline self).both (discipline self)).admits
      (fun v => Blank self v ∧ Clean self v) w ps :=
    h.mono (fun _ _ hp => hp) (fun _ _ _ _ => ⟨trivial, trivial⟩)
  obtain ⟨hgrounded, -, hclean⟩ := Reach.inv discipline_sound
    (fun v hv => ⟨hv.1.grounded, hv.1.grounded, hv.2⟩)
    (fun v p hinv hp => launched_safe hinv.2.2 hp) hreach
  have hnot : ∀ userId, Active self w userId → userId ≠ r.id := by
    intro userId hactive hid
    rw [hactive.isActive hr hid.symm] at hinactive
    cases hinactive
  exact ⟨hclean.users r hr hinactive, fun x hx => hnot _ (hclean.wallets x hx),
    fun token htoken => hnot _ (active_of_vouched (hgrounded.issued token htoken)),
    fun task htask => hnot _ (hclean.tasks task htask)⟩

end Runs

section Alice

/-- Bob has registered as Alice has, and nobody has verified an email. -/
def bobRow : UserRow :=
  { registeredRow with
    id := ⟨11⟩
    username := "bob"
    email := "bob@example.com"
    emailVerificationToken := none }

def pending : service.State :=
  { registeredState with
    db := ⟨[registeredRow, bobRow], [], by decide +kernel, by decide +kernel⟩
    events := [] }

/-- Alice verifies her email, and somebody without a token asks for a wallet. -/
def visitors : List (Program Outcome) :=
  [RestApi.program service (viaGateway none (.verify aliceToken)),
    RestApi.program service (viaGateway none
      (.linkWallet "11111111111111111111111111111119" none true))]

/-- The verification, until Alice has her session. -/
def visits : List (ℕ × Choice) :=
  [(0, {}), (0, {}), (0, {}), (0, {}), (0, {}), (0, { keypair := ⟨5⟩ }), (0, {}),
    (0, { uuid := ⟨4⟩ }), (0, {}), (0, {}), (0, {})]

def visited : service.State × List (Program Outcome) :=
  schedule service.handle (pending, visitors) visits

theorem pending_blank : Blank service pending := by
  refine ⟨?_, rfl, rfl⟩
  intro key p t h
  cases h

theorem pending_clean : Clean service pending where
  users := by
    intro r hr _
    simp only [pending, List.mem_cons, List.not_mem_nil, or_false] at hr
    rcases hr with rfl | rfl
    · exact ⟨rfl, rfl, rfl⟩
    · exact ⟨rfl, rfl, rfl⟩
  wallets := fun _ hr => absurd hr List.not_mem_nil
  tasks := fun _ htask => absurd htask List.not_mem_nil

theorem reach_visited : Reach service.handle (Launched service transport) (fun _ _ _ => True)
    (fun v => Blank service v ∧ Clean service v) visited.1 visited.2 := by
  refine Reach.schedule (Reach.pool ⟨pending_blank, pending_clean⟩ visitors ?_) visits
    (Admitted.of_forall (fun _ _ _ => trivial) _ _)
  intro p hp
  simp only [visitors, List.mem_cons, List.not_mem_nil, or_false] at hp
  rcases hp with rfl | rfl
  · exact .inl ⟨_, rfl⟩
  · exact .inl ⟨_, rfl⟩

/-- Bob holds nothing while Alice has a wallet, a session and a task. -/
theorem unverified_hold_nothing_visited :
    (visited.1.db.wallets.length = 1 ∧ visited.1.issued.length = 1 ∧ visited.1.tasks.length = 1) ∧
      ∃ r ∈ visited.1.db.users, r.username = "bob" ∧ Bare r ∧
        (∀ x ∈ visited.1.db.wallets, x.userId ≠ r.id) ∧
        (∀ token ∈ visited.1.issued, token.claims.sub ≠ r.id) ∧
        ∀ task ∈ visited.1.tasks, task.userId ≠ r.id := by
  have hstate : (visited.1.db.wallets.length = 1 ∧ visited.1.issued.length = 1 ∧
      visited.1.tasks.length = 1) ∧
      ∃ r ∈ visited.1.db.users, r.username = "bob" ∧ r.isActive = false := by decide +kernel
  obtain ⟨hheld, r, hr, hname, hinactive⟩ := hstate
  exact ⟨hheld, r, hr, hname, unverified_hold_nothing reach_visited hr hinactive⟩

end Alice

end IamService.UnverifiedAccounts
