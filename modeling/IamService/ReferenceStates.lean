import IamService.ReferenceLibraries

/-!
# The states of the running example

The states that the requests of Alice lead to, written out. An evaluation that starts in one
of them does not repeat the requests before it.
-/

namespace IamService.ReferenceLibraries
open EffectPrograms ExpiringStore

/-- Worlds are equal when their columns are. -/
theorem world_ext {lower : String → String} {w v : World lower} (hcache : w.cache = v.cache)
    (h : w.now = v.now ∧ w.db.users = v.db.users ∧ w.db.wallets = v.db.wallets ∧
      w.chain.accounts = v.chain.accounts ∧ w.chain.submitted = v.chain.submitted ∧
      w.events = v.events ∧ w.issued = v.issued ∧ w.tasks = v.tasks) : w = v := by
  obtain ⟨now, ⟨users, wallets, _, _⟩, cache, ⟨accounts, submitted⟩, events, issued, tasks⟩ := w
  obtain ⟨now', ⟨users', wallets', _, _⟩, cache', ⟨accounts', submitted'⟩, events', issued',
    tasks'⟩ := v
  dsimp only at hcache h
  obtain ⟨rfl, rfl, rfl, rfl, rfl, rfl, rfl, rfl⟩ := h
  subst hcache
  rfl

/-- The kinds of operations that put an entry into the cache. -/
def cacheStores : List OpKind := [.storeProfile, .storeOther, .countKey]

/-- Without such an operation an empty cache stays empty. -/
theorem cache_empty {self : AuthService} {c : Choice} {w : self.State} {o : Op}
    (h : o.kind ∉ cacheStores) (hw : w.cache = Store.empty) :
    (self.handle c w o).2.cache = Store.empty := by
  cases o with
  | cache q =>
    rw [AuthService.handle_cache]
    cases q with
    | delete key =>
      have herased : w.cache.erase key = Store.empty := by
        funext k
        by_cases hk : k = key
        · rw [hk, Store.erase_same]
          rfl
        · rw [Store.erase_ne _ hk, hw]
      simp only [CacheService.handle]
      split
      · exact hw
      · exact herased
    | setValue key value ttl => cases value <;> simp [cacheStores] at h
    | increment key => simp [cacheStores] at h
    | incrementWithTtl key ttl => simp [cacheStores] at h
    | getValue key => exact hw
    | «exists» key => exact hw
  | user q => exact hw
  | wallet q => exact hw
  | bus q => exact hw
  | chain q => exact hw
  | host q => rw [AuthService.handle_host_cache, hw]

theorem cache_empty_after {w : service.State} (r : Request)
    (h : ∀ k ∈ r.call.footprint, k ∉ cacheStores) (hw : w.cache = Store.empty) :
    (service.after w r).cache = Store.empty :=
  service.after_preserves (fun w v => w.cache = Store.empty → v.cache = Store.empty)
    (fun _ h => h) (fun h h' hw => h' (h hw)) r (fun _ _ o ho => cache_empty (h o.kind ho)) w hw

/-- The row of Alice after her registration. -/
def registeredRow : UserRow where
  id := ⟨1⟩
  username := "alice"
  email := "alice@example.com"
  passwordHash := "$argon2id$00000000$Str0ng!Pass"
  role := "user"
  firstName := none
  lastName := none
  walletAddress := none
  isActive := false
  blockchainRegistered := false
  userType := none
  latitude := none
  longitude := none
  kdfVersion := 1
  emailVerified := false
  emailVerificationToken := some "00000000-0000-0000-0000-000000000002"
  emailVerificationExpiresAt := some 86400000
  keyMaterial := none
  userAccountPda := none
  blockchainTxSignature := none
  blockchainStatus := "pending"

def registeredState : service.State where
  now := 0
  db := ⟨[registeredRow], [], by decide +kernel, by decide +kernel⟩
  cache := Store.empty
  chain := ⟨[], []⟩
  events := [.userRegistered ⟨1⟩ "alice" "alice@example.com",
    .verificationEmailRequested ⟨1⟩ "alice" "alice@example.com"
      "00000000-0000-0000-0000-000000000002"]
  issued := []
  tasks := []

theorem after_registerAlice : service.after (World.empty _) registerAlice = registeredState := by
  refine world_ext (cache_empty_after registerAlice (by decide) rfl) ?_
  decide +kernel

theorem registered_eq : registered = registeredState :=
  (service.serveAll_concat (World.empty _) [] registerAlice).trans after_registerAlice

/-- A run that begins with the registration goes on from the registered state. -/
theorem serveAll_registered (rs : List Request) :
    service.serveAll (World.empty _) (registerAlice :: rs) = service.serveAll registeredState rs := by
  rw [← after_registerAlice]
  exact List.foldl_cons

/-- The session that Alice opens when she verifies her email. -/
def aliceSession : Jwt where
  claims :=
    { sub := ⟨1⟩
      username := "alice"
      role := "user"
      exp := 86400
      iat := 0
      iss := "gridtokenx-iam-service" }

def activatedState : service.State where
  now := 0
  db := ⟨[{ registeredRow with isActive := true, emailVerified := true }], [], by decide +kernel,
    by decide +kernel⟩
  cache := Store.empty
  chain := ⟨[], []⟩
  events := registeredState.events ++ [.emailVerified ⟨1⟩ "alice" "alice@example.com" ""]
  issued := [aliceSession]
  tasks := []

theorem activated_eq : activated = activatedState := by
  have hafter : activated = service.after registered activateAlice :=
    service.serveAll_concat (World.empty _) [registerAlice] activateAlice
  rw [hafter, registered_eq]
  refine world_ext (cache_empty_after activateAlice (by decide) rfl) ?_
  decide +kernel

theorem serveAll_activated (rs : List Request) :
    service.serveAll (World.empty _) (registerAlice :: activateAlice :: rs) =
      service.serveAll activatedState rs := by
  rw [← activated_eq]
  exact List.foldl_append (l := [registerAlice, activateAlice])

/-- The row of Alice with her custodial wallet. -/
def verifiedRow : UserRow :=
  { registeredRow with
    isActive := true
    emailVerified := true
    walletAddress := some "11111111111111111111111111111116"
    kdfVersion := 2
    keyMaterial := some ⟨[0, 0, 0, 0, 0], [], []⟩ }

def custodialRow : WalletRow where
  id := ⟨4⟩
  userId := ⟨1⟩
  walletAddress := "11111111111111111111111111111116"
  label := some "Custodial"
  isPrimary := true
  verified := false
  blockchainRegistered := false
  userAccountPda := none
  shardId := none
  blockchainTxSignature := none
  createdAt := 0

def verifiedState : service.State where
  now := 0
  db := ⟨[verifiedRow], [custodialRow], by decide +kernel, by decide +kernel⟩
  cache := Store.empty
  chain := ⟨[], []⟩
  events := registeredState.events ++
    [.emailVerified ⟨1⟩ "alice" "alice@example.com" "11111111111111111111111111111116"]
  issued := [aliceSession]
  tasks := [⟨⟨1⟩, ⟨5, by decide⟩, "11111111111111111111111111111116", .consumer, 0, 0⟩]

theorem verified_eq : verified = verifiedState := by
  have hafter : verified = service.after registered verifyAlice :=
    service.serveAll_concat (World.empty _) [registerAlice] verifyAlice
  rw [hafter, registered_eq]
  refine world_ext (cache_empty_after verifyAlice (by decide) rfl) ?_
  decide +kernel

theorem serveAll_verified (rs : List Request) :
    service.serveAll (World.empty _) (registerAlice :: verifyAlice :: rs) =
      service.serveAll verifiedState rs := by
  rw [← verified_eq]
  exact List.foldl_append (l := [registerAlice, verifyAlice])

/-- The Registry account of Alice's custodial wallet, with its registration. -/
def aliceAccountOnChain : Pubkey × Registration := (⟨34, by decide⟩, ⟨.consumer, 0, 0, 0, 0⟩)

def driftedState : service.State :=
  { verifiedState with chain := ⟨[aliceAccountOnChain], [aliceAccountOnChain]⟩ }

theorem drifted_eq : drifted = driftedState := by
  have hafter : drifted = service.after (service.after verified lostAnswer) listAlice := by
    refine (service.serveAll_concat (World.empty _) [registerAlice, verifyAlice, lostAnswer]
      listAlice).trans (congrArg (service.after · listAlice) ?_)
    exact service.serveAll_concat (World.empty _) [registerAlice, verifyAlice] lostAnswer
  rw [hafter, verified_eq]
  refine world_ext (cache_empty_after listAlice (by decide)
    (cache_empty_after lostAnswer (by decide) rfl)) ?_
  decide +kernel

end IamService.ReferenceLibraries
