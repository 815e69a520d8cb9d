import IamService.PasswordService
import IamService.WalletRepository

/-!
# The handler of the service's operations

Before an operation takes effect the environment has its turn: time passes and
transactions land. The operation then acts on its own part of the world only, so that
what it leaves alone can be read off its group. A cache command or a publication that is
answered with an error has had no effect, apart from the expiry that `INCR` and `EXPIRE` leave
on a key that holds no number.
-/

namespace IamService
open EffectPrograms ExpiringStore

namespace CacheService

/-- The default time to live of `set_value`. -/
def defaultTtlSecs : ℕ := 300

/-- `INCR`, and the expiry that the counter has afterwards. -/
def incr (now : ℕ) (s : Store String CacheValue) (key errorText : String)
    (expiry : Option ℕ → Option ℕ) : Result ℕ × Store String CacheValue :=
  match s.entry now key with
  | none => (.ok 1, s.put key (.number 1) (expiry none))
  | some ⟨.number n, t⟩ => (.ok (n + 1), s.put key (.number (n + 1)) (expiry t))
  | some ⟨v, t⟩ => (.error (.internal errorText), s.put key v (expiry t))

/-- The cache commands; each failure is reported as an internal error. -/
def handle (c : Choice) (now : ℕ) (s : Store String CacheValue) :
    (q : CacheOp) → q.Ans × Store String CacheValue
  | .getValue key => (if c.fails then .error (.internal c.errorText) else .ok (s.get now key), s)
  | .setValue key value ttlSecs =>
    let ttl := ttlSecs.getD defaultTtlSecs
    -- `SETEX` refuses a time to live of zero
    if c.fails ∨ ttl = 0 then (.error (.internal c.errorText), s)
    else (.ok (), s.put key value (some (now + secs ttl)))
  | .delete key =>
    if c.fails then (.error (.internal c.errorText), s) else (.ok (), s.erase key)
  | .increment key =>
    if c.fails then (.error (.internal c.errorText), s) else incr now s key c.errorText id
  | .incrementWithTtl key ttlSecs =>
    if c.fails then (.error (.internal c.errorText), s)
    else incr now s key c.errorText (fun _ => some (now + secs ttlSecs))
  | .exists key =>
    (if c.fails then .error (.internal c.errorText) else .ok (s.entry now key).isSome, s)

end CacheService

/-- The account that the Registry program derives for an authority. -/
def AuthService.registryPda (self : AuthService) (authority : Pubkey) : Option Pubkey :=
  match self.lib.pubkeyFromStr self.config.registryProgramId with
  | .ok programId => some (self.lib.findProgramAddress authority programId)
  | .error _ => none

namespace Chain

/-- The account has been created. -/
def Exists (ch : Chain) (pda : Pubkey) : Prop := (ch.registration pda).isSome = true

/-- A registration is never changed by a later one. -/
theorem registration_create {ch : Chain} {pda : Pubkey} {r : Registration}
    (h : ch.registration pda = some r) (a : Pubkey × Registration) :
    (ch.create a).registration pda = some r := by
  unfold create
  split
  · exact h
  · unfold registration at h ⊢
    obtain ⟨b, hb, rfl⟩ := Option.map_eq_some_iff.mp h
    simp [List.find?_append, hb]

theorem registration_foldl {ch : Chain} {pda : Pubkey} {r : Registration}
    (h : ch.registration pda = some r) (as : List (Pubkey × Registration)) :
    (as.foldl create ch).registration pda = some r := by
  induction as generalizing ch with
  | nil => exact h
  | cons a as ih => exact ih (registration_create h a)

/-- Landing submits nothing. -/
theorem submitted_advance (ch : Chain) (lands : List ℕ) (foreign : List (Pubkey × Registration)) :
    (ch.advance lands foreign).submitted = ch.submitted := by
  have hfold : ∀ (as : List (Pubkey × Registration)) (x : Chain),
      (as.foldl create x).submitted = x.submitted := by
    intro as
    induction as with
    | nil => exact fun _ => rfl
    | cons a as ih =>
      intro x
      refine (ih (x.create a)).trans ?_
      unfold create
      split <;> rfl
  exact hfold _ ch

/-- Every account was there before, was submitted or is foreign. -/
theorem mem_accounts_advance {ch : Chain} {lands : List ℕ} {foreign : List (Pubkey × Registration)}
    {b : Pubkey × Registration} (h : b ∈ (ch.advance lands foreign).accounts) :
    b ∈ ch.accounts ∨ b ∈ ch.submitted ∨ b ∈ foreign := by
  have hfold : ∀ (as : List (Pubkey × Registration)) (x : Chain),
      b ∈ (as.foldl create x).accounts → b ∈ x.accounts ∨ b ∈ as := by
    intro as
    induction as with
    | nil => exact fun _ hb => .inl hb
    | cons a as ih =>
      intro x hb
      rcases ih _ hb with hb | hb
      · unfold create at hb
        split at hb
        · exact .inl hb
        · simp only [List.mem_append, List.mem_singleton] at hb
          rcases hb with hb | rfl
          · exact .inl hb
          · exact .inr (.head _)
      · exact .inr (.tail _ hb)
  rcases hfold _ ch h with hb | hb
  · exact .inl hb
  · rcases List.mem_append.mp hb with hb | hb
    · obtain ⟨i, -, hi⟩ := List.mem_filterMap.mp hb
      exact .inr (.inl (List.mem_of_getElem? hi))
    · exact .inr (.inr hb)

end Chain

namespace BlockchainProvider

/-- Submitting answers a signature or an error, whether or not the transaction reaches
the network; a lookup never reports an account that does not exist. -/
def handle (self : AuthService) (c : Choice) (ch : Chain) : (q : ChainOp) → q.Ans × Chain
  | .registerUserOnChain authority userType latE7 longE7 h3Index shardId =>
    (if c.fails then .error (.internal c.errorText) else .ok c.signature,
      match c.submits, self.registryPda authority with
      | true, some pda =>
        { ch with submitted := ch.submitted ++ [(pda, ⟨userType, latE7, longE7, h3Index, shardId⟩)] }
      | _, _ => ch)
  | .accountExists pda =>
    (if c.fails then .error (.internal c.errorText)
      else .ok (c.sees && (ch.registration pda).isSome), ch)

end BlockchainProvider

namespace JwtService

/-- Seconds of clock skew that token validation tolerates. -/
def leewaySecs : ℕ := 60

/-- Only tokens this service has signed carry a valid signature. -/
def decodeToken (now : ℕ) (issued : List Jwt) (token : Jwt) : Result Claims :=
  if token ∉ issued then .error (.withCode .tokenInvalid "Invalid token signature")
  else if token.claims.exp + leewaySecs < now / 1000 then
    .error (.withCode .tokenExpired "Token has expired")
  else .ok token.claims

end JwtService

namespace World

variable {lower : String → String}

/-- The environment's turn before an operation. -/
def evolve (w : World lower) (c : Choice) : World lower :=
  { w with
    now := w.now + c.elapsed
    chain := w.chain.advance c.lands c.foreign }

@[simp] theorem evolve_db (w : World lower) (c : Choice) : (w.evolve c).db = w.db := rfl

@[simp] theorem evolve_cache (w : World lower) (c : Choice) : (w.evolve c).cache = w.cache := rfl

@[simp] theorem evolve_now (w : World lower) (c : Choice) :
    (w.evolve c).now = w.now + c.elapsed := rfl

@[simp] theorem evolve_issued (w : World lower) (c : Choice) : (w.evolve c).issued = w.issued := rfl

/-- The service before its first request. -/
def empty (lower : String → String) : World lower :=
  ⟨0, Database.empty lower, Store.empty, ⟨[], []⟩, [], [], []⟩

end World

namespace AuthService

variable (self : AuthService)

abbrev State := World self.lib.pgLower

/-- The process's own operations. -/
def hostHandle (c : Choice) (w : self.State) : (q : HostOp) → q.Ans × self.State
  | .newUuid => (c.uuid, w)
  | .clock => (w.now, w)
  | .createKeypair => (c.keypair, w)
  | .encryptPrivateKey keypair =>
    (self.lib.encryptPrivateKey self.config.encryptionSecret self.config.masterSecret keypair
      c.random, w)
  | .hashPassword password =>
    (if c.fails then .error (.internal ("Thread panic during password hashing: " ++ c.errorText))
      else PasswordService.hashPassword self.lib password c.random, w)
  | .verifyPassword password hash =>
    (if c.fails then
        .error (.internal ("Thread panic during password verification: " ++ c.errorText))
      else PasswordService.verifyPassword self.lib password hash, w)
  | .encodeToken claims =>
    if c.fails then (.error (.internal c.errorText), w)
    else (.ok ⟨claims⟩, { w with issued := w.issued ++ [⟨claims⟩] })
  | .decodeToken token => (JwtService.decodeToken w.now w.issued token, w)
  | .sleep ms => ((), { w with now := w.now + ms })
  | .spawn task => ((), { w with tasks := w.tasks ++ [task] })

def busHandle (c : Choice) (events : List Event) (q : BusOp) : Result Unit × List Event :=
  if c.fails then (.error (.internal c.errorText), events)
  else match q with
    | .publish event => (.ok (), events ++ [event])
    | .publishBatch batch => (.ok (), events ++ batch)

/-- One operation on the world. -/
def handle : Handler Op.Ans Choice self.State := fun c w₀ o =>
  let w := w₀.evolve c
  match o with
  | .user q => let r := UserRepository.handle c w.now w.db q; (r.1, { w with db := r.2 })
  | .wallet q => let r := WalletRepository.handle c w.now w.db q; (r.1, { w with db := r.2 })
  | .cache q => let r := CacheService.handle c w.now w.cache q; (r.1, { w with cache := r.2 })
  | .bus q => let r := busHandle c w.events q; (r.1, { w with events := r.2 })
  | .chain q => let r := BlockchainProvider.handle self c w.chain q; (r.1, { w with chain := r.2 })
  | .host q => self.hostHandle c w q

section Groups

variable (c : Choice) (w : self.State)

theorem handle_user (q : UserOp) : self.handle c w (.user q) =
    ((UserRepository.handle c (w.evolve c).now w.db q).1,
      { w.evolve c with db := (UserRepository.handle c (w.evolve c).now w.db q).2 }) := rfl

theorem handle_wallet (q : WalletOp) : self.handle c w (.wallet q) =
    ((WalletRepository.handle c (w.evolve c).now w.db q).1,
      { w.evolve c with db := (WalletRepository.handle c (w.evolve c).now w.db q).2 }) := rfl

theorem handle_cache (q : CacheOp) : self.handle c w (.cache q) =
    ((CacheService.handle c (w.evolve c).now w.cache q).1,
      { w.evolve c with cache := (CacheService.handle c (w.evolve c).now w.cache q).2 }) := rfl

theorem handle_bus (q : BusOp) : self.handle c w (.bus q) =
    ((busHandle c w.events q).1, { w.evolve c with events := (busHandle c w.events q).2 }) := rfl

theorem handle_chain (q : ChainOp) : self.handle c w (.chain q) =
    ((BlockchainProvider.handle self c (w.evolve c).chain q).1,
      { w.evolve c with
        chain := (BlockchainProvider.handle self c (w.evolve c).chain q).2 }) := rfl

theorem handle_host (q : HostOp) :
    self.handle c w (.host q) = self.hostHandle c (w.evolve c) q := rfl

@[simp] theorem handle_user_cache (q : UserOp) :
    (self.handle c w (.user q)).2.cache = w.cache := rfl

@[simp] theorem handle_wallet_cache (q : WalletOp) :
    (self.handle c w (.wallet q)).2.cache = w.cache := rfl

@[simp] theorem handle_cache_db (q : CacheOp) : (self.handle c w (.cache q)).2.db = w.db := rfl

@[simp] theorem handle_bus_db (q : BusOp) : (self.handle c w (.bus q)).2.db = w.db := rfl

@[simp] theorem handle_bus_cache (q : BusOp) : (self.handle c w (.bus q)).2.cache = w.cache := rfl

@[simp] theorem handle_chain_db (q : ChainOp) : (self.handle c w (.chain q)).2.db = w.db := rfl

@[simp] theorem handle_chain_cache (q : ChainOp) :
    (self.handle c w (.chain q)).2.cache = w.cache := rfl

@[simp] theorem handle_host_db (q : HostOp) : (self.handle c w (.host q)).2.db = w.db := by
  cases q with
  | encodeToken claims => cases hf : c.fails <;> simp [handle_host, hostHandle, hf]
  | _ => rfl

@[simp] theorem handle_host_cache (q : HostOp) :
    (self.handle c w (.host q)).2.cache = w.cache := by
  cases q with
  | encodeToken claims => cases hf : c.fails <;> simp [handle_host, hostHandle, hf]
  | _ => rfl

/-- Time never goes back. -/
theorem now_handle (o : Op) : w.now ≤ (self.handle c w o).2.now := by
  have hev : w.now ≤ (w.evolve c).now := Nat.le_add_right _ _
  cases o with
  | host q =>
    cases q with
    | encodeToken claims => cases hf : c.fails <;> simp [handle_host, hostHandle, hf]
    | sleep ms => exact hev.trans (Nat.le_add_right _ _)
    | _ => exact hev
  | _ => exact hev

theorem now_run {α : Type} (p : Program α) (f : ℕ → Choice) :
    w.now ≤ (run self.handle p f w).2.now := by
  induction p generalizing f w with
  | ret a => exact Nat.le_refl _
  | eff o k ih => exact (self.now_handle (f 0) w o).trans (ih _ _ _)

/-- Whatever an operation does, registrations on chain stay as they are. -/
theorem registration_handle {pda : Pubkey} {r : Registration}
    (h : w.chain.registration pda = some r) (o : Op) :
    (self.handle c w o).2.chain.registration pda = some r := by
  have hev : (w.evolve c).chain.registration pda = some r := Chain.registration_foldl h _
  cases o with
  | user q => exact hev
  | wallet q => exact hev
  | cache q => exact hev
  | bus q => exact hev
  | chain q =>
    cases q with
    | accountExists pda => exact hev
    | registerUserOnChain authority userType latE7 longE7 h3Index shardId =>
      rw [handle_chain]
      simp only [BlockchainProvider.handle]
      split <;> exact hev
  | host q =>
    cases q with
    | encodeToken claims => cases hf : c.fails <;> simpa [handle_host, hostHandle, hf] using hev
    | _ => exact hev

theorem exists_handle {pda : Pubkey} (h : w.chain.Exists pda) (o : Op) :
    (self.handle c w o).2.chain.Exists pda := by
  obtain ⟨r, hr⟩ := Option.isSome_iff_exists.mp h
  rw [Chain.Exists, self.registration_handle c w hr o]
  rfl

/-- Only signing adds an access token. -/
theorem issued_handle (o : Op) : (self.handle c w o).2.issued = w.issued ∨
    ∃ claims, o = .host (.encodeToken claims) ∧
      (self.handle c w o).2.issued = w.issued ++ [⟨claims⟩] := by
  cases o with
  | host q =>
    cases q with
    | encodeToken claims =>
      cases hf : c.fails with
      | true => exact .inl (by simp [handle_host, hostHandle, hf])
      | false => exact .inr ⟨claims, rfl, by simp [handle_host, hostHandle, hf]⟩
    | _ => exact .inl rfl
  | _ => exact .inl rfl

/-- Only `spawn` adds a task. -/
theorem tasks_handle (o : Op) : (self.handle c w o).2.tasks = w.tasks ∨
    ∃ task, o = .host (.spawn task) ∧ (self.handle c w o).2.tasks = w.tasks ++ [task] := by
  cases o with
  | host q =>
    cases q with
    | encodeToken claims => cases hf : c.fails <;> simp [handle_host, hostHandle, hf, World.evolve]
    | spawn task => exact .inr ⟨task, rfl, rfl⟩
    | _ => exact .inl rfl
  | _ => exact .inl rfl

end Groups

end AuthService

end IamService
