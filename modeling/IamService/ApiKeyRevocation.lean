import IamService.ApiKeyVerification
import IamService.TimedCaches

/-!
# How long a revoked API key is still accepted

A timed run verifies keys while time passes and somebody else edits the table. The table is
looked at only when the cache yields nothing, and a hit does not renew an entry, so what the
cache yields was in the table at most the lifetime of an entry ago.
-/

namespace IamService.ApiKeyRevocation
open EffectPrograms ExpiringStore TimedCaches ApiKeyService

/-- One step of a timed run. -/
inductive Step where
  | wait (ms : ℕ)
  | edit (table : ApiKeyTable)
  | call (key : String) (oracle : ℕ → Choice)

/-- No time passes during a call. -/
def Step.Atomic : Step → Prop
  | .call _ f => ∀ n, (f n).elapsed = 0
  | _ => True

variable (self : ApiKeyService)

def advance (w : ApiKeyWorld) : Step → ApiKeyWorld
  | .wait ms => w.wait ms
  | .edit table => { w with table := table }
  | .call key f => (run ApiKeyWorld.handle (self.verifyApiKey key).run f w).2

/-- Timed runs of verifications. -/
def timeline : Timeline ApiKeyWorld Step String CachedText where
  advance := advance self
  clock := ApiKeyWorld.now
  cache := ApiKeyWorld.cache

/-- The key that a cached text is decoded as. -/
def decoded (text : CachedText) : Option ApiKey :=
  text.value.bind fun v => (ApiKey.fromValue self.lib v).toOption

/-- No entry of a key can be decoded yet. -/
def Unread (w : ApiKeyWorld) : Prop :=
  ∀ hash e, w.cache (CacheKeys.apiKey hash) = some e → decoded self e.value = none

/-- The table has a usable row of a hash with a role. -/
def Grants (table : ApiKeyTable) (hash role : String) : Prop :=
  ∃ row ∈ table.rows, row.keyHash = hash ∧ row.isActive ≠ some false ∧ row.role = role

theorem usable_iff {hash : String} {row : ApiKeyRow} :
    ApiKeyTable.usable hash row = true ↔ row.keyHash = hash ∧ row.isActive ≠ some false := by
  simp [ApiKeyTable.usable]

theorem grants_of_find {table : ApiKeyTable} {hash : String} {row : ApiKeyRow}
    (h : table.rows.find? (ApiKeyTable.usable hash) = some row) : Grants table hash row.role := by
  have husable := usable_iff.mp (List.find?_some h)
  exact ⟨row, List.mem_of_find?_eq_some h, husable.1, husable.2, rfl⟩

section Operations

variable (c : Choice) (w : ApiKeyWorld)

theorem handle_now (o : ApiKeyOp) : (ApiKeyWorld.handle c w o).2.now = w.now + c.elapsed := by
  cases o with
  | setValue key value ttlSecs =>
    dsimp only [ApiKeyWorld.handle]
    split <;> rfl
  | updateLastUsed id => cases hf : c.fails <;> simp [ApiKeyWorld.handle, ApiKeyWorld.wait, hf]
  | publish event => cases hf : c.fails <;> simp [ApiKeyWorld.handle, ApiKeyWorld.wait, hf]
  | _ => rfl

/-- Only storing a value changes the cache. -/
theorem handle_cache_cases (o : ApiKeyOp) : (ApiKeyWorld.handle c w o).2.cache = w.cache ∨
    ∃ key value ttlSecs, o = .setValue key value ttlSecs ∧
      (ApiKeyWorld.handle c w o).2.cache = w.cache.put key (.json value)
        (some (w.now + c.elapsed + secs (ttlSecs.getD CacheService.defaultTtlSecs))) := by
  cases o with
  | setValue key value ttlSecs =>
    by_cases hf : c.fails = true ∨ ttlSecs.getD CacheService.defaultTtlSecs = 0
    · exact .inl (by simp [ApiKeyWorld.handle, hf, ApiKeyWorld.wait])
    · exact .inr ⟨key, value, ttlSecs, rfl, by simp [ApiKeyWorld.handle, hf, ApiKeyWorld.wait]⟩
  | updateLastUsed id => exact .inl (by cases hf : c.fails <;> simp [ApiKeyWorld.handle, ApiKeyWorld.wait, hf])
  | publish event => exact .inl (by cases hf : c.fails <;> simp [ApiKeyWorld.handle, ApiKeyWorld.wait, hf])
  | _ => exact .inl rfl

end Operations

section OneCall

variable {self} {key hash : String} {f : ℕ → Choice} (w : ApiKeyWorld)

/-- The calls during which no time passes. -/
abbrev instant : Discipline ApiKeyOp Choice ApiKeyWorld := .solo fun c _ _ => c.elapsed = 0

/-- A cache with the entry of a row that was just found. -/
def stored (self : ApiKeyService) (w : ApiKeyWorld) (hash : String) (row : ApiKeyRow) :
    Store String CachedText :=
  w.cache.put (CacheKeys.apiKey hash) (.json (row.intoDomain.toValue self.lib))
    (some (w.now + secs apiKeyCacheTtlSecs))

/-- Admitting a key stores it for the lifetime of an entry, unless the cache fails. -/
theorem admitKey_effect (row : ApiKeyRow) :
    Safe ApiKeyWorld.handle instant (fun _ v => v.now = w.now ∧
      (v.cache = w.cache ∨ v.cache = stored self w hash row))
      (self.admitKey (CacheKeys.apiKey hash) row.intoDomain).run w := by
  unfold admitKey issue
  simp only [run_bind', run_observe, Prog.eff_bind, Prog.ret_bind, proceed_ok, run_pure']
  rw [safe_solo_eff]
  intro c hc
  rw [safe_solo_eff]
  intro d hd
  rw [safe_solo_eff]
  intro e he
  rw [safe_ret]
  set w₁ := (ApiKeyWorld.handle c w (.updateLastUsed row.intoDomain.id)).2 with hw₁
  set w₂ := (ApiKeyWorld.handle d w₁ (.setValue (CacheKeys.apiKey hash)
    (row.intoDomain.toValue self.lib) (some apiKeyCacheTtlSecs))).2 with hw₂
  have hnow : w₁.now = w.now := by rw [hw₁, handle_now, hc, Nat.add_zero]
  have hcache : w₁.cache = w.cache := by
    rcases handle_cache_cases c w (.updateLastUsed row.intoDomain.id) with h | ⟨_, _, _, h, -⟩
    · exact h
    · cases h
  have hlast : (ApiKeyWorld.handle e w₂ (.publish (.apiKeyVerified row.intoDomain.name
      row.intoDomain.role))).2.cache = w₂.cache := by
    rcases handle_cache_cases e w₂ (.publish (.apiKeyVerified row.intoDomain.name
      row.intoDomain.role)) with h | ⟨_, _, _, h, -⟩
    · exact h
    · cases h
  constructor
  · rw [handle_now, hw₂, handle_now, hnow, hd, he, Nat.add_zero]
  · rw [hlast]
    rcases handle_cache_cases d w₁ (.setValue (CacheKeys.apiKey hash)
      (row.intoDomain.toValue self.lib) (some apiKeyCacheTtlSecs)) with h | ⟨_, _, _, h, hput⟩
    · exact .inl (h.trans hcache)
    · cases h
      refine .inr (hput.trans ?_)
      rw [hcache, hnow, hd]
      rfl

/-- A call during which no time passes leaves the cache alone, or stores the row that it found
for the lifetime of an entry. -/
theorem call_effect (hkey : self.hashKey key = .ok hash) (hf : ∀ n, (f n).elapsed = 0) :
    let v := (run ApiKeyWorld.handle (self.verifyApiKey key).run f w).2
    v.now = w.now ∧ (v.cache = w.cache ∨ ∃ row,
      w.table.rows.find? (ApiKeyTable.usable hash) = some row ∧ v.cache = stored self w hash row) := by
  have hsafe : Safe ApiKeyWorld.handle instant (fun _ v => v.now = w.now ∧
      (v.cache = w.cache ∨ ∃ row, w.table.rows.find? (ApiKeyTable.usable hash) = some row ∧
        v.cache = stored self w hash row)) (self.verifyApiKey key).run w := by
    unfold verifyApiKey
    rw [hkey]
    simp only [run_bind', run_observe, cacheGet_eq, Prog.eff_bind, Prog.ret_bind, proceed_ok]
    rw [safe_solo_eff]
    intro c hc
    have hread : (ApiKeyWorld.handle c w (.getValue (CacheKeys.apiKey hash))).2 = w := by
      change w.wait c.elapsed = w
      rw [hc]
      rfl
    rw [hread]
    cases (self.readKey (ApiKeyWorld.handle c w (.getValue
      (CacheKeys.apiKey hash))).1).toOption.join with
    | some apiKey => exact ⟨rfl, .inl rfl⟩
    | none =>
      simp only [run_bind', run_attempt, issue, Prog.eff_bind, Prog.ret_bind]
      rw [safe_solo_eff]
      intro d hd
      have hfind : (ApiKeyWorld.handle d w (.findByHash hash)).2 = w := by
        change w.wait d.elapsed = w
        rw [hd]
        rfl
      rw [hfind]
      cases hfound : (ApiKeyWorld.handle d w (.findByHash hash)).1 with
      | error e => exact ⟨rfl, .inl rfl⟩
      | ok found =>
        have hrow : found = (w.table.rows.find? (ApiKeyTable.usable hash)).map
          ApiKeyRow.intoDomain := (select_ok hfound).1
        subst hrow
        cases hrow : w.table.rows.find? (ApiKeyTable.usable hash) with
        | none => exact ⟨rfl, .inl rfl⟩
        | some row =>
          refine (admitKey_effect w row).mono ?_
          rintro _ v ⟨hnow, hcache | hcache⟩
          · exact ⟨hnow, .inl hcache⟩
          · exact ⟨hnow, .inr ⟨row, rfl, hcache⟩⟩
  exact hsafe.encounters (Encounters.of_choices _ hf w)

/-- A call whose key has no hash does nothing. -/
theorem call_without_hash {e : ApiError} (hkey : self.hashKey key = .error e) :
    (run ApiKeyWorld.handle (self.verifyApiKey key).run f w).2 = w := by
  unfold verifyApiKey
  rw [hkey]
  rfl

end OneCall

section Runs

variable {self} {w : ApiKeyWorld}

/-- An entry of a key that can be decoded. -/
def Matters (self : ApiKeyService) (k : String) (text : CachedText) : Prop :=
  ∃ hash apiKey, k = CacheKeys.apiKey hash ∧ decoded self text = some apiKey

/-- The table grants the role that an entry holds. -/
def Backs (self : ApiKeyService) (w : ApiKeyWorld) (k : String) (text : CachedText) : Prop :=
  ∀ hash apiKey, k = CacheKeys.apiKey hash → decoded self text = some apiKey →
    Grants w.table hash apiKey.role

/-- What was found is decoded to a key with the role of the row. -/
theorem role_decoded {row : ApiKeyRow} {apiKey : ApiKey}
    (h : decoded self (.json (row.intoDomain.toValue self.lib)) = some apiKey) :
    apiKey.role = row.role := by
  unfold decoded CachedText.value at h
  simp only [Option.bind_some] at h
  cases hv : ApiKey.fromValue self.lib (row.intoDomain.toValue self.lib) with
  | error e =>
    rw [hv] at h
    cases h
  | ok k =>
    rw [hv] at h
    cases h
    exact ApiKey.role_fromValue hv

/-- Verifications fill the cache from the table. -/
theorem refreshes (self : ApiKeyService) : Refreshes (timeline self) (secs apiKeyCacheTtlSecs)
    Step.Atomic (Matters self) (Backs self) where
  clock_le := by
    intro w s hs
    cases s with
    | wait ms => exact Nat.le_add_right _ _
    | edit table => exact Nat.le_refl _
    | call key f =>
      cases hkey : self.hashKey key with
      | error e => exact Nat.le_of_eq (congrArg (·.now) (call_without_hash w hkey).symm)
      | ok hash => exact Nat.le_of_eq (call_effect w hkey hs).1.symm
  entry := by
    intro w s hs k e he hm
    cases s with
    | wait ms => exact .inl he
    | edit table => exact .inl he
    | call key f =>
      have he' : (run ApiKeyWorld.handle (self.verifyApiKey key).run f w).2.cache k = some e := he
      cases hkey : self.hashKey key with
      | error e =>
        rw [call_without_hash w hkey] at he'
        exact .inl he'
      | ok hash =>
        obtain ⟨-, hcache | ⟨row, hrow, hcache⟩⟩ := call_effect w hkey hs
        · rw [hcache] at he'
          exact .inl he'
        · rw [hcache] at he'
          by_cases hk : k = CacheKeys.apiKey hash
          · subst hk
            rw [stored, Store.put_same] at he'
            cases he'
            refine .inr ⟨?_, rfl⟩
            intro hash' apiKey hsame hdecoded
            rw [CacheKeys.apiKey_inj] at hsame
            subst hsame
            rw [role_decoded hdecoded]
            exact grants_of_find hrow
          · rw [stored, Store.put_ne _ hk] at he'
            exact .inl he'

/-- A key is accepted because the cache yields it or because the table has it. -/
theorem decision_ok {cached : Option ApiKey} {found : Result (Option ApiKey)} {apiKey : ApiKey}
    (h : decision cached found = .ok apiKey) : cached = some apiKey ∨ found = .ok (some apiKey) := by
  cases cached with
  | some k => exact .inl (congrArg some (Except.ok.inj h))
  | none =>
    rcases found with e | _ | k
    · cases h
    · cases h
    · exact .inr (congrArg (fun k => Except.ok (some k)) (Except.ok.inj h))

theorem cachedKey_some {c : Choice} {v : ApiKeyWorld} {hash : String} {apiKey : ApiKey}
    (h : self.cachedKey c v hash = some apiKey) : ∃ text,
      v.cache.get v.now (CacheKeys.apiKey hash) = some text ∧ decoded self text = some apiKey := by
  unfold cachedKey at h
  split at h
  · cases h
  · rw [Option.bind_assoc] at h
    exact Option.bind_eq_some_iff.mp h

theorem findByHash_some {c : Choice} {v : ApiKeyWorld} {hash : String} {apiKey : ApiKey}
    (h : v.findByHash c hash = .ok (some apiKey)) : ∃ row,
      v.table.rows.find? (ApiKeyTable.usable hash) = some row ∧ row.intoDomain = apiKey :=
  Option.map_eq_some_iff.mp (select_ok h).1.symm

/-- The hash of a key is a hexadecimal text. -/
theorem sqlText_hashKey {key hash : String} (hkey : self.hashKey key = .ok hash) :
    sqlText hash = true := by
  unfold hashKey at hkey
  cases hmac : self.lib.hmacSha256 self.secret key with
  | error e =>
    rw [hmac] at hkey
    cases hkey
  | ok mac =>
    rw [hmac] at hkey
    cases hkey
    simp only [sqlText, hexEncode, String.toList_ofList, Bool.not_eq_true', List.contains_eq_mem,
      decide_eq_false_iff_not, List.mem_flatMap, not_exists, not_and]
    exact fun b _ => ReferenceLibraries.nul_not_mem_hexText 2 b.toNat

/-- What a call during which no time passes answers. -/
theorem answer_instant {key hash : String} (hkey : self.hashKey key = .ok hash) {f : ℕ → Choice}
    (hf : ∀ n, (f n).elapsed = 0) (v : ApiKeyWorld) :
    (run ApiKeyWorld.handle (self.verifyApiKey key).run f v).1 =
      decision (self.cachedKey (f 0) v hash) (v.findByHash (f 1) hash) := by
  have hwait : v.wait 0 = v := rfl
  rw [verifyApiKey_answer self f _ hkey, hf 0, hwait]

/-- A key that is accepted was granted its role at most the lifetime of a cache entry ago. -/
theorem granted_of_accepted (hw : Unread self w) {steps : List Step}
    (hatomic : ∀ s ∈ steps, s.Atomic) {key hash : String} (hkey : self.hashKey key = .ok hash)
    {f : ℕ → Choice} (hf : ∀ n, (f n).elapsed = 0) {apiKey : ApiKey}
    (h : (run ApiKeyWorld.handle (self.verifyApiKey key).run f
      ((timeline self).after w steps)).1 = .ok apiKey) :
    ∃ past, past <+: steps ∧
      ((timeline self).after w steps).now ≤ ((timeline self).after w past).now + secs 30 ∧
      ((timeline self).after w past).now ≤ ((timeline self).after w steps).now ∧
      Grants ((timeline self).after w past).table hash apiKey.role := by
  rw [answer_instant hkey hf] at h
  rcases decision_ok h with hcached | hfound
  · obtain ⟨text, hget, hdecoded⟩ := cachedKey_some hcached
    have hfresh : ∀ k e, w.cache k = some e → ¬ Matters self k e.value := by
      rintro _ e he ⟨hash, apiKey, rfl, hdecoded⟩
      rw [hw hash e he] at hdecoded
      cases hdecoded
    obtain ⟨past, hpast, hlate, hearly, hbacks⟩ :=
      (refreshes self).read_granted hfresh hatomic hget ⟨hash, apiKey, rfl, hdecoded⟩
    exact ⟨past, hpast, hlate, hearly, hbacks hash apiKey rfl hdecoded⟩
  · obtain ⟨row, hrow, rfl⟩ := findByHash_some hfound
    exact ⟨steps, List.prefix_rfl, Nat.le_add_right _ _, Nat.le_refl _, grants_of_find hrow⟩

/-- A key that the table grants is accepted unless the lookup fails. -/
theorem accepted_of_grants {key hash role : String} (hkey : self.hashKey key = .ok hash)
    {f : ℕ → Choice} (hf : ∀ n, (f n).elapsed = 0) (hlookup : (f 1).fails = false)
    {v : ApiKeyWorld} (h : Grants v.table hash role) :
    ∃ apiKey, (run ApiKeyWorld.handle (self.verifyApiKey key).run f v).1 = .ok apiKey := by
  obtain ⟨row, hmem, hhash, hactive, -⟩ := h
  obtain ⟨found, hfind⟩ := Option.isSome_iff_exists.mp
    (List.find?_isSome.mpr ⟨row, hmem, usable_iff.mpr ⟨hhash, hactive⟩⟩)
  have hfound : v.findByHash (f 1) hash = .ok (some found.intoDomain) := by
    simp [ApiKeyWorld.findByHash, select, hlookup, sqlText_hashKey hkey, hfind]
  rw [answer_instant hkey hf, hfound]
  cases self.cachedKey (f 0) v hash with
  | some apiKey => exact ⟨apiKey, rfl⟩
  | none => exact ⟨found.intoDomain, rfl⟩

variable (w) in
/-- A key that is accepted was granted its role by the table at most the lifetime of a cache
entry ago; a key that was granted all that time is accepted unless the lookup fails. -/
theorem revocation_within_ttl (hw : Unread self w) (steps : List Step)
    (hatomic : ∀ s ∈ steps, s.Atomic) (key hash : String) (hkey : self.hashKey key = .ok hash)
    (f : ℕ → Choice) (hf : ∀ n, (f n).elapsed = 0) :
    let after := (timeline self).after w
    let now := (after steps).now
    let answer := (run ApiKeyWorld.handle (self.verifyApiKey key).run f (after steps)).1
    (∀ apiKey, answer = .ok apiKey → ∃ past, past <+: steps ∧
      now ≤ (after past).now + secs 30 ∧ (after past).now ≤ now ∧
      Grants (after past).table hash apiKey.role) ∧
    ((∀ past, past <+: steps → now ≤ (after past).now + secs 30 →
        ∃ role, Grants (after past).table hash role) →
      (f 1).fails = false → ∃ apiKey, answer = .ok apiKey) := by
  dsimp only
  constructor
  · intro apiKey hanswer
    exact granted_of_accepted hw hatomic hkey hf hanswer
  · intro hgranted hlookup
    obtain ⟨role, hgrants⟩ := hgranted steps List.prefix_rfl (Nat.le_add_right _ _)
    exact accepted_of_grants hkey hf hlookup hgrants

/-- The row has expired longer ago than a cache entry lives. -/
def Lapsed (row : ApiKeyRow) (now : ℕ) : Prop :=
  ∃ expiry, row.expiresAt = some expiry ∧ expiry + secs 30 < now

variable (w) in
/-- Nothing but its deactivation makes the key of an expired row useless: while the status of
the row stays as it is for the lifetime of a cache entry, the key is refused exactly when the
row is inactive. -/
theorem lapsed_key_refused_iff (hw : Unread self w) (steps : List Step)
    (hatomic : ∀ s ∈ steps, s.Atomic) (row : ApiKeyRow)
    (hrow : row ∈ ((timeline self).after w steps).table.rows)
    (hstatus : ∀ past, past <+: steps →
      ((timeline self).after w steps).now ≤ ((timeline self).after w past).now + secs 30 →
      ∀ r ∈ ((timeline self).after w past).table.rows, r.keyHash = row.keyHash →
        r.isActive = row.isActive)
    (key : String) (hkey : self.hashKey key = .ok row.keyHash) :
    (Lapsed row ((timeline self).after w steps).now → ∀ f : ℕ → Choice, (∀ n, (f n).elapsed = 0) →
      ∀ apiKey, (run ApiKeyWorld.handle (self.verifyApiKey key).run f
        ((timeline self).after w steps)).1 ≠ .ok apiKey) ↔
      (Lapsed row ((timeline self).after w steps).now → row.isActive = some false) := by
  refine imp_congr_right ?_
  intro _
  constructor
  · intro hrefused
    by_contra hactive
    obtain ⟨apiKey, haccepted⟩ := accepted_of_grants hkey (f := fun _ => {}) (fun _ => rfl) rfl
      ⟨row, hrow, rfl, hactive, rfl⟩
    exact hrefused (fun _ => {}) (fun _ => rfl) apiKey haccepted
  · intro hinactive f hf apiKey haccepted
    obtain ⟨past, hpast, hlate, -, r, hr, hhash, hactive, -⟩ :=
      granted_of_accepted hw hatomic hkey hf haccepted
    exact hactive ((hstatus past hpast hlate r hr hhash).trans hinactive)

end Runs

section DefaultKey
open ReferenceLibraries

/-- The default key is verified once, removed from the table and presented again 20 seconds
later. -/
def removed : List Step := [.call engineeringKey (oracle []), .edit .empty, .wait (secs 20)]

theorem removed_atomic : ∀ s ∈ removed, s.Atomic := by
  intro s hs
  simp only [removed, List.mem_cons, List.not_mem_nil, or_false] at hs
  rcases hs with rfl | rfl | rfl
  · exact fun n => rfl
  · trivial
  · trivial

/-- The key is still accepted, and it was in the table at most 30 seconds ago. -/
theorem removed_key_was_granted : ∃ past, past <+: removed ∧
    ((timeline apiKeyService).after seeded removed).now ≤ ((timeline apiKeyService).after seeded past).now + secs 30 ∧
    ((timeline apiKeyService).after seeded past).now ≤ ((timeline apiKeyService).after seeded removed).now ∧
    Grants ((timeline apiKeyService).after seeded past).table engineeringRow.keyHash "admin" := by
  have hkey : apiKeyService.hashKey engineeringKey = .ok engineeringRow.keyHash := by decide +kernel
  have hanswer : (run ApiKeyWorld.handle (apiKeyService.verifyApiKey engineeringKey).run (oracle [])
      ((timeline apiKeyService).after seeded removed)).1 = .ok engineeringRow.intoDomain := by decide +kernel
  exact (@revocation_within_ttl apiKeyService seeded (fun _ _ h => by cases h) removed removed_atomic
    engineeringKey _ hkey (oracle []) (fun _ => rfl)).1 _ hanswer

/-- The row of the default key with an expiry, deactivated or not. -/
def expiringRow (isActive : Bool) : ApiKeyRow :=
  { engineeringRow with isActive := some isActive, expiresAt := some (secs 1) }

def expiring (isActive : Bool) : ApiKeyWorld :=
  ⟨0, ⟨[expiringRow isActive], by simp, by simp⟩, Store.empty, []⟩

/-- Nothing happens for a minute. -/
def idleMinute : List Step := [.wait (secs 60)]

theorem idleMinute_atomic : ∀ s ∈ idleMinute, s.Atomic := by
  intro s hs
  rw [List.mem_singleton.mp hs]
  trivial

theorem expiring_status {isActive : Bool} {past : List Step} (h : past <+: idleMinute) :
    ((timeline apiKeyService).after (expiring isActive) past).table.rows = [expiringRow isActive] := by
  rcases List.prefix_cons_iff.mp h with rfl | ⟨rest, rfl, hrest⟩
  · rfl
  · rw [List.prefix_nil.mp hrest]
    rfl

/-- A row that was deactivated as well is refused after its expiry. -/
theorem deactivated_key_refused :
    (run ApiKeyWorld.handle (apiKeyService.verifyApiKey engineeringKey).run (oracle [])
      ((timeline apiKeyService).after (expiring false) idleMinute)).1 ≠
        .ok (expiringRow false).intoDomain := by
  have hkey : apiKeyService.hashKey engineeringKey = .ok (expiringRow false).keyHash := by
    decide +kernel
  refine (lapsed_key_refused_iff (expiring false) (fun _ _ h => by cases h) idleMinute
    idleMinute_atomic (expiringRow false) List.mem_cons_self ?_ engineeringKey hkey).mpr
    (fun _ => rfl) ⟨secs 1, rfl, by decide⟩ (oracle []) (fun _ => rfl) _
  intro past hpast _ r hr _
  rw [expiring_status hpast] at hr
  rw [List.mem_singleton.mp hr]

/-- An active row is accepted long after its expiry. -/
theorem expired_key_accepted : ¬ ∀ (self : ApiKeyService) (w : ApiKeyWorld), Unread self w →
    ∀ steps : List Step, (∀ s ∈ steps, s.Atomic) →
    ∀ row ∈ ((timeline self).after w steps).table.rows,
      Lapsed row ((timeline self).after w steps).now →
    ∀ key, self.hashKey key = .ok row.keyHash → ∀ f : ℕ → Choice, (∀ n, (f n).elapsed = 0) →
      ∀ apiKey, (run ApiKeyWorld.handle (self.verifyApiKey key).run f
        ((timeline self).after w steps)).1 ≠ .ok apiKey := by
  intro h
  have hkey : apiKeyService.hashKey engineeringKey = .ok (expiringRow true).keyHash := by
    decide +kernel
  have haccepted : (run ApiKeyWorld.handle (apiKeyService.verifyApiKey engineeringKey).run (oracle [])
      ((timeline apiKeyService).after (expiring true) idleMinute)).1 =
        .ok (expiringRow true).intoDomain := by
    decide +kernel
  exact h apiKeyService (expiring true) (fun _ _ h => by cases h) idleMinute idleMinute_atomic
    (expiringRow true) List.mem_cons_self ⟨secs 1, rfl, by decide⟩ engineeringKey hkey (oracle [])
    (fun _ => rfl) _ haccepted

end DefaultKey

end IamService.ApiKeyRevocation
