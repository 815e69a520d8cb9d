import IamService.MethodFootprints
import IamService.ReferenceLibraries

/-!
# What a caller learns from asking for a mail

Two runs of the same request against different accounts, with the same outages of the cache
and of the event bus. Each run is specified on its own: resending a verification answers the
same in all cases, and a forgotten password answers an error exactly when an account was
found and its token could not be stored.
-/

namespace IamService.AccountEnumeration
open EffectPrograms RelationTables UserRepository AuthService

/-- Which operations of the cache and of the event bus fail, and with which text; `refusal` is
the message with which a healthy database refuses a statement. -/
structure Outage where
  failing : OpKind → Option String
  refusal : String

/-- The environment follows the outage, and the database is healthy. -/
def Outage.Follows (x : Outage) (c : Choice) (o : Op) : Prop :=
  match o with
  | .user _ => c.fails = false ∧ c.errorText = x.refusal
  | .wallet _ => c.fails = false ∧ c.errorText = x.refusal
  | .cache _ => c.fails = (x.failing o.kind).isSome ∧ ∀ text ∈ x.failing o.kind, c.errorText = text
  | .bus _ => c.fails = (x.failing o.kind).isSome ∧ ∀ text ∈ x.failing o.kind, c.errorText = text
  | _ => True

instance (x : Outage) (c : Choice) : (o : Op) → Decidable (x.Follows c o)
  | .user _ => inferInstanceAs (Decidable (c.fails = false ∧ c.errorText = x.refusal))
  | .wallet _ => inferInstanceAs (Decidable (c.fails = false ∧ c.errorText = x.refusal))
  | .cache q => inferInstanceAs (Decidable (c.fails = (x.failing (Op.cache q).kind).isSome ∧
      ∀ text ∈ x.failing (Op.cache q).kind, c.errorText = text))
  | .bus q => inferInstanceAs (Decidable (c.fails = (x.failing (Op.bus q).kind).isSome ∧
      ∀ text ∈ x.failing (Op.bus q).kind, c.errorText = text))
  | .chain _ => inferInstanceAs (Decidable True)
  | .host _ => inferInstanceAs (Decidable True)

/-- The text of an identifier is 36 hexadecimal digits and hyphens. -/
structure UuidText (lib : Libraries) : Prop where
  text : ∀ id, sqlText (lib.uuidToString id) = true
  length : ∀ id, (lib.uuidToString id).toList.length ≤ 36

variable {self : AuthService}

/-- Every operation of a run follows the outage. -/
def Under (x : Outage) {α : Type} (p : Program α) (f : ℕ → Choice) (w : self.State) : Prop :=
  Encounters self.handle (fun c _ o => x.Follows c o) p f w

instance (x : Outage) {α : Type} (p : Program α) (f : ℕ → Choice) (w : self.State) :
    Decidable (Under x p f w) := decidableEncounters self.handle (fun c _ o => x.Follows c o) p f w

/-- Some active account has the name or the email. -/
def Known (w : self.State) (email : String) : Prop := ∃ row ∈ w.db.users, named email row = true

instance (w : self.State) (email : String) : Decidable (Known w email) :=
  inferInstanceAs (Decidable (∃ row ∈ w.db.users, named email row = true))

section OneRun

variable (x : Outage) (email : String) (w : self.State)

/-- The environment of a run under an outage. -/
abbrev under (self : AuthService) (x : Outage) : Discipline Op Choice self.State :=
  .solo fun c _ o => x.Follows c o

/-- What a healthy database answers when it is asked with a text. -/
def lookedUp {α : Type} (answer : α) : Result α :=
  if sqlText email then .ok answer else .error (.database .invalidValue x.refusal)

theorem select_lookedUp {α : Type} {c : Choice} {q : UserOp} (hc : x.Follows c (.user q))
    (answer : α) : select c [email] answer = lookedUp x email answer := by
  obtain ⟨hup, htext⟩ := hc
  unfold select lookedUp
  simp [hup, htext]

/-- A token that was minted is stored. -/
theorem verificationTokenFor_ok (huuid : UuidText self.lib) (state : EmailVerificationState) :
    Safe self.handle (under self x) (fun r _ => ∃ token, r = .ok token)
      (self.verificationTokenFor state).run w := by
  unfold verificationTokenFor
  cases state.verificationToken with
  | some token => exact ⟨token, rfl⟩
  | none =>
    refine Safe.observeBind (safe_solo_eff.mpr ?_)
    intro c _
    rw [safe_ret]
    refine Safe.bindExcept (safe_solo_eff.mpr ?_)
    intro d hd
    rw [safe_ret]
    have hstored : ∀ (v : self.State) (id : Uuid), (self.handle d v (.user
        (.setVerificationToken state.userId (self.lib.uuidToString id)))).1 = .ok () := by
      intro v id
      rw [handle_user]
      dsimp only [UserRepository.handle, setVerificationToken]
      rw [execute_of_ok hd.1 (by simp [huuid.text]) (by
        rw [fit_of_le ((huuid.length id).trans (by decide))]
        rfl)]
    rw [hstored]
    exact ⟨_, rfl⟩

/-- Resending answers the same whatever the accounts and the caches are. -/
theorem resendVerification_result (huuid : UuidText self.lib) :
    Safe self.handle (under self x) (fun r _ => r = lookedUp x email verificationSent)
      (self.resendVerification email).run w := by
  refine Safe.bindExcept (safe_solo_eff.mpr ?_)
  intro c hc
  rw [safe_ret]
  have hanswer : (self.handle c w (.user (.findVerificationStateByEmail email))).1 =
      lookedUp x email (findVerificationStateByEmail (w.now + c.elapsed) c.pick w.db email) :=
    select_lookedUp x email hc _
  rw [hanswer]
  by_cases htext : sqlText email = true
  · simp only [lookedUp, htext, if_true]
    cases findVerificationStateByEmail (w.now + c.elapsed) c.pick w.db email with
    | none => rfl
    | some state =>
      dsimp only
      split
      · rfl
      · refine Safe.observeBind (safe_solo_eff.mpr ?_)
        intro d _
        rw [safe_ret]
        split
        · rfl
        · refine Safe.bindExcept ((verificationTokenFor_ok x _ huuid state).mono ?_)
          rintro _ v ⟨token, rfl⟩
          refine Safe.observeBind (safe_solo_eff.mpr ?_)
          intro e _
          refine Safe.observeBind (safe_solo_eff.mpr ?_)
          intro g _
          rfl
  · simp [lookedUp, htext]

/-- The answer to a forgotten password. -/
def forgotten (known : Prop) [Decidable known] : Result Unit :=
  if sqlText email then
    match x.failing .storeOther with
    | some text => if known then .error (.internal text) else .ok ()
    | none => .ok ()
  else .error (.database .invalidValue x.refusal)

/-- A token is stored unless the outage says otherwise. -/
theorem storeToken_result {c : Choice} {v : self.State} {token text : String}
    (hc : x.Follows c (.cache (.setValue (CacheKeys.passwordResetToken token) (.text text)
      (some resetTokenTtlSecs)))) :
    (self.handle c v (.cache (.setValue (CacheKeys.passwordResetToken token) (.text text)
      (some resetTokenTtlSecs)))).1 =
      match x.failing .storeOther with
      | some message => .error (.internal message)
      | none => .ok () := by
  obtain ⟨hfails, hmessage⟩ := hc
  simp only [Op.kind] at hfails hmessage
  rw [handle_cache]
  cases hx : x.failing .storeOther with
  | some message =>
    rw [hx] at hfails hmessage
    simp [CacheService.handle, hfails, hmessage message rfl]
  | none =>
    rw [hx] at hfails
    simp [CacheService.handle, hfails, resetTokenTtlSecs]

theorem forgotPassword_result :
    Safe self.handle (under self x) (fun r _ => r = forgotten x email (Known w email))
      (self.forgotPassword email).run w := by
  refine Safe.bindExcept (safe_solo_eff.mpr ?_)
  intro c hc
  rw [safe_ret]
  have hanswer : (self.handle c w (.user (.findByUsernameOrEmail email))).1 =
      lookedUp x email ((limitOne c.pick (named email) w.db.users).map UserRow.intoDomainWithHash) :=
    select_lookedUp x email hc _
  rw [hanswer]
  by_cases htext : sqlText email = true
  · simp only [lookedUp, forgotten, htext, if_true]
    cases hfound : limitOne c.pick (named email) w.db.users with
    | none =>
      have hunknown : ¬ Known w email := by
        rintro ⟨row, hrow, hnamed⟩
        rw [limitOne_eq_none.mp hfound row hrow] at hnamed
        cases hnamed
      cases x.failing .storeOther with
      | none => rfl
      | some text => exact (if_neg hunknown).symm
    | some row =>
      have hknown : Known w email := ⟨row, limitOne_some hfound⟩
      refine Safe.observeBind (safe_solo_eff.mpr ?_)
      intro d _
      rw [safe_ret]
      refine Safe.bindExcept (safe_solo_eff.mpr ?_)
      intro e he
      rw [safe_ret, storeToken_result x he]
      cases x.failing .storeOther with
      | some text =>
        simp [hknown]
      | none =>
        refine Safe.observeBind (safe_solo_eff.mpr ?_)
        intro g _
        rfl
  · simp [lookedUp, forgotten, htext]

end OneRun

section TwoRuns

variable (x : Outage) (email : String) {w v : self.State} {f g f' g' : ℕ → Choice}

theorem forgotten_eq_iff (known known' : Prop) [Decidable known] [Decidable known'] :
    forgotten x email known = forgotten x email known' ↔
      sqlText email = false ∨ x.failing .storeOther = none ∨ (known ↔ known') := by
  unfold forgotten
  cases htext : sqlText email with
  | false => simp
  | true =>
    cases x.failing .storeOther with
    | none => simp
    | some text => by_cases hknown : known <;> by_cases hknown' : known' <;> simp [hknown, hknown']

/-- Two runs under one outage answer alike, both to a resending and to a forgotten password,
exactly when the cache stores the token of a reset, or both tables have an active account of
that name, or neither has, or the name is no text that the database accepts. -/
theorem answers_alike_iff (huuid : UuidText self.lib)
    (hf : Under x (self.resendVerification email).run f w)
    (hg : Under x (self.resendVerification email).run g v)
    (hf' : Under x (self.forgotPassword email).run f' w)
    (hg' : Under x (self.forgotPassword email).run g' v) :
    ((run self.handle (self.resendVerification email).run f w).1 =
        (run self.handle (self.resendVerification email).run g v).1 ∧
      (run self.handle (self.forgotPassword email).run f' w).1 =
        (run self.handle (self.forgotPassword email).run g' v).1) ↔
    (sqlText email = false ∨ x.failing .storeOther = none ∨ (Known w email ↔ Known v email)) := by
  rw [(resendVerification_result x email w huuid).encounters hf,
    (resendVerification_result x email v huuid).encounters hg,
    (forgotPassword_result x email w).encounters hf',
    (forgotPassword_result x email v).encounters hg', ← forgotten_eq_iff]
  simp

end TwoRuns

section Alice
open ReferenceLibraries

theorem uuidText : UuidText service.lib where
  text := sqlText_uuidToString
  length := fun id => Nat.le_of_eq (length_uuidToString id)

/-- Publications and lookups in the cache fail, but values are stored. -/
def noBus : Outage where
  failing := fun k => if k = .publish ∨ k = .readCache then some "connection refused" else none
  refusal := ""

/-- The environment of both requests for an active Alice while publications fail. -/
def busDown : ℕ → Choice :=
  oracle [{}, {}, {}, { fails := true, errorText := "connection refused" }]

/-- Without the bus nobody learns whether Alice has an account. -/
theorem alice_hidden_without_bus :
    (run service.handle (service.resendVerification "alice@example.com").run busDown activated).1 =
        (run service.handle (service.resendVerification "alice@example.com").run busDown
          (World.empty _)).1 ∧
      (run service.handle (service.forgotPassword "alice@example.com").run busDown activated).1 =
        (run service.handle (service.forgotPassword "alice@example.com").run busDown
          (World.empty _)).1 := by
  have hunder : Under noBus (service.resendVerification "alice@example.com").run busDown activated ∧
      @Under service noBus _ (service.resendVerification "alice@example.com").run busDown
        (World.empty _) ∧
      Under noBus (service.forgotPassword "alice@example.com").run busDown activated ∧
      @Under service noBus _ (service.forgotPassword "alice@example.com").run busDown
        (World.empty _) := by decide +kernel
  obtain ⟨hf, hg, hf', hg'⟩ := hunder
  exact (answers_alike_iff noBus "alice@example.com" uuidText hf hg hf' hg').mpr (.inr (.inl rfl))

/-- No value is stored. -/
def noStore : Outage where
  failing := fun k => if k = .storeOther then some "Redis SET failed" else none
  refusal := ""

def storeDown : ℕ → Choice :=
  oracle [{}, {}, { fails := true, errorText := "Redis SET failed" }]

/-- While the cache stores nothing, only an existing account is answered with an error. -/
theorem alice_disclosed_without_store :
    ¬ ∀ (x : Outage) (email : String) (w v : service.State) (f g f' g' : ℕ → Choice),
      Under x (service.resendVerification email).run f w →
      Under x (service.resendVerification email).run g v →
      Under x (service.forgotPassword email).run f' w →
      Under x (service.forgotPassword email).run g' v →
      (run service.handle (service.resendVerification email).run f w).1 =
          (run service.handle (service.resendVerification email).run g v).1 ∧
        (run service.handle (service.forgotPassword email).run f' w).1 =
          (run service.handle (service.forgotPassword email).run g' v).1 := by
  intro h
  have hruns : Under noStore (service.resendVerification "alice@example.com").run storeDown
        activated ∧
      @Under service noStore _ (service.resendVerification "alice@example.com").run storeDown
        (World.empty _) ∧
      Under noStore (service.forgotPassword "alice@example.com").run storeDown activated ∧
      @Under service noStore _ (service.forgotPassword "alice@example.com").run storeDown
        (World.empty _) ∧
      (run service.handle (service.forgotPassword "alice@example.com").run storeDown activated).1 ≠
        (run service.handle (service.forgotPassword "alice@example.com").run storeDown
          (World.empty _)).1 := by decide +kernel
  obtain ⟨hf, hg, hf', hg', hdiffer⟩ := hruns
  exact hdiffer (h noStore "alice@example.com" activated (World.empty _) storeDown storeDown
    storeDown storeDown hf hg hf' hg').2

end Alice

end IamService.AccountEnumeration
