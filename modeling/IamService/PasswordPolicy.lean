import IamService.CharacterSequences
import IamService.MethodFootprints
import IamService.ReferenceLibraries

/-!
# The password policy

The messages of the check speak of characters, while the code compares the length in bytes.
The two agree on a text of ASCII characters; elsewhere a short password can be long enough
in bytes, and a long one too long. A hash is stored only after the check has accepted the
password, in every interleaving of calls.
-/

namespace IamService.PasswordPolicy
open EffectPrograms CharacterSequences PasswordService AuthService ReferenceLibraries

/-- A password has a letter of either case, a digit and a special character. -/
structure Composed (password : String) : Prop where
  lower : ∃ c ∈ password.toList, 'a' ≤ c ∧ c ≤ 'z'
  upper : ∃ c ∈ password.toList, 'A' ≤ c ∧ c ≤ 'Z'
  digit : ∃ c ∈ password.toList, '0' ≤ c ∧ c ≤ '9'
  special : ∃ c ∈ password.toList, c ∈ specialChars.toList

/-- No common pattern occurs in a password, in whatever letter case. -/
def Uncommon (lib : Libraries) (password : String) : Prop :=
  ∀ pattern ∈ weakPatterns, ¬ pattern.toList <:+: (lib.toLowercase password).toList

/-- The policy as the messages of the check state it, with lengths in characters. -/
structure Stated (lib : Libraries) (password : String) : Prop where
  atLeast : 8 ≤ password.length
  atMost : password.length ≤ 128
  composed : Composed password
  uncommon : Uncommon lib password

/-- The length in bytes lies on the other side of a bound than the number of characters. -/
def Miscounted (password : String) : Prop :=
  password.length < 8 ∧ 8 ≤ password.utf8ByteSize ∨
    password.length ≤ 128 ∧ 128 < password.utf8ByteSize

/-- The lengths agree, or the password fails for another reason. -/
def Plain (lib : Libraries) (password : String) : Prop :=
  ¬ (Miscounted password ∧ Composed password ∧ Uncommon lib password)

section Check

variable {lib : Libraries} {password : String}

theorem missing_eq_nil_iff :
    ((strengthChecks password).filter (fun c => !c.1)).map Prod.snd = [] ↔ Composed password := by
  have hall : ((strengthChecks password).filter (fun c => !c.1)).map Prod.snd = [] ↔
      ∀ check ∈ strengthChecks password, check.1 = true := by
    simp [List.filter_eq_nil_iff]
  rw [hall]
  simp only [strengthChecks, List.forall_mem_cons, List.any_eq_true, decide_eq_true_eq,
    List.contains_eq_mem]
  constructor
  · rintro ⟨hlower, hupper, hdigit, hspecial, -⟩
    exact ⟨hlower, hupper, hdigit, hspecial⟩
  · rintro ⟨hlower, hupper, hdigit, hspecial⟩
    exact ⟨hlower, hupper, hdigit, hspecial, by simp⟩

theorem any_weakPatterns_iff :
    weakPatterns.any (containsText (lib.toLowercase password)) = true ↔
      ¬ Uncommon lib password := by
  simp [Uncommon, containsText_iff]

/-- The check accepts by the length in bytes. -/
theorem validatePasswordStrength_iff : validatePasswordStrength lib password = .ok () ↔
    8 ≤ password.utf8ByteSize ∧ password.utf8ByteSize ≤ 128 ∧ Composed password ∧
      Uncommon lib password := by
  simp only [validatePasswordStrength]
  split
  · rename_i hshort
    exact iff_of_false (by simp) (fun h => by omega)
  · rename_i hlong
    split
    · rename_i hover
      exact iff_of_false (by simp) (fun h => by omega)
    · rename_i hunder
      split
      · rename_i hmissing
        exact iff_of_false (by simp) (fun h => hmissing (missing_eq_nil_iff.mpr h.2.2.1))
      · rename_i hcomposed
        split
        · rename_i hweak
          exact iff_of_false (by simp) (fun h => any_weakPatterns_iff.mp hweak h.2.2.2)
        · rename_i huncommon
          refine iff_of_true rfl ⟨by omega, by omega, ?_, ?_⟩
          · exact missing_eq_nil_iff.mp (not_not.mp hcomposed)
          · exact not_not.mp (fun h => huncommon (any_weakPatterns_iff.mpr h))

/-- The check is the stated policy unless the length is miscounted. -/
theorem check_stated_iff :
    (validatePasswordStrength lib password = .ok () ↔ Stated lib password) ↔ Plain lib password := by
  have hle := length_le_utf8ByteSize password
  have hfour := utf8ByteSize_le password
  rw [validatePasswordStrength_iff]
  constructor
  · rintro hiff ⟨hmiscounted, hcomposed, huncommon⟩
    rcases hmiscounted with ⟨hchars, hbytes⟩ | ⟨hchars, hbytes⟩
    · have hstated := hiff.mp ⟨hbytes, by omega, hcomposed, huncommon⟩
      exact absurd hstated.atLeast (by omega)
    · have haccepted := hiff.mpr ⟨by omega, hchars, hcomposed, huncommon⟩
      exact absurd haccepted.2.1 (by omega)
  · intro hplain
    constructor
    · rintro ⟨hmin, hmax, hcomposed, huncommon⟩
      refine ⟨?_, by omega, hcomposed, huncommon⟩
      by_contra hchars
      exact hplain ⟨.inl ⟨by omega, hmin⟩, hcomposed, huncommon⟩
    · rintro ⟨hmin, hmax, hcomposed, huncommon⟩
      refine ⟨by omega, ?_, hcomposed, huncommon⟩
      by_contra hbytes
      exact hplain ⟨.inr ⟨hmax, by omega⟩, hcomposed, huncommon⟩

end Check

variable (self : AuthService)

/-- The password that a call sets. -/
def newPassword : Call → Option String
  | .register _ _ password _ _ => some password
  | .resetPassword _ password => some password
  | _ => none

/-- The hash that an operation stores. -/
def storedBy : Op → Option String
  | .user (.create newUser) => some newUser.passwordHash
  | .user (.updatePassword _ hash) => some hash
  | _ => none

/-- The hash that a running call is about to store. -/
def storing : Program Returned → Option String
  | .eff o _ => storedBy o
  | .ret _ => none

/-- Any call that sets no password, or one whose length is not miscounted. -/
def Launched (_ : self.State) (p : Program Returned) : Prop :=
  ∃ call, p = self.program call ∧ ∀ password, newPassword call = some password →
    Plain self.lib password

/-- The hash of a password that meets the stated policy. -/
def HashOfStated (hash : String) : Prop :=
  ∃ password salt, hashPassword self.lib password salt = .ok hash ∧ Stated self.lib password

/-- Programs rely on nothing, and store the hashes of such passwords only. -/
def discipline : Discipline Op Choice self.State where
  inv := fun _ => True
  rely := fun _ _ => True
  permits := fun _ o => ∀ hash, storedBy o = some hash → HashOfStated self hash
  admits := fun _ _ _ => True

section Storing

variable {self} {s : self.State}

theorem discipline_sound : (discipline self).Sound self.handle where
  refl := fun _ => trivial
  trans := fun _ _ => trivial
  inv_step := fun _ _ _ => trivial
  rely_step := fun _ _ _ => trivial

/-- An operation of another kind stores no hash. -/
theorem permits_of_kind {o : Op} (h : o.kind ∉ [OpKind.createUser, .updatePassword])
    (w : self.State) : (discipline self).permits w o := by
  intro hash hstored
  unfold storedBy at hstored
  split at hstored
  · simp at h
  · simp at h
  · cases hstored

theorem limited_safe {α : Type} (kinds : List OpKind) {p : Program α} (h : Limited kinds p)
    (hk : ∀ k ∈ kinds, k ∉ [OpKind.createUser, .updatePassword]) (s : self.State) :
    Safe self.handle (discipline self) (fun _ _ => True) p s :=
  Issues.safe (fun w _ ho => permits_of_kind (hk _ ho) w) h s

/-- What follows the hashing of a password knows that the password was accepted. -/
theorem hashThen_safe {β : Type} {password : String} (hplain : Plain self.lib password)
    {f : String → Method β} (hf : ∀ hash t, HashOfStated self hash →
      Safe self.handle (discipline self) (fun _ _ => True) (f hash).run t) :
    Safe self.handle (discipline self) (fun _ _ => True)
      (attempt (host (.hashPassword password)) >>= f).run s := by
  refine Safe.bindExcept ?_
  intro t _ _
  refine ⟨permits_of_kind (by simp) t, fun c _ => ?_⟩
  rw [safe_ret]
  split
  · rename_i hash hok
    apply hf
    rw [handle_host] at hok
    simp only [hostHandle] at hok
    split at hok
    · cases hok
    · have haccepted := strength_of_hashPassword hok
      exact ⟨password, c.random, hok, (check_stated_iff.mpr hplain).mp haccepted⟩
  · trivial

theorem register_safe {password : String} (hplain : Plain self.lib password)
    (username email : String) (firstName lastName : Option String) :
    Safe self.handle (discipline self) (fun _ _ => True)
      (self.register username email password firstName lastName).run s := by
  unfold register
  split
  · exact trivial
  · refine hashThen_safe hplain ?_
    intro hash t hhash
    refine Safe.observeBind (fun t₁ _ _ => ⟨permits_of_kind (by simp) t₁, fun c₁ _ => ?_⟩)
    refine Safe.observeBind (fun t₂ _ _ => ⟨permits_of_kind (by simp) t₂, fun c₂ _ => ?_⟩)
    refine Safe.observeBind (fun t₃ _ _ => ⟨?_, fun c₃ _ => ?_⟩)
    · intro hash' hstored
      cases hstored
      exact hhash
    · rw [safe_ret]
      split
      · exact trivial
      · exact limited_safe [.publish] (by simp [Limited, eventBus]) (by simp) _

theorem resetPassword_safe {password : String} (hplain : Plain self.lib password)
    (token : String) :
    Safe self.handle (discipline self) (fun _ _ => True)
      (self.resetPassword token password).run s := by
  refine Safe.andThen (limited_safe _ (self.cacheGet_limited _ _) (by simp) s) ?_
  intro found t
  cases found with
  | none => exact trivial
  | some email =>
    refine Safe.andThen (limited_safe [.findByUsernameOrEmail] (by simp [Limited, userRepo])
      (by simp) t) ?_
    intro user t₁
    refine hashThen_safe hplain ?_
    intro hash t₂ hhash
    refine Safe.bindExcept (fun t₃ _ _ => ⟨?_, fun c _ => ?_⟩)
    · intro hash' hstored
      cases hstored
      exact hhash
    · rw [safe_ret]
      split
      · split
        · exact trivial
        · exact limited_safe _ (invalidateReset_limited _ _ _) (by simp) _
      · trivial

theorem program_safe {call : Call} (hcall : ∀ password, newPassword call = some password →
    Plain self.lib password) :
    Safe self.handle (discipline self) (fun _ _ => True) (self.program call) s := by
  refine Safe.bind ?_
  have hmethod : Safe self.handle (discipline self) (fun _ _ => True) (self.method call).run s := by
    cases call with
    | register username email password firstName lastName =>
      exact register_safe (hcall password rfl) _ _ _ _
    | resetPassword token password => exact resetPassword_safe (hcall password rfl) _
    | _ => exact limited_safe _ (self.method_limited _) (by simp) s
  exact hmethod.mono (fun _ _ _ => trivial)

/-- In every interleaving a hash is stored for a password of the stated policy. -/
theorem reach_stores {w : self.State} {ps : List (Program Returned)}
    (h : Reach self.handle (Launched self) (fun _ _ _ => True) (fun _ => True) w ps) :
    ∀ p ∈ ps, ∀ hash, storing p = some hash → HashOfStated self hash := by
  have hsafe := Reach.safe discipline_sound (fun _ _ _ _ _ => trivial) (fun _ _ => trivial)
    (fun s p _ hlaunched => hlaunched.elim fun call hcall => hcall.1 ▸ program_safe hcall.2) h
  intro p hp hash hstoring
  cases p with
  | ret r => cases hstoring
  | eff o k => exact (hsafe.2 _ hp w trivial trivial).1 hash hstoring

end Storing

/-- The check is the stated policy exactly for the passwords whose length is not miscounted,
and while only such passwords are set, only hashes of passwords of the policy are stored. -/
theorem password_policy (self : AuthService) :
    (∀ password, (validatePasswordStrength self.lib password = .ok () ↔
      Stated self.lib password) ↔ Plain self.lib password) ∧
    ∀ w ps, Reach self.handle (Launched self) (fun _ _ _ => True) (fun _ => True) w ps →
      ∀ p ∈ ps, ∀ hash, storing p = some hash → HashOfStated self hash :=
  ⟨fun _ => check_stated_iff, fun _ _ h => reach_stores h⟩

section Alice

/-- Alice is about to be stored. -/
def storingAlice : service.State × List (Program Returned) :=
  schedule service.handle (World.empty _, [service.program registerAlice.call])
    [(0, {}), (0, { uuid := ⟨1⟩ }), (0, { uuid := ⟨2⟩ })]

theorem alice_plain : Plain service.lib "Str0ng!Pass" := by
  rintro ⟨hmiscounted, -⟩
  revert hmiscounted
  unfold Miscounted
  decide +kernel

theorem reach_storingAlice : Reach service.handle (Launched service) (fun _ _ _ => True)
    (fun _ => True) storingAlice.1 storingAlice.2 := by
  have hlaunched : Launched service (World.empty _) (service.program registerAlice.call) := by
    refine ⟨_, rfl, ?_⟩
    rintro _ ⟨⟩
    exact alice_plain
  have hpool : Reach service.handle (Launched service) (fun _ _ _ => True) (fun _ => True)
      (World.empty _) [service.program registerAlice.call] := (Reach.init trivial).start hlaunched
  exact hpool.schedule _ (Admitted.of_forall (fun _ _ _ => trivial) _ _)

theorem password_policy_alice :
    (validatePasswordStrength service.lib "Str0ng!Pass" = .ok () ↔
        Stated service.lib "Str0ng!Pass") ∧
      ∃ hash, (∃ p ∈ storingAlice.2, storing p = some hash) ∧ HashOfStated service hash := by
  obtain ⟨hcheck, hstores⟩ := password_policy service
  have hstoring : ∃ p ∈ storingAlice.2, storing p = some "$argon2id$00000000$Str0ng!Pass" := by
    decide +kernel
  refine ⟨(hcheck _).mpr alice_plain, _, hstoring, ?_⟩
  obtain ⟨p, hp, hp'⟩ := hstoring
  exact hstores _ _ reach_storingAlice p hp _ hp'

/-- Six characters of ten bytes pass for a password of at least eight characters. -/
theorem short_password_accepted : ¬ ∀ (lib : Libraries) (password : String),
    validatePasswordStrength lib password = .ok () ↔ Stated lib password := by
  intro h
  have haccepted : validatePasswordStrength libraries "Aa1!€€" = .ok () := by decide +kernel
  obtain ⟨hlength, -, -, -⟩ := (h libraries "Aa1!€€").mp haccepted
  revert hlength
  decide +kernel

end Alice

end IamService.PasswordPolicy
