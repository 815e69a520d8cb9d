import IamService.ReferenceLibraries
import IamService.RelyGuarantee

/-!
# The reported lifetime of a session

A login, a verification and a refresh return an access token with the seconds it is said
to live. The token takes its expiry from its claims, the report takes it from the
configuration. All calls run together, one operation at a time, with any failures; they
rely on each other only for the tokens already signed, which stay signed.
-/

namespace IamService.SessionLifetimes
open EffectPrograms AuthService ReferenceLibraries

variable (self : AuthService)

/-- The access token and the lifetime that a call returns on success. -/
def session : (call : Call) → call.Value → Option (Jwt × ℤ)
  | .login .., r => some (r.accessToken, r.expiresIn)
  | .verifyEmail _, r => r.auth.map (fun a => (a.accessToken, a.expiresIn))
  | .refreshToken _, r => some r
  | _, _ => none

/-- The session that a running call has returned. -/
def opened : Program Returned → Option (Jwt × ℤ)
  | .ret ⟨call, .ok value⟩ => session call value
  | _ => none

/-- Any call may be made at any time. -/
def Launched (_ : self.State) (p : Program Returned) : Prop := ∃ call, p = self.program call

/-- The reported lifetime is that of the token, and whatever happens next, the token is
accepted until that many seconds after its issue. -/
structure Truthful (w : self.State) (ps : List (Program Returned)) (token : Jwt)
    (expiresIn : ℤ) : Prop where
  lifetime : expiresIn = token.claims.exp - token.claims.iat
  refreshable : ∀ t qs, Later self.handle (Launched self) (fun _ _ _ => True) w ps t qs →
    ((t.now / 1000 : ℕ) : ℤ) ≤ token.claims.iat + expiresIn →
    JwtService.decodeToken t.now t.issued token = .ok token.claims

/-- Programs rely on the tokens that have been signed. -/
def discipline : Discipline Op Choice self.State where
  inv := fun _ => True
  rely := fun s t => s.issued ⊆ t.issued
  permits := fun _ _ => True
  admits := fun _ _ _ => True

/-- A signed token with the lifetime of all tokens. -/
def Signed (w : self.State) (token : Jwt) : Prop :=
  token ∈ w.issued ∧ token.claims.exp = token.claims.iat + 86400

/-- A returned session reports the configured lifetime for a signed token. -/
def Configured (p : Program Returned) (w : self.State) : Prop :=
  ∀ token expiresIn, opened p = some (token, expiresIn) →
    expiresIn = self.config.jwtExpiration ∧ Signed self w token

variable {self} {s : self.State}

section Tokens

theorem issued_subset (c : Choice) (w : self.State) (o : Op) :
    w.issued ⊆ (self.handle c w o).2.issued := by
  rcases self.issued_handle c w o with h | ⟨claims, -, h⟩
  · rw [h]
    exact List.Subset.refl _
  · rw [h]
    exact List.subset_append_left _ _

theorem discipline_sound : (discipline self).Sound self.handle where
  refl := fun s => List.Subset.refl s.issued
  trans := fun h₁ h₂ => List.Subset.trans h₁ h₂
  inv_step := fun _ _ _ => trivial
  rely_step := fun _ _ _ => issued_subset _ _ _

theorem Signed.mono {w w' : self.State} {token : Jwt} (h : Signed self w token)
    (hsub : w.issued ⊆ w'.issued) : Signed self w' token := ⟨hsub h.1, h.2⟩

theorem new_lifetime (now : ℕ) (userId : Uuid) (username role : String) :
    (Claims.new now userId username role).exp =
      (Claims.new now userId username role).iat + 86400 := by
  simp only [Claims.new, secs]
  omega

/-- A signature that succeeds carries the claims and is remembered. -/
theorem encodeToken_ok {c : Choice} {w : self.State} {claims : Claims} {token : Jwt}
    (h : (self.handle c w (.host (.encodeToken claims))).1 = .ok token) :
    token = ⟨claims⟩ ∧ token ∈ (self.handle c w (.host (.encodeToken claims))).2.issued := by
  simp only [handle_host, hostHandle] at h ⊢
  cases hf : c.fails with
  | true => simp [hf] at h
  | false =>
    simp only [hf, Bool.false_eq_true, ↓reduceIte, Except.ok.injEq] at h ⊢
    exact ⟨h.symm, List.mem_append_right _ (List.mem_singleton.mpr h.symm)⟩

/-- A signed token is accepted until its expiry and a little longer. -/
theorem decodeToken_signed {token : Jwt} {now : ℕ} {issued : List Jwt} (h : token ∈ issued)
    (hnow : now / 1000 ≤ token.claims.exp + JwtService.leewaySecs) :
    JwtService.decodeToken now issued token = .ok token.claims := by
  unfold JwtService.decodeToken
  rw [if_neg (not_not_intro h), if_neg (Nat.not_lt.mpr hnow)]

end Tokens

section Programs

/-- Nothing that a program does is forbidden. -/
theorem safe_any {α : Type} (p : Program α) (s : self.State) :
    Safe self.handle (discipline self) (fun _ _ => True) p s := by
  induction p generalizing s with
  | ret a => trivial
  | eff o k ih => exact fun t _ _ => ⟨trivial, fun c _ => ih _ _⟩

/-- Whatever comes first, a body is judged by what follows it. -/
theorem safe_then {α β : Type} {Q : Result β → self.State → Prop} (p : Method α)
    {f : α → Method β} (herror : ∀ e t, Q (.error e) t)
    (hf : ∀ a t, s.issued ⊆ t.issued → Safe self.handle (discipline self) Q (f a).run t) :
    Safe self.handle (discipline self) Q (p >>= f).run s := by
  refine Safe.bindExcept (((safe_any p.run s).reaches discipline_sound).mono ?_)
  intro r t ht
  cases r with
  | ok a => exact hf a t ht.1
  | error e => exact herror e t

theorem mintToken_signed (userId : Uuid) (username role : String) :
    Safe self.handle (discipline self) (fun r t => ∀ token, r = .ok token → Signed self t token)
      (mintToken userId username role).run s := by
  refine Safe.observeBind ?_
  intro t _ _
  refine ⟨trivial, fun c _ => ?_⟩
  intro t' _ _
  refine ⟨trivial, fun c' _ => ?_⟩
  rw [safe_ret]
  intro token hok
  obtain ⟨rfl, hmem⟩ := encodeToken_ok hok
  exact ⟨hmem, new_lifetime _ _ _ _⟩

/-- A body that mints a token and returns it last. -/
theorem mintThen_signed {β : Type} {Q : Result β → self.State → Prop} (userId : Uuid)
    (username role : String) {f : Jwt → Method β} (herror : ∀ e t, Q (.error e) t)
    (hf : ∀ token t, Signed self t token → Safe self.handle (discipline self) Q (f token).run t) :
    Safe self.handle (discipline self) Q (mintToken userId username role >>= f).run s := by
  refine Safe.bindExcept ((mintToken_signed userId username role).mono ?_)
  intro r t hr
  cases r with
  | ok token => exact hf token t (hr token rfl)
  | error e => exact herror e t

variable (self) in
/-- What a call returns reports the configured lifetime. -/
def Reports (call : Call) (r : Result call.Value) (w : self.State) : Prop :=
  Configured self (.ret ⟨call, r⟩) w

theorem reports_error (call : Call) (e : ApiError) (w : self.State) :
    Reports self call (.error e) w := by
  intro token expiresIn h
  cases h

theorem successfulLogin_reports (username password : String) (identifier : String) (user : User) :
    Safe self.handle (discipline self) (Reports self (.login username password))
      (self.successfulLogin identifier user).run s := by
  refine safe_then _ (reports_error _) ?_
  intro _ t _
  refine mintThen_signed _ _ _ (reports_error _) ?_
  intro token t₁ hsigned
  refine safe_then _ (reports_error _) ?_
  intro _ t₂ hsub
  rintro _ _ ⟨⟩
  exact ⟨rfl, hsigned.mono hsub⟩

/-- A refused login returns no session. -/
theorem failedLogin_reports (username password : String) (identifier : String) :
    Safe self.handle (discipline self) (Reports self (.login username password))
      (failedLogin identifier).run s := by
  refine safe_then _ (reports_error _) ?_
  intro counted t _
  refine safe_then _ (reports_error _) ?_
  intro _ t₁ _
  split
  · refine safe_then _ (reports_error _) (fun _ t₂ _ => ?_)
    refine safe_then _ (reports_error _) (fun _ t₃ _ => ?_)
    exact safe_then _ (reports_error _) (fun _ t₄ _ => reports_error _ _ _)
  · exact reports_error _ _ _

theorem login_reports (username password : String) :
    Safe self.handle (discipline self) (Reports self (.login username password))
      (self.login username password).run s := by
  refine safe_then _ (reports_error _) ?_
  intro locked t _
  split
  · exact safe_then _ (reports_error _) (fun _ t₁ _ => reports_error _ _ _)
  · refine safe_then _ (reports_error _) (fun user t₁ _ => ?_)
    refine safe_then _ (reports_error _) (fun isValid t₂ _ => ?_)
    split
    · exact successfulLogin_reports _ _ _ _
    · exact failedLogin_reports _ _ _

theorem refreshToken_reports (token : Jwt) :
    Safe self.handle (discipline self) (Reports self (.refreshToken token))
      (self.refreshToken token).run s := by
  refine safe_then _ (reports_error _) ?_
  intro claims t _
  refine mintThen_signed _ _ _ (reports_error _) ?_
  intro fresh t₁ hsigned
  rintro _ _ ⟨⟩
  exact ⟨rfl, hsigned⟩

theorem verifyEmail_reports (token : String) :
    Safe self.handle (discipline self) (Reports self (.verifyEmail token))
      (self.verifyEmail token).run s := by
  refine safe_then _ (reports_error _) (fun email t _ => ?_)
  refine safe_then _ (reports_error _) (fun activated t₁ _ => ?_)
  cases activated with
  | none => exact reports_error _ _ _
  | some activated =>
    refine safe_then _ (reports_error _) (fun user t₂ _ => ?_)
    refine mintThen_signed _ _ _ (reports_error _) ?_
    intro fresh t₃ hsigned
    refine safe_then _ (reports_error _) (fun _ t₄ hsub => ?_)
    refine safe_then _ (reports_error _) (fun _ t₅ hsub' => ?_)
    refine safe_then _ (reports_error _) (fun _ t₆ hsub'' => ?_)
    rintro _ _ ⟨⟩
    exact ⟨rfl, ((hsigned.mono hsub).mono hsub').mono hsub''⟩

/-- Every call reports the configured lifetime for the token that it returns. -/
theorem program_configured (call : Call) :
    Safe self.handle (discipline self) (fun r t => Configured self (.ret r) t)
      (self.program call) s := by
  refine Safe.bind ?_
  have hreports : Safe self.handle (discipline self) (Reports self call) (self.method call).run s := by
    cases call with
    | login username password => exact login_reports username password
    | verifyEmail token => exact verifyEmail_reports token
    | refreshToken token => exact refreshToken_reports token
    | _ =>
      -- no other call returns a session
      refine (safe_any _ s).mono ?_
      intro r t _ token expiresIn h
      cases r <;> cases h
  exact hreports

end Programs

/-- In every interleaving a returned session is configured. -/
theorem reach_configured {w : self.State} {ps : List (Program Returned)}
    (h : Reach self.handle (Launched self) (fun _ _ _ => True) (fun _ => True) w ps)
    {p : Program Returned} (hp : p ∈ ps) : Configured self p w := by
  have hsafe := Reach.safe discipline_sound (fun r s t hr hsub token expiresIn ho =>
      ⟨(hr token expiresIn ho).1, (hr token expiresIn ho).2.mono hsub⟩)
    (fun _ _ => trivial)
    (fun s p _ hlaunched => hlaunched.elim fun call he => he ▸ program_configured call) h
  cases p with
  | ret r => exact hsafe.2 _ hp
  | eff o k =>
    intro token expiresIn ho
    cases ho

theorem later_issued {w t : self.State} {ps qs : List (Program Returned)}
    (h : Later self.handle (Launched self) (fun _ _ _ => True) w ps t qs) :
    w.issued ⊆ t.issued := by
  induction h with
  | refl => exact List.Subset.refl _
  | start _ _ ih => exact ih
  | step _ _ _ ih => exact List.Subset.trans ih (issued_subset _ _ _)

/-- Whatever calls run together, the session that one of them returns is reported truthfully
exactly when the service is configured with the lifetime of 24 hours. -/
theorem lifetime_truthful_iff {w : self.State} {ps : List (Program Returned)}
    (h : Reach self.handle (Launched self) (fun _ _ _ => True) (fun _ => True) w ps)
    {token : Jwt} {expiresIn : ℤ} (hopened : ∃ p ∈ ps, opened p = some (token, expiresIn)) :
    Truthful self w ps token expiresIn ↔ self.config.jwtExpiration = 86400 := by
  obtain ⟨p, hp, ho⟩ := hopened
  obtain ⟨rfl, hissued, hexp⟩ := reach_configured h hp token expiresIn ho
  constructor
  · rintro ⟨hlifetime, -⟩
    omega
  · intro hconfig
    refine ⟨by omega, ?_⟩
    intro t qs hlater hnow
    apply decodeToken_signed (later_issued hlater hissued)
    omega

section Alice

/-- Alice registers and verifies her email, one call after the other. -/
def signUp (self : AuthService) : self.State × List (Program Returned) :=
  schedule self.handle
    (World.empty _, [self.program registerAlice.call, self.program verifyAlice.call])
    [(0, {}), (0, { uuid := ⟨1⟩ }), (0, { uuid := ⟨2⟩ }), (0, {}), (0, {}), (0, {}),
      (1, {}), (1, {}), (1, {}), (1, { keypair := ⟨5⟩ }), (1, {}), (1, { uuid := ⟨4⟩ }), (1, {}),
      (1, {}), (1, {}), (1, {}), (1, {}), (1, {})]

theorem reach_signUp (self : AuthService) : Reach self.handle (Launched self) (fun _ _ _ => True)
    (fun _ => True) (signUp self).1 (signUp self).2 := by
  have hregister : Reach self.handle (Launched self) (fun _ _ _ => True) (fun _ => True)
      (World.empty _) [self.program registerAlice.call] := (Reach.init trivial).start ⟨_, rfl⟩
  have hverify := hregister.start (p := self.program verifyAlice.call) ⟨_, rfl⟩
  exact hverify.schedule _ (Admitted.of_forall (fun _ _ _ => trivial) _ _)

/-- The session of the verification. -/
def aliceSession : Jwt := ⟨Claims.new 0 ⟨1⟩ "alice" "user"⟩

theorem lifetime_truthful_signUp :
    Truthful service (signUp service).1 (signUp service).2 aliceSession 86400 := by
  have hopened : ∃ p ∈ (signUp service).2, opened p = some (aliceSession, 86400) := by
    decide +kernel
  exact (lifetime_truthful_iff (reach_signUp service) hopened).mpr rfl

/-- A service that is configured with a lifetime of one hour. -/
def hourly : AuthService :=
  { service with config := { service.config with jwtExpiration := 3600 } }

/-- Alice is told that her token lives for an hour, while it lives for a day. -/
theorem hourly_report_untruthful : ¬ ∀ (self : AuthService) (w : self.State)
    (ps : List (Program Returned)) (token : Jwt) (expiresIn : ℤ),
      Reach self.handle (Launched self) (fun _ _ _ => True) (fun _ => True) w ps →
      (∃ p ∈ ps, opened p = some (token, expiresIn)) →
      Truthful self w ps token expiresIn := by
  intro h
  have hopened : ∃ p ∈ (signUp hourly).2, opened p = some (aliceSession, 3600) := by
    decide +kernel
  obtain ⟨hlifetime, -⟩ := h hourly _ _ aliceSession 3600 (reach_signUp hourly) hopened
  revert hlifetime
  decide +kernel

end Alice

end IamService.SessionLifetimes
