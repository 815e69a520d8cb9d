import IamService.AccountEnumeration
import IamService.CacheFootprints
import IamService.UserStatements
import IamService.ReferenceStates

/-!
# The cooldown of verification mails

Any number of calls ask for the verification mail of one account. A call checks the gate,
mints a token when none is valid, publishes and only then arms the gate. While no call checks
the gate between the check and the arming of another, mails of these calls lie the whole
cooldown apart; while a token is minted only before a mail and in the absence of other calls,
every mail carries the token that stays stored.
-/

namespace IamService.ResendCooldown
open EffectPrograms ExpiringStore RelationTables UserRepository AuthService AccountEnumeration

abbrev Call := Program (Result ResendVerificationResult)

/-- All operations so far. -/
abbrev History (self : AuthService) := List (Observed Op.Ans self.State)

abbrev Traced (self : AuthService) := self.State × History self

variable (self : AuthService)

section Shape

def cooldownKey (userId : Uuid) : String :=
  CacheKeys.resendVerificationCooldown (self.lib.uuidToString userId)

/-- Arm the gate and return. -/
def arm (userId : Uuid) : Call :=
  .eff (.cache (.setValue (cooldownKey self userId) (.flag true)
    (some resendVerificationCooldownSecs))) (fun _ => .ret (.ok verificationSent))

def mail (state : EmailVerificationState) (email token : String) : Call :=
  .eff (.bus (.publish (.verificationEmailRequested state.userId state.username email token)))
    (fun _ => arm self state.userId)

/-- Store a token that was drawn, and mail it if that succeeds. -/
def store (state : EmailVerificationState) (email : String) (id : Uuid) : Call :=
  .eff (.user (.setVerificationToken state.userId (self.lib.uuidToString id))) fun stored =>
    match stored with
    | .ok _ => mail self state email (self.lib.uuidToString id)
    | .error e => .ret (.error e)

def mint (state : EmailVerificationState) (email : String) : Call :=
  .eff (.host .newUuid) (store self state email)

/-- What follows a gate that is open. -/
def send (state : EmailVerificationState) (email : String) : Call :=
  match state.verificationToken with
  | some token => mail self state email token
  | none => mint self state email

def check (state : EmailVerificationState) (email : String) : Call :=
  .eff (.cache (.exists (cooldownKey self state.userId))) fun cooling =>
    if cooling.toOption.getD false then .ret (.ok verificationSent) else send self state email

/-- What follows the lookup of the account. -/
def found (email : String) : Result (Option EmailVerificationState) → Call
  | .error e => .ret (.error e)
  | .ok none => .ret (.ok verificationSent)
  | .ok (some state) =>
    if state.emailVerified then .ret (.ok verificationSent) else check self state email

theorem send_eq (state : EmailVerificationState) (email : String) :
    (do
      let token ← self.verificationTokenFor state
      let _ ← observe (eventBus (.publish
        (.verificationEmailRequested state.userId state.username email token)))
      let _ ← observe (cacheSet (cooldownKey self state.userId) (.flag true)
        (some resendVerificationCooldownSecs)).run
      return verificationSent : Method ResendVerificationResult).run = send self state email := by
  unfold verificationTokenFor send
  cases state.verificationToken with
  | some token => rfl
  | none =>
    simp only [run_bind', run_observe, run_attempt, host, userRepo, Prog.eff_bind, Prog.ret_bind,
      proceed_ok, mint]
    congr 1
    funext id
    simp only [store]
    congr 1
    funext stored
    cases stored <;> rfl

theorem resendVerification_eq (email : String) : (self.resendVerification email).run =
    .eff (.user (.findVerificationStateByEmail email)) (found self email) := by
  unfold resendVerification
  simp only [run_bind', run_attempt, userRepo, Prog.eff_bind, Prog.ret_bind]
  congr 1
  funext answer
  rcases answer with e | _ | state
  · rfl
  · rfl
  · rw [proceed_ok, found]
    dsimp only
    split
    · rfl
    · simp only [run_bind', run_observe, cache, Prog.eff_bind, Prog.ret_bind, proceed_ok, check]
      congr 1
      funext cooling
      split
      · rfl
      · exact send_eq self state email

end Shape

section Phases

/-- Where a call stands. -/
inductive Phase where
  | fresh (email : String)
  | checking (state : EmailVerificationState) (email : String)
  | minting (state : EmailVerificationState) (email : String)
  | storing (state : EmailVerificationState) (email : String) (id : Uuid)
  | mailing (state : EmailVerificationState) (email token : String)
  | arming (userId : Uuid)
  | done (result : Result ResendVerificationResult)

/-- What a call has still to do. -/
def Phase.rest : Phase → Call
  | .fresh email => .eff (.user (.findVerificationStateByEmail email)) (found self email)
  | .checking state email => check self state email
  | .minting state email => mint self state email
  | .storing state email id => store self state email id
  | .mailing state email token => mail self state email token
  | .arming userId => arm self userId
  | .done result => .ret result

/-- The gate was open for the call, which has not armed it. -/
def Phase.inside : Phase → Bool
  | .minting _ _ => true
  | .storing _ _ _ => true
  | .mailing _ _ _ => true
  | .arming _ => true
  | _ => false

/-- The token that the call has read or stored, and may still mail. -/
def Phase.token : Phase → Option String
  | .checking state _ => state.verificationToken
  | .mailing _ _ token => some token
  | _ => none

end Phases

section Conditions

/-- The call has passed the gate and has not armed it. -/
def inside : Call → Bool
  | .eff (.host .newUuid) _ => true
  | .eff (.user (.setVerificationToken _ _)) _ => true
  | .eff (.bus _) _ => true
  | .eff (.cache (.setValue _ _ _)) _ => true
  | _ => false

def returned : Call → Bool
  | .ret _ => true
  | _ => false

def publishes : Call → Bool
  | .eff (.bus _) _ => true
  | _ => false

/-- The call publishes a token it has in hand, at once or when it finds the gate open. -/
def carries : Call → Bool
  | .eff (.cache (.exists _)) k => publishes (k (.ok false))
  | p => publishes p

theorem inside_rest (ph : Phase) : inside (ph.rest self) = ph.inside := by
  cases ph <;> rfl

theorem carries_rest (ph : Phase) : carries (ph.rest self) = ph.token.isSome := by
  cases ph with
  | checking state email =>
    have hsend : carries (check self state email) = publishes (send self state email) := rfl
    rw [Phase.rest, hsend, send, Phase.token]
    cases state.verificationToken <;> rfl
  | _ => rfl

/-- The mail that an operation has sent: its instant and its token. -/
def sent : Observed Op.Ans self.State → Option (ℕ × String)
  | ⟨_, .bus (.publish (.verificationEmailRequested _ _ _ token)), .ok _, w⟩ => some (w.now, token)
  | _ => none

def mails (h : History self) : List (ℕ × String) := h.filterMap (sent self)

/-- No other call of the pool meets `P`. -/
def NoOther (P : Call → Bool) (ps : List Call) (i : ℕ) : Prop :=
  ∀ n < ps.length, n ≠ i → (ps[n]?).any P = false

instance (P : Call → Bool) (ps : List Call) (i : ℕ) : Decidable (NoOther P ps i) :=
  inferInstanceAs (Decidable (∀ n < ps.length, n ≠ i → (ps[n]?).any P = false))

/-- The cache does not fail; the gate is checked while no other call is between its own check
and its arming; a token is stored before any mail, while no other call carries a token. -/
def Apart (x : Traced self × List Call) (j : ℕ × Choice) : Prop :=
  match x.2[j.1]? with
  | some (.eff (.cache (.exists _)) _) => j.2.fails = false ∧ NoOther inside x.2 j.1
  | some (.eff (.cache _) _) => j.2.fails = false
  | some (.eff (.user (.setVerificationToken _ _)) _) =>
    j.2.fails = false → mails self x.1.2 = [] ∧ NoOther carries x.2 j.1
  | _ => True

instance (x : Traced self × List Call) (j : ℕ × Choice) : Decidable (Apart self x j) := by
  unfold Apart
  split <;> infer_instance

/-- The account holds the token. -/
def Stored (w : self.State) (userId : Uuid) (token : String) : Prop :=
  ∃ row ∈ w.db.users, row.id = userId ∧ row.emailVerificationToken = some token

instance (w : self.State) (userId : Uuid) (token : String) : Decidable (Stored self w userId token) :=
  inferInstanceAs (Decidable (∃ row ∈ w.db.users,
    row.id = userId ∧ row.emailVerificationToken = some token))

/-- One call for each of the addresses. -/
def calls (emails : List String) : List Call :=
  emails.map (fun email => (self.resendVerification email).run)

end Conditions

section Invariant

variable {auth : AuthService} (userId : Uuid) (s : Traced auth)

/-- How long the gate stays closed. -/
def cooldown : ℕ := secs resendVerificationCooldownSecs

/-- The last mail is a whole cooldown ago. -/
def Cooled : Prop := ∀ m ∈ mails auth s.2, m.1 + cooldown ≤ s.1.now

/-- The gate stays closed for a whole cooldown after each mail. -/
def Guarded : Prop :=
  ∀ m ∈ mails auth s.2, ∀ t, s.1.now ≤ t → t < m.1 + cooldown →
    (s.1.cache.entry t (cooldownKey auth userId)).isSome = true

/-- The mails so far lie apart and carry the token that is stored. -/
structure Sent : Prop where
  past : ∀ m ∈ mails auth s.2, m.1 ≤ s.1.now
  spaced : (mails auth s.2).Pairwise (fun m n => m.1 + cooldown ≤ n.1)
  agreed : ∀ m ∈ mails auth s.2, Stored auth s.1 userId m.2

/-- What is known of a call in its phase. -/
def Phase.Valid : Phase → Prop
  | .fresh email => ∀ a ∈ s.1.db.users.map (fun r => (r.id, r.email)),
    auth.lib.pgLower a.2 = auth.lib.pgLower email → a.1 = userId
  | .checking state _ => state.userId = userId ∧
    ∀ token, state.verificationToken = some token → Stored auth s.1 userId token
  | .minting state _ => state.userId = userId ∧ Cooled s
  | .storing state _ _ => state.userId = userId ∧ Cooled s
  | .mailing state _ token => state.userId = userId ∧ Cooled s ∧ Stored auth s.1 userId token
  | .arming id => id = userId
  | .done _ => True

/-- At most one call is between its check and its arming, and while there is none the gate
is closed after each mail. -/
structure Orderly (phases : List Phase) : Prop where
  present : userId ∈ s.1.db.users.map (·.id)
  valid : ∀ ph ∈ phases, ph.Valid userId s
  alone : ∀ i j : ℕ, (phases[i]?).any Phase.inside = true →
    (phases[j]?).any Phase.inside = true → i = j
  sent : Sent userId s
  guarded : (∀ ph ∈ phases, ph.inside = false) → Guarded userId s

end Invariant

section Steps

variable {self} {userId : Uuid} {s s' : Traced self}

/-- A step that neither mails nor writes the gate or the users. -/
structure Quiet {auth : AuthService} (userId : Uuid) (s s' : Traced auth) : Prop where
  db : s'.1.db = s.1.db
  cache : s'.1.cache (cooldownKey auth userId) = s.1.cache (cooldownKey auth userId)
  now : s.1.now ≤ s'.1.now
  mails : mails auth s'.2 = mails auth s.2

theorem Quiet.cooled (h : Quiet userId s s') (hs : Cooled s) : Cooled s' := by
  intro m hm
  rw [h.mails] at hm
  exact (hs m hm).trans h.now

theorem Quiet.stored (h : Quiet userId s s') {token : String} (hs : Stored self s.1 userId token) :
    Stored self s'.1 userId token := by
  unfold Stored
  rw [h.db]
  exact hs

theorem Quiet.valid (h : Quiet userId s s') {ph : Phase} (hs : ph.Valid userId s) :
    ph.Valid userId s' := by
  cases ph with
  | fresh email =>
    unfold Phase.Valid
    rw [h.db]
    exact hs
  | checking state email => exact ⟨hs.1, fun token ht => h.stored (hs.2 token ht)⟩
  | minting state email => exact ⟨hs.1, h.cooled hs.2⟩
  | storing state email id => exact ⟨hs.1, h.cooled hs.2⟩
  | mailing state email token => exact ⟨hs.1, h.cooled hs.2.1, h.stored hs.2.2⟩
  | arming id => exact hs
  | done r => trivial

/-- Of a call that is not inside, only the users matter. -/
theorem Phase.Valid.outside {ph : Phase} (hs : ph.Valid userId s) (hout : ph.inside = false)
    (hdb : s'.1.db = s.1.db) : ph.Valid userId s' := by
  cases ph with
  | fresh email =>
    unfold Phase.Valid
    rw [hdb]
    exact hs
  | checking state email =>
    unfold Phase.Valid Stored
    rw [hdb]
    exact hs
  | done r => trivial
  | minting state email => cases hout
  | storing state email id => cases hout
  | mailing state email token => cases hout
  | arming id => cases hout

theorem Quiet.sent (h : Quiet userId s s') (hs : Sent userId s) : Sent userId s' where
  past := by
    intro m hm
    rw [h.mails] at hm
    exact (hs.past m hm).trans h.now
  spaced := by
    rw [h.mails]
    exact hs.spaced
  agreed := by
    intro m hm
    rw [h.mails] at hm
    exact h.stored (hs.agreed m hm)

theorem Quiet.guarded (h : Quiet userId s s') (hs : Guarded userId s) :
    Guarded userId s' := by
  intro m hm t hnow ht
  rw [h.mails] at hm
  rw [Store.entry_congr h.cache]
  exact hs m hm t (h.now.trans hnow) ht

/-- Before the first mail nothing is asked of the mails. -/
theorem sent_of_none (h : mails self s.2 = []) : Sent userId s ∧ Cooled s := by
  have hnone : ∀ m, m ∉ mails self s.2 := by
    intro m hm
    rw [h] at hm
    cases hm
  exact ⟨⟨fun m hm => absurd hm (hnone m), h ▸ List.Pairwise.nil, fun m hm => absurd hm (hnone m)⟩,
    fun m hm => absurd hm (hnone m)⟩

/-- Before the next mail nothing has to be guarded. -/
theorem Cooled.guarded (h : Cooled s) : Guarded userId s := by
  intro m hm t hnow ht
  have hold := h m hm
  omega

variable {phases : List Phase} {i : ℕ} {ph ph' : Phase}

/-- Replacing the phase of one call. -/
theorem Orderly.set (h : Orderly userId s phases)
    (hpresent : userId ∈ s'.1.db.users.map (·.id))
    (hothers : ∀ n q, n ≠ i → phases[n]? = some q → q.Valid userId s')
    (hvalid : ph'.Valid userId s')
    (halone : ph'.inside = true → ∀ n q, n ≠ i → phases[n]? = some q → q.inside = false)
    (hsent : Sent userId s')
    (hguarded : (∀ n q, n ≠ i → phases[n]? = some q → q.inside = false) → ph'.inside = false →
      Guarded userId s') (hi : phases[i]? = some ph) :
    Orderly userId s' (phases.set i ph') := by
  have hlt : i < phases.length := (List.getElem?_eq_some_iff.mp hi).1
  have hself : (phases.set i ph')[i]? = some ph' := List.getElem?_set_self hlt
  have hother : ∀ n, n ≠ i → (phases.set i ph')[n]? = phases[n]? :=
    fun n hn => List.getElem?_set_ne (Ne.symm hn)
  refine ⟨hpresent, ?_, ?_, hsent, ?_⟩
  · intro q hq
    obtain ⟨n, hn⟩ := List.getElem?_of_mem hq
    by_cases hni : n = i
    · subst hni
      rw [hself] at hn
      cases hn
      exact hvalid
    · rw [hother n hni] at hn
      exact hothers n q hni hn
  · -- two calls inside would be the replaced one and another, or two others
    have hout : ∀ n, n ≠ i → ph'.inside = true → (phases[n]?).any Phase.inside = false := by
      intro n hn hin
      cases hq : phases[n]? with
      | none => rfl
      | some q => exact halone hin n q hn hq
    intro m n hm hn
    by_cases hmi : m = i <;> by_cases hni : n = i
    · rw [hmi, hni]
    · rw [hmi, hself] at hm
      rw [hother n hni, hout n hni hm] at hn
      cases hn
    · rw [hni, hself] at hn
      rw [hother m hmi, hout m hmi hn] at hm
      cases hm
    · rw [hother m hmi] at hm
      rw [hother n hni] at hn
      exact h.alone m n hm hn
  · intro hnone
    refine hguarded ?_ (hnone ph' (List.mem_of_getElem? hself))
    intro n q hn hq
    rw [← hother n hn] at hq
    exact hnone q (List.mem_of_getElem? hq)

/-- While a call is between its check and its arming, no other one is. -/
theorem Orderly.others (h : Orderly userId s phases) (hi : phases[i]? = some ph)
    (hin : ph.inside = true) : ∀ n q, n ≠ i → phases[n]? = some q → q.inside = false := by
  intro n q hn hq
  cases hout : q.inside with
  | false => rfl
  | true => exact absurd (h.alone n i (by simp [hq, hout]) (by simp [hi, hin])) hn

/-- A quiet step of one call. -/
theorem Orderly.quiet (h : Orderly userId s phases) (hq : Quiet userId s s')
    (hi : phases[i]? = some ph) (hvalid : ph'.Valid userId s')
    (halone : ph'.inside = true → ∀ n q, n ≠ i → phases[n]? = some q → q.inside = false)
    (hleft : ph.inside = true → ph'.inside = false → Cooled s) :
    Orderly userId s' (phases.set i ph') := by
  refine h.set (hq.db ▸ h.present) ?_ hvalid halone (hq.sent h.sent) ?_ hi
  · intro n q _ hn
    exact hq.valid (h.valid q (List.mem_of_getElem? hn))
  · intro hothers hout
    cases hin : ph.inside with
    | true => exact (hq.cooled (hleft hin hout)).guarded
    | false =>
      refine hq.guarded (h.guarded ?_)
      intro q hmem
      obtain ⟨n, hn⟩ := List.getElem?_of_mem hmem
      by_cases hni : n = i
      · subst hni
        rw [hi] at hn
        cases hn
        exact hin
      · exact hothers n q hni hn

theorem mails_recorded (c : Choice) (s : Traced self) (o : Op) :
    mails self (recorded self.handle c s o).2.2 = mails self s.2 ++
      (sent self ⟨s.1, o, (self.handle c s.1 o).1, (self.handle c s.1 o).2⟩).toList := by
  rw [recorded_history, mails, List.filterMap_append]
  cases hsent : sent self ⟨s.1, o, (self.handle c s.1 o).1, (self.handle c s.1 o).2⟩ <;>
    simp [mails, hsent]

/-- An operation that answers a question is quiet. -/
theorem quiet_handle {c : Choice} {s : Traced self} {o : Op}
    (hdb : (self.handle c s.1 o).2.db = s.1.db)
    (hkey : o.writtenKey ≠ some (cooldownKey self userId))
    (hsent : sent self ⟨s.1, o, (self.handle c s.1 o).1, (self.handle c s.1 o).2⟩ = none) :
    Quiet userId s (recorded self.handle c s o).2 where
  db := hdb
  cache := self.handle_cache_of_key hkey c s.1
  now := self.now_handle c s.1 o
  mails := by
    rw [mails_recorded, hsent]
    exact List.append_nil _

/-- The next phase of a call, with the state after its operation. -/
def Follows (phases : List Phase) (i : ℕ) (userId : Uuid) (s' : Traced self) (p : Call) : Prop :=
  ∃ ph : Phase, p = ph.rest self ∧ Orderly userId s' (phases.set i ph)

variable (h : Orderly userId s phases) (c : Choice)

include h

theorem fresh_step {email : String} (hi : phases[i]? = some (.fresh email)) :
    Follows phases i userId
      (recorded self.handle c s (.user (.findVerificationStateByEmail email))).2
      (found self email (self.handle c s.1 (.user (.findVerificationStateByEmail email))).1) := by
  have hquiet : Quiet userId s
      (recorded self.handle c s (.user (.findVerificationStateByEmail email))).2 :=
    quiet_handle rfl (by simp) rfl
  have howner := h.valid _ (List.mem_of_getElem? hi)
  have hnext : ∀ ph', ph'.Valid userId s → ph'.inside = false → Orderly userId
      (recorded self.handle c s (.user (.findVerificationStateByEmail email))).2
      (phases.set i ph') := by
    intro ph' hvalid hout
    refine h.quiet hquiet hi (hquiet.valid hvalid) ?_ (fun hin => absurd hin Bool.false_ne_true)
    intro hin
    rw [hout] at hin
    cases hin
  rw [handle_user]
  dsimp only [UserRepository.handle, select]
  split
  · exact ⟨.done _, rfl, hnext _ trivial rfl⟩
  · split
    · cases hrow : limitOne c.pick (addressed self.lib.pgLower email) s.1.db.users with
      | none =>
        simp only [findVerificationStateByEmail, hrow, Option.map_none]
        exact ⟨.done _, rfl, hnext _ trivial rfl⟩
      | some row =>
        simp only [findVerificationStateByEmail, hrow, Option.map_some, found]
        obtain ⟨hmem, haddressed⟩ := limitOne_some hrow
        have hid : row.id = userId :=
          howner _ (List.mem_map_of_mem hmem) (of_decide_eq_true haddressed)
        split
        · exact ⟨.done _, rfl, hnext _ trivial rfl⟩
        · refine ⟨.checking _ email, rfl, hnext _ ⟨hid, ?_⟩ rfl⟩
          intro token htoken
          dsimp only at htoken
          split at htoken
          · exact ⟨row, hmem, hid, htoken⟩
          · cases htoken
    · exact ⟨.done _, rfl, hnext _ trivial rfl⟩

theorem checking_step {state : EmailVerificationState} {email : String}
    (hi : phases[i]? = some (.checking state email)) (hc : c.fails = false)
    (hothers : ∀ n q, n ≠ i → phases[n]? = some q → q.inside = false) :
    Follows phases i userId
      (recorded self.handle c s (.cache (.exists (cooldownKey self state.userId)))).2
      (if (self.handle c s.1 (.cache (.exists (cooldownKey self state.userId)))).1.toOption.getD false
        then .ret (.ok verificationSent) else send self state email) := by
  have hquiet : Quiet userId s
      (recorded self.handle c s (.cache (.exists (cooldownKey self state.userId)))).2 :=
    quiet_handle rfl (by simp) rfl
  obtain ⟨hid, htoken⟩ := h.valid _ (List.mem_of_getElem? hi)
  split
  · exact ⟨.done _, rfl, h.quiet hquiet hi trivial (fun hin => absurd hin Bool.false_ne_true)
      (fun hin => absurd hin Bool.false_ne_true)⟩
  · rename_i hopen
    have hnone : ∀ q ∈ phases, q.inside = false := by
      intro q hq
      obtain ⟨n, hn⟩ := List.getElem?_of_mem hq
      by_cases hni : n = i
      · subst hni
        rw [hi] at hn
        cases hn
        rfl
      · exact hothers n q hni hn
    have hcooled : Cooled
        (recorded self.handle c s (.cache (.exists (cooldownKey self state.userId)))).2 := by
      intro m hm
      rw [hquiet.mails] at hm
      by_contra hlt
      have hclosed := h.guarded hnone m hm (s.1.now + c.elapsed) (Nat.le_add_right _ _)
        (Nat.lt_of_not_le hlt)
      apply hopen
      rw [handle_cache]
      simp only [CacheService.handle, hc, World.evolve_now, hid]
      exact hclosed
    have hnext : ∀ ph', ph'.Valid userId
        (recorded self.handle c s (.cache (.exists (cooldownKey self state.userId)))).2 →
        Orderly userId
          (recorded self.handle c s (.cache (.exists (cooldownKey self state.userId)))).2
          (phases.set i ph') := by
      intro ph' hvalid
      exact h.quiet hquiet hi hvalid (fun _ => hothers) (fun hin => absurd hin Bool.false_ne_true)
    unfold send
    cases hstate : state.verificationToken with
    | some token =>
      exact ⟨.mailing state email token, rfl,
        hnext _ ⟨hid, hcooled, hquiet.stored (htoken token hstate)⟩⟩
    | none => exact ⟨.minting state email, rfl, hnext _ ⟨hid, hcooled⟩⟩

theorem minting_step {state : EmailVerificationState} {email : String}
    (hi : phases[i]? = some (.minting state email)) :
    Follows phases i userId (recorded self.handle c s (.host .newUuid)).2
      (store self state email (self.handle c s.1 (.host .newUuid)).1) := by
  have hquiet : Quiet userId s (recorded self.handle c s (.host .newUuid)).2 :=
    quiet_handle rfl (by simp) rfl
  obtain ⟨hid, hcooled⟩ := h.valid _ (List.mem_of_getElem? hi)
  exact ⟨.storing state email _, rfl, h.quiet hquiet hi ⟨hid, hquiet.cooled hcooled⟩
    (fun _ => h.others hi rfl) (fun _ hout => absurd hout.symm Bool.false_ne_true)⟩

omit h in
/-- The row of the account after its token has been stored, and the columns that stay. -/
theorem stored_after {w : self.State} {c : Choice} {token : String}
    (hpresent : userId ∈ w.db.users.map (·.id)) (hfit : fit 128 token = .ok token)
    (hok : (self.handle c w (.user (.setVerificationToken userId token))).1 = .ok ()) :
    (∃ row ∈ (self.handle c w (.user (.setVerificationToken userId token))).2.db.users,
      row.id = userId ∧ row.emailVerificationToken = some token ∧
      row.emailVerificationExpiresAt = some (w.now + c.elapsed + secs (24 * 3600))) ∧
      (self.handle c w (.user (.setVerificationToken userId token))).2.db.users.map
        (fun r => (r.id, r.email)) = w.db.users.map (fun r => (r.id, r.email)) := by
  rw [handle_user] at hok ⊢
  simp only [UserRepository.handle] at hok ⊢
  rcases setVerificationToken_cases c (w.evolve c).now w.db userId token with
    ⟨e, he⟩ | ⟨text, db', htext, he, -, husers⟩
  · rw [he] at hok
    cases hok
  · cases hfit.symm.trans htext
    rw [he]
    obtain ⟨row, hrow, hid⟩ := List.mem_map.mp hpresent
    refine ⟨⟨_, husers ▸ mem_updateWhere.mpr ⟨row, hrow, rfl⟩, ?_⟩, ?_⟩
    · simp [hid]
    · rw [husers]
      exact map_updateWhere _ _ (fun _ => rfl)

/-- A call that stores a token before any mail, while no other call carries one. -/
theorem storing_step {state : EmailVerificationState} {email : String} {id : Uuid}
    (hi : phases[i]? = some (.storing state email id)) (huuid : UuidText self.lib)
    (hc : c.fails = false → mails self s.2 = [] ∧
      ∀ n q, n ≠ i → phases[n]? = some q → q.token = none) :
    Follows phases i userId
      (recorded self.handle c s
        (.user (.setVerificationToken state.userId (self.lib.uuidToString id)))).2
      (match (self.handle c s.1
          (.user (.setVerificationToken state.userId (self.lib.uuidToString id)))).1 with
        | .ok _ => mail self state email (self.lib.uuidToString id)
        | .error e => .ret (.error e)) := by
  obtain ⟨hid, hcooled⟩ := h.valid _ (List.mem_of_getElem? hi)
  have hothers := h.others hi rfl
  cases hanswer : (self.handle c s.1
      (.user (.setVerificationToken state.userId (self.lib.uuidToString id)))).1 with
  | error e =>
    have hdb : (self.handle c s.1
        (.user (.setVerificationToken state.userId (self.lib.uuidToString id)))).2.db = s.1.db :=
      execute_error hanswer
    exact ⟨.done _, rfl, h.quiet (quiet_handle hdb (by simp) rfl) hi trivial
      (fun hin => absurd hin Bool.false_ne_true) (fun _ _ => hcooled)⟩
  | ok a =>
    obtain ⟨hnone, hfree⟩ := hc (execute_available hanswer).1
    have hfit : fit 128 (self.lib.uuidToString id) = .ok (self.lib.uuidToString id) :=
      fit_of_le ((huuid.length id).trans (by decide))
    rw [hid] at hanswer ⊢
    obtain ⟨⟨row, hrow, hrowid, hrowtoken, -⟩, hcolumns⟩ := stored_after h.present hfit hanswer
    have hstored : Stored self (self.handle c s.1
        (.user (.setVerificationToken userId (self.lib.uuidToString id)))).2 userId
        (self.lib.uuidToString id) := ⟨row, hrow, hrowid, hrowtoken⟩
    have hmails : mails self (recorded self.handle c s
        (.user (.setVerificationToken userId (self.lib.uuidToString id)))).2.2 = [] := by
      rw [mails_recorded, hnone]
      rfl
    obtain ⟨hsent, hcooled'⟩ := @sent_of_none self userId _ hmails
    refine ⟨.mailing state email _, rfl, h.set ?_ ?_ ⟨hid, hcooled', hstored⟩ (fun _ => hothers)
      hsent (fun _ _ => hcooled'.guarded) hi⟩
    · have hids := congrArg (List.map Prod.fst) hcolumns
      simp only [List.map_map] at hids
      exact hids ▸ h.present
    · intro n q hn hq
      have hvalid := h.valid q (List.mem_of_getElem? hq)
      have hout := hothers n q hn hq
      have htoken := hfree n q hn hq
      cases q with
      | fresh email' =>
        unfold Phase.Valid
        rw [recorded_state, hcolumns]
        exact hvalid
      | checking state' email' =>
        refine ⟨hvalid.1, ?_⟩
        intro token ht
        cases htoken.symm.trans ht
      | arming id' => exact hvalid
      | done r => trivial
      | minting state' email' => cases hout
      | storing state' email' id' => cases hout
      | mailing state' email' token => cases hout

/-- A mail, sent or lost. -/
theorem mailing_step {state : EmailVerificationState} {email token : String}
    (hi : phases[i]? = some (.mailing state email token)) :
    Follows phases i userId
      (recorded self.handle c s (.bus (.publish
        (.verificationEmailRequested state.userId state.username email token)))).2
      (arm self state.userId) := by
  obtain ⟨hid, hcooled, hstored⟩ := h.valid _ (List.mem_of_getElem? hi)
  have hothers := h.others hi rfl
  have hnow := self.now_handle c s.1 (.bus (.publish
    (.verificationEmailRequested state.userId state.username email token)))
  refine ⟨.arming state.userId, rfl, ?_⟩
  cases hfails : c.fails with
  | true =>
    have hlost : sent self ⟨s.1, .bus (.publish
        (.verificationEmailRequested state.userId state.username email token)),
        (self.handle c s.1 (.bus (.publish
          (.verificationEmailRequested state.userId state.username email token)))).1,
        (self.handle c s.1 (.bus (.publish
          (.verificationEmailRequested state.userId state.username email token)))).2⟩ = none := by
      simp [handle_bus, busHandle, hfails, sent]
    exact h.quiet (quiet_handle rfl (by simp) hlost) hi hid (fun _ => hothers)
      (fun _ hout => absurd hout.symm Bool.false_ne_true)
  | false =>
    have hmails : mails self (recorded self.handle c s (.bus (.publish
        (.verificationEmailRequested state.userId state.username email token)))).2.2 =
        mails self s.2 ++ [((s.1.evolve c).now, token)] := by
      rw [mails_recorded]
      simp [handle_bus, busHandle, hfails, sent]
    refine h.set h.present ?_ hid (fun _ => hothers) ?_
      (fun _ hout => absurd hout.symm Bool.false_ne_true) hi
    · intro n q hn hq
      exact Phase.Valid.outside (h.valid q (List.mem_of_getElem? hq)) (hothers n q hn hq) rfl
    · refine ⟨?_, ?_, ?_⟩ <;> rw [hmails]
      · intro m hm
        rcases List.mem_append.mp hm with hm | hm
        · exact (h.sent.past m hm).trans hnow
        · rw [List.mem_singleton.mp hm]
          exact Nat.le_refl _
      · refine List.pairwise_append.mpr ⟨h.sent.spaced, List.pairwise_singleton _ _, ?_⟩
        intro m hm n hn
        rw [List.mem_singleton.mp hn]
        exact (hcooled m hm).trans hnow
      · intro m hm
        rcases List.mem_append.mp hm with hm | hm
        · exact h.sent.agreed m hm
        · rw [List.mem_singleton.mp hm]
          exact hstored

theorem arming_step {id : Uuid} (hi : phases[i]? = some (.arming id)) (hc : c.fails = false) :
    Follows phases i userId
      (recorded self.handle c s (.cache (.setValue (cooldownKey self id) (.flag true)
        (some resendVerificationCooldownSecs)))).2 (.ret (.ok verificationSent)) := by
  have hid : id = userId := h.valid _ (List.mem_of_getElem? hi)
  subst hid
  have hothers := h.others hi rfl
  have hnow := self.now_handle c s.1 (.cache (.setValue (cooldownKey self id) (.flag true)
    (some resendVerificationCooldownSecs)))
  have hmails : mails self (recorded self.handle c s (.cache (.setValue (cooldownKey self id)
      (.flag true) (some resendVerificationCooldownSecs)))).2.2 = mails self s.2 := by
    rw [mails_recorded]
    exact List.append_nil _
  have hcache : (self.handle c s.1 (.cache (.setValue (cooldownKey self id) (.flag true)
      (some resendVerificationCooldownSecs)))).2.cache = s.1.cache.put (cooldownKey self id)
        (.flag true) (some ((s.1.evolve c).now + cooldown)) := by
    rw [handle_cache]
    simp [CacheService.handle, hc, resendVerificationCooldownSecs, cooldown]
  refine ⟨.done _, rfl,
    h.set h.present ?_ trivial (fun hin => absurd hin Bool.false_ne_true) ?_ ?_ hi⟩
  · intro n q hn hq
    exact Phase.Valid.outside (h.valid q (List.mem_of_getElem? hq)) (hothers n q hn hq) rfl
  · refine ⟨?_, ?_, ?_⟩ <;> rw [hmails]
    · intro m hm
      exact (h.sent.past m hm).trans hnow
    · exact h.sent.spaced
    · exact h.sent.agreed
  · intro _ _ m hm t hnow' ht
    rw [hmails] at hm
    have hpast := h.sent.past m hm
    have hle : s.1.now ≤ (s.1.evolve c).now := Nat.le_add_right _ _
    have hvisible : (⟨.flag true, some ((s.1.evolve c).now + cooldown)⟩ :
        Entry CacheValue).visible t = true := decide_eq_true (by omega)
    rw [recorded_state, hcache, Store.entry_put_same hvisible]
    rfl

omit h in
/-- No other call of the pool, so none of the other phases. -/
theorem noOther_phase {P : Call → Bool} {Q : Phase → Bool} (hPQ : ∀ ph, P (ph.rest self) = Q ph)
    (hno : NoOther P (phases.map (Phase.rest self)) i) :
    ∀ n q, n ≠ i → phases[n]? = some q → Q q = false := by
  intro n q hn hq
  have hlt : n < (phases.map (Phase.rest self)).length := by
    rw [List.length_map]
    exact (List.getElem?_eq_some_iff.mp hq).1
  have hfalse := hno n hlt hn
  rw [List.getElem?_map, hq] at hfalse
  rw [← hPQ]
  exact hfalse

omit h in
/-- Steps that lie apart keep the calls in order. -/
theorem orderly_advance (huuid : UuidText self.lib) (x : Traced self × List Call) (j : ℕ × Choice)
    (hx : ∃ phases, x.2 = phases.map (Phase.rest self) ∧ Orderly userId x.1 phases)
    (hj : Apart self x j) : ∃ phases,
      (advance (recorded self.handle) x j).2 = phases.map (Phase.rest self) ∧
      Orderly userId (advance (recorded self.handle) x j).1 phases := by
  obtain ⟨s, ps⟩ := x
  obtain ⟨i, c⟩ := j
  obtain ⟨phases, rfl, h⟩ := hx
  have hmap : (phases.map (Phase.rest self))[i]? = (phases[i]?).map (Phase.rest self) :=
    List.getElem?_map
  have hadvance : ∀ o k, (phases[i]?).map (Phase.rest self) = some (.eff o k) →
      Follows phases i userId (recorded self.handle c s o).2 (k (self.handle c s.1 o).1) →
      ∃ phases', (advance (recorded self.handle) (s, phases.map (Phase.rest self)) (i, c)).2 =
          phases'.map (Phase.rest self) ∧
        Orderly userId (advance (recorded self.handle) (s, phases.map (Phase.rest self)) (i, c)).1
          phases' := by
    intro o k hnext hfollows
    obtain ⟨ph, hph, horderly⟩ := hfollows
    rw [advance_eff (hmap.trans hnext)]
    refine ⟨phases.set i ph, ?_, horderly⟩
    rw [List.map_set, ← hph]
    rfl
  unfold Apart at hj
  cases hi : phases[i]? with
  | none =>
    rw [advance_of_done (by simp [hi])]
    exact ⟨phases, rfl, h⟩
  | some ph =>
    rw [hi] at hadvance hmap
    cases ph with
    | done r =>
      rw [advance_of_done (by simp [hi, Phase.rest])]
      exact ⟨phases, rfl, h⟩
    | fresh email => exact hadvance _ _ rfl (fresh_step h c hi)
    | checking state email =>
      simp only [hmap, Option.map_some, Phase.rest, check] at hj
      exact hadvance _ _ rfl (checking_step h c hi hj.1 (noOther_phase (inside_rest self) hj.2))
    | minting state email => exact hadvance _ _ rfl (minting_step h c hi)
    | storing state email id =>
      simp only [hmap, Option.map_some, Phase.rest, store] at hj
      refine hadvance _ _ rfl (storing_step h c hi huuid ?_)
      intro hc
      refine ⟨(hj hc).1, ?_⟩
      intro n q hn hq
      have hnot := noOther_phase (carries_rest self) (hj hc).2 n q hn hq
      rwa [Option.isSome_eq_false_iff, Option.isNone_iff_eq_none] at hnot
    | mailing state email token => exact hadvance _ _ rfl (mailing_step h c hi)
    | arming id =>
      simp only [hmap, Option.map_some, Phase.rest, arm] at hj
      exact hadvance _ _ rfl (arming_step h c hi hj)

end Steps

section Alice
open ReferenceLibraries

/-- Two requests for the mail of Alice, in different letter cases. -/
def twoRequests : List String := ["alice@example.com", "Alice@Example.com"]

/-- The second request follows when the cooldown of the first is over. -/
def oneByOne : List (ℕ × Choice) :=
  [(0, {}), (0, {}), (0, {}), (0, {}), (1, { elapsed := 60000 }), (1, {}), (1, {}), (1, {})]

/-- What the two requests leave when they follow one another. -/
def followed : Traced service × List Call :=
  schedule (recorded service.handle) ((registered, []), calls service twoRequests) oneByOne

/-- A day later both requests find the gate open and no valid token, and each mints one. -/
def overlapping : List (ℕ × Choice) :=
  [(0, { elapsed := secs (24 * 3600) }), (1, {}), (0, {}), (1, {}),
    (0, { uuid := ⟨8⟩ }), (0, {}), (0, {}), (1, { uuid := ⟨9⟩ }), (1, {}), (1, {}), (0, {}), (1, {})]

/-- What the two requests leave when they overlap. -/
def overlapped : Traced service × List Call :=
  schedule (recorded service.handle) ((registered, []), calls service twoRequests) overlapping

end Alice

end IamService.ResendCooldown
