import IamService.AccountCallRuns
import IamService.ReferenceStates

/-!
# A reset token is used once

Any number of resets present one token. A reset reads the token first and deletes it with
its last operation, after the password has been changed, so two resets that overlap in
between both succeed. When no reset reads the token while another one is between the two
operations, the token is used at most once.
-/

namespace IamService.ResetTokenReuse
open EffectPrograms ExpiringStore UserRepository AuthService ReferenceLibraries

variable (self : AuthService) (token : String)

abbrev Reset := Program (Result Unit)

/-- The world with the history of all operations, and the resets that remain. -/
abbrev Configuration := (self.State × List (Observed Op.Ans self.State)) × List Reset

/-- The resets with the token, one for each new password. -/
def resets (passwords : List String) : List Reset :=
  passwords.map (fun p => (self.resetPassword token p).run)

/-- The next operation of a reset reads the token. -/
def reads : Reset → Bool
  | .eff (.cache (.getValue key)) _ => key = CacheKeys.passwordResetToken token
  | _ => false

/-- A reset that has returned, or has not read the token yet. -/
def idle : Reset → Bool
  | .ret _ => true
  | p => reads token p

/-- A step does not fail, and reads the token only while every other reset is idle. -/
def Exclusive (x : Configuration self) (j : ℕ × Choice) : Prop :=
  j.2.fails = false ∧ ((x.2[j.1]?).any (reads token) = true →
    ∀ i < x.2.length, i ≠ j.1 → (x.2[i]?).any (idle token) = true)

instance (x : Configuration self) (j : ℕ × Choice) : Decidable (Exclusive self token x j) := by
  unfold Exclusive
  infer_instance

/-- The statement changed the password of some account. -/
def changesPassword : Observed Op.Ans self.State → Bool
  | ⟨_, .user (.updatePassword _ _), .ok (_ + 1), _⟩ => true
  | _ => false

/-- How often a password was changed. -/
def changes (x : Configuration self) : ℕ := x.1.2.countP (changesPassword self)

def succeeded : Reset → Bool
  | .ret (.ok _) => true
  | _ => false

/-- How many resets have returned `Ok`. -/
def successes (x : Configuration self) : ℕ := x.2.countP succeeded

section Phases

/-- What remains after the password has been changed: deletions, of which the last one is
that of the token. -/
def Late : Reset → Prop
  | .ret _ => False
  | .eff (.cache (.delete key)) k =>
    (key = CacheKeys.passwordResetToken token ∧ ∀ x, k x = .ret (.ok ())) ∨ ∀ x, Late (k x)
  | .eff _ _ => False

/-- What remains before the password is changed; a reset that stops here returns an
error. -/
def Early : Reset → Prop
  | .ret r => ∃ e, r = .error e
  | .eff (.user (.updatePassword _ _)) k =>
    ∀ x : Result ℕ, (∃ n, x = .ok (n + 1) ∧ Late token (k x)) ∨
      (∀ n, x ≠ .ok (n + 1)) ∧ ∃ e, k x = .ret (.error e)
  | .eff (.user (.findByUsernameOrEmail _)) k => ∀ x, Early (k x)
  | .eff (.host (.hashPassword _)) k => ∀ x, Early (k x)
  | .eff _ _ => False

/-- A reset that has not read the token; without the token it stops at once. -/
def Fresh (p : Reset) : Prop :=
  ∃ k, p = .eff (.cache (.getValue (CacheKeys.passwordResetToken token))) k ∧
    (∀ x, Early token (k x)) ∧ ∃ e, k (.ok none) = .ret (.error e)

end Phases

variable {self token}

section Resets

theorem invalidateReset_late (email : String) (user : Option UserWithHash) :
    Late token (invalidateReset token email user).run := by
  cases user <;> simp [invalidateReset, cache, Late]

theorem rotatePassword_early (newPassword email : String) :
    Early token (rotatePassword token newPassword email).run := by
  simp only [rotatePassword, run_bind', run_attempt, userRepo, host, Prog.eff_bind, Prog.ret_bind,
    Early]
  intro user
  cases user with
  | error e => exact ⟨e, rfl⟩
  | ok user =>
    simp only [proceed_ok, run_bind', run_attempt, Prog.eff_bind, Prog.ret_bind, Early]
    intro hash
    cases hash with
    | error e => exact ⟨e, rfl⟩
    | ok hash =>
      simp only [proceed_ok, run_bind', run_attempt, Prog.eff_bind, Prog.ret_bind, Early]
      intro rows
      cases rows with
      | error e => exact .inr ⟨by simp, e, rfl⟩
      | ok n =>
        cases n with
        | zero => exact .inr ⟨by simp, _, rfl⟩
        | succ n => exact .inl ⟨n, rfl, invalidateReset_late email user⟩

theorem resetPassword_fresh (newPassword : String) :
    Fresh token (self.resetPassword token newPassword).run := by
  refine ⟨_, rfl, ?_, ⟨_, rfl⟩⟩
  intro answer
  cases answer with
  | error e => exact ⟨e, rfl⟩
  | ok value =>
    cases value with
    | none => exact ⟨_, rfl⟩
    | some v =>
      cases v with
      | text email => exact rotatePassword_early newPassword email
      | profile u => exact ⟨_, rfl⟩
      | flag b => exact ⟨_, rfl⟩
      | number n => exact ⟨_, rfl⟩

/-- A reset that has not read the token, or has stopped with an error. -/
def Resting (token : String) (p : Reset) : Prop := Fresh token p ∨ ∃ e, p = .ret (.error e)

/-- An idle reset that has changed nothing is resting. -/
theorem Early.resting {p : Reset} (h : Early token p) (hidle : idle token p = true) :
    Resting token p := by
  unfold idle at hidle
  split at hidle
  · obtain ⟨e, rfl⟩ := h
    exact .inr ⟨e, rfl⟩
  · unfold reads at hidle
    split at hidle
    · exact h.elim
    · cases hidle

theorem Late.not_idle {p : Reset} (h : Late token p) : idle token p = false := by
  unfold idle
  split
  · exact h.elim
  · unfold reads
    split
    · exact h.elim
    · rfl

end Resets

section Runs

/-- The token is still unused, or one reset has changed a password and is about to delete
the token, or that reset has returned and the token is gone. -/
def Stage (x : Configuration self) (i : ℕ) (token : String) : Prop :=
  (changes self x = 0 ∧ ∀ p, x.2[i]? = some p → Fresh token p ∨ Early token p) ∨
  (changes self x = 1 ∧ ∃ p, x.2[i]? = some p ∧ Late token p) ∨
  (changes self x = 1 ∧ x.2[i]? = some (.ret (.ok ())) ∧
    x.1.1.cache (CacheKeys.passwordResetToken token) = none)

/-- All resets but one are resting, and the stage of that one. -/
def OneActive (token : String) (x : Configuration self) : Prop :=
  ∃ i, (∀ j p, j ≠ i → x.2[j]? = some p → Resting token p) ∧ Stage x i token

/-- One step of a reset, with its answer. -/
theorem changes_step (c : Choice) (x : Configuration self) (o : Op) (ps : List Reset) :
    changes self ((recorded self.handle c x.1 o).2, ps) = changes self x +
      if changesPassword self ⟨x.1.1, o, (self.handle c x.1.1 o).1, (self.handle c x.1.1 o).2⟩
      then 1 else 0 := by
  simp [changes, List.countP_append, List.countP_singleton]

/-- The answers that do not change a password. -/
theorem changes_same {c : Choice} {x : Configuration self} {o : Op} {ps : List Reset}
    (h : changesPassword self
      ⟨x.1.1, o, (self.handle c x.1.1 o).1, (self.handle c x.1.1 o).2⟩ = false) :
    changes self ((recorded self.handle c x.1 o).2, ps) = changes self x := by
  rw [changes_step, h]
  rfl

theorem changesPassword_update {w v : self.State} {email hash : String} (a : Result ℕ)
    (h : ∀ n, a ≠ .ok (n + 1)) :
    changesPassword self ⟨w, .user (.updatePassword email hash), a, v⟩ = false := by
  cases a with
  | error e => rfl
  | ok n =>
    cases n with
    | zero => rfl
    | succ n => exact absurd rfl (h n)

section Step

variable {x : Configuration self} {i : ℕ} {c : Choice} {o : Op} {k : Op.Ans o → Reset}
  {ps : List Reset}

/-- A step before the password is changed, or the one that changes it. -/
theorem stage_early (hn : changes self x = 0)
    (hset : ps[i]? = some (k (self.handle c x.1.1 o).1)) (hearly : Early token (.eff o k)) :
    Stage ((recorded self.handle c x.1 o).2, ps) i token := by
  have hquiet : changesPassword self
        ⟨x.1.1, o, (self.handle c x.1.1 o).1, (self.handle c x.1.1 o).2⟩ = false →
      Early token (k (self.handle c x.1.1 o).1) →
      Stage ((recorded self.handle c x.1 o).2, ps) i token := by
    intro hno h
    refine .inl ⟨(changes_same hno).trans hn, ?_⟩
    intro p hp
    cases hset.symm.trans hp
    exact .inr h
  cases o with
  | user q =>
    cases q with
    | updatePassword email hash =>
      rcases hearly (self.handle c x.1.1 (.user (.updatePassword email hash))).1 with
        ⟨n, hok, hlate⟩ | ⟨hno, e, he⟩
      · refine .inr (.inl ⟨?_, _, hset, hlate⟩)
        rw [changes_step, hn, hok]
        rfl
      · exact hquiet (changesPassword_update _ hno) (he ▸ ⟨e, rfl⟩)
    | findByUsernameOrEmail identity => exact hquiet rfl (hearly _)
    | _ => exact False.elim hearly
  | host q =>
    cases q with
    | hashPassword password => exact hquiet rfl (hearly _)
    | _ => exact False.elim hearly
  | _ => exact False.elim hearly

/-- A step after the password was changed, of which the last one deletes the token. -/
theorem stage_late (hc : c.fails = false) (hn : changes self x = 1)
    (hset : ps[i]? = some (k (self.handle c x.1.1 o).1)) (hlate : Late token (.eff o k)) :
    Stage ((recorded self.handle c x.1 o).2, ps) i token := by
  cases o with
  | cache q =>
    cases q with
    | delete key =>
      rcases hlate with ⟨rfl, hk⟩ | hlate
      · refine .inr (.inr ⟨(changes_same rfl).trans hn, hset.trans (by rw [hk]), ?_⟩)
        exact self.delete_same _ hc _
      · exact .inr (.inl ⟨(changes_same rfl).trans hn, _, hset, hlate _⟩)
    | _ => exact False.elim hlate
  | _ => exact False.elim hlate

end Step

/-- The active reset takes a step. -/
theorem stage_active {x : Configuration self} {i : ℕ} {c : Choice} {o : Op}
    {k : Op.Ans o → Reset} (hc : c.fails = false) (hstage : Stage x i token)
    (hi : x.2[i]? = some (.eff o k)) :
    Stage ((recorded self.handle c x.1 o).2, x.2.set i (k (self.handle c x.1.1 o).1)) i token := by
  have hlt : i < x.2.length := (List.getElem?_eq_some_iff.mp hi).1
  have hset : (x.2.set i (k (self.handle c x.1.1 o).1))[i]? =
      some (k (self.handle c x.1.1 o).1) := by simp [hlt]
  rcases hstage with ⟨hn, hp⟩ | ⟨hn, p, hp, hlate⟩ | ⟨-, hp, -⟩
  · rcases hp _ hi with ⟨k', he, hearly, -⟩ | hearly
    · cases he
      refine .inl ⟨(changes_same rfl).trans hn, ?_⟩
      intro p hp
      cases hset.symm.trans hp
      exact .inr (hearly _)
    · exact stage_early hn hset hearly
  · cases hi.symm.trans hp
    exact stage_late hc hn hset hlate
  · cases hi.symm.trans hp

/-- Another reset reads the token: the active one has stopped without using it and the
other becomes active, or the token is gone. -/
theorem oneActive_other {x : Configuration self} {i j : ℕ} {c : Choice}
    {k : Result (Option CacheValue) → Reset}
    (hrest : ∀ l p, l ≠ i → x.2[l]? = some p → Resting token p) (hstage : Stage x i token)
    (hc : c.fails = false) (hji : j ≠ i)
    (hj : x.2[j]? = some (.eff (.cache (.getValue (CacheKeys.passwordResetToken token))) k))
    (hearly : ∀ a, Early token (k a)) (hgone : ∃ e, k (.ok none) = .ret (.error e))
    (hidle : ∀ p, x.2[i]? = some p → idle token p = true) :
    OneActive token (advance (recorded self.handle) x (j, c)) := by
  have hlt : j < x.2.length := (List.getElem?_eq_some_iff.mp hj).1
  rw [advance_eff hj]
  rcases hstage with ⟨hn, hp⟩ | ⟨-, p, hp, hlate⟩ | ⟨hn, hp, hnone⟩
  · refine ⟨j, ?_, .inl ⟨(changes_same rfl).trans hn, ?_⟩⟩
    · intro l p hl hlp
      rw [List.getElem?_set_ne (Ne.symm hl)] at hlp
      by_cases hli : l = i
      · subst hli
        rcases hp p hlp with hfresh | he
        · exact .inl hfresh
        · exact he.resting (hidle p hlp)
      · exact hrest l p hli hlp
    · intro p hjp
      rw [List.getElem?_set_self hlt] at hjp
      cases hjp
      exact .inr (hearly _)
  · have hbusy := hidle p hp
    rw [hlate.not_idle] at hbusy
    cases hbusy
  · have hans : (self.handle c x.1.1
        (.cache (.getValue (CacheKeys.passwordResetToken token)))).1 = .ok none := by
      simp [handle_cache, CacheService.handle, hc, Store.get, Store.entry, hnone]
    refine ⟨i, ?_, .inr (.inr ⟨(changes_same rfl).trans hn, ?_, hnone⟩)⟩
    · intro l p hl hlp
      by_cases hlj : l = j
      · subst hlj
        rw [List.getElem?_set_self hlt] at hlp
        cases hlp
        obtain ⟨e, he⟩ := hgone
        exact .inr ⟨e, by rw [recorded_ans, hans, he]⟩
      · rw [List.getElem?_set_ne (Ne.symm hlj)] at hlp
        exact hrest l p hl hlp
    · exact (List.getElem?_set_ne hji).trans hp

/-- A step of a run in which resets read the token one at a time. -/
theorem oneActive_step (x : Configuration self) (j : ℕ × Choice) (hx : OneActive token x)
    (h : Exclusive self token x j) : OneActive token (advance (recorded self.handle) x j) := by
  obtain ⟨i, hrest, hstage⟩ := hx
  obtain ⟨j, c⟩ := j
  obtain ⟨hc, hexclusive⟩ := h
  by_cases hnext : ∃ o k, x.2[j]? = some (.eff o k)
  · obtain ⟨o, k, hj⟩ := hnext
    by_cases hji : j = i
    · subst hji
      rw [advance_eff hj]
      refine ⟨j, ?_, stage_active hc hstage hj⟩
      intro l p hl hlp
      rw [List.getElem?_set_ne (Ne.symm hl)] at hlp
      exact hrest l p hl hlp
    · rcases hrest j _ hji hj with ⟨k', he, hearly, hgone⟩ | ⟨e, he⟩
      · cases he
        refine oneActive_other hrest hstage hc hji hj hearly hgone ?_
        intro p hp
        have hlt := (List.getElem?_eq_some_iff.mp hp).1
        have hany := hexclusive (by simp [hj, reads]) i hlt (Ne.symm hji)
        simpa [hp] using hany
      · cases he
  · rw [advance_of_done (fun o k hj => hnext ⟨o, k, hj⟩)]
    exact ⟨i, hrest, hstage⟩

theorem resting_not_succeeded {p : Reset} (h : Resting token p) : succeeded p = false := by
  rcases h with ⟨k, rfl, -⟩ | ⟨e, rfl⟩
  · rfl
  · rfl

/-- A property that all entries but one lack holds of at most one entry. -/
theorem countP_le_one {f : Reset → Bool} {ps : List Reset} {i : ℕ}
    (h : ∀ j p, j ≠ i → ps[j]? = some p → f p = false) : ps.countP f ≤ 1 := by
  induction ps generalizing i with
  | nil => simp
  | cons q ps ih =>
    cases i with
    | zero =>
      have hzero : ps.countP f = 0 := by
        rw [List.countP_eq_zero]
        intro p hp
        obtain ⟨j, hj⟩ := List.mem_iff_getElem?.mp hp
        simp [h (j + 1) p (Nat.succ_ne_zero j) hj]
      rw [List.countP_cons, hzero]
      split <;> omega
    | succ i =>
      have hq : f q = false := h 0 q (Nat.succ_ne_zero i).symm rfl
      have htail := ih (i := i) (fun j p hj hp => h (j + 1) p (by omega) hp)
      simpa [List.countP_cons, hq] using htail

theorem OneActive.used_once {x : Configuration self} (h : OneActive token x) :
    successes self x ≤ 1 ∧ changes self x ≤ 1 := by
  obtain ⟨i, hrest, hstage⟩ := h
  refine ⟨countP_le_one (fun j p hj hp => resting_not_succeeded (hrest j p hj hp)), ?_⟩
  rcases hstage with ⟨hn, -⟩ | ⟨hn, -⟩ | ⟨hn, -⟩ <;> omega

end Runs

/-- In every interleaving of resets with one token, without failures, in which no reset
reads the token while another one has read it and not yet returned, at most one reset
returns `Ok` and a password is changed at most once. -/
theorem token_used_once {w : self.State} {passwords : List String} {l : List (ℕ × Choice)}
    (h : Throughout (recorded self.handle) (Exclusive self token)
      ((w, []), resets self token passwords) l) :
    successes self (schedule (recorded self.handle) ((w, []), resets self token passwords) l) ≤ 1 ∧
      changes self (schedule (recorded self.handle) ((w, []), resets self token passwords) l) ≤ 1 := by
  refine (schedule_invariant oneActive_step ?_ h).used_once
  have hfresh : ∀ (j : ℕ) p, (resets self token passwords)[j]? = some p → Fresh token p := by
    intro j p hp
    obtain ⟨newPassword, -, rfl⟩ := List.mem_map.mp (List.mem_of_getElem? hp)
    exact resetPassword_fresh newPassword
  exact ⟨0, fun j p _ hp => .inl (hfresh j p hp), .inl ⟨rfl, fun p hp => .inl (hfresh 0 p hp)⟩⟩

section Alice

/-- Alice has asked for a reset. -/
def requested : service.State :=
  service.serveAll (World.empty _) [registerAlice, verifyAlice, forgot "alice@example.com"]

theorem requested_eq : requested = service.after verifiedState (forgot "alice@example.com") :=
  serveAll_verified [forgot "alice@example.com"]

/-- Two resets with her token. -/
def twoResets : List Reset := resets service resetToken ["N3w!Secret", "0ther!Secret"]

/-- The first reset runs before the second. -/
def oneByOne : List (ℕ × Choice) :=
  (List.replicate 7 0 ++ [1]).map (fun i => (i, {}))

/-- Both resets read the token before either deletes it. -/
def overlapping : List (ℕ × Choice) :=
  ([0, 1] ++ List.replicate 6 0 ++ List.replicate 6 1).map (fun i => (i, {}))

theorem token_used_once_one_by_one :
    Throughout (recorded service.handle) (Exclusive service resetToken)
        ((requested, []), twoResets) oneByOne ∧
      successes service (schedule (recorded service.handle) ((requested, []), twoResets) oneByOne) ≤ 1 := by
  have hrun : Throughout (recorded service.handle) (Exclusive service resetToken)
      ((requested, []), twoResets) oneByOne := by
    rw [requested_eq]
    decide +kernel
  exact ⟨hrun, (@token_used_once service resetToken requested _ oneByOne hrun).1⟩

/-- Two resets that overlap both succeed, and both change the password. -/
theorem overlapping_resets_both_succeed :
    (∀ j ∈ overlapping, j.2.fails = false) ∧
      successes service
        (schedule (recorded service.handle) ((requested, []), twoResets) overlapping) = 2 ∧
      changes service
        (schedule (recorded service.handle) ((requested, []), twoResets) overlapping) = 2 := by
  rw [requested_eq]
  decide +kernel

end Alice

end IamService.ResetTokenReuse
