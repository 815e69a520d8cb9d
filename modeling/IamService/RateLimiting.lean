import IamService.CacheFootprints
import IamService.ReferenceLibraries

/-!
# How many requests the rate limiter admits

Any number of checks count on one key. The check that counts first then writes its count
back to give the key an expiry, and so takes away what others have counted in between.
While every such write finds the count it writes, the counter never goes back and at most
`limit` checks succeed.
-/

namespace IamService.RateLimiting
open EffectPrograms ExpiringStore AuthService ReferenceLibraries

abbrev Check := Program (Result Unit)

/-- The arguments of a check. -/
structure Request where
  ip : String
  endpoint : String
  windowSecs : ℕ

variable (self : AuthService) (key : String) (limit : ℕ)

def checks (requests : List Request) : List Check :=
  requests.map (fun r => (checkRateLimit r.ip r.endpoint limit r.windowSecs).run)

/-- What the counter shows; an absent counter stands at zero. -/
def counted (w : self.State) : ℕ :=
  match w.cache.entry w.now key with
  | some ⟨.number n, _⟩ => n
  | _ => 0

/-- The cache does not fail and the counter does not expire. -/
def Lasting (c : Choice) (w : self.State) : Prop :=
  c.fails = false ∧ ((w.cache.entry w.now key).isSome = true →
    (w.cache.entry (w.now + c.elapsed) key).isSome = true)

/-- Writing the counter does not take it back. -/
def NotBack (w : self.State) : Op → Prop
  | .cache (.setValue _ _ (some windowSecs)) => limit ≤ 1 ∨ windowSecs = 0 ∨ counted self key w = 1
  | _ => True

/-- A step meets neither a failure nor an expiry, and does not take the counter back. -/
def Forward (c : Choice) (w : self.State) (o : Op) : Prop :=
  Lasting self key c w ∧ NotBack self key limit w o

instance (c : Choice) (w : self.State) : Decidable (Lasting self key c w) :=
  inferInstanceAs (Decidable (_ ∧ _))

instance (w : self.State) (o : Op) : Decidable (NotBack self key limit w o) := by
  unfold NotBack
  split <;> infer_instance

instance (c : Choice) (w : self.State) (o : Op) : Decidable (Forward self key limit c w o) :=
  inferInstanceAs (Decidable (_ ∧ _))

def succeeded : Check → Bool
  | .ret (.ok _) => true
  | _ => false

/-- How many checks have returned `Ok`. -/
def successes (x : self.State × List Check) : ℕ := x.2.countP succeeded

section Phases

/-- How a check ends with a count. -/
def verdict (windowSecs count : ℕ) : Result Unit :=
  if limit < count then
    .error (.withCode .tooManyRequests
      ("Rate limit exceeded. Please try again in " ++ toString windowSecs ++ " seconds."))
  else .ok ()

/-- What a check does with the answer of the counter. -/
def judge (windowSecs : ℕ) : Result ℕ → Check
  | .error e => .ret (.error e)
  | .ok count =>
    if count = 1 then
      .eff (.cache (.setValue key (.number count) (some windowSecs)))
        (fun _ => .ret (verdict limit windowSecs count))
    else .ret (verdict limit windowSecs count)

/-- A check that has not counted, has counted first and has not written, or has returned. -/
inductive Phase : Check → Prop where
  | fresh (windowSecs : ℕ) : Phase (.eff (.cache (.increment key)) (judge key limit windowSecs))
  | writing (windowSecs : ℕ) (r : Result Unit) :
      Phase (.eff (.cache (.setValue key (.number 1) (some windowSecs))) (fun _ => .ret r))
  | done (r : Result Unit) : Phase (.ret r)

/-- The check has succeeded, or will when its write has been answered. -/
def passed : Check → Bool
  | .eff (.cache (.setValue ..)) k => succeeded (k (.ok ()))
  | p => succeeded p

/-- At most as many checks have passed as have been counted, and at most `limit`. -/
structure Within (x : self.State × List Check) : Prop where
  phases : ∀ p ∈ x.2, Phase key limit p
  limited : x.2.countP passed ≤ limit
  counted : x.2.countP passed ≤ counted self key x.1

end Phases

variable {self key limit}

theorem checkRateLimit_eq (ip endpoint : String) (windowSecs : ℕ) :
    (checkRateLimit ip endpoint limit windowSecs).run =
      .eff (.cache (.increment (CacheKeys.rateLimit ip endpoint)))
        (judge (CacheKeys.rateLimit ip endpoint) limit windowSecs) := by
  simp only [checkRateLimit, run_bind', run_attempt, cache, Prog.eff_bind, Prog.ret_bind]
  congr 1
  funext answer
  cases answer with
  | error e => rfl
  | ok count =>
    simp only [proceed_ok, judge, verdict]
    split <;> split <;> rfl

/-- Passing on the answer of the counter. -/
theorem passed_judge (windowSecs : ℕ) (answer : Result ℕ) :
    passed (judge key limit windowSecs answer) =
      match answer with
      | .ok count => decide (count ≤ limit)
      | .error _ => false := by
  cases answer with
  | error e => rfl
  | ok count =>
    have hverdict : succeeded (.ret (verdict limit windowSecs count)) = decide (count ≤ limit) := by
      by_cases hle : limit < count
      · simp [verdict, succeeded, hle]
      · simp [verdict, succeeded, hle, Nat.le_of_not_lt hle]
    by_cases hone : count = 1
    · simp only [judge, hone, if_true, passed] at hverdict ⊢
      exact hverdict
    · simp only [judge, hone, if_false, passed]
      exact hverdict

theorem phase_judge (windowSecs : ℕ) (answer : Result ℕ) :
    Phase key limit (judge key limit windowSecs answer) := by
  cases answer with
  | error e => exact .done _
  | ok count =>
    by_cases hone : count = 1
    · subst hone
      exact .writing windowSecs _
    · simp only [judge, hone, if_false]
      exact .done _

section Steps

variable {c : Choice} {w : self.State}

/-- The counter stands when time passes. -/
theorem Lasting.entry_eq (h : Lasting self key c w) :
    w.cache.entry (w.now + c.elapsed) key = w.cache.entry w.now key :=
  Store.entry_eq_of_live (Nat.le_add_right _ _) h.2

/-- Counting answers the next count, or refuses a value that is not a number. -/
theorem counted_increment (h : Lasting self key c w) :
    let x := self.handle c w (.cache (.increment key))
    (x.1 = .ok (counted self key w + 1) ∧ counted self key x.2 = counted self key w + 1) ∨
      ((∃ e, x.1 = .error e) ∧ counted self key x.2 = counted self key w) := by
  dsimp only
  rw [handle_cache]
  simp only [CacheService.handle, h.1, Bool.false_eq_true, if_false, CacheService.incr,
    World.evolve_now, h.entry_eq, counted]
  cases hentry : w.cache.entry w.now key with
  | none =>
    refine .inl ⟨rfl, ?_⟩
    dsimp only
    rw [Store.entry_put_same rfl]
  | some e =>
    have hvisible : e.visible (w.now + c.elapsed) = true :=
      (Option.filter_eq_some_iff.mp (h.entry_eq.trans hentry)).2
    obtain ⟨v, t⟩ := e
    have hput : ∀ v' : CacheValue, (w.cache.put key v' (id t)).entry (w.now + c.elapsed) key =
        some ⟨v', t⟩ := fun _ => Store.entry_put_same hvisible
    cases v with
    | number n =>
      refine .inl ⟨rfl, ?_⟩
      dsimp only
      rw [hput]
    | _ =>
      refine .inr ⟨⟨_, rfl⟩, ?_⟩
      dsimp only
      rw [hput]

/-- Writing the first count back leaves the counter as it is or sets it to one. -/
theorem counted_write (h : Lasting self key c w) (windowSecs : ℕ) :
    let t := (self.handle c w (.cache (.setValue key (.number 1) (some windowSecs)))).2
    counted self key t = if windowSecs = 0 then counted self key w else 1 := by
  dsimp only
  rw [handle_cache]
  simp only [CacheService.handle, h.1, Bool.false_eq_true, false_or, Option.getD_some,
    World.evolve_now, counted]
  by_cases hzero : windowSecs = 0
  · simp only [hzero, if_true]
    rw [h.entry_eq]
  · simp only [hzero, if_false]
    have hvisible : (⟨.number 1, some (w.now + c.elapsed + secs windowSecs)⟩ :
        Entry CacheValue).visible (w.now + c.elapsed) = true := by
      simp [Entry.visible, secs]
      omega
    rw [Store.entry_put_same hvisible]

end Steps

section Pool

variable {w : self.State} {ps : List Check}

/-- One program of the pool is replaced. -/
theorem countP_passed_set {i : ℕ} {p q : Check} (h : ps[i]? = some p) :
    (ps.set i q).countP passed + (if passed p then 1 else 0) =
      ps.countP passed + if passed q then 1 else 0 := by
  obtain ⟨hi, rfl⟩ := List.getElem?_eq_some_iff.mp h
  have hle : (if passed ps[i] = true then 1 else 0) ≤ ps.countP passed :=
    List.boole_getElem_le_countP hi
  rw [List.countP_set hi]
  omega

theorem phases_set {i : ℕ} {q : Check} (h : ∀ p ∈ ps, Phase key limit p) (hq : Phase key limit q) :
    ∀ p ∈ ps.set i q, Phase key limit p := by
  intro p hp
  rcases List.mem_or_eq_of_mem_set hp with hp | rfl
  · exact h p hp
  · exact hq

/-- A check counts. -/
theorem Within.count {i windowSecs : ℕ} {c : Choice} (h : Within self key limit (w, ps))
    (hnext : ps[i]? = some (.eff (.cache (.increment key)) (judge key limit windowSecs)))
    (hc : Lasting self key c w) :
    let x := self.handle c w (.cache (.increment key))
    Within self key limit (x.2, ps.set i (judge key limit windowSecs x.1)) := by
  dsimp only
  obtain ⟨hphases, hlimited, hcounted⟩ := h
  have hset := countP_passed_set hnext (q := judge key limit windowSecs
    (self.handle c w (.cache (.increment key))).1)
  rw [passed_judge] at hset
  simp only [passed, succeeded, Bool.false_eq_true, if_false] at hset
  dsimp only at hlimited hcounted
  rcases counted_increment hc with ⟨hans, hnow⟩ | ⟨⟨e, hans⟩, hnow⟩
  · rw [hans] at hset ⊢
    simp only [decide_eq_true_eq] at hset
    refine ⟨phases_set hphases (phase_judge _ _), ?_, ?_⟩
    · dsimp only
      split at hset <;> omega
    · dsimp only
      rw [hnow]
      split at hset <;> omega
  · rw [hans] at hset ⊢
    simp only [Bool.false_eq_true, if_false] at hset
    refine ⟨phases_set hphases (phase_judge _ _), ?_, ?_⟩
    · dsimp only
      omega
    · dsimp only
      rw [hnow]
      omega

/-- A check writes the counter and takes nothing back. -/
theorem Within.write {i windowSecs : ℕ} {r : Result Unit} {c : Choice}
    (h : Within self key limit (w, ps))
    (hnext : ps[i]? = some (.eff (.cache (.setValue key (.number 1) (some windowSecs)))
      (fun _ => .ret r)))
    (hc : Forward self key limit c w (.cache (.setValue key (.number 1) (some windowSecs)))) :
    let x := self.handle c w (.cache (.setValue key (.number 1) (some windowSecs)))
    Within self key limit (x.2, ps.set i (.ret r)) := by
  dsimp only
  obtain ⟨hphases, hlimited, hcounted⟩ := h
  obtain ⟨hlasting, hback⟩ := hc
  have hset := countP_passed_set hnext (q := .ret r)
  have hsame : (ps.set i (.ret r)).countP passed = ps.countP passed := Nat.add_right_cancel hset
  have hwrite := counted_write hlasting windowSecs
  dsimp only at hlimited hcounted hwrite
  refine ⟨phases_set hphases (.done r), ?_, ?_⟩
  · dsimp only
    omega
  · dsimp only
    rw [hsame, hwrite]
    split
    · exact hcounted
    · rename_i hne
      rcases hback with hle | hzero | hone
      · omega
      · exact absurd hzero hne
      · omega

/-- Every step that takes nothing back keeps the bound. -/
theorem within_step (x : self.State × List Check) (j : ℕ × Choice) (h : Within self key limit x)
    (hj : Admits (Forward self key limit) x j) : Within self key limit (advance self.handle x j) := by
  obtain ⟨w, ps⟩ := x
  obtain ⟨i, c⟩ := j
  cases hnext : ps[i]? with
  | none =>
    rw [advance_of_done (by simp [hnext])]
    exact h
  | some p =>
    obtain ⟨hphases, -, -⟩ := id h
    cases hphases p (List.mem_of_getElem? hnext) with
    | done r =>
      rw [advance_of_done (by simp [hnext])]
      exact h
    | fresh windowSecs =>
      simp only [Admits, hnext] at hj
      rw [advance_eff hnext]
      exact h.count hnext hj.1
    | writing windowSecs r =>
      simp only [Admits, hnext] at hj
      rw [advance_eff hnext]
      exact h.write hnext hj

theorem within_checks {requests : List Request}
    (h : ∀ r ∈ requests, CacheKeys.rateLimit r.ip r.endpoint = key) :
    Within self key limit (w, checks limit requests) := by
  have hphases : ∀ p ∈ checks limit requests, Phase key limit p ∧ passed p = false := by
    intro p hp
    obtain ⟨r, hr, rfl⟩ := List.mem_map.mp hp
    rw [checkRateLimit_eq, h r hr]
    exact ⟨.fresh r.windowSecs, rfl⟩
  have hnone : (checks limit requests).countP passed = 0 := by
    rw [List.countP_eq_zero]
    intro p hp
    simp [(hphases p hp).2]
  exact ⟨fun p hp => (hphases p hp).1, by simp [hnone], by simp [hnone]⟩

theorem succeeded_passed {p : Check} (h : succeeded p = true) : passed p = true := by
  cases p with
  | ret r => exact h
  | eff o k => cases h

end Pool

/-- Checks on one key that never take the counter back admit at most `limit` requests. -/
theorem admitted_within_limit {requests : List Request} {w : self.State} {l : List (ℕ × Choice)}
    (hkey : ∀ r ∈ requests, CacheKeys.rateLimit r.ip r.endpoint = key)
    (h : Admitted self.handle (Forward self key limit) (w, checks limit requests) l) :
    successes self (schedule self.handle (w, checks limit requests) l) ≤ limit := by
  obtain ⟨-, hlimited, -⟩ := schedule_invariant within_step (within_checks hkey) h
  calc successes self (schedule self.handle (w, checks limit requests) l)
      ≤ (schedule self.handle (w, checks limit requests) l).2.countP passed :=
        List.countP_mono_left (fun p _ => succeeded_passed)
    _ ≤ limit := hlimited

section Clients

/-- Requests of one client. -/
def burst (n : ℕ) : List Request := List.replicate n ⟨"10.0.0.1", "/login", 60⟩

/-- The first check writes the counter before the others count. -/
def orderly : List (ℕ × Choice) := [0, 0, 1, 2, 3].map (fun i => (i, {}))

/-- The second check counts before the first one writes. -/
def crossed : List (ℕ × Choice) := [0, 1, 0, 2].map (fun i => (i, {}))

theorem orderly_admits_two :
    successes service (schedule service.handle (World.empty _, checks 2 (burst 4)) orderly) = 2 ∧
      successes service (schedule service.handle (World.empty _, checks 2 (burst 4)) orderly) ≤ 2 := by
  have hrun : Admitted service.handle (Forward service (CacheKeys.rateLimit "10.0.0.1" "/login") 2)
        (World.empty _, checks 2 (burst 4)) orderly ∧
      successes service (schedule service.handle (World.empty _, checks 2 (burst 4)) orderly) = 2 := by
    decide +kernel
  refine ⟨hrun.2, admitted_within_limit ?_ hrun.1⟩
  intro r hr
  rw [List.eq_of_mem_replicate hr]

/-- Three of three requests pass a limit of two. -/
theorem crossed_admits_three :
    ¬ ∀ (key : String) (limit : ℕ) (requests : List Request) (w : service.State)
        (l : List (ℕ × Choice)),
        (∀ r ∈ requests, CacheKeys.rateLimit r.ip r.endpoint = key) →
        Admitted service.handle (fun c w _ => Lasting service key c w) (w, checks limit requests) l →
        successes service (schedule service.handle (w, checks limit requests) l) ≤ limit := by
  intro h
  have hrun : Admitted service.handle
        (fun c w _ => Lasting service (CacheKeys.rateLimit "10.0.0.1" "/login") c w)
        (World.empty _, checks 2 (burst 3)) crossed ∧
      successes service (schedule service.handle (World.empty _, checks 2 (burst 3)) crossed) = 3 := by
    decide +kernel
  have hbound := h _ 2 (burst 3) (World.empty _) crossed (by
    intro r hr
    rw [List.eq_of_mem_replicate hr]) hrun.1
  rw [hrun.2] at hbound
  exact absurd hbound (by decide)

end Clients

end IamService.RateLimiting
