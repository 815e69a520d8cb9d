import IamService.RateLimiting

/-!
# The rate limiter as a fixed-window counter

A check counts on its key and, if it counts first, gives the key its expiry with a second
command. Served one after another without failures, checks behave as a counter with fixed
windows. When the second command is refused, the counter stays without an expiry.
-/

namespace IamService.RateLimitWindows
open EffectPrograms ExpiringStore AuthService ReferenceLibraries
open RateLimiting (checkRateLimit_eq judge verdict)

/-- A check with the environment's choices while it is served. -/
structure Check where
  ip : String
  endpoint : String
  limit : ℕ
  windowSecs : ℕ
  oracle : ℕ → Choice

namespace Check

def key (k : Check) : String := CacheKeys.rateLimit k.ip k.endpoint

def request (k : Check) : Request :=
  ⟨.checkRateLimit k.ip k.endpoint k.limit k.windowSecs, k.oracle⟩

end Check

variable (self : AuthService)

def answer (w : self.State) (k : Check) : Result Unit := (self.serve w k.request).1

/-- The instant at which a check counts. -/
def comesAt (w : self.State) (k : Check) : ℕ := w.now + (k.oracle 0).elapsed

/-- The instant at which a check that counts first writes the expiry. -/
def startsAt (w : self.State) (k : Check) : ℕ := comesAt self w k + (k.oracle 1).elapsed

section Reference

/-- A window of the reference machine. -/
structure Window where
  start : ℕ
  length : ℕ
  count : ℕ

def Window.isOpen (x : Window) (now : ℕ) : Bool := now < x.start + x.length

/-- A check as the reference machine sees it. A window that it opens starts at `start`, which
is `now` when the check takes no time. -/
structure Arrival where
  key : String
  limit : ℕ
  length : ℕ
  now : ℕ
  start : ℕ

/-- The window of each key, if it ever had one. -/
abbrev Windows := String → Option Window

/-- The window that an arrival is counted in. -/
def countedIn (m : Windows) (a : Arrival) : Window :=
  match (m a.key).filter (·.isOpen a.now) with
  | none => ⟨a.start, a.length, 1⟩
  | some x => { x with count := x.count + 1 }

def arrive (m : Windows) (a : Arrival) : Windows := Function.update m a.key (some (countedIn m a))

/-- Which arrivals are admitted. -/
def decisions : Windows → List Arrival → List Bool
  | _, [] => []
  | m, a :: as => decide ((countedIn m a).count ≤ a.limit) :: decisions (arrive m a) as

end Reference

def arrival (w : self.State) (k : Check) : Arrival :=
  ⟨k.key, k.limit, secs k.windowSecs, comesAt self w k, startsAt self w k⟩

/-- The checks of a sequential run, with the instants at which they come. -/
def arrivals : self.State → List Check → List Arrival
  | _, [] => []
  | w, k :: ks => arrival self w k :: arrivals (self.after w k.request) ks

/-- Which checks of a sequential run return `Ok`. -/
def answers : self.State → List Check → List Bool
  | _, [] => []
  | w, k :: ks => (answer self w k).isOk :: answers (self.after w k.request) ks

variable {self} {w : self.State} {k : Check}

section Served

/-- A check whose count fails changes nothing. -/
theorem served_refused (h : (k.oracle 0).fails = true) :
    self.serve w k.request = (.error (.internal (k.oracle 0).errorText), w.evolve (k.oracle 0)) := by
  simp only [serve, Check.request, method, checkRateLimit_eq, run_eff]
  rw [handle_cache]
  simp only [CacheService.handle, h, if_true, judge, run_ret]
  rfl

/-- A check that finds no counter counts one and writes the expiry. -/
theorem served_opens (h : (k.oracle 0).fails = false)
    (hentry : w.cache.entry (comesAt self w k) k.key = none) :
    self.serve w k.request = (verdict k.limit k.windowSecs 1,
      (self.handle (k.oracle 1)
        { w.evolve (k.oracle 0) with cache := w.cache.put k.key (.number 1) none }
        (.cache (.setValue k.key (.number 1) (some k.windowSecs)))).2) := by
  have hcount : self.handle (k.oracle 0) w (.cache (.increment k.key)) =
      (.ok 1, { w.evolve (k.oracle 0) with cache := w.cache.put k.key (.number 1) none }) := by
    rw [handle_cache]
    simp only [comesAt] at hentry
    simp [CacheService.handle, CacheService.incr, h, hentry]
  simp only [Check.key] at hcount ⊢
  simp only [serve, Check.request, method, checkRateLimit_eq, run_eff, hcount, judge, if_true]
  rfl

/-- A check that finds a counter adds one to it. -/
theorem served_counts (h : (k.oracle 0).fails = false) {n : ℕ} {t : Option ℕ} (hn : 1 ≤ n)
    (hentry : w.cache.entry (comesAt self w k) k.key = some ⟨.number n, t⟩) :
    self.serve w k.request = (verdict k.limit k.windowSecs (n + 1),
      { w.evolve (k.oracle 0) with cache := w.cache.put k.key (.number (n + 1)) t }) := by
  have hcount : self.handle (k.oracle 0) w (.cache (.increment k.key)) =
      (.ok (n + 1), { w.evolve (k.oracle 0) with cache := w.cache.put k.key (.number (n + 1)) t }) := by
    rw [handle_cache]
    simp only [comesAt] at hentry
    simp [CacheService.handle, CacheService.incr, h, hentry]
  have hone : n + 1 ≠ 1 := by omega
  simp only [Check.key] at hcount ⊢
  simp only [serve, Check.request, method, checkRateLimit_eq, run_eff, hcount, judge, hone, if_false]
  rfl

theorem isOk_verdict (limit windowSecs count : ℕ) :
    (verdict limit windowSecs count).isOk = decide (count ≤ limit) := by
  by_cases h : limit < count
  · simp [verdict, h, Except.isOk, Except.toBool]
  · simp [verdict, h, Except.isOk, Except.toBool, Nat.le_of_not_lt h]

end Served

section Refinement

/-- The counter of a window. -/
def shown (x : Window) : Entry CacheValue := ⟨.number x.count, some (x.start + x.length)⟩

/-- From now on the cache shows the open windows of a key. -/
def Shows (w : self.State) (m : Windows) (key : String) : Prop :=
  (∀ now ≥ w.now, w.cache.entry now key = ((m key).filter (·.isOpen now)).map shown) ∧
    ∀ x ∈ m key, 1 ≤ x.count

/-- An entry that is replaced by the counter of a window shows the window. -/
theorem entry_put_shown (s : Store String CacheValue) (key : String) (x : Window) (now : ℕ) :
    (s.put key (.number x.count) (some (x.start + x.length))).entry now key =
      ((some x).filter (·.isOpen now)).map shown := by
  simp only [Store.entry, Store.put_same, Option.filter, Entry.visible, Window.isOpen]
  by_cases h : now < x.start + x.length
  · simp [h, shown]
  · simp [h]

/-- One check answers as the reference machine does, and the cache then shows its windows. -/
theorem served_arrives {m : Windows} (hup : ∀ n, (k.oracle n).fails = false)
    (hwindow : 1 ≤ k.windowSecs) (hm : Shows w m k.key) :
    (answer self w k).isOk = decide ((countedIn m (arrival self w k)).count ≤ k.limit) ∧
      (self.after w k.request).cache = w.cache.put k.key
        (.number (countedIn m (arrival self w k)).count)
        (some ((countedIn m (arrival self w k)).start + (countedIn m (arrival self w k)).length)) := by
  have hcomes : w.now ≤ comesAt self w k := Nat.le_add_right _ _
  have hentry := hm.1 _ hcomes
  cases hopen : (m k.key).filter (·.isOpen (comesAt self w k)) with
  | none =>
    rw [hopen] at hentry
    have hcounted : countedIn m (arrival self w k) = ⟨startsAt self w k, secs k.windowSecs, 1⟩ := by
      simp [countedIn, arrival, hopen]
    have hne : ¬ k.windowSecs = 0 := by omega
    simp only [answer, AuthService.after, served_opens (hup 0) hentry, isOk_verdict, hcounted]
    refine ⟨trivial, ?_⟩
    simp only [handle_cache, CacheService.handle, hup 1, Bool.false_eq_true, Option.getD_some, hne,
      or_self, if_false, Store.put_put]
    rfl
  | some x =>
    rw [hopen] at hentry
    have hcounted : countedIn m (arrival self w k) = { x with count := x.count + 1 } := by
      simp [countedIn, arrival, hopen]
    have hcount : 1 ≤ x.count := hm.2 x (Option.filter_eq_some_iff.mp hopen).1
    simp only [answer, AuthService.after, served_counts (hup 0) hcount hentry, isOk_verdict, hcounted]
    exact ⟨trivial, trivial⟩

theorem countedIn_pos (m : Windows) (a : Arrival) : 1 ≤ (countedIn m a).count := by
  unfold countedIn
  split
  · exact Nat.le_refl 1
  · exact Nat.le_add_left 1 _

/-- After a check the cache shows the window it was counted in, and other keys as before. -/
theorem Shows.arrive {m : Windows} {key : String} {a : Arrival} (h : Shows w m key)
    (ha : a.key = k.key) (hcache : (self.after w k.request).cache = w.cache.put k.key
      (.number (countedIn m a).count) (some ((countedIn m a).start + (countedIn m a).length))) :
    Shows (self.after w k.request) (arrive m a) key := by
  have hnow : w.now ≤ (self.after w k.request).now := self.now_run w _ _
  by_cases hsame : key = k.key
  · have hwindow : RateLimitWindows.arrive m a key = some (countedIn m a) := by
      rw [hsame, ← ha]
      exact Function.update_self _ _ m
    rw [Shows, hwindow, hcache, hsame]
    refine ⟨fun now _ => entry_put_shown _ _ _ now, ?_⟩
    rintro x ⟨⟩
    exact countedIn_pos m a
  · have hwindow : RateLimitWindows.arrive m a key = m key := Function.update_of_ne (ha ▸ hsame) _ m
    rw [Shows, hwindow, hcache]
    refine ⟨?_, h.2⟩
    intro now hlater
    rw [← h.1 now (hnow.trans hlater)]
    exact Store.entry_congr (Store.put_ne _ hsame _ _) now

/-- Served one after another, checks are answered as the reference machine decides. -/
theorem answers_eq_of_shows {m : Windows} {ks : List Check}
    (hup : ∀ k ∈ ks, ∀ n, (k.oracle n).fails = false) (hwindow : ∀ k ∈ ks, 1 ≤ k.windowSecs)
    (hm : ∀ k ∈ ks, Shows w m k.key) : answers self w ks = decisions m (arrivals self w ks) := by
  induction ks generalizing w m with
  | nil => rfl
  | cons k ks ih =>
    obtain ⟨hup₀, hup⟩ := List.forall_mem_cons.mp hup
    obtain ⟨hwindow₀, hwindow⟩ := List.forall_mem_cons.mp hwindow
    obtain ⟨hm₀, hm⟩ := List.forall_mem_cons.mp hm
    obtain ⟨hanswer, hcache⟩ := served_arrives hup₀ hwindow₀ hm₀
    simp only [answers, arrivals, decisions]
    rw [hanswer, ih hup hwindow (fun k' hk' => (hm k' hk').arrive rfl hcache)]
    rfl

end Refinement

/-- A client sends four requests, the last one when its window has just ended. -/
def paced : List Check :=
  [0, 1000, 1000, 58000].map fun gap =>
    ⟨"10.0.0.1", "/login", 2, 60, oracle [{ elapsed := gap }]⟩

theorem paced_positive : ∀ k ∈ paced, 1 ≤ k.limit ∧ 1 ≤ k.windowSecs := by
  intro k hk
  obtain ⟨gap, -, rfl⟩ := List.mem_map.mp hk
  simp

/-- The limiter is a fixed-window counter: from a state without counters, and without failures
of the cache, checks on any keys return what the reference machine decides. -/
theorem answers_eq_decisions {ks : List Check}
    (hup : ∀ k ∈ ks, ∀ n, (k.oracle n).fails = false)
    (hpositive : ∀ k ∈ ks, 1 ≤ k.limit ∧ 1 ≤ k.windowSecs)
    (hfresh : ∀ k ∈ ks, w.cache.entry w.now k.key = none) :
    answers self w ks = decisions (fun _ => none) (arrivals self w ks) := by
  refine answers_eq_of_shows hup (fun k hk => (hpositive k hk).2) ?_
  intro k hk
  refine ⟨?_, by simp⟩
  intro now hlater
  cases hentry : w.cache.entry now k.key with
  | none => rfl
  | some e =>
    have hearlier := Store.entry_of_later hentry hlater
    rw [hfresh k hk] at hearlier
    cases hearlier

theorem paced_answers :
    answers service (World.empty _) paced = [true, true, false, true] ∧
      answers service (World.empty _) paced =
        decisions (fun _ => none) (arrivals service (World.empty _) paced) := by
  refine ⟨by decide +kernel, answers_eq_decisions ?_ paced_positive (fun _ _ => rfl)⟩
  intro k hk n
  obtain ⟨gap, -, rfl⟩ := List.mem_map.mp hk
  cases n <;> rfl

section Expiry

/-- A check that finds no counter gets to write the expiry, unless it cannot count either. -/
def Armed (w : self.State) (r : Request) : Prop :=
  match r.call with
  | .checkRateLimit ip endpoint _ _ => (r.oracle 0).fails = false →
    w.cache.entry (w.now + (r.oracle 0).elapsed) (CacheKeys.rateLimit ip endpoint) = none →
    (r.oracle 1).fails = false
  | _ => True

instance (w : self.State) (r : Request) : Decidable (Armed w r) := by
  unfold Armed
  split <;> infer_instance

/-- Every rate-limit key that exists carries an expiry. -/
def Expiring (w : self.State) : Prop :=
  ∀ ip endpoint e, w.cache.entry w.now (CacheKeys.rateLimit ip endpoint) = some e →
    e.expiresAt.isSome = true

/-- Every rate-limit key that exists holds a count. -/
def Counting (w : self.State) : Prop :=
  ∀ ip endpoint e, w.cache.entry w.now (CacheKeys.rateLimit ip endpoint) = some e →
    ∃ n, 1 ≤ n ∧ e.value = .number n

/-- A check has three outcomes: it does not count, it counts first, or it adds to a counter. -/
theorem served_cases (h : Counting w) (k : Check) :
    ((k.oracle 0).fails = true ∧ self.serve w k.request =
      (.error (.internal (k.oracle 0).errorText), w.evolve (k.oracle 0))) ∨
    ((k.oracle 0).fails = false ∧ w.cache.entry (comesAt self w k) k.key = none ∧
      answer self w k = verdict k.limit k.windowSecs 1 ∧
      (self.after w k.request).now = startsAt self w k ∧
      (self.after w k.request).cache = w.cache.put k.key (.number 1)
        (if (k.oracle 1).fails ∨ k.windowSecs = 0 then none
          else some (startsAt self w k + secs k.windowSecs))) ∨
    (∃ n t, 1 ≤ n ∧ w.cache.entry (comesAt self w k) k.key = some ⟨.number n, t⟩ ∧
      answer self w k = verdict k.limit k.windowSecs (n + 1) ∧
      (self.after w k.request).now = comesAt self w k ∧
      (self.after w k.request).cache = w.cache.put k.key (.number (n + 1)) t) := by
  cases hup : (k.oracle 0).fails with
  | true => exact .inl ⟨rfl, served_refused hup⟩
  | false =>
    cases hentry : w.cache.entry (comesAt self w k) k.key with
    | none =>
      refine .inr (.inl ⟨rfl, rfl, ?_⟩)
      simp only [answer, AuthService.after, served_opens hup hentry, handle_cache,
        CacheService.handle, Option.getD_some]
      refine ⟨trivial, ?_, ?_⟩
      · rfl
      · split
        · rfl
        · exact Store.put_put _ _ _ _ _ _
    | some e =>
      obtain ⟨n, hn, hvalue⟩ := h k.ip k.endpoint e
        (Store.entry_of_later hentry (Nat.le_add_right _ _))
      obtain ⟨value, t⟩ := e
      subst hvalue
      refine .inr (.inr ⟨n, t, hn, rfl, ?_⟩)
      simp only [answer, AuthService.after, served_counts hup hn hentry]
      exact ⟨trivial, rfl, trivial⟩

/-- What a check leaves visible under a rate-limit key: what was there, or its own count. -/
theorem entry_after (h : Counting w) {key : String} {e : Entry CacheValue}
    (he : (self.after w k.request).cache.entry (self.after w k.request).now key = some e) :
    w.cache.entry w.now key = some e ∨ (key = k.key ∧ (k.oracle 0).fails = false ∧
      w.cache.entry (comesAt self w k) k.key = none ∧ e = ⟨.number 1,
        if (k.oracle 1).fails ∨ k.windowSecs = 0 then none
          else some (startsAt self w k + secs k.windowSecs)⟩) ∨
      (key = k.key ∧ ∃ n t, 1 ≤ n ∧ e = ⟨.number (n + 1), t⟩ ∧
        w.cache.entry w.now k.key = some ⟨.number n, t⟩) := by
  have hnow : w.now ≤ (self.after w k.request).now := self.now_run w _ _
  rcases served_cases h k with ⟨-, hserve⟩ | ⟨hup, hnone, -, -, hcache⟩ | ⟨n, t, hn, hentry, -, -, hcache⟩
  · rw [AuthService.after, hserve] at he
    exact .inl (Store.entry_of_later he (Nat.le_add_right _ _))
  · rw [hcache] at he
    rcases Store.entry_put_some he with ⟨hkey, he⟩ | ⟨-, he⟩
    · exact .inr (.inl ⟨hkey, hup, hnone, he⟩)
    · exact .inl (Store.entry_of_later he hnow)
  · rw [hcache] at he
    rcases Store.entry_put_some he with ⟨hkey, he⟩ | ⟨-, he⟩
    · exact .inr (.inr ⟨hkey, n, t, hn, he, Store.entry_of_later hentry (Nat.le_add_right _ _)⟩)
    · exact .inl (Store.entry_of_later he hnow)

theorem counting_after (h : Counting w) (k : Check) : Counting (self.after w k.request) := by
  intro ip endpoint e he
  rcases entry_after h he with he | ⟨-, -, -, rfl⟩ | ⟨-, n, t, -, rfl, -⟩
  · exact h ip endpoint e he
  · exact ⟨1, Nat.le_refl 1, rfl⟩
  · exact ⟨n + 1, Nat.le_add_left 1 n, rfl⟩

theorem counting_serveAll (h : Counting w) (ks : List Check) :
    Counting (self.serveAll w (ks.map Check.request)) := by
  induction ks generalizing w with
  | nil => exact h
  | cons k ks ih => exact ih (counting_after h k)

/-- A check keeps every counter expiring exactly when it is armed. -/
theorem expiring_after_iff (h : Counting w) (hexpiring : Expiring w) (hwindow : 1 ≤ k.windowSecs) :
    Expiring (self.after w k.request) ↔ Armed w k.request := by
  have hne : ¬ k.windowSecs = 0 := by omega
  constructor
  · intro hafter hup hnone
    rcases served_cases h k with ⟨hdown, -⟩ | ⟨-, -, -, hnow, hcache⟩ | ⟨n, t, -, hentry, -⟩
    · cases hdown.symm.trans hup
    · cases hfails : (k.oracle 1).fails with
      | false => exact hfails
      | true =>
        have hforever := hafter k.ip k.endpoint ⟨.number 1, none⟩ (by
          rw [hcache, hnow, hfails, if_pos (.inl rfl)]
          exact Store.entry_put_same rfl)
        cases hforever
    · cases hentry.symm.trans hnone
  · intro harmed ip endpoint e he
    rcases entry_after h he with he | ⟨-, hup, hnone, rfl⟩ | ⟨-, n, t, -, rfl, hentry⟩
    · exact hexpiring ip endpoint e he
    · have hwrite : (k.oracle 1).fails = false := harmed hup hnone
      simp [hwrite, hne]
    · exact hexpiring k.ip k.endpoint ⟨.number n, t⟩ hentry

/-- A check that was admitted. -/
structure Admission where
  key : String
  /-- The instant at which it returned. -/
  endedAt : ℕ
  windowSecs : ℕ

def admission (w : self.State) (k : Check) : List Admission :=
  if (answer self w k).isOk then [⟨k.key, (self.after w k.request).now, k.windowSecs⟩] else []

/-- The admitted checks of a sequential run. -/
def admissions : self.State → List Check → List Admission
  | _, [] => []
  | w, k :: ks => admission w k ++ admissions (self.after w k.request) ks

/-- A check that is refused because of the limit. -/
def Rejected (w : self.State) (k : Check) : Prop :=
  ∃ message, answer self w k = .error (.withCode .tooManyRequests message)

/-- Every counter expires within a window of an admitted check on its key. -/
def Covered (past : List Admission) (w : self.State) : Prop :=
  ∀ ip endpoint e, w.cache.entry w.now (CacheKeys.rateLimit ip endpoint) = some e →
    ∃ t, e.expiresAt = some t ∧ ∃ a ∈ past, a.key = CacheKeys.rateLimit ip endpoint ∧
      t ≤ a.endedAt + secs a.windowSecs

theorem covered_after {past : List Admission} (h : Counting w) (hcovered : Covered past w)
    (hpositive : 1 ≤ k.limit ∧ 1 ≤ k.windowSecs) (harmed : Armed w k.request) :
    Covered (past ++ admission w k) (self.after w k.request) := by
  have hne : ¬ k.windowSecs = 0 := by omega
  intro ip endpoint e he
  rcases entry_after h he with he | ⟨hkey, hup, hnone, rfl⟩ | ⟨hkey, n, t, -, rfl, hentry⟩
  · obtain ⟨t, ht, a, ha, hcover⟩ := hcovered ip endpoint e he
    exact ⟨t, ht, a, List.mem_append_left _ ha, hcover⟩
  · have hwrite : (k.oracle 1).fails = false := harmed hup hnone
    refine ⟨_, by simp [hwrite, hne], ⟨k.key, startsAt self w k, k.windowSecs⟩, ?_, hkey.symm,
      Nat.le_refl _⟩
    rcases served_cases h k with ⟨hdown, -⟩ | ⟨-, -, hanswer, hnow, -⟩ | ⟨n, t, -, hentry, -⟩
    · cases hdown.symm.trans hup
    · have hadmitted : (answer self w k).isOk = true := by
        rw [hanswer, isOk_verdict]
        exact decide_eq_true hpositive.1
      rw [admission, if_pos hadmitted, hnow]
      simp
    · cases hentry.symm.trans hnone
  · obtain ⟨t', ht, a, ha, hcover⟩ := hcovered k.ip k.endpoint ⟨.number n, t⟩ hentry
    refine ⟨t', ht, a, List.mem_append_left _ ha, ?_⟩
    rw [hkey]
    exact hcover

theorem covered_serveAll {past : List Admission} {ks : List Check}
    (hpositive : ∀ k ∈ ks, 1 ≤ k.limit ∧ 1 ≤ k.windowSecs) (h : Counting w)
    (hcovered : Covered past w) (harmed : self.Along Armed w (ks.map Check.request)) :
    Covered (past ++ admissions w ks) (self.serveAll w (ks.map Check.request)) := by
  induction ks generalizing w past with
  | nil => simpa [admissions, serveAll] using hcovered
  | cons k ks ih =>
    obtain ⟨hpositive₀, hpositive⟩ := List.forall_mem_cons.mp hpositive
    rw [admissions, ← List.append_assoc]
    exact ih hpositive (counting_after h k) (covered_after h hcovered hpositive₀ harmed.1) harmed.2

/-- Only a check that finds a counter is rejected. -/
theorem rejected_finds (h : Counting w) (hlimit : 1 ≤ k.limit) (hrejected : Rejected w k) :
    ∃ e, w.cache.entry (comesAt self w k) k.key = some e := by
  obtain ⟨message, hanswer⟩ := hrejected
  rcases served_cases h k with ⟨-, hserve⟩ | ⟨-, -, hopened, -⟩ | ⟨n, t, -, hentry, -⟩
  · rw [answer, hserve] at hanswer
    cases hanswer
  · have hok := isOk_verdict k.limit k.windowSecs 1
    rw [← hopened, hanswer, decide_eq_true hlimit] at hok
    cases hok
  · exact ⟨_, hentry⟩

/-- A check that is rejected comes within a window of an admitted check on its key. -/
theorem rejected_within {past : List Admission} (h : Counting w) (hcovered : Covered past w)
    (hlimit : 1 ≤ k.limit) (hrejected : Rejected w k) :
    ∃ a ∈ past, a.key = k.key ∧ comesAt self w k < a.endedAt + secs a.windowSecs := by
  obtain ⟨e, hentry⟩ := rejected_finds h hlimit hrejected
  obtain ⟨t, ht, a, ha, hkey, hle⟩ := hcovered k.ip k.endpoint e
    (Store.entry_of_later hentry (Nat.le_add_right _ _))
  have hvisible : comesAt self w k < t := by
    have := (Option.filter_eq_some_iff.mp hentry).2
    simpa [Entry.visible, ht] using this
  exact ⟨a, ha, hkey, hvisible.trans_le hle⟩

end Expiry

/-- In a run of checks under any failures, every counter expires in every state exactly when each
check that counts first gets to write the expiry. In such a run a client is rejected only within
a window of a request of its that was admitted. -/
theorem counters_expire_iff {ks : List Check} (hpositive : ∀ k ∈ ks, 1 ≤ k.limit ∧ 1 ≤ k.windowSecs)
    (hfresh : ∀ ip endpoint, w.cache.entry w.now (CacheKeys.rateLimit ip endpoint) = none) :
    ((∀ n, Expiring (self.serveAll w ((ks.map Check.request).take n))) ↔
        self.Along Armed w (ks.map Check.request)) ∧
      (self.Along Armed w (ks.map Check.request) → ∀ n k, ks[n]? = some k →
        Rejected (self.serveAll w ((ks.take n).map Check.request)) k →
        ∃ a ∈ admissions w (ks.take n), a.key = k.key ∧
          comesAt self (self.serveAll w ((ks.take n).map Check.request)) k <
            a.endedAt + secs a.windowSecs) := by
  have hcounting : Counting w := by
    intro ip endpoint e he
    rw [hfresh] at he
    cases he
  have hexpiring : Expiring w := by
    intro ip endpoint e he
    rw [hfresh] at he
    cases he
  have hcovered : Covered [] w := by
    intro ip endpoint e he
    rw [hfresh] at he
    cases he
  have hstep : ∀ (v : self.State) (r : Request), (∃ k : Check, 1 ≤ k.windowSecs ∧ r = k.request) →
      Counting v ∧ Expiring v → ((Counting (self.after v r) ∧ Expiring (self.after v r)) ↔ Armed v r) := by
    rintro v _ ⟨k, hwindow, rfl⟩ ⟨hv, hv'⟩
    rw [and_iff_right (counting_after hv k)]
    exact expiring_after_iff hv hv' hwindow
  have hruns := AuthService.along_iff_invariant_of hstep ⟨hcounting, hexpiring⟩ (ks.map Check.request) (by
    intro r hr
    obtain ⟨k, hk, rfl⟩ := List.mem_map.mp hr
    exact ⟨k, (hpositive k hk).2, rfl⟩)
  constructor
  · rw [← hruns]
    refine forall_congr' ?_
    intro n
    rw [← List.map_take]
    exact (and_iff_right (counting_serveAll hcounting _)).symm
  · intro harmed n k hk hrejected
    have harmedBefore := harmed.take n
    rw [← List.map_take] at harmedBefore
    have hpast := covered_serveAll (fun k hk => hpositive k (List.mem_of_mem_take hk)) hcounting hcovered
      harmedBefore
    exact rejected_within (counting_serveAll hcounting _) hpast
      (hpositive k (List.mem_of_getElem? hk)).1 hrejected

/-- The third request of the client is rejected within a window of an admitted one. -/
theorem paced_expires :
    (∀ n, Expiring (service.serveAll (World.empty _) ((paced.map Check.request).take n))) ∧
      Rejected (service.serveAll (World.empty _) ((paced.take 2).map Check.request))
        ⟨"10.0.0.1", "/login", 2, 60, oracle [{ elapsed := 1000 }]⟩ ∧
      ∃ a ∈ admissions (World.empty service.lib.pgLower) (paced.take 2),
        comesAt service (service.serveAll (World.empty _) ((paced.take 2).map Check.request))
          ⟨"10.0.0.1", "/login", 2, 60, oracle [{ elapsed := 1000 }]⟩ <
            a.endedAt + secs a.windowSecs := by
  have hall := @counters_expire_iff service (World.empty _) paced paced_positive (fun _ _ => rfl)
  have harmed : service.Along Armed (World.empty _) (paced.map Check.request) := by decide +kernel
  have hrejected : Rejected (service.serveAll (World.empty _) ((paced.take 2).map Check.request))
      ⟨"10.0.0.1", "/login", 2, 60, oracle [{ elapsed := 1000 }]⟩ := ⟨_, rfl⟩
  obtain ⟨a, ha, -, hbefore⟩ := hall.2 harmed 2 _ rfl hrejected
  exact ⟨hall.1.mpr harmed, hrejected, a, ha, hbefore⟩

/-- A check whose second command fails. -/
def unarmed : Check := ⟨"10.0.0.1", "/login", 2, 60, oracle [{}, { fails := true }]⟩

/-- The counter of such a check never expires. -/
theorem unarmed_counter_stays :
    ¬ ∀ ks : List Check, (∀ k ∈ ks, 1 ≤ k.limit ∧ 1 ≤ k.windowSecs) →
      ∀ n, Expiring (service.serveAll (World.empty _) ((ks.map Check.request).take n)) := by
  intro h
  have hexpiring : Expiring (service.after (World.empty _) unarmed.request) :=
    h [unarmed] (by decide) 1
  have hempty : ∀ P : String → String → Entry CacheValue → Prop, ∀ ip endpoint e,
      (World.empty service.lib.pgLower).cache.entry (World.empty service.lib.pgLower).now
        (CacheKeys.rateLimit ip endpoint) = some e → P ip endpoint e := by
    intro P ip endpoint e he
    cases he
  have harmed := (expiring_after_iff (hempty _) (hempty _) (by decide)).mp hexpiring
  cases harmed rfl rfl

end IamService.RateLimitWindows
