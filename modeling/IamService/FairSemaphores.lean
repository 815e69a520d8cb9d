import Mathlib.Data.List.Count
import Mathlib.Data.List.TakeWhile
import Mathlib.Data.Nat.Notation
import Mathlib.Tactic.Common

/-!
# Fair counting semaphores

A semaphore hands out a fixed number of permits. A task that finds none free joins the end of
a queue. A permit that is given back goes to the head of the queue, and only without a queue
is it free again. A task that is dropped gives back what it has, or leaves the queue.

Tasks are numbered. No number has two places at once, permits are neither lost nor made, and
nobody overtakes a task that waits.
-/

namespace IamService.FairSemaphores

structure Semaphore where
  free : ℕ
  /-- The tasks that wait, first come first. -/
  waiting : List ℕ
  /-- The tasks that have been handed a permit and have not gone on yet. -/
  granted : List ℕ
  holders : List ℕ
  deriving DecidableEq

namespace Semaphore

/-- All permits are free. -/
def new (limit : ℕ) : Semaphore := ⟨limit, [], [], []⟩

/-- Ask for a permit; the answer says whether the task goes on. A task that waits and asks
again keeps its place. -/
def request (s : Semaphore) (i : ℕ) : Bool × Semaphore :=
  if i ∈ s.granted then (true, { s with granted := s.granted.erase i, holders := i :: s.holders })
  else if i ∈ s.waiting then (false, s)
  else if 0 < s.free then (true, { s with free := s.free - 1, holders := i :: s.holders })
  else (false, { s with waiting := s.waiting ++ [i] })

/-- A permit that nobody has goes to the head of the queue. -/
def putBack (s : Semaphore) : Semaphore :=
  match s.waiting with
  | [] => { s with free := s.free + 1 }
  | j :: rest => { s with waiting := rest, granted := j :: s.granted }

def release (s : Semaphore) (i : ℕ) : Semaphore :=
  if i ∈ s.holders then { s with holders := s.holders.erase i }.putBack else s

/-- The task is dropped. -/
def cancel (s : Semaphore) (i : ℕ) : Semaphore :=
  if i ∈ s.holders then { s with holders := s.holders.erase i }.putBack
  else if i ∈ s.granted then { s with granted := s.granted.erase i }.putBack
  else { s with waiting := s.waiting.erase i }

/-- The task waits or has been handed a permit. -/
def Asks (s : Semaphore) (i : ℕ) : Prop := i ∈ s.waiting ∨ i ∈ s.granted

/-- The task has a permit. -/
def Served (s : Semaphore) (i : ℕ) : Prop := i ∈ s.granted ∨ i ∈ s.holders

/-- The tasks in front of a task that waits. -/
def ahead (s : Semaphore) (i : ℕ) : List ℕ := s.waiting.takeWhile (· ≠ i)

/-- No permit is lost or made, none is free while a task waits, and no task is listed twice. -/
structure Sound (limit : ℕ) (s : Semaphore) : Prop where
  conserved : s.free + s.granted.length + s.holders.length = limit
  busy : s.free = 0 ∨ s.waiting = []
  once : ∀ i, s.waiting.count i + s.granted.count i + s.holders.count i ≤ 1

theorem new_sound (limit : ℕ) : (new limit).Sound limit :=
  ⟨rfl, .inr rfl, fun i => by simp [new]⟩

section Counts

variable {limit : ℕ} {s : Semaphore}

theorem Sound.holders_le (h : s.Sound limit) : s.holders.length ≤ limit := by
  have hconserved := h.conserved
  omega

theorem Sound.nodup_holders (h : s.Sound limit) : s.holders.Nodup := by
  rw [List.nodup_iff_count]
  intro i
  have honce := h.once i
  omega

/-- One permit less in the lists, put back, is as sound as before. -/
theorem putBack_sound (hconserved : s.free + s.granted.length + s.holders.length + 1 = limit)
    (hbusy : s.free = 0 ∨ s.waiting = [])
    (honce : ∀ i, s.waiting.count i + s.granted.count i + s.holders.count i ≤ 1) :
    s.putBack.Sound limit := by
  unfold putBack
  split
  · rename_i hempty
    refine ⟨?_, .inr hempty, honce⟩
    dsimp only
    omega
  · rename_i j rest hqueue
    refine ⟨?_, ?_, ?_⟩
    · dsimp only
      rw [List.length_cons]
      omega
    · rw [hqueue] at hbusy
      exact .inl (by simpa using hbusy)
    · intro i
      have hi := honce i
      rw [hqueue] at hi
      simp only [List.count_cons] at hi ⊢
      omega

/-- A task that holds no permit may ask. -/
theorem request_sound (h : s.Sound limit) {i : ℕ} (hi : i ∉ s.holders) :
    (s.request i).2.Sound limit := by
  obtain ⟨hconserved, hbusy, honce⟩ := h
  unfold request
  split
  · rename_i hgranted
    have hlength := List.length_erase_of_mem hgranted
    have hpos := List.length_pos_of_mem hgranted
    refine ⟨?_, hbusy, ?_⟩
    · dsimp only
      rw [List.length_cons]
      omega
    · intro j
      have hj := honce j
      have hcount := List.count_pos_iff.mpr hgranted
      simp only [List.count_cons, List.count_erase, beq_iff_eq]
      split
      · subst j
        omega
      · omega
  · split
    · exact ⟨hconserved, hbusy, honce⟩
    · rename_i hgranted hwaiting
      have hnone : s.waiting.count i = 0 ∧ s.granted.count i = 0 ∧ s.holders.count i = 0 :=
        ⟨List.count_eq_zero.mpr hwaiting, List.count_eq_zero.mpr hgranted,
          List.count_eq_zero.mpr hi⟩
      split
      · rename_i hfree
        refine ⟨?_, .inr (hbusy.resolve_left (by omega)), ?_⟩
        · dsimp only
          rw [List.length_cons]
          omega
        · intro j
          have hj := honce j
          simp only [List.count_cons, beq_iff_eq]
          split
          · subst j
            omega
          · omega
      · refine ⟨hconserved, .inl (by dsimp only; omega), ?_⟩
        intro j
        have hj := honce j
        simp only [List.count_append, List.count_singleton, beq_iff_eq]
        split
        · subst j
          omega
        · omega

theorem erase_holder_sound (h : s.Sound limit) {i : ℕ} (hi : i ∈ s.holders) :
    { s with holders := s.holders.erase i }.putBack.Sound limit := by
  obtain ⟨hconserved, hbusy, honce⟩ := h
  have hlength := List.length_erase_of_mem hi
  have hpos := List.length_pos_of_mem hi
  refine putBack_sound ?_ hbusy ?_
  · dsimp only
    omega
  · intro j
    have hj := honce j
    simp only [List.count_erase]
    omega

theorem release_sound (h : s.Sound limit) (i : ℕ) : (s.release i).Sound limit := by
  unfold release
  split
  · rename_i hi
    exact erase_holder_sound h hi
  · exact h

theorem cancel_sound (h : s.Sound limit) (i : ℕ) : (s.cancel i).Sound limit := by
  unfold cancel
  split
  · rename_i hi
    exact erase_holder_sound h hi
  · obtain ⟨hconserved, hbusy, honce⟩ := h
    split
    · rename_i hi
      have hlength := List.length_erase_of_mem hi
      have hpos := List.length_pos_of_mem hi
      refine putBack_sound ?_ hbusy ?_
      · dsimp only
        omega
      · intro j
        have hj := honce j
        simp only [List.count_erase]
        omega
    · refine ⟨hconserved, ?_, ?_⟩
      · rcases hbusy with hfree | hempty
        · exact .inl hfree
        · exact .inr (by rw [hempty]; rfl)
      · intro j
        have hj := honce j
        simp only [List.count_erase]
        omega

end Counts

section Places

variable {limit : ℕ} {s : Semaphore} {i j : ℕ}

@[simp] theorem putBack_holders (s : Semaphore) : s.putBack.holders = s.holders := by
  unfold putBack
  split <;> rfl

@[simp] theorem putBack_asks : s.putBack.Asks j ↔ s.Asks j := by
  unfold putBack Asks
  split
  · rfl
  · rename_i k rest hqueue
    rw [hqueue, List.mem_cons, List.mem_cons]
    tauto

theorem release_holders (s : Semaphore) (i : ℕ) : (s.release i).holders = s.holders.erase i := by
  unfold release
  split
  · rw [putBack_holders]
  · rename_i hi
    rw [List.erase_of_not_mem hi]

theorem release_asks : (s.release i).Asks j ↔ s.Asks j := by
  unfold release
  split
  · rw [putBack_asks]
    rfl
  · rfl

theorem cancel_holders (s : Semaphore) (i : ℕ) : (s.cancel i).holders = s.holders.erase i := by
  unfold cancel
  split
  · rw [putBack_holders]
  · rename_i hi
    rw [List.erase_of_not_mem hi]
    split
    · rw [putBack_holders]
    · rfl

/-- A task that has been dropped asks for nothing. -/
theorem cancel_asks (h : s.Sound limit) (hj : (s.cancel i).Asks j) : s.Asks j ∧ j ≠ i := by
  have honce := h.once i
  have hgone : ∀ {l : List ℕ}, l.count i ≤ 1 → j ∈ l.erase i → j ∈ l ∧ j ≠ i := by
    intro l hl hmem
    refine ⟨List.mem_of_mem_erase hmem, ?_⟩
    rintro rfl
    have hcount := List.count_pos_iff.mpr hmem
    rw [List.count_erase_self] at hcount
    omega
  have hother : ∀ {l : List ℕ}, l.count i = 0 → j ∈ l → j ∈ l ∧ j ≠ i := by
    intro l hl hmem
    refine ⟨hmem, ?_⟩
    rintro rfl
    exact List.count_eq_zero.mp hl hmem
  unfold cancel at hj
  split at hj
  · rename_i hi
    have hheld := List.count_pos_iff.mpr hi
    rw [putBack_asks] at hj
    rcases hj with hj | hj
    · exact (hother (l := s.waiting) (by omega) hj).imp_left .inl
    · exact (hother (l := s.granted) (by omega) hj).imp_left .inr
  · split at hj
    · rename_i hi
      have hgranted := List.count_pos_iff.mpr hi
      rw [putBack_asks] at hj
      rcases hj with hj | hj
      · exact (hother (l := s.waiting) (by omega) hj).imp_left .inl
      · exact (hgone (by omega) hj).imp_left .inr
    · rename_i hi
      rcases hj with hj | hj
      · exact (hgone (by omega) hj).imp_left .inl
      · exact (hother (List.count_eq_zero.mpr hi) hj).imp_left .inr

/-- A task that goes on holds a permit and asks no more. -/
theorem request_granted (h : s.Sound limit) (hi : (s.request i).1 = true) :
    (s.request i).2.holders = i :: s.holders ∧
      ∀ j, (s.request i).2.Asks j → s.Asks j ∧ j ≠ i := by
  have honce := h.once i
  unfold request at hi ⊢
  split
  · rename_i hgranted
    have hcount := List.count_pos_iff.mpr hgranted
    refine ⟨rfl, ?_⟩
    rintro j (hj | hj)
    · refine ⟨.inl hj, ?_⟩
      rintro rfl
      have hwaiting : 0 < s.waiting.count j := List.count_pos_iff.mpr hj
      omega
    · refine ⟨.inr (List.mem_of_mem_erase hj), ?_⟩
      rintro rfl
      have hmem := List.count_pos_iff.mpr hj
      rw [List.count_erase_self] at hmem
      omega
  · rename_i hgranted
    rw [if_neg hgranted] at hi
    split
    · rename_i hwaiting
      simp [hwaiting] at hi
    · rename_i hwaiting
      rw [if_neg hwaiting] at hi
      split
      · refine ⟨rfl, ?_⟩
        intro j hj
        refine ⟨hj, ?_⟩
        rintro rfl
        exact hj.elim hwaiting hgranted
      · rename_i hfree
        simp [hfree] at hi

/-- A task that does not go on waits. -/
theorem request_refused (hi : (s.request i).1 = false) :
    i ∈ (s.request i).2.waiting ∧ (s.request i).2.holders = s.holders ∧
      ∀ j, (s.request i).2.Asks j → s.Asks j ∨ j = i := by
  unfold request at hi ⊢
  split
  · rename_i hgranted
    simp [hgranted] at hi
  · rename_i hgranted
    rw [if_neg hgranted] at hi
    split
    · rename_i hwaiting
      exact ⟨hwaiting, rfl, fun _ hj => .inl hj⟩
    · rename_i hwaiting
      rw [if_neg hwaiting] at hi
      split
      · rename_i hfree
        simp [hfree] at hi
      · refine ⟨by simp, rfl, ?_⟩
        rintro j (hj | hj)
        · rcases List.mem_append.mp hj with hj | hj
          · exact .inl (.inl hj)
          · exact .inr (List.mem_singleton.mp hj)
        · exact .inl (.inr hj)

/-- A task that would not go on finds no permit free, and has been handed none. -/
theorem blocked (h : s.Sound limit) (hi : (s.request i).1 = false) :
    s.free = 0 ∧ i ∉ s.granted := by
  unfold request at hi
  split at hi
  · cases hi
  · rename_i hgranted
    split at hi
    · rename_i hwaiting
      refine ⟨h.busy.resolve_right ?_, hgranted⟩
      intro hempty
      rw [hempty] at hwaiting
      cases hwaiting
    · split at hi
      · cases hi
      · exact ⟨by omega, hgranted⟩

end Places

section Fairness

variable {limit : ℕ} {s t u : Semaphore} {i : ℕ}

/-- Whoever is served between the two states, while task `i` waits, was in front of it, and
nobody has come in front of it. -/
structure Fair (i : ℕ) (s t : Semaphore) : Prop where
  ahead : (t.ahead i).Sublist (s.ahead i)
  served : ∀ j, t.Served j → s.Served j ∨ j ∈ s.ahead i

theorem Fair.refl (i : ℕ) (s : Semaphore) : Fair i s s :=
  ⟨List.Sublist.refl _, fun _ h => .inl h⟩

theorem Fair.trans (h : Fair i s t) (h' : Fair i t u) : Fair i s u := by
  refine ⟨h'.ahead.trans h.ahead, ?_⟩
  intro j hj
  rcases h'.served j hj with hj | hj
  · exact h.served j hj
  · exact .inr (h.ahead.subset hj)

theorem takeWhile_append_of_mem {l : List ℕ} (h : i ∈ l) (m : List ℕ) :
    (l ++ m).takeWhile (· ≠ i) = l.takeWhile (· ≠ i) := by
  induction l with
  | nil => simp at h
  | cons a l ih =>
    by_cases ha : a = i
    · simp [ha]
    · have hl : i ∈ l := by simpa [Ne.symm ha] using h
      simpa [ha] using ih hl

theorem takeWhile_erase_sublist (l : List ℕ) {j : ℕ} (h : j ≠ i) :
    ((l.erase j).takeWhile (· ≠ i)).Sublist (l.takeWhile (· ≠ i)) := by
  induction l with
  | nil => simp
  | cons a l ih =>
    by_cases haj : a = j
    · subst a
      simp [h]
    · rw [List.erase_cons_tail (by simpa using haj)]
      by_cases hai : a = i
      · simp [hai]
      · simpa [hai] using ih

/-- A permit that is put back goes to the head of the queue, which task `i` is not. -/
theorem putBack_fair (hi : i ∈ s.waiting) (ht : i ∈ s.putBack.waiting)
    (honce : s.waiting.count i ≤ 1) : Fair i s s.putBack := by
  cases hqueue : s.waiting with
  | nil =>
    rw [hqueue] at hi
    cases hi
  | cons j rest =>
    have hback : s.putBack = { s with waiting := rest, granted := j :: s.granted } := by
      unfold putBack
      rw [hqueue]
    have hrest : i ∈ rest := by
      rw [hback] at ht
      exact ht
    have hne : j ≠ i := by
      rintro rfl
      have hcount := List.count_pos_iff.mpr hrest
      rw [hqueue, List.count_cons_self] at honce
      omega
    have hahead : s.ahead i = j :: rest.takeWhile (· ≠ i) := by simp [ahead, hqueue, hne]
    constructor
    · rw [hback, hahead]
      exact List.sublist_cons_self _ _
    · intro k hk
      rw [hback] at hk
      rcases hk with hk | hk
      · rcases List.mem_cons.mp hk with rfl | hk
        · exact .inr (by rw [hahead]; exact List.mem_cons_self)
        · exact .inl (.inl hk)
      · exact .inl (.inr hk)

theorem request_fair (h : s.Sound limit) (hi : i ∈ s.waiting) (k : ℕ) :
    Fair i s (s.request k).2 := by
  unfold request
  split
  · rename_i hk
    refine ⟨List.Sublist.refl _, ?_⟩
    rintro j (hj | hj)
    · exact .inl (.inl (List.mem_of_mem_erase hj))
    · rcases List.mem_cons.mp hj with rfl | hj
      · exact .inl (.inl hk)
      · exact .inl (.inr hj)
  · split
    · exact .refl i s
    · split
      · rename_i hfree
        rcases h.busy with hbusy | hempty
        · omega
        · rw [hempty] at hi
          cases hi
      · refine ⟨?_, fun _ hj => .inl hj⟩
        simp only [ahead, takeWhile_append_of_mem hi, List.Sublist.refl]

/-- Taking a task out of the lists of those served changes nothing for task `i`. -/
theorem Fair.of_fewer {granted holders : List ℕ} (hgranted : granted ⊆ s.granted)
    (hholders : holders ⊆ s.holders) :
    Fair i s { s with granted := granted, holders := holders } := by
  refine ⟨List.Sublist.refl _, ?_⟩
  rintro j (hj | hj)
  · exact .inl (.inl (hgranted hj))
  · exact .inl (.inr (hholders hj))

theorem release_fair (h : s.Sound limit) (hi : i ∈ s.waiting) {k : ℕ}
    (ht : i ∈ (s.release k).waiting) : Fair i s (s.release k) := by
  have honce := h.once i
  unfold release at ht ⊢
  split at ht
  · rename_i hk
    rw [if_pos hk]
    exact (Fair.of_fewer (fun _ hj => hj) List.erase_subset).trans
      (putBack_fair hi ht (by dsimp only; omega))
  · rename_i hk
    rw [if_neg hk]
    exact .refl i s

theorem cancel_fair (h : s.Sound limit) (hi : i ∈ s.waiting) {k : ℕ}
    (ht : i ∈ (s.cancel k).waiting) : Fair i s (s.cancel k) := by
  have honce := h.once i
  unfold cancel at ht ⊢
  split at ht
  · rename_i hk
    rw [if_pos hk]
    exact (Fair.of_fewer (fun _ hj => hj) List.erase_subset).trans
      (putBack_fair hi ht (by dsimp only; omega))
  · rename_i hk
    rw [if_neg hk]
    split at ht
    · rename_i hgranted
      rw [if_pos hgranted]
      exact (Fair.of_fewer List.erase_subset (fun _ hj => hj)).trans
        (putBack_fair hi ht (by dsimp only; omega))
    · rename_i hgranted
      rw [if_neg hgranted]
      have hne : k ≠ i := by
        rintro rfl
        have hcount := List.count_pos_iff.mpr ht
        rw [List.count_erase_self] at hcount
        omega
      exact ⟨takeWhile_erase_sublist _ hne, fun _ hj => .inl hj⟩

end Fairness

end Semaphore

end IamService.FairSemaphores
