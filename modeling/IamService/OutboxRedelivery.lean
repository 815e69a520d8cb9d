import IamService.OutboxDelivery

/-!
# When a delivered row stays delivered

Fetching takes no lock, and a row is marked by its id alone, whatever its status is by
then. A worker that has fetched a row and has not seen the broker acknowledge it can
still mark it as failed, and that takes the row out of its final state. A processed row
stays processed exactly when no running worker has it in hand in this way.
-/

namespace IamService.OutboxRedelivery
open EffectPrograms RelationTables OutboxRepository OutboxDelivery ReferenceLibraries

variable {Value : Type} {α : Type}

/-- The row that an operation counts as a failed attempt. -/
def marksFailed : OutboxOp Value → Option Uuid
  | .markFailed id => some id
  | _ => none

def fetches : OutboxOp Value → Bool
  | .fetchPending _ => true
  | _ => false

/-- The rows an operation has fetched. -/
def fetchedRows : (o : OutboxOp Value) → o.Ans → List Uuid
  | .fetchPending _, .ok records => records.map (·.id)
  | _, _ => []

/-- What an operation answers while broker and database are unreachable. -/
def outageAnswer : (o : OutboxOp Value) → o.Ans
  | .insert _ _ => .error (.database .unavailable "")
  | .fetchPending _ => .error (.database .unavailable "")
  | .markProcessed _ => .error (.database .unavailable "")
  | .markFailed _ => .error (.database .unavailable "")
  | .publish _ => .error ""
  | .sleep _ => ()

/-- The rows of its last batch that a program has yet to publish or has seen fail: those it
would mark as failed in an outage. -/
def inHand : OutboxProgram Value α → List Uuid
  | .ret _ => []
  | .eff o k => if fetches o then [] else (marksFailed o).toList ++ inHand (k (outageAnswer o))

/-- What a program has in hand comes from its last fetch. -/
def Grounded : OutboxProgram Value α → Prop
  | .ret _ => True
  | .eff o k => ∀ x, Grounded (k x) ∧ inHand (k x) ⊆ fetchedRows o x ++ inHand (.eff o k)

section Workers

variable {codec : EventCodec Value} {worker : OutboxWorker} {f : Unit → OutboxProgram Value α}

/-- Marking a row and going on, whatever the answer is. -/
theorem markFailed_bind (id : Uuid) (hf : Grounded (f ())) :
    Grounded ((outbox (.markFailed id) >>= fun _ => pure ()) >>= f : OutboxProgram Value α) ∧
      inHand ((outbox (.markFailed id) >>= fun _ => pure ()) >>= f : OutboxProgram Value α) =
        id :: inHand (f ()) := by
  refine ⟨fun _ => ⟨hf, ?_⟩, rfl⟩
  exact List.subset_cons_self id (inHand (f ()))

theorem markProcessed_bind (id : Uuid) (hf : Grounded (f ())) :
    Grounded ((outbox (.markProcessed id) >>= fun _ => pure ()) >>= f : OutboxProgram Value α) ∧
      inHand ((outbox (.markProcessed id) >>= fun _ => pure ()) >>= f : OutboxProgram Value α) =
        inHand (f ()) :=
  ⟨fun _ => ⟨hf, List.Subset.refl _⟩, rfl⟩

theorem deliver_bind (record : OutboxRecord Value) (hf : Grounded (f ())) :
    Grounded (worker.deliver codec record >>= f) ∧
      inHand (worker.deliver codec record >>= f) = record.id :: inHand (f ()) := by
  have hfailed := @markFailed_bind Value α f record.id hf
  have hprocessed := @markProcessed_bind Value α f record.id hf
  unfold OutboxWorker.deliver
  split
  · exact hfailed
  · refine ⟨?_, hfailed.2⟩
    intro x
    cases x with
    | ok messageId => exact ⟨hprocessed.1, List.subset_cons_self record.id (inHand (f ()))⟩
    | error e => exact ⟨hfailed.1, List.Subset.refl _⟩

theorem deliverAll_bind (pending : List (OutboxRecord Value)) (hf : Grounded (f ())) :
    Grounded (worker.deliverAll codec pending >>= f) ∧
      inHand (worker.deliverAll codec pending >>= f) = pending.map (·.id) ++ inHand (f ()) := by
  induction pending with
  | nil => exact ⟨hf, rfl⟩
  | cons record pending ih =>
    rw [OutboxWorker.deliverAll, Prog.bind_assoc]
    obtain ⟨hgrounded, hhand⟩ := @deliver_bind Value α codec worker
      (fun _ => worker.deliverAll codec pending >>= f) record ih.1
    refine ⟨hgrounded, ?_⟩
    rw [hhand, ih.2]
    rfl

/-- One round, followed by a continuation with nothing in hand. -/
theorem tick_bind (worker : OutboxWorker) {g : ℕ → OutboxProgram Value α} (hg : ∀ n, Grounded (g n))
    (hhand : ∀ n, inHand (g n) = []) : Grounded (worker.tick codec >>= g) := by
  intro x
  cases x with
  | error e =>
    -- the worker pauses
    refine ⟨fun _ => ⟨hg 0, ?_⟩, ?_⟩
    · exact List.subset_append_right _ _
    · change inHand (g 0) ⊆ _
      simp [hhand]
  | ok pending =>
    obtain ⟨hgrounded, hids⟩ := @deliverAll_bind Value α codec worker (fun _ => g pending.length)
      pending (hg pending.length)
    change Grounded ((worker.deliverAll codec pending >>= fun _ => pure pending.length) >>= g) ∧
      inHand ((worker.deliverAll codec pending >>= fun _ => pure pending.length) >>= g) ⊆ _
    rw [Prog.bind_assoc]
    refine ⟨hgrounded, ?_⟩
    change inHand (worker.deliverAll codec pending >>= fun _ => g pending.length) ⊆ _
    rw [hids, hhand]
    exact List.Subset.refl _

/-- A worker has nothing in hand before its first fetch. -/
theorem run_bind (worker : OutboxWorker) (rounds : ℕ) (hf : Grounded (f ()))
    (hhand : inHand (f ()) = []) : Grounded (worker.run codec rounds >>= f) ∧
      inHand (worker.run codec rounds >>= f) = [] := by
  induction rounds with
  | zero => exact ⟨hf, hhand⟩
  | succ n ih =>
    refine ⟨?_, rfl⟩
    rw [OutboxWorker.run, Prog.bind_assoc]
    apply tick_bind
    · intro count
      split
      · exact fun _ => ⟨ih.1, List.subset_append_right _ _⟩
      · exact ih.1
    · intro count
      split
      · exact ih.2
      · exact ih.2

theorem launched_grounded {p : OutboxProgram Value (Result Unit)} {σ : Type} {s : σ}
    (h : Launched codec s p) : Grounded p ∧ inHand p = [] := by
  obtain ⟨activity, rfl⟩ := h
  cases activity with
  | enqueue event =>
    change Grounded (OutboxRepository.enqueue codec event) ∧
      inHand (OutboxRepository.enqueue codec event) = []
    unfold OutboxRepository.enqueue
    cases codec.toValue event with
    | error e => exact ⟨trivial, rfl⟩
    | ok payload => exact ⟨fun _ => ⟨trivial, List.nil_subset _⟩, rfl⟩
  | drain worker rounds => exact run_bind worker rounds trivial rfl

end Workers

section Stability

variable {codec : EventCodec Value} {id : Uuid} {stuck : Prop}

/-- The row with the id is processed, and cannot be marked as failed if it is `stuck`. -/
def Processed (id : Uuid) (stuck : Prop) (t : OutboxTable Value) : Prop :=
  ∃ r ∈ t.rows, r.id = id ∧ r.status = "PROCESSED" ∧ (stuck → maxInteger ≤ r.attempts)

/-- An operation that does not mark the row as failed, or cannot, leaves it processed. -/
theorem processed_handle {c : OutboxChoice} {s : OutboxState Value} {o : OutboxOp Value}
    (hs : Processed id stuck s.table) (ho : stuck ∨ marksFailed o ≠ some id) :
    Processed id stuck (handle codec c s o).2.table := by
  obtain ⟨r, hr, hid, hstatus, hstuck⟩ := hs
  rcases handle_table codec c s o with ht | ⟨eventType, payload, -, ht⟩ | ⟨id', rfl, ht⟩ |
    ⟨id', rfl, hbound, ht⟩
  · exact ht ▸ ⟨r, hr, hid, hstatus, hstuck⟩
  · exact ⟨r, ht ▸ List.mem_append_left _ hr, hid, hstatus, hstuck⟩
  · refine ⟨_, ht ▸ mem_updateWhere.mpr ⟨r, hr, rfl⟩, ?_⟩
    split
    · exact ⟨hid, rfl, hstuck⟩
    · exact ⟨hid, hstatus, hstuck⟩
  · have hother : r.id ≠ id' := by
      intro he
      rcases ho with ho | ho
      · have := hstuck ho
        have := hbound r hr he
        omega
      · exact ho (congrArg some (he.symm.trans hid))
    refine ⟨r, ht ▸ mem_updateWhere.mpr ⟨r, hr, ?_⟩, hid, hstatus, hstuck⟩
    rw [if_neg (by simpa using hother)]

/-- The terms on which the row stays processed. -/
def keeping (id : Uuid) (stuck : Prop) : Discipline (OutboxOp Value) OutboxChoice (OutboxState Value) where
  inv := fun s => Processed id stuck s.table
  rely := fun _ _ => True
  permits := fun _ o => stuck ∨ marksFailed o ≠ some id
  admits := fun _ _ _ => True

theorem keeping_sound : (keeping id stuck).Sound (handle codec) where
  refl _ := trivial
  trans _ _ := trivial
  inv_step hs ho _ := processed_handle hs ho
  rely_step _ _ _ := trivial

/-- A processed row is not fetched. -/
theorem not_fetched {c : OutboxChoice} {s : OutboxState Value} (hs : Processed id stuck s.table)
    (o : OutboxOp Value) : id ∉ fetchedRows o (handle codec c s o).1 := by
  obtain ⟨r, hr, hid, hstatus, -⟩ := hs
  cases o with
  | fetchPending limit =>
    cases hf : c.fails with
    | true => simp [handle, hf, fetchedRows]
    | false =>
      simp only [handle, hf, Bool.false_eq_true, if_false, fetchedRows, List.mem_map, not_exists,
        not_and]
      intro record hrecord he
      obtain ⟨r', hr', hpending, hid', -⟩ := mem_fetchPending hrecord
      have hrow : r' = r := s.table.eq_of_id hr' hr (hid'.trans (he.trans hid.symm))
      rw [hrow, hstatus] at hpending
      simp at hpending
  | _ => simp [fetchedRows]

theorem safe_of_grounded {p : OutboxProgram Value α} (hp : Grounded p) (hhand : stuck ∨ id ∉ inHand p)
    (s : OutboxState Value) : Safe (handle codec) (keeping id stuck) (fun _ _ => True) p s := by
  induction p generalizing s with
  | ret a => trivial
  | eff o k ih =>
    intro t _ ht
    constructor
    · rcases hhand with h | h
      · exact .inl h
      · right
        intro hmarks
        cases o <;> simp_all [marksFailed, inHand, fetches]
    · intro c _
      obtain ⟨hk, hsub⟩ := hp (handle codec c t o).1
      refine ih _ hk ?_ _
      rcases hhand with h | h
      · exact .inl h
      · right
        intro hmem
        rcases List.mem_append.mp (hsub hmem) with hmem | hmem
        · exact not_fetched ht o hmem
        · exact h hmem

end Stability

section Outage

variable {codec : EventCodec Value} {id : Uuid}

/-- Broker and database are unreachable. -/
def outage : OutboxChoice := { fails := true }

theorem handle_outage (s : OutboxState Value) (o : OutboxOp Value) :
    (handle codec outage s o).1 = outageAnswer o ∧ (handle codec outage s o).2.table = s.table := by
  cases o with
  | insert eventType payload =>
    simp only [handle, settle]
    split <;> simp [outage, outageAnswer]
  | markFailed id =>
    simp only [handle, settle]
    split <;> simp [outage, outageAnswer]
  | _ => simp [handle, settle, outage, outageAnswer]

/-- Marking a processed row as failed takes it out of its state. -/
theorem markFailed_reverts {s : OutboxState Value} {r : OutboxRow Value} (hr : r ∈ s.table.rows)
    (hid : r.id = id) (hbound : r.attempts < maxInteger) :
    ¬ Processed id False (handle codec {} s (.markFailed id)).2.table := by
  have hmarked : markFailed (s.now + 0) s.table id =
      .ok (s.table.update id (failedRow (s.now + 0)) (fun _ => rfl)) := by
    apply markFailed_of_lt
    intro r' hr' hid'
    rw [s.table.eq_of_id hr' hr (hid'.trans hid.symm)]
    exact hbound
  simp only [handle, settle, hmarked, Bool.false_eq_true, if_false]
  rintro ⟨r', hr', hid', hstatus, -⟩
  obtain ⟨r₀, -, rfl⟩ := mem_updateWhere.mp hr'
  split at hid' <;> rename_i hown
  · rw [if_pos hown] at hstatus
    simp only [failedRow] at hstatus
    split at hstatus <;> simp at hstatus
  · exact hown (decide_eq_true hid')

/-- A program with a row in hand can bring the row out of its final state: in an outage it
comes to mark the row as failed, and the statement succeeds once the database is back. -/
theorem reverts_of_inHand {starts : OutboxState Value → OutboxProgram Value α → Prop}
    (p : OutboxProgram Value α) {i : ℕ} {s : OutboxState Value} {ps : List (OutboxProgram Value α)}
    (hi : ps[i]? = some p) (hhand : id ∈ inHand p) {r : OutboxRow Value} (hr : r ∈ s.table.rows)
    (hid : r.id = id) (hbound : r.attempts < maxInteger) :
    ∃ t qs, Later (handle codec) starts (fun _ _ _ => True) s ps t qs ∧ ¬ Processed id False t.table := by
  induction p generalizing s ps with
  | ret a => simp [inHand] at hhand
  | eff o k ih =>
    have hstep : ∀ c, Later (handle codec) starts (fun _ _ _ => True) s ps (handle codec c s o).2
        (ps.set i (k (handle codec c s o).1)) := fun c => .step .refl hi trivial
    by_cases hmarks : marksFailed o = some id
    · cases o with
      | markFailed id' =>
        cases hmarks
        exact ⟨_, _, hstep {}, markFailed_reverts hr hid hbound⟩
      | _ => cases hmarks
    · have hrest : id ∈ inHand (k (outageAnswer o)) := by
        unfold inHand at hhand
        split at hhand
        · simp at hhand
        · rcases List.mem_append.mp hhand with h | h
          · exact absurd (Option.mem_toList.mp h) hmarks
          · exact h
      have hlen : i < ps.length := (List.getElem?_eq_some_iff.mp hi).1
      obtain ⟨hans, htable⟩ := @handle_outage Value codec s o
      obtain ⟨t, qs, hlater, hreverted⟩ := ih (handle codec outage s o).1
        (List.getElem?_set_self hlen) (hans ▸ hrest) (htable ▸ hr)
      exact ⟨t, qs, (hstep outage).trans hlater, hreverted⟩

end Outage

variable {codec : EventCodec Value}

/-- A row that has become processed is processed in every later state exactly when no
running program has it in hand, or its counter of attempts is exhausted. -/
theorem processed_row_stays_iff {s : OutboxState Value}
    {ps : List (OutboxProgram Value (Result Unit))}
    (h : Reach (handle codec) (Launched codec) (fun _ _ _ => True) (fun _ => True) s ps)
    {row : OutboxRow Value} (hrow : row ∈ s.table.rows) (hprocessed : row.status = "PROCESSED") :
    (∀ t qs, Later (handle codec) (Launched codec) (fun _ _ _ => True) s ps t qs →
      ∃ r ∈ t.table.rows, r.id = row.id ∧ r.status = "PROCESSED") ↔
      (∀ p ∈ ps, row.id ∉ inHand p) ∨ maxInteger ≤ row.attempts := by
  constructor
  · intro hstays
    by_contra hnot
    rw [not_or] at hnot
    obtain ⟨hheld, hbound⟩ := hnot
    push Not at hheld
    obtain ⟨p, hp, hhand⟩ := hheld
    obtain ⟨i, hi⟩ := List.getElem?_of_mem hp
    obtain ⟨t, qs, hlater, hreverted⟩ :=
      reverts_of_inHand p hi hhand hrow rfl (Nat.lt_of_not_le hbound)
    obtain ⟨r, hr, hid, hstatus⟩ := hstays t qs hlater
    exact hreverted ⟨r, hr, hid, hstatus, False.elim⟩
  · intro hcondition t qs hlater
    have hgrounded : ∀ p ∈ ps, Grounded p := by
      refine h.hereditary ?_ ?_
      · intro _ p hp
        exact (launched_grounded hp).1
      · intro o k hk x
        exact (hk x).1
    have hpool : SafePool (handle codec) (keeping row.id (maxInteger ≤ row.attempts))
        (fun _ _ => True) s ps := by
      refine ⟨⟨row, hrow, rfl, hprocessed, fun hstuck => hstuck⟩, ?_⟩
      intro p hp
      refine safe_of_grounded (hgrounded p hp) ?_ s
      exact hcondition.symm.imp_right (fun hclear => hclear p hp)
    have hstart : ∀ (s : OutboxState Value) p, (keeping row.id (maxInteger ≤ row.attempts)).inv s →
        Launched codec s p → Safe (handle codec) (keeping row.id (maxInteger ≤ row.attempts))
          (fun _ _ => True) p s := by
      intro s p _ hp
      obtain ⟨hp, hempty⟩ := launched_grounded hp
      refine safe_of_grounded hp (.inr ?_) s
      simp [hempty]
    obtain ⟨r, hr, hid, hstatus, -⟩ := Later.inv keeping_sound hstart hpool hlater
    exact ⟨r, hr, hid, hstatus⟩

/-- The outbox and the two replicas after a schedule. -/
def drained (l : List (ℕ × OutboxChoice)) :
    OutboxState Json × List (OutboxProgram Json (Result Unit)) :=
  schedule (handle eventCodec) (⟨0, .empty⟩, replicas) l

theorem drained_reached (l : List (ℕ × OutboxChoice)) :
    Reach (handle eventCodec) (Launched eventCodec) (fun _ _ _ => True) (fun _ => True)
      (drained l).1 (drained l).2 :=
  Reach.schedule (Reach.pool trivial replicas (replicas_launched _)) l
    (Admitted.of_forall (fun _ _ _ => trivial) _ l)

/-- The ids and the status of all rows. -/
def statuses (t : OutboxTable Json) : List (Uuid × String) := t.rows.map (fun r => (r.id, r.status))

/-- The first replica fetches, delivers and marks the row before the second one looks. -/
def oneDelivers : List (ℕ × OutboxChoice) := [(0, { uuid := ⟨21⟩ }), (1, {}), (1, {}), (1, {})]

/-- Then the row is processed for ever. -/
theorem delivered_once_stays :
    (⟨21⟩, "PROCESSED") ∈ statuses (drained oneDelivers).1.table ∧
      ∀ t qs, Later (handle eventCodec) (Launched eventCodec) (fun _ _ _ => True)
        (drained oneDelivers).1 (drained oneDelivers).2 t qs → (⟨21⟩, "PROCESSED") ∈ statuses t.table := by
  have hstate : (⟨21⟩, "PROCESSED") ∈ statuses (drained oneDelivers).1.table ∧
      (drained oneDelivers).2.map inHand = [[], [], []] := by
    decide +kernel
  refine ⟨hstate.1, ?_⟩
  obtain ⟨row, hrow, heq⟩ := List.mem_map.mp hstate.1
  obtain ⟨hid, hstatus⟩ := Prod.mk.inj heq
  have hclear : ∀ p ∈ (drained oneDelivers).2, row.id ∉ inHand p := by
    intro p hp
    have hmem : inHand p ∈ [[], [], []] := hstate.2 ▸ List.mem_map_of_mem hp
    have hempty : inHand p = [] := by simpa using hmem
    simp [hempty]
  intro t qs hlater
  obtain ⟨r, hr, hrid, hrs⟩ := (processed_row_stays_iff (drained_reached oneDelivers) hrow hstatus).mpr
    (.inl hclear) t qs hlater
  exact List.mem_map.mpr ⟨r, hr, Prod.ext (hrid.trans hid) hrs⟩

/-- Both replicas fetch the row before the first one delivers it and marks it as processed. -/
def bothFetch : List (ℕ × OutboxChoice) :=
  [(0, { uuid := ⟨21⟩ }), (1, {}), (2, {}), (1, {}), (1, {})]

/-- The broker fails the second replica, which puts the row back. -/
def secondFails : List (ℕ × OutboxChoice) := [(2, { fails := true }), (2, {})]

theorem delivered_row_put_back :
    ¬ ∀ (s : OutboxState Json) (ps : List (OutboxProgram Json (Result Unit))),
      Reach (handle eventCodec) (Launched eventCodec) (fun _ _ _ => True) (fun _ => True) s ps →
      ∀ t qs, Later (handle eventCodec) (Launched eventCodec) (fun _ _ _ => True) s ps t qs →
        ∀ id, (id, "PROCESSED") ∈ statuses s.table → (id, "PROCESSED") ∈ statuses t.table := by
  intro h
  have hlater := @Later.schedule _ _ _ _ _ (handle eventCodec) (Launched eventCodec)
    (fun _ _ _ => True) (drained bothFetch).1 (drained bothFetch).2 secondFails
    (Admitted.of_forall (fun _ _ _ => trivial) _ _)
  have hstays := h _ _ (drained_reached bothFetch) _ _ hlater ⟨21⟩
  have hrun : (⟨21⟩, "PROCESSED") ∈ statuses (drained bothFetch).1.table ∧
      (⟨21⟩, "PROCESSED") ∉ statuses (schedule (handle eventCodec)
        ((drained bothFetch).1, (drained bothFetch).2) secondFails).1.table := by
    decide +kernel
  exact hrun.2 (hstays hrun.1)

end IamService.OutboxRedelivery
