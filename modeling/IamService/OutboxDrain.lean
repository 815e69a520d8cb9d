import IamService.OutboxDelivery

/-!
# The outbox drains

A single worker, a database that does not fail and no new rows. Every row that a tick fetches
uses up one of its attempts or is processed, whatever the broker does, so that the attempts
left over all pending rows bound the number of ticks that still find work.
-/

namespace IamService.OutboxDrain
open EffectPrograms RelationTables OutboxRepository OutboxDelivery

variable {Value : Type}

/-- The attempts that a row has left while it is pending. -/
def budget (r : OutboxRow Value) : ℕ := if r.status = "PENDING" then maxAttempts - r.attempts else 0

/-- The attempts left over the rows with some ids. -/
def left (q : Uuid → Bool) (t : OutboxTable Value) : ℕ :=
  (t.rows.map fun r => if q r.id then budget r else 0).sum

/-- The sum of `10 - attempts` over the pending rows. -/
def remaining (t : OutboxTable Value) : ℕ :=
  ((t.rows.filter fun r => r.status = "PENDING").map fun r => maxAttempts - r.attempts).sum

/-- No pending row has used up its attempts. -/
def Budgeted (t : OutboxTable Value) : Prop :=
  ∀ r ∈ t.rows, r.status = "PENDING" → r.attempts < maxAttempts

/-- The database executes every statement; the broker may fail. -/
def Healthy {σ : Type} (c : OutboxChoice) (_ : σ) : OutboxOp Value → Prop
  | .publish _ => True
  | _ => c.fails = false

instance {σ : Type} (c : OutboxChoice) (s : σ) (o : OutboxOp Value) : Decidable (Healthy c s o) := by
  unfold Healthy
  split <;> infer_instance

section Tables

variable {t t' : OutboxTable Value} {id : Uuid}

theorem remaining_eq_left (t : OutboxTable Value) : remaining t = left (fun _ => true) t := by
  unfold remaining left
  generalize t.rows = rows
  induction rows with
  | nil => rfl
  | cons r rows ih =>
    simp only [if_true] at ih ⊢
    by_cases h : r.status = "PENDING" <;> simp [budget, h, ih]

theorem budget_le (r : OutboxRow Value) : budget r ≤ maxAttempts := by
  unfold budget
  split
  · exact Nat.sub_le _ _
  · exact Nat.zero_le _

/-- Marking a fetched row uses up an attempt of its own and leaves the other rows alone. -/
structure Spent (t t' : OutboxTable Value) (id : Uuid) : Prop where
  left : ∀ q, left q t' + (if q id then 1 else 0) ≤ left q t
  budgeted : Budgeted t'
  others : ∀ r ∈ t.rows, r.id ≠ id → r ∈ t'.rows

theorem spent_update {f : OutboxRow Value → OutboxRow Value} (hbudgeted : Budgeted t)
    (ht : t'.rows = updateWhere (fun r => r.id = id) f t.rows) (hid : ∀ r, (f r).id = r.id)
    (hrow : ∃ r ∈ t.rows, r.id = id ∧ r.status = "PENDING")
    (hpending : ∀ r, (f r).status = "PENDING" → (f r).attempts < maxAttempts)
    (hless : ∀ r, r.status = "PENDING" → r.attempts < maxAttempts → budget (f r) < budget r) :
    Spent t t' id := by
  obtain ⟨r₀, hr₀, rfl, hstatus₀⟩ := hrow
  have hspent : budget (f r₀) < budget r₀ := hless r₀ hstatus₀ (hbudgeted r₀ hr₀ hstatus₀)
  refine ⟨?_, ?_, ?_⟩
  · intro q
    unfold OutboxDrain.left
    rw [ht]
    refine sum_updateWhere_add_le hr₀ (by simp) ?_ ?_
    · simp only [hid]
      split <;> omega
    · intro r hr hp
      rw [t.eq_of_id hr hr₀ (of_decide_eq_true hp)]
      simp only [hid]
      split <;> omega
  · intro r hr
    rw [ht] at hr
    obtain ⟨s, hs, rfl⟩ := mem_updateWhere.mp hr
    split
    · exact hpending s
    · exact hbudgeted s hs
  · intro r hr hne
    rw [ht]
    exact mem_updateWhere.mpr ⟨r, hr, by simp [hne]⟩

theorem spent_processed (now : ℕ) (hbudgeted : Budgeted t)
    (hrow : ∃ r ∈ t.rows, r.id = id ∧ r.status = "PENDING") :
    Spent t (markProcessed now t id) id := by
  refine spent_update hbudgeted rfl (fun _ => rfl) hrow ?_ ?_
  · intro r h
    simp [processedRow] at h
  · intro r hstatus hlt
    simp [budget, processedRow, hstatus]
    omega

theorem spent_failed (now : ℕ) (hbudgeted : Budgeted t)
    (hrow : ∃ r ∈ t.rows, r.id = id ∧ r.status = "PENDING") :
    ∃ t', markFailed now t id = .ok t' ∧ Spent t t' id := by
  have hbound : ∀ r ∈ t.rows, r.id = id → r.attempts < maxInteger := by
    intro r hr hid
    obtain ⟨r₀, hr₀, hid₀, hstatus₀⟩ := hrow
    rw [t.eq_of_id hr hr₀ (hid.trans hid₀.symm)]
    exact (hbudgeted r₀ hr₀ hstatus₀).trans (by decide)
  refine ⟨_, markFailed_of_lt now hbound, spent_update hbudgeted rfl (fun _ => rfl) hrow ?_ ?_⟩
  · intro r h
    by_cases hmax : maxAttempts ≤ r.attempts + 1
    · simp [failedRow, hmax] at h
    · simpa [failedRow] using hmax
  · intro r hstatus hlt
    by_cases hmax : maxAttempts ≤ r.attempts + 1
    · simp [budget, failedRow, hstatus, hmax]
      omega
    · simp [budget, failedRow, hstatus, hmax]
      omega

end Tables

section Histories

/-- The record of a publication, whatever the broker answers. -/
def published : Observed (@OutboxOp.Ans Value) (OutboxState Value) → Option (KafkaRecord Value)
  | ⟨_, .publish record, _, _⟩ => some record
  | _ => none

/-- The rows that ticks have fetched. -/
def batches (h : History Value) : List (List (OutboxRecord Value)) := h.filterMap fetched

/-- The records that have been handed to the broker. -/
def sent (h : History Value) : List (KafkaRecord Value) := h.filterMap published

/-- What a fetched row is published as. -/
def decoded (codec : EventCodec Value) (worker : OutboxWorker) (record : OutboxRecord Value) :
    Option (KafkaRecord Value) :=
  (codec.fromValue record.payload).toOption.map (worker.kafka.record codec)

end Histories

section Ticks

variable {codec : EventCodec Value} {worker : OutboxWorker} {s : Traced Value}
  {record : OutboxRecord Value}

/-- The row of a record is pending. -/
def Pending (t : OutboxTable Value) (record : OutboxRecord Value) : Prop :=
  ∃ r ∈ t.rows, r.id = record.id ∧ r.status = "PENDING"

variable (codec) in
/-- What a worker establishes that runs alone on a healthy database. -/
abbrev Ends {α : Type} (Q : α → Traced Value → Prop) (p : OutboxProgram Value α) (s : Traced Value) :
    Prop :=
  Safe (recorded (handle codec)) (.solo Healthy) Q p s

/-- A mark that spends an attempt of the row. -/
theorem markFailed_spends (hbudgeted : Budgeted s.1.table) (hrow : Pending s.1.table record) :
    Ends codec (fun _ u => Spent s.1.table u.1.table record.id ∧ batches u.2 = batches s.2 ∧
      sent u.2 = sent s.2) (outbox (.markFailed record.id) >>= fun _ => pure ()) s := by
  refine safe_solo_eff.mpr ?_
  intro c hc
  obtain ⟨t', ht', hspent⟩ := spent_failed (s.1.now + c.elapsed) hbudgeted hrow
  have hup : c.fails = false := hc
  have htable : (handle codec c s.1 (.markFailed record.id)).2.table = t' := by
    simp [handle, settle, ht', hup]
  refine ⟨?_, ?_, ?_⟩
  · rw [recorded_state, htable]
    exact hspent
  · simp [batches, fetched]
  · simp [sent, published]

theorem markProcessed_spends (hbudgeted : Budgeted s.1.table) (hrow : Pending s.1.table record) :
    Ends codec (fun _ u => Spent s.1.table u.1.table record.id ∧ batches u.2 = batches s.2 ∧
      sent u.2 = sent s.2) (outbox (.markProcessed record.id) >>= fun _ => pure ()) s := by
  refine safe_solo_eff.mpr ?_
  intro c hc
  have hup : c.fails = false := hc
  have htable : (handle codec c s.1 (.markProcessed record.id)).2.table =
      markProcessed (s.1.now + c.elapsed) s.1.table record.id := by
    simp [handle, settle, hup]
  refine ⟨?_, ?_, ?_⟩
  · rw [recorded_state, htable]
    exact spent_processed _ hbudgeted hrow
  · simp [batches, fetched]
  · simp [sent, published]

/-- Delivering a pending row spends an attempt of the row, and publishes it once if it can be
decoded. -/
theorem deliver_spends (hbudgeted : Budgeted s.1.table) (hrow : Pending s.1.table record) :
    Ends codec (fun _ u => Spent s.1.table u.1.table record.id ∧ batches u.2 = batches s.2 ∧
      sent u.2 = sent s.2 ++ (decoded codec worker record).toList) (worker.deliver codec record) s := by
  unfold OutboxWorker.deliver
  split
  · rename_i e he
    have hnone : decoded codec worker record = none := by simp [decoded, he, Except.toOption]
    simpa [hnone] using markFailed_spends hbudgeted hrow
  · rename_i event hevent
    have hsome : decoded codec worker record = some (worker.kafka.record codec event) := by
      simp [decoded, hevent, Except.toOption]
    refine safe_solo_eff.mpr ?_
    intro c _
    -- the table is as before the publication, and the history holds one more event
    have hsent : sent (recorded (handle codec) c s
        (.publish (worker.kafka.record codec event))).2.2 =
        sent s.2 ++ (decoded codec worker record).toList := by
      simp [sent, published, hsome]
    have hbatches : batches (recorded (handle codec) c s
        (.publish (worker.kafka.record codec event))).2.2 = batches s.2 := by
      simp [batches, fetched]
    rw [← hsent, ← hbatches]
    cases hf : c.fails with
    | true =>
      simp only [recorded_ans, handle, hf, if_true]
      exact markFailed_spends hbudgeted hrow
    | false =>
      simp only [recorded_ans, handle, hf, Bool.false_eq_true, if_false]
      exact markProcessed_spends hbudgeted hrow

/-- Delivering a batch of pending rows spends an attempt of each. -/
theorem deliverAll_spends {pending : List (OutboxRecord Value)} (hbudgeted : Budgeted s.1.table)
    (hnodup : (pending.map (·.id)).Nodup) (hrows : ∀ record ∈ pending, Pending s.1.table record) :
    Ends codec (fun _ u => (∀ q, left q u.1.table + pending.countP (fun r => q r.id) ≤ left q s.1.table) ∧
      Budgeted u.1.table ∧ batches u.2 = batches s.2 ∧
      sent u.2 = sent s.2 ++ pending.filterMap (decoded codec worker))
      (worker.deliverAll codec pending) s := by
  induction pending generalizing s with
  | nil =>
    refine ⟨?_, hbudgeted, rfl, by simp⟩
    intro q
    simp
  | cons record pending ih =>
    obtain ⟨hnew, hnodup⟩ := List.nodup_cons.mp hnodup
    obtain ⟨hrow, hrows⟩ := List.forall_mem_cons.mp hrows
    refine Safe.bind ((deliver_spends hbudgeted hrow).mono ?_)
    rintro _ u ⟨⟨hleft, hbudgeted', hothers⟩, hbatches, hsent⟩
    have hrows' : ∀ r ∈ pending, Pending u.1.table r := by
      intro r hr
      obtain ⟨row, hmem, hid, hstatus⟩ := hrows r hr
      refine ⟨row, hothers row hmem ?_, hid, hstatus⟩
      rintro heq
      exact hnew (List.mem_map.mpr ⟨r, hr, hid.symm.trans heq⟩)
    refine (ih hbudgeted' hnodup hrows').mono ?_
    rintro _ v ⟨hleft', hbudgeted'', hbatches', hsent'⟩
    refine ⟨?_, hbudgeted'', hbatches'.trans hbatches, ?_⟩
    · intro q
      have hfirst := hleft q
      have hrest := hleft' q
      rw [List.countP_cons]
      omega
    · rw [hsent', hsent, List.append_assoc]
      cases hd : decoded codec worker record <;> simp [hd]

end Ticks

section Fetches

variable {c : OutboxChoice} {t : OutboxTable Value} {limit : ℕ}

/-- No row is pending. -/
def Drained (t : OutboxTable Value) : Prop := ∀ r ∈ t.rows, r.status ≠ "PENDING"

theorem nodup_fetchPending : ((fetchPending c t limit).map (·.id)).Nodup := by
  have hsorted := List.perm_insertionSort (fun a b => oldestFirst c a b)
    (t.rows.filter fun r => r.status = "PENDING")
  have hids : ((t.rows.filter fun r => r.status = "PENDING").map (·.id)).Nodup :=
    t.unique.sublist (List.filter_sublist.map _)
  rw [fetchPending, List.map_map]
  exact (((hsorted.map _).nodup_iff).mpr hids).sublist ((List.take_sublist _ _).map _)

theorem pending_of_mem {record : OutboxRecord Value} (h : record ∈ fetchPending c t limit) :
    Pending t record := by
  obtain ⟨r, hr, hstatus, hid, -⟩ := mem_fetchPending h
  exact ⟨r, hr, hid, hstatus⟩

/-- A fetch that returns nothing has found nothing. -/
theorem drained_of_fetchPending (hlimit : 1 ≤ limit) (h : fetchPending c t limit = []) : Drained t := by
  intro r hr hstatus
  have hmem : r ∈ (t.rows.filter fun r => r.status = "PENDING").insertionSort
      (fun a b => oldestFirst c a b) :=
    (List.mem_insertionSort _).mpr (List.mem_filter.mpr ⟨hr, decide_eq_true hstatus⟩)
  rw [fetchPending, List.map_eq_nil_iff, List.take_eq_nil_iff] at h
  rcases h with h | h
  · omega
  · rw [h] at hmem
    cases hmem

theorem Drained.fetchPending (h : Drained t) (c : OutboxChoice) (limit : ℕ) :
    fetchPending c t limit = [] := by
  have hnone : t.rows.filter (fun r => r.status = "PENDING") = [] := by
    rw [List.filter_eq_nil_iff]
    intro r hr
    simpa using h r hr
  simp [OutboxRepository.fetchPending, hnone]

/-- Nothing is pending exactly when no attempts are left. -/
theorem drained_iff (h : Budgeted t) : Drained t ↔ remaining t = 0 := by
  rw [remaining, List.sum_eq_zero_iff_forall_eq_nat]
  constructor
  · intro hdrained x hx
    obtain ⟨r, hr, -⟩ := List.mem_map.mp hx
    obtain ⟨hr, hstatus⟩ := List.mem_filter.mp hr
    exact absurd (of_decide_eq_true hstatus) (hdrained r hr)
  · intro hzero r hr hstatus
    have hspent := hzero _ (List.mem_map_of_mem (List.mem_filter.mpr ⟨hr, decide_eq_true hstatus⟩))
    have hleft := h r hr hstatus
    omega

/-- A row has at most ten attempts, and so have the rows of one id. -/
theorem left_id_le (t : OutboxTable Value) (id : Uuid) : left (fun x => x = id) t ≤ maxAttempts := by
  unfold left
  have hunique := t.unique
  generalize t.rows = rows at hunique
  induction rows with
  | nil => exact Nat.zero_le _
  | cons r rows ih =>
    obtain ⟨hnew, hunique⟩ := List.nodup_cons.mp hunique
    rw [List.map_cons, List.sum_cons]
    by_cases hid : r.id = id
    · have hothers : (rows.map fun s => if decide (s.id = id) then budget s else 0).sum = 0 := by
        rw [List.sum_eq_zero_iff_forall_eq_nat]
        intro x hx
        obtain ⟨s, hs, rfl⟩ := List.mem_map.mp hx
        have hne : s.id ≠ id := fun h => hnew (List.mem_map.mpr ⟨s, hs, h.trans hid.symm⟩)
        simp [hne]
      rw [hothers]
      simpa [hid] using budget_le r
    · simpa [hid] using ih hunique

theorem remaining_le (t : OutboxTable Value) :
    remaining t ≤ maxAttempts * (t.rows.filter fun r => r.status = "PENDING").length := by
  unfold remaining
  generalize t.rows.filter (fun r => r.status = "PENDING") = rows
  induction rows with
  | nil => exact Nat.zero_le _
  | cons r rows ih =>
    rw [List.map_cons, List.sum_cons, List.length_cons, Nat.mul_succ]
    have hrow : maxAttempts - r.attempts ≤ maxAttempts := Nat.sub_le _ _
    omega

end Fetches

section Rounds

variable {codec : EventCodec Value} {worker : OutboxWorker} {s : Traced Value}

/-- What a number of ticks has done: the batches they fetched, whose rows were published and
have spent an attempt each. -/
structure Worked (codec : EventCodec Value) (worker : OutboxWorker) (s u : Traced Value)
    (bs : List (List (OutboxRecord Value))) : Prop where
  batches : batches u.2 = batches s.2 ++ bs
  sent : sent u.2 = sent s.2 ++ bs.flatten.filterMap (decoded codec worker)
  budgeted : Budgeted u.1.table
  left : ∀ q, left q u.1.table + bs.flatten.countP (fun r => q r.id) ≤ left q s.1.table

theorem Worked.refl (h : Budgeted s.1.table) : Worked codec worker s s [] :=
  ⟨by simp, by simp, h, fun q => by simp⟩

theorem Worked.trans {u v : Traced Value} {bs bs' : List (List (OutboxRecord Value))}
    (h : Worked codec worker s u bs) (h' : Worked codec worker u v bs') : Worked codec worker s v (bs ++ bs') := by
  refine ⟨?_, ?_, h'.budgeted, ?_⟩
  · rw [h'.batches, h.batches, List.append_assoc]
  · rw [h'.sent, h.sent, List.append_assoc, List.flatten_append, List.filterMap_append]
  · intro q
    have hfirst := h.left q
    have hsecond := h'.left q
    rw [List.flatten_append, List.countP_append]
    omega

/-- Ticks that fetched rows have lowered the attempts left by at least as many. -/
theorem Worked.remaining_le {u : Traced Value} {bs : List (List (OutboxRecord Value))}
    (h : Worked codec worker s u bs) : remaining u.1.table + bs.flatten.length ≤ remaining s.1.table := by
  have hall := h.left (fun _ => true)
  rw [List.countP_true] at hall
  rw [remaining_eq_left, remaining_eq_left]
  exact hall

theorem tick_works (hbatch : 1 ≤ worker.batchSize)
    (hbudgeted : Budgeted s.1.table) :
    Ends codec (fun count u => ∃ batch, count = batch.length ∧ Worked codec worker s u [batch] ∧
      (batch = [] → Drained s.1.table)) (worker.tick codec) s := by
  refine safe_solo_eff.mpr ?_
  intro c hc
  have hup : c.fails = false := hc
  have hans : (recorded (handle codec) c s (.fetchPending worker.batchSize)).1 =
      .ok (fetchPending c s.1.table worker.batchSize) := by
    simp [handle, hup]
  have hbatches : batches (recorded (handle codec) c s (.fetchPending worker.batchSize)).2.2 =
      batches s.2 ++ [fetchPending c s.1.table worker.batchSize] := by
    simp [batches, fetched, handle, hup]
  have hsent : sent (recorded (handle codec) c s (.fetchPending worker.batchSize)).2.2 = sent s.2 := by
    simp [sent, published]
  rw [hans]
  change Ends codec _ (worker.deliverAll codec _ >>= fun _ => pure _) _
  have hdelivered := @deliverAll_spends _ codec worker
    (recorded (handle codec) c s (.fetchPending worker.batchSize)).2
    (fetchPending c s.1.table worker.batchSize) hbudgeted nodup_fetchPending (fun _ h => pending_of_mem h)
  refine Safe.bind (hdelivered.mono ?_)
  rintro _ u ⟨hleft, hbudgeted', hbatches', hsent'⟩
  refine ⟨_, rfl, ⟨hbatches'.trans hbatches, ?_, hbudgeted', ?_⟩, drained_of_fetchPending hbatch⟩
  · rw [hsent', hsent]
    simp
  · intro q
    have hspent : left q u.1.table + (fetchPending c s.1.table worker.batchSize).countP (fun r => q r.id) ≤
        left q s.1.table := hleft q
    simpa using hspent

/-- Waiting changes neither the table nor what has been fetched and published. -/
theorem Worked.sleep {u : Traced Value} {bs : List (List (OutboxRecord Value))}
    (h : Worked codec worker s u bs) (c : OutboxChoice) (ms : ℕ) :
    Worked codec worker s (recorded (handle codec) c u (.sleep ms)).2 bs := by
  refine ⟨?_, ?_, h.budgeted, h.left⟩
  · rw [← h.batches]
    simp [OutboxDrain.batches, fetched]
  · rw [← h.sent]
    simp [OutboxDrain.sent, published]

/-- After a number of rounds nothing is pending, or every round has spent an attempt. -/
def Progress (s u : Traced Value) (rounds : ℕ) : Prop :=
  Drained u.1.table ∨ remaining u.1.table + rounds ≤ remaining s.1.table

theorem Progress.after {u v : Traced Value} {batch : List (OutboxRecord Value)}
    {bs : List (List (OutboxRecord Value))} {n : ℕ} (hbudgeted : Budgeted s.1.table)
    (h : Worked codec worker s u [batch]) (hdrained : batch = [] → Drained s.1.table)
    (h' : Worked codec worker u v bs) (hprogress : Progress u v n) : Progress s v (n + 1) := by
  have hfirst := h.remaining_le
  have hrest := h'.remaining_le
  simp only [List.flatten_cons, List.flatten_nil, List.append_nil] at hfirst
  rcases hprogress with hdone | hspent
  · exact .inl hdone
  · cases batch with
    | nil =>
      have hzero := (drained_iff hbudgeted).mp (hdrained rfl)
      refine .inl ((drained_iff h'.budgeted).mpr ?_)
      omega
    | cons record batch =>
      rw [List.length_cons] at hfirst
      refine .inr ?_
      omega

theorem run_works (hbatch : 1 ≤ worker.batchSize) (rounds : ℕ)
    (hbudgeted : Budgeted s.1.table) :
    Ends codec (fun _ u => ∃ bs, bs.length = rounds ∧ Worked codec worker s u bs ∧ Progress s u rounds)
      (worker.run codec rounds) s := by
  induction rounds generalizing s with
  | zero => exact ⟨[], rfl, .refl hbudgeted, .inr (Nat.le_refl _)⟩
  | succ n ih =>
    refine Safe.bind ((tick_works hbatch hbudgeted).mono ?_)
    rintro count u ⟨batch, rfl, hworked, hdrained⟩
    have hrest : ∀ u', Worked codec worker s u' [batch] → Ends codec (fun _ v => ∃ bs, bs.length = n + 1 ∧
        Worked codec worker s v bs ∧ Progress s v (n + 1)) (worker.run codec n) u' := by
      intro u' hworked'
      refine (ih hworked'.budgeted).mono ?_
      rintro _ v ⟨bs, hlength, hworked'', hprogress⟩
      refine ⟨[batch] ++ bs, by simp [hlength], hworked'.trans hworked'', ?_⟩
      exact hprogress.after hbudgeted hworked' hdrained hworked''
    split
    · refine safe_solo_eff.mpr ?_
      intro c _
      exact hrest _ (hworked.sleep c _)
    · exact hrest u hworked

end Rounds

variable {codec : EventCodec Value}

/-- A single worker on a database that does not fail drains the outbox, whatever the broker
does: a tick that fetches a row lowers the attempts left, what is published are the rows
fetched, no row is fetched more than ten times, and ten ticks for each pending row suffice. -/
theorem outbox_drains {worker : OutboxWorker} (hbatch : 1 ≤ worker.batchSize)
    {s : OutboxState Value} (hbudgeted : Budgeted s.table) :
    (∀ f, Encounters (recorded (handle codec)) Healthy (worker.tick codec) f (s, []) →
      let ended := run (recorded (handle codec)) (worker.tick codec) f (s, [])
      Budgeted ended.2.1.table ∧ (ended.1 ≠ 0 → remaining ended.2.1.table < remaining s.table)) ∧
    ∀ rounds f, Encounters (recorded (handle codec)) Healthy (worker.run codec rounds) f (s, []) →
      let ended := run (recorded (handle codec)) (worker.run codec rounds) f (s, [])
      (batches ended.2.2).length = rounds ∧
      sent ended.2.2 = (batches ended.2.2).flatten.filterMap (decoded codec worker) ∧
      (∀ id, (batches ended.2.2).flatten.countP (fun r => r.id = id) ≤ 10) ∧
      (10 * (s.table.rows.filter fun r => r.status = "PENDING").length ≤ rounds →
        ∀ c limit, fetchPending c ended.2.1.table limit = []) := by
  constructor
  · intro f hf
    obtain ⟨batch, hcount, hworked, -⟩ := (@tick_works _ codec worker (s, []) hbatch hbudgeted).encounters hf
    refine ⟨hworked.budgeted, ?_⟩
    intro hne
    have hspent := hworked.remaining_le
    rw [hcount] at hne
    simp only [List.flatten_cons, List.flatten_nil, List.append_nil] at hspent
    omega
  · intro rounds f hf
    obtain ⟨bs, hlength, hworked, hprogress⟩ :=
      (@run_works _ codec worker (s, []) hbatch rounds hbudgeted).encounters hf
    have hbatches := hworked.batches
    have hsent := hworked.sent
    simp only [batches, sent, List.filterMap_nil, List.nil_append] at hbatches hsent
    dsimp only
    rw [batches, hbatches, sent, hsent]
    refine ⟨hlength, rfl, ?_, ?_⟩
    · intro id
      have hrow := hworked.left (fun x => x = id)
      have hbound := left_id_le s.table id
      exact (Nat.le_add_left _ _).trans (hrow.trans hbound)
    · intro henough
      have hmost := remaining_le s.table
      have hdrained : Drained (run (recorded (handle codec)) (worker.run codec rounds) f (s, [])).2.1.table := by
        rcases hprogress with hdone | hspent
        · exact hdone
        · refine (drained_iff hworked.budgeted).mpr ?_
          simp only [maxAttempts] at hmost
          dsimp only at hspent
          omega
      exact hdrained.fetchPending

section Poison
open ReferenceLibraries

/-- An outbox with a pending row that cannot be decoded, after some failed attempts, and Alice's
mail behind it. -/
def poisoned (attempts : ℕ) : OutboxState Json where
  now := 0
  table := ⟨[⟨⟨21⟩, "VerificationEmailRequested", .null, "PENDING", attempts, none, 0⟩,
    ⟨⟨22⟩, "VerificationEmailRequested", EventSerialization.toValue uuidToString verificationMail,
      "PENDING", 0, none, 1⟩], by simp⟩

/-- An environment without failures. -/
def calm : ℕ → OutboxChoice := fun _ => {}

/-- A worker that takes one row at a time. -/
def careful : OutboxWorker := { OutboxWorker.new (.new none) with batchSize := 1 }

/-- The first row is given up after ten ticks, and the mail is delivered after it. -/
theorem poisoned_drains :
    (run (recorded (handle eventCodec)) (careful.run eventCodec 20) calm
      (poisoned 0, [])).2.1.table.rows.map (fun r => (r.status, r.attempts)) =
        [("FAILED", 10), ("PROCESSED", 0)] ∧
    (sent (run (recorded (handle eventCodec)) (careful.run eventCodec 20) calm
      (poisoned 0, [])).2.2).map (fun r => (r.topic, r.payload.id)) = [("iam.audit.events", ⟨40⟩)] ∧
    ∀ c limit, fetchPending c (run (recorded (handle eventCodec)) (careful.run eventCodec 20)
      calm (poisoned 0, [])).2.1.table limit = [] := by
  have hbudgeted : Budgeted (poisoned 0).table := by
    simp [Budgeted, poisoned, maxAttempts]
  have hcalm : Encounters (recorded (handle eventCodec)) Healthy (careful.run eventCodec 20)
      calm (poisoned 0, []) := by
    decide +kernel
  have hruns := (@outbox_drains _ eventCodec careful (by decide) _ hbudgeted).2 20 calm hcalm
  exact ⟨by decide +kernel, by decide +kernel, hruns.2.2.2 (by decide)⟩

/-- A pending row that has used up its attempts has none to spend. -/
theorem overdrawn_row_spends_nothing :
    ¬ ∀ (s : OutboxState Json) (f : ℕ → OutboxChoice),
      Encounters (recorded (handle eventCodec)) Healthy (careful.tick eventCodec) f (s, []) →
      (run (recorded (handle eventCodec)) (careful.tick eventCodec) f (s, [])).1 ≠ 0 →
      remaining (run (recorded (handle eventCodec)) (careful.tick eventCodec) f
        (s, [])).2.1.table < remaining s.table := by
  intro h
  have hless := h (poisoned 10) calm (by decide +kernel) (by decide +kernel)
  revert hless
  decide +kernel

end Poison

end IamService.OutboxDrain
