import IamService.OutboxRepository

/-!
# Statements on the outbox table

What one operation can do to the table: nothing, one more row, or a new status of the row
with a given id. No statement removes a row or writes its event.
-/

namespace IamService.OutboxRepository
open EffectPrograms RelationTables

variable {Value : Type}

variable {codec : EventCodec Value} {c : OutboxChoice} {s : OutboxState Value}

theorem settle_table (t : OutboxTable Value) (body : Except DbError (OutboxTable Value)) :
    (settle c t body).2 = t ∨ body = .ok (settle c t body).2 := by
  unfold settle
  split
  · exact .inl rfl
  · split
    · split
      · exact .inr rfl
      · exact .inl rfl
    · exact .inr rfl

theorem settle_ok {t : OutboxTable Value} {body : Except DbError (OutboxTable Value)}
    (h : (settle c t body).1 = .ok ()) :
    body = .ok (settle c t body).2 := by
  unfold settle at h ⊢
  split at h
  · cases h
  · split at h
    · cases h
    · rename_i hf
      simp [hf]

/-- An insertion appends a fresh pending row. -/
theorem insertRow_ok {now : ℕ} {t t' : OutboxTable Value} {eventType : String} {payload : Value}
    (h : insertRow codec c now t eventType payload = .ok t') :
    t'.rows = t.rows ++ [newRow c now eventType payload] := by
  unfold insertRow at h
  split at h
  · split at h
    · cases h
      rfl
    · cases h
  · cases h

theorem markFailed_ok {now : ℕ} {t t' : OutboxTable Value} {id : Uuid}
    (h : markFailed now t id = .ok t') :
    (∀ r ∈ t.rows, r.id = id → r.attempts < maxInteger) ∧
      t'.rows = updateWhere (fun r => r.id = id) (failedRow now) t.rows := by
  unfold markFailed at h
  split at h
  · cases h
  · rename_i hany
    cases h
    refine ⟨?_, rfl⟩
    intro r hr hid
    simp only [List.any_eq_true, Bool.and_eq_true, decide_eq_true_eq, not_exists, not_and] at hany
    have := hany r hr hid
    omega

theorem markFailed_of_lt (now : ℕ) {t : OutboxTable Value} {id : Uuid}
    (h : ∀ r ∈ t.rows, r.id = id → r.attempts < maxInteger) :
    markFailed now t id = .ok (t.update id (failedRow now) (fun _ => rfl)) := by
  refine if_neg ?_
  simp only [List.any_eq_true, Bool.and_eq_true, decide_eq_true_eq, not_exists, not_and, not_le]
  exact h

variable (codec c s) in
/-- What an operation can do to the table. -/
theorem handle_table (o : OutboxOp Value) :
    (handle codec c s o).2.table = s.table ∨
    (∃ eventType payload, o = .insert eventType payload ∧ (handle codec c s o).2.table.rows =
      s.table.rows ++ [newRow c (s.now + c.elapsed) eventType payload]) ∨
    (∃ id, o = .markProcessed id ∧ (handle codec c s o).2.table.rows =
      updateWhere (fun r => r.id = id) (processedRow (s.now + c.elapsed)) s.table.rows) ∨
    (∃ id, o = .markFailed id ∧ (∀ r ∈ s.table.rows, r.id = id → r.attempts < maxInteger) ∧
      (handle codec c s o).2.table.rows =
        updateWhere (fun r => r.id = id) (failedRow (s.now + c.elapsed)) s.table.rows) := by
  cases o with
  | insert eventType payload =>
    rcases settle_table (c := c) s.table (insertRow codec c (s.now + c.elapsed) s.table
      eventType payload) with h | h
    · exact .inl h
    · exact .inr (.inl ⟨eventType, payload, rfl, insertRow_ok h⟩)
  | fetchPending limit => exact .inl rfl
  | markProcessed id =>
    rcases settle_table (c := c) s.table (.ok (markProcessed (s.now + c.elapsed) s.table
      id)) with h | h
    · exact .inl h
    · exact .inr (.inr (.inl ⟨id, rfl, congrArg OutboxTable.rows (Except.ok.inj h).symm⟩))
  | markFailed id =>
    rcases settle_table (c := c) s.table (markFailed (s.now + c.elapsed) s.table id)
      with h | h
    · exact .inl h
    · obtain ⟨hbound, ht⟩ := markFailed_ok h
      exact .inr (.inr (.inr ⟨id, rfl, hbound, ht⟩))
  | publish event => exact .inl rfl
  | sleep ms => exact .inl rfl

/-- Two versions of one row: the stored event is the same. -/
structure SameEvent (r r' : OutboxRow Value) : Prop where
  id : r'.id = r.id
  eventType : r'.eventType = r.eventType
  payload : r'.payload = r.payload

theorem SameEvent.refl (r : OutboxRow Value) : SameEvent r r := ⟨rfl, rfl, rfl⟩

theorem SameEvent.trans {r r' r'' : OutboxRow Value} (h : SameEvent r r') (h' : SameEvent r' r'') :
    SameEvent r r'' :=
  ⟨h'.id.trans h.id, h'.eventType.trans h.eventType, h'.payload.trans h.payload⟩

/-- Every row of one table is still in another. -/
def Kept (t t' : OutboxTable Value) : Prop := ∀ r ∈ t.rows, ∃ r' ∈ t'.rows, SameEvent r r'

theorem Kept.refl (t : OutboxTable Value) : Kept t t := fun r hr => ⟨r, hr, .refl r⟩

theorem Kept.trans {t t' t'' : OutboxTable Value} (h : Kept t t') (h' : Kept t' t'') : Kept t t'' := by
  intro r hr
  obtain ⟨r', hr', hsame⟩ := h r hr
  obtain ⟨r'', hr'', hsame'⟩ := h' r' hr'
  exact ⟨r'', hr'', hsame.trans hsame'⟩

theorem kept_update {t t' : OutboxTable Value} {id : Uuid} {f : OutboxRow Value → OutboxRow Value}
    (ht : t'.rows = updateWhere (fun r => r.id = id) f t.rows) (h : ∀ r, SameEvent r (f r)) :
    Kept t t' := by
  intro r hr
  refine ⟨_, ht ▸ mem_updateWhere.mpr ⟨r, hr, rfl⟩, ?_⟩
  split
  · exact h r
  · exact .refl r

/-- No operation loses a row or changes its event. -/
theorem kept_handle (codec : EventCodec Value) (c : OutboxChoice) (s : OutboxState Value)
    (o : OutboxOp Value) : Kept s.table (handle codec c s o).2.table := by
  rcases handle_table codec c s o with h | ⟨_, _, _, h⟩ | ⟨_, _, h⟩ | ⟨_, _, _, h⟩
  · rw [h]
    exact .refl _
  · intro r hr
    refine ⟨r, ?_, .refl r⟩
    rw [h]
    exact List.mem_append_left _ hr
  · exact kept_update h (fun _ => ⟨rfl, rfl, rfl⟩)
  · exact kept_update h (fun _ => ⟨rfl, rfl, rfl⟩)

/-- A row after an operation is a version of a row before it, or was inserted. -/
theorem row_origin {codec : EventCodec Value} {c : OutboxChoice} {s : OutboxState Value}
    {o : OutboxOp Value} {r : OutboxRow Value} (hr : r ∈ (handle codec c s o).2.table.rows) :
    (∃ r₀ ∈ s.table.rows, SameEvent r₀ r) ∨ o = .insert r.eventType r.payload := by
  have hupdate : ∀ (id : Uuid) (f : OutboxRow Value → OutboxRow Value),
      (∀ r, SameEvent r (f r)) → r ∈ updateWhere (fun r => r.id = id) f s.table.rows →
      ∃ r₀ ∈ s.table.rows, SameEvent r₀ r := by
    intro id f hf hmem
    obtain ⟨r₀, hr₀, rfl⟩ := mem_updateWhere.mp hmem
    refine ⟨r₀, hr₀, ?_⟩
    split
    · exact hf r₀
    · exact .refl r₀
  rcases handle_table codec c s o with h | ⟨eventType, payload, rfl, h⟩ | ⟨id, -, h⟩ | ⟨id, -, -, h⟩
  · rw [h] at hr
    exact .inl ⟨r, hr, .refl r⟩
  · rw [h] at hr
    rcases List.mem_append.mp hr with hr | hr
    · exact .inl ⟨r, hr, .refl r⟩
    · rw [List.mem_singleton.mp hr]
      exact .inr rfl
  · rw [h] at hr
    exact .inl (hupdate id (processedRow _) (fun _ => ⟨rfl, rfl, rfl⟩) hr)
  · rw [h] at hr
    exact .inl (hupdate id (failedRow _) (fun _ => ⟨rfl, rfl, rfl⟩) hr)

/-- A fetched record is a pending row of the table. -/
theorem mem_fetchPending {c : OutboxChoice} {t : OutboxTable Value} {limit : ℕ}
    {record : OutboxRecord Value} (h : record ∈ fetchPending c t limit) :
    ∃ r ∈ t.rows, r.status = "PENDING" ∧ r.id = record.id ∧ r.payload = record.payload := by
  obtain ⟨r, hr, rfl⟩ := List.mem_map.mp h
  have hpending := (List.mem_insertionSort _).mp (List.mem_of_mem_take hr)
  obtain ⟨hrow, hstatus⟩ := List.mem_filter.mp hpending
  exact ⟨r, hrow, of_decide_eq_true hstatus, rfl, rfl⟩

end IamService.OutboxRepository
