import IamService.OutboxStatements
import IamService.EventSerialization
import IamService.RelyGuarantee

/-!
# The outbox loses no event and completes none falsely

Any number of workers and producers share the table, under any failures. A producer that has
been answered Ok has a row of its own with its event. Rows are never removed and keep their
event, so that a worker acting on a row it fetched long ago still marks the row whose event it
has published. A row is marked as processed only after the broker has acknowledged its event,
and the attempts decide between the two other states.
-/

namespace IamService.OutboxDelivery
open EffectPrograms RelationTables OutboxRepository ReferenceLibraries

variable {Value : Type} (codec : EventCodec Value)

/-- All operations so far on the table, the producer and the clock. -/
abbrev History (Value : Type) := List (Observed (@OutboxOp.Ans Value) (OutboxState Value))

abbrev Traced (Value : Type) := OutboxState Value × History Value

/-- The event whose publication the broker acknowledged. -/
def acknowledged : Observed (@OutboxOp.Ans Value) (OutboxState Value) → Option (DomainEvent Value)
  | ⟨_, .publish record, .ok _, _⟩ => some record.payload
  | _ => none

/-- The event type and the payload of an insertion that succeeded. -/
def inserted : Observed (@OutboxOp.Ans Value) (OutboxState Value) → Option (String × Value)
  | ⟨_, .insert eventType payload, .ok _, _⟩ => some (eventType, payload)
  | _ => none

/-- The rows of a fetch. -/
def fetched : Observed (@OutboxOp.Ans Value) (OutboxState Value) → Option (List (OutboxRecord Value))
  | ⟨_, .fetchPending _, .ok records, _⟩ => some records
  | _ => none

/-- The broker has acknowledged the event that is stored as a payload. -/
def Delivered (history : History Value) (payload : Value) :
    Prop :=
  ∃ event, codec.fromValue payload = .ok event ∧ ∃ x ∈ history, acknowledged x = some event

/-- The status of a row is one of three, and its attempts and the history account for it. -/
structure Accounted (history : History Value)
    (r : OutboxRow Value) : Prop where
  status : r.status = "PENDING" ∨ r.status = "PROCESSED" ∨ r.status = "FAILED"
  pending : r.status = "PENDING" → r.attempts < 10
  failed : r.status = "FAILED" → 10 ≤ r.attempts
  processed : r.status = "PROCESSED" → Delivered codec history r.payload

/-- Producers and workers, a worker with the number of rounds it gets to run. -/
inductive Activity (Value : Type) where
  | enqueue (event : DomainEvent Value)
  | drain (worker : OutboxWorker) (rounds : ℕ)

def Activity.program : Activity Value → OutboxProgram Value (Result Unit)
  | .enqueue event => OutboxRepository.enqueue codec event
  | .drain worker rounds => do
    worker.run codec rounds
    return .ok ()

/-- Any activity may begin at any time. -/
def Launched {σ : Type} (_ : σ) (p : OutboxProgram Value (Result Unit)) : Prop :=
  ∃ activity, p = Activity.program codec activity

/-- Every row that was ever there still is, every row is accounted for, and the operations
of the history are the repository's. -/
structure Recorded (s : Traced Value) : Prop where
  genuine : ∀ x ∈ s.2, ∃ c, handle codec c x.pre x.op = (x.ans, x.post)
  kept : ∀ x ∈ s.2, Kept x.post.table s.1.table
  accounted : ∀ r ∈ s.1.table.rows, Accounted codec s.2 r

/-- A row is marked as processed only when its event has been acknowledged. -/
def Permitted (s : Traced Value) : OutboxOp Value → Prop
  | .markProcessed id => ∀ r ∈ s.1.table.rows, r.id = id → Delivered codec s.2 r.payload
  | _ => True

/-- The terms on which the activities share the outbox. -/
def discipline : Discipline (OutboxOp Value) OutboxChoice (Traced Value) where
  inv := Recorded codec
  rely := fun s t => Kept s.1.table t.1.table ∧ s.2 ⊆ t.2
  permits := Permitted codec
  admits := fun _ _ _ => True

variable {codec}

theorem Delivered.mono {h h' : History Value}
    {payload : Value} (hsub : h ⊆ h') : Delivered codec h payload → Delivered codec h' payload := by
  rintro ⟨event, hevent, x, hx, hack⟩
  exact ⟨event, hevent, x, hsub hx, hack⟩

theorem Accounted.mono {h h' : History Value}
    {r : OutboxRow Value} (hsub : h ⊆ h') (hr : Accounted codec h r) : Accounted codec h' r :=
  ⟨hr.status, hr.pending, hr.failed, fun hp => (hr.processed hp).mono hsub⟩

theorem accounted_newRow (h : History Value)
    (c : OutboxChoice) (now : ℕ) (eventType : String) (payload : Value) :
    Accounted codec h (newRow c now eventType payload) := by
  constructor <;> simp [newRow]

theorem accounted_failedRow (h : History Value)
    (now : ℕ) (r : OutboxRow Value) : Accounted codec h (failedRow now r) := by
  by_cases hmax : maxAttempts ≤ r.attempts + 1
  · have hattempts : 10 ≤ r.attempts + 1 := hmax
    constructor <;> simp [failedRow, hmax, hattempts]
  · have hattempts : r.attempts + 1 < 10 := Nat.lt_of_not_le hmax
    constructor <;> simp [failedRow, hmax, hattempts]

theorem accounted_processedRow {h : History Value}
    (now : ℕ) {r : OutboxRow Value} (hr : Delivered codec h r.payload) :
    Accounted codec h (processedRow now r) := by
  constructor <;> simp [processedRow, hr]

/-- A permitted operation leaves every row accounted for. -/
theorem accounted_handle {c : OutboxChoice} {s : Traced Value} {o : OutboxOp Value}
    {h : History Value} (hsub : s.2 ⊆ h)
    (hs : ∀ r ∈ s.1.table.rows, Accounted codec s.2 r) (ho : Permitted codec s o) :
    ∀ r ∈ (handle codec c s.1 o).2.table.rows, Accounted codec h r := by
  intro r hr
  rcases handle_table codec c s.1 o with ht | ⟨eventType, payload, -, ht⟩ | ⟨id, rfl, ht⟩ | ⟨id, -, -, ht⟩
  · rw [ht] at hr
    exact (hs r hr).mono hsub
  · rw [ht] at hr
    rcases List.mem_append.mp hr with hr | hr
    · exact (hs r hr).mono hsub
    · rw [List.mem_singleton.mp hr]
      exact accounted_newRow _ _ _ _ _
  · rw [ht] at hr
    obtain ⟨r₀, hr₀, rfl⟩ := mem_updateWhere.mp hr
    split
    · rename_i hid
      exact accounted_processedRow _ ((ho r₀ hr₀ (of_decide_eq_true hid)).mono hsub)
    · exact (hs r₀ hr₀).mono hsub
  · rw [ht] at hr
    obtain ⟨r₀, hr₀, rfl⟩ := mem_updateWhere.mp hr
    split
    · exact accounted_failedRow _ _ _
    · exact (hs r₀ hr₀).mono hsub

theorem discipline_sound : (discipline codec).Sound (recorded (handle codec)) where
  refl s := ⟨.refl _, List.Subset.refl _⟩
  trans h₁ h₂ := ⟨h₁.1.trans h₂.1, List.Subset.trans h₁.2 h₂.2⟩
  inv_step := by
    intro c s o hs ho _
    have hsub : s.2 ⊆ (recorded (handle codec) c s o).2.2 := List.subset_append_left _ _
    have hkept := kept_handle codec c s.1 o
    refine ⟨?_, ?_, accounted_handle hsub hs.accounted ho⟩
    · intro x hx
      rcases List.mem_append.mp hx with hx | hx
      · exact hs.genuine x hx
      · rw [List.mem_singleton.mp hx]
        exact ⟨c, rfl⟩
    · intro x hx
      rcases List.mem_append.mp hx with hx | hx
      · exact (hs.kept x hx).trans hkept
      · rw [List.mem_singleton.mp hx]
        exact .refl _
  rely_step := by
    intro c s o _ _ _
    exact ⟨kept_handle codec c s.1 o, List.subset_append_left _ _⟩

section Workers

variable {s t : Traced Value} {worker : OutboxWorker} {record : OutboxRecord Value}

/-- A row with the event of a record is in the table. -/
def Held (s : Traced Value) (record : OutboxRecord Value) : Prop :=
  ∃ r ∈ s.1.table.rows, r.id = record.id ∧ r.payload = record.payload

theorem Held.stable (h : Held s record) (hst : Kept s.1.table t.1.table) : Held t record := by
  obtain ⟨r, hr, hid, hpayload⟩ := h
  obtain ⟨r', hr', hsame⟩ := hst r hr
  exact ⟨r', hr', hsame.id.trans hid, hsame.payload.trans hpayload⟩

/-- The row marked is the row whose event was published. -/
theorem Held.permitted (h : Held s record) (hd : Delivered codec s.2 record.payload) :
    Permitted codec s (.markProcessed record.id) := by
  intro r hr hid
  obtain ⟨r₀, hr₀, hid₀, hpayload⟩ := h
  have hrow : r = r₀ := s.1.table.eq_of_id hr hr₀ (hid.trans hid₀.symm)
  rw [hrow, hpayload]
  exact hd

variable (codec) in
/-- A program that keeps to the discipline. -/
abbrev Orderly {α : Type} (p : OutboxProgram Value α) (s : Traced Value) : Prop :=
  Safe (recorded (handle codec)) (discipline codec) (fun _ _ => True) p s

theorem orderly_markFailed (id : Uuid) (s : Traced Value) :
    Orderly codec (outbox (.markFailed id) >>= fun _ => pure ()) s := by
  intro t _ _
  exact ⟨trivial, fun _ _ => trivial⟩

theorem orderly_markProcessed (hheld : Held s record) (hd : Delivered codec s.2 record.payload) :
    Orderly codec (outbox (.markProcessed record.id) >>= fun _ => pure ()) s := by
  intro t ht _
  have hpermitted : Permitted codec t (.markProcessed record.id) :=
    (hheld.stable ht.1).permitted (hd.mono ht.2)
  exact ⟨hpermitted, fun _ _ => trivial⟩

theorem orderly_deliver (hheld : Held s record) : Orderly codec (worker.deliver codec record) s := by
  unfold OutboxWorker.deliver
  split
  · exact orderly_markFailed record.id s
  · rename_i event hevent
    intro t ht _
    refine ⟨trivial, ?_⟩
    intro c _
    cases hf : c.fails with
    | true =>
      simp only [recorded_ans, handle, hf, if_true]
      exact orderly_markFailed record.id _
    | false =>
      simp only [recorded_ans, handle, hf, Bool.false_eq_true, if_false]
      refine orderly_markProcessed (hheld.stable ht.1) ?_
      refine ⟨event, hevent, _, List.mem_append_right _ (List.mem_singleton.mpr rfl), ?_⟩
      simp [handle, hf, acknowledged]

theorem orderly_deliverAll (pending : List (OutboxRecord Value))
    (hheld : ∀ record ∈ pending, Held s record) :
    Orderly codec (worker.deliverAll codec pending) s := by
  induction pending generalizing s with
  | nil => trivial
  | cons record pending ih =>
    have hfirst : Orderly codec (worker.deliver codec record) s :=
      orderly_deliver (hheld record List.mem_cons_self)
    refine Safe.bind ((hfirst.reaches discipline_sound).mono ?_)
    rintro _ t ⟨hrely, -⟩
    apply ih
    intro r hr
    exact (hheld r (List.mem_cons_of_mem record hr)).stable hrely.1

theorem orderly_tick (worker : OutboxWorker) (s : Traced Value) :
    Orderly codec (worker.tick codec) s := by
  intro t _ _
  refine ⟨trivial, ?_⟩
  intro c _
  cases hf : c.fails with
  | true =>
    simp only [recorded_ans, handle, hf, if_true]
    intro _ _ _
    exact ⟨trivial, fun _ _ => trivial⟩
  | false =>
    simp only [recorded_ans, handle, hf, Bool.false_eq_true, if_false]
    change Orderly codec (worker.deliverAll codec _ >>= fun _ => pure _) _
    refine Safe.bind ((orderly_deliverAll _ ?_).mono (fun _ _ _ => trivial))
    intro record hrecord
    obtain ⟨r, hr, -, hid, hpayload⟩ := mem_fetchPending hrecord
    exact ⟨r, hr, hid, hpayload⟩

theorem orderly_run (worker : OutboxWorker) (rounds : ℕ) (s : Traced Value) :
    Orderly codec (worker.run codec rounds) s := by
  induction rounds generalizing s with
  | zero => trivial
  | succ n ih =>
    refine Safe.bind ((orderly_tick worker s).mono ?_)
    intro count t _
    split
    · intro u _ _
      exact ⟨trivial, fun _ _ => ih _⟩
    · exact ih t

theorem orderly_enqueue (event : DomainEvent Value) (s : Traced Value) :
    Orderly codec (OutboxRepository.enqueue codec event) s := by
  unfold OutboxRepository.enqueue
  split
  · trivial
  · intro t _ _
    exact ⟨trivial, fun _ _ => trivial⟩

theorem orderly_launched {p : OutboxProgram Value (Result Unit)} (h : Launched codec s p) :
    Orderly codec p s := by
  obtain ⟨activity, rfl⟩ := h
  cases activity with
  | enqueue event => exact orderly_enqueue event s
  | drain worker rounds => exact Safe.bind ((orderly_run worker rounds s).mono (fun _ _ _ => trivial))

end Workers

/-- The table as it is created, with nothing done yet. -/
def Fresh (s : Traced Value) : Prop := s.1.table.rows = [] ∧ s.2 = []

/-- In every state that is reached all rows are accounted for, and all activities are orderly. -/
theorem orderly_reachable {s : Traced Value} {ps : List (OutboxProgram Value (Result Unit))}
    (h : Reach (recorded (handle codec)) (Launched codec) (fun _ _ _ => True) Fresh s ps) :
    SafePool (recorded (handle codec)) (discipline codec) (fun _ _ => True) s ps := by
  refine Reach.safe (D := discipline codec) discipline_sound (fun _ _ _ _ _ => trivial) ?_ ?_ h
  · rintro s ⟨hrows, hhistory⟩
    refine ⟨?_, ?_, ?_⟩
    · simp [hhistory]
    · simp [hhistory]
    · simp [hrows]
  · intro s p _ hp
    exact orderly_launched hp

/-- An insertion that succeeded appended a row with the event. -/
theorem inserted_row {x : Observed (@OutboxOp.Ans Value) (OutboxState Value)}
    (hx : ∃ c, handle codec c x.pre x.op = (x.ans, x.post)) {eventType : String} {payload : Value}
    (h : inserted x = some (eventType, payload)) :
    ∃ row, x.post.table.rows = x.pre.table.rows ++ [row] ∧ row.eventType = eventType ∧
      row.payload = payload := by
  obtain ⟨pre, o, ans, post⟩ := x
  obtain ⟨c, hc⟩ := hx
  cases o with
  | insert eventType' payload' =>
    cases ans with
    | error e => cases h
    | ok u =>
      cases h
      have hans : (settle c pre.table (insertRow codec c (pre.now + c.elapsed) pre.table eventType
          payload)).1 = .ok () := congrArg Prod.fst hc
      have hpost := congrArg (fun q => q.2.table.rows) hc
      exact ⟨_, hpost.symm.trans (insertRow_ok (settle_ok hans)), rfl, rfl⟩
  | _ => cases h

/-- The row has an event, and is new since an earlier state. -/
structure StoredSince (codec : EventCodec Value) (event : DomainEvent Value) (s : Traced Value)
    (row : OutboxRow Value) : Prop where
  fresh : row.id ∉ s.1.table.rows.map (·.id)
  eventType : row.eventType = event.eventType
  payload : codec.toValue event = .ok row.payload

theorem StoredSince.same {s : Traced Value} {event : DomainEvent Value} {row row' : OutboxRow Value}
    (h : StoredSince codec event s row) (hsame : SameEvent row row') :
    StoredSince codec event s row' := by
  refine ⟨hsame.id ▸ h.fresh, hsame.eventType.trans h.eventType, ?_⟩
  rw [hsame.payload]
  exact h.payload

/-- A row that has been stored stays, in versions of it. -/
theorem stored_stable {s t u : Traced Value} {event : DomainEvent Value}
    (h : ∃ row ∈ t.1.table.rows, StoredSince codec event s row)
    (hkept : Kept t.1.table u.1.table) : ∃ row ∈ u.1.table.rows, StoredSince codec event s row := by
  obtain ⟨row, hrow, hsince⟩ := h
  obtain ⟨row', hrow', hsame⟩ := hkept row hrow
  exact ⟨row', hrow', hsince.same hsame⟩

/-- An enqueue that is answered Ok has stored its event, whatever the others do meanwhile. -/
theorem enqueue_stores_since (event : DomainEvent Value) (s : Traced Value) :
    Safe (recorded (handle codec)) (discipline codec)
      (fun r t => r = .ok () → ∃ row ∈ t.1.table.rows, StoredSince codec event s row)
      (OutboxRepository.enqueue codec event) s := by
  unfold OutboxRepository.enqueue
  split
  · intro h
    cases h
  · rename_i payload hpayload
    intro t ht _
    refine ⟨trivial, ?_⟩
    intro c _ hans
    have hinserted : inserted ⟨t.1, .insert event.eventType payload,
        (handle codec c t.1 (.insert event.eventType payload)).1,
        (handle codec c t.1 (.insert event.eventType payload)).2⟩ =
        some (event.eventType, payload) := by
      rw [recorded_ans] at hans
      simp only [hans, inserted]
    obtain ⟨row, hrows, htype, hrow⟩ := @inserted_row _ codec _ ⟨c, rfl⟩ _ _ hinserted
    refine ⟨row, ?_, ?_, htype, by rw [hrow]; exact hpayload⟩
    · change row ∈ (handle codec c t.1 (.insert event.eventType payload)).2.table.rows
      rw [hrows]
      simp
    · -- the ids of the table are unique, and those from before are still there
      have hunique := (handle codec c t.1 (.insert event.eventType payload)).2.table.unique
      rw [hrows, List.map_append, List.map_singleton] at hunique
      intro hold
      obtain ⟨r, hr, hid⟩ := List.mem_map.mp hold
      obtain ⟨r', hr', hsame⟩ := ht.1 r hr
      have hmem : row.id ∈ t.1.table.rows.map (·.id) :=
        List.mem_map.mpr ⟨r', hr', hsame.id.trans hid⟩
      exact (List.nodup_append.mp hunique).2.2 row.id hmem row.id List.mem_cons_self rfl

/-- In every state that producers and workers can reach, under any failures, every row inserted
is in the table with its payload, and every row is accounted for. An enqueue that begins there
and has been answered Ok has stored its event in a row of its own, which stays for ever. -/
theorem outbox_keeps_and_accounts {s : Traced Value}
    {ps : List (OutboxProgram Value (Result Unit))}
    (h : Reach (recorded (handle codec)) (Launched codec) (fun _ _ _ => True) Fresh s ps) :
    (∀ x ∈ s.2, ∀ eventType payload, inserted x = some (eventType, payload) →
      ∃ row, x.post.table.rows = x.pre.table.rows ++ [row] ∧ ∃ r ∈ s.1.table.rows,
        r.id = row.id ∧ r.eventType = eventType ∧ r.payload = payload) ∧
    (∀ event t qs, Later (recorded (handle codec)) (Launched codec) (fun _ _ _ => True) s
        (ps ++ [OutboxRepository.enqueue codec event]) t qs →
      qs[ps.length]? = some (.ret (.ok ())) →
      ∃ row ∈ t.1.table.rows, StoredSince codec event s row ∧
        ∀ u rs, Later (recorded (handle codec)) (Launched codec) (fun _ _ _ => True) t qs u rs →
          ∃ r ∈ u.1.table.rows, r.id = row.id ∧ StoredSince codec event s r) ∧
    ∀ r ∈ s.1.table.rows, Accounted codec s.2 r := by
  have hpool := orderly_reachable h
  have hs : Recorded codec s := hpool.1
  refine ⟨?_, ?_, hs.accounted⟩
  · intro x hx eventType payload hinserted
    obtain ⟨row, hrow, htype, hpayload⟩ := inserted_row (hs.genuine x hx) hinserted
    have hmem : row ∈ x.post.table.rows := by
      rw [hrow]
      simp
    obtain ⟨r, hr, hsame⟩ := hs.kept x hx row hmem
    exact ⟨row, hrow, r, hr, hsame.id, hsame.eventType.trans htype, hsame.payload.trans hpayload⟩
  · intro event t qs hlater hended
    have hstart : ∀ (u : Traced Value) p, (discipline codec).inv u → Launched codec u p →
        Orderly codec p u := fun _ _ _ hp => orderly_launched hp
    have hbegun := hpool.start (orderly_enqueue event s)
    have hstable : ∀ (r : Result Unit) (u v : Traced Value),
        (r = .ok () → ∃ row ∈ u.1.table.rows, StoredSince codec event s row) →
        (discipline codec).rely u v →
        r = .ok () → ∃ row ∈ v.1.table.rows, StoredSince codec event s row := by
      intro r u v hu hrely hr
      exact stored_stable (hu hr) hrely.1
    obtain ⟨q, hq, hstored⟩ := Later.safeAt discipline_sound hstart hstable hbegun
      List.getElem?_concat_length (enqueue_stores_since event s) hlater
    obtain rfl : .ret (.ok ()) = q := Option.some.inj (hended.symm.trans hq)
    obtain ⟨row, hrow, hsince⟩ := hstored rfl
    refine ⟨row, hrow, hsince, ?_⟩
    intro u rs hfurther
    have hrely := hfurther.rely discipline_sound hstart (hlater.safe discipline_sound hstart hbegun)
    obtain ⟨r, hr, hsame⟩ := hrely.1 row hrow
    exact ⟨r, hr, hsame.id, hsince.same hsame⟩

/-- Alice's mail is enqueued, and two replicas of the service drain the outbox. -/
def replicas : List (OutboxProgram Json (Result Unit)) :=
  [.enqueue verificationMail, .drain (.new (.new none)) 1, .drain (.new (.new none)) 1].map
    (Activity.program eventCodec)

/-- Both fetch the row; the broker fails the second and acknowledges the first, which marks
the row last. -/
def firstMarksLast : List (ℕ × OutboxChoice) :=
  [(0, { uuid := ⟨21⟩ }), (1, {}), (2, {}), (2, { fails := true }), (1, {}), (2, {}), (1, {})]

theorem replicas_launched {σ : Type} (s : σ) : ∀ p ∈ replicas, Launched eventCodec s p := by
  intro p hp
  obtain ⟨activity, -, rfl⟩ := List.mem_map.mp hp
  exact ⟨activity, rfl⟩

theorem replicas_reached (l : List (ℕ × OutboxChoice)) :
    Reach (recorded (handle eventCodec)) (Launched eventCodec) (fun _ _ _ => True) Fresh
      (schedule (recorded (handle eventCodec)) ((⟨0, .empty⟩, []), replicas) l).1
      (schedule (recorded (handle eventCodec)) ((⟨0, .empty⟩, []), replicas) l).2 :=
  Reach.schedule (Reach.pool ⟨rfl, rfl⟩ replicas (replicas_launched _)) l
    (Admitted.of_forall (fun _ _ _ => trivial) _ l)

/-- Alice's mail is enqueued alone. -/
def mailStored : Traced Json × List (OutboxProgram Json (Result Unit)) :=
  schedule (recorded (handle eventCodec)) ((⟨0, .empty⟩, []), [enqueue eventCodec verificationMail])
    [(0, { uuid := ⟨21⟩ })]

/-- After one failure and one delivery the row is processed, and accounted for. The enqueue
alone has stored the mail. -/
theorem delivered_row_accounted :
    (schedule (recorded (handle eventCodec)) ((⟨0, .empty⟩, []), replicas) firstMarksLast).1.1.table.rows.map
      (fun r => (r.id, r.status, r.attempts)) = [(⟨21⟩, "PROCESSED", 1)] ∧
    (∀ r ∈ (schedule (recorded (handle eventCodec)) ((⟨0, .empty⟩, []), replicas)
      firstMarksLast).1.1.table.rows, Accounted eventCodec
        (schedule (recorded (handle eventCodec)) ((⟨0, .empty⟩, []), replicas) firstMarksLast).1.2 r) ∧
    ∃ row ∈ mailStored.1.1.table.rows, StoredSince eventCodec verificationMail (⟨0, .empty⟩, []) row := by
  refine ⟨by decide +kernel, (outbox_keeps_and_accounts (replicas_reached firstMarksLast)).2.2, ?_⟩
  have hlater : Later (recorded (handle eventCodec)) (Launched eventCodec) (fun _ _ _ => True)
      (⟨0, .empty⟩, []) [enqueue eventCodec verificationMail] mailStored.1 mailStored.2 :=
    Later.schedule _ (Admitted.of_forall (fun _ _ _ => trivial) _ _)
  have hended : mailStored.2[0]? = some (.ret (.ok ())) := by rfl
  obtain ⟨row, hrow, hsince, -⟩ := (@outbox_keeps_and_accounts _ eventCodec _ _
    (.init ⟨rfl, rfl⟩)).2.1 verificationMail _ _ hlater hended
  exact ⟨row, hrow, hsince⟩

end IamService.OutboxDelivery
