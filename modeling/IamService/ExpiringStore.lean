import Mathlib.Logic.Function.Basic
import Mathlib.Data.Nat.Notation
import Mathlib.Order.Basic

/-!
# Key-value stores whose entries expire

An entry holds a value and, if it has a time to live, the instant at which it stops
being visible. Reads name the instant at which they happen; an expired entry is read
as an absent one and never removed by a read.
-/

namespace IamService.ExpiringStore

variable {K V : Type}

structure Entry (V : Type) where
  value : V
  expiresAt : Option ℕ

def Entry.visible (e : Entry V) (now : ℕ) : Bool :=
  match e.expiresAt with
  | none => true
  | some t => now < t

/-- A store is the partial map from keys to entries. -/
def Store (K V : Type) := K → Option (Entry V)

namespace Store

def empty : Store K V := fun _ => none

/-- The entry under `k`, unless it has expired. -/
def entry (s : Store K V) (now : ℕ) (k : K) : Option (Entry V) :=
  (s k).filter (fun e => e.visible now)

/-- The value read under `k`. -/
def get (s : Store K V) (now : ℕ) (k : K) : Option V := (s.entry now k).map Entry.value

variable [DecidableEq K]

/-- Store a value, replacing the entry and its expiry. -/
def put (s : Store K V) (k : K) (v : V) (expiresAt : Option ℕ) : Store K V :=
  Function.update s k (some ⟨v, expiresAt⟩)

def erase (s : Store K V) (k : K) : Store K V := Function.update s k none

@[simp] theorem put_same (s : Store K V) (k : K) (v : V) (t : Option ℕ) :
    s.put k v t k = some ⟨v, t⟩ := Function.update_self k _ s

@[simp] theorem put_ne (s : Store K V) {k j : K} (h : j ≠ k) (v : V) (t : Option ℕ) :
    s.put k v t j = s j := Function.update_of_ne h _ s

@[simp] theorem put_put (s : Store K V) (k : K) (v v' : V) (t t' : Option ℕ) :
    (s.put k v t).put k v' t' = s.put k v' t' := Function.update_idem _ _ s

@[simp] theorem erase_same (s : Store K V) (k : K) : s.erase k k = none :=
  Function.update_self k _ s

@[simp] theorem erase_ne (s : Store K V) {k j : K} (h : j ≠ k) : s.erase k j = s j :=
  Function.update_of_ne h _ s

omit [DecidableEq K] in
theorem get_eq_some {s : Store K V} {now : ℕ} {k : K} {v : V} :
    s.get now k = some v ↔ ∃ e, s k = some e ∧ e.visible now = true ∧ e.value = v := by
  simp [get, entry, Option.filter_eq_some_iff, and_assoc]

omit [DecidableEq K] in
/-- Time takes entries away and brings none. -/
theorem entry_of_later {s : Store K V} {now later : ℕ} {k : K} {e : Entry V}
    (h : s.entry later k = some e) (hle : now ≤ later) : s.entry now k = some e := by
  obtain ⟨hraw, hvis⟩ := Option.filter_eq_some_iff.mp h
  refine Option.filter_eq_some_iff.mpr ⟨hraw, ?_⟩
  unfold Entry.visible at hvis ⊢
  split
  · rfl
  · rename_i t ht
    simp only [ht, decide_eq_true_eq] at hvis ⊢
    omega

omit [DecidableEq K] in
/-- What is visible later is visible now. -/
theorem get_of_later {s : Store K V} {now later : ℕ} {k : K} {v : V} (h : s.get later k = some v)
    (hle : now ≤ later) : s.get now k = some v := by
  obtain ⟨e, he, hv⟩ := Option.map_eq_some_iff.mp h
  exact Option.map_eq_some_iff.mpr ⟨e, entry_of_later he hle, hv⟩

omit [DecidableEq K] in
/-- An entry that does not expire is shown as before. -/
theorem entry_eq_of_live {s : Store K V} {now later : ℕ} {k : K} (hle : now ≤ later)
    (h : (s.entry now k).isSome = true → (s.entry later k).isSome = true) :
    s.entry later k = s.entry now k := by
  cases hlater : s.entry later k with
  | some e => exact (entry_of_later hlater hle).symm
  | none =>
    cases hnow : s.entry now k with
    | none => rfl
    | some e => simp [hnow, hlater] at h

omit [DecidableEq K] in
theorem entry_congr {s t : Store K V} {k : K} (h : s k = t k) (now : ℕ) :
    s.entry now k = t.entry now k := by simp [entry, h]

omit [DecidableEq K] in
/-- A read depends on the entry only. -/
theorem get_congr {s t : Store K V} {k : K} (h : s k = t k) (now : ℕ) :
    s.get now k = t.get now k := by simp [get, entry, h]

/-- A value that is stored with time left is shown. -/
theorem entry_put_same {s : Store K V} {now : ℕ} {k : K} {v : V} {t : Option ℕ}
    (h : (⟨v, t⟩ : Entry V).visible now = true) : (s.put k v t).entry now k = some ⟨v, t⟩ := by
  simp [entry, h]

/-- What is shown after a write is the value written, or was shown before. -/
theorem entry_put_some {s : Store K V} {now : ℕ} {k j : K} {v : V} {t : Option ℕ} {e : Entry V}
    (h : (s.put k v t).entry now j = some e) :
    (j = k ∧ e = ⟨v, t⟩) ∨ (j ≠ k ∧ s.entry now j = some e) := by
  by_cases hj : j = k
  · subst hj
    have hraw := (Option.filter_eq_some_iff.mp h).1
    rw [put_same] at hraw
    exact .inl ⟨rfl, (Option.some.inj hraw).symm⟩
  · rw [entry_congr (put_ne s hj v t)] at h
    exact .inr ⟨hj, h⟩

@[simp] theorem get_erase_same (s : Store K V) (now : ℕ) (k : K) : (s.erase k).get now k = none := by
  simp [get, entry]

@[simp] theorem get_erase_ne (s : Store K V) (now : ℕ) {k j : K} (h : j ≠ k) :
    (s.erase k).get now j = s.get now j := get_congr (erase_ne s h) now

@[simp] theorem get_put_ne (s : Store K V) (now : ℕ) {k j : K} (h : j ≠ k) (v : V) (t : Option ℕ) :
    (s.put k v t).get now j = s.get now j := get_congr (put_ne s h v t) now

end Store

end IamService.ExpiringStore
