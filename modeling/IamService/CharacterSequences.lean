import Mathlib.Data.List.Infix
import Mathlib.Data.List.OfFn
import Mathlib.Data.List.FinRange
import Mathlib.Data.Nat.Notation
import Mathlib.Data.Vector.Basic
import Mathlib.Logic.Equiv.Basic

/-!
# Sequences of characters

The size of a text in bytes, patterns in a text and as windows of a sequence, the splitting of
a sequence at the first separator, and the shuffling of a sequence by one swap for each of its
places.
-/

namespace IamService.CharacterSequences

section Bytes

theorem utf8ByteSize_ofList_cons (c : Char) (cs : List Char) :
    (String.ofList (c :: cs)).utf8ByteSize = c.utf8Size + (String.ofList cs).utf8ByteSize := by
  have happend : String.ofList (c :: cs) = String.singleton c ++ String.ofList cs := by
    rw [← String.toList_inj]
    simp
  rw [happend, String.utf8ByteSize_append, String.utf8ByteSize_singleton]

/-- A character takes between one and four bytes. -/
theorem utf8ByteSize_ofList_bounds (cs : List Char) :
    cs.length ≤ (String.ofList cs).utf8ByteSize ∧
      (String.ofList cs).utf8ByteSize ≤ 4 * cs.length := by
  induction cs with
  | nil => simp
  | cons c cs ih =>
    have hpos := c.utf8Size_pos
    have hfour := c.utf8Size_le_four
    rw [utf8ByteSize_ofList_cons, List.length_cons]
    omega

theorem length_le_utf8ByteSize (s : String) : s.length ≤ s.utf8ByteSize := by
  have h := (utf8ByteSize_ofList_bounds s.toList).1
  rwa [String.ofList_toList, String.length_toList] at h

theorem utf8ByteSize_le (s : String) : s.utf8ByteSize ≤ 4 * s.length := by
  have h := (utf8ByteSize_ofList_bounds s.toList).2
  rwa [String.ofList_toList, String.length_toList] at h

/-- An ASCII character takes one byte. -/
theorem utf8ByteSize_ascii (cs : List Char) (h : ∀ c ∈ cs, c.toNat < 128) :
    (String.ofList cs).utf8ByteSize = cs.length := by
  induction cs with
  | nil => rfl
  | cons c cs ih =>
    obtain ⟨hc, hcs⟩ := List.forall_mem_cons.mp h
    have hone : c.utf8Size = 1 := Char.utf8Size_eq_one_iff.mpr (by
      rw [UInt32.le_iff_toNat_le]
      exact Nat.le_of_lt_succ hc)
    rw [utf8ByteSize_ofList_cons, hone, ih hcs, List.length_cons, Nat.add_comm]

end Bytes

section Windows

/-- `str::contains` for a text pattern. -/
def containsText (s pattern : String) : Bool := s.toList.tails.any pattern.toList.isPrefixOf

/-- `str::starts_with`. -/
def startsWith (s pattern : String) : Bool := pattern.toList.isPrefixOf s.toList

theorem containsText_iff {s pattern : String} :
    containsText s pattern = true ↔ pattern.toList <:+: s.toList := by
  simp only [containsText, List.any_eq_true, List.isPrefixOf_iff_prefix, List.mem_tails]
  constructor
  · rintro ⟨rest, hrest, hpattern⟩
    exact hpattern.isInfix.trans hrest.isInfix
  · rintro ⟨before, after, h⟩
    refine ⟨pattern.toList ++ after, ?_, List.prefix_append _ _⟩
    rw [← h, List.append_assoc]
    exact List.suffix_append _ _

variable {α : Type}

/-- A pattern occurs in a sequence when its members stand at consecutive places. -/
theorem isInfix_iff_window {pattern cs : List α} : pattern <:+: cs ↔
    ∃ k, ∀ i, ∀ h : i < pattern.length, cs[k + i]? = some pattern[i] := by
  constructor
  · rintro ⟨before, after, rfl⟩
    refine ⟨before.length, ?_⟩
    intro i h
    rw [List.append_assoc, List.getElem?_append_right (Nat.le_add_right _ _),
      Nat.add_sub_cancel_left, List.getElem?_append_left h, List.getElem?_eq_getElem h]
  · rintro ⟨k, hk⟩
    have htake : pattern = (cs.drop k).take pattern.length := by
      apply List.ext_getElem?
      intro i
      by_cases h : i < pattern.length
      · rw [List.getElem?_take_of_lt h, List.getElem?_drop, hk i h, List.getElem?_eq_getElem h]
      · rw [List.getElem?_eq_none (Nat.not_lt.mp h), List.getElem?_eq_none]
        exact (List.length_take_le _ _).trans (Nat.not_lt.mp h)
    rw [htake]
    exact ((List.take_prefix _ _).isInfix).trans (List.drop_suffix _ _).isInfix

end Windows

section Separators

variable {α : Type} {a : α}

/-- The first occurrence of a separator decides how a text was put together. -/
theorem append_cons_inj_of_first {x y z t : List α} (hx : a ∉ x) (hy : a ∉ y)
    (h : x ++ a :: z = y ++ a :: t) : x = y ∧ z = t := by
  induction x generalizing y with
  | nil =>
    cases y with
    | nil => exact ⟨rfl, (List.cons.inj h).2⟩
    | cons b y =>
      have hb : a = b := (List.cons.inj h).1
      exact absurd (hb ▸ List.mem_cons_self) hy
  | cons b x ih =>
    cases y with
    | nil =>
      have hb : b = a := (List.cons.inj h).1
      exact absurd (hb ▸ List.mem_cons_self) hx
    | cons d y =>
      obtain ⟨rfl, hrest⟩ := List.cons.inj h
      have hx' : a ∉ x := fun ha => hx (List.mem_cons_of_mem _ ha)
      have hy' : a ∉ y := fun ha => hy (List.mem_cons_of_mem _ ha)
      obtain ⟨rfl, rfl⟩ := ih hx' hy' hrest
      exact ⟨rfl, rfl⟩

/-- What stands before the first separator, and what stands after it if there is one. -/
def splitFirst [DecidableEq α] (a : α) : List α → List α × Option (List α)
  | [] => ([], none)
  | b :: l => if b = a then ([], some l) else (b :: (splitFirst a l).1, (splitFirst a l).2)

variable [DecidableEq α]

theorem splitFirst_append {x y : List α} (hx : a ∉ x) :
    splitFirst a (x ++ a :: y) = (x, some y) := by
  induction x with
  | nil => simp [splitFirst]
  | cons b x ih =>
    rw [List.mem_cons, not_or] at hx
    obtain ⟨hb, hx⟩ := hx
    simp [splitFirst, Ne.symm hb, ih hx]

theorem splitFirst_of_not_mem {l : List α} (hl : a ∉ l) : splitFirst a l = (l, none) := by
  induction l with
  | nil => rfl
  | cons b l ih =>
    rw [List.mem_cons, not_or] at hl
    obtain ⟨hb, hl⟩ := hl
    simp [splitFirst, Ne.symm hb, ih hl]

/-- A sequence has no separator, or splits around the first one. -/
theorem first_or_none (a : α) (l : List α) : a ∉ l ∨ ∃ x y, a ∉ x ∧ l = x ++ a :: y := by
  by_cases h : a ∈ l
  · obtain ⟨x, y, rfl, hx⟩ := List.eq_append_cons_of_mem h
    exact .inr ⟨x, y, hx, rfl⟩
  · exact .inl h

end Separators

section Shuffles

variable {α : Type} {n : ℕ}

/-- Exchange each place in turn with the one drawn for it. -/
def shuffle (swaps : Fin n → Fin n) (v : Vector α n) : Vector α n :=
  (List.finRange n).foldl (fun u (i : Fin n) => u.swap i (swaps i)) v

/-- The place to which the swaps carry what stands at a place. -/
def place (swaps : Fin n → Fin n) (x : Fin n) : Fin n :=
  (List.finRange n).foldl (fun y i => Equiv.swap i (swaps i) y) x

theorem get_swap (v : Vector α n) (i j x : Fin n) :
    (v.swap i j).get (Equiv.swap i j x) = v.get x := by
  by_cases hi : x = i
  · subst hi
    rw [Equiv.swap_apply_left]
    exact Vector.getElem_swap_right x.isLt j.isLt
  · by_cases hj : x = j
    · subst hj
      rw [Equiv.swap_apply_right]
      exact Vector.getElem_swap_left i.isLt x.isLt
    · rw [Equiv.swap_apply_of_ne_of_ne hi hj]
      exact Vector.getElem_swap_of_ne (fun h => hi (Fin.ext h)) (fun h => hj (Fin.ext h))

/-- Whatever is swapped, each member is found at the place it is carried to. -/
theorem get_foldl_swap (swaps : Fin n → Fin n) (l : List (Fin n)) (v : Vector α n) (x : Fin n) :
    (l.foldl (fun u (i : Fin n) => u.swap i (swaps i)) v).get
      (l.foldl (fun y i => Equiv.swap i (swaps i) y) x) = v.get x := by
  induction l generalizing v x with
  | nil => rfl
  | cons i l ih =>
    rw [List.foldl_cons, List.foldl_cons, ih]
    exact get_swap v i (swaps i) x

theorem get_shuffle (swaps : Fin n → Fin n) (v : Vector α n) (x : Fin n) :
    (shuffle swaps v).get (place swaps x) = v.get x := get_foldl_swap swaps _ v x

/-- Every place receives something. -/
theorem foldl_swap_surjective (swaps : Fin n → Fin n) (l : List (Fin n)) (y : Fin n) :
    ∃ x, l.foldl (fun y i => Equiv.swap i (swaps i) y) x = y := by
  induction l with
  | nil => exact ⟨y, rfl⟩
  | cons i l ih =>
    obtain ⟨z, hz⟩ := ih
    refine ⟨Equiv.swap i (swaps i) z, ?_⟩
    rw [List.foldl_cons, Equiv.swap_apply_self]
    exact hz

theorem place_surjective (swaps : Fin n → Fin n) : Function.Surjective (place swaps) :=
  foldl_swap_surjective swaps _

end Shuffles

end IamService.CharacterSequences
