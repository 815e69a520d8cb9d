import IamService.PasswordPolicy
import IamService.RolePermissions
import Mathlib.Data.Fin.VecNotation

/-!
# Temporary passwords

A temporary password has one character of each class and eight alphanumeric ones, shuffled
by swaps. Whatever is drawn, its length and its classes meet the policy. The common patterns
are not looked for: the swaps may carry the letters of one to consecutive places.
-/

namespace IamService.PasswordService
open CharacterSequences

/-- The special characters of temporary passwords. -/
def temporarySpecials : List Char := "!@#$%^&*".toList

def alphanumeric : List Char :=
  "ABCDEFGHIJKLMNOPQRSTUVWXYZabcdefghijklmnopqrstuvwxyz0123456789".toList

/-- The random draws in the order in which they are made. -/
structure TemporaryDraws where
  upper : { c : Char // 'A' ≤ c ∧ c ≤ 'Z' }
  lower : { c : Char // 'a' ≤ c ∧ c ≤ 'z' }
  digit : { c : Char // '0' ≤ c ∧ c ≤ '9' }
  special : Fin temporarySpecials.length
  fill : Fin 8 → Fin alphanumeric.length
  swaps : Fin 12 → Fin 12

/-- The characters before they are shuffled. -/
def TemporaryDraws.chars (d : TemporaryDraws) : Vector Char 12 :=
  #v[d.upper.val, d.lower.val, d.digit.val, temporarySpecials.get d.special] ++
    Vector.ofFn (fun i => alphanumeric.get (d.fill i))

def generateTemporaryPassword (d : TemporaryDraws) : String :=
  String.ofList (shuffle d.swaps d.chars).toList

/-- The swaps carry drawn characters to consecutive places where they read as the pattern,
in whatever letter case. -/
def TemporaryDraws.Spells (d : TemporaryDraws) (pattern : String) : Prop :=
  ∃ k, ∀ i, ∀ h : i < pattern.toList.length,
    ∃ x, (place d.swaps x : ℕ) = k + i ∧ (d.chars.get x).toLower = pattern.toList[i]

end IamService.PasswordService

namespace IamService.TemporaryPasswords
open CharacterSequences PasswordService PasswordPolicy ReferenceLibraries

section Sequences

variable {n : ℕ} {v : Vector Char n} {swaps : Fin n → Fin n}

theorem getElem?_toList_iff {c : Char} {m : ℕ} :
    v.toList[m]? = some c ↔ ∃ y : Fin n, (y : ℕ) = m ∧ v.get y = c := by
  rw [List.getElem?_eq_some_iff]
  constructor
  · rintro ⟨h, hc⟩
    rw [Vector.length_toList] at h
    exact ⟨⟨m, h⟩, rfl, hc⟩
  · rintro ⟨y, rfl, hc⟩
    refine ⟨by simp, ?_⟩
    rw [← hc]
    rfl

/-- What stands at a place after the shuffle was carried there. -/
theorem getElem?_shuffle_iff {c : Char} {m : ℕ} : (shuffle swaps v).toList[m]? = some c ↔
    ∃ x, (place swaps x : ℕ) = m ∧ v.get x = c := by
  rw [getElem?_toList_iff]
  constructor
  · rintro ⟨y, hy, hc⟩
    obtain ⟨x, rfl⟩ := place_surjective swaps y
    exact ⟨x, hy, (get_shuffle swaps v x).symm.trans hc⟩
  · rintro ⟨x, hx, hc⟩
    exact ⟨place swaps x, hx, (get_shuffle swaps v x).trans hc⟩

theorem mem_shuffle_iff {c : Char} :
    c ∈ (shuffle swaps v).toList ↔ ∃ x, v.get x = c := by
  rw [List.mem_iff_getElem?]
  constructor
  · rintro ⟨m, hm⟩
    obtain ⟨x, -, hx⟩ := getElem?_shuffle_iff.mp hm
    exact ⟨x, hx⟩
  · rintro ⟨x, hx⟩
    exact ⟨place swaps x, getElem?_shuffle_iff.mpr ⟨x, rfl, hx⟩⟩

end Sequences

variable (d : TemporaryDraws)

theorem toList_chars : d.chars.toList = [d.upper.val, d.lower.val, d.digit.val,
    temporarySpecials.get d.special] ++ List.ofFn (fun i => alphanumeric.get (d.fill i)) := by
  refine Vector.toList_append.trans ?_
  rw [Vector.toList_ofFn]
  rfl

theorem ascii_of_le {c top : Char} (h : c ≤ top) (htop : top.toNat < 128) : c.toNat < 128 :=
  Nat.lt_of_le_of_lt h htop

/-- Only ASCII characters are drawn. -/
theorem chars_ascii : ∀ c ∈ d.chars.toList, c.toNat < 128 := by
  have hspecials : temporarySpecials.all (fun c => c.toNat < 128) = true := by decide +kernel
  have halphanumeric : alphanumeric.all (fun c => c.toNat < 128) = true := by decide +kernel
  simp only [List.all_eq_true, decide_eq_true_eq] at hspecials halphanumeric
  intro c hc
  rw [toList_chars, List.mem_append, List.mem_ofFn] at hc
  rcases hc with hc | ⟨i, rfl⟩
  · simp only [List.mem_cons, List.not_mem_nil, or_false] at hc
    rcases hc with rfl | rfl | rfl | rfl
    · exact ascii_of_le d.upper.property.2 (by decide)
    · exact ascii_of_le d.lower.property.2 (by decide)
    · exact ascii_of_le d.digit.property.2 (by decide)
    · exact hspecials _ (List.get_mem _ _)
  · exact halphanumeric _ (List.get_mem _ _)

theorem mem_generate_iff {c : Char} :
    c ∈ (generateTemporaryPassword d).toList ↔ c ∈ d.chars.toList := by
  rw [generateTemporaryPassword, String.toList_ofList, mem_shuffle_iff, List.mem_iff_getElem?]
  constructor
  · rintro ⟨x, hx⟩
    exact ⟨x, getElem?_toList_iff.mpr ⟨x, rfl, hx⟩⟩
  · rintro ⟨m, hm⟩
    obtain ⟨x, -, hx⟩ := getElem?_toList_iff.mp hm
    exact ⟨x, hx⟩

theorem generate_ascii : ∀ c ∈ (generateTemporaryPassword d).toList, c.toNat < 128 :=
  fun c hc => chars_ascii d c ((mem_generate_iff d).mp hc)

theorem utf8ByteSize_generate : (generateTemporaryPassword d).utf8ByteSize = 12 := by
  have hascii := generate_ascii d
  unfold generateTemporaryPassword at hascii ⊢
  rw [String.toList_ofList] at hascii
  rw [utf8ByteSize_ascii _ hascii, Vector.length_toList]

/-- One character of each class is drawn, and the shuffle keeps it. -/
theorem generate_composed : Composed (generateTemporaryPassword d) := by
  have hspecials : temporarySpecials.all (fun c => c ∈ specialChars.toList) = true := by decide +kernel
  simp only [List.all_eq_true, decide_eq_true_eq] at hspecials
  have hmem : ∀ c ∈ [d.upper.val, d.lower.val, d.digit.val, temporarySpecials.get d.special],
      c ∈ (generateTemporaryPassword d).toList := by
    intro c hc
    rw [mem_generate_iff, toList_chars]
    exact List.mem_append_left _ hc
  exact
    { lower := ⟨d.lower.val, hmem _ (by simp), d.lower.property⟩
      upper := ⟨d.upper.val, hmem _ (by simp), d.upper.property⟩
      digit := ⟨d.digit.val, hmem _ (by simp), d.digit.property⟩
      special := ⟨temporarySpecials.get d.special, hmem _ (by simp),
        hspecials _ (List.get_mem _ _)⟩ }

/-- A pattern occurs in the password when the swaps spell it. -/
theorem infix_generate_iff {lib : Libraries} (hlower : AsciiLowercase lib) {pattern : String} :
    pattern.toList <:+: (lib.toLowercase (generateTemporaryPassword d)).toList ↔
      d.Spells pattern := by
  rw [hlower _ (generate_ascii d), String.toList_ofList, isInfix_iff_window]
  have hplace : ∀ m c, ((generateTemporaryPassword d).toList.map Char.toLower)[m]? = some c ↔
      ∃ x, (place d.swaps x : ℕ) = m ∧ (d.chars.get x).toLower = c := by
    intro m c
    rw [generateTemporaryPassword, String.toList_ofList, List.getElem?_map, Option.map_eq_some_iff]
    constructor
    · rintro ⟨c', hc', rfl⟩
      obtain ⟨x, hx, rfl⟩ := getElem?_shuffle_iff.mp hc'
      exact ⟨x, hx, rfl⟩
    · rintro ⟨x, hx, rfl⟩
      exact ⟨_, getElem?_shuffle_iff.mpr ⟨x, hx, rfl⟩, rfl⟩
  simp only [hplace]
  rfl

/-- A temporary password is accepted exactly when its draws spell no common pattern. -/
theorem temporary_password_accepted_iff {lib : Libraries} (hlower : AsciiLowercase lib)
    (d : TemporaryDraws) :
    validatePasswordStrength lib (generateTemporaryPassword d) = .ok () ↔
      ∀ pattern ∈ weakPatterns, ¬ d.Spells pattern := by
  have hsize := utf8ByteSize_generate d
  rw [validatePasswordStrength_iff]
  constructor
  · rintro ⟨-, -, -, huncommon⟩ pattern hpattern hspells
    exact huncommon pattern hpattern ((infix_generate_iff d hlower).mpr hspells)
  · intro hspells
    refine ⟨by omega, by omega, generate_composed d, ?_⟩
    intro pattern hpattern hinfix
    exact hspells pattern hpattern ((infix_generate_iff d hlower).mp hinfix)

section Draws

theorem length_alphanumeric : alphanumeric.length = 62 := by decide +kernel

/-- Draws of `Aa1!` and the alphanumeric characters at eight indices, with swaps that
exchange nothing. -/
def drawing (fill : Fin 8 → Fin 62) : TemporaryDraws where
  upper := ⟨'A', by decide⟩
  lower := ⟨'a', by decide⟩
  digit := ⟨'1', by decide⟩
  special := ⟨0, by decide +kernel⟩
  fill := fun i => (fill i).cast length_alphanumeric.symm
  swaps := id

/-- The draws of `Aa1!BBBBBBBB`. -/
def harmless : TemporaryDraws := drawing (fun _ => 1)

theorem reference_lowercase : AsciiLowercase libraries := fun _ _ => rfl

theorem temporary_password_accepted_harmless :
    validatePasswordStrength libraries (generateTemporaryPassword harmless) = .ok () ∧
      ¬ harmless.Spells "dragon" := by
  have haccepted : validatePasswordStrength libraries (generateTemporaryPassword harmless) =
    .ok () := by decide +kernel
  have hdragon : "dragon" ∈ weakPatterns := by decide +kernel
  exact ⟨haccepted,
    (temporary_password_accepted_iff reference_lowercase harmless).mp haccepted _ hdragon⟩

/-- The draws of `Aa1!dragonXY`. -/
def dragon : TemporaryDraws := drawing ![29, 43, 26, 32, 40, 39, 23, 24]

/-- A temporary password with a common pattern in it is refused. -/
theorem temporary_password_refused : ¬ ∀ (lib : Libraries), AsciiLowercase lib →
    ∀ d : TemporaryDraws, validatePasswordStrength lib (generateTemporaryPassword d) = .ok () := by
  intro h
  have hrefused : validatePasswordStrength libraries (generateTemporaryPassword dragon) =
    .error (.badRequest "Password contains common weak patterns") := by decide +kernel
  rw [h libraries reference_lowercase dragon] at hrefused
  cases hrefused

end Draws

end IamService.TemporaryPasswords
