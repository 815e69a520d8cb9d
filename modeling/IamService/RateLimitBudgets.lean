import IamService.CharacterSequences
import IamService.DecimalNumerals

/-!
# The budgets of the rate limiter

The budget of a path is a limit and a window in seconds. It is built in, and the environment
may override it by a text with two numerals. Whatever the text is, a budget is never zero.
-/

namespace IamService.RateLimitBudgets
open CharacterSequences DecimalNumerals

/-- `char::is_whitespace`, the code points with the property `White_Space`. -/
def isWhitespace (c : Char) : Bool :=
  c = ' ' || (0x09 ≤ c.toNat && c.toNat ≤ 0x0D) || c.toNat = 0x85 || c.toNat = 0xA0 ||
    c.toNat = 0x1680 || (0x2000 ≤ c.toNat && c.toNat ≤ 0x200A) || c.toNat = 0x2028 ||
    c.toNat = 0x2029 || c.toNat = 0x202F || c.toNat = 0x205F || c.toNat = 0x3000

/-- `str::trim`. -/
def trimmed (text : List Char) : List Char := trim isWhitespace text

/-- `str::parse::<u64>`. -/
def parseU64 (text : List Char) : Option ℕ := parse (2 ^ 64) text

/-- Read a limit and a window; anything malformed or not positive gives the default. -/
def parseLimit (raw : String) (default : ℕ × ℕ) : ℕ × ℕ :=
  let parts := splitFirst ',' (trimmed raw.toList)
  match parseU64 (trimmed parts.1), (parts.2.map trimmed).bind parseU64 with
  | some limit, some window => if 0 < limit ∧ 0 < window then (limit, window) else default
  | _, _ => default

/-- The environment gives no text for a variable that is unset or no Unicode. -/
def envLimit (env : String → Option String) (var : String) (default : ℕ × ℕ) : ℕ × ℕ :=
  match env var with
  | some raw => parseLimit raw default
  | none => default

/-- The budget of a request path. -/
def limitsForPath (env : String → Option String) (path : String) : ℕ × ℕ :=
  if "/login".toList.isSuffixOf path.toList then envLimit env "IAM_LOGIN_LIMIT" (10, 60)
  else if "/register".toList.isSuffixOf path.toList then envLimit env "IAM_REGISTER_LIMIT" (5, 3600)
  else envLimit env "IAM_GENERAL_LIMIT" (100, 60)

/-- The numerals of the two parts around the first comma, for positive 64-bit values. -/
def Specifies (raw : String) (limit window : ℕ) : Prop :=
  ∃ x y, ',' ∉ x ∧ trimmed raw.toList = x ++ ',' :: y ∧
    Numeral (trimmed x) limit ∧ (1 ≤ limit ∧ limit ≤ 2 ^ 64 - 1) ∧
    Numeral (trimmed y) window ∧ 1 ≤ window ∧ window ≤ 2 ^ 64 - 1

variable {raw : String} {default : ℕ × ℕ} {limit window : ℕ}

theorem parseU64_eq_some {text : List Char} {n : ℕ} :
    parseU64 text = some n ↔ Numeral text n ∧ n ≤ 2 ^ 64 - 1 := by
  rw [parseU64, parse_eq_some (by decide)]
  refine and_congr_right ?_
  intro _
  omega

/-- What the two parts are read as. -/
theorem parseLimit_split {x y : List Char} (hx : ',' ∉ x)
    (h : trimmed raw.toList = x ++ ',' :: y) :
    parseLimit raw default =
      match parseU64 (trimmed x), parseU64 (trimmed y) with
      | some limit, some window => if 0 < limit ∧ 0 < window then (limit, window) else default
      | _, _ => default := by
  simp only [parseLimit, h, splitFirst_append hx, Option.map_some, Option.bind_some]

theorem parseLimit_of_specifies (h : Specifies raw limit window) :
    parseLimit raw default = (limit, window) := by
  obtain ⟨x, y, hx, hsplit, hlimit, ⟨hpos, hmax⟩, hwindow, hpos', hmax'⟩ := h
  have hread : parseU64 (trimmed x) = some limit := parseU64_eq_some.mpr ⟨hlimit, hmax⟩
  have hread' : parseU64 (trimmed y) = some window := parseU64_eq_some.mpr ⟨hwindow, hmax'⟩
  simp only [parseLimit_split hx hsplit, hread, hread']
  exact if_pos ⟨hpos, hpos'⟩

theorem parseLimit_of_not_specifies (h : ∀ limit window, ¬ Specifies raw limit window) :
    parseLimit raw default = default := by
  rcases first_or_none ',' (trimmed raw.toList) with hnone | ⟨x, y, hx, hsplit⟩
  · simp [parseLimit, splitFirst_of_not_mem hnone]
  · rw [parseLimit_split hx hsplit]
    cases hread : parseU64 (trimmed x) with
    | none => rfl
    | some limit =>
      cases hread' : parseU64 (trimmed y) with
      | none => rfl
      | some window =>
        obtain ⟨hlimit, hmax⟩ := parseU64_eq_some.mp hread
        obtain ⟨hwindow, hmax'⟩ := parseU64_eq_some.mp hread'
        refine if_neg ?_
        rintro ⟨hpos, hpos'⟩
        exact h limit window ⟨x, y, hx, hsplit, hlimit, ⟨hpos, hmax⟩, hwindow, hpos', hmax'⟩

/-- A positive default leaves no way to a budget of zero. -/
theorem parseLimit_pos (raw : String) (hlimit : 0 < default.1) (hwindow : 0 < default.2) :
    0 < (parseLimit raw default).1 ∧ 0 < (parseLimit raw default).2 := by
  by_cases h : ∃ limit window, Specifies raw limit window
  · obtain ⟨limit, window, h⟩ := h
    rw [parseLimit_of_specifies h]
    obtain ⟨x, y, -, -, -, ⟨hpos, -⟩, -, hpos', -⟩ := h
    exact ⟨hpos, hpos'⟩
  · have hnone : ∀ limit window, ¬ Specifies raw limit window := by
      intro limit window hspecifies
      exact h ⟨limit, window, hspecifies⟩
    rw [parseLimit_of_not_specifies hnone]
    exact ⟨hlimit, hwindow⟩

theorem limitsForPath_pos (env : String → Option String) (path : String) :
    0 < (limitsForPath env path).1 ∧ 0 < (limitsForPath env path).2 := by
  have henv : ∀ var default, 0 < default.1 → 0 < default.2 →
      0 < (envLimit env var default).1 ∧ 0 < (envLimit env var default).2 := by
    intro var default hlimit hwindow
    unfold envLimit
    split
    · exact parseLimit_pos _ hlimit hwindow
    · exact ⟨hlimit, hwindow⟩
  unfold limitsForPath
  split
  · exact henv _ _ (by decide) (by decide)
  · split <;> exact henv _ _ (by decide) (by decide)

/-- A text is read exactly when it has the form of two numerals around a comma, and every
other text gives the default; so no budget is zero. -/
theorem parseLimit_accepts_grammar (raw : String) (default : ℕ × ℕ) :
    (∀ limit window, Specifies raw limit window → parseLimit raw default = (limit, window)) ∧
      ((∀ limit window, ¬ Specifies raw limit window) → parseLimit raw default = default) ∧
      (0 < default.1 → 0 < default.2 →
        0 < (parseLimit raw default).1 ∧ 0 < (parseLimit raw default).2) ∧
      ∀ env path, 0 < (limitsForPath env path).1 ∧ 0 < (limitsForPath env path).2 := by
  refine ⟨?_, parseLimit_of_not_specifies, parseLimit_pos raw, limitsForPath_pos⟩
  intro limit window h
  exact parseLimit_of_specifies h

example : parseLimit "  20 , +60 " (5, 3600) = (20, 60) := by decide +kernel

example : parseLimit "20,60,1" (5, 3600) = (5, 3600) := by decide +kernel

end IamService.RateLimitBudgets
