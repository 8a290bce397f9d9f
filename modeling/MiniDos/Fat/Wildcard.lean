import MiniDos.Lib.Glob
import MiniDos.Fat.Name

/-!
# MiniDos.Fat.Wildcard

What `fat16_wildcard_match` decides. The recursion is on the pattern; behind a star the loop tries
every suffix of the text, the empty one last.

`wildcardMatch_language`: it accepts exactly the language of the pattern, in which a star stands for
any string, a question mark for one character, and any other character for itself up to case.
-/

namespace MiniDos
namespace Fat16

open Glob

/-- `a` is a lower-case ASCII letter and `b` its capital. -/
def CapitalOf (b a : Byte) : Prop := 0x61 ≤ a.toNat ∧ a.toNat ≤ 0x7A ∧ b.toNat + 0x20 = a.toNat

/-- Equal up to the case of ASCII letters. -/
def SameLetter (a b : Byte) : Prop := a = b ∨ CapitalOf a b ∨ CapitalOf b a

/-- What a character of a pattern stands for. -/
def wildcardToken (c : Byte) : Token Byte :=
  if c = chStar then .many else if c = chQuestion then .one else .char c

def patternLanguage (pattern : CStr) : Language Byte := language SameLetter (pattern.map wildcardToken)

theorem upperChar_toNat (c : Byte) : (upperChar c).toNat =
    if 0x61 ≤ c.toNat ∧ c.toNat ≤ 0x7A then c.toNat - 0x20 else c.toNat := by
  have hc := c.toNat_lt
  simp only [upperChar, UInt8.le_iff_toNat_le, UInt8.reduceToNat]
  split
  · simp only [UInt8.toNat_add, UInt8.toNat_sub, UInt8.reduceToNat]
    omega
  · rfl

theorem upperChar_eq_iff {a b : Byte} : upperChar a = upperChar b ↔ SameLetter a b := by
  rw [← UInt8.toNat_inj, upperChar_toNat, upperChar_toNat]
  unfold SameLetter CapitalOf
  rw [← UInt8.toNat_inj]
  split <;> split <;> omega

theorem anySuffix_iff {f : CStr → Bool} {text : CStr} :
    anySuffix f text = true ↔ ∃ v, v <:+ text ∧ f v = true := by
  induction text with
  | nil => simp [anySuffix]
  | cons c cs ih => simp [anySuffix, ih, List.suffix_cons_iff, or_and_right, exists_or]

/-! ## The equations of the matcher -/

section Equations

variable {p : Byte} {ps text : CStr}

theorem wildcardMatch_many : wildcardMatch (chStar :: ps) text =
    if ps.isEmpty then true
    else if ps.head? = some chStar then wildcardMatch ps text
    else anySuffix (wildcardMatch ps) text :=
  if_pos rfl

theorem wildcardMatch_single {t : Byte} (hstar : p ≠ chStar) : wildcardMatch (p :: ps) (t :: text) =
    if p = chQuestion then wildcardMatch ps text
    else if upperChar p ≠ upperChar t then false
    else wildcardMatch ps text :=
  if_neg hstar

theorem wildcardMatch_star (hps : ps ≠ []) (hhead : ps.head? ≠ some chStar) :
    wildcardMatch (chStar :: ps) text = anySuffix (wildcardMatch ps) text := by
  simp [wildcardMatch_many, hps, hhead]

theorem wildcardMatch_star_star :
    wildcardMatch (chStar :: chStar :: ps) text = wildcardMatch (chStar :: ps) text := by
  rw [wildcardMatch_many]
  simp

theorem wildcardMatch_star_last : wildcardMatch [chStar] text = true := wildcardMatch_many

theorem wildcardMatch_end (hstar : p ≠ chStar) : wildcardMatch (p :: ps) [] = false := if_neg hstar

theorem wildcardMatch_question {t : Byte} :
    wildcardMatch (chQuestion :: ps) (t :: text) = wildcardMatch ps text := by
  rw [wildcardMatch_single (by decide), if_pos rfl]

theorem wildcardMatch_char {t : Byte} (hstar : p ≠ chStar) (hone : p ≠ chQuestion) :
    wildcardMatch (p :: ps) (t :: text) = true ↔ SameLetter p t ∧ wildcardMatch ps text = true := by
  rw [← upperChar_eq_iff, wildcardMatch_single hstar, if_neg hone]
  by_cases hsame : upperChar p = upperChar t
  · simp [hsame]
  · simp [hsame]

end Equations

/-! ## The language -/

section Tokens

variable {p : Byte} {ps : CStr} {text : CStr}

theorem wildcardToken_star : wildcardToken chStar = .many := rfl

theorem wildcardToken_question : wildcardToken chQuestion = .one := rfl

theorem wildcardToken_char (hstar : p ≠ chStar) (hone : p ≠ chQuestion) :
    wildcardToken p = .char p := by
  simp [wildcardToken, hstar, hone]

theorem patternLanguage_cons :
    patternLanguage (p :: ps) = language SameLetter (wildcardToken p :: ps.map wildcardToken) := rfl

end Tokens

/-- `fat16_wildcard_match` returns 1 exactly for the texts of the pattern's language. It is defined
by recursion on the pattern, so it comes back for every pattern and text. -/
theorem wildcardMatch_language (pattern text : CStr) :
    wildcardMatch pattern text = true ↔ text ∈ patternLanguage pattern := by
  induction pattern generalizing text with
  | nil => simp [wildcardMatch, patternLanguage]
  | cons p ps ih =>
    by_cases hstar : p = chStar
    · -- a star: the last one, one in front of another, or one in front of something else
      subst hstar
      rw [patternLanguage_cons, wildcardToken_star]
      cases ps with
      | nil => simp [wildcardMatch_star_last, language_many_last]
      | cons q qs =>
        by_cases hq : q = chStar
        · subst hq
          rw [wildcardMatch_star_star, ih text, List.map_cons, wildcardToken_star,
            language_many_many, patternLanguage_cons, wildcardToken_star]
        · rw [wildcardMatch_star (by simp) (by simpa using hq), anySuffix_iff, language_many_iff]
          simp only [ih, patternLanguage]
    · by_cases hone : p = chQuestion
      · subst hone
        rw [patternLanguage_cons, wildcardToken_question]
        cases text with
        | nil => simp [wildcardMatch_end hstar]
        | cons t ts => rw [wildcardMatch_question, ih ts, language_one_cons, patternLanguage]
      · rw [patternLanguage_cons, wildcardToken_char hstar hone]
        cases text with
        | nil => simp [wildcardMatch_end hstar]
        | cons t ts =>
          rw [wildcardMatch_char hstar hone, ih ts, language_char_cons, patternLanguage]

theorem matchPattern_iff (pattern : CStr) (e : DirectoryEntry) :
    matchPattern pattern e = true ↔ pattern = [] ∨ pattern = [chStar, chDot, chStar] ∨
      shown (buildDisplayName e) ∈ patternLanguage pattern := by
  unfold matchPattern
  by_cases hempty : pattern = []
  · simp [hempty]
  by_cases hstar : pattern = [chStar]
  · subst hstar
    simp [patternLanguage, wildcardToken_star, language_many_last]
  by_cases hall : pattern = [chStar, chDot, chStar]
  · simp [hall]
  simp [hempty, hstar, hall, wildcardMatch_language]

end Fat16
end MiniDos
