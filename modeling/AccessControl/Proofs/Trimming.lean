import AccessControl.Text.Blank
import Mathlib.Data.List.TakeWhile

/-!
# Blanks around a text

Trimming takes the blanks off the two ends of a text. What is left is the one text without blanks at
its ends that the text consists of but for blanks around it. The case of letters is no matter for
this, since no letter is blank.

## Main definitions

* `Text.IsBlankText`, `Text.IsTight` — texts of blanks alone, and texts without blanks at their ends
* `Text.Padded`, `Text.TrimsTo` — a text with blanks around it, and what they stand around
* `Text.SameLetters` — texts that differ in the case of ASCII letters alone

## Main results

* `Text.trimsTo_iff` — trimming finds the one tight text between blanks
* `Text.SameLetters.lower_trim_eq` — what is trimmed has the same letters then
-/

namespace AccessControl

namespace Text

/-! ### Blanks around a text -/

/-- A text that is made of blanks, or empty. -/
def IsBlankText (s : String) : Prop := ∀ c ∈ s.toList, isBlank c = true

instance : DecidablePred IsBlankText := fun s =>
  decidable_of_iff (s.toList.all isBlank = true) List.all_eq_true

/-- A text that neither begins nor ends with a blank. -/
structure IsTight (s : String) : Prop where
  front : ∀ c, s.toList.head? = some c → isBlank c = false
  back : ∀ c, s.toList.getLast? = some c → isBlank c = false

/-- `t` is `s` with blanks around it. -/
def Padded (s t : String) : Prop :=
  ∃ before after, IsBlankText before ∧ IsBlankText after ∧ t = before ++ s ++ after

/-- `word` is what the blanks of `s` stand around. -/
structure TrimsTo (s word : String) : Prop where
  padded : Padded word s
  tight : IsTight word

theorem dropWhile_isBlank_eq_self {cs : List Char}
    (h : ∀ c, cs.head? = some c → isBlank c = false) : cs.dropWhile isBlank = cs := by
  cases cs with
  | nil => rfl
  | cons c cs => exact List.dropWhile_cons_of_neg (by simp [h c rfl])

theorem isBlank_of_head?_dropWhile {cs : List Char} {c : Char}
    (h : (cs.dropWhile isBlank).head? = some c) : isBlank c = false := by
  have hstop := List.head?_dropWhile_not isBlank cs
  rwa [h] at hstop

theorem trimChars_append {before after : List Char} (hbefore : ∀ c ∈ before, isBlank c = true)
    (hafter : ∀ c ∈ after, isBlank c = true) (cs : List Char) :
    trimChars (before ++ cs ++ after) = trimChars cs := by
  have hreverse : ∀ c ∈ after.reverse, isBlank c = true := by simpa using hafter
  unfold trimChars
  rw [List.append_assoc, List.dropWhile_append_of_pos hbefore, List.dropWhile_append]
  by_cases hempty : cs.dropWhile isBlank = []
  · -- there is nothing between the blanks
    have hall : after.dropWhile isBlank = [] := List.dropWhile_eq_nil_iff.mpr hafter
    simp [hempty, hall]
  · rw [if_neg (by simpa using hempty), List.reverse_append,
      List.dropWhile_append_of_pos hreverse]

/-- What is left behind the blanks in front is the trimmed text with the blanks behind it. -/
theorem dropWhile_eq_trimChars_append (cs : List Char) :
    cs.dropWhile isBlank =
      trimChars cs ++ ((cs.dropWhile isBlank).reverse.takeWhile isBlank).reverse := by
  rw [trimChars, ← List.reverse_append, List.takeWhile_append_dropWhile, List.reverse_reverse]

/-- What is cut off at the two ends is blank. -/
theorem exists_trimChars_append (cs : List Char) : ∃ before after,
    (∀ c ∈ before, isBlank c = true) ∧ (∀ c ∈ after, isBlank c = true) ∧
      cs = before ++ trimChars cs ++ after := by
  refine ⟨cs.takeWhile isBlank, ((cs.dropWhile isBlank).reverse.takeWhile isBlank).reverse,
    fun c hc => List.mem_takeWhile_imp hc,
    fun c hc => List.mem_takeWhile_imp (List.mem_reverse.mp hc), ?_⟩
  rw [List.append_assoc, ← dropWhile_eq_trimChars_append, List.takeWhile_append_dropWhile]

theorem trimsTo_trim (s : String) : TrimsTo s (trim s) := by
  obtain ⟨before, after, hbefore, hafter, hs⟩ := exists_trimChars_append s.toList
  have htrim : (trim s).toList = trimChars s.toList := String.toList_ofList
  refine ⟨⟨.ofList before, .ofList after, by simpa [IsBlankText] using hbefore,
    by simpa [IsBlankText] using hafter, ?padded⟩, ?front, ?back⟩
  case padded =>
    rw [← String.toList_inj]
    simpa [htrim] using hs
  case front =>
    intro c hc
    -- the last blanks are cut off behind, so the first character is that of the text cut in front
    have hfront : (s.toList.dropWhile isBlank).head? = some c := by
      rw [htrim] at hc
      obtain ⟨rest, hrest⟩ := List.head?_eq_some_iff.mp hc
      rw [dropWhile_eq_trimChars_append, hrest]
      rfl
    exact isBlank_of_head?_dropWhile hfront
  case back =>
    intro c hc
    rw [htrim, trimChars, List.getLast?_reverse] at hc
    exact isBlank_of_head?_dropWhile hc

/-- Blanks around a text make no difference to what is trimmed. -/
theorem Padded.trim_eq {s t : String} (h : Padded s t) : trim t = trim s := by
  obtain ⟨before, after, hbefore, hafter, rfl⟩ := h
  have hchars := trimChars_append hbefore hafter s.toList
  rw [trim, trim, String.toList_append, String.toList_append, hchars]

theorem IsTight.trim_eq {s : String} (h : IsTight s) : trim s = s := by
  have hback : s.toList.reverse.dropWhile isBlank = s.toList.reverse :=
    dropWhile_isBlank_eq_self (by simpa using h.back)
  rw [trim, trimChars, dropWhile_isBlank_eq_self h.front, hback]
  simp

theorem trimsTo_iff {s word : String} : TrimsTo s word ↔ trim s = word := by
  constructor
  · intro h
    rw [h.padded.trim_eq, h.tight.trim_eq]
  · rintro rfl
    exact trimsTo_trim s

theorem trim_eq_empty_iff {s : String} : trim s = "" ↔ IsBlankText s := by
  constructor
  · intro h
    obtain ⟨before, after, hbefore, hafter, hs⟩ := (trimsTo_iff.mpr h).padded
    intro c hc
    rw [hs] at hc
    simp only [String.toList_append, String.toList_empty, List.append_nil, List.mem_append] at hc
    exact hc.elim (hbefore c) (hafter c)
  · intro h
    refine trimsTo_iff.mp ⟨⟨s, "", h, nofun, by simp⟩, nofun, nofun⟩

/-! ### Letters of either case -/

/-- A text with its ASCII letters in lower case. -/
def lower (s : String) : String := .ofList (s.toList.map Char.toLower)

/-- Texts that differ in the case of ASCII letters alone. -/
def SameLetters (s t : String) : Prop := s.toList.map Char.toLower = t.toList.map Char.toLower

instance (s t : String) : Decidable (SameLetters s t) :=
  inferInstanceAs (Decidable (_ = _))

/-- No letter is blank, nor is a character between the capital and the small letters. -/
theorem isBlank_of_letterRange {c : Char} (h : 65 ≤ c.toNat) (h' : c.toNat ≤ 122) :
    isBlank c = false := by
  unfold isBlank
  grind

theorem isBlank_toLower (c : Char) : isBlank c.toLower = isBlank c := by
  unfold Char.toLower
  split
  · next hcapital =>
    have hlow : 65 ≤ c.toNat := UInt32.le_iff_toNat_le.mp hcapital.1
    have hhigh : c.toNat ≤ 90 := UInt32.le_iff_toNat_le.mp hcapital.2
    have hsmall : (c.val + ('a'.val - 'A'.val)).toNat = c.toNat + 32 := by
      rw [UInt32.toNat_add]
      exact Nat.mod_eq_of_lt (show c.toNat + 32 < 2 ^ 32 by omega)
    have hletter : ∀ h, isBlank ⟨c.val + ('a'.val - 'A'.val), h⟩ = false := fun _ =>
      isBlank_of_letterRange (show 65 ≤ (c.val + ('a'.val - 'A'.val)).toNat by omega)
        (show (c.val + ('a'.val - 'A'.val)).toNat ≤ 122 by omega)
    rw [hletter, isBlank_of_letterRange hlow (by omega)]
  · rfl

theorem trimChars_map_toLower (cs : List Char) :
    trimChars (cs.map Char.toLower) = (trimChars cs).map Char.toLower := by
  have hcomp : isBlank ∘ Char.toLower = isBlank := funext isBlank_toLower
  simp only [trimChars, List.dropWhile_map, hcomp, ← List.map_reverse]

theorem SameLetters.lower_trim_eq {s t : String} (h : SameLetters s t) :
    lower (trim t) = lower (trim s) := by
  have hchars := congrArg trimChars h
  rw [trimChars_map_toLower, trimChars_map_toLower] at hchars
  simp [lower, trim, hchars]

end Text

end AccessControl
