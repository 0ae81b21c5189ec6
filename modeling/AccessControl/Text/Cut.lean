/-!
# Cutting a text at a mark

A dotted or marked name is cut at the first place where the mark stands: the part before it and
the part after it, without the mark.

## Main definitions

* `Text.cutChars`, `Text.cut` — the parts before and after the first occurrence of a mark
* `Text.stripStart` — what follows a given beginning
* `Text.splitDots`, `Text.joinDots` — the parts between the dots, and their inverse

## Main results

* `Text.stripChars_eq_some_iff` — stripping a mark leaves exactly what follows it
* `Text.eq_append_of_cutChars` — the two parts with the mark between them are the whole text
-/

namespace AccessControl.Text

/-- What follows `mark` in a list of characters that begins with it. -/
def stripChars : List Char → List Char → Option (List Char)
  | [], cs => some cs
  | _ :: _, [] => none
  | m :: mark, c :: cs => if m = c then stripChars mark cs else none

theorem stripChars_eq_some_iff {mark s rest : List Char} :
    stripChars mark s = some rest ↔ s = mark ++ rest := by
  induction mark generalizing s with
  | nil => simp [stripChars]
  | cons m mark ih =>
    cases s with
    | nil => simp [stripChars]
    | cons c cs =>
      rw [stripChars]
      by_cases h : m = c
      · simp [h, ih]
      · simp [h, Ne.symm h]

/-- The characters before and after the first occurrence of `mark`. -/
def cutChars (mark : List Char) : List Char → Option (List Char × List Char)
  | [] => (stripChars mark []).map ([], ·)
  | c :: cs =>
    match stripChars mark (c :: cs) with
    | some rest => some ([], rest)
    | none => (cutChars mark cs).map fun p => (c :: p.1, p.2)

/-- The two parts with the mark between them are the whole text. -/
theorem eq_append_of_cutChars {mark s a b : List Char} (h : cutChars mark s = some (a, b)) :
    s = a ++ mark ++ b := by
  induction s generalizing a with
  | nil =>
    simp only [cutChars, Option.map_eq_some_iff, Prod.mk.injEq] at h
    obtain ⟨rest, hrest, rfl, rfl⟩ := h
    simpa using stripChars_eq_some_iff.mp hrest
  | cons c cs ih =>
    rw [cutChars] at h
    split at h
    · next rest hrest =>
      simp only [Option.some.injEq, Prod.mk.injEq] at h
      obtain ⟨rfl, rfl⟩ := h
      simpa using stripChars_eq_some_iff.mp hrest
    · simp only [Option.map_eq_some_iff, Prod.mk.injEq] at h
      obtain ⟨p, hp, rfl, rfl⟩ := h
      simpa using ih hp

/-- The texts before and after the first occurrence of `mark`. -/
def cut (mark s : String) : Option (String × String) :=
  (cutChars mark.toList s.toList).map fun p => (.ofList p.1, .ofList p.2)

/-- What follows `start` in a text that begins with it. -/
def stripStart (start s : String) : Option String :=
  (stripChars start.toList s.toList).map .ofList

/-- The parts between the dots of a text; a text without a dot is its only part. -/
def splitDots (s : String) : List String := (s.toList.splitOn '.').map .ofList

/-- Parts written with a dot between each two. -/
def joinDots (parts : List String) : String := ".".intercalate parts

end AccessControl.Text
