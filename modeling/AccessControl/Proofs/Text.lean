import AccessControl.Text.Cut

/-!
# Cutting at a dot

A text is cut at its first dot exactly if it has one, and then the part before has none. It is split
at the same dot first, and joining undoes the splitting. A longer mark is not found before its first
character is.

## Main results

* `Text.cut_dot_eq_some_iff`, `Text.cut_dot_eq_none_iff` — what a cut at a dot finds, and when it
  finds nothing
* `Text.splitDots_append`, `Text.splitDots_of_not_mem` — the first part of a split, and the only one
* `Text.joinDots_splitDots`, `Text.splitDots_joinDots` — splitting and joining undo one another
* `Text.cut_append` — a mark is found behind a part that its first character is not in
-/

namespace AccessControl.Text

/-- A mark of one character is cut at where it stands first. -/
theorem cutChars_singleton_eq_some_iff {m : Char} {s a b : List Char} :
    cutChars [m] s = some (a, b) ↔ s = a ++ m :: b ∧ m ∉ a := by
  induction s generalizing a b with
  | nil => simp [cutChars, stripChars]
  | cons c cs ih =>
    by_cases hc : m = c
    · subst hc
      cases a with
      | nil => simp [cutChars, stripChars]
      | cons d a =>
        simp only [cutChars, stripChars, if_true, Option.some.injEq, Prod.mk.injEq,
          List.cons_append, List.cons.injEq, List.mem_cons, not_or]
        -- the text begins with the mark, so nothing stands before it
        constructor
        · rintro ⟨⟨⟩, -⟩
        · rintro ⟨⟨rfl, -⟩, hd, -⟩
          exact absurd rfl hd
    · cases a with
      | nil => simp [cutChars, stripChars, hc, Ne.symm hc]
      | cons d a =>
        simp only [cutChars, stripChars, if_neg hc, Option.map_eq_some_iff, Prod.exists,
          Prod.mk.injEq, List.cons.injEq, List.cons_append, List.mem_cons, not_or, ih]
        constructor
        · rintro ⟨a', b', ⟨rfl, ha⟩, ⟨rfl, rfl⟩, rfl⟩
          exact ⟨⟨rfl, rfl⟩, hc, ha⟩
        · rintro ⟨⟨rfl, rfl⟩, -, ha⟩
          exact ⟨a, b, ⟨rfl, ha⟩, ⟨rfl, rfl⟩, rfl⟩

theorem cutChars_singleton_eq_none_iff {m : Char} {s : List Char} :
    cutChars [m] s = none ↔ m ∉ s := by
  induction s with
  | nil => simp [cutChars, stripChars]
  | cons c cs ih => by_cases hc : m = c <;> simp [cutChars, stripChars, hc, ih]

theorem cut_dot_eq_some_iff {s a b : String} :
    cut "." s = some (a, b) ↔ s = a ++ "." ++ b ∧ '.' ∉ a.toList := by
  have hdot : ".".toList = ['.'] := rfl
  simp only [cut, hdot, Option.map_eq_some_iff, Prod.exists, Prod.mk.injEq,
    cutChars_singleton_eq_some_iff]
  constructor
  · rintro ⟨x, y, ⟨hs, hx⟩, rfl, rfl⟩
    refine ⟨?_, by simpa using hx⟩
    rw [← String.toList_inj]
    simp [hs]
  · rintro ⟨rfl, ha⟩
    exact ⟨a.toList, b.toList, ⟨by simp, ha⟩, by simp, by simp⟩

theorem cut_dot_eq_none_iff {s : String} : cut "." s = none ↔ '.' ∉ s.toList := by
  have hdot : ".".toList = ['.'] := rfl
  simp [cut, hdot, cutChars_singleton_eq_none_iff]

/-- A mark is cut where it stands first, and no earlier than where its first character does. -/
theorem cutChars_append {m : Char} {mark a b : List Char} (h : m ∉ a) :
    cutChars (m :: mark) (a ++ (m :: mark) ++ b) = some (a, b) := by
  induction a with
  | nil =>
    have hstrip : stripChars (m :: mark) (m :: (mark ++ b)) = some b :=
      stripChars_eq_some_iff.mpr rfl
    simp only [List.nil_append, List.cons_append, cutChars, hstrip]
  | cons c a ih =>
    have hc : m ≠ c := List.ne_of_not_mem_cons h
    have ha : m ∉ a := List.not_mem_of_not_mem_cons h
    simp only [List.cons_append, cutChars, stripChars, if_neg hc]
    simpa using ih ha

theorem cut_append {mark a b : String} {m : Char} (hmark : mark.toList.head? = some m)
    (h : m ∉ a.toList) : cut mark (a ++ mark ++ b) = some (a, b) := by
  obtain ⟨rest, hrest⟩ := List.head?_eq_some_iff.mp hmark
  simp only [cut, String.toList_append, hrest, cutChars_append h]
  simp

/-- The two parts with the mark between them are the whole text. -/
theorem eq_append_of_cut {mark s a b : String} (h : cut mark s = some (a, b)) :
    s = a ++ mark ++ b := by
  simp only [cut, Option.map_eq_some_iff, Prod.exists, Prod.mk.injEq] at h
  obtain ⟨x, y, hcut, rfl, rfl⟩ := h
  rw [← String.toList_inj]
  simpa using eq_append_of_cutChars hcut

theorem stripStart_eq_some_iff {start s rest : String} :
    stripStart start s = some rest ↔ s = start ++ rest := by
  simp only [stripStart, Option.map_eq_some_iff, stripChars_eq_some_iff]
  constructor
  · rintro ⟨cs, hs, rfl⟩
    rw [← String.toList_inj]
    simp [hs]
  · rintro rfl
    exact ⟨rest.toList, by simp, by simp⟩

theorem splitDots_of_not_mem {s : String} (h : '.' ∉ s.toList) : splitDots s = [s] := by
  simp [splitDots, List.splitOn_eq_singleton h]

/-- The first part is what stands before the first dot. -/
theorem splitDots_append {a b : String} (h : '.' ∉ a.toList) :
    splitDots (a ++ "." ++ b) = a :: splitDots b := by
  have hdot : (a ++ "." ++ b).toList = a.toList ++ '.' :: b.toList := by simp
  simp [splitDots, hdot, List.splitOn_append_cons_self_of_not_mem h]

theorem splitDots_ne_nil (s : String) : splitDots s ≠ [] := by
  simp [splitDots, List.splitOn_ne_nil]

theorem toList_joinDots (parts : List String) :
    (joinDots parts).toList = ['.'].intercalate (parts.map String.toList) :=
  String.toList_intercalate

/-- The parts of a text, empty ones among them, are joined to that text again. -/
theorem joinDots_splitDots (s : String) : joinDots (splitDots s) = s := by
  rw [← String.toList_inj, toList_joinDots, splitDots, List.map_map]
  simp [Function.comp_def, List.intercalate_splitOn]

/-- Parts without a dot are found again, if there are any: no part at all is written like one that
is empty. -/
theorem splitDots_joinDots {parts : List String} (h : parts ≠ [])
    (hdots : ∀ part ∈ parts, '.' ∉ part.toList) : splitDots (joinDots parts) = parts := by
  have hsplit : (joinDots parts).toList.splitOn '.' = parts.map String.toList := by
    rw [toList_joinDots]
    exact List.splitOn_intercalate '.' (List.forall_mem_map.mpr hdots) (by simpa using h)
  rw [splitDots, hsplit, List.map_map]
  simp [Function.comp_def]

end AccessControl.Text
