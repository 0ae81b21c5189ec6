/-!
# Maps kept in key order

A finite map is the list of its entries in strictly ascending key order. The order is part of the
type, so two maps with the same contents are the same value, and the entries are listed in the
order in which they are shown and encoded.

## Main definitions

* `SortedMap κ α` — finite maps from `κ` to `α`, ordered by the keys
* `SortedMap.get?`, `SortedMap.insert`, `SortedMap.erase` — look-up, write, removal
* `SortedMap.ofList` — the map written by a list of entries, a later entry winning
* `SortedSet κ` — finite sets, as maps that carry no value

## Main results

* `SortedMap.ofList_entries` — a map is written by its entries
* `SortedMap.get?_insert`, `SortedMap.get?_erase` — what a write or a removal does to look-ups
* `SortedMap.ext_get?` — a map is determined by its look-ups
-/

namespace AccessControl

/-- A finite map, as the list of its entries in strictly ascending key order. -/
structure SortedMap (κ α : Type) [Ord κ] where
  /-- The entries, in ascending key order. -/
  entries : List (κ × α)
  /-- Every entry's key lies strictly below the keys after it. -/
  ordered : entries.Pairwise fun a b => compare a.1 b.1 = .lt
  deriving DecidableEq

namespace SortedMap

variable {κ α β : Type} [Ord κ]

def empty : SortedMap κ α := ⟨[], .nil⟩

instance : EmptyCollection (SortedMap κ α) := ⟨empty⟩

instance : Inhabited (SortedMap κ α) := ⟨empty⟩

/-- The keys, in ascending order. -/
def keys (m : SortedMap κ α) : List κ := m.entries.map (·.1)

/-- The values, in the order of their keys. -/
def values (m : SortedMap κ α) : List α := m.entries.map (·.2)

def size (m : SortedMap κ α) : Nat := m.entries.length

def isEmpty (m : SortedMap κ α) : Bool := m.entries.isEmpty

/-- The value at a key, if there is one. -/
def get? [DecidableEq κ] (m : SortedMap κ α) (k : κ) : Option α := m.entries.lookup k

def contains [DecidableEq κ] (m : SortedMap κ α) (k : κ) : Bool := (m.get? k).isSome

/-- Put a value at a key of an ordered list of entries, replacing the value that was there. -/
def insertEntry (k : κ) (v : α) : List (κ × α) → List (κ × α)
  | [] => [(k, v)]
  | e :: es =>
    match compare k e.1 with
    | .lt => (k, v) :: e :: es
    | .eq => (k, v) :: es
    | .gt => e :: insertEntry k v es

theorem mem_insertEntry {k : κ} {v : α} {a : κ × α} :
    ∀ {es : List (κ × α)}, a ∈ insertEntry k v es → a = (k, v) ∨ a ∈ es
  | [], h => by simpa [insertEntry] using h
  | e :: es, h => by
    rw [insertEntry] at h
    split at h
    · simpa using h
    · rcases List.mem_cons.mp h with h | h
      · exact .inl h
      · exact .inr (List.mem_cons_of_mem _ h)
    · rcases List.mem_cons.mp h with h | h
      · exact .inr (h ▸ List.mem_cons_self)
      · exact (mem_insertEntry h).imp_right (List.mem_cons_of_mem _)

theorem ordered_insertEntry [Std.TransOrd κ] [Std.LawfulEqOrd κ] (k : κ) (v : α) :
    ∀ {es : List (κ × α)}, es.Pairwise (fun a b => compare a.1 b.1 = .lt) →
      (insertEntry k v es).Pairwise fun a b => compare a.1 b.1 = .lt
  | [], _ => by simp [insertEntry]
  | e :: es, h => by
    have head := (List.pairwise_cons.mp h).1
    have tail := (List.pairwise_cons.mp h).2
    rw [insertEntry]
    split
    · next hk =>
      refine List.pairwise_cons.mpr ⟨fun a ha => ?_, h⟩
      rcases List.mem_cons.mp ha with rfl | ha
      · exact hk
      · exact Std.TransCmp.lt_trans hk (head a ha)
    · next hk =>
      obtain rfl := Std.LawfulEqCmp.eq_of_compare hk
      exact List.pairwise_cons.mpr ⟨head, tail⟩
    · next hk =>
      refine List.pairwise_cons.mpr ⟨fun a ha => ?_, ordered_insertEntry k v tail⟩
      rcases mem_insertEntry ha with rfl | ha
      · exact Std.OrientedCmp.lt_of_gt hk
      · exact head a ha

/-- Put a value at a key, replacing the value that was there. -/
def insert [Std.TransOrd κ] [Std.LawfulEqOrd κ] (m : SortedMap κ α) (k : κ) (v : α) :
    SortedMap κ α :=
  ⟨insertEntry k v m.entries, ordered_insertEntry k v m.ordered⟩

/-- Remove the entry at a key, if there is one. -/
def erase [DecidableEq κ] (m : SortedMap κ α) (k : κ) : SortedMap κ α :=
  ⟨m.entries.filter (·.1 ≠ k), m.ordered.filter _⟩

/-- Write the entries of a list one after the other; of equal keys the last one stays. -/
def ofList [Std.TransOrd κ] [Std.LawfulEqOrd κ] (entries : List (κ × α)) : SortedMap κ α :=
  entries.foldl (fun m e => m.insert e.1 e.2) empty

/-- The map with every value replaced by a function of its entry. -/
def mapEntries (f : κ → α → β) (m : SortedMap κ α) : SortedMap κ β :=
  ⟨m.entries.map fun e => (e.1, f e.1 e.2), List.pairwise_map.mpr m.ordered⟩

/-! ### Maps from their entries -/

/-- A key above all others comes last. -/
theorem insertEntry_of_lt [Std.OrientedOrd κ] (k : κ) (v : α) :
    ∀ {es : List (κ × α)}, (∀ e ∈ es, compare e.1 k = .lt) → insertEntry k v es = es ++ [(k, v)]
  | [], _ => rfl
  | e :: es, h => by
    have hk : compare k e.1 = .gt := Std.OrientedCmp.gt_of_lt (h e List.mem_cons_self)
    have hrest := insertEntry_of_lt k v fun x hx => h x (List.mem_cons_of_mem _ hx)
    simp only [insertEntry, hk, hrest, List.cons_append]

/-- Entries that continue the order of a map are written behind its own. -/
theorem entries_foldl_insert [Std.TransOrd κ] [Std.LawfulEqOrd κ] {es : List (κ × α)}
    {m : SortedMap κ α} (h : (m.entries ++ es).Pairwise fun a b => compare a.1 b.1 = .lt) :
    (es.foldl (fun m e => m.insert e.1 e.2) m).entries = m.entries ++ es := by
  induction es generalizing m with
  | nil => simp
  | cons e es ih =>
    have hlast : ∀ x ∈ m.entries, compare x.1 e.1 = .lt := fun x hx =>
      (List.pairwise_append.mp h).2.2 x hx e List.mem_cons_self
    have hinsert : (m.insert e.1 e.2).entries = m.entries ++ [e] := insertEntry_of_lt e.1 e.2 hlast
    rw [List.foldl_cons, ih, hinsert, List.append_assoc, List.singleton_append]
    rwa [hinsert, List.append_assoc, List.singleton_append]

/-- Entries in ascending order are those of the map that they write. -/
theorem entries_ofList [Std.TransOrd κ] [Std.LawfulEqOrd κ] {es : List (κ × α)}
    (h : es.Pairwise fun a b => compare a.1 b.1 = .lt) : (ofList es).entries = es :=
  entries_foldl_insert (m := empty) h

theorem eq_of_entries_eq {m n : SortedMap κ α} (h : m.entries = n.entries) : m = n := by
  obtain ⟨xs, _⟩ := m
  obtain ⟨ys, _⟩ := n
  obtain rfl : xs = ys := h
  rfl

/-- A map is written by its entries. -/
theorem ofList_entries [Std.TransOrd κ] [Std.LawfulEqOrd κ] (m : SortedMap κ α) :
    ofList m.entries = m :=
  eq_of_entries_eq (entries_ofList m.ordered)

/-! ### Look-ups -/

variable [DecidableEq κ] {m : SortedMap κ α} {k a : κ} {v : α}

@[simp] theorem get?_empty : (empty : SortedMap κ α).get? k = none := rfl

omit [Ord κ] in
theorem lookup_cons_eq_ite (e : κ × α) (es : List (κ × α)) (a : κ) :
    (e :: es).lookup a = if a = e.1 then some e.2 else es.lookup a := by
  obtain ⟨k, v⟩ := e
  by_cases h : a = k
  · simp [h]
  · simp [List.lookup_cons, h, beq_false_of_ne h]

omit [DecidableEq κ] in
theorem ne_of_compare_ne_eq [Std.LawfulEqOrd κ] {k a : κ} (h : compare k a ≠ .eq) : k ≠ a :=
  fun hka => h (Std.LawfulEqCmp.compare_eq_iff_eq.mpr hka)

theorem lookup_insertEntry [Std.LawfulEqOrd κ] (k a : κ) (v : α) :
    ∀ es : List (κ × α),
      (insertEntry k v es).lookup a = if a = k then some v else es.lookup a
  | [] => by simp [insertEntry, lookup_cons_eq_ite]
  | e :: es => by
    rw [insertEntry]
    split
    · simp [lookup_cons_eq_ite]
    · next hk =>
      have hk := Std.LawfulEqCmp.eq_of_compare hk
      by_cases h : a = k <;> simp [lookup_cons_eq_ite, ← hk, h]
    · next hk =>
      have hne : k ≠ e.1 := ne_of_compare_ne_eq (by simp [hk])
      rw [lookup_cons_eq_ite, lookup_cons_eq_ite, lookup_insertEntry k a v es]
      by_cases h : a = k
      · simp [h, hne]
      · simp [h]

theorem get?_insert [Std.TransOrd κ] [Std.LawfulEqOrd κ] :
    (m.insert k v).get? a = if a = k then some v else m.get? a :=
  lookup_insertEntry k a v m.entries

omit [Ord κ] in
theorem lookup_filter_ne (k a : κ) :
    ∀ es : List (κ × α),
      (es.filter (·.1 ≠ k)).lookup a = if a = k then none else es.lookup a
  | [] => by simp
  | e :: es => by
    have ih := lookup_filter_ne k a es
    by_cases hk : e.1 = k
    · rw [List.filter_cons_of_neg (by simpa using hk), ih, lookup_cons_eq_ite, hk]
      by_cases h : a = k <;> simp [h]
    · rw [List.filter_cons_of_pos (by simpa using hk), lookup_cons_eq_ite, lookup_cons_eq_ite, ih]
      by_cases h : a = k
      · simp [h, Ne.symm hk]
      · simp [h]

theorem get?_erase : (m.erase k).get? a = if a = k then none else m.get? a :=
  lookup_filter_ne k a m.entries

omit [Ord κ] in
theorem mem_map_fst_iff (k : κ) :
    ∀ es : List (κ × α), k ∈ es.map (·.1) ↔ (es.lookup k).isSome
  | [] => by simp
  | e :: es => by
    have ih := mem_map_fst_iff k es
    by_cases h : k = e.1 <;> simp_all [lookup_cons_eq_ite]

theorem mem_keys_iff : k ∈ m.keys ↔ m.contains k = true := mem_map_fst_iff k m.entries

omit [DecidableEq κ] in
theorem nodup_keys [Std.LawfulEqOrd κ] (m : SortedMap κ α) : m.keys.Nodup :=
  List.pairwise_map.mpr (m.ordered.imp fun hlt => ne_of_compare_ne_eq (by simp [hlt]))

omit [DecidableEq κ] in
theorem length_keys (m : SortedMap κ α) : m.keys.length = m.size := List.length_map _

theorem mem_iff_lookup_eq_some [Std.TransOrd κ] [Std.LawfulEqOrd κ] {k : κ} {v : α} :
    ∀ {es : List (κ × α)}, es.Pairwise (fun a b => compare a.1 b.1 = .lt) →
      ((k, v) ∈ es ↔ es.lookup k = some v)
  | [], _ => by simp
  | e :: es, h => by
    have ⟨head, tail⟩ := List.pairwise_cons.mp h
    have ih := mem_iff_lookup_eq_some (k := k) (v := v) tail
    rw [List.mem_cons, lookup_cons_eq_ite]
    split
    · next hk =>
      -- the key is that of the first entry, and so of no other
      have hrest : (k, v) ∉ es := fun hmem => by
        have hne : e.1 ≠ k := ne_of_compare_ne_eq (by simp [head _ hmem])
        exact hne hk.symm
      rw [or_iff_left hrest]
      simp [Prod.ext_iff, hk, eq_comm]
    · next hk => simp [Prod.ext_iff, hk, ih]

/-- The entries are what is found at the keys. -/
theorem mem_entries_iff [Std.TransOrd κ] [Std.LawfulEqOrd κ] :
    (k, v) ∈ m.entries ↔ m.get? k = some v :=
  mem_iff_lookup_eq_some m.ordered

omit [Ord κ] in
theorem lookup_map_entry (f : κ → α → β) (k : κ) :
    ∀ es : List (κ × α),
      (es.map fun e => (e.1, f e.1 e.2)).lookup k = (es.lookup k).map (f k)
  | [] => rfl
  | e :: es => by
    have ih := lookup_map_entry f k es
    by_cases h : k = e.1 <;> simp_all [lookup_cons_eq_ite]

theorem get?_mapEntries (f : κ → α → β) : (m.mapEntries f).get? k = (m.get? k).map (f k) :=
  lookup_map_entry f k m.entries

theorem lookup_eq_none_of_lt [Std.LawfulEqOrd κ] {k : κ} :
    ∀ {es : List (κ × α)}, (∀ e ∈ es, compare k e.1 = .lt) → es.lookup k = none
  | [], _ => rfl
  | e :: es, h => by
    have hne : k ≠ e.1 := ne_of_compare_ne_eq (by simp [h e List.mem_cons_self])
    rw [lookup_cons_eq_ite, if_neg hne]
    exact lookup_eq_none_of_lt fun x hx => h x (List.mem_cons_of_mem _ hx)

theorem entries_eq_of_lookup_eq [Std.TransOrd κ] [Std.LawfulEqOrd κ] :
    ∀ {xs ys : List (κ × α)}, xs.Pairwise (fun a b => compare a.1 b.1 = .lt) →
      ys.Pairwise (fun a b => compare a.1 b.1 = .lt) →
      (∀ k, xs.lookup k = ys.lookup k) → xs = ys
  | [], [], _, _, _ => rfl
  | [], y :: _, _, _, h => by simpa [lookup_cons_eq_ite] using h y.1
  | x :: _, [], _, _, h => by simpa [lookup_cons_eq_ite] using h x.1
  | x :: xs, y :: ys, hx, hy, h => by
    have ⟨hx₁, hx₂⟩ := List.pairwise_cons.mp hx
    have ⟨hy₁, hy₂⟩ := List.pairwise_cons.mp hy
    have hxy : x.1 = y.1 := by
      cases hc : compare x.1 y.1 with
      | eq => exact Std.LawfulEqCmp.eq_of_compare hc
      | lt =>
        have hnone : (y :: ys).lookup x.1 = none := lookup_eq_none_of_lt fun e he => by
          rcases List.mem_cons.mp he with rfl | he
          · exact hc
          · exact Std.TransCmp.lt_trans hc (hy₁ e he)
        simpa [hnone, lookup_cons_eq_ite] using h x.1
      | gt =>
        have hnone : (x :: xs).lookup y.1 = none := lookup_eq_none_of_lt fun e he => by
          rcases List.mem_cons.mp he with rfl | he
          · exact Std.OrientedCmp.lt_of_gt hc
          · exact Std.TransCmp.lt_trans (Std.OrientedCmp.lt_of_gt hc) (hx₁ e he)
        simpa [hnone, lookup_cons_eq_ite] using h y.1
    have hval : x.2 = y.2 := by simpa [lookup_cons_eq_ite, hxy] using h x.1
    have htail : xs = ys := entries_eq_of_lookup_eq hx₂ hy₂ fun k => by
      by_cases hk : k = x.1
      · rw [hk, lookup_eq_none_of_lt hx₁, hxy, lookup_eq_none_of_lt hy₁]
      · simpa [lookup_cons_eq_ite, hk, ← hxy] using h k
    rw [htail, Prod.ext hxy hval]

/-- A map is determined by its look-ups. -/
theorem ext_get? [Std.TransOrd κ] [Std.LawfulEqOrd κ] {m n : SortedMap κ α}
    (h : ∀ k, m.get? k = n.get? k) : m = n := by
  cases m with
  | mk xs hx =>
    cases n with
    | mk ys hy =>
      obtain rfl : xs = ys := entries_eq_of_lookup_eq hx hy h
      rfl

theorem filter_eq_toList_lookup [Std.TransOrd κ] [Std.LawfulEqOrd κ] (k : κ) :
    ∀ {es : List (κ × α)}, es.Pairwise (fun a b => compare a.1 b.1 = .lt) →
      es.filter (·.1 = k) = ((es.lookup k).map (k, ·)).toList
  | [], _ => rfl
  | e :: es, h => by
    have ⟨head, tail⟩ := List.pairwise_cons.mp h
    have ih := filter_eq_toList_lookup k tail
    by_cases hk : e.1 = k
    · subst hk
      rw [List.filter_cons_of_pos (by simp), ih, lookup_eq_none_of_lt head, lookup_cons_eq_ite,
        if_pos rfl]
      rfl
    · rw [List.filter_cons_of_neg (by simpa using hk), ih, lookup_cons_eq_ite, if_neg (Ne.symm hk)]

/-- There is one entry at a key, or none. -/
theorem filter_entries (m : SortedMap κ α) [Std.TransOrd κ] [Std.LawfulEqOrd κ] (k : κ) :
    m.entries.filter (·.1 = k) = ((m.get? k).map (k, ·)).toList :=
  filter_eq_toList_lookup k m.ordered

/-- Writing what is there already changes nothing. -/
theorem insert_of_get?_eq_some [Std.TransOrd κ] [Std.LawfulEqOrd κ] (h : m.get? k = some v) :
    m.insert k v = m :=
  ext_get? fun a => by
    rw [get?_insert]
    split
    · next ha => rw [ha, h]
    · rfl

/-- Removing what is not there changes nothing. -/
theorem erase_of_get?_eq_none [Std.TransOrd κ] [Std.LawfulEqOrd κ] (h : m.get? k = none) :
    m.erase k = m :=
  ext_get? fun a => by
    rw [get?_erase]
    split
    · next ha => rw [ha, h]
    · rfl

end SortedMap

/-- A finite set of keys, in ascending order. -/
abbrev SortedSet (κ : Type) [Ord κ] := SortedMap κ Unit

/-- The set of a list's elements. -/
def SortedSet.ofKeys {κ : Type} [Ord κ] [Std.TransOrd κ] [Std.LawfulEqOrd κ] (keys : List κ) :
    SortedSet κ :=
  SortedMap.ofList (keys.map (·, ()))

/-- A set is the set of its elements. -/
theorem SortedSet.ofKeys_keys {κ : Type} [Ord κ] [Std.TransOrd κ] [Std.LawfulEqOrd κ]
    (s : SortedSet κ) : ofKeys s.keys = s := by
  have hid : ((·, ()) ∘ (·.1) : κ × Unit → κ × Unit) = id := rfl
  rw [ofKeys, SortedMap.keys, List.map_map, hid, List.map_id, SortedMap.ofList_entries]

end AccessControl
