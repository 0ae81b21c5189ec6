import AccessControl.Proofs.Strictness
import Mathlib.Data.List.Flatten
import Mathlib.Data.List.Perm.Subperm

/-!
# Octets that list a section

Sets and maps are written in ascending order and read in any order, the last of equal keys staying.
So a section is read from the octets of many listings, and written as one of them: the listing in
ascending order, which is the shortest one.

## Main definitions

* `UserSection.listing`, `PrivilegeSection.listing` — what octets list, item by item
* `Text.Precedes`, `Privilege.Key.Precedes` — the order of names by their octets, and of keys
* `UserSection.Ascending`, `PrivilegeSection.Ascending` — listings in strictly ascending order
* `UserSection.HoldsLast`, `PrivilegeSection.HoldsLast` — a section holds what is listed last

## Main results

* `SortedMap.entries_ofList_subperm`, `SortedMap.get?_ofList` — what is left of a list of entries
* `Binary.Format.decode_reproduces` — what is decoded is written as it was listed, up to order
-/

namespace AccessControl

/-! ### Maps from lists of entries -/

namespace SortedMap

variable {κ α : Type} [Ord κ]

open List in
theorem insertEntry_subperm (k : κ) (v : α) :
    ∀ es : List (κ × α), insertEntry k v es <+~ (k, v) :: es
  | [] => .refl _
  | e :: es => by
    rw [insertEntry]
    split
    · exact .refl _
    · exact ((sublist_cons_self e es).cons_cons (k, v)).subperm
    · exact ((subperm_cons e).mpr (insertEntry_subperm k v es)).trans (Perm.swap ..).subperm

variable [Std.TransOrd κ] [Std.LawfulEqOrd κ]

open List in
/-- The entries that are left are some of those that were written. -/
theorem entries_ofList_subperm (es : List (κ × α)) : (ofList es).entries <+~ es := by
  have hfold (m : SortedMap κ α) :
      (es.foldl (fun m e => m.insert e.1 e.2) m).entries <+~ es ++ m.entries := by
    induction es generalizing m with
    | nil => exact .refl _
    | cons e es ih =>
      have hinsert : (m.insert e.1 e.2).entries <+~ e :: m.entries := insertEntry_subperm ..
      have hrest := (subperm_append_left es).mpr hinsert
      exact ((ih _).trans hrest).trans perm_middle.subperm
  have hempty : es ++ (empty : SortedMap κ α).entries = es := append_nil es
  have hwritten := hfold empty
  rwa [hempty] at hwritten

open List in
theorem map_entries_ofList_subperm {β : Type} (f : κ × α → β) (es : List (κ × α)) :
    (ofList es).entries.map f <+~ es.map f := by
  obtain ⟨written, hperm, hsub⟩ := entries_ofList_subperm es
  exact ⟨written.map f, hperm.map f, hsub.map f⟩

/-- The value that was written last is found. -/
theorem get?_ofList [DecidableEq κ] (es : List (κ × α)) (k : κ) :
    (ofList es).get? k = es.reverse.lookup k := by
  have hfold (m : SortedMap κ α) :
      (es.foldl (fun m e => m.insert e.1 e.2) m).get? k = (es.reverse.lookup k).or (m.get? k) := by
    induction es generalizing m with
    | nil => rfl
    | cons e es ih =>
      rw [List.foldl_cons, ih, get?_insert, List.reverse_cons, List.lookup_append, Option.or_assoc,
        lookup_cons_eq_ite]
      split <;> rfl
  exact (hfold empty).trans (Option.or_none ..)

end SortedMap

/-! ### Formats of listings -/

namespace Binary.Format

variable {α β γ δ : Type} {f : Format α} {g : Format β}

theorem convert_convert (forth : α → β) (back : β → α) (forth' : β → γ) (back' : γ → β) :
    (f.convert forth back).convert forth' back' = f.convert (forth' ∘ forth) (back ∘ back') := by
  simp [convert]

theorem pair_convert (forth : β → γ) (back : γ → β) :
    pair f (g.convert forth back) =
      (pair f g).convert (fun p => (p.1, forth p.2)) fun p => (p.1, back p.2) := by
  simp [convert, pair]

theorem many_map (r : Reader α) (forth : α → β) (n : Nat) :
    many (forth <$> r) n = List.map forth <$> many r n := by
  induction n with
  | zero => simp [many]
  | succ n ih => simp [many, ih]

theorem list_convert (forth : α → β) (back : β → α) :
    list (f.convert forth back) = (list f).convert (List.map forth) (List.map back) := by
  simp [convert, list, many_map, List.flatMap_map]

theorem length_write_list (xs : List α) :
    ((list f).write xs).length = lengthWidth + (xs.flatMap f.write).length := by
  show (writeWord lengthWidth xs.length ++ xs.flatMap f.write).length = _
  rw [List.length_append, length_writeWord]

open List in
/-- Fewer items take no more octets, in whatever order. -/
theorem length_write_list_le_of_subperm {xs ys : List α} (h : xs <+~ ys) :
    ((list f).write xs).length ≤ ((list f).write ys).length := by
  obtain ⟨zs, hperm, hsub⟩ := h
  have hsame := (hperm.flatMap_right f.write).length_eq
  have hle := (hsub.flatMap f.write).length_le
  rw [length_write_list, length_write_list]
  omega

theorem length_write_list_map_le {xs : List α} {h : α → α}
    (hle : ∀ x, (f.write (h x)).length ≤ (f.write x).length) :
    ((list f).write (xs.map h)).length ≤ ((list f).write xs).length := by
  rw [length_write_list, length_write_list]
  refine Nat.add_le_add_left ?_ _
  induction xs with
  | nil => exact Nat.le_refl _
  | cons x xs ih =>
    simp only [List.map_cons, List.flatMap_cons, List.length_append]
    exact Nat.add_le_add (hle x) ih

/-- Values are read from listings, and written as one of those that they are read from: the one in
ascending order. -/
structure Normalizes (f : Format β) (listing : Format α) (HoldsLast : β → α → Prop)
    (Ascending : α → Prop) (Storable : β → Prop) : Prop where
  /-- Octets from which a value is decoded begin with a listing. The value holds what is listed
  last, is written in no more octets, and is written as the octets begin exactly if the listing is
  in strictly ascending order. -/
  decoded {bytes : List UInt8} {b : β} (h : f.decode bytes = .ok b) :
    ∃ a, listing.decode bytes = .ok a ∧ listing.encode a <+: bytes ∧ HoldsLast b a ∧
      (f.encode b).length ≤ bytes.length ∧ (f.encode b <+: bytes ↔ Ascending a)
  /-- What is decoded can be written. -/
  storable {bytes : List UInt8} {b : β} (h : f.decode bytes = .ok b) : Storable b
  /-- Values are the same exactly if their octets are. -/
  encode_eq_iff {b c : β} (hb : Storable b) (hc : Storable c) : f.encode b = f.encode c ↔ b = c

/-- Octets begin with those of a value if and only if it is the value that is read from them. -/
theorem write_prefix_iff {bytes rest : List UInt8} {a b : α} (hread : f.read bytes = .ok (a, rest))
    (hbytes : bytes = f.write a ++ rest) (hb : f.Restores b) : f.write b <+: bytes ↔ b = a := by
  constructor
  · rintro ⟨tail, rfl⟩
    exact (Prod.mk.inj (Except.ok.inj ((hb tail).symm.trans hread))).1
  · rintro rfl
    exact ⟨rest, hbytes.symm⟩

theorem read_of_decode_convert {forth : α → β} {back : β → α} {bytes : List UInt8} {b : β}
    (h : (f.convert forth back).decode bytes = .ok b) :
    ∃ a rest, f.read bytes = .ok (a, rest) ∧ b = forth a := by
  obtain ⟨rest, hread⟩ := decode_eq_ok_iff.mp h
  obtain ⟨a, left, ha, hread⟩ := Reader.bind_eq_ok hread
  exact ⟨a, left, ha, (Reader.pure_eq_ok hread).1.symm⟩

section Normalization

variable {forth : α → β} {back : β → α} {P : α → Prop} {HoldsLast : β → α → Prop}
  {Ascending : α → Prop} {Storable : β → Prop}

/-- A format normalizes if it goes through a strict one, and a listing that is read and written
again is the one in ascending order, in no more octets than it was read from. -/
theorem Strict.normalizes (hf : f.Strict P) (hrestores : ∀ a, P a → f.Restores a)
    (hnormal : ∀ a, P a → P (back (forth a)))
    (hlength : ∀ a, (f.write (back (forth a))).length ≤ (f.write a).length)
    (hascending : ∀ a, back (forth a) = a ↔ Ascending a) (hholds : ∀ a, HoldsLast (forth a) a)
    (hforth : ∀ b, forth (back b) = b) (hstorable : ∀ b, Storable b ↔ P (back b)) :
    (f.convert forth back).Normalizes f HoldsLast Ascending Storable where
  decoded {bytes b} h := by
    obtain ⟨a, rest, ha, rfl⟩ := read_of_decode_convert h
    obtain ⟨hbytes, hP⟩ := hf.read_eq_ok ha
    have hdecode : f.decode bytes = .ok a := decode_eq_ok_iff.mpr ⟨rest, ha⟩
    have hle : (f.write a).length ≤ bytes.length := by
      rw [hbytes, List.length_append]
      omega
    refine ⟨a, hdecode, ⟨rest, hbytes.symm⟩, hholds a, Nat.le_trans (hlength a) hle, ?_⟩
    exact (write_prefix_iff ha hbytes (hrestores _ (hnormal a hP))).trans (hascending a)
  storable h := by
    obtain ⟨a, rest, ha, rfl⟩ := read_of_decode_convert h
    exact (hstorable _).mpr (hnormal a (hf.read_eq_ok ha).2)
  encode_eq_iff {b c} hb hc := by
    have hread (d : β) (hd : Storable d) : (f.convert forth back).Restores d :=
      (hrestores _ ((hstorable d).mp hd)).convert (hforth d)
    exact ⟨fun h => (hread b hb).eq_of_encode_isPrefix (hread c hc) (h ▸ List.prefix_refl _),
      congrArg _⟩

end Normalization

end Binary.Format

/-! ### The order of names and keys -/

open Binary

/-- A text comes before another if its octets do. -/
def Text.Precedes (s t : String) : Prop := Utf8.encode s < Utf8.encode t

instance : DecidableRel Text.Precedes := fun _ _ => inferInstanceAs (Decidable (_ < _))

/-- No object comes before any, and the others in the order of their octets. -/
def Scope.ObjectPrecedes : Option String → Option String → Prop
  | none, none | some _, none => False
  | none, some _ => True
  | some s, some t => Text.Precedes s t

instance : DecidableRel Scope.ObjectPrecedes
  | none, none | some _, none => inferInstanceAs (Decidable False)
  | none, some _ => inferInstanceAs (Decidable True)
  | some _, some _ => inferInstanceAs (Decidable (Text.Precedes _ _))

namespace Privilege.Key

/-- Keys come in the order of their permissions, then of their levels, then of their objects. -/
def Precedes (k l : Privilege.Key) : Prop :=
  k.permission.rank < l.permission.rank ∨ k.permission = l.permission ∧
    (k.scope.level.rank < l.scope.level.rank ∨ k.scope.level = l.scope.level ∧
      Scope.ObjectPrecedes k.scope.object l.scope.object)

instance : DecidableRel Precedes := fun _ _ => inferInstanceAs (Decidable (_ ∨ _))

theorem compare_object_eq_lt_iff {o u : Option String} :
    compare o u = .lt ↔ Scope.ObjectPrecedes o u := by
  cases o with
  | none => cases u <;> simp [Scope.ObjectPrecedes, compare]
  | some s =>
    cases u with
    | none => simp [Scope.ObjectPrecedes, compare]
    | some t => exact Utf8.compare_eq_lt_iff

/-- Keys are kept in the order in which they come. -/
theorem compare_eq_lt_iff {k l : Privilege.Key} : compare k l = .lt ↔ k.Precedes l := by
  have hcompare : compare k l =
      (compare k.permission.rank l.permission.rank).then
        ((compare k.scope.level.rank l.scope.level.rank).then
          (compare k.scope.object l.scope.object)) := rfl
  have hpermission : compare k.permission.rank l.permission.rank = .eq ↔
      k.permission = l.permission :=
    Nat.compare_eq_eq.trans ⟨Permission.rank_injective, congrArg _⟩
  have hlevel : compare k.scope.level.rank l.scope.level.rank = .eq ↔
      k.scope.level = l.scope.level :=
    Nat.compare_eq_eq.trans ⟨Level.rank_injective, congrArg _⟩
  rw [hcompare, Ordering.then_eq_lt, Ordering.then_eq_lt, Nat.compare_eq_lt, Nat.compare_eq_lt,
    hpermission, hlevel, compare_object_eq_lt_iff, Precedes]

end Privilege.Key

/-! ### The section of users -/

namespace UserSection

/-- The names that the octets of a section list. -/
def listing : Format (List String) := .list .text

/-- The names are listed in strictly ascending order. -/
def Ascending (names : List String) : Prop := names.Pairwise Text.Precedes

instance : DecidablePred Ascending := fun _ => inferInstanceAs (Decidable (List.Pairwise _ _))

/-- The section has the names that are listed. -/
def HoldsLast (s : UserSection) (names : List String) : Prop :=
  ∀ name, s.contains name = true ↔ name ∈ names

theorem format_eq : UserSection.format = listing.convert ofList names := Format.convert_convert ..

open List in
theorem names_ofList_subperm (names : List String) : (ofList names).names <+~ names := by
  have h := SortedMap.map_entries_ofList_subperm (·.1) (names.map (·, ()))
  have hid : ((·.1) ∘ (·, ()) : String → String) = id := rfl
  rwa [List.map_map, hid, List.map_id] at h

/-- The names of a section are in ascending order. -/
theorem ascending_names (s : UserSection) : Ascending s.names :=
  List.pairwise_map.mpr (s.members.ordered.imp Utf8.compare_eq_lt_iff.mp)

theorem names_ofList_iff {names : List String} :
    (ofList names).names = names ↔ Ascending names := by
  refine ⟨fun h => h ▸ ascending_names _, fun h => ?_⟩
  have hordered : (names.map (·, ())).Pairwise fun a b => compare a.1 b.1 = .lt :=
    List.pairwise_map.mpr (h.imp Utf8.compare_eq_lt_iff.mpr)
  show (SortedMap.ofList (names.map (·, ()))).entries.map (·.1) = names
  rw [SortedMap.entries_ofList hordered, List.map_map]
  exact List.map_id names

theorem holdsLast_ofList (names : List String) : (ofList names).HoldsLast names := by
  intro name
  show ((SortedMap.ofList (names.map (·, ()))).get? name).isSome = true ↔ _
  rw [SortedMap.get?_ofList, ← SortedMap.mem_map_fst_iff]
  simp

theorem strict_listing :
    listing.Strict fun names => IsLength names.length ∧ ∀ name ∈ names, Text.Storable name :=
  Format.strict_text.list

/-- A section of users is read from any listing of its names. -/
theorem normalizes_format : UserSection.format.Normalizes listing HoldsLast Ascending Storable := by
  rw [format_eq]
  refine strict_listing.normalizes (fun names h => ?_) (fun names h => ?_) (fun names => ?_)
    (fun names => names_ofList_iff) holdsLast_ofList (fun s => ?_) fun s => ?_
  · exact Format.restores_list h.1 fun name hname => Format.restores_text (h.2 name hname)
  · have hsub := names_ofList_subperm names
    exact ⟨Nat.lt_of_le_of_lt hsub.length_le h.1, fun name hname => h.2 name (hsub.subset hname)⟩
  · exact Format.length_write_list_le_of_subperm (names_ofList_subperm names)
  · exact congrArg mk (SortedSet.ofKeys_keys s.members)
  · rw [Storable, size, ← SortedMap.length_keys]
    rfl

end UserSection

/-! ### The section of privileges -/

namespace PrivilegeSection

/-- Names, each with keys and their records. -/
abbrev Items := List (String × List (Privilege.Key × Privilege))

variable {items : Items}

/-- The names that the octets of a section list, each with the keys and records under it. -/
def listing : Format Items :=
  .list (.pair .text (.list (.pair Privilege.Key.format Privilege.format)))

/-- The names are listed in strictly ascending order, and so are the keys under each of them. -/
structure Ascending (items : Items) : Prop where
  names : (items.map (·.1)).Pairwise Text.Precedes
  keys : ∀ item ∈ items, (item.2.map (·.1)).Pairwise Privilege.Key.Precedes

/-- The section has the names that are listed, each with the records that are listed under it where
it occurs last, and has at each key the record that occurs last there. -/
def HoldsLast (s : PrivilegeSection) (items : Items) : Prop :=
  ∀ name key, (s.get? name).map (·.get? key) =
    (items.reverse.lookup name).map (·.reverse.lookup key)

/-- The section that is read from a listing. -/
def ofListing (items : Items) : PrivilegeSection :=
  .ofList (items.map fun item => (item.1, ⟨.ofList item.2⟩))

/-- The listing as which a section is written. -/
def toListing (s : PrivilegeSection) : Items :=
  s.entries.map fun e => (e.1, e.2.byKey.entries)

theorem format_eq : PrivilegeSection.format = listing.convert ofListing toListing := by
  have hset : PrivilegeSet.format =
      (Format.list (.pair Privilege.Key.format Privilege.format)).convert (⟨.ofList ·⟩)
        (·.byKey.entries) := Format.convert_convert ..
  rw [PrivilegeSection.format, Format.map, hset, Format.pair_convert, Format.list_convert,
    Format.convert_convert, Format.convert_convert]
  rfl

open List in
theorem toListing_ofListing_subperm (items : Items) :
    (ofListing items).toListing <+~
      items.map fun item => (item.1, (SortedMap.ofList item.2).entries) := by
  have h := SortedMap.map_entries_ofList_subperm (fun e => (e.1, e.2.byKey.entries))
    (items.map fun item => (item.1, (⟨.ofList item.2⟩ : PrivilegeSet)))
  rwa [List.map_map] at h

/-- A section is written in ascending order. -/
theorem ascending_toListing (s : PrivilegeSection) : Ascending s.toListing where
  names := by
    rw [toListing, List.map_map]
    exact List.pairwise_map.mpr (s.byUser.ordered.imp Utf8.compare_eq_lt_iff.mp)
  keys item hitem := by
    obtain ⟨e, -, rfl⟩ := List.mem_map.mp hitem
    exact List.pairwise_map.mpr (e.2.byKey.ordered.imp Privilege.Key.compare_eq_lt_iff.mp)

theorem toListing_ofListing_iff : (ofListing items).toListing = items ↔ Ascending items := by
  refine ⟨fun h => h ▸ ascending_toListing _, fun h => ?_⟩
  have hnames : (items.map fun item => (item.1, (⟨.ofList item.2⟩ : PrivilegeSet))).Pairwise
      fun a b => compare a.1 b.1 = .lt :=
    List.pairwise_map.mpr ((List.pairwise_map.mp h.names).imp Utf8.compare_eq_lt_iff.mpr)
  have hkeys : ∀ item ∈ items, (SortedMap.ofList item.2).entries = item.2 := fun item hitem =>
    SortedMap.entries_ofList
      ((List.pairwise_map.mp (h.keys item hitem)).imp Privilege.Key.compare_eq_lt_iff.mpr)
  show (SortedMap.ofList _).entries.map _ = items
  rw [SortedMap.entries_ofList hnames, List.map_map]
  refine (List.map_congr_left fun item hitem => ?_).trans (List.map_id items)
  exact Prod.ext rfl (hkeys item hitem)

theorem holdsLast_ofListing (items : Items) : (ofListing items).HoldsLast items := by
  intro name key
  have hname : (ofListing items).get? name =
      (items.reverse.lookup name).map fun records => ⟨.ofList records⟩ := by
    show (SortedMap.ofList _).get? name = _
    rw [SortedMap.get?_ofList, ← List.map_reverse]
    exact SortedMap.lookup_map_entry
      (fun _ records => (⟨.ofList records⟩ : PrivilegeSet)) name items.reverse
  rw [hname, Option.map_map]
  exact congrArg (Option.map · _) (funext fun records => SortedMap.get?_ofList records key)

/-- Every length in a listing can be written. -/
def StorableListing (items : Items) : Prop :=
  IsLength items.length ∧ ∀ item ∈ items, Text.Storable item.1 ∧
    IsLength item.2.length ∧ ∀ e ∈ item.2, e.1.Storable ∧ e.2.Storable

theorem strict_listing : listing.Strict StorableListing :=
  (Format.strict_text.pair (Privilege.Key.strict_format.pair Privilege.strict_format).list).list

theorem StorableListing.restores (h : StorableListing items) : listing.Restores items :=
  Format.restores_list h.1 fun item hitem =>
    have ⟨hname, hlength, hentries⟩ := h.2 item hitem
    (Format.restores_text hname).pair (Format.restores_list hlength fun e he =>
      (hentries e he).1.restores.pair (hentries e he).2.restores)

/-- What is left of a listing has no greater lengths. -/
theorem StorableListing.toListing_ofListing (h : StorableListing items) :
    StorableListing (ofListing items).toListing := by
  have hsub := toListing_ofListing_subperm items
  have hlength : (ofListing items).toListing.length ≤ items.length := by
    simpa using hsub.length_le
  refine ⟨Nat.lt_of_le_of_lt hlength h.1, fun left hleft => ?_⟩
  obtain ⟨item, hitem, rfl⟩ := List.mem_map.mp (hsub.subset hleft)
  obtain ⟨hname, hlength, hentries⟩ := h.2 item hitem
  have hrecords := SortedMap.entries_ofList_subperm item.2
  exact ⟨hname, Nat.lt_of_le_of_lt hrecords.length_le hlength,
    fun e he => hentries e (hrecords.subset he)⟩

theorem ofListing_toListing (s : PrivilegeSection) : ofListing s.toListing = s := by
  have hentry : (s.toListing.map fun item => (item.1, (⟨.ofList item.2⟩ : PrivilegeSet))) =
      s.entries := by
    rw [toListing, List.map_map]
    refine (List.map_congr_left fun e _ => ?_).trans (List.map_id _)
    exact Prod.ext rfl (congrArg PrivilegeSet.mk (SortedMap.ofList_entries _))
  rw [ofListing, hentry]
  exact congrArg mk (SortedMap.ofList_entries s.byUser)

theorem storable_iff {s : PrivilegeSection} : s.Storable ↔ StorableListing s.toListing := by
  unfold Storable StorableListing toListing
  rw [List.length_map, List.forall_mem_map]
  rfl

theorem length_write_toListing_le (items : Items) :
    (listing.write (ofListing items).toListing).length ≤ (listing.write items).length := by
  refine Nat.le_trans
    (Format.length_write_list_le_of_subperm (toListing_ofListing_subperm items))
    (Format.length_write_list_map_le fun item => ?_)
  have hrecords := Format.length_write_list_le_of_subperm
    (f := .pair Privilege.Key.format Privilege.format) (SortedMap.entries_ofList_subperm item.2)
  show (Format.text.write item.1 ++ _).length ≤ (Format.text.write item.1 ++ _).length
  rw [List.length_append, List.length_append]
  exact Nat.add_le_add_left hrecords _

/-- A section of privileges is read from any listing of its names, keys and records. -/
theorem normalizes_format :
    PrivilegeSection.format.Normalizes listing HoldsLast Ascending Storable := by
  rw [format_eq]
  exact strict_listing.normalizes (fun _ h => h.restores) (fun _ h => h.toListing_ofListing)
    length_write_toListing_le (fun _ => toListing_ofListing_iff) holdsLast_ofListing
    ofListing_toListing fun _ => storable_iff

end PrivilegeSection

/-- **Only what is written is read, up to order.** Octets that are decoded as a write request begin
with its encoding. Octets that are decoded as a section begin with a listing of its names, and of
the keys and records under each. The section holds what is listed last for each name and key, and is
encoded in no more octets. The octets begin with its encoding exactly if all of them are listed in
strictly ascending order: names by their octets, keys by permission, level and object. So sections
are the same exactly if their encodings are. -/
theorem Binary.Format.decode_reproduces :
    (∀ (bytes : List UInt8) (r : WriteRequest), WriteRequest.format.decode bytes = .ok r →
      WriteRequest.format.encode r <+: bytes) ∧
    UserSection.format.Normalizes UserSection.listing UserSection.HoldsLast
      UserSection.Ascending UserSection.Storable ∧
    PrivilegeSection.format.Normalizes PrivilegeSection.listing PrivilegeSection.HoldsLast
      PrivilegeSection.Ascending PrivilegeSection.Storable := by
  refine ⟨fun bytes r h => ?_, UserSection.normalizes_format, PrivilegeSection.normalizes_format⟩
  obtain ⟨rest, hread⟩ := decode_eq_ok_iff.mp h
  exact ⟨rest, (WriteRequest.strict_format.read_eq_ok hread).1.symm⟩

/-- A name that is listed twice is kept once, and goes where it belongs; of two records at one key
the last one is kept. The octets of neither section are those that are written for it, and those
of the request are. -/
theorem Binary.Format.decode_reproduces_repeated_names :
    let names := ["zaphod", "arthur", "zaphod"]
    let key : Privilege.Key := ⟨.dql, .table "doc.t"⟩
    let granted : Privilege := ⟨.grant, key, "crate"⟩
    let denied : Privilege := ⟨.deny, key, "crate"⟩
    let items : PrivilegeSection.Items := [("ford", [(key, granted), (key, denied)]), ("arthur", [])]
    let s : PrivilegeSection := .ofList [("arthur", .empty), ("ford", ⟨.ofList [(key, denied)]⟩)]
    let userBytes := UserSection.listing.encode names ++ [1, 0]
    let privilegeBytes := PrivilegeSection.listing.encode items ++ [255]
    let requestBytes : List UInt8 := [0, 0, 0, 0, 4, 0, 0, 0, 0, 0, 0, 0, 102, 111, 114, 100, 9]
    UserSection.format.decode userBytes = .ok (.ofList ["arthur", "zaphod"]) ∧
      ¬ UserSection.format.encode (.ofList ["arthur", "zaphod"]) <+: userBytes ∧
      PrivilegeSection.format.decode privilegeBytes = .ok s ∧
      (s.get? "ford").map (·.get? key) = some (some denied) ∧
      ¬ PrivilegeSection.format.encode s <+: privilegeBytes ∧
      WriteRequest.format.decode requestBytes = .ok (.createUser "ford") ∧
      WriteRequest.format.encode (.createUser "ford") <+: requestBytes := by
  intro names key granted denied items s userBytes privilegeBytes requestBytes
  obtain ⟨hrequests, husers, hprivileges⟩ := decode_reproduces
  have hu : UserSection.format.decode userBytes = .ok (.ofList ["arthur", "zaphod"]) := by
    decide +kernel
  have hp : PrivilegeSection.format.decode privilegeBytes = .ok s := by decide +kernel
  have hr : WriteRequest.format.decode requestBytes = .ok (.createUser "ford") := by decide +kernel
  obtain ⟨listed, hnames, -, -, -, hnormal⟩ := husers.decoded hu
  obtain ⟨listed', hitems, -, hlast, -, hnormal'⟩ := hprivileges.decoded hp
  have hnames' : UserSection.listing.decode userBytes = .ok names := by decide +kernel
  have hitems' : PrivilegeSection.listing.decode privilegeBytes = .ok items := by decide +kernel
  obtain rfl : names = listed := Except.ok.inj (hnames'.symm.trans hnames)
  obtain rfl : items = listed' := Except.ok.inj (hitems'.symm.trans hitems)
  have hunordered : ¬ UserSection.Ascending names := by decide +kernel
  have hunordered' : ¬ PrivilegeSection.Ascending items := fun h =>
    absurd h.names (by decide +kernel)
  exact ⟨hu, mt hnormal.mp hunordered, hp, hlast "ford" key, mt hnormal'.mp hunordered', hr,
    hrequests requestBytes _ hr⟩

end AccessControl
