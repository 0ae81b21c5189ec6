import AccessControl.Metadata.Encoding
import AccessControl.Proofs.Utf8

/-!
# What is written is read back

A format restores a value if the octets that it writes are read as that value, whatever follows
them. Each way to build a format keeps this, part by part: the parts are read one after the other,
and each leaves exactly what was written behind it. So the sections of the metadata and the write
requests are restored, however they came about.

Lengths are written in eight octets, so nothing in a value may be longer than these can tell. There
is no such value in a memory whose addresses have eight octets.

## Main definitions

* `Binary.Format.Restores` — what a format writes for a value is read as that value
* `Binary.IsLength` — a number that can be written as a length
* `UserSection.Storable`, `PrivilegeSection.Storable`, `WriteRequest.Storable` — every length in a
  value can be written

## Main results

* `Binary.Format.restores_text`, `Binary.Format.restores_list`, `Binary.Format.restores_map`, … —
  the ways to build a format keep what it restores
* `Binary.Format.decode_encode_append` — sections and requests are read back, with anything behind them
-/

namespace AccessControl

namespace Binary

/-- A number that can be written as a length. -/
def IsLength (n : Nat) : Prop := n < capacity Format.lengthWidth

instance : DecidablePred IsLength := fun _ => inferInstanceAs (Decidable (_ < _))

/-- What follows a value that was read goes on from what is left. -/
theorem Reader.bind_of_ok {α β : Type} {r : Reader α} {f : α → Reader β} {bytes rest : List UInt8}
    {a : α} (h : r bytes = .ok (a, rest)) : (r >>= f) bytes = f a rest := by
  show (r bytes).bind (fun p => f p.1 p.2) = f a rest
  rw [h]
  rfl

/-- What was read by one reader and then another one was found by both. -/
theorem Reader.bind_eq_ok {α β : Type} {r : Reader α} {f : α → Reader β} {bytes rest : List UInt8}
    {b : β} (h : (r >>= f) bytes = .ok (b, rest)) :
    ∃ a left, r bytes = .ok (a, left) ∧ f a left = .ok (b, rest) := by
  have h : (r bytes).bind (fun p => f p.1 p.2) = .ok (b, rest) := h
  cases hfirst : r bytes with
  | error e => rw [hfirst] at h; cases h
  | ok p =>
    rw [hfirst] at h
    exact ⟨p.1, p.2, rfl, h⟩

namespace Format

variable {α β : Type} {f : Format α} {g : Format β}

/-- What a format writes for a value is read as that value, whatever follows it. -/
def Restores (f : Format α) (a : α) : Prop := ∀ tail, f.read (f.write a ++ tail) = .ok (a, tail)

/-- A value is decoded that is read with anything left over. -/
theorem decode_eq_ok_iff {bytes : List UInt8} {a : α} :
    f.decode bytes = .ok a ↔ ∃ rest, f.read bytes = .ok (a, rest) := by
  have hdecode : f.decode bytes = (f.read bytes).map (·.1) := rfl
  rw [hdecode]
  cases f.read bytes with
  | error e => exact ⟨nofun, nofun⟩
  | ok p =>
    constructor
    · intro h
      obtain rfl : p.1 = a := Except.ok.inj h
      exact ⟨p.2, rfl⟩
    · rintro ⟨rest, h⟩
      obtain rfl : p = (a, rest) := Except.ok.inj h
      rfl

theorem Restores.decode_encode {a : α} (h : f.Restores a) (tail : List UInt8) :
    f.decode (f.encode a ++ tail) = .ok a :=
  decode_eq_ok_iff.mpr ⟨tail, h tail⟩

/-- No encoding is the beginning of that of another value. -/
theorem Restores.eq_of_encode_isPrefix {a b : α} (ha : f.Restores a) (hb : f.Restores b)
    (h : f.encode a <+: f.encode b) : a = b := by
  obtain ⟨tail, htail⟩ := h
  have hwhole := hb.decode_encode []
  rw [List.append_nil, ← htail, ha.decode_encode tail] at hwhole
  exact Except.ok.inj hwhole

/-! ### The ways to build a format -/

theorem restores_bool (b : Bool) : bool.Restores b := by
  cases b <;> exact fun _ => rfl

theorem restores_text {s : String} (h : IsLength (Utf8.encode s).length) : text.Restores s := by
  intro tail
  show text.read (writeWord lengthWidth (Utf8.encode s).length ++ Utf8.encode s ++ tail) = _
  rw [List.append_assoc]
  refine (Reader.bind_of_ok (word_writeWord h _)).trans ?_
  have hbytes : textBytes (Utf8.encode s).length (Utf8.encode s ++ tail) =
      .ok (Utf8.encode s, tail) := by
    simp [textBytes]
  refine (Reader.bind_of_ok hbytes).trans ?_
  rw [Utf8.decode_encode]
  rfl

theorem Restores.pair {a : α} {b : β} (hf : f.Restores a) (hg : g.Restores b) :
    (pair f g).Restores (a, b) := by
  intro tail
  show (Format.pair f g).read (f.write a ++ g.write b ++ tail) = _
  rw [List.append_assoc]
  exact (Reader.bind_of_ok (hf _)).trans (Reader.bind_of_ok (hg _))

theorem Restores.option {o : Option α} (h : ∀ a ∈ o, f.Restores a) : (option f).Restores o := by
  intro tail
  cases o with
  | none => rfl
  | some a =>
    show (do return some (← f.read) : Reader (Option α)) (f.write a ++ tail) = _
    exact Reader.bind_of_ok (h a rfl tail)

/-- Items that are restored one by one are restored one after the other. -/
theorem many_flatMap_write {xs : List α} (h : ∀ x ∈ xs, f.Restores x) (tail : List UInt8) :
    many f.read xs.length (xs.flatMap f.write ++ tail) = .ok (xs, tail) := by
  induction xs with
  | nil => rfl
  | cons x xs ih =>
    have hfirst := h x List.mem_cons_self
    have hrest := ih fun y hy => h y (List.mem_cons_of_mem _ hy)
    rw [List.flatMap_cons, List.append_assoc]
    exact (Reader.bind_of_ok (hfirst _)).trans (Reader.bind_of_ok hrest)

theorem restores_list {xs : List α} (hlength : IsLength xs.length)
    (h : ∀ x ∈ xs, f.Restores x) : (list f).Restores xs := by
  intro tail
  show (list f).read (writeWord lengthWidth xs.length ++ xs.flatMap f.write ++ tail) = _
  rw [List.append_assoc]
  exact (Reader.bind_of_ok (word_writeWord hlength _)).trans (many_flatMap_write h tail)

theorem Restores.convert {forth : α → β} {back : β → α} {b : β} (h : f.Restores (back b))
    (hback : forth (back b) = b) : (f.convert forth back).Restores b := by
  intro tail
  refine (Reader.bind_of_ok (h tail)).trans ?_
  rw [hback]
  rfl

theorem restores_cases [DecidableEq α] {all : List α} {a : α} (hall : all.length ≤ capacity caseWidth)
    (h : a ∈ all) : (cases all).Restores a := by
  intro tail
  have hindex : all.idxOf a < all.length := List.idxOf_lt_length_of_mem h
  refine (Reader.bind_of_ok (word_writeWord (by omega) tail)).trans ?_
  rw [List.getElem?_eq_getElem hindex, List.getElem_idxOf]
  rfl

/-- A value is restored that is written as the number of its case and its fields, and is read by
going on from the number. -/
theorem restores_case {number : Nat} {a : α} (hnumber : number < capacity caseWidth)
    (ha : f.Restores a) (build : α → β) {next : Nat → Reader β}
    (hnext : next number = (do return build (← f.read))) (tail : List UInt8) :
    (do next (← word caseWidth) : Reader β) (writeWord caseWidth number ++ f.write a ++ tail) =
      .ok (build a, tail) := by
  rw [List.append_assoc]
  refine (Reader.bind_of_ok (word_writeWord hnumber _)).trans ?_
  rw [hnext]
  exact Reader.bind_of_ok (ha tail)

section Maps

variable [Ord α] [Std.TransOrd α] [Std.LawfulEqOrd α]

theorem restores_map {m : SortedMap α β} (hsize : IsLength m.size)
    (h : ∀ e ∈ m.entries, f.Restores e.1 ∧ g.Restores e.2) : (map f g).Restores m :=
  (restores_list hsize fun e he => (h e he).1.pair (h e he).2).convert m.ofList_entries

theorem restores_set {s : SortedSet α} (hsize : IsLength s.size)
    (h : ∀ k ∈ s.keys, f.Restores k) : (set f).Restores s := by
  have hkeys : s.keys.length = s.size := List.length_map ..
  exact (restores_list (hkeys ▸ hsize) h).convert s.ofKeys_keys

end Maps

end Format

end Binary

/-! ### The metadata -/

open Binary

/-- The length of a text in octets can be written. -/
def Text.Storable (s : String) : Prop := IsLength (Utf8.encode s).length

instance : DecidablePred Text.Storable := fun _ => inferInstanceAs (Decidable (IsLength _))

namespace Privilege

/-- Every length in a key can be written. -/
def Key.Storable (k : Privilege.Key) : Prop := ∀ object ∈ k.scope.object, Text.Storable object

/-- Every length in a record can be written. -/
def Storable (p : Privilege) : Prop := p.key.Storable ∧ Text.Storable p.grantor

instance : DecidablePred Key.Storable := fun k =>
  inferInstanceAs (Decidable (∀ object ∈ k.scope.object, _))

instance : DecidablePred Storable := fun _ => inferInstanceAs (Decidable (_ ∧ _))

theorem Key.Storable.restores {k : Privilege.Key} (h : k.Storable) : Key.format.Restores k := by
  have hpermission : (Format.cases Permission.all).Restores k.permission :=
    Format.restores_cases (by decide) (by cases k.permission <;> decide)
  have hlevel : (Format.cases Level.all).Restores k.scope.level :=
    Format.restores_cases (by decide) (by cases k.scope.level <;> decide)
  have hobject : (Format.option .text).Restores k.scope.object :=
    .option fun object hobject => Format.restores_text (h object hobject)
  refine Format.Restores.convert ?_ rfl
  exact hpermission.pair (hlevel.pair hobject)

theorem Storable.restores {p : Privilege} (h : p.Storable) : Privilege.format.Restores p := by
  have heffect : (Format.cases Effect.all).Restores p.effect :=
    Format.restores_cases (by decide) (by cases p.effect <;> decide)
  refine Format.Restores.convert ?_ rfl
  exact heffect.pair (h.1.restores.pair (Format.restores_text h.2))

end Privilege

/-- Every length in a set of privileges can be written. -/
def PrivilegeSet.Storable (s : PrivilegeSet) : Prop :=
  IsLength s.size ∧ ∀ e ∈ s.byKey.entries, e.1.Storable ∧ e.2.Storable

instance : DecidablePred PrivilegeSet.Storable := fun _ => inferInstanceAs (Decidable (_ ∧ _))

/-- A set is restored whatever is kept in it: a record under a foreign key, or one that revokes. -/
theorem PrivilegeSet.Storable.restores {s : PrivilegeSet} (h : s.Storable) :
    PrivilegeSet.format.Restores s :=
  (Format.restores_map h.1 fun e he => ⟨(h.2 e he).1.restores, (h.2 e he).2.restores⟩).convert rfl

/-- Every length in the section of users can be written. -/
def UserSection.Storable (s : UserSection) : Prop :=
  IsLength s.size ∧ ∀ name ∈ s.names, Text.Storable name

instance : DecidablePred UserSection.Storable := fun _ => inferInstanceAs (Decidable (_ ∧ _))

theorem UserSection.Storable.restores {s : UserSection} (h : s.Storable) :
    UserSection.format.Restores s :=
  (Format.restores_set h.1 fun name hname => Format.restores_text (h.2 name hname)).convert rfl

/-- Every length in the section of privileges can be written. -/
def PrivilegeSection.Storable (s : PrivilegeSection) : Prop :=
  IsLength s.byUser.size ∧ ∀ e ∈ s.byUser.entries, Text.Storable e.1 ∧ e.2.Storable

instance : DecidablePred PrivilegeSection.Storable := fun _ => inferInstanceAs (Decidable (_ ∧ _))

/-- A section is restored with the empty sets in it. -/
theorem PrivilegeSection.Storable.restores {s : PrivilegeSection} (h : s.Storable) :
    PrivilegeSection.format.Restores s :=
  (Format.restores_map h.1 fun e he =>
    ⟨Format.restores_text (h.2 e he).1, (h.2 e he).2.restores⟩).convert rfl

namespace WriteRequest

/-- Every length in a request can be written. -/
def Storable : WriteRequest → Prop
  | .createUser name | .dropUser name _ => Text.Storable name
  | .applyPrivileges users privileges =>
    (IsLength users.length ∧ ∀ name ∈ users, Text.Storable name) ∧
      IsLength privileges.length ∧ ∀ p ∈ privileges, p.Storable

instance : DecidablePred Storable
  | .createUser _ | .dropUser .. => inferInstanceAs (Decidable (IsLength _))
  | .applyPrivileges .. => inferInstanceAs (Decidable (_ ∧ _))

/-- Each kind of request has its own number and its own fields. -/
theorem Storable.restores {r : WriteRequest} (h : r.Storable) : WriteRequest.format.Restores r := by
  intro tail
  cases r with
  | createUser name =>
    exact Format.restores_case (by decide) (Format.restores_text h) createUser rfl tail
  | dropUser name ifExists =>
    have hfields : dropFormat.Restores (name, ifExists) :=
      (Format.restores_text h).pair (Format.restores_bool ifExists)
    exact Format.restores_case (by decide) hfields (fun p => dropUser p.1 p.2) rfl tail
  | applyPrivileges users privileges =>
    have husers : (Format.list .text).Restores users :=
      Format.restores_list h.1.1 fun name hname => Format.restores_text (h.1.2 name hname)
    have hprivileges : (Format.list Privilege.format).Restores privileges :=
      Format.restores_list h.2.1 fun p hp => (h.2.2 p hp).restores
    have hfields : applyFormat.Restores (users, privileges) := husers.pair hprivileges
    exact Format.restores_case (by decide) hfields (fun p => applyPrivileges p.1 p.2) rfl tail

end WriteRequest

/-- **What is written is read back.** The octets of a section of users, of a section of privileges
and of a write request are read as that section or request, whatever follows them. It may have any
names, and sections may hold empty sets, records under foreign keys and records that revoke; all that
is asked for is that every length fits in the eight octets that are there for it, as everything does
that fits in memory. -/
theorem Binary.Format.decode_encode_append (tail : List UInt8) :
    (∀ s : UserSection, s.Storable →
      UserSection.format.decode (UserSection.format.encode s ++ tail) = .ok s) ∧
    (∀ s : PrivilegeSection, s.Storable →
      PrivilegeSection.format.decode (PrivilegeSection.format.encode s ++ tail) = .ok s) ∧
    ∀ r : WriteRequest, r.Storable →
      WriteRequest.format.decode (WriteRequest.format.encode r ++ tail) = .ok r :=
  ⟨fun _ h => h.restores.decode_encode tail, fun _ h => h.restores.decode_encode tail,
    fun _ h => h.restores.decode_encode tail⟩

/-- Names in several alphabets, an empty set, a record that revokes and is kept under a foreign key,
and octets behind it all that look like the beginning of another value. -/
theorem Binary.Format.decode_encode_append_foreign_record :
    let users : UserSection := .ofList ["ford", "Слартибартфаст", "漢字", "🐬"]
    let record : Privilege := ⟨.revoke, ⟨.dcl, .table "doc.t"⟩, "crate"⟩
    let privileges : PrivilegeSection :=
      ⟨.ofList [("ford", .empty), ("🐬", ⟨.ofList [(⟨.dql, .cluster⟩, record)]⟩)]⟩
    let request : WriteRequest := .applyPrivileges users.names [record, record]
    let tail : List UInt8 := [1, 0, 0]
    users.Storable ∧ privileges.Storable ∧ request.Storable ∧
      UserSection.format.decode (UserSection.format.encode users ++ tail) = .ok users ∧
      PrivilegeSection.format.decode (PrivilegeSection.format.encode privileges ++ tail) =
        .ok privileges ∧
      WriteRequest.format.decode (WriteRequest.format.encode request ++ tail) = .ok request := by
  intro users record privileges request tail
  have husers : users.Storable := by decide +kernel
  have hprivileges : privileges.Storable := by decide +kernel
  have hrequest : request.Storable := by decide +kernel
  obtain ⟨hu, hp, hr⟩ := decode_encode_append tail
  exact ⟨husers, hprivileges, hrequest, hu users husers, hp privileges hprivileges,
    hr request hrequest⟩

end AccessControl
