import AccessControl.Proofs.Encoding

/-!
# Octets that are cut off, and octets that follow

A reader goes through its octets from the front, so that what it has found does not depend on what
comes later. If octets are added behind, the only answer that can change is that there were too
few: this makes a reader steady, and readers that are composed of steady ones are steady.

So an encoding that is cut off is never read as another value. Otherwise the same value would be
read from the whole encoding, with octets left over, and the whole encoding leaves none.

## Main definitions

* `Binary.Error.IsShortage` — there are too few octets
* `Binary.Reader.Steady` — octets that are added change no answer but that there are too few
* `Binary.Format.RefusesPartsOf` — the encoding of a value is refused if it is cut off, anywhere
* `Binary.Format.IsSelfDelimiting` — it shows in the octets of a value where they end

## Main results

* `Binary.Reader.Steady.bind`, `Binary.Reader.steady_many`, … — composed readers are steady
* `Binary.Format.Restores.refusesPartsOf` — a steady format that restores a value refuses the parts
  of its encoding
* `Binary.Format.decode_detects_truncation` — the formats of sections and requests delimit themselves
-/

namespace AccessControl

namespace Binary

/-- There are too few octets. -/
def Error.IsShortage : Error → Prop
  | .endOfInput | .textTooLong => True
  | .unknownCase .. | .unknownOptionTag _ | .unknownBool _ | .illFormedText _ => False

namespace Reader

variable {α β : Type} {r : Reader α} {f : α → Reader β}

theorem bind_of_error {bytes : List UInt8} {e : Error} (h : r bytes = .error e) :
    (r >>= f) bytes = .error e := by
  show (r bytes).bind (fun p => f p.1 p.2) = .error e
  rw [h]
  rfl

/-- Octets that are added behind change no answer, unless there were too few. -/
structure Steady (r : Reader α) : Prop where
  /-- What was read is read again, and what is added follows what was left. -/
  of_ok {bytes rest : List UInt8} {a : α} (h : r bytes = .ok (a, rest)) (tail : List UInt8) :
    r (bytes ++ tail) = .ok (a, rest ++ tail)
  /-- What was found wrong is found wrong again. -/
  of_error {bytes : List UInt8} {e : Error} (h : r bytes = .error e) (he : ¬ e.IsShortage)
    (tail : List UInt8) : r (bytes ++ tail) = .error e

theorem steady_pure (a : α) : (pure a : Reader α).Steady where
  of_ok h _ := by cases h; rfl
  of_error h := by cases h

theorem steady_throw (e : Error) : (throw e : Reader α).Steady where
  of_ok h := by cases h
  of_error h _ _ := by cases h; rfl

theorem Steady.bind (hr : r.Steady) (hf : ∀ a, (f a).Steady) : (r >>= f).Steady where
  of_ok {bytes rest b} h tail := by
    obtain ⟨a, left, hread, hnext⟩ := bind_eq_ok h
    rw [bind_of_ok (hr.of_ok hread tail)]
    exact (hf a).of_ok hnext tail
  of_error {bytes e} h he tail := by
    cases hread : r bytes with
    | error e' =>
      obtain rfl : e' = e := Except.error.inj ((bind_of_error hread).symm.trans h)
      exact bind_of_error (hr.of_error hread he tail)
    | ok p =>
      obtain ⟨a, left⟩ := p
      rw [bind_of_ok hread] at h
      rw [bind_of_ok (hr.of_ok hread tail)]
      exact (hf a).of_error h he tail

theorem steady_byte : byte.Steady where
  of_ok {bytes _ _} h _ := by
    cases bytes with
    | nil => cases h
    | cons b bytes => cases h; rfl
  of_error {bytes _} h he _ := by
    cases bytes with
    | nil => cases h; exact absurd trivial he
    | cons b bytes => cases h

theorem steady_word (width : Nat) : (word width).Steady := by
  induction width with
  | zero => exact steady_pure 0
  | succ width ih => exact steady_byte.bind fun low => ih.bind fun high => steady_pure _

theorem steady_textBytes (n : Nat) : (textBytes n).Steady where
  of_ok {bytes _ _} h tail := by
    unfold textBytes at h ⊢
    split at h
    · cases h
    · next hlength =>
      cases h
      have hle : n ≤ bytes.length := Nat.le_of_not_lt hlength
      rw [if_neg (by rw [List.length_append]; omega), List.take_append_of_le_length hle,
        List.drop_append_of_le_length hle]
  of_error {bytes _} h he _ := by
    unfold textBytes at h
    split at h
    · cases h
      exact absurd trivial he
    · cases h

theorem steady_many (hr : r.Steady) (n : Nat) : (many r n).Steady := by
  induction n with
  | zero => exact steady_pure []
  | succ n ih => exact hr.bind fun x => ih.bind fun xs => steady_pure _

end Reader

namespace Format

open Reader

variable {α β : Type} {f : Format α} {g : Format β}

/-! ### The ways to build a format -/

theorem steady_text : text.read.Steady :=
  (steady_word _).bind fun n => (steady_textBytes n).bind fun bytes => by
    cases Utf8.decode bytes with
    | ok s => exact steady_pure s
    | error cause => exact steady_throw _

theorem steady_bool : bool.read.Steady :=
  steady_byte.bind fun tag => by
    by_cases hzero : tag = 0
    · simpa only [if_pos hzero] using steady_pure _
    · by_cases hone : tag = 1
      · simpa only [if_neg hzero, if_pos hone] using steady_pure _
      · simpa only [if_neg hzero, if_neg hone] using steady_throw _

theorem steady_option (hf : f.read.Steady) : (option f).read.Steady :=
  steady_byte.bind fun tag => by
    by_cases hzero : tag = 0
    · simpa only [if_pos hzero] using steady_pure _
    · by_cases hone : tag = 1
      · simpa only [if_neg hzero, if_pos hone] using hf.bind fun a => steady_pure _
      · simpa only [if_neg hzero, if_neg hone] using steady_throw _

theorem steady_pair (hf : f.read.Steady) (hg : g.read.Steady) : (pair f g).read.Steady :=
  hf.bind fun _ => hg.bind fun _ => steady_pure _

theorem steady_list (hf : f.read.Steady) : (list f).read.Steady :=
  (steady_word _).bind fun n => steady_many hf n

theorem steady_convert (hf : f.read.Steady) (forth : α → β) (back : β → α) :
    (f.convert forth back).read.Steady :=
  hf.bind fun _ => steady_pure _

theorem steady_cases [DecidableEq α] (all : List α) : (cases all).read.Steady :=
  (steady_word _).bind fun n => by
    cases all[n]? with
    | some a => exact steady_pure a
    | none => exact steady_throw _

section Maps

variable [Ord α] [Std.TransOrd α] [Std.LawfulEqOrd α]

theorem steady_map (hf : f.read.Steady) (hg : g.read.Steady) : (map f g).read.Steady :=
  steady_convert (steady_list (steady_pair hf hg)) _ _

theorem steady_set (hf : f.read.Steady) : (set f).read.Steady :=
  steady_convert (steady_list hf) _ _

end Maps

/-! ### Encodings that are cut off -/

/-- The encoding of a value is refused if it is cut off, anywhere, since there are too few octets
then. -/
def RefusesPartsOf (f : Format α) (a : α) : Prop :=
  ∀ part, part <+: f.encode a → part ≠ f.encode a →
    ∃ e : Error, e.IsShortage ∧
      (f.decode part).mapError AccessError.ofBinary = .error (.encoding e.message)

/-- What is decoded is decoded whatever follows. -/
theorem decode_append (hf : f.read.Steady) {bytes : List UInt8} {a : α}
    (h : f.decode bytes = .ok a) (tail : List UInt8) : f.decode (bytes ++ tail) = .ok a := by
  obtain ⟨rest, hread⟩ := decode_eq_ok_iff.mp h
  exact decode_eq_ok_iff.mpr ⟨rest ++ tail, hf.of_ok hread tail⟩

/-- A part of an encoding is not read as another value, for then something would be left over of
the whole encoding. -/
theorem Restores.refusesPartsOf {a : α} (hrestores : f.Restores a) (hf : f.read.Steady) :
    f.RefusesPartsOf a := by
  rintro part ⟨tail, hwhole⟩ hne
  have htail : tail ≠ [] := fun hnil => hne (by rw [← hwhole, hnil, List.append_nil])
  have hread : f.read (part ++ tail) = .ok (a, []) := by
    have h := hrestores []
    rwa [List.append_nil, show f.write a = part ++ tail from hwhole.symm] at h
  cases hpart : f.read part with
  | ok p =>
    have hsame := (hf.of_ok hpart tail).symm.trans hread
    have hrest : p.2 ++ tail = [] := congrArg Prod.snd (Except.ok.inj hsame)
    exact absurd (List.append_eq_nil_iff.mp hrest).2 htail
  | error e =>
    refine ⟨e, ?_, ?_⟩
    · refine Classical.byContradiction fun he => ?_
      cases (hf.of_error hpart he tail).symm.trans hread
    · show ((f.read part).map (·.1)).mapError AccessError.ofBinary = _
      rw [hpart]
      rfl

/-- The values of a format are told from their octets alone, without the octets being counted. -/
structure IsSelfDelimiting (f : Format α) (P : α → Prop) : Prop where
  /-- A part of an encoding is refused. -/
  refusesParts {a : α} (ha : P a) : f.RefusesPartsOf a
  /-- What is decoded is decoded whatever follows. -/
  decode_append {bytes : List UInt8} {a : α} (h : f.decode bytes = .ok a) (tail : List UInt8) :
    f.decode (bytes ++ tail) = .ok a
  /-- No encoding begins with the encoding of another value. -/
  prefixFree {a b : α} (ha : P a) (hb : P b) (h : f.encode a <+: f.encode b) : a = b

theorem isSelfDelimiting {P : α → Prop} (hf : f.read.Steady) (hP : ∀ a, P a → f.Restores a) :
    f.IsSelfDelimiting P where
  refusesParts ha := (hP _ ha).refusesPartsOf hf
  decode_append h tail := decode_append hf h tail
  prefixFree {a b} ha hb h := (hP a ha).eq_of_encode_isPrefix (hP b hb) h

end Format

end Binary

/-! ### The metadata -/

open Binary Binary.Format

theorem Privilege.Key.steady_format : Key.format.read.Steady :=
  steady_convert (steady_pair (steady_cases _)
    (steady_pair (steady_cases _) (steady_option steady_text))) _ _

theorem Privilege.steady_format : Privilege.format.read.Steady :=
  steady_convert (steady_pair (steady_cases _) (steady_pair Key.steady_format steady_text)) _ _

theorem PrivilegeSet.steady_format : PrivilegeSet.format.read.Steady :=
  steady_convert (steady_map Privilege.Key.steady_format Privilege.steady_format) _ _

theorem UserSection.steady_format : UserSection.format.read.Steady :=
  steady_convert (steady_set steady_text) _ _

theorem PrivilegeSection.steady_format : PrivilegeSection.format.read.Steady :=
  steady_convert (steady_map steady_text PrivilegeSet.steady_format) _ _

theorem WriteRequest.steady_format : WriteRequest.format.read.Steady :=
  (Reader.steady_word _).bind fun number =>
    match number with
    | 0 => steady_text.bind fun _ => Reader.steady_pure _
    | 1 => (steady_pair steady_text steady_bool).bind fun _ => Reader.steady_pure _
    | 2 => (steady_pair (steady_list steady_text) (steady_list Privilege.steady_format)).bind
        fun _ => Reader.steady_pure _
    | _ + 3 => Reader.steady_throw _

/-- **Truncation is always detected.** The encoding of a section of users, of a section of privileges
and of a write request is refused if it is cut off, wherever that is, as octets that are too few. All
octets that are decoded at all are decoded to the same value whatever follows them. So no encoding is
the beginning of another one. -/
theorem Binary.Format.decode_detects_truncation :
    UserSection.format.IsSelfDelimiting UserSection.Storable ∧
    PrivilegeSection.format.IsSelfDelimiting PrivilegeSection.Storable ∧
    WriteRequest.format.IsSelfDelimiting WriteRequest.Storable :=
  ⟨isSelfDelimiting UserSection.steady_format fun _ h => h.restores,
    isSelfDelimiting PrivilegeSection.steady_format fun _ h => h.restores,
    isSelfDelimiting WriteRequest.steady_format fun _ h => h.restores⟩

/-- The section of one user with one record is refused if it is cut off between the key and the
record, and read if others follow the octets that were missing. -/
theorem Binary.Format.decode_detects_truncation_between_key_and_record :
    let key : Privilege.Key := ⟨.dql, .table "doc.t"⟩
    let s : PrivilegeSection := .ofList [("ford", .ofList [⟨.grant, key, "crate"⟩])]
    let part := (PrivilegeSection.format.encode s).take 50
    s.Storable ∧ part <+: PrivilegeSection.format.encode s ∧
      (∃ e : Error, e.IsShortage ∧ (PrivilegeSection.format.decode part).mapError
        AccessError.ofBinary = .error (.encoding e.message)) ∧
      PrivilegeSection.format.decode (PrivilegeSection.format.encode s ++ [255, 0]) = .ok s := by
  intro key s part
  have hstorable : s.Storable := by decide +kernel
  have hpart : part <+: PrivilegeSection.format.encode s := List.take_prefix _ _
  have hne : part ≠ PrivilegeSection.format.encode s := by decide +kernel
  have hdecode := hstorable.restores.decode_encode []
  rw [List.append_nil] at hdecode
  obtain ⟨-, hprivileges, -⟩ := decode_detects_truncation
  exact ⟨hstorable, hpart, hprivileges.refusesParts hstorable part hpart hne,
    hprivileges.decode_append hdecode _⟩

end AccessControl
