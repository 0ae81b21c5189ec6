import AccessControl.Certificate.Basic
import AccessControl.Proofs.Der

/-!
# Certificates are read as they are written

A certificate is a sequence of parts in a fixed order, some of which may be left out. This file
writes certificates down, each part in the form of the standard, and shows that every certificate so
written is read, whatever its parts are and whatever octets come after it. What is kept of it is the
subject, as it was written: the issuer, which is a name like the subject, and everything else are
taken in their places and let go.

The attributes of a relative name are listed in the order in which they are written. The standard
asks for the order of their octets there, so this is one of the orders that are covered.

## Main definitions

* `Certificate.Name`, `Certificate.Algorithm`, `Certificate.Time`, `Certificate.BitString`,
  `Certificate.Extension` — the parts of a certificate
* `Certificate.Parts`, `Certificate.Parts.octets` — all of them, and the certificate as it is
  written

## Main results

* `Certificate.reads_name`, `Certificate.reads_algorithm`, `Certificate.reads_time`, … — the parts
  are read as they are written
* `Certificate.Parts.parse?_octets` — and so are certificates, of which the subject is kept
-/

namespace AccessControl

open Der

namespace Certificate

/-! ### Names -/

def Attribute.octets (a : Attribute) : List UInt8 :=
  (constructed 16 ((primitive 6 a.type).octets ++ a.value.octets)).octets

/-- A name: relative names, each of one or more attributes. -/
structure Name where
  relativeNames : List (List Attribute)
  nonempty : ∀ attributes ∈ relativeNames, attributes ≠ []
  tag_lt : ∀ attributes ∈ relativeNames, ∀ a ∈ attributes, a.value.identifier.tag < tagBound

def Name.octets (n : Name) : List UInt8 :=
  (constructed 16 (n.relativeNames.flatMap fun attributes =>
    (constructed 17 (attributes.flatMap Attribute.octets)).octets)).octets

theorem reads_attributePair {a : Attribute} (h : a.value.identifier.tag < tagBound) :
    Reads attributePair a.octets a := by
  refine ReadsToEnd.constructed (Reads.bindToEnd (reads_objectId a.type) ?_) (by decide)
  have hvalue : Reads (element >>= fun value => pure (⟨a.type, value⟩ : Attribute))
      a.value.octets a :=
    (reads_element h).bind_eq_pure rfl
  exact hvalue.toEnd

theorem reads_relativeName {attributes : List Attribute} (hnonempty : attributes ≠ [])
    (h : ∀ a ∈ attributes, a.value.identifier.tag < tagBound) :
    Reads relativeName (constructed 17 (attributes.flatMap Attribute.octets)).octets
      attributes := by
  have hread : ReadsToEnd (sequenceOf attributePair) (attributes.flatMap Attribute.octets)
      (attributes.map id) :=
    readsToEnd_sequenceOf rfl fun a ha => reads_attributePair (h a ha)
  rw [List.map_id] at hread
  refine ReadsToEnd.constructed (hread.bind ?_) (by decide)
  obtain ⟨a, others, rfl⟩ := List.exists_cons_of_ne_nil hnonempty
  exact (reads_pure _).toEnd

theorem reads_name (n : Name) : Reads name n.octets n.relativeNames := by
  have hread : ReadsToEnd (sequenceOf relativeName) (n.relativeNames.flatMap fun attributes =>
      (constructed 17 (attributes.flatMap Attribute.octets)).octets) (n.relativeNames.map id) :=
    readsToEnd_sequenceOf rfl fun attributes hmem =>
      reads_relativeName (n.nonempty attributes hmem) (n.tag_lt attributes hmem)
  rw [List.map_id] at hread
  exact hread.constructed (by decide)

/-! ### Algorithms and bit strings -/

/-- An algorithm, which may have parameters. -/
structure Algorithm where
  id : List UInt8
  parameters : Option Element
  tag_lt : ∀ e ∈ parameters, e.identifier.tag < tagBound

def Algorithm.octets (a : Algorithm) : List UInt8 :=
  (constructed 16 ((primitive 6 a.id).octets ++ a.parameters.elim [] Element.octets)).octets

theorem reads_algorithm (a : Algorithm) : Reads algorithm a.octets () := by
  refine ReadsToEnd.constructed (Reads.bindToEnd (reads_objectId a.id) ?_) (by decide)
  cases hparameters : a.parameters with
  | none => exact fun _ => rfl
  | some e =>
    -- parameters have octets, so the end is not yet there
    have hread : Reads (element >>= fun _ => pure ()) e.octets () :=
      (reads_element (a.tag_lt e hparameters)).bind_eq_pure rfl
    exact readsToEnd_atEnd_bind e.octets_ne_nil hread.toEnd

/-- As many bits are zero as the power of two has that divides the octet. -/
theorem le_trailingZeros {b : UInt8} {n : Nat} (hn : n ≤ 8) (h : 2 ^ n ∣ b.toNat) :
    n ≤ trailingZeros b := by
  obtain ⟨k, hk⟩ := h
  -- the bits are looked at from the lowest one on, and the first of them are those of a multiple
  have hzero : ∀ i ∈ List.range n, (!b.toNat.testBit i) = true := by
    intro i hi
    have hi : ¬ n ≤ i := Nat.not_le.mpr (List.mem_range.mp hi)
    simp [hk, Nat.testBit_two_pow_mul, hi]
  obtain ⟨m, hm⟩ := Nat.exists_eq_add_of_le hn
  rw [trailingZeros, hm, List.range_add, List.takeWhile_append_of_pos hzero, List.length_append,
    List.length_range]
  exact Nat.le_add_right n _

/-- A string of bits, the last octet of which may have unused ones, which are zero. -/
structure BitString where
  unused : Nat
  bits : List UInt8
  unused_lt : unused < 8
  unused_eq_zero : bits = [] → unused = 0
  dvd_last : ∀ last, bits.getLast? = some last → 2 ^ unused ∣ last.toNat

/-- A string of whole octets. -/
def BitString.ofOctets (bits : List UInt8) : BitString :=
  ⟨0, bits, by decide, fun _ => rfl, fun last _ => Nat.one_dvd last.toNat⟩

def BitString.content (b : BitString) : List UInt8 := b.unused.toUInt8 :: b.bits

theorem BitString.isBitString_content (b : BitString) : isBitString b.content = true := by
  have hunused : b.unused.toUInt8.toNat = b.unused := toNat_toUInt8 (by have := b.unused_lt; omega)
  simp only [content, isBitString, hunused]
  cases hlast : b.bits.getLast? with
  | none => simp [b.unused_eq_zero (List.getLast?_eq_none_iff.mp hlast)]
  | some last => exact decide_eq_true (le_trailingZeros b.unused_lt.le (b.dvd_last last hlast))

theorem reads_bitString (b : BitString) : Reads bitString (primitive 3 b.content).octets () := by
  refine (reads_primitive (by decide) b.content).bind_eq_pure ?_
  simp [primitive, b.isBitString_content]

/-! ### Times -/

/-- A number below a hundred as it is written. -/
def digits (n : Nat) : List UInt8 := [(48 + n / 10).toUInt8, (48 + n % 10).toUInt8]

theorem isDigit_toUInt8 {n : Nat} (h : n < 10) :
    48 ≤ (48 + n).toUInt8 ∧ (48 + n).toUInt8 ≤ 57 :=
  ⟨(toUInt8_le_iff (m := 48) (by decide) (by omega)).mpr (by omega),
    (toUInt8_le_iff (n := 57) (by omega) (by decide)).mpr (by omega)⟩

theorem reads_twoDigits {n : Nat} (h : n < 100) : Reads twoDigits (digits n) n := by
  intro _ rest
  have htens : (48 + n / 10).toUInt8.toNat = 48 + n / 10 := toNat_toUInt8 (by omega)
  have hones : (48 + n % 10).toUInt8.toNat = 48 + n % 10 := toNat_toUInt8 (by omega)
  have hfirst := isDigit_toUInt8 (show n / 10 < 10 by omega)
  have hsecond := isDigit_toUInt8 (show n % 10 < 10 by omega)
  have hvalue : (48 + n / 10 - 48) * 10 + (48 + n % 10 - 48) = n := by omega
  simp only [twoDigits, digits, List.cons_append, List.nil_append, bind_apply, byte_cons,
    Option.bind_some, hfirst, hsecond, decide_true, Bool.and_self, if_true, htens, hones, hvalue,
    pure_apply]

/-- A second of a year of the Gregorian calendar, and the form in which it is written. -/
structure Time where
  long : Bool
  year : Nat
  month : Nat
  day : Nat
  hour : Nat
  minute : Nat
  second : Nat
  year_mem : if long then year < 10000 else 1950 ≤ year ∧ year < 2050
  isDate : isDate year month day = true
  hour_lt : hour < 24
  minute_lt : minute < 60
  second_lt : second < 60

namespace Time

/-- Day and time of day. -/
def clock (t : Time) : List UInt8 :=
  digits t.month ++ (digits t.day ++ (digits t.hour ++ (digits t.minute ++ digits t.second)))

/-- A time as it is written, with `Z` at the end. -/
def octets (t : Time) : List UInt8 :=
  if t.long then
    (primitive 24 (digits (t.year / 100) ++ (digits (t.year % 100) ++ (t.clock ++ [90])))).octets
  else (primitive 23 (digits (t.year % 100) ++ (t.clock ++ [90]))).octets

theorem daysOfMonth_le (year month : Nat) : daysOfMonth year month ≤ 31 := by
  unfold daysOfMonth
  split_ifs <;> omega

theorem daysOfMonth_of_lt {month : Nat} (year : Nat) (h : 12 < month) :
    daysOfMonth year month = 0 := by
  have hother : month ∉ [4, 6, 9, 11] := by
    simp
    omega
  rw [daysOfMonth, if_neg (by omega), if_neg hother, if_neg (by simp; omega)]

theorem day_mem (t : Time) : 1 ≤ t.day ∧ t.day ≤ daysOfMonth t.year t.month := by
  simpa [Der.isDate] using t.isDate

theorem month_lt (t : Time) : t.month < 13 := by
  -- a month that there is not has no days
  refine Nat.lt_of_not_le fun hmonth => ?_
  have hday := t.day_mem
  rw [daysOfMonth_of_lt t.year hmonth] at hday
  omega

theorem day_lt (t : Time) : t.day < 32 :=
  Nat.lt_succ_of_le (t.day_mem.2.trans (daysOfMonth_le t.year t.month))

end Time

theorem reads_seconds {n : Nat} (h : n < 100) : Reads seconds (digits n) n := by
  intro hsize rest
  have hlong : ¬ (digits n ++ rest).length < 2 := by simp [digits]
  rw [seconds, if_neg hlong]
  exact reads_twoDigits h hsize rest

theorem reads_dateAndTime (t : Time) : Reads (dateAndTime t.year) t.clock () := by
  have hmonth := t.month_lt
  have hday := t.day_lt
  have hhour := t.hour_lt
  have hminute := t.minute_lt
  have hsecond := t.second_lt
  refine Reads.bind (reads_twoDigits (by omega)) (Reads.bind (reads_twoDigits (by omega))
    (Reads.bind (reads_twoDigits (by omega)) (Reads.bind (reads_twoDigits (by omega))
      (Reads.bind_eq_pure (reads_seconds (by omega)) ?_))))
  refine if_pos ?_
  simp [t.isDate]
  omega

theorem readsToEnd_shortTime {t : Time} (h : t.long = false) :
    ReadsToEnd shortTime (digits (t.year % 100) ++ (t.clock ++ [90])) () := by
  have hyear := t.year_mem
  rw [h, if_neg Bool.false_ne_true] at hyear
  -- the century is told from the other two digits
  have hcentury : (if t.year % 100 ≥ 50 then 1900 + t.year % 100 else 2000 + t.year % 100) =
      t.year := by
    split <;> omega
  refine Reads.bindToEnd (reads_twoDigits (by omega)) ?_
  rw [hcentury]
  exact Reads.bindToEnd (reads_dateAndTime t) fun _ => rfl

theorem readsToEnd_longTime {t : Time} (h : t.long = true) :
    ReadsToEnd longTime
      (digits (t.year / 100) ++ (digits (t.year % 100) ++ (t.clock ++ [90]))) () := by
  have hyear := t.year_mem
  rw [h, if_pos rfl] at hyear
  refine Reads.bindToEnd (reads_twoDigits (by omega))
    (Reads.bindToEnd (reads_twoDigits (by omega)) ?_)
  rw [Nat.div_add_mod']
  exact Reads.bindToEnd (reads_dateAndTime t) fun _ => rfl

/-- The tag tells the form of a time, which takes the whole content. -/
theorem reads_time_of_form {e : Element} {form : Parser Unit} (htag : e.identifier.tag < tagBound)
    (hread : ReadsToEnd form e.content ())
    (hform : e.identifier.tag = 23 ∧ form = shortTime ∨ e.identifier.tag = 24 ∧ form = longTime) :
    Reads time e.octets () := by
  intro hsize
  have hcontent : form e.content = some ((), []) :=
    hread (Element.length_content_lt hsize)
  refine Reads.bind_eq_pure (reads_element htag) ?_ hsize
  rcases hform with ⟨hnumber, rfl⟩ | ⟨hnumber, rfl⟩
  · simp [hnumber, shortTimeTag, StateT.run, hcontent]
  · simp [hnumber, shortTimeTag, longTimeTag, StateT.run, hcontent]

theorem reads_time (t : Time) : Reads time t.octets () := by
  unfold Time.octets
  cases hlong : t.long with
  | true =>
    exact reads_time_of_form (show 24 < tagBound by decide) (readsToEnd_longTime hlong)
      (.inr ⟨rfl, rfl⟩)
  | false =>
    exact reads_time_of_form (show 23 < tagBound by decide) (readsToEnd_shortTime hlong)
      (.inl ⟨rfl, rfl⟩)

/-! ### Parts that may be left out -/

/-- Octets that do not begin with an element of a tag: there are none, or they begin with another
element. -/
inductive Lacks (tag : Nat) : List UInt8 → Prop where
  | nil : Lacks tag []
  | cons {e : Element} (htag : e.identifier.tag < tagBound) (hne : e.identifier.tag ≠ tag)
      (rest : List UInt8) : Lacks tag (e.octets ++ rest)

/-- The version as it is written, if it is. -/
def versionOctets : Option Nat → List UInt8
  | none => []
  | some n => Element.octets ⟨⟨.context, true, 0⟩, (primitive 2 (StrictDer.naturalOctets n)).octets⟩

/-- A unique identifier as it is written, if it is. -/
def uniqueIdOctets (tag : Nat) : Option BitString → List UInt8
  | none => []
  | some b => Element.octets ⟨⟨.context, false, tag⟩, b.content⟩

theorem version_of_lacks {octets : List UInt8} (h : Lacks 0 octets)
    (hsize : octets.length < lengthBound) : version octets = some ((), octets) := by
  cases h with
  | nil => rfl
  | @cons e htag hne rest =>
    have hread : element (e.octets ++ rest) = some (e, rest) :=
      reads_element htag (length_lt_of_append hsize).1 rest
    -- an element of another tag is read, and put back for what comes after the version
    simp [version, e.octets_ne_nil, hread, hne]

theorem version_versionOctets {v : Option Nat} (hv : ∀ n ∈ v, n < 2 ^ 32) {more : List UInt8}
    (hmore : Lacks 0 more) (hsize : (versionOctets v ++ more).length < lengthBound) :
    version (versionOctets v ++ more) = some ((), more) := by
  cases v with
  | none => exact version_of_lacks hmore hsize
  | some n =>
    let e : Element := ⟨⟨.context, true, 0⟩, (primitive 2 (StrictDer.naturalOctets n)).octets⟩
    show version (e.octets ++ more) = some ((), more)
    have hsize : e.octets.length < lengthBound := (length_lt_of_append hsize).1
    have hread : element (e.octets ++ more) = some (e, more) :=
      reads_element (show 0 < tagBound by decide) hsize more
    have hnumber : natural 0x100000000 (primitive 2 (StrictDer.naturalOctets n)).octets =
        some (n, []) :=
      (reads_natural (hv n rfl)).toEnd (Element.length_content_lt hsize)
    simp [version, e.octets_ne_nil, hread, e, hnumber]

theorem readsToEnd_version_bind {α : Type} {v : Option Nat} (hv : ∀ n ∈ v, n < 2 ^ 32)
    {f : Unit → Parser α} {more : List UInt8} {a : α} (hmore : Lacks 0 more)
    (h : ReadsToEnd (f ()) more a) : ReadsToEnd (version >>= f) (versionOctets v ++ more) a := by
  intro hsize
  rw [bind_apply, version_versionOctets hv hmore hsize, Option.bind_some,
    h (length_lt_of_append hsize).2]

theorem uniqueId_of_lacks {tag : Nat} {octets : List UInt8} (h : Lacks tag octets)
    (hsize : octets.length < lengthBound) : uniqueId tag octets = some ((), octets) := by
  cases h with
  | nil => rfl
  | @cons e htag hne rest =>
    have hlength := length_lengthOctets (Element.length_content_lt (length_lt_of_append hsize).1)
      (e.content ++ rest)
    simp [uniqueId, e.octets_ne_nil, identifier_element htag, hlength, hne]

theorem uniqueId_uniqueIdOctets {tag : Nat} (htag : tag < tagBound) {o : Option BitString}
    {more : List UInt8} (hmore : Lacks tag more)
    (hsize : (uniqueIdOctets tag o ++ more).length < lengthBound) :
    uniqueId tag (uniqueIdOctets tag o ++ more) = some ((), more) := by
  cases o with
  | none => exact uniqueId_of_lacks hmore hsize
  | some b =>
    let e : Element := ⟨⟨.context, false, tag⟩, b.content⟩
    show uniqueId tag (e.octets ++ more) = some ((), more)
    have hsize : e.octets.length < lengthBound := (length_lt_of_append hsize).1
    have hread : element (e.octets ++ more) = some (e, more) := reads_element htag hsize more
    have hlength := length_lengthOctets (Element.length_content_lt hsize) (e.content ++ more)
    have hidentifier := identifier_element (e := e) htag more
    simp [uniqueId, e.octets_ne_nil, hidentifier, hread, hlength]
    -- the octet for the unused bits is there even if no bits are
    simp [e, BitString.content]

theorem readsToEnd_uniqueId_bind {α : Type} {tag : Nat} (htag : tag < tagBound)
    {o : Option BitString} {f : Unit → Parser α} {more : List UInt8} {a : α}
    (hmore : Lacks tag more) (h : ReadsToEnd (f ()) more a) :
    ReadsToEnd (uniqueId tag >>= f) (uniqueIdOctets tag o ++ more) a := by
  intro hsize
  rw [bind_apply, uniqueId_uniqueIdOctets htag hmore hsize, Option.bind_some,
    h (length_lt_of_append hsize).2]

theorem lacks_uniqueIdOctets {tag other : Nat} (hother : other < tagBound) (hne : other ≠ tag)
    (o : Option BitString) {more : List UInt8} (hmore : Lacks tag more) :
    Lacks tag (uniqueIdOctets other o ++ more) := by
  cases o with
  | none => exact hmore
  | some b => exact .cons (e := ⟨⟨.context, false, other⟩, b.content⟩) hother hne more

/-- An extension; whether it is critical may be left out. -/
structure Extension where
  id : List UInt8
  critical : Option Bool
  value : List UInt8

def Extension.criticalOctets (x : Extension) : List UInt8 :=
  x.critical.elim [] fun b => (primitive 1 [if b then 0xFF else 0x00]).octets

def Extension.octets (x : Extension) : List UInt8 :=
  (constructed 16 ((primitive 6 x.id).octets ++
    (x.criticalOctets ++ (primitive 4 x.value).octets))).octets

/-- Extensions as they are written, if they are. -/
def extensionsOctets : Option (List Extension) → List UInt8
  | none => []
  | some xs =>
    Element.octets ⟨⟨.context, true, 3⟩, (constructed 16 (xs.flatMap Extension.octets)).octets⟩

theorem lacks_extensionsOctets {tag : Nat} (hne : 3 ≠ tag) (o : Option (List Extension)) :
    Lacks tag (extensionsOctets o) := by
  cases o with
  | none => exact .nil
  | some xs =>
    let e : Element := ⟨⟨.context, true, 3⟩, (constructed 16 (xs.flatMap Extension.octets)).octets⟩
    have hlacks : Lacks tag (e.octets ++ []) := .cons (show 3 < tagBound by decide) hne []
    rwa [List.append_nil] at hlacks

theorem reads_critical (b : Bool) :
    Reads (do
      let e ← tagged booleanTag
      if e.content.length = 1 then return () else failure)
      (primitive 1 [if b then 0xFF else 0x00]).octets () :=
  (reads_primitive (show 1 < tagBound by decide) _).bind_eq_pure rfl

theorem reads_extension (x : Extension) : Reads extension x.octets () := by
  refine ReadsToEnd.constructed (Reads.bindToEnd (reads_objectId x.id) ?_) (by decide)
  have hvalue : Reads (do
        let value ← tagged octetStringTag
        if value.identifier.constructed then failure else return ())
      (primitive 4 x.value).octets () :=
    (reads_primitive (show 4 < tagBound by decide) x.value).bind_eq_pure rfl
  unfold Extension.criticalOctets
  cases x.critical with
  | none =>
    intro hsize
    refine readsToEnd_possibly_bind ?_ hvalue.toEnd hsize
    -- the value stands where the truth value is looked for
    have hother : tagged booleanTag (primitive 4 x.value).octets = none := by
      simpa using tagged_of_ne (e := primitive 4 x.value) (show 4 < tagBound by decide)
        (show 4 ≠ booleanTag by decide) hsize []
    rw [Option.elim_none, List.nil_append, bind_apply, hother]
    rfl
  | some b => exact (reads_critical b).possibly.bindToEnd hvalue.toEnd

theorem readsToEnd_extensions (o : Option (List Extension)) :
    ReadsToEnd extensions (extensionsOctets o) () := by
  cases o with
  | none => exact fun _ => rfl
  | some xs =>
    have hlist : ReadsToEnd (do let _ ← sequenceOf extension; done)
        (xs.flatMap Extension.octets) () :=
      (readsToEnd_sequenceOf rfl fun x _ => reads_extension x).bind readsToEnd_done
    have hwithin := hlist.constructed (show 16 < tagBound by decide)
    -- the announcing element is not taken as a whole: its content is gone on with
    refine readsToEnd_atEnd_bind (Element.octets_ne_nil _) ?_
    exact ReadsToEnd.header_bind (show 3 < tagBound by decide) (hwithin.toEnd.bind readsToEnd_done)

/-! ### Serial numbers -/

theorem reads_skipContent {i : Identifier} (h : i.tag ≠ endTag) (depth : Nat)
    (content : List UInt8) :
    Reads (skipContent (depth + 1) i (.definite content.length)) content false := by
  intro _ rest
  have hend : ¬ (content.length = 0 && i.tag = endTag) = true := by simp [h]
  rw [skipContent, if_neg hend]
  simp only [bind_apply, bytes_append rfl, Option.bind_some, pure_apply]

theorem reads_serialNumber (content : List UInt8) :
    Reads serialNumber (primitive 2 content).octets () :=
  Reads.header_bind (e := primitive 2 content) (show 2 < tagBound by decide)
    ((reads_skipContent (show 2 ≠ endTag by decide) 49 content).bind_eq_pure rfl)

/-! ### Certificates -/

/-- The parts of a certificate. -/
structure Parts where
  version : Option Nat
  version_lt : ∀ n ∈ version, n < 2 ^ 32
  /-- The content of the integer. -/
  serialNumber : List UInt8
  /-- The algorithm of the signature, as it is signed. -/
  algorithm : Algorithm
  issuer : Name
  notBefore : Time
  notAfter : Time
  subject : Name
  keyAlgorithm : Algorithm
  key : BitString
  issuerId : Option BitString
  subjectId : Option BitString
  extensions : Option (List Extension)
  /-- The algorithm of the signature, beside the signature. -/
  signatureAlgorithm : Algorithm
  signature : BitString

namespace Parts

def validity (c : Parts) : Element := constructed 16 (c.notBefore.octets ++ c.notAfter.octets)

def keyInfo (c : Parts) : Element :=
  constructed 16 (c.keyAlgorithm.octets ++ (primitive 3 c.key.content).octets)

/-- What stands behind the key. -/
def optionalOctets (c : Parts) : List UInt8 :=
  uniqueIdOctets 1 c.issuerId ++ (uniqueIdOctets 2 c.subjectId ++ extensionsOctets c.extensions)

/-- The part that is signed. -/
def signed (c : Parts) : Element :=
  constructed 16 (versionOctets c.version ++ ((primitive 2 c.serialNumber).octets ++
    (c.algorithm.octets ++ (c.issuer.octets ++ (c.validity.octets ++ (c.subject.octets ++
      (c.keyInfo.octets ++ c.optionalOctets)))))))

/-- A certificate as it is written. -/
def octets (c : Parts) : List UInt8 :=
  (constructed 16 (c.signed.octets ++
    (c.signatureAlgorithm.octets ++ (primitive 3 c.signature.content).octets))).octets

variable (c : Parts)

theorem reads_validity : Reads (within sequenceTag do time; time) c.validity.octets () :=
  ((reads_time c.notBefore).bindToEnd (reads_time c.notAfter).toEnd).constructed (by decide)

theorem reads_keyInfo :
    Reads (within sequenceTag do Certificate.algorithm; bitString) c.keyInfo.octets () :=
  ((reads_algorithm c.keyAlgorithm).bindToEnd (reads_bitString c.key).toEnd).constructed (by decide)

theorem readsToEnd_optional {α : Type} {f : Unit → Parser α} {a : α} (h : ReadsToEnd (f ()) [] a) :
    ReadsToEnd (do uniqueId 1; uniqueId 2; let u ← Certificate.extensions; f u)
      c.optionalOctets a := by
  have hextensions : Lacks 2 (extensionsOctets c.extensions) :=
    lacks_extensionsOctets (by decide) c.extensions
  have hids : Lacks 1 (uniqueIdOctets 2 c.subjectId ++ extensionsOctets c.extensions) :=
    lacks_uniqueIdOctets (by decide) (by decide) c.subjectId
      (lacks_extensionsOctets (by decide) c.extensions)
  exact readsToEnd_uniqueId_bind (by decide) hids
    (readsToEnd_uniqueId_bind (by decide) hextensions ((readsToEnd_extensions c.extensions).bind h))

/-- Of the part that is signed, the subject is kept. -/
theorem reads_signed : Reads signedPart c.signed.octets ⟨c.subject.relativeNames⟩ := by
  refine ReadsToEnd.constructed (readsToEnd_version_bind c.version_lt ?_ ?_) (by decide)
  · -- where no version is written, the serial number is not taken for one
    exact .cons (e := primitive 2 c.serialNumber) (show 2 < tagBound by decide)
      (show 2 ≠ 0 by decide) _
  · refine (reads_serialNumber c.serialNumber).bindToEnd ?_
    refine (reads_algorithm c.algorithm).bindToEnd ?_
    refine (reads_name c.issuer).bindToEnd ?_
    refine c.reads_validity.bindToEnd ?_
    refine (reads_name c.subject).bindToEnd ?_
    refine c.reads_keyInfo.bindToEnd ?_
    exact c.readsToEnd_optional fun _ => rfl

/-- Certificates are read as they are written, whatever follows them. -/
theorem parse?_octets (hsize : c.octets.length < lengthBound) (tail : List UInt8) :
    parse? (c.octets ++ tail) = some ⟨c.subject.relativeNames⟩ := by
  have hread : Reads certificate c.octets ⟨c.subject.relativeNames⟩ := by
    refine ReadsToEnd.constructed (c.reads_signed.bindToEnd ?_) (by decide)
    refine (reads_algorithm c.signatureAlgorithm).bindToEnd ?_
    have hsignature : Reads (bitString >>= fun _ => pure ⟨c.subject.relativeNames⟩)
        (primitive 3 c.signature.content).octets (⟨c.subject.relativeNames⟩ : Certificate) :=
      (reads_bitString c.signature).bind_eq_pure rfl
    exact hsignature.toEnd
  rw [parse?, StateT.run, hread hsize tail]
  rfl

end Parts

end Certificate

end AccessControl
