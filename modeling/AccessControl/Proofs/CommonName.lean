import AccessControl.Proofs.Authentication
import AccessControl.Proofs.CertificateParts
import AccessControl.Proofs.Utf8

/-!
# The first common name decides

The common name of a certificate is that of its subject. Where the subject has several, in one
relative name or in different ones, the first one as they are written is the one that counts, and it
counts even if it cannot be read as a text: the certificate then has no common name, whatever stands
behind. So nothing that others may choose, such as the name of an issuer, stands in for the subject.

## Main definitions

* `Certificate.FirstCommonName` — the first common name among attributes
* `Certificate.Attribute.Spells` — the value of an attribute is a text

## Main results

* `Certificate.commonName?_eq_some_iff` — the common name is the text of the first one
* `Certificate.Parts.commonNameOf?_octets` — only the subject of a written certificate is looked at
* `Certificate.Parts.first_commonName_decides` — both, for octets that a certificate begins
-/

namespace AccessControl.Certificate

open Der

variable {a b : Attribute} {v : String}

/-! ### Attributes -/

/-- The attributes of type 2.5.4.3. The first two numbers of a type are written as one. -/
def Attribute.IsCommonName (a : Attribute) : Prop := a.type = [2 * 40 + 5, 4, 3]

instance : DecidablePred Attribute.IsCommonName := fun a =>
  inferInstanceAs (Decidable (a.type = [2 * 40 + 5, 4, 3]))

theorem Attribute.isCommonName_iff : a.IsCommonName ↔ a.type = commonNameType := Iff.rfl

/-- The value of an attribute is a text: a string of UTF-8, a numeric, a printable or an IA5 string,
whose octets are those of the text. -/
def Attribute.Spells (a : Attribute) (v : String) : Prop :=
  a.value.identifier.tag ∈ [12, 18, 19, 22] ∧ a.value.content = Utf8.encode v

theorem Attribute.text?_eq_some_iff : a.text? = some v ↔ a.Spells v := by
  unfold Attribute.text? Attribute.Spells
  by_cases htag : a.value.identifier.tag ∈ textTags
  · rw [if_pos htag, and_iff_right (show a.value.identifier.tag ∈ [12, 18, 19, 22] from htag)]
    constructor
    · intro h
      split at h
      · next s hread => exact Option.some.inj h ▸ (Utf8.encode_of_decode hread).symm
      · cases h
    · intro h
      rw [h, Utf8.decode_encode]
  · rw [if_neg htag]
    exact iff_of_false nofun fun h => htag h.1

/-- The first common name among attributes. -/
def FirstCommonName (attributes : List Attribute) (a : Attribute) : Prop :=
  ∃ before after, attributes = before ++ a :: after ∧ a.IsCommonName ∧
    ∀ b ∈ before, ¬ b.IsCommonName

theorem find?_eq_some_iff_firstCommonName {attributes : List Attribute} :
    attributes.find? (·.type = commonNameType) = some a ↔ FirstCommonName attributes a := by
  simp only [List.find?_eq_some_iff_append, decide_eq_true_eq, Bool.not_eq_true',
    decide_eq_false_iff_not, ← Attribute.isCommonName_iff]
  constructor
  · rintro ⟨hname, before, after, hlist, hbefore⟩
    exact ⟨before, after, hlist, hname, hbefore⟩
  · rintro ⟨before, after, hlist, hname, hbefore⟩
    exact ⟨hname, before, after, hlist, hbefore⟩

theorem FirstCommonName.unique {attributes : List Attribute} (ha : FirstCommonName attributes a)
    (hb : FirstCommonName attributes b) : a = b := by
  rw [← find?_eq_some_iff_firstCommonName] at ha hb
  exact Option.some.inj (ha.symm.trans hb)

/-! ### Certificates -/

/-- The common name of a certificate is the text of the first one of its subject. -/
theorem commonName?_eq_some_iff {c : Certificate} :
    c.commonName? = some v ↔ ∃ a, FirstCommonName c.subject.flatten a ∧ a.Spells v := by
  simp only [commonName?, Option.bind_eq_bind, Option.bind_eq_some_iff,
    find?_eq_some_iff_firstCommonName, Attribute.text?_eq_some_iff]

/-- A first common name that is no text is not replaced by a later one. -/
theorem commonName?_eq_none {c : Certificate} (hfirst : FirstCommonName c.subject.flatten a)
    (h : ∀ v, ¬ a.Spells v) : c.commonName? = none := by
  refine Option.eq_none_iff_forall_ne_some.mpr fun v hv => ?_
  obtain ⟨b, hb, hspells⟩ := commonName?_eq_some_iff.mp hv
  exact h v (hfirst.unique hb ▸ hspells)

namespace Parts

/-- The attributes of the subject in the order in which they are written, whichever relative name
they belong to. -/
def subjectAttributes (c : Parts) : List Attribute := c.subject.relativeNames.flatten

/-- Of a certificate, its subject alone is looked at for the common name. -/
theorem commonNameOf?_octets {c : Parts} (hsize : c.octets.length < lengthBound)
    (tail : List UInt8) :
    commonNameOf? (c.octets ++ tail) = commonName? ⟨c.subject.relativeNames⟩ := by
  rw [commonNameOf?, c.parse?_octets hsize tail]
  rfl

/-- **The first common name decides.** Take any certificate that is written in fewer octets than a
length can count, and any octets behind it. They have the common name `v` exactly if the first
common name of its subject is the text `v`. They have none if the first one is no text, whatever
comes behind it. So every certificate with the same subject has the same common name, whatever its
other parts are and whatever octets follow it. -/
theorem first_commonName_decides {c : Parts} (hsize : c.octets.length < lengthBound)
    (tail : List UInt8) :
    (∀ v, commonNameOf? (c.octets ++ tail) = some v ↔
      ∃ a, FirstCommonName c.subjectAttributes a ∧ a.Spells v) ∧
    (∀ a, FirstCommonName c.subjectAttributes a → (∀ v, ¬ a.Spells v) →
      commonNameOf? (c.octets ++ tail) = none) ∧
    ∀ other : Parts, other.octets.length < lengthBound →
      other.subject.relativeNames = c.subject.relativeNames → ∀ tail',
        commonNameOf? (other.octets ++ tail') = commonNameOf? (c.octets ++ tail) := by
  refine ⟨fun v => ?_, fun a hfirst hunreadable => ?_, fun other hother hsubject tail' => ?_⟩
  · rw [commonNameOf?_octets hsize]
    exact commonName?_eq_some_iff
  · rw [commonNameOf?_octets hsize]
    exact commonName?_eq_none hfirst hunreadable
  · rw [commonNameOf?_octets hsize, commonNameOf?_octets hother, hsubject]

/-- A common name that is written as a string of a given tag. -/
def commonName (tag : Nat) (text : String) : Attribute :=
  ⟨[0x55, 0x04, 0x03], primitive tag (Utf8.encode text)⟩

/-- The first second of a year. -/
def newYear (year : Nat) (h : 1950 ≤ year ∧ year < 2050) : Time where
  long := false
  year := year
  month := 1
  day := 1
  hour := 0
  minute := 0
  second := 0
  year_mem := h
  isDate := by simp [isDate, daysOfMonth]
  hour_lt := by decide
  minute_lt := by decide
  second_lt := by decide

/-- A certificate without anything that may be left out. -/
def bare (subject : Name) : Parts where
  version := none
  version_lt := nofun
  serialNumber := [1]
  algorithm := ⟨[0x2a, 0x03, 0x04], none, nofun⟩
  issuer := ⟨[], nofun, nofun⟩
  notBefore := newYear 2024 (by decide)
  notAfter := newYear 2034 (by decide)
  subject := subject
  keyAlgorithm := ⟨[0x2a, 0x03, 0x04], none, nofun⟩
  key := .ofOctets []
  issuerId := none
  subjectId := none
  extensions := none
  signatureAlgorithm := ⟨[0x2a, 0x03, 0x04], none, nofun⟩
  signature := .ofOctets []

/-- A certificate with all that there may be, from an issuer with a common name. -/
def ample (subject : Name) : Parts :=
  { bare subject with
    version := some 2
    version_lt := by decide
    serialNumber := [0x00, 0xff, 0x12, 0x34]
    algorithm := ⟨[0x2a, 0x03, 0x04], some (primitive 5 []), by decide⟩
    issuer := ⟨[[commonName 12 "crate"]], by decide, by decide⟩
    key := ⟨4, [0xff, 0xf0], by decide, nofun, by rintro last ⟨⟩; decide⟩
    issuerId := some (.ofOctets [0xff])
    subjectId := some (.ofOctets [0xff])
    extensions := some [⟨[0x55, 0x1d, 0x11], some true, List.replicate 300 0⟩] }

/-- The certificate of `ford` is one that is written. Where an attribute of an organization, of 200
octets, and one of a unit stand before the common name `zaphod` and another one behind it, that name
counts, with all the other parts of a certificate and without them. A string of another kind, here
one of two octets for a character, takes the place of what stands behind it. -/
theorem first_commonName_decides_among_several :
    let ford : Name := ⟨[[commonName 12 "ford"]], by decide, by decide⟩
    let several : Name :=
      ⟨[[⟨[0x55, 0x04, 0x0a], primitive 12 (List.replicate 200 0x61)⟩],
        [⟨[0x55, 0x04, 0x0b], primitive 19 [0x62]⟩, commonName 22 "zaphod"],
        [commonName 12 "crate"]], by decide, by decide⟩
    let unreadable : Name :=
      ⟨[[commonName 30 "zaphod", commonName 12 "crate"]], by decide, by decide⟩
    (bare ford).octets = Config.fordCertificate ∧
    commonNameOf? (Config.fordCertificate ++ [0x00]) = some "ford" ∧
    commonNameOf? ((ample several).octets ++ [0x30, 0x80]) = some "zaphod" ∧
    commonNameOf? ((bare several).octets ++ []) = some "zaphod" ∧
    commonNameOf? ((ample unreadable).octets ++ []) = none := by
  intro ford several unreadable
  have hwritten : (bare ford).octets = Config.fordCertificate := by decide +kernel
  have hford : commonNameOf? ((bare ford).octets ++ [0x00]) = some "ford" :=
    ((first_commonName_decides (by decide +kernel) [0x00]).1 "ford").mpr
      ⟨commonName 12 "ford", ⟨[], [], rfl, rfl, nofun⟩, by decide, rfl⟩
  have hample : (ample several).octets.length < lengthBound := by decide +kernel
  have hseveral : commonNameOf? ((ample several).octets ++ [0x30, 0x80]) = some "zaphod" :=
    ((first_commonName_decides hample [0x30, 0x80]).1 "zaphod").mpr
      ⟨commonName 22 "zaphod", ⟨_, _, (rfl : _ = [_, _] ++ _ :: [_]), rfl, by decide⟩,
        by decide, rfl⟩
  have hsame := (first_commonName_decides hample [0x30, 0x80]).2.2 (bare several)
    (by decide +kernel) rfl []
  have hunreadable := (first_commonName_decides (c := ample unreadable) (by decide +kernel) []).2.1
    (commonName 30 "zaphod") ⟨[], [commonName 12 "crate"], rfl, rfl, nofun⟩
    fun v h => absurd h.1 (by decide)
  exact ⟨hwritten, hwritten ▸ hford, hseveral, hsame.trans hseveral, hunreadable⟩

end Parts

end AccessControl.Certificate
