import AccessControl.Certificate.StrictDer
import Mathlib.Algebra.BigOperators.Group.List.Basic
import Mathlib.Algebra.Order.Ring.Nat

/-!
# Elements are read as they are written

An element is written in its shortest form: its identifier, the number of octets of its content, and
the content. This file shows that each part is read back, for every tag and every length, and
carries this over to what is made of elements. A parser reads octets if it takes them and nothing of
what follows. Parsers that run one after the other read what is written one after the other, and a
parser of the content of an element reads the element.

Lengths are numbers of eight octets, so only elements that are shorter than this can be read. The
bound is part of what it means to be read: it is handed on from an element to its content, and is
asked for nowhere but at the outermost one.

## Main definitions

* `Der.Element.octets` — an element as it is written
* `Der.Reads`, `Der.ReadsToEnd` — what a parser makes of octets that it takes

## Main results

* `Der.reads_element` — elements are read as they are written
* `Der.Reads.bind`, `Der.ReadsToEnd.within`, `Der.readsToEnd_sequenceOf` — so is what is made of
  them
-/

namespace AccessControl

/-! ### Numbers in octets -/

namespace Binary

theorem capacity_eq (width : Nat) : capacity width = 2 ^ (8 * width) := by
  induction width with
  | zero => rfl
  | succ width ih =>
    rw [capacity, ih, Nat.mul_succ, Nat.pow_add, Nat.mul_comm]

/-- The first octet is the quotient by the weight of the others. -/
theorem writeBigEndian_succ (width n : Nat) :
    writeBigEndian (width + 1) n = (n / 2 ^ (8 * width)).toUInt8 :: writeBigEndian width n := by
  -- numbers are written from the last octet on, so the induction takes it off first
  induction width generalizing n with
  | zero => simp [writeBigEndian]
  | succ width ih =>
    have hquotient : n / 256 / 2 ^ (8 * width) = n / 2 ^ (8 * (width + 1)) := by
      rw [Nat.div_div_eq_div_mul]
      congr 1
      rw [Nat.mul_succ, Nat.pow_add, Nat.mul_comm]
    rw [writeBigEndian, ih, hquotient]
    rfl

theorem log2_lt {n width : Nat} (hwidth : 0 < width) (h : n < 2 ^ width) : n.log2 < width := by
  rcases Nat.eq_zero_or_pos n with rfl | hn
  · simpa using hwidth
  · exact (Nat.log2_lt hn.ne').mpr h

/-- A number is read from as many octets as its bits fill. -/
theorem bigEndian_writeBigEndian_of_log2 {n width : Nat} (h : n.log2 < 8 * width) :
    bigEndian (writeBigEndian width n) = n := by
  refine bigEndian_writeBigEndian ?_
  rw [capacity_eq]
  calc n < 2 ^ (n.log2 + 1) := Nat.lt_log2_self
    _ ≤ 2 ^ (8 * width) := Nat.pow_le_pow_right (by decide) h

end Binary

namespace Der

/-! ### Written elements -/

/-- The two highest bits of an identifier. -/
def TagClass.number : TagClass → Nat
  | .universal => 0
  | .application => 1
  | .context => 2
  | .reserved => 3

/-- A number in a given count of octets, seven bits in each, with the mark that more of them
follow. -/
def septets : Nat → Nat → List UInt8
  | 0, _ => []
  | width + 1, n => septets width (n / 128) ++ [(128 + n % 128).toUInt8]

/-- The octets of a tag number above 30. The last one has no mark. -/
def longTagOctets (tag : Nat) : List UInt8 :=
  septets (tag.log2 / 7) (tag / 128) ++ [(tag % 128).toUInt8]

namespace Identifier

/-- The first octet, with a number in the place of the tag. -/
def lead (i : Identifier) (short : Nat) : UInt8 :=
  (i.tagClass.number * 64 + (if i.constructed then 32 else 0) + short).toUInt8

/-- An identifier as it is written. -/
def octets (i : Identifier) : List UInt8 :=
  if i.tag < 31 then [i.lead i.tag] else i.lead 31 :: longTagOctets i.tag

end Identifier

/-- A length as it is written. -/
def lengthOctets (n : Nat) : List UInt8 :=
  if n < 128 then [n.toUInt8]
  else (128 + (n.log2 / 8 + 1)).toUInt8 :: Binary.writeBigEndian (n.log2 / 8 + 1) n

/-- An element as it is written. -/
def Element.octets (e : Element) : List UInt8 :=
  e.identifier.octets ++ (lengthOctets e.content.length ++ e.content)

/-- An element of the standard whose content is not made of elements. -/
def primitive (tag : Nat) (content : List UInt8) : Element := ⟨⟨.universal, false, tag⟩, content⟩

/-- An element of the standard whose content is made of elements. -/
def constructed (tag : Nat) (content : List UInt8) : Element := ⟨⟨.universal, true, tag⟩, content⟩

/-- The bound of tag numbers. -/
def tagBound : Nat := 2 ^ 32

/-- The bound of lengths. -/
def lengthBound : Nat := 2 ^ 64

/-! ### Identifiers and lengths -/

theorem toNat_toUInt8 {n : Nat} (h : n < 256) : n.toUInt8.toNat = n := by
  simpa using h

theorem toUInt8_lt_iff {m n : Nat} (hm : m < 256) (hn : n < 256) :
    m.toUInt8 < n.toUInt8 ↔ m < n := by
  rw [UInt8.lt_iff_toNat_lt, toNat_toUInt8 hm, toNat_toUInt8 hn]

theorem toUInt8_le_iff {m n : Nat} (hm : m < 256) (hn : n < 256) :
    m.toUInt8 ≤ n.toUInt8 ↔ m ≤ n := by
  rw [UInt8.le_iff_toNat_le, toNat_toUInt8 hm, toNat_toUInt8 hn]

theorem toUInt8_inj {m n : Nat} (hm : m < 256) (hn : n < 256) :
    m.toUInt8 = n.toUInt8 ↔ m = n := by
  rw [← UInt8.toNat_inj, toNat_toUInt8 hm, toNat_toUInt8 hn]

theorem longTag_septets {width n : Nat} (hwidth : n < 2 ^ (7 * width)) (hn : n < tagBound)
    (limit : Nat) (rest : List UInt8) :
    longTag (limit + width) 0 (septets width n ++ rest) = longTag limit n rest := by
  induction width generalizing n limit rest with
  | zero =>
    obtain rfl : n = 0 := by simpa using hwidth
    rfl
  | succ width ih =>
    have hquotient : n / 128 < 2 ^ (7 * width) := by
      rw [Nat.div_lt_iff_lt_mul (by decide), ← Nat.pow_add 2 (7 * width) 7]
      exact hwidth
    have hoctet : (128 + n % 128).toUInt8.toNat = 128 + n % 128 := toNat_toUInt8 (by omega)
    -- the octets before the last one are those of the quotient
    have hhigh := ih hquotient (by omega) (limit + 1) ((128 + n % 128).toUInt8 :: rest)
    rw [septets, List.append_assoc, List.singleton_append,
      show limit + (width + 1) = limit + 1 + width by omega, hhigh]
    have hmarked : ¬ (128 + n % 128).toUInt8 < 128 :=
      (toUInt8_lt_iff (n := 128) (by omega) (by decide)).not.mpr (by omega)
    have hsum : (n / 128 * 128 + (128 + n % 128) % 128) % 0x100000000 = n := by
      unfold tagBound at hn
      omega
    simp only [longTag, bind_apply, byte_cons, Option.bind_some, hoctet, hsum, if_neg hmarked]

theorem longTag_longTagOctets {tag : Nat} (h : tag < tagBound) (rest : List UInt8) :
    longTag 5 0 (longTagOctets tag ++ rest) = some (tag, rest) := by
  have hlog : tag.log2 < 32 := Binary.log2_lt (by decide) h
  have hwidth : tag / 128 < 2 ^ (7 * (tag.log2 / 7)) := by
    rw [Nat.div_lt_iff_lt_mul (by decide), ← Nat.pow_add 2 _ 7]
    calc tag < 2 ^ (tag.log2 + 1) := Nat.lt_log2_self
      _ ≤ 2 ^ (7 * (tag.log2 / 7) + 7) := Nat.pow_le_pow_right (by decide) (by omega)
  have hhigh := longTag_septets hwidth (Nat.lt_of_le_of_lt (Nat.div_le_self tag 128) h)
    (5 - tag.log2 / 7) ((tag % 128).toUInt8 :: rest)
  have hlast : (tag % 128).toUInt8.toNat = tag % 128 := toNat_toUInt8 (by omega)
  have hunmarked : (tag % 128).toUInt8 < 128 :=
    (toUInt8_lt_iff (by omega) (by decide)).mpr (Nat.mod_lt tag (by decide))
  have hsum : (tag / 128 * 128 + tag % 128 % 128) % 0x100000000 = tag := by
    unfold tagBound at h
    omega
  rw [longTagOctets, List.append_assoc, List.singleton_append,
    show 5 = 5 - tag.log2 / 7 + tag.log2 / 7 by omega, hhigh,
    show 5 - tag.log2 / 7 = 4 - tag.log2 / 7 + 1 by omega]
  simp only [longTag, bind_apply, byte_cons, Option.bind_some, hlast, hsum, if_pos hunmarked,
    pure_apply]

/-- The parts of the first octet are apart from one another. -/
theorem Identifier.toNat_lead (i : Identifier) {short : Nat} (h : short < 32) :
    (i.lead short).toNat / 64 = i.tagClass.number ∧
      (i.lead short).toNat / 32 % 2 = (if i.constructed then 1 else 0) ∧
      (i.lead short).toNat % 32 = short := by
  -- the three parts fill eight bits, and none of them reaches into the next
  have hlead : (i.lead short).toNat =
      i.tagClass.number * 64 + (if i.constructed then 32 else 0) + short := by
    refine toNat_toUInt8 ?_
    cases i.tagClass <;> cases i.constructed <;> simp [TagClass.number] <;> omega
  rw [hlead]
  cases i.constructed <;> simp <;> omega

theorem identifier_octets {i : Identifier} (h : i.tag < tagBound) (rest : List UInt8) :
    identifier (i.octets ++ rest) = some (i, rest) := by
  obtain ⟨tagClass, constructed, tag⟩ := i
  unfold Identifier.octets
  split
  · next hshort =>
    have hshort : tag < 31 := hshort
    obtain ⟨hclass, hconstructed, htag⟩ :=
      Identifier.toNat_lead ⟨tagClass, constructed, tag⟩ (show tag < 32 by omega)
    simp only [identifier, List.singleton_append, bind_apply, byte_cons, Option.bind_some, htag,
      hclass, hconstructed, if_neg (show tag ≠ 31 by omega), pure_apply]
    cases tagClass <;> cases constructed <;> rfl
  · obtain ⟨hclass, hconstructed, htag⟩ :=
      Identifier.toNat_lead ⟨tagClass, constructed, tag⟩ (show 31 < 32 by decide)
    simp only [identifier, List.cons_append, bind_apply, byte_cons, Option.bind_some, htag, hclass,
      hconstructed, if_true, longTag_longTagOctets h, pure_apply]
    cases tagClass <;> cases constructed <;> rfl

theorem lengthOrMark_lengthOctets {n : Nat} (h : n < lengthBound) (rest : List UInt8) :
    lengthOrMark (lengthOctets n ++ rest) = some (.definite n, rest) := by
  unfold lengthOctets
  split
  · next hshort =>
    have hoctet : n.toUInt8.toNat = n := toNat_toUInt8 (by omega)
    have hlt : n.toUInt8 < 128 := (toUInt8_lt_iff (by omega) (by decide)).mpr hshort
    simp only [lengthOrMark, List.singleton_append, bind_apply, byte_cons, Option.bind_some,
      if_pos hlt, hoctet, pure_apply]
  · next hlong =>
    have hlog : n.log2 < 64 := Binary.log2_lt (by decide) h
    generalize hwidth : n.log2 / 8 + 1 = width
    have hoctet : (128 + width).toUInt8.toNat = 128 + width := toNat_toUInt8 (by omega)
    have hread : Binary.bigEndian (Binary.writeBigEndian width n) = n :=
      Binary.bigEndian_writeBigEndian_of_log2 (by omega)
    have hlt : ¬ (128 + width).toUInt8 < 128 :=
      (toUInt8_lt_iff (n := 128) (by omega) (by decide)).not.mpr (by omega)
    -- one to eight octets follow, so the first one is neither of those with a meaning of their own
    have hmark : (128 + width).toUInt8 ≠ 128 :=
      (toUInt8_inj (n := 128) (by omega) (by decide)).not.mpr (by omega)
    have hmax : (128 + width).toUInt8 ≠ 255 :=
      (toUInt8_inj (n := 255) (by omega) (by decide)).not.mpr (by omega)
    have hbytes : bytes ((128 + width).toUInt8.toNat - 128)
        (Binary.writeBigEndian width n ++ rest) = some (Binary.writeBigEndian width n, rest) := by
      refine bytes_append ?_ rest
      rw [Binary.length_writeBigEndian, hoctet]
      omega
    simp only [lengthOrMark, List.cons_append, bind_apply, byte_cons, Option.bind_some, if_neg hlt,
      if_neg hmark, if_neg hmax, hbytes, hread]
    rw [if_pos (show n < 0x10000000000000000 from h)]
    rfl

/-- The shortest content of a number is told from that of a longer one and of a negative one. -/
theorem isNatural_naturalOctets (n : Nat) : isNatural (StrictDer.naturalOctets n) = true := by
  unfold StrictDer.naturalOctets
  generalize hwidth : (n.log2 + 1) / 8 = width
  have hlt : n < 2 ^ (n.log2 + 1) := Nat.lt_log2_self
  rw [Binary.writeBigEndian_succ]
  -- the sign bit is not set
  have hfirst : n / 2 ^ (8 * width) < 128 := by
    rw [Nat.div_lt_iff_lt_mul (Nat.two_pow_pos _), ← Nat.pow_add 2 7]
    exact hlt.trans_le (Nat.pow_le_pow_right (by decide) (by omega))
  have hoctet : (n / 2 ^ (8 * width)).toUInt8.toNat = n / 2 ^ (8 * width) :=
    toNat_toUInt8 (by omega)
  have hpositive : (n / 2 ^ (8 * width)).toUInt8 < 128 :=
    (toUInt8_lt_iff (by omega) (by decide)).mpr hfirst
  cases width with
  | zero => simp [Binary.writeBigEndian, isNatural] at hpositive ⊢; exact hpositive
  | succ width =>
    rw [Binary.writeBigEndian_succ]
    simp only [isNatural, hpositive, decide_true, Bool.true_and, Bool.or_eq_true,
      decide_eq_true_eq]
    -- a first octet of zero is for a sign bit that the second one has no room for
    by_cases hzero : n / 2 ^ (8 * (width + 1)) = 0
    · refine .inr ?_
      have hbelow : n < 2 ^ (8 * (width + 1)) :=
        (Nat.div_eq_zero_iff_lt (Nat.two_pow_pos _)).mp hzero
      have hpos : n ≠ 0 := by
        rintro rfl
        simp at hwidth
      have hbits : 2 ^ (8 * width + 7) ≤ n :=
        (Nat.pow_le_pow_right (by decide) (by omega)).trans (Nat.log2_self_le hpos)
      have hsecond : 128 ≤ n / 2 ^ (8 * width) := by
        rw [Nat.le_div_iff_mul_le (Nat.two_pow_pos _), ← Nat.pow_add 2 7, Nat.add_comm 7]
        exact hbits
      have hsecondLt : n / 2 ^ (8 * width) < 256 := by
        rw [Nat.div_lt_iff_lt_mul (Nat.two_pow_pos _), ← Nat.pow_add 2 8, Nat.add_comm 8]
        exact hbelow
      exact (toUInt8_le_iff (by decide) hsecondLt).mpr hsecond
    · refine .inl fun hfirstZero => hzero ?_
      rw [← hoctet, hfirstZero]
      rfl

theorem bigEndian_naturalOctets (n : Nat) : Binary.bigEndian (StrictDer.naturalOctets n) = n :=
  Binary.bigEndian_writeBigEndian_of_log2 (by omega)

theorem length_lengthOctets {n : Nat} (h : n < lengthBound) (rest : List UInt8) :
    length (lengthOctets n ++ rest) = some (n, rest) := by
  simp only [length, bind_apply, lengthOrMark_lengthOctets h, Option.bind_some, pure_apply]

theorem Element.length_content_le (e : Element) : e.content.length ≤ e.octets.length := by
  simp only [octets, List.length_append]
  omega

theorem Element.length_content_lt {e : Element} (h : e.octets.length < lengthBound) :
    e.content.length < lengthBound :=
  Nat.lt_of_le_of_lt e.length_content_le h

theorem Element.octets_ne_nil (e : Element) : e.octets ≠ [] := by
  unfold octets Identifier.octets
  split <;> simp

theorem length_lt_of_append {octets more : List UInt8}
    (h : (octets ++ more).length < lengthBound) :
    octets.length < lengthBound ∧ more.length < lengthBound := by
  rw [List.length_append] at h
  omega

/-! ### What parsers take -/

section Reads

variable {α β : Type} {p : Parser α} {f : α → Parser β} {octets more : List UInt8} {a : α} {b : β}

/-- A parser takes octets for a value, and nothing of what follows. -/
def Reads (p : Parser α) (octets : List UInt8) (a : α) : Prop :=
  octets.length < lengthBound → ∀ rest, p (octets ++ rest) = some (a, rest)

/-- A parser takes octets for a value if nothing follows them. -/
def ReadsToEnd (p : Parser α) (octets : List UInt8) (a : α) : Prop :=
  octets.length < lengthBound → p octets = some (a, [])

theorem Reads.toEnd (h : Reads p octets a) : ReadsToEnd p octets a := fun hsize => by
  simpa using h hsize []

theorem reads_pure (a : α) : Reads (pure a) [] a := fun _ _ => rfl

/-- What follows a parser goes on behind what was read. -/
theorem Reads.bind (hp : Reads p octets a) (hf : Reads (f a) more b) :
    Reads (p >>= f) (octets ++ more) b := by
  intro hsize rest
  obtain ⟨hfirst, hsecond⟩ := length_lt_of_append hsize
  rw [List.append_assoc, bind_apply, hp hfirst, Option.bind_some, hf hsecond]

/-- A parser that only turns what was read into a value ends there. -/
theorem Reads.bind_eq_pure (hp : Reads p octets a) (hf : f a = pure b) :
    Reads (p >>= f) octets b := by
  have hread : Reads (p >>= f) (octets ++ []) b := hp.bind (hf ▸ reads_pure b)
  rwa [List.append_nil] at hread

theorem Reads.bindToEnd (hp : Reads p octets a) (hf : ReadsToEnd (f a) more b) :
    ReadsToEnd (p >>= f) (octets ++ more) b := by
  intro hsize
  obtain ⟨hfirst, hsecond⟩ := length_lt_of_append hsize
  rw [bind_apply, hp hfirst, Option.bind_some, hf hsecond]

theorem ReadsToEnd.bind (hp : ReadsToEnd p octets a) (hf : ReadsToEnd (f a) [] b) :
    ReadsToEnd (p >>= f) octets b := by
  intro hsize
  rw [bind_apply, hp hsize, Option.bind_some, hf (by decide)]

theorem Reads.possibly (h : Reads p octets a) : Reads (Der.possibly p) octets (some a) := by
  intro hsize rest
  rw [Der.possibly, h hsize]

/-- A value that is not there is passed over. -/
theorem readsToEnd_possibly_bind {f : Option α → Parser β} (hp : p octets = none)
    (h : ReadsToEnd (f none) octets b) : ReadsToEnd (Der.possibly p >>= f) octets b := by
  intro hsize
  rw [bind_apply, Der.possibly, hp, Option.bind_some, h hsize]

theorem readsToEnd_done : ReadsToEnd done [] () := fun _ => rfl

/-- Where octets follow, the end is not reached. -/
theorem readsToEnd_atEnd_bind {f : Bool → Parser β} (hne : octets ≠ [])
    (h : ReadsToEnd (f false) octets b) : ReadsToEnd (atEnd >>= f) octets b := by
  intro hsize
  have hend : atEnd octets = some (false, octets) := by simp [atEnd, hne]
  rw [bind_apply, hend, Option.bind_some, h hsize]

variable {e : Element} {tag : Nat}

theorem identifier_element (h : e.identifier.tag < tagBound) (rest : List UInt8) :
    identifier (e.octets ++ rest) =
      some (e.identifier, lengthOctets e.content.length ++ (e.content ++ rest)) := by
  rw [Element.octets, List.append_assoc, List.append_assoc, identifier_octets h]

/-- Elements are read as they are written. -/
theorem reads_element (h : e.identifier.tag < tagBound) : Reads element e.octets e := by
  intro hsize rest
  simp only [element, bind_apply, identifier_element h, Option.bind_some,
    length_lengthOctets (Element.length_content_lt hsize), bytes_append rfl, pure_apply]

/-- What takes the identifier and the length of an element apart goes on with the content. -/
theorem Reads.header_bind {f : Identifier → Length → Parser β} (htag : e.identifier.tag < tagBound)
    (h : Reads (f e.identifier (.definite e.content.length)) e.content b) :
    Reads (identifier >>= fun i => lengthOrMark >>= f i) e.octets b := by
  intro hsize rest
  have hcontent := Element.length_content_lt hsize
  rw [bind_apply, identifier_element htag, Option.bind_some, bind_apply,
    lengthOrMark_lengthOctets hcontent, Option.bind_some, h hcontent]

theorem ReadsToEnd.header_bind {f : Identifier → Nat → Parser β}
    (htag : e.identifier.tag < tagBound)
    (h : ReadsToEnd (f e.identifier e.content.length) e.content b) :
    ReadsToEnd (identifier >>= fun i => length >>= f i) e.octets b := by
  intro hsize
  have hcontent := Element.length_content_lt hsize
  rw [← List.append_nil e.octets, bind_apply, identifier_element htag, Option.bind_some, bind_apply,
    length_lengthOctets hcontent, Option.bind_some, List.append_nil, h hcontent]

theorem reads_tagged (h : e.identifier.tag < tagBound) :
    Reads (tagged e.identifier.tag) e.octets e := by
  intro hsize rest
  simp only [tagged, bind_apply, reads_element h hsize, Option.bind_some, if_true, pure_apply]

/-- An element is not taken for one of another tag. -/
theorem tagged_of_ne (h : e.identifier.tag < tagBound) (hne : e.identifier.tag ≠ tag)
    (hsize : e.octets.length < lengthBound) (rest : List UInt8) :
    tagged tag (e.octets ++ rest) = none := by
  simp only [tagged, bind_apply, reads_element h hsize, Option.bind_some, if_neg hne]
  rfl

/-- A parser of the content reads the element. -/
theorem ReadsToEnd.within (h : ReadsToEnd p e.content a) (htag : e.identifier.tag < tagBound) :
    Reads (within e.identifier.tag p) e.octets a := by
  intro hsize rest
  have hcontent : p e.content = some (a, []) :=
    h (Element.length_content_lt hsize)
  simp only [Der.within, bind_apply, reads_tagged htag hsize, Option.bind_some, StateT.run,
    hcontent]
  rfl

/-- Values that are written one after the other are read as many as there are. -/
theorem upTo_flatMap {γ : Type} {write : γ → List UInt8} {value : γ → α} (hend : p [] = none)
    (xs : List γ) (h : ∀ x ∈ xs, Reads p (write x) (value x)) {limit : Nat}
    (hlimit : xs.length ≤ limit) (hsize : (xs.flatMap write).length < lengthBound) :
    upTo p limit (xs.flatMap write) = some (xs.map value, []) := by
  induction xs generalizing limit with
  | nil =>
    cases limit with
    | zero => rfl
    | succ limit => simp only [upTo, List.flatMap_nil, bind_apply, possibly, hend]; rfl
  | cons x xs ih =>
    obtain ⟨limit, rfl⟩ : ∃ m, limit = m + 1 := ⟨limit - 1, by simp at hlimit; omega⟩
    obtain ⟨hxsize, hxssize⟩ := length_lt_of_append hsize
    have hfirst : p (write x ++ xs.flatMap write) = some (value x, xs.flatMap write) :=
      h x List.mem_cons_self hxsize _
    have hothers := ih (fun y hy => h y (List.mem_cons_of_mem x hy)) (by simpa using hlimit) hxssize
    simp only [upTo, List.flatMap_cons, bind_apply, possibly, hfirst, Option.bind_some, hothers]
    rfl

theorem readsToEnd_sequenceOf {γ : Type} {write : γ → List UInt8} {value : γ → α}
    (hend : p [] = none) {xs : List γ} (h : ∀ x ∈ xs, Reads p (write x) (value x)) :
    ReadsToEnd (sequenceOf p) (xs.flatMap write) (xs.map value) := by
  intro hsize
  -- a parser that fails on nothing takes an octet for each value
  have hnonempty : ∀ x ∈ xs, 1 ≤ (write x).length := by
    intro x hx
    refine List.length_pos_iff.mpr fun hnil => ?_
    have hread := h x hx (by rw [hnil]; decide) []
    rw [hnil, List.append_nil, hend] at hread
    cases hread
  have hlimit : xs.length ≤ (xs.flatMap write).length := by
    simpa using List.length_le_sum_of_one_le (xs.map fun x => (write x).length)
      (List.forall_mem_map.mpr hnonempty)
  exact upTo_flatMap hend xs h hlimit hsize

/-! ### Elements of the standard -/

theorem reads_primitive (h : tag < tagBound) (content : List UInt8) :
    Reads (tagged tag) (primitive tag content).octets (primitive tag content) :=
  reads_tagged (e := primitive tag content) h

/-- A parser of the content reads an element that is made of elements. -/
theorem ReadsToEnd.constructed {content : List UInt8} (h : ReadsToEnd p content a)
    (htag : tag < tagBound) : Reads (Der.within tag p) (Der.constructed tag content).octets a :=
  h.within (e := Der.constructed tag content) htag

theorem reads_objectId (id : List UInt8) : Reads objectId (primitive 6 id).octets id :=
  (reads_element (e := primitive 6 id) (show 6 < tagBound by decide)).bind_eq_pure rfl

theorem reads_natural {n limit : Nat} (h : n < limit) :
    Reads (natural limit) (primitive 2 (StrictDer.naturalOctets n)).octets n := by
  refine (reads_primitive (by decide) (StrictDer.naturalOctets n)).bind_eq_pure ?_
  simp [primitive, isNatural_naturalOctets, bigEndian_naturalOctets, h]

end Reads

end Der

end AccessControl
