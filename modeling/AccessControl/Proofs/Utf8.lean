import AccessControl.Text.Utf8

/-!
# UTF-8 is read back, from nothing else

A character takes up to four octets. The first one tells how many there are, and bounds the second
one where the shortest form or the range of characters calls for it; the others carry six bits each.
So whatever the characters of a text are written as, they are what is read, and no other octets are
read as them.

The first octet is higher for a character of more octets, and the most significant bits come first.
So texts are ordered in the same way by their characters and by their octets.

## Main results

* `Utf8.isTail_iff`, `Utf8.isSecond_iff` — which octets may follow another, as numbers
* `Utf8.decodeFrom_encodeChar` — the octets of a character are read as that character
* `Utf8.decode_encode` — the octets of a text are read as that text
* `Utf8.encode_of_decode` — only the octets of a text are read as that text
* `Utf8.encode_lt_encode_iff` — texts are ordered as their octets are
-/

namespace AccessControl.Utf8

variable {a b c d : UInt8}

/-! ### Octets as numbers -/

theorem isTail_iff : isTail b = true ↔ 0x80 ≤ b.toNat ∧ b.toNat ≤ 0xBF := by
  simp [isTail, UInt8.le_iff_toNat_le]

/-- What may follow the lead octet of a character of three or four octets. -/
theorem isSecond_iff :
    isSecond a b = true ↔ 0x80 ≤ b.toNat ∧ b.toNat ≤ 0xBF ∧
      (a.toNat = 0xE0 → 0xA0 ≤ b.toNat) ∧ (a.toNat = 0xED → b.toNat ≤ 0x9F) ∧
      (a.toNat = 0xF0 → 0x90 ≤ b.toNat) ∧ (a.toNat = 0xF4 → b.toNat ≤ 0x8F) := by
  unfold isSecond
  simp only [← UInt8.toNat_inj]
  repeat' split
  all_goals
    simp [isTail, UInt8.le_iff_toNat_le] at *
    omega

/-! ### Characters of each length -/

section Lengths

variable (index : Nat) (rest : List UInt8)

theorem decodeFrom_one (ha : a.toNat < 0x80) :
    decodeFrom index (a :: rest) =
      (decodeFrom (index + 1) rest).map (Char.ofNat a.toNat :: ·) := by
  rw [decodeFrom.eq_def]
  exact if_pos (UInt8.lt_iff_toNat_lt.mpr ha)

theorem decodeFrom_two (hlow : 0xC2 ≤ a.toNat) (hhigh : a.toNat ≤ 0xDF) (hb : isTail b = true) :
    decodeFrom index (a :: b :: rest) =
      (decodeFrom (index + 2) rest).map
        (Char.ofNat (a.toNat % 32 * 64 + tailBits b) :: ·) := by
  have hone : ¬ a.toNat < 0x80 := by omega
  rw [decodeFrom.eq_def]
  simp [UInt8.lt_iff_toNat_lt, UInt8.le_iff_toNat_le, hone, hlow, hhigh, hb]

theorem decodeFrom_three (hlow : 0xE0 ≤ a.toNat) (hhigh : a.toNat ≤ 0xEF)
    (hb : isSecond a b = true) (hc : isTail c = true) :
    decodeFrom index (a :: b :: c :: rest) =
      (decodeFrom (index + 3) rest).map
        (Char.ofNat ((a.toNat % 16 * 64 + tailBits b) * 64 + tailBits c) :: ·) := by
  have hone : ¬ a.toNat < 0x80 := by omega
  have htwo : ¬ a.toNat ≤ 0xDF := by omega
  rw [decodeFrom.eq_def]
  simp [UInt8.lt_iff_toNat_lt, UInt8.le_iff_toNat_le, hone, htwo, hlow, hhigh, hb, hc]

theorem decodeFrom_four (hlow : 0xF0 ≤ a.toNat) (hhigh : a.toNat ≤ 0xF4)
    (hb : isSecond a b = true) (hc : isTail c = true) (hd : isTail d = true) :
    decodeFrom index (a :: b :: c :: d :: rest) =
      (decodeFrom (index + 4) rest).map
        (Char.ofNat (((a.toNat % 8 * 64 + tailBits b) * 64 + tailBits c) * 64 + tailBits d) ::
          ·) := by
  have hone : ¬ a.toNat < 0x80 := by omega
  have htwo : ¬ a.toNat ≤ 0xDF := by omega
  have hthree : ¬ a.toNat ≤ 0xEF := by omega
  rw [decodeFrom.eq_def]
  simp [UInt8.lt_iff_toNat_lt, UInt8.le_iff_toNat_le, hone, htwo, hthree, hlow, hhigh, hb, hc, hd]

end Lengths

/-! ### Texts -/

/-- The octet of six bits after the first octet of a character. -/
theorem toNat_tail (n : Nat) : (UInt8.ofNat (n % 64 + 128)).toNat = n % 64 + 128 := by
  rw [UInt8.toNat_ofNat']
  omega

theorem isTail_ofNat (n : Nat) : isTail (UInt8.ofNat (n % 64 + 128)) = true := by
  rw [isTail_iff, toNat_tail]
  omega

theorem tailBits_ofNat (n : Nat) : tailBits (UInt8.ofNat (n % 64 + 128)) = n % 64 := by
  rw [tailBits, toNat_tail]
  omega

/-- The octets of a character are read as that character. -/
theorem decodeFrom_encodeChar (index : Nat) (x : Char) (rest : List UInt8) :
    decodeFrom index (String.utf8EncodeChar x ++ rest) =
      (decodeFrom (index + (String.utf8EncodeChar x).length) rest).map (x :: ·) := by
  obtain ⟨n, hn⟩ : ∃ n, x.val.toNat = n := ⟨_, rfl⟩
  have hx : x = Char.ofNat n := by rw [← hn]; exact (Char.ofNat_toNat x).symm
  -- the code of a character is below the surrogates, or above them and in range
  have hvalid : n < 0xD800 ∨ 0xDFFF < n ∧ n < 0x110000 := hn ▸ x.valid
  unfold String.utf8EncodeChar
  simp only [hn]
  -- the number of octets goes by the code, and so do the bounds of the second one
  split
  · next h =>
    have ha : (UInt8.ofNat n).toNat = n := by
      rw [UInt8.toNat_ofNat']
      omega
    have hread := decodeFrom_one index rest (a := UInt8.ofNat n) (by omega)
    rw [ha, ← hx] at hread
    exact hread
  split
  · next h₁ h₂ =>
    have ha : (UInt8.ofNat (n / 64 % 32 + 192)).toNat = n / 64 + 192 := by
      rw [UInt8.toNat_ofNat']
      omega
    have hcode : (n / 64 + 192) % 32 * 64 + n % 64 = n := by omega
    have hread := decodeFrom_two index rest (a := UInt8.ofNat (n / 64 % 32 + 192)) (by omega)
      (by omega) (isTail_ofNat n)
    rw [tailBits_ofNat, ha, hcode, ← hx] at hread
    exact hread
  split
  · next h₁ h₂ h₃ =>
    have ha : (UInt8.ofNat (n / 4096 % 16 + 224)).toNat = n / 4096 + 224 := by
      rw [UInt8.toNat_ofNat']
      omega
    have hb : isSecond (UInt8.ofNat (n / 4096 % 16 + 224)) (UInt8.ofNat (n / 64 % 64 + 128)) =
        true := by
      rw [isSecond_iff, ha, toNat_tail]
      omega
    have hcode : ((n / 4096 + 224) % 16 * 64 + n / 64 % 64) * 64 + n % 64 = n := by omega
    have hread := decodeFrom_three index rest (by omega) (by omega) hb (isTail_ofNat n)
    rw [tailBits_ofNat, tailBits_ofNat, ha, hcode, ← hx] at hread
    exact hread
  · next h₁ h₂ h₃ =>
    have ha : (UInt8.ofNat (n / 262144 % 8 + 240)).toNat = n / 262144 + 240 := by
      rw [UInt8.toNat_ofNat']
      omega
    have hb : isSecond (UInt8.ofNat (n / 262144 % 8 + 240)) (UInt8.ofNat (n / 4096 % 64 + 128)) =
        true := by
      rw [isSecond_iff, ha, toNat_tail]
      omega
    have hcode : (((n / 262144 + 240) % 8 * 64 + n / 4096 % 64) * 64 + n / 64 % 64) * 64 +
        n % 64 = n := by omega
    have hread := decodeFrom_four index rest (by omega) (by omega) hb (isTail_ofNat (n / 64))
      (isTail_ofNat n)
    rw [tailBits_ofNat, tailBits_ofNat, tailBits_ofNat, ha, hcode, ← hx] at hread
    exact hread

/-- The octets of some characters are read as those characters. -/
theorem decodeFrom_flatMap_encodeChar (index : Nat) (cs : List Char) :
    decodeFrom index (cs.flatMap String.utf8EncodeChar) = .ok cs := by
  induction cs generalizing index with
  | nil => rfl
  | cons c cs ih =>
    rw [List.flatMap_cons, decodeFrom_encodeChar, ih]
    rfl

/-- The octets of a text are read as that text. -/
theorem decode_encode (s : String) : decode (encode s) = .ok s := by
  rw [decode, encode, decodeFrom_flatMap_encodeChar]
  exact congrArg Except.ok String.ofList_toList

/-! ### Characters from their octets -/

/-- The code of a character that its octets give. -/
theorem toNat_ofNat_of_valid {n : Nat} (h : n.isValidChar) : (Char.ofNat n).val.toNat = n := by
  rw [Char.ofNat, dif_pos h]
  exact UInt32.toNat_ofNatLT ..

theorem encodeChar_one {n : Nat} (ha : a.toNat < 0x80) (hn : n = a.toNat) :
    String.utf8EncodeChar (Char.ofNat n) = [a] := by
  have hcode := toNat_ofNat_of_valid (n := n) (by left; omega)
  unfold String.utf8EncodeChar
  simp only [hcode]
  rw [if_pos (by omega), hn, UInt8.ofNat_toNat]

theorem encodeChar_two {n : Nat} (hlow : 0xC2 ≤ a.toNat) (hhigh : a.toNat ≤ 0xDF)
    (hb : isTail b = true) (hn : n = a.toNat % 32 * 64 + tailBits b) :
    String.utf8EncodeChar (Char.ofNat n) = [a, b] := by
  rw [isTail_iff] at hb
  unfold tailBits at hn
  have hcode := toNat_ofNat_of_valid (n := n) (by left; omega)
  unfold String.utf8EncodeChar
  simp only [hcode]
  rw [if_neg (by omega), if_pos (by omega)]
  simp only [List.cons.injEq, ← UInt8.toNat_inj, UInt8.toNat_ofNat', and_true]
  omega

theorem encodeChar_three {n : Nat} (hlow : 0xE0 ≤ a.toNat) (hhigh : a.toNat ≤ 0xEF)
    (hb : isSecond a b = true) (hc : isTail c = true)
    (hn : n = (a.toNat % 16 * 64 + tailBits b) * 64 + tailBits c) :
    String.utf8EncodeChar (Char.ofNat n) = [a, b, c] := by
  rw [isSecond_iff] at hb
  rw [isTail_iff] at hc
  unfold tailBits at hn
  have hcode := toNat_ofNat_of_valid (n := n) (by unfold Nat.isValidChar; omega)
  unfold String.utf8EncodeChar
  simp only [hcode]
  rw [if_neg (by omega), if_neg (by omega), if_pos (by omega)]
  simp only [List.cons.injEq, ← UInt8.toNat_inj, UInt8.toNat_ofNat', and_true]
  omega

theorem encodeChar_four {n : Nat} (hlow : 0xF0 ≤ a.toNat) (hhigh : a.toNat ≤ 0xF4)
    (hb : isSecond a b = true) (hc : isTail c = true) (hd : isTail d = true)
    (hn : n = ((a.toNat % 8 * 64 + tailBits b) * 64 + tailBits c) * 64 + tailBits d) :
    String.utf8EncodeChar (Char.ofNat n) = [a, b, c, d] := by
  rw [isSecond_iff] at hb
  rw [isTail_iff] at hc hd
  unfold tailBits at hn
  have hcode := toNat_ofNat_of_valid (n := n) (by unfold Nat.isValidChar; omega)
  unfold String.utf8EncodeChar
  simp only [hcode]
  rw [if_neg (by omega), if_neg (by omega), if_neg (by omega)]
  simp only [List.cons.injEq, ← UInt8.toNat_inj, UInt8.toNat_ofNat', and_true]
  omega

theorem map_cons_eq_ok {α : Type} {e : Except Error (List α)} {x : α} {xs : List α}
    (h : e.map (x :: ·) = .ok xs) : ∃ ys, e = .ok ys ∧ xs = x :: ys := by
  cases e with
  | error _ => cases h
  | ok ys => exact ⟨ys, rfl, (Except.ok.inj h).symm⟩

/-- Octets from which a character is read are those of the character, and more. -/
theorem decodeFrom_eq_ok_cons {index : Nat} {first : UInt8} {bytes : List UInt8} {cs : List Char}
    (h : decodeFrom index (first :: bytes) = .ok cs) :
    ∃ x rest xs, first :: bytes = String.utf8EncodeChar x ++ rest ∧ cs = x :: xs ∧
      decodeFrom (index + (String.utf8EncodeChar x).length) rest = .ok xs := by
  have hread {x : Char} {octets rest : List UInt8} (hx : String.utf8EncodeChar x = octets)
      (hrest : (decodeFrom (index + octets.length) rest).map (x :: ·) = .ok cs) :
      ∃ x' rest' xs, octets ++ rest = String.utf8EncodeChar x' ++ rest' ∧ cs = x' :: xs ∧
        decodeFrom (index + (String.utf8EncodeChar x').length) rest' = .ok xs := by
    obtain ⟨xs, hxs, hcs⟩ := map_cons_eq_ok hrest
    exact ⟨x, rest, xs, by rw [hx], hcs, by rw [hx, hxs]⟩
  rw [decodeFrom.eq_def] at h
  simp only [UInt8.lt_iff_toNat_lt, UInt8.le_iff_toNat_le, Bool.and_eq_true, decide_eq_true_eq] at h
  -- the first octet tells how many belong to the character
  split at h
  · next ha => exact hread (encodeChar_one ha rfl) h
  split at h
  · next ha =>
    split at h
    · cases h
    · next b rest =>
      split at h
      · next hb => exact hread (encodeChar_two ha.1 ha.2 hb rfl) h
      · cases h
  split at h
  · next ha =>
    split at h
    · cases h
    · next b rest =>
      split at h
      · next hb =>
        split at h
        · cases h
        · next c rest =>
          split at h
          · next hc => exact hread (encodeChar_three ha.1 ha.2 hb hc rfl) h
          · cases h
      · cases h
  split at h
  · next ha =>
    split at h
    · cases h
    · next b rest =>
      split at h
      · next hb =>
        split at h
        · cases h
        · next c rest =>
          split at h
          · next hc =>
            split at h
            · cases h
            · next d rest =>
              split at h
              · next hd => exact hread (encodeChar_four ha.1 ha.2 hb hc hd rfl) h
              · cases h
          · cases h
      · cases h
  · cases h

/-- Octets from which some characters are read are those of the characters. -/
theorem flatMap_encodeChar_of_decodeFrom {index : Nat} {bytes : List UInt8} {cs : List Char}
    (h : decodeFrom index bytes = .ok cs) : cs.flatMap String.utf8EncodeChar = bytes := by
  induction hlength : bytes.length using Nat.strongRecOn generalizing index bytes cs with
  | ind n ih =>
    cases bytes with
    | nil =>
      obtain rfl : [] = cs := Except.ok.inj h
      rfl
    | cons first bytes =>
      obtain ⟨x, rest, xs, hbytes, rfl, hrest⟩ := decodeFrom_eq_ok_cons h
      have hshorter : rest.length < n := by
        have hx : 0 < (String.utf8EncodeChar x).length :=
          List.length_pos_iff.mpr String.utf8EncodeChar_ne_nil
        have hsum := congrArg List.length hbytes
        rw [List.length_append] at hsum
        omega
      rw [List.flatMap_cons, ih _ hshorter hrest rfl, hbytes]

/-- Only the octets of a text are read as that text. -/
theorem encode_of_decode {bytes : List UInt8} {s : String} (h : decode bytes = .ok s) :
    encode s = bytes := by
  unfold decode at h
  cases hread : decodeFrom 0 bytes with
  | error e => rw [hread] at h; cases h
  | ok cs =>
    rw [hread] at h
    obtain rfl : String.ofList cs = s := Except.ok.inj h
    rw [encode, String.toList_ofList, flatMap_encodeChar_of_decodeFrom hread]

/-! ### The order of texts -/

/-- Of two numbers, the lower one has the lower digits, the first digit that differs deciding. -/
theorem digits_lt {n m : Nat} (h : n < m) :
    n / 262144 < m / 262144 ∨ n / 262144 = m / 262144 ∧
      (n / 4096 % 64 < m / 4096 % 64 ∨ n / 4096 % 64 = m / 4096 % 64 ∧
        (n / 64 % 64 < m / 64 % 64 ∨ n / 64 % 64 = m / 64 % 64 ∧ n % 64 < m % 64)) := by
  have hlast {n m : Nat} (h : n < m) : n / 64 < m / 64 ∨ n / 64 = m / 64 ∧ n % 64 < m % 64 := by
    omega
  have hdigits (k : Nat) : k / 4096 = k / 64 / 64 ∧ k / 262144 = k / 64 / 64 / 64 := by omega
  rw [(hdigits n).1, (hdigits n).2, (hdigits m).1, (hdigits m).2]
  rcases hlast h with h | ⟨hsame, h⟩
  · rcases hlast h with h | ⟨hsame, h⟩
    · rcases hlast h with h | ⟨hsame, h⟩
      · exact .inl h
      · exact .inr ⟨hsame, .inl h⟩
    · rw [hsame]
      exact .inr ⟨rfl, .inr ⟨rfl, .inl h⟩⟩
  · rw [hsame]
    exact .inr ⟨rfl, .inr ⟨rfl, .inr ⟨rfl, h⟩⟩⟩

/-- Of two characters, the one with the lower code has the lower octets, whatever follows them. -/
theorem encodeChar_append_lt {x y : Char} (h : x < y) (as bs : List UInt8) :
    String.utf8EncodeChar x ++ as < String.utf8EncodeChar y ++ bs := by
  obtain ⟨n, hn⟩ : ∃ n, x.val.toNat = n := ⟨_, rfl⟩
  obtain ⟨m, hm⟩ : ∃ m, y.val.toNat = m := ⟨_, rfl⟩
  have hlt : n < m := hn ▸ hm ▸ UInt32.lt_iff_toNat_lt.mp h
  have hmax : m < 0x110000 := by
    have hvalid := y.valid
    unfold UInt32.isValidChar Nat.isValidChar at hvalid
    omega
  have hdigits := digits_lt hlt
  have hlead {k : Nat} (hk : k < 0x110000) : k / 262144 % 8 = k / 262144 :=
    Nat.mod_eq_of_lt (by omega)
  unfold String.utf8EncodeChar
  simp only [hn, hm, hlead hmax, hlead (Nat.lt_trans hlt hmax)]
  -- more octets begin with a higher one, and as many octets carry the digits to the base 64
  repeat' split
  all_goals
    simp only [List.cons_append, List.nil_append, List.cons_lt_cons_iff, UInt8.lt_iff_toNat_lt,
      ← UInt8.toNat_inj, toNat_tail, UInt8.toNat_ofNat']
    simp (disch := omega) only [Nat.mod_eq_of_lt (b := 2 ^ 8)]
    omega

theorem flatMap_encodeChar_lt {cs ds : List Char} (h : cs < ds) :
    cs.flatMap String.utf8EncodeChar < ds.flatMap String.utf8EncodeChar := by
  induction h with
  | @nil d ds =>
    obtain ⟨b, octets, hd⟩ := List.exists_cons_of_ne_nil (String.utf8EncodeChar_ne_nil (c := d))
    rw [List.flatMap_cons, hd]
    exact List.nil_lt_cons ..
  | rel h => exact encodeChar_append_lt h _ _
  | cons _ ih => exact List.append_left_lt ih

/-- Texts are ordered as their octets are. -/
theorem encode_lt_encode_iff {s t : String} : encode s < encode t ↔ s < t := by
  refine ⟨fun h => ?_, fun h => flatMap_encodeChar_lt h⟩
  rcases Std.lt_trichotomy s t with hlt | rfl | hgt
  · exact hlt
  · exact absurd h (List.lt_irrefl _)
  · exact absurd h (List.lt_asymm (flatMap_encodeChar_lt hgt))

theorem compare_eq_lt_iff {s t : String} : compare s t = .lt ↔ encode s < encode t := by
  rw [encode_lt_encode_iff]
  exact compareOfLessAndEq_eq_lt

end AccessControl.Utf8
