import AccessControl.Proofs.Encoding

/-!
# Only what is written is read

A format is strict if the octets that are read as a value are those that it writes for the value.
Each way to build a format from strict ones is strict, but for sets and maps, which are read in any
order: every tag has one octet for each meaning, every number of a case counts, and a text is read
from its shortest form. What is read has lengths that can be written, since they were read as such.

## Main definitions

* `Binary.Format.Strict` — whatever is read is what would be written for it

## Main results

* `Binary.word_eq_ok` — a number is read from its own octets
* `Binary.Format.strict_text`, `Binary.Format.Strict.list`, `Binary.Format.Strict.convert`, … — the
  ways to build a strict format
* `WriteRequest.strict_format` — the format of write requests is strict
-/

namespace AccessControl

namespace Binary

variable {α β : Type} {bytes rest : List UInt8}

theorem Reader.pure_eq_ok {a b : α} (h : (pure a : Reader α) bytes = .ok (b, rest)) :
    a = b ∧ bytes = rest :=
  Prod.mk.inj (Except.ok.inj h)

theorem byte_eq_ok {b : UInt8} (h : byte bytes = .ok (b, rest)) : bytes = b :: rest := by
  cases bytes with
  | nil => cases h
  | cons first bytes =>
    obtain ⟨rfl, rfl⟩ := Prod.mk.inj (Except.ok.inj h)
    rfl

/-- A number is read from its own octets. -/
theorem word_eq_ok {width n : Nat} (h : word width bytes = .ok (n, rest)) :
    bytes = writeWord width n ++ rest ∧ n < capacity width := by
  induction width generalizing n bytes with
  | zero =>
    obtain ⟨rfl, rfl⟩ := Reader.pure_eq_ok h
    exact ⟨rfl, Nat.one_pos⟩
  | succ width ih =>
    obtain ⟨low, left, hlow, h⟩ := Reader.bind_eq_ok h
    obtain ⟨high, left', hhigh, h⟩ := Reader.bind_eq_ok h
    obtain ⟨rfl, rfl⟩ := Reader.pure_eq_ok h
    obtain ⟨rfl, hcapacity⟩ := ih hhigh
    have hlt : low.toNat < 256 := low.toNat_lt
    have hdiv : (low.toNat + 256 * high) / 256 = high := by omega
    have hmod : (low.toNat + 256 * high).toUInt8 = low := by
      rw [← UInt8.toNat_inj, UInt8.toNat_ofNat']
      omega
    refine ⟨?_, by rw [capacity]; omega⟩
    rw [byte_eq_ok hlow, writeWord, hdiv, hmod, List.cons_append]

theorem textBytes_eq_ok {n : Nat} {octets : List UInt8}
    (h : textBytes n bytes = .ok (octets, rest)) : bytes = octets ++ rest ∧ octets.length = n := by
  unfold textBytes at h
  split at h
  · cases h
  · next hlength =>
    obtain ⟨rfl, rfl⟩ := Prod.mk.inj (Except.ok.inj h)
    exact ⟨(List.take_append_drop ..).symm, by rw [List.length_take]; omega⟩

namespace Format

variable {f : Format α} {g : Format β} {P : α → Prop} {Q : β → Prop}

/-- Whatever is read is what would be written for it, and is as `P` says. -/
structure Strict (f : Format α) (P : α → Prop) : Prop where
  read_eq_ok {bytes rest : List UInt8} {a : α} (h : f.read bytes = .ok (a, rest)) :
    bytes = f.write a ++ rest ∧ P a

/-! ### The ways to build a format -/

theorem strict_bool : bool.Strict fun _ => True where
  read_eq_ok h := by
    obtain ⟨tag, left, htag, hread⟩ := Reader.bind_eq_ok h
    rw [byte_eq_ok htag]
    split at hread
    · next hzero =>
      obtain ⟨rfl, rfl⟩ := Reader.pure_eq_ok hread
      exact ⟨by rw [hzero]; rfl, trivial⟩
    split at hread
    · next hone =>
      obtain ⟨rfl, rfl⟩ := Reader.pure_eq_ok hread
      exact ⟨by rw [hone]; rfl, trivial⟩
    · cases hread

theorem strict_text : text.Strict Text.Storable where
  read_eq_ok h := by
    obtain ⟨n, left, hn, hread⟩ := Reader.bind_eq_ok h
    obtain ⟨octets, left', hoctets, htext⟩ := Reader.bind_eq_ok hread
    obtain ⟨rfl, hlength⟩ := word_eq_ok hn
    obtain ⟨rfl, rfl⟩ := textBytes_eq_ok hoctets
    cases hs : Utf8.decode octets with
    | error e =>
      simp only [hs] at htext
      cases htext
    | ok s =>
      simp only [hs] at htext
      obtain ⟨rfl, rfl⟩ := Reader.pure_eq_ok htext
      obtain rfl : Utf8.encode s = octets := Utf8.encode_of_decode hs
      exact ⟨(List.append_assoc ..).symm, hlength⟩

theorem Strict.option (hf : f.Strict P) : (option f).Strict fun o => ∀ a ∈ o, P a where
  read_eq_ok h := by
    obtain ⟨tag, left, htag, hread⟩ := Reader.bind_eq_ok h
    rw [byte_eq_ok htag]
    split at hread
    · next hzero =>
      obtain ⟨rfl, rfl⟩ := Reader.pure_eq_ok hread
      exact ⟨by rw [hzero]; rfl, nofun⟩
    split at hread
    · next hone =>
      obtain ⟨a, left', ha, hread⟩ := Reader.bind_eq_ok hread
      obtain ⟨rfl, rfl⟩ := Reader.pure_eq_ok hread
      obtain ⟨rfl, hP⟩ := hf.read_eq_ok ha
      exact ⟨by rw [hone]; rfl, by simpa using hP⟩
    · cases hread

theorem Strict.pair (hf : f.Strict P) (hg : g.Strict Q) :
    (pair f g).Strict fun p => P p.1 ∧ Q p.2 where
  read_eq_ok h := by
    obtain ⟨a, left, ha, hread⟩ := Reader.bind_eq_ok h
    obtain ⟨b, left', hb, hread⟩ := Reader.bind_eq_ok hread
    obtain ⟨rfl, rfl⟩ := Reader.pure_eq_ok hread
    obtain ⟨rfl, hP⟩ := hf.read_eq_ok ha
    obtain ⟨rfl, hQ⟩ := hg.read_eq_ok hb
    exact ⟨(List.append_assoc ..).symm, hP, hQ⟩

/-- Items that are read one after the other are those that would be written there. -/
theorem Strict.many (hf : f.Strict P) {n : Nat} {xs : List α}
    (h : many f.read n bytes = .ok (xs, rest)) :
    bytes = xs.flatMap f.write ++ rest ∧ xs.length = n ∧ ∀ x ∈ xs, P x := by
  induction n generalizing bytes xs with
  | zero =>
    obtain ⟨rfl, rfl⟩ := Reader.pure_eq_ok h
    exact ⟨rfl, rfl, nofun⟩
  | succ n ih =>
    obtain ⟨x, left, hx, hread⟩ := Reader.bind_eq_ok h
    obtain ⟨ys, left', hys, hread⟩ := Reader.bind_eq_ok hread
    obtain ⟨rfl, rfl⟩ := Reader.pure_eq_ok hread
    obtain ⟨rfl, hP⟩ := hf.read_eq_ok hx
    obtain ⟨rfl, hlength, hall⟩ := ih hys
    refine ⟨?_, congrArg (· + 1) hlength, List.forall_mem_cons.mpr ⟨hP, hall⟩⟩
    rw [List.flatMap_cons, List.append_assoc]

theorem Strict.list (hf : f.Strict P) :
    (list f).Strict fun xs => IsLength xs.length ∧ ∀ x ∈ xs, P x where
  read_eq_ok h := by
    obtain ⟨n, left, hn, hread⟩ := Reader.bind_eq_ok h
    obtain ⟨hbytes, hlength⟩ := word_eq_ok hn
    obtain ⟨rfl, rfl, hall⟩ := hf.many hread
    exact ⟨hbytes.trans (List.append_assoc ..).symm, hlength, hall⟩

/-- The numbers of the cases are told apart. -/
theorem strict_cases [DecidableEq α] {all : List α} (hall : all.Nodup) :
    (cases all).Strict fun _ => True where
  read_eq_ok {bytes rest a} h := by
    obtain ⟨n, left, hn, hread⟩ := Reader.bind_eq_ok h
    cases ha : all[n]? with
    | none =>
      simp only [ha] at hread
      cases hread
    | some x =>
      simp only [ha] at hread
      obtain ⟨rfl, rfl⟩ := Reader.pure_eq_ok hread
      obtain ⟨hlt, rfl⟩ := List.getElem?_eq_some_iff.mp ha
      have hindex : all.idxOf all[n] = n := hall.idxOf_getElem n hlt
      refine ⟨?_, trivial⟩
      show bytes = writeWord caseWidth (all.idxOf all[n]) ++ left
      rw [hindex, (word_eq_ok hn).1]

theorem Strict.convert {forth : α → β} {back : β → α} (hf : f.Strict P)
    (hback : ∀ a, back (forth a) = a) (hforth : ∀ a, P a → Q (forth a)) :
    (f.convert forth back).Strict Q where
  read_eq_ok {bytes rest b} h := by
    obtain ⟨a, left, ha, hread⟩ := Reader.bind_eq_ok h
    obtain ⟨rfl, rfl⟩ := Reader.pure_eq_ok hread
    obtain ⟨hbytes, hP⟩ := hf.read_eq_ok ha
    refine ⟨?_, hforth a hP⟩
    show bytes = f.write (back (forth a)) ++ left
    rw [hback, hbytes]

/-- Fields that are read behind the number of their case are those that would be written there. -/
theorem Strict.fields (hf : f.Strict P) (build : α → β) {b : β}
    (h : (do return build (← f.read) : Reader β) bytes = .ok (b, rest)) :
    ∃ a, b = build a ∧ bytes = f.write a ++ rest ∧ P a := by
  obtain ⟨a, left, ha, hread⟩ := Reader.bind_eq_ok h
  obtain ⟨rfl, rfl⟩ := Reader.pure_eq_ok hread
  exact ⟨a, rfl, hf.read_eq_ok ha⟩

end Format

end Binary

/-! ### The metadata -/

open Binary Binary.Format

theorem Privilege.Key.strict_format : Key.format.Strict Key.Storable :=
  have hpermission : (cases Permission.all).Strict fun _ => True := strict_cases (by decide)
  have hlevel : (cases Level.all).Strict fun _ => True := strict_cases (by decide)
  (hpermission.pair (hlevel.pair strict_text.option)).convert (fun _ => rfl) fun _ h => h.2.2

theorem Privilege.strict_format : Privilege.format.Strict Privilege.Storable :=
  have heffect : (cases Effect.all).Strict fun _ => True := strict_cases (by decide)
  (heffect.pair (Key.strict_format.pair strict_text)).convert (fun _ => rfl) fun _ h => h.2

/-- Write requests are read from nothing but what is written for them. -/
theorem WriteRequest.strict_format : WriteRequest.format.Strict WriteRequest.Storable where
  read_eq_ok h := by
    obtain ⟨number, left, hnumber, hread⟩ := Reader.bind_eq_ok h
    obtain ⟨rfl, -⟩ := word_eq_ok hnumber
    have hdrop := strict_text.pair strict_bool
    have happly := strict_text.list.pair Privilege.strict_format.list
    -- each kind of request has its own number and its own fields
    split at hread
    · obtain ⟨name, rfl, rfl, hname⟩ := strict_text.fields createUser hread
      exact ⟨(List.append_assoc ..).symm, hname⟩
    · obtain ⟨p, rfl, rfl, hname, -⟩ := hdrop.fields (fun p => dropUser p.1 p.2) hread
      exact ⟨(List.append_assoc ..).symm, hname⟩
    · obtain ⟨p, rfl, rfl, hfields⟩ := happly.fields (fun p => applyPrivileges p.1 p.2) hread
      exact ⟨(List.append_assoc ..).symm, hfields⟩
    · cases hread

end AccessControl
