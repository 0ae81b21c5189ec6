import AccessControl.Proofs.Encoding
import AccessControl.Proofs.Records
import AccessControl.Proofs.WellFormed

/-!
# What is listed and what holds

Whether a permission is held is decided by the key under which a record is kept; whoever lists the
privileges of a user is shown the record. Both come to the same as long as every record is kept
under its own key, as records are that were written one after the other.

Reading does not see to that. It takes whatever is there in the octets, so a set that was read may
hold what it does not list, and list what it does not hold or what revokes.

## Main definitions

* `PrivilegeSet.ListsWhatHolds` — a set lists the permissions that it holds, and could have been
  written record by record

## Main results

* `PrivilegeSet.Sound.ofList_records` — a sound set is written by its own records
* `PrivilegeSet.listsWhatHolds_iff` — the sound sets are those that list what holds
* `PrivilegeSection.decode_lists_what_holds` — which sets do so that are read from octets
-/

namespace AccessControl

namespace PrivilegeSet

variable {s : PrivilegeSet} {k : Privilege.Key}

/-- The set lists the permissions that it holds as GRANTs of just these, lists no record that
revokes, and could have been written record by record. -/
structure ListsWhatHolds (s : PrivilegeSet) : Prop where
  holds_iff : ∀ k : Privilege.Key, k.permission ≠ .dcl →
    (s.holds k = true ↔ ∃ record ∈ s.records, record.effect = .grant ∧ record.key = k)
  ne_revoke : ∀ record ∈ s.records, record.effect ≠ .revoke
  written : ∃ ps, s = .ofList ps

/-! ### Sets that are written record by record -/

theorem Sound.applyEach (h : s.Sound) (ps : List Privilege) : (s.applyEach ps).Sound := by
  induction ps generalizing s with
  | nil => exact h
  | cons p ps ih => exact ih (h.apply p)

theorem sound_ofList (ps : List Privilege) : (ofList ps).Sound := sound_empty.applyEach ps

/-- A record that does not revoke is left where nothing was kept. -/
theorem written_none {p : Privilege} (h : p.effect ≠ .revoke) : written p none = some p := by
  unfold written
  cases heffect : p.effect
  case revoke => exact absurd heffect h
  case grant | deny => rfl

/-- In a sound set, the records of a key are the one that is kept at it. -/
theorem Sound.filter_records (h : s.Sound) (k : Privilege.Key) :
    s.records.filter (·.key = k) = (s.get? k).toList := by
  have hkeys : ∀ e ∈ s.byKey.entries, decide (e.2.key = k) = decide (e.1 = k) := fun e he => by
    rw [(sound_iff.mp h e he).1]
  calc s.records.filter (·.key = k)
      = (s.byKey.entries.filter fun e => e.2.key = k).map (·.2) := List.filter_map ..
    _ = (s.byKey.entries.filter (·.1 = k)).map (·.2) := by rw [List.filter_congr hkeys]
    _ = (s.get? k).toList := by
      rw [SortedMap.filter_entries, get?]
      cases s.byKey.get? k <;> rfl

/-- A sound set is written by its own records. -/
theorem Sound.ofList_records (h : s.Sound) : ofList s.records = s := by
  refine ext_get? fun k => ?_
  have hwritten : (ofList s.records).get? k = _ := get?_applyEach empty s.records k
  rw [hwritten, h.filter_records]
  cases hk : s.get? k with
  | none => rfl
  | some record => exact written_none (h k record hk).2

/-! ### Listing -/

theorem holds_iff (hk : k.permission ≠ .dcl) :
    s.holds k = true ↔ ∃ record, s.get? k = some record ∧ record.effect = .grant := by
  simp [holds, hk, hasEffect_iff]

theorem Sound.holds_iff_mem_records (h : s.Sound) (hk : k.permission ≠ .dcl) :
    s.holds k = true ↔ ∃ record ∈ s.records, record.effect = .grant ∧ record.key = k := by
  rw [holds_iff hk]
  constructor
  · rintro ⟨record, hrecord, hgrant⟩
    exact ⟨record, mem_records_iff.mpr ⟨k, hrecord⟩, hgrant, (h k record hrecord).1⟩
  · rintro ⟨record, hmem, hgrant, rfl⟩
    -- the record is kept somewhere, and that is under its own key
    obtain ⟨k, hrecord⟩ := mem_records_iff.mp hmem
    rw [(h k record hrecord).1]
    exact ⟨record, hrecord, hgrant⟩

/-- The sound sets are those that list what holds. -/
theorem listsWhatHolds_iff : s.ListsWhatHolds ↔ s.Sound := by
  constructor
  · rintro ⟨-, -, ps, rfl⟩
    exact sound_ofList ps
  · intro h
    refine ⟨fun k hk => h.holds_iff_mem_records hk, fun record hmem => ?_, s.records,
      h.ofList_records.symm⟩
    obtain ⟨k, hrecord⟩ := mem_records_iff.mp hmem
    exact (h k record hrecord).2

end PrivilegeSet

namespace PrivilegeSection

/-- **What is read need not list what holds.** A set in a section that is read from octets lists
what holds, and could have been written record by record, if and only if each of its records stands
under its own key and none revokes. Reading does not check this. It is so if the octets were written
by a store that started empty, after whatever requests, and whatever stands behind them. -/
theorem decode_lists_what_holds {bytes : List UInt8} {m : PrivilegeSection}
    (h : PrivilegeSection.format.decode bytes = .ok m) :
    (∀ name s, m.get? name = some s → (s.ListsWhatHolds ↔ s.Sound)) ∧
    ∀ rs tail, (Store.new.run rs).metadata.privileges.Storable →
      bytes = PrivilegeSection.format.encode (Store.new.run rs).metadata.privileges ++ tail →
        ∀ name s, m.get? name = some s → s.ListsWhatHolds := by
  refine ⟨fun _ _ _ => PrivilegeSet.listsWhatHolds_iff, ?_⟩
  rintro rs tail hstorable rfl name s hs
  have hwritten := hstorable.restores.decode_encode tail
  obtain rfl := Except.ok.inj (h.symm.trans hwritten)
  have hwellFormed : (Store.new.run rs).metadata.WellFormed :=
    Store.wellFormed_run Metadata.wellFormed_empty rs
  exact PrivilegeSet.listsWhatHolds_iff.mpr (hwellFormed.sound hs)

/-- A user is granted reading and denied writing, and the octets are followed by more. -/
theorem decode_lists_what_holds_for_ford :
    let rs : List WriteRequest := [.createUser "ford", .applyPrivileges ["ford"]
      [⟨.grant, ⟨.dql, .cluster⟩, "crate"⟩, ⟨.deny, ⟨.dml, .table "doc.t"⟩, "crate"⟩]]
    let m := (Store.new.run rs).metadata.privileges
    let bytes := PrivilegeSection.format.encode m ++ [255, 0]
    m.Storable ∧ PrivilegeSection.format.decode bytes = .ok m ∧
      ∃ s, m.get? "ford" = some s ∧ s.records.length = 2 ∧ s.ListsWhatHolds := by
  intro rs m bytes
  have hstorable : m.Storable := by decide +kernel
  have hdecode := hstorable.restores.decode_encode [255, 0]
  have hlists := (decode_lists_what_holds hdecode).2 rs [255, 0] hstorable rfl
  have hford : (m.get? "ford").any (fun s => s.records.length = 2) = true := by decide +kernel
  obtain ⟨s, hs, hlength⟩ := (Option.any_eq_true ..).mp hford
  exact ⟨hstorable, hdecode, s, hs, of_decide_eq_true hlength, hlists "ford" s hs⟩

/-- A record about writing is read under the key for reading: its user may read, and is listed as
one who may write. A record that revokes is read, and is listed like the others. -/
theorem decode_lists_what_is_not_held :
    let reading : Privilege.Key := ⟨.dql, .cluster⟩
    let writing : Privilege.Key := ⟨.dml, .cluster⟩
    let defining : Privilege.Key := ⟨.ddl, .cluster⟩
    let s : PrivilegeSet := ⟨.ofList [(reading, ⟨.grant, writing, "crate"⟩),
      (defining, ⟨.revoke, defining, "crate"⟩)]⟩
    let m : PrivilegeSection := .ofList [("ford", s)]
    PrivilegeSection.format.decode (PrivilegeSection.format.encode m) = .ok m ∧
      m.get? "ford" = some s ∧
      s.holds reading = true ∧ s.holds writing = false ∧
      s.records = [⟨.grant, writing, "crate"⟩, ⟨.revoke, defining, "crate"⟩] ∧
      ¬ s.ListsWhatHolds := by
  intro reading writing defining s m
  have hstorable : m.Storable := by decide +kernel
  have hdecode := hstorable.restores.decode_encode []
  rw [List.append_nil] at hdecode
  have hsound : ¬ s.Sound := by decide +kernel
  exact ⟨hdecode, by decide +kernel, by decide +kernel, by decide +kernel, by decide +kernel,
    mt PrivilegeSet.listsWhatHolds_iff.mp hsound⟩

end PrivilegeSection

end AccessControl
