import AccessControl.Config
import AccessControl.Proofs.Trimming
import Mathlib.Data.Option.Basic

/-!
# Exactly the well-formed settings are loaded

A configuration is loaded from three variables, which may be unset or hold any text. This file says
what the texts mean without saying how they are read: the blanks around a value are no part of it, a
word may be written in letters of either case, and a schema is a name without a dot. A configuration
is loaded exactly if the first two variables mean something, and it is what they mean; otherwise the
first of them that means nothing is blamed, with its value as it was found. So authentication is off
only where somebody has said so, and a default schema is never taken that the names in it could not
be told apart from.

## Main definitions

* `Config.Answers`, `Config.NamesSchema` — what a value means for authentication and for the schema
* `Config.Settled` — what a variable comes to that may be unset
* `Config.Misunderstood` — a variable with a value that means nothing
* `Config.Respells` — the same settings, written with other blanks and letters

## Main results

* `Config.load_eq_ok_iff_settled` — what is loaded
* `Config.load_eq_error_iff` — which variable is blamed
* `Config.load_exact` — all that can come of loading
-/

namespace AccessControl

namespace Config

/-! ### What the values mean -/

/-- The answer that a value gives to whether clients authenticate. -/
inductive Answers (value : String) : Bool → Prop where
  | yes {word : String} (h : Text.TrimsTo value word)
      (hword : Text.lower word ∈ ["true", "1", "on", "yes"]) : Answers value true
  | no {word : String} (h : Text.TrimsTo value word)
      (hword : Text.lower word ∈ ["false", "0", "off", "no"]) : Answers value false

/-- The schema that a value names. -/
structure NamesSchema (value schema : String) : Prop where
  trimsTo : Text.TrimsTo value schema
  nonempty : schema ≠ ""
  undotted : '.' ∉ schema.toList

/-- What a variable comes to: what its value means, or `unset` where there is none. -/
inductive Settled {α : Type} (means : String → α → Prop) (unset : α) :
    Option String → α → Prop where
  | unset : Settled means unset none unset
  | set {value : String} {a : α} (h : means value a) : Settled means unset (some value) a

/-- An error about the variable `name`, whose value means nothing. -/
structure Misunderstood {α : Type} (means : String → α → Prop) (lookup : String → Option String)
    (name : String) (e : ConfigError) : Prop where
  name_eq : e.name = name
  value_eq : lookup name = some e.value
  meaningless : ∀ a, ¬ means e.value a

/-- The settings of `lookup` as `lookup'` has them: with blanks around the first two, and the first
in letters of either case. -/
structure Respells (lookup lookup' : String → Option String) : Prop where
  authEnabled : Option.Rel (fun s t => ∃ u, Text.SameLetters s u ∧ Text.Padded u t)
    (lookup authEnabledVariable) (lookup' authEnabledVariable)
  schema : Option.Rel Text.Padded (lookup schemaVariable) (lookup' schemaVariable)
  clientCaFile : lookup' clientCaFileVariable = lookup clientCaFileVariable

variable {lookup lookup' : String → Option String} {config : Config} {e : ConfigError}
  {value value' schema : String} {b : Bool}

/-! ### How the values are read -/

theorem answers_true_iff : Answers value true ↔ Text.lower (Text.trim value) ∈ affirmatives := by
  constructor
  · rintro ⟨htrims, hword⟩
    rwa [Text.trimsTo_iff.mp htrims]
  · exact .yes (Text.trimsTo_trim value)

theorem answers_false_iff : Answers value false ↔ Text.lower (Text.trim value) ∈ negatives := by
  constructor
  · rintro (_ | ⟨htrims, hword⟩)
    rwa [Text.trimsTo_iff.mp htrims]
  · exact .no (Text.trimsTo_trim value)

/-- No word is for both answers. -/
theorem not_mem_affirmatives {word : String} (h : word ∈ negatives) : word ∉ affirmatives := by
  have hall : ∀ word ∈ negatives, word ∉ affirmatives := by decide
  exact hall word h

theorem parseBool?_eq_some_iff : parseBool? value = some b ↔ Answers value b := by
  have hparse : parseBool? value = if Text.lower (Text.trim value) ∈ affirmatives then some true
      else if Text.lower (Text.trim value) ∈ negatives then some false else none := rfl
  rw [hparse]
  cases b with
  | true =>
    rw [answers_true_iff]
    split_ifs with hyes <;> simp [hyes]
  | false =>
    rw [answers_false_iff]
    split_ifs with hyes hno
    · simpa using fun hno => not_mem_affirmatives hno hyes
    · simp [hno]
    · simp [hno]

/-- Only the letters of the trimmed value count. -/
theorem Answers.congr (h : Text.lower (Text.trim value') = Text.lower (Text.trim value))
    (hanswers : Answers value b) : Answers value' b := by
  cases b with
  | true => rwa [answers_true_iff, h, ← answers_true_iff]
  | false => rwa [answers_false_iff, h, ← answers_false_iff]

theorem parseSchema?_eq_some_iff_namesSchema :
    parseSchema? value = some schema ↔ NamesSchema value schema := by
  rw [parseSchema?_eq_some_iff, ← Text.trimsTo_iff]
  exact ⟨fun ⟨htrims, hempty, hdot⟩ => ⟨htrims, hempty, hdot⟩,
    fun ⟨htrims, hempty, hdot⟩ => ⟨htrims, hempty, hdot⟩⟩

section Read

variable {α : Type} {name : String} {parse? : String → Option α} {means : String → α → Prop}
  {unset a : α}

theorem read_eq_ok_iff_settled (h : ∀ value a, parse? value = some a ↔ means value a) :
    read lookup name parse? unset = .ok a ↔ Settled means unset (lookup name) a := by
  rw [read_eq_ok_iff]
  constructor
  · rintro (⟨hnone, rfl⟩ | ⟨value, hvalue, hparse⟩)
    · rw [hnone]
      exact .unset
    · rw [hvalue]
      exact .set ((h value a).mp hparse)
  · intro hsettled
    generalize lookup name = found at hsettled ⊢
    cases hsettled with
    | unset => exact .inl ⟨rfl, rfl⟩
    | set hmeans => exact .inr ⟨_, rfl, (h _ a).mpr hmeans⟩

variable (unset) in
theorem read_eq_error_iff (h : ∀ value a, parse? value = some a ↔ means value a) :
    read lookup name parse? unset = .error e ↔ Misunderstood means lookup name e := by
  obtain ⟨blamed, found⟩ := e
  unfold read
  constructor
  · intro hread
    split at hread
    · cases hread
    · next value hvalue =>
      split at hread
      · cases hread
      · next hparse =>
        obtain ⟨rfl, rfl⟩ := ConfigError.mk.inj (Except.error.inj hread)
        refine ⟨rfl, hvalue, fun a hmeans => ?_⟩
        rw [(h value a).mpr hmeans] at hparse
        cases hparse
  · rintro ⟨rfl, hvalue, hmeaningless⟩
    have hparse : parse? found = none :=
      Option.eq_none_iff_forall_ne_some.mpr fun a ha => hmeaningless a ((h found a).mp ha)
    simp only [hvalue, hparse]

end Read

/-! ### What is loaded -/

/-- The first two variables come to what they mean, and a file is kept unless it is blank. -/
theorem load_eq_ok_iff_settled :
    load lookup = .ok config ↔
      Settled Answers true (lookup authEnabledVariable) config.authEnabled ∧
      Settled NamesSchema defaultSchema (lookup schemaVariable) config.schema ∧
      ∀ path, config.clientCaFile = some path ↔
        lookup clientCaFileVariable = some path ∧ ¬ Text.IsBlankText path := by
  have hfile : config.clientCaFile =
        (lookup clientCaFileVariable).filter (fun path => !(Text.trim path).isEmpty) ↔
      ∀ path, config.clientCaFile = some path ↔
        lookup clientCaFileVariable = some path ∧ ¬ Text.IsBlankText path := by
    rw [Option.ext_iff]
    refine forall_congr' fun path => ?_
    rw [Option.filter_eq_some_iff, ← Text.trim_eq_empty_iff]
    simp
  rw [load_eq_ok_iff, read_eq_ok_iff_settled fun _ _ => parseBool?_eq_some_iff,
    read_eq_ok_iff_settled fun _ _ => parseSchema?_eq_some_iff_namesSchema, hfile]
  rfl

/-- The first variable is blamed if its value means nothing, and the second one if only its own
does. -/
theorem load_eq_error_iff :
    load lookup = .error e ↔
      Misunderstood Answers lookup authEnabledVariable e ∨
      (∃ b, Settled Answers true (lookup authEnabledVariable) b) ∧
        Misunderstood NamesSchema lookup schemaVariable e := by
  rw [← read_eq_error_iff initial.authEnabled fun _ _ => parseBool?_eq_some_iff,
    ← read_eq_error_iff initial.schema fun _ _ => parseSchema?_eq_some_iff_namesSchema]
  simp only [← read_eq_ok_iff_settled fun _ _ => parseBool?_eq_some_iff]
  unfold load
  change _ ↔ read lookup authEnabledVariable parseBool? initial.authEnabled = .error e ∨
    (∃ b, read lookup authEnabledVariable parseBool? initial.authEnabled = .ok b) ∧ _
  cases read lookup authEnabledVariable parseBool? initial.authEnabled with
  | error e' => simp [bind, Except.bind]
  | ok b =>
    cases read lookup schemaVariable parseSchema? initial.schema with
    | error e' => simp [bind, Except.bind]
    | ok schema => simp [bind, Except.bind, pure, Except.pure]

theorem exists_load_eq_ok_iff :
    (∃ config, load lookup = .ok config) ↔
      (∃ b, Settled Answers true (lookup authEnabledVariable) b) ∧
      ∃ schema, Settled NamesSchema defaultSchema (lookup schemaVariable) schema := by
  constructor
  · rintro ⟨config, hload⟩
    obtain ⟨hauth, hschema, -⟩ := load_eq_ok_iff_settled.mp hload
    exact ⟨⟨_, hauth⟩, _, hschema⟩
  · rintro ⟨⟨b, hauth⟩, schema, hschema⟩
    refine ⟨⟨b, schema, (lookup clientCaFileVariable).filter fun path =>
      !(Text.trim path).isEmpty⟩, load_eq_ok_iff.mpr ⟨?_, ?_, rfl⟩⟩
    · exact (read_eq_ok_iff_settled fun _ _ => parseBool?_eq_some_iff).mpr hauth
    · exact (read_eq_ok_iff_settled fun _ _ => parseSchema?_eq_some_iff_namesSchema).mpr hschema

theorem isTight_defaultSchema : Text.IsTight defaultSchema := by
  constructor
  · rintro c ⟨⟩
    decide
  · rintro c ⟨⟩
    decide

/-- The blanks around a schema are gone, whether it was set or not. -/
theorem isTight_schema_of_load (h : load lookup = .ok config) : Text.IsTight config.schema := by
  have hsettled := (load_eq_ok_iff_settled.mp h).2.1
  generalize lookup schemaVariable = found, config.schema = schema at hsettled ⊢
  cases hsettled with
  | unset => exact isTight_defaultSchema
  | set hnames => exact hnames.trimsTo.tight

/-- Where authentication is off, a word for no has been written. -/
theorem negative_of_load (h : load lookup = .ok config) (hoff : config.authEnabled = false) :
    ∃ value word, lookup authEnabledVariable = some value ∧ Text.TrimsTo value word ∧
      Text.lower word ∈ ["false", "0", "off", "no"] := by
  have hsettled := (load_eq_ok_iff_settled.mp h).1
  rw [hoff] at hsettled
  generalize hvalue : lookup authEnabledVariable = found at hsettled
  cases hsettled with
  | set hanswers =>
    cases hanswers with
    | no htrims hword => exact ⟨_, _, rfl, htrims, hword⟩

/-! ### Other blanks and letters -/

/-- What a variable comes to is kept where each of its values means what the other does. -/
theorem Settled.rel {α : Type} {means : String → α → Prop} {unset a : α}
    {r : String → String → Prop} {found found' : Option String} (hrel : Option.Rel r found found')
    (h : ∀ value value' a, r value value' → means value a → means value' a)
    (hsettled : Settled means unset found a) : Settled means unset found' a := by
  cases hsettled with
  | unset =>
    cases hrel
    exact .unset
  | set hmeans =>
    cases hrel with
    | some hvalue => exact .set (h _ _ a hvalue hmeans)

/-- A configuration stays the same, whatever blanks are put around the settings and whatever letters
the word is written in. -/
theorem Respells.load_eq (h : Respells lookup lookup') (hload : load lookup = .ok config) :
    load lookup' = .ok config := by
  obtain ⟨hauth, hschema, hfile⟩ := load_eq_ok_iff_settled.mp hload
  refine load_eq_ok_iff_settled.mpr
    ⟨hauth.rel h.authEnabled ?word, hschema.rel h.schema ?schema, ?_⟩
  case word =>
    rintro value value' b ⟨u, hletters, hpadded⟩ hanswers
    refine hanswers.congr ?_
    rw [hpadded.trim_eq, hletters.lower_trim_eq]
  case schema =>
    intro value value' schema hpadded hnames
    refine ⟨?_, hnames.nonempty, hnames.undotted⟩
    rw [Text.trimsTo_iff, hpadded.trim_eq]
    exact Text.trimsTo_iff.mp hnames.trimsTo
  · rw [h.clientCaFile]
    exact hfile

/-- **Exactly the well-formed settings are loaded.** For every look-up of variables, a configuration
is loaded exactly if the first variable is unset or one of eight words, between blanks and in
letters of either case, and the second one is unset or names a schema between blanks. It holds what
they mean: whether the word is for authentication, and the schema, which has characters, no dot
among them and no blank at its ends. The third variable is kept as it is unless it is blank, and
never stops the loading. Where nothing is loaded, the first variable that means nothing is blamed
with its value as it was found. So authentication is off only where one of the four words for no is,
and neither blanks around the first two settings nor the case of the first one's letters change what
is loaded. -/
theorem load_exact (lookup : String → Option String) :
    (∀ config, load lookup = .ok config ↔
      Settled Answers true (lookup "ROODB_AUTH_ENABLED") config.authEnabled ∧
      Settled NamesSchema "doc" (lookup "ROODB_DEFAULT_SCHEMA") config.schema ∧
      ∀ path, config.clientCaFile = some path ↔
        lookup "ROODB_CLIENT_CA_FILE" = some path ∧ ¬ Text.IsBlankText path) ∧
    ((∃ config, load lookup = .ok config) ↔
      (∃ b, Settled Answers true (lookup "ROODB_AUTH_ENABLED") b) ∧
      ∃ schema, Settled NamesSchema "doc" (lookup "ROODB_DEFAULT_SCHEMA") schema) ∧
    (∀ e, load lookup = .error e ↔
      Misunderstood Answers lookup "ROODB_AUTH_ENABLED" e ∨
      (∃ b, Settled Answers true (lookup "ROODB_AUTH_ENABLED") b) ∧
        Misunderstood NamesSchema lookup "ROODB_DEFAULT_SCHEMA" e) ∧
    (∀ config, load lookup = .ok config →
      config.schema ≠ "" ∧ '.' ∉ config.schema.toList ∧ Text.IsTight config.schema ∧
      (config.authEnabled = false → ∃ value word, lookup "ROODB_AUTH_ENABLED" = some value ∧
        Text.TrimsTo value word ∧ Text.lower word ∈ ["false", "0", "off", "no"]) ∧
      ∀ lookup', Respells lookup lookup' → load lookup' = .ok config) := by
  refine ⟨fun config => load_eq_ok_iff_settled, exists_load_eq_ok_iff,
    fun e => load_eq_error_iff, fun config hload => ?_⟩
  obtain ⟨hnonempty, hdot⟩ := schema_of_load hload
  exact ⟨hnonempty, hdot, isTight_schema_of_load hload, negative_of_load hload,
    fun lookup' h => h.load_eq hload⟩

/-- Authentication is turned off in letters of either case, and the schema stands between blanks
beyond ASCII; with a value for the first variable that means nothing, that one is blamed and not the
schema, which has a dot. -/
theorem load_exact_of_turned_off :
    let lookup := fun name => if name = authEnabledVariable then some "off"
      else if name = schemaVariable then some "my schema" else none
    let respelled := fun name => if name = authEnabledVariable then some "\tOfF\n"
      else if name = schemaVariable then some "\u3000my schema\u00a0" else none
    let wrong := fun name => if name = authEnabledVariable then some " offf"
      else if name = schemaVariable then some "a.b" else some " "
    Respells lookup respelled ∧
      load lookup = .ok ⟨false, "my schema", none⟩ ∧
      load respelled = .ok ⟨false, "my schema", none⟩ ∧
      load wrong = .error ⟨"ROODB_AUTH_ENABLED", " offf"⟩ := by
  intro lookup respelled wrong
  have hrespells : Respells lookup respelled := by
    exact ⟨.some ⟨"OfF", by decide +kernel, "\t", "\n", by decide, by decide, rfl⟩,
      .some ⟨"\u3000", "\u00a0", by decide, by decide, rfl⟩, rfl⟩
  obtain ⟨hok, -, -, hloaded⟩ := load_exact lookup
  obtain ⟨-, -, herror, -⟩ := load_exact wrong
  have hoff : Answers "off" false :=
    answers_false_iff.mpr (by decide +kernel)
  have hschema : NamesSchema "my schema" "my schema" :=
    ⟨Text.trimsTo_iff.mpr (by decide +kernel), by decide, by decide⟩
  have hunset : lookup "ROODB_CLIENT_CA_FILE" = none := rfl
  have hload : load lookup = .ok ⟨false, "my schema", none⟩ :=
    (hok _).mpr ⟨.set hoff, .set hschema, by simp [hunset]⟩
  have hmeaningless : ∀ b, ¬ Answers " offf" b := by
    simp only [← parseBool?_eq_some_iff]
    decide +kernel
  exact ⟨hrespells, hload, (hloaded _ hload).2.2.2.2 respelled hrespells,
    (herror _).mpr (.inl ⟨rfl, rfl, hmeaningless⟩)⟩

end Config

end AccessControl
