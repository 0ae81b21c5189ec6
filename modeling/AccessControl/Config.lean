import AccessControl.Name
import AccessControl.Text.Blank
import AccessControl.Text.Quoted

/-!
# Configuration

The configuration comes from three variables, any of which may be unset. The first one that cannot
be understood stops the loading.

## Main definitions

* `Config`, `Config.initial` — the configuration, and that of unset variables
* `Config.load` — the configuration that a look-up of variables calls for
* `ConfigError` — a variable with a value that cannot be understood

## Main results

* `Config.load_eq_ok_iff` — what is loaded, and when nothing is
* `Config.schema_of_load` — a loaded schema has characters, and no dot among them
-/

namespace AccessControl

/-- The configuration of access control. -/
structure Config where
  /-- Whether clients authenticate. Without, every check passes. -/
  authEnabled : Bool
  /-- The schema of names written without one. -/
  schema : String
  /-- The file of the authorities that client certificates are verified against. -/
  clientCaFile : Option String
  deriving DecidableEq

/-- A variable whose value cannot be understood. -/
structure ConfigError where
  name : String
  /-- Its value, as it was found. -/
  value : String
  deriving DecidableEq

def ConfigError.message (e : ConfigError) : String :=
  "Invalid value for " ++ e.name ++ ": " ++ Text.quoted e.value

namespace Config

/-- The variable that turns authentication on or off. -/
def authEnabledVariable : String := "ROODB_AUTH_ENABLED"

/-- The variable of the default schema. -/
def schemaVariable : String := "ROODB_DEFAULT_SCHEMA"

/-- The variable of the file of client authorities. -/
def clientCaFileVariable : String := "ROODB_CLIENT_CA_FILE"

/-- The configuration of unset variables. -/
def initial : Config := ⟨true, defaultSchema, none⟩

/-- The words for yes, in lower case. -/
def affirmatives : List String := ["true", "1", "on", "yes"]

/-- The words for no, in lower case. -/
def negatives : List String := ["false", "0", "off", "no"]

/-- The truth value that a word stands for, in any case of its ASCII letters and between blanks. -/
def parseBool? (value : String) : Option Bool :=
  let word := String.ofList ((Text.trim value).toList.map Char.toLower)
  if word ∈ affirmatives then some true
  else if word ∈ negatives then some false
  else none

/-- The schema that a value stands for: without the blanks around it, it has characters, and no dot
among them. -/
def parseSchema? (value : String) : Option String :=
  let schema := Text.trim value
  if schema.isEmpty || '.' ∈ schema.toList then none else some schema

/-- The value of a variable, understood by `parse?`; `unset` if there is none. -/
def read {α : Type} (lookup : String → Option String) (name : String) (parse? : String → Option α)
    (unset : α) : Except ConfigError α :=
  match lookup name with
  | none => .ok unset
  | some value =>
    match parse? value with
    | some a => .ok a
    | none => .error ⟨name, value⟩

/-- The configuration that a look-up of variables calls for. A file name is kept as it is, unless
it is blank. -/
def load (lookup : String → Option String) : Except ConfigError Config := do
  let authEnabled ← read lookup authEnabledVariable parseBool? initial.authEnabled
  let schema ← read lookup schemaVariable parseSchema? initial.schema
  let clientCaFile := (lookup clientCaFileVariable).filter fun path => !(Text.trim path).isEmpty
  return ⟨authEnabled, schema, clientCaFile⟩

variable {lookup : String → Option String} {config : Config}

theorem parseSchema?_eq_some_iff {value schema : String} :
    parseSchema? value = some schema ↔
      Text.trim value = schema ∧ schema ≠ "" ∧ '.' ∉ schema.toList := by
  unfold parseSchema?
  constructor
  · intro h
    simp only [Bool.or_eq_true, decide_eq_true_eq] at h
    split at h
    · cases h
    · next hschema =>
      obtain ⟨hempty, hdot⟩ := not_or.mp hschema
      obtain rfl := Option.some.inj h
      exact ⟨rfl, by simpa using hempty, hdot⟩
  · rintro ⟨rfl, hempty, hdot⟩
    simp [hempty, hdot]

/-- A variable that is set has to be understood. -/
theorem read_eq_ok_iff {α : Type} {name : String} {parse? : String → Option α} {unset a : α} :
    read lookup name parse? unset = .ok a ↔
      lookup name = none ∧ unset = a ∨ ∃ value, lookup name = some value ∧ parse? value = some a := by
  unfold read
  cases lookup name with
  | none => simp
  | some value => cases hparse : parse? value <;> simp [hparse]

/-- A configuration is loaded if both variables that can be misunderstood are understood. -/
theorem load_eq_ok_iff :
    load lookup = .ok config ↔
      read lookup authEnabledVariable parseBool? initial.authEnabled = .ok config.authEnabled ∧
      read lookup schemaVariable parseSchema? initial.schema = .ok config.schema ∧
      config.clientCaFile =
        (lookup clientCaFileVariable).filter fun path => !(Text.trim path).isEmpty := by
  obtain ⟨authEnabled, schema, clientCaFile⟩ := config
  unfold load
  cases read lookup authEnabledVariable parseBool? initial.authEnabled with
  | error e => simp [bind, Except.bind]
  | ok b =>
    cases read lookup schemaVariable parseSchema? initial.schema with
    | error e => simp [bind, Except.bind]
    | ok s => simp [bind, Except.bind, pure, Except.pure, eq_comm]

/-- The schema of a configuration has characters, and no dot among them. -/
theorem schema_of_load (h : load lookup = .ok config) :
    config.schema ≠ "" ∧ '.' ∉ config.schema.toList := by
  rcases read_eq_ok_iff.mp (load_eq_ok_iff.mp h).2.1 with ⟨-, hunset⟩ | ⟨value, -, hparse⟩
  · rw [← hunset]
    decide
  · exact (parseSchema?_eq_some_iff.mp hparse).2

end Config

end AccessControl
