import TestSkeleton.Settings.Basic
import TestSkeleton.Toml.Reading

/-!
# Settings from TOML

A settings document has the tables `naming`, `template`, `initializers` and
`prompt`.  Whatever is missing keeps its default, and unknown names are
skipped.

* A group of settings is a table, or an array of its values in a fixed
  order.  What an array holds beyond them is not looked at.
* What a table holds under an unknown name may be anything, except that its
  numbers have to be representable (`othersFit`).
* The initializers are a table of strings.  They replace the default table
  and come in the order of their names.
* A date counts as a table with one entry of its own.
-/

namespace TestSkeleton.Settings

/-- The name of the entry that a date has as a table. -/
def dateEntry : String := "$__toml_private_datetime"

/-- The value at a position, under a name. -/
def valueAt? (names : List String) (items : List Toml) (name : String) : Option Toml :=
  (names.zip items).lookup name

/-- Whether the entries of a table under other names than `names` hold
representable numbers only. -/
def othersFit (names : List String) (entries : Toml.Table) : Bool :=
  entries.all fun (name, value) => names.contains name || value.fits

/-- How the values of a table are found.  `names` are the names that are
known. -/
def members? (names : List String) (entries : Toml.Table) : Option (String → Option Toml) :=
  if othersFit names entries then some (fun name => entries.lookup name) else none

/-- How the values of a group are found.  `names` are the names of its
values in the order that an array has them in. -/
def group? (names : List String) : Toml → Option (String → Option Toml)
  | .table _ entries => members? names entries
  | .dateTime _ => some (fun _ => none)
  | .array items => some (valueAt? names items)
  | .tables items => some (valueAt? names (items.map (.table .header)))
  | _ => none

/-- The value of a setting, read by `read?`; `default` if it is missing. -/
def valueD {α : Type} (find : String → Option Toml) (name : String) (default : α)
    (read? : Toml → Option α) : Option α :=
  match find name with
  | some value => read? value
  | none => some default

/-- A text. -/
def text? : Toml → Option String
  | .string text => some text
  | _ => none

/-- A truth value. -/
def flag? : Toml → Option Bool
  | .bool value => some value
  | _ => none

/-- Some texts in order. -/
def texts? : Toml → Option (List String)
  | .array items => items.mapM text?
  | .tables items => if items.isEmpty then some [] else none
  | _ => none

/-- The pairs in ascending order of their names. -/
def sortPairs (pairs : List (String × String)) : List (String × String) :=
  pairs.mergeSort (fun p q => !decide (q.1 < p.1))

/-- A table of texts, in ascending order of its names. -/
def textTable? : Toml → Option (Entries String)
  | .table _ entries => do
    let pairs ← entries.mapM fun (name, value) => (text? value).map fun text => (name, text)
    some (Entries.ofList (sortPairs pairs))
  | .dateTime text => some (Entries.ofList [(dateEntry, text)])
  | _ => none

/-- The names. -/
def naming? (value : Toml) : Option Naming := do
  let find ← group? ["source_extension", "header_extension", "test_suffix"] value
  let default : Naming := {}
  some {
    sourceExtension := ← valueD find "source_extension" default.sourceExtension text?
    headerExtension := ← valueD find "header_extension" default.headerExtension text?
    testSuffix := ← valueD find "test_suffix" default.testSuffix text? }

/-- The template. -/
def template? (value : Toml) : Option Template := do
  let find ← group? ["includes", "namespace", "base_class", "type_list", "strict_syntax"] value
  let default : Template := {}
  some {
    includes := ← valueD find "includes" default.includes texts?
    namespaceName := ← valueD find "namespace" default.namespaceName text?
    baseClass := ← valueD find "base_class" default.baseClass text?
    typeList := ← valueD find "type_list" default.typeList text?
    strict := ← valueD find "strict_syntax" default.strict flag? }

/-- Whether a directory is asked for. -/
def interactive? (value : Toml) : Option Bool := do
  let find ← group? ["interactive"] value
  valueD find "interactive" true flag?

/-- The settings that a document states, with defaults for the rest. -/
def ofToml? (document : Toml.Table) : Option Settings := do
  let find ← members? ["naming", "template", "initializers", "prompt"] document
  let default : Settings := {}
  some {
    naming := ← valueD find "naming" default.naming naming?
    template := ← valueD find "template" default.template template?
    initializers := ← valueD find "initializers" default.initializers textTable?
    interactive := ← valueD find "prompt" default.interactive interactive? }

/-- The settings that a text states, if they are usable. -/
def parse (text : String) : Except Failure Settings :=
  match (Toml.parse? text).bind ofToml? with
  | none => .error .toml
  | some settings =>
    match settings.check with
    | .ok settings => .ok settings
    | .error fault => .error fault.toFailure

end TestSkeleton.Settings
