import TestSkeleton.Naming
import TestSkeleton.Skeleton
import TestSkeleton.Failure
import TestSkeleton.Text.Word
import TestSkeleton.Text.Quoted

/-!
# Settings

What the user may choose about names and text, with a default for each
choice, and the check that rules out choices which break the output.

`Settings.check` reports the first fault in this order: the source
extension, the header extension, the suffix, the namespace, the types of the
initializers.
-/

namespace TestSkeleton

/-- Everything that a settings file decides. -/
structure Settings where
  naming : Naming := {}
  template : Template := {}
  initializers : Argument.Initializers := Argument.defaultInitializers
  /-- Whether a directory is asked for at a terminal. -/
  interactive : Bool := true
deriving DecidableEq

instance : Inhabited Settings := ⟨{}⟩

namespace Settings

/-- Why settings are refused. -/
inductive Fault where
  | sourceExtension (value : String)
  | headerExtension (value : String)
  | emptySuffix
  | namespaceName (value : String)
  | blankType (value : String)
deriving DecidableEq, Inhabited, Repr

/-- The message for an extension that is not bare. -/
def extensionMessage (field value : String) : String :=
  field ++ " must be a bare extension like \"cpp\", got " ++ Text.quoted value

/-- The words for a fault. -/
def Fault.message : Fault → String
  | .sourceExtension value => extensionMessage "naming.source_extension" value
  | .headerExtension value => extensionMessage "naming.header_extension" value
  | .emptySuffix =>
    "naming.test_suffix must not be empty: the test file would replace the source"
  | .namespaceName value =>
    "template.namespace is not a valid C++ namespace: " ++ Text.quoted value
  | .blankType value => "initializers contains an empty type name: " ++ Text.quoted value

/-- A fault of the settings as a failure of the command that uses them. -/
def Fault.toFailure (fault : Fault) : Failure :=
  .settings fault.message

/-- Whether a text is an extension without a dot and without separators. -/
def isBareExtension (value : String) : Bool :=
  !value.isEmpty && value.toList.all (fun c => c != '.' && c != '/' && c != '\\')

/-- Whether some characters are an ASCII identifier. -/
def isIdentifier : List Char → Bool
  | [] => false
  | c :: rest => Text.isNameStart c && rest.all Text.isAsciiWord

/-- The parts of a name between double colons. -/
def scopes : List Char → List (List Char)
  | ':' :: ':' :: rest => [] :: scopes rest
  | c :: rest => Text.consField c (scopes rest)
  | [] => [[]]

/-- Whether a text is a namespace: identifiers joined by double colons. -/
def isNamespaceName (value : String) : Bool :=
  (scopes value.toList).all isIdentifier

/-- Whether a text has no visible character. -/
def isBlankText (value : String) : Bool :=
  value.toList.all Text.isBlank

/-- The first fault of the settings, if there is one. -/
def fault? (settings : Settings) : Option Fault :=
  if !isBareExtension settings.naming.sourceExtension then
    some (.sourceExtension settings.naming.sourceExtension)
  else if !isBareExtension settings.naming.headerExtension then
    some (.headerExtension settings.naming.headerExtension)
  else if settings.naming.testSuffix.isEmpty then some .emptySuffix
  else if !isNamespaceName settings.template.namespaceName then
    some (.namespaceName settings.template.namespaceName)
  else (settings.initializers.keys.find? isBlankText).map .blankType

/-- What the check asks of settings. -/
structure IsAccepted (settings : Settings) : Prop where
  sourceExtension : isBareExtension settings.naming.sourceExtension = true
  headerExtension : isBareExtension settings.naming.headerExtension = true
  testSuffix : settings.naming.testSuffix ≠ ""
  namespaceName : isNamespaceName settings.template.namespaceName = true
  initializers : ∀ typeName ∈ settings.initializers.keys, isBlankText typeName = false

theorem fault?_eq_none_iff {settings : Settings} :
    settings.fault? = none ↔ settings.IsAccepted := by
  have hkeys : (settings.initializers.keys.find? isBlankText).map Fault.blankType = none ↔
      ∀ typeName ∈ settings.initializers.keys, isBlankText typeName = false := by
    simp
  rw [fault?]
  constructor
  · intro h
    split at h
    · cases h
    split at h
    · cases h
    split at h
    · cases h
    split at h
    · cases h
    rename_i hsource hheader hsuffix hnamespace
    exact ⟨by simpa using hsource, by simpa using hheader, by simpa using hsuffix,
      by simpa using hnamespace, hkeys.1 h⟩
  · intro h
    rw [if_neg (by simp [h.sourceExtension]), if_neg (by simp [h.headerExtension]),
      if_neg (by simpa using h.testSuffix), if_neg (by simp [h.namespaceName])]
    exact hkeys.2 h.initializers

/-- No character of a bare extension cuts a name. -/
theorem of_mem_bareExtension {value : String}
    (h : isBareExtension value = true) {c : Char} (hc : c ∈ value.toList) :
    c ≠ '.' ∧ Path.isNameSeparator c = false := by
  have hall := List.all_eq_true.1 (Bool.and_eq_true_iff.1 h).2 c hc
  simp only [Bool.and_eq_true, bne_iff_ne] at hall
  exact ⟨hall.1.1, by simp [Path.isNameSeparator, hall.1.2, hall.2]⟩

/-- The settings, unless they have a fault. -/
def check (settings : Settings) : Except Fault Settings :=
  match settings.fault? with
  | some fault => .error fault
  | none => .ok settings

end Settings

end TestSkeleton
