import RolePlan.Toml.Text
import RolePlan.Value

/-!
# Errors and warnings

An error names its cause; `message` is the one place that words it. `isDataError` tells a fault of
the documents from one of the storage or the plan's description. A warning is told to the user while
the work goes on.
-/

namespace RolePlan

/-- The parts of a document that hold named entries. -/
inductive Section where
  | template
  | parameters
  | parameterGroups
  | resources
  | outputs
  | resourceRegistry
  deriving DecidableEq, Repr

def Section.name : Section → String
  | .template => "template"
  | .parameters => "parameters"
  | .parameterGroups => "parameter_groups"
  | .resources => "resources"
  | .outputs => "outputs"
  | .resourceRegistry => "resource_registry"

inductive Shape where
  | string
  | boolean
  | list
  | mapping
  deriving DecidableEq, Repr

def Shape.description : Shape → String
  | .string => "a string"
  | .boolean => "a boolean"
  | .list => "a list"
  | .mapping => "a mapping"

inductive DocumentFault where
  | notMapping (found : Kind)
  | sectionShape (which : Section) (expected : Shape) (found : Kind)
  | nonFinite (number : String)
  | unsupportedKey (shown : String)
  deriving DecidableEq, Repr

def DocumentFault.message : DocumentFault → String
  | .notMapping found => "expected a mapping at the top level, found " ++ found.name
  | .sectionShape which expected found =>
      "section '" ++ which.name ++ "' must be " ++ expected.description ++ ", found " ++ found.name
  | .nonFinite number => "unsupported non-finite number: " ++ number
  | .unsupportedKey shown => "unsupported mapping key: " ++ shown

inductive FieldFault where
  | shape (expected : Shape) (found : Kind)
  | notFilename (found : Value)
  | memberNotScalar (found : Kind)

def FieldFault.message : FieldFault → String
  | .shape expected found => "expected " ++ expected.description ++ ", found " ++ found.name
  | .notFilename found => "expected a string, found " ++ found.jsonText
  | .memberNotScalar found => "parameter names must be scalars, found " ++ found.name

inductive ConstraintFault where
  | notMapping (found : Kind)
  | descriptionShape (found : Kind)
  | typeCount (types : List String)
  deriving DecidableEq, Repr

def ConstraintFault.message : ConstraintFault → String
  | .notMapping found => "expected a mapping, found " ++ found.name
  | .descriptionShape found => "description must be a string, found " ++ found.name
  | .typeCount types =>
      "expected exactly one constraint type, found " ++ toString types.length ++ " (" ++
        ", ".intercalate types ++ ")"

inductive Item where
  | parameter
  | resource
  | output
  | environmentParameter
  | registryEntry
  | planTemplate
  | namespaceName
  deriving DecidableEq, Repr

def Item.name : Item → String
  | .parameter => "parameter"
  | .resource => "resource"
  | .output => "output"
  | .environmentParameter => "environment parameter"
  | .registryEntry => "registry entry"
  | .planTemplate => "plan template"
  | .namespaceName => "namespace"

inductive StorageFault where
  | notFound (path : String)
  | readOnly (path : String)
  | notText (path : String)
  | notDirectory (path : String)
  | isDirectory (path : String)
  | invalidPath (path : String)
  | other (reason : String)
  deriving DecidableEq, Repr

def StorageFault.message : StorageFault → String
  | .notFound path => "File not found: " ++ path
  | .readOnly path => "Read-only: " ++ path
  | .notText path => "Not valid UTF-8: " ++ path
  | .notDirectory path => "Not a directory: " ++ path
  | .isDirectory path => "Is a directory: " ++ path
  | .invalidPath path => "Invalid path: " ++ path
  | .other reason => reason

inductive DescriptionFault where
  | syntaxFault (fault : Toml.Fault)
  | missing (field : String)
  | unfit (field : String)
  | unreadable (record : String)
  deriving DecidableEq, Repr

def DescriptionFault.message : DescriptionFault → String
  | .syntaxFault fault => fault.message
  | .missing field => "missing field '" ++ field ++ "'"
  | .unfit field => "the value of '" ++ field ++ "' does not fit"
  | .unreadable record => "a number in '" ++ record ++ "' is too large"

inductive SettingFault where
  | emptyPath
  | nullInPath
  | tooSmall (least : Nat)
  | extension (found : String) (allowed : List String)
  | noExtension
  | blank
  | holdsDelimiter
  | repeatedRole
  deriving DecidableEq, Repr

def SettingFault.message : SettingFault → String
  | .emptyPath => "Path cannot be empty"
  | .nullInPath => "Path contains null bytes"
  | .tooSmall least => "Value must be at least " ++ toString least
  | .extension found allowed =>
      "Unsupported file extension: " ++ found ++ ". Allowed extensions: " ++
        ", ".intercalate allowed
  | .noExtension => "File has no extension or invalid filename"
  | .blank => "Value cannot be empty or whitespace-only"
  | .holdsDelimiter => "Value cannot contain '::'"
  | .repeatedRole => "Role name and version must be unique"

inductive Error where
  | yaml (reason : String)
  | storage (fault : StorageFault)
  | document (fault : DocumentFault)
  | missingField (which : Section) (entry field : String)
  | invalidField (which : Section) (entry field : String) (fault : FieldFault)
  | constraint (parameter : String) (fault : ConstraintFault)
  | notFound (item : Item) (name : String)
  | duplicate (item : Item) (name : String)
  | ambiguous (name : String) (candidates : List String)
  | configuration (fault : DescriptionFault)
  | setting (field value : String) (fault : SettingFault)

namespace Error

def message : Error → String
  | .yaml reason => "YAML error: " ++ reason
  | .storage fault => "IO error: " ++ fault.message
  | .document fault => "Invalid document: " ++ fault.message
  | .missingField which entry field =>
      "Missing required field '" ++ field ++ "' in " ++ which.name ++ " entry '" ++ entry ++ "'"
  | .invalidField which entry field fault =>
      "Invalid field '" ++ field ++ "' in " ++ which.name ++ " entry '" ++ entry ++ "': " ++
        fault.message
  | .constraint parameter fault =>
      "Malformed constraint on parameter '" ++ parameter ++ "': " ++ fault.message
  | .notFound item name => item.name ++ " not found: " ++ name
  | .duplicate item name => "Duplicate " ++ item.name ++ ": " ++ name
  | .ambiguous name candidates =>
      "Ambiguous match for '" ++ name ++ "': " ++ ", ".intercalate candidates
  | .configuration fault => "Configuration error: TOML parsing error: " ++ fault.message
  | .setting field value fault =>
      "Invalid configuration value for " ++ field ++ " ('" ++ value ++ "'): " ++ fault.message

/-- The documents are at fault, and not the storage or the description of the plan. -/
def isDataError : Error → Bool
  | .yaml _ | .document _ | .missingField .. | .invalidField .. | .constraint .. | .ambiguous .. =>
      true
  | .storage _ | .notFound .. | .duplicate .. | .configuration _ | .setting .. => false

end Error

/-! ## Warnings -/

inductive Warning where
  | unknownTemplateSection (name : String)
  | unknownEnvironmentSection (name : String)
  /-- No group of the seed stands for the role. -/
  | roleNotInSeed (name : String)
  | notInPlan (ns : String)
  deriving DecidableEq, Repr

def Warning.message : Warning → String
  | .unknownTemplateSection name => "Ignoring unknown template section: " ++ name
  | .unknownEnvironmentSection name => "Ignoring unknown environment section: " ++ name
  | .roleNotInSeed name => "Role '" ++ name ++ "' has no counterpart in the seed template"
  | .notInPlan ns => "Namespace '" ++ ns ++ "' is not part of the plan, nothing to remove"

end RolePlan
