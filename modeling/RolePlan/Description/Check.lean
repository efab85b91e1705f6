import RolePlan.Description
import RolePlan.Error
import RolePlan.Path
import RolePlan.Text.Invisible

/-!
# Checking descriptions

A check of a setting refuses the value with the first fault that it finds. `Description.check`
reports the first setting that is refused: the name of the plan and its output, the seed, the roles
one after another, and then the names of the values that are set.
-/

namespace RolePlan

namespace Setting

def refuse (field value : String) (fault : SettingFault) : Except Error Unit :=
  .error (.setting field value fault)

def path (field value : String) : Except Error Unit :=
  if value.isEmpty then refuse field value .emptyPath
  else if value.toList.contains '\x00' then refuse field value .nullInPath
  else .ok ()

def notBlank (field value : String) : Except Error Unit :=
  if Text.isBlank value then refuse field value .blank else .ok ()

def namespacePart (field value : String) : Except Error Unit := do
  notBlank field value
  if (Namespace.afterDelimiter? value.toList).isSome then refuse field value .holdsDelimiter

def atLeast (field : String) (value least : Nat) : Except Error Unit :=
  if value < least then refuse field (toString value) (.tooSmall least) else .ok ()

def extension (field : String) (allowed : List String) (file : String) : Except Error Unit :=
  match Path.extension? file with
  | none => refuse field file .noExtension
  | some found =>
      if allowed.contains found then .ok () else refuse field file (.extension found allowed)

end Setting

namespace Description

def templateExtensions : List String := ["yaml", "yml"]

def checkTemplate (field path : String) : Except Error Unit := do
  Setting.path field path
  Setting.extension field templateExtensions path

def Role.check (r : Role) : Except Error Unit := do
  Setting.namespacePart "roles.name" r.name
  Setting.atLeast "roles.version" r.version 1
  checkTemplate "roles.template" r.template
  if let some filename := r.filename then Setting.notBlank "roles.filename" filename

/-- Checks roles one after another; `taken` holds the namespaces of those before. -/
def checkRoles (taken : List String) : List Role → Except Error Unit
  | [] => .ok ()
  | r :: rest => do
      r.check
      if taken.contains r.ns then throw (.setting "roles" r.ns .repeatedRole)
      checkRoles (r.ns :: taken) rest

def check (d : Description) : Except Error Unit := do
  Setting.notBlank "plan.name" d.name
  Setting.path "output.path" d.output.path
  if let some seed := d.seed then checkTemplate "seed.template" seed
  checkRoles [] d.roles
  (d.parameters.getD .empty).names.forM (Setting.notBlank "plan.parameters")

end Description

end RolePlan
