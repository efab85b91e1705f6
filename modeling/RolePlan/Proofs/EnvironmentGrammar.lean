import RolePlan.Environment
import RolePlan.Proofs.Acceptance
import RolePlan.Proofs.RoundTrip

/-!
# The grammar of environments

`isEnvironment` says which documents describe an environment. What such a document holds is said by
`environmentOf`, and what is wrong with any other by `environmentFaults`.
-/

namespace RolePlan.Grammar

open Proofs (outcome bind_outcome foldlM_outcome)

/-- The registry of an environment names files by texts. -/
def isEnvironment (document : Table Value) : Bool :=
  allows document "parameters" (isMappingOf fun _ => true) &&
    allows document "resource_registry" (isMappingOf isText)

def fileOf (v : Value) : String := v.string?.getD ""

/-- Everything in the document that belongs to an environment, entry by entry. -/
def environmentOf (document : Table Value) : Environment where
  parameters := mappingIn document "parameters"
  registry := (mappingIn document "resource_registry").map fileOf

def fileFaults (name : String) (v : Value) : List Error :=
  if isText v then [] else [.invalidField .resourceRegistry name "filename" (.notFilename v)]

def environmentFaults (document : Table Value) : List Error :=
  unfit document "parameters" (isMappingOf fun _ => true)
      (fun kind => .document (.sectionShape .parameters .mapping kind)) ++
    sectionFaults document .resourceRegistry fileFaults

theorem environmentFaults_eq_nil_iff (document : Table Value) :
    environmentFaults document = [] ↔ isEnvironment document = true := by
  have hfile (name : String) (v : Value) : fileFaults name v = [] ↔ isText v = true := by
    rw [fileFaults]
    simp
  rw [environmentFaults, List.append_eq_nil_iff, unfit_eq_nil_iff, sectionFaults_eq_nil_iff hfile,
    isEnvironment, Bool.and_eq_true]
  rfl

/-! ## Reading -/

def registerEntry (e : Environment) (entry : String × Value) : Environment :=
  (e.register entry.1 (fileOf entry.2)).2

theorem addFile_eq (e : Environment) (entry : String × Value) :
    e.addFile entry = outcome (fileFaults entry.1 entry.2) (registerEntry e entry) := by
  obtain ⟨name, v⟩ := entry
  cases v <;> rfl

/-- Entries of different names are registered one behind the other. -/
theorem foldl_registerEntry {e : Environment} {entries : List (String × Value)}
    (h : (e.registry.names ++ entries.map (·.1)).Nodup) :
    entries.foldl registerEntry e =
      { e with registry := e.registry.extend (entries.map fun entry => (entry.1, fileOf entry.2)) }
    := by
  induction entries generalizing e with
  | nil => simp
  | cons entry rest ih =>
      obtain ⟨hnew, hnext⟩ := Table.nodup_names_extend h (fileOf entry.2)
      have hfirst : registerEntry e entry =
          { e with registry := e.registry.extend [(entry.1, fileOf entry.2)] } := by
        rw [registerEntry, Environment.register, Table.put_of_not_mem hnew]
      rw [List.foldl_cons, hfirst, ih hnext, Table.extend_extend]
      rfl

/-- What is read from an environment document is known from its faults and its contents. -/
theorem ofDocument_environment_eq {document : Table Value}
    (h : (Value.object document).WellFormed) :
    Environment.ofDocument document =
      outcome (environmentFaults document) (environmentOf document) := by
  have hvalues : (mappingIn document Section.parameters.name).entries.foldlM Environment.addValue {}
      = .ok { parameters := mappingIn document "parameters" } :=
    Environment.foldlM_addValue (wellFormed_mappingIn h "parameters").1
  have hdistinct : (mappingIn document "resource_registry").names.Nodup :=
    (wellFormed_mappingIn h "resource_registry").1
  have hfiles := foldl_registerEntry (e := { parameters := mappingIn document "parameters" })
    hdistinct
  refine bind_outcome (entries_eq .parameters document) ?_
  rw [hvalues]
  change (Document.entries document .resourceRegistry >>= (·.foldlM Environment.addFile _)) = _
  refine bind_outcome (entries_eq .resourceRegistry document) ?_
  rw [foldlM_outcome addFile_eq]
  exact congrArg _ hfiles

end RolePlan.Grammar
