import RolePlan.Table
import RolePlan.Binary64
import RolePlan.Text.Invisible
import RolePlan.Text.Lowercase
import RolePlan.Error
import RolePlan.Yaml.Token.Scalar
import RolePlan.Yaml.Token.Scan
import RolePlan.Yaml.Scalar
import RolePlan.Yaml.Node
import RolePlan.Yaml.Tree
import RolePlan.Yaml.Read
import RolePlan.Namespace
import RolePlan.Resource
import RolePlan.Template.Read
import RolePlan.Environment
import RolePlan.Yaml.Write
import RolePlan.Template.Write
import RolePlan.Plan
import RolePlan.Seed
import RolePlan.Toml.Read
import RolePlan.Description.Read
import RolePlan.Description.Check
import RolePlan.Storage
import RolePlan.Composition
import RolePlan.Directory
import RolePlan.Main
import RolePlan.Proofs.InStep
import RolePlan.Proofs.History
import RolePlan.Proofs.Wiring
import RolePlan.Proofs.Reload
import RolePlan.Proofs.Faults
import RolePlan.Proofs.Removal
import RolePlan.Proofs.Interruption
import RolePlan.Proofs.Loading
import RolePlan.Proofs.Origin
import RolePlan.Proofs.Lookup
import RolePlan.Proofs.Lowercase
import RolePlan.Proofs.Resolution
import RolePlan.Proofs.NormalForm
import RolePlan.Proofs.Reference
import RolePlan.Proofs.Rearrangement
import RolePlan.Proofs.Maps
import RolePlan.Proofs.InlineTexts
import RolePlan.Proofs.Acceptance
import RolePlan.Proofs.Replacement
import RolePlan.Proofs.KeyOrder
import RolePlan.Proofs.KeyClash
import RolePlan.Proofs.Counterpart
import RolePlan.Proofs.Filtering
import RolePlan.Proofs.Placeholder
import RolePlan.Proofs.Isolation
import RolePlan.Proofs.Containers
