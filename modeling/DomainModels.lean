import DomainModels.Registry.External
import DomainModels.Settings.Reader
import DomainModels.Wire.Decode
import DomainModels.Wire.Encode
import DomainModels.Proofs.Outcome
import DomainModels.Proofs.Schema.ModelFile
import DomainModels.Proofs.Schema.Loaded
import DomainModels.Registry.Run
import DomainModels.Proofs.Registry.Run
import DomainModels.Proofs.Index.Ancestry
import DomainModels.Proofs.Index.Stages
import DomainModels.Proofs.Index.Build
import DomainModels.Proofs.Index.Root
import DomainModels.Proofs.Index.SuperChain
import DomainModels.Proofs.Index.Inheritance
import DomainModels.Proofs.Index.Properties
import DomainModels.Proofs.Index.Closure
import DomainModels.Proofs.Json.Double
import DomainModels.Proofs.Text.Percent
import DomainModels.Proofs.Text.Split
import DomainModels.Proofs.Uri.Pointer
import DomainModels.Proofs.Uri.Names
import DomainModels.Proofs.DateTime.Calendar
import DomainModels.Proofs.DateTime.Text
import DomainModels.Proofs.DateTime.Offsets
import DomainModels.Proofs.Schema.Defaults
import DomainModels.Proofs.Index.Types
import DomainModels.Proofs.Registry.Types
import DomainModels.Proofs.Instance.Fits
import DomainModels.Proofs.Instance.Factory
import DomainModels.Proofs.Json.Tree
import DomainModels.Proofs.Wire.Decode
import DomainModels.Proofs.Wire.Members
import DomainModels.Proofs.Wire.Runs
import DomainModels.Proofs.Wire.Encode
import DomainModels.Proofs.Wire.RoundTrip
import DomainModels.Proofs.Registry.Targets
import DomainModels.Proofs.Instance.Blame
import DomainModels.Proofs.Wire.Blame
import DomainModels.Proofs.Generator.Blame
import DomainModels.Proofs.Registry.ClosedWorld
import DomainModels.Proofs.Wire.Writing
import DomainModels.Proofs.Wire.Pointers
import DomainModels.Proofs.Wire.Agreement
import DomainModels.Proofs.Wire.Maps
import DomainModels.Proofs.Index.Carry
import DomainModels.Proofs.Registry.References
import DomainModels.Proofs.Registry.Maps
import DomainModels.Proofs.Index.Family
import DomainModels.Proofs.Registry.Addition
import DomainModels.Proofs.Registry.Names
import DomainModels.Proofs.Registry.Removal
import DomainModels.Proofs.Generator.Termination
import DomainModels.Proofs.Generator.Results
import DomainModels.Proofs.Wire.Acceptance
import DomainModels.Proofs.Generator.Validity
import DomainModels.Proofs.Index.Modes
import DomainModels.Proofs.Index.Identifiers
import DomainModels.Proofs.Instance.Defaults
import DomainModels.Proofs.Wire.Places
import DomainModels.Proofs.Wire.Log
import DomainModels.Proofs.Wire.Trace
import DomainModels.Proofs.Wire.Once
import DomainModels.Proofs.Wire.Relaxation
import DomainModels.Proofs.Metamodel.RoundTrip
import DomainModels.Proofs.Registry.External
import DomainModels.Proofs.Schema.Arrangement
import DomainModels.Proofs.Index.Arrangement
import DomainModels.Proofs.Registry.Arrangement
import DomainModels.Proofs.Index.Descendants
import DomainModels.Proofs.Wire.Layout
import DomainModels.Proofs.Wire.MemberOrder
import DomainModels.Proofs.Json.Nearest
import DomainModels.Proofs.Schema.Ranges
import DomainModels.Proofs.Wire.Ranges
import DomainModels.Proofs.Namespace.Text
import DomainModels.Proofs.Metamodel.Bundle
import DomainModels.Proofs.Generator.Nesting
import DomainModels.Proofs.Wire.FaultPaths
import DomainModels.Proofs.Registry.Requests
import DomainModels.Proofs.DateTime.Local
import DomainModels.Proofs.Registry.Restoration
import DomainModels.Proofs.Metamodel.Numbers
import DomainModels.Proofs.Registry.Origins
import DomainModels.Proofs.Text.Length
import DomainModels.Proofs.Uri.Scheme
import DomainModels.Proofs.Wire.BareIdentifiers
import DomainModels.Proofs.Generator.Texts
