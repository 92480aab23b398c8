import GenericTypes.Text.Blank
import GenericTypes.Text.Decimal
import GenericTypes.Text.Marks
import GenericTypes.Text.Unassigned
import GenericTypes.Text.Quoted
import GenericTypes.Name.Primitive
import GenericTypes.Name.Array
import GenericTypes.Name.Short
import GenericTypes.Signature
import GenericTypes.RawType.Basic
import GenericTypes.RawType.Level
import GenericTypes.RawType.Assignable
import GenericTypes.TypeUse
import GenericTypes.Json.Token
import GenericTypes.Json.Value
import GenericTypes.Json.Quoted
import GenericTypes.Error
import GenericTypes.Registry.Definition
import GenericTypes.Registry.Basic
import GenericTypes.Registry.Define
import GenericTypes.Registry.Standard
import GenericTypes.Descriptor.Basic
import GenericTypes.Descriptor.Equality
import GenericTypes.Descriptor.Printer
import GenericTypes.Descriptor.Draft
import GenericTypes.Environment
import GenericTypes.ReadOptions
import GenericTypes.Descriptor.Reader
import GenericTypes.Descriptor.Conversion
import GenericTypes.Descriptor.Fit
import GenericTypes.Descriptor.Specificity
import GenericTypes.Descriptor.Boxing
import GenericTypes.Descriptor.Hierarchy
import GenericTypes.Proofs.Related
import GenericTypes.Proofs.Name.Array
import GenericTypes.Proofs.Registry.Lookup
import GenericTypes.Proofs.Registry.Remembering
import GenericTypes.Proofs.Registry.Reachable
import GenericTypes.Proofs.Registry.WellFormed
import GenericTypes.Proofs.Registry.Populated
import GenericTypes.Proofs.Registry.Handles
import GenericTypes.Proofs.RawType.Wrapping
import GenericTypes.Proofs.RawType.Subtyping
import GenericTypes.Proofs.RawType.Level
import GenericTypes.Proofs.Descriptor.Canonical
import GenericTypes.Proofs.Descriptor.Scan
import GenericTypes.Proofs.Text.Trim
import GenericTypes.Proofs.Signature.Layer
import GenericTypes.Proofs.Signature.Tree
import GenericTypes.Proofs.Descriptor.Equality
import GenericTypes.Proofs.Text.Spacing
import GenericTypes.Proofs.Descriptor.Completeness
import GenericTypes.Proofs.Descriptor.Soundness
import GenericTypes.Proofs.Descriptor.RoundTrip
import GenericTypes.Proofs.Descriptor.Language
import GenericTypes.Proofs.Registry.ArrayLookup
import GenericTypes.Proofs.Registry.Growth
import GenericTypes.Proofs.Registry.Transparency
import GenericTypes.Proofs.Registry.Atomicity
import GenericTypes.Proofs.Registry.Commutation
import GenericTypes.Proofs.Registry.AnswerNames
import GenericTypes.Proofs.Registry.Supertypes
import GenericTypes.Proofs.Registry.Inheritance
import GenericTypes.Proofs.Descriptor.Places
import GenericTypes.Proofs.Descriptor.Growth
import GenericTypes.Proofs.Descriptor.Conversion
import GenericTypes.Proofs.Descriptor.Substitution
import GenericTypes.Proofs.Descriptor.Search
import GenericTypes.Proofs.Descriptor.Equivalence
import GenericTypes.Proofs.Descriptor.OwnText
import GenericTypes.Proofs.Descriptor.Readback
import GenericTypes.Proofs.Descriptor.ReaderNodes
import GenericTypes.Proofs.Descriptor.Session
import GenericTypes.Proofs.Descriptor.SessionEquality
import GenericTypes.Proofs.Descriptor.Boxing
import GenericTypes.Proofs.Descriptor.Instances
import GenericTypes.Proofs.Descriptor.GenericSupertypes
import GenericTypes.Proofs.Descriptor.PlainTargets
import GenericTypes.Proofs.Descriptor.Specificity
import GenericTypes.Proofs.Descriptor.Fit
import GenericTypes.Proofs.Descriptor.Hierarchy
import GenericTypes.Proofs.Descriptor.Sorting
import GenericTypes.Proofs.Descriptor.NominalIdentity
import GenericTypes.Proofs.Descriptor.Outcome
import GenericTypes.Proofs.Descriptor.Leniency
import GenericTypes.Proofs.Descriptor.Grammar
import GenericTypes.Proofs.Descriptor.ErrorPosition
import GenericTypes.Proofs.RawType.Climb
import GenericTypes.Proofs.Descriptor.Truncation
import GenericTypes.Proofs.Descriptor.Build
import GenericTypes.Proofs.Descriptor.RepeatedBuild
import GenericTypes.Proofs.Descriptor.Decomposition
import GenericTypes.Proofs.Registry.Restatement
import GenericTypes.Proofs.Descriptor.Display
