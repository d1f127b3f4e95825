import PojoGraph.Main
import PojoGraph.Pojo.Draft
import PojoGraph.Proofs.Checks
import PojoGraph.Proofs.Classification.Arrays
import PojoGraph.Proofs.Classification.Bottom
import PojoGraph.Proofs.Classification.Degradation
import PojoGraph.Proofs.Classification.Discovery
import PojoGraph.Proofs.Classification.EnumDescriptions
import PojoGraph.Proofs.Classification.Everywhere
import PojoGraph.Proofs.Classification.Formats
import PojoGraph.Proofs.Classification.Granted
import PojoGraph.Proofs.Classification.Names
import PojoGraph.Proofs.Classification.NullBranches
import PojoGraph.Proofs.Classification.Plain
import PojoGraph.Proofs.Classification.ReferredNames
import PojoGraph.Proofs.Classification.Scope
import PojoGraph.Proofs.Classification.Sites
import PojoGraph.Proofs.Constraints.Bounds
import PojoGraph.Proofs.Dispatch.Listed
import PojoGraph.Proofs.Dispatch.Runs
import PojoGraph.Proofs.Dispatch.Tables
import PojoGraph.Proofs.Document.Properties
import PojoGraph.Proofs.Document.Reading
import PojoGraph.Proofs.Document.WellFormed
import PojoGraph.Proofs.Encoding.Documents
import PojoGraph.Proofs.Encoding.Nesting
import PojoGraph.Proofs.Encoding.Numbers
import PojoGraph.Proofs.Encoding.Rereading
import PojoGraph.Proofs.Encoding.Scalars
import PojoGraph.Proofs.Encoding.Schemas
import PojoGraph.Proofs.Encoding.Texts
import PojoGraph.Proofs.Extraction.Classification
import PojoGraph.Proofs.Extraction.Run
import PojoGraph.Proofs.Extraction.Schemas
import PojoGraph.Proofs.Extraction.Sweep
import PojoGraph.Proofs.Frame.PojoSet
import PojoGraph.Proofs.Frame.Resolution
import PojoGraph.Proofs.Frame.Run
import PojoGraph.Proofs.Frame.Sweep
import PojoGraph.Proofs.Gathering.Closure
import PojoGraph.Proofs.Gathering.Layers
import PojoGraph.Proofs.Gathering.References
import PojoGraph.Proofs.Lists.Repetitions
import PojoGraph.Proofs.Names.Ascii
import PojoGraph.Proofs.Names.Claiming
import PojoGraph.Proofs.Names.FirstFree
import PojoGraph.Proofs.Names.Granting
import PojoGraph.Proofs.Names.Identity
import PojoGraph.Proofs.Names.Numbering
import PojoGraph.Proofs.Order.PojoSet
import PojoGraph.Proofs.Order.Resolution
import PojoGraph.Proofs.Order.Run
import PojoGraph.Proofs.Order.Sweep
import PojoGraph.Proofs.PojoSet.Aliases
import PojoGraph.Proofs.PojoSet.Compositions
import PojoGraph.Proofs.PojoSet.Copies
import PojoGraph.Proofs.PojoSet.Descriptions
import PojoGraph.Proofs.PojoSet.Expansion
import PojoGraph.Proofs.PojoSet.Inlining
import PojoGraph.Proofs.PojoSet.Mentions
import PojoGraph.Proofs.PojoSet.References
import PojoGraph.Proofs.PojoSet.Renaming
import PojoGraph.Proofs.PojoSet.Revisions
import PojoGraph.Proofs.PojoSet.Scope
import PojoGraph.Proofs.PojoSet.ScopedSteps
import PojoGraph.Proofs.PojoSet.Steps
import PojoGraph.Proofs.PojoSet.Substitution
import PojoGraph.Proofs.Resolution.Ambiguity
import PojoGraph.Proofs.Resolution.Chains
import PojoGraph.Proofs.Resolution.FixedPoint
import PojoGraph.Proofs.Resolution.Kept
import PojoGraph.Proofs.Resolution.Reports
import PojoGraph.Proofs.Resolution.Result
import PojoGraph.Proofs.Resolution.Revised
import PojoGraph.Proofs.Resolution.Rounds
import PojoGraph.Proofs.Resolution.Scope
import PojoGraph.Proofs.Run.Additional
import PojoGraph.Proofs.Run.Binding
import PojoGraph.Proofs.Run.Closure
import PojoGraph.Proofs.Run.Course
import PojoGraph.Proofs.Run.Descriptions
import PojoGraph.Proofs.Run.Documents
import PojoGraph.Proofs.Run.Flattening
import PojoGraph.Proofs.Run.Inlining
import PojoGraph.Proofs.Run.Mappings
import PojoGraph.Proofs.Run.MemberStates
import PojoGraph.Proofs.Run.Nullability
import PojoGraph.Proofs.Run.Origins
import PojoGraph.Proofs.Run.Outcome
import PojoGraph.Proofs.Run.Overrides
import PojoGraph.Proofs.Run.Plains
import PojoGraph.Proofs.Run.Preflight
import PojoGraph.Proofs.Run.Properties
import PojoGraph.Proofs.Run.Provenance
import PojoGraph.Proofs.Run.Suffixes
import PojoGraph.Proofs.Spelling.Classification
import PojoGraph.Proofs.Spelling.Run
import PojoGraph.Proofs.Spelling.Schemas
import PojoGraph.Proofs.Suffix.Classification
import PojoGraph.Proofs.Suffix.Names
import PojoGraph.Proofs.Suffix.PojoSet
import PojoGraph.Proofs.Suffix.Run
import PojoGraph.Proofs.Suffix.Sweep
import PojoGraph.Proofs.Sweep.Accounting
import PojoGraph.Proofs.Sweep.Passes
import PojoGraph.Proofs.Sweep.Settings
import PojoGraph.Proofs.Sweep.Warnings
import PojoGraph.Proofs.Sweep.Waves
import PojoGraph.Proofs.Text.Lines
