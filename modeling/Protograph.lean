import Protograph.Main
import Protograph.Proofs.Failure
import Protograph.Proofs.Reading
import Protograph.Proofs.Enumeration
import Protograph.Proofs.EntityMessage
import Protograph.Proofs.Listing
import Protograph.Proofs.EntityOutput
import Protograph.Proofs.Outputs
import Protograph.Proofs.ImportOrder
import Protograph.Proofs.Symbols
import Protograph.Proofs.Pool
import Protograph.Proofs.Canonical
import Protograph.Proofs.Assembly
import Protograph.Proofs.Units
import Protograph.Proofs.Evaluation
import Protograph.Proofs.EdgeTargets
import Protograph.Proofs.Soundness
import Protograph.Proofs.Fatal
import Protograph.Proofs.Carried
import Protograph.Proofs.Synthesized
import Protograph.Proofs.Consistency
import Protograph.Proofs.Grouping
import Protograph.Proofs.Packages
import Protograph.Proofs.Paths
import Protograph.Proofs.Spelling
import Protograph.Proofs.Capture
import Protograph.Proofs.Claiming
import Protograph.Proofs.Retention
import Protograph.Proofs.Queries
import Protograph.Proofs.Imports
import Protograph.Proofs.Dependence
import Protograph.Proofs.Words
import Protograph.Proofs.Acceptance
import Protograph.Proofs.Arrangement
import Protograph.Proofs.Reordering
import Protograph.Proofs.Extension
import Protograph.Proofs.Restriction
import Protograph.Proofs.Blocks
import Protograph.Proofs.Outline
import Protograph.Proofs.Placement
import Protograph.Proofs.Effects
import Protograph.Proofs.Runs
import Protograph.Proofs.Decoding
import Protograph.Proofs.Ranges
import Protograph.Proofs.Walk
import Protograph.Proofs.Numbering
import Protograph.Proofs.Layout
import Protograph.Proofs.Declared
import Protograph.Proofs.Identifiers
import Protograph.Proofs.Filters
import Protograph.Proofs.Definitions
import Protograph.Proofs.Blame
import Protograph.Proofs.Qualification
import Protograph.Proofs.Skipping
import Protograph.Proofs.Completion
import Protograph.Proofs.FixedPoint
import Protograph.Proofs.Lookup
import Protograph.Proofs.Forms
import Protograph.Proofs.Ingestion
