import Configurator.Arithmetic.Word
import Configurator.Calendar.Checked
import Configurator.Calendar.Date
import Configurator.Calendar.Format
import Configurator.Calendar.Instant
import Configurator.Calendar.Period
import Configurator.Calendar.Reading
import Configurator.Collection.OrderedMap
import Configurator.Collection.OrderedSet
import Configurator.Digest.Sha1
import Configurator.Error
import Configurator.Fault
import Configurator.Json.Numeral
import Configurator.Json.Reader
import Configurator.Json.Record
import Configurator.Json.Value
import Configurator.Linear.Coefficients
import Configurator.Linear.Inequality
import Configurator.Linear.Polyhedron
import Configurator.Linear.SparseMatrix
import Configurator.Logic.Connective
import Configurator.Logic.Constraint
import Configurator.Logic.Diagram
import Configurator.Logic.Lowering
import Configurator.Logic.Model
import Configurator.Objective.Weights
import Configurator.Optimizer.Exhaustive
import Configurator.Optimizer.Problem
import Configurator.Optimizer.Response
import Configurator.Persistence.Basic
import Configurator.Persistence.Linear
import Configurator.Persistence.Optimizer
import Configurator.Persistence.Request
import Configurator.Persistence.Ruleset
import Configurator.Persistence.Schedule
import Configurator.Request.Reduction
import Configurator.Request.Selection
import Configurator.Ruleset.Basic
import Configurator.Ruleset.Builder
import Configurator.Ruleset.Query
import Configurator.Ruleset.Solution
import Configurator.Schedule.Atoms
import Configurator.Schedule.Bounds
import Configurator.Text.Blank
import Configurator.Text.Decimal
import Configurator.Text.Hexadecimal
import Configurator.Text.Printable
import Configurator.Text.Quoted
import Configurator.Proofs.Arithmetic.Exact
import Configurator.Proofs.Linear.Form
import Configurator.Proofs.Linear.Point
import Configurator.Proofs.Linear.Row
import Configurator.Proofs.Logic.Cardinality
import Configurator.Proofs.Logic.Run
import Configurator.Proofs.Logic.WellFormed
import Configurator.Proofs.Logic.Evaluation
import Configurator.Proofs.Logic.Faithful
import Configurator.Proofs.Logic.Meaning
import Configurator.Proofs.Collection.Lookup
import Configurator.Proofs.Schedule.Grouping
import Configurator.Proofs.Ruleset.Requests
import Configurator.Proofs.Ruleset.Lowering
import Configurator.Proofs.Ruleset.Compile
import Configurator.Proofs.Objective.Dominance
import Configurator.Proofs.Request.Reduction
import Configurator.Proofs.Linear.Sparse
import Configurator.Proofs.Optimizer.Optimal
import Configurator.Proofs.Ruleset.Asking
import Configurator.Proofs.Ruleset.Compiled
import Configurator.Proofs.Ruleset.Extension
import Configurator.Proofs.Ruleset.Preparation
import Configurator.Proofs.Ruleset.Decoding
import Configurator.Proofs.Ruleset.Priority
import Configurator.Proofs.Optimizer.Exhaustive
import Configurator.Proofs.Logic.Growth
import Configurator.Proofs.Logic.Identity
import Configurator.Proofs.Logic.Acceptance
import Configurator.Proofs.Ruleset.Invariant
import Configurator.Proofs.Ruleset.Lexicographic
import Configurator.Proofs.Ruleset.Timing
import Configurator.Proofs.Ruleset.Pinning
import Configurator.Proofs.Objective.Range
import Configurator.Proofs.Ruleset.Feasibility
import Configurator.Proofs.Objective.Ranking
import Configurator.Proofs.Ruleset.Conservative
import Configurator.Proofs.Ruleset.Composite
import Configurator.Proofs.Ruleset.Refusal
import Configurator.Proofs.Ruleset.Lossless
import Configurator.Proofs.Logic.Rebuilding
import Configurator.Proofs.Logic.Representable
import Configurator.Proofs.Faultless
import Configurator.Proofs.Linear.Shape
import Configurator.Proofs.Ruleset.Safety
import Configurator.Proofs.Json.Strings
import Configurator.Proofs.Text.Digits
import Configurator.Proofs.Calendar.Reading
import Configurator.Proofs.Json.Reading
import Configurator.Proofs.Persistence.Lawful
import Configurator.Proofs.Json.Records
import Configurator.Proofs.Persistence.Records
import Configurator.Proofs.Ruleset.Persistence
import Configurator.Proofs.Objective.Derivation
import Configurator.Proofs.Objective.Limits
import Configurator.Proofs.Request.Lasting
import Configurator.Proofs.Request.Dropped
import Configurator.Proofs.Ruleset.Answers
import Configurator.Proofs.Linear.Appending
import Configurator.Proofs.Optimizer.Coordinates
import Configurator.Proofs.Lockstep
import Configurator.Proofs.Ruleset.AssumptionOrder
import Configurator.Proofs.Logic.Mention
import Configurator.Proofs.Ruleset.Contents
import Configurator.Proofs.Ruleset.Compilation
import Configurator.Proofs.Ruleset.Independence
import Configurator.Proofs.Logic.Linkable
import Configurator.Proofs.Logic.Labels
