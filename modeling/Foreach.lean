import Foreach.Evaluation.Script
import Foreach.Main
import Foreach.Vocabulary
import Foreach.Proofs.Tree.Growth
import Foreach.Proofs.Tree.Reach
import Foreach.Proofs.Tree.Completion
import Foreach.Proofs.Evaluation.Actions
import Foreach.Proofs.Evaluation.Discipline
import Foreach.Proofs.Evaluation.Steady
import Foreach.Proofs.Evaluation.Sessions
import Foreach.Proofs.Lowering.LoopTree
import Foreach.Proofs.Lowering.LoopMeaning
import Foreach.Proofs.Lowering.LoopBlock
import Foreach.Proofs.Samples.Registered
import Foreach.Proofs.Samples.SumTree
import Foreach.Proofs.Samples.SumRun
import Foreach.Proofs.Types.Becomes
import Foreach.Proofs.Types.Mirror
import Foreach.Proofs.Types.Sound
import Foreach.Proofs.Types.Substitution
import Foreach.Proofs.Types.Untouched
import Foreach.Proofs.Types.Propagation
import Foreach.Proofs.Types.Reached
import Foreach.Proofs.Types.Replacement
import Foreach.Proofs.Types.Mapping
import Foreach.Proofs.Types.Named
import Foreach.Proofs.Pattern.Detection
import Foreach.Proofs.Pattern.TwinDetection
import Foreach.Proofs.Pattern.Policies
import Foreach.Proofs.Lowering.Refusal
import Foreach.Proofs.Lowering.Outcome
import Foreach.Proofs.Samples.SumText
import Foreach.Proofs.Lowering.Access
import Foreach.Proofs.Types.Additions
import Foreach.Proofs.Types.Demand
import Foreach.Proofs.Types.Termination
import Foreach.Proofs.Evaluation.Breaks
import Foreach.Proofs.Types.Canonical
import Foreach.Proofs.Types.Changes
import Foreach.Proofs.Types.Convertible
import Foreach.Proofs.Types.Sorts
import Foreach.Proofs.Types.Dispatch
import Foreach.Proofs.Pattern.Disposals
import Foreach.Proofs.Tree.Assembled
import Foreach.Proofs.Tree.Branching
import Foreach.Proofs.Lowering.Assembling
import Foreach.Proofs.Source.Introductions
import Foreach.Proofs.Source.Returns
import Foreach.Proofs.Types.Overriding
import Foreach.Proofs.Lowering.UsingMeaning
import Foreach.Proofs.Source.Nested
import Foreach.Proofs.Source.Grouping
import Foreach.Proofs.Pattern.Lasting
import Foreach.Proofs.Samples.Counters
import Foreach.Proofs.NameTable
import Foreach.Proofs.CommandLine.Placement
import Foreach.Proofs.Evaluation.BuiltTrees
