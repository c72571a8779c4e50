import TestFocus.Main
import TestFocus.Proofs.Analysis.AssertionCalls
import TestFocus.Proofs.Analysis.OutputSafety
import TestFocus.Proofs.Analysis.TestIsolation
import TestFocus.Proofs.Mutation.OrderIndependence
import TestFocus.Proofs.Mutation.WriteChain
import TestFocus.Proofs.Reading.HeaderText
import TestFocus.Proofs.Reading.StatementText
import TestFocus.Proofs.Reading.ValueReading
import TestFocus.Proofs.Trace.NearestMutator
import TestFocus.Proofs.FlowGraph.Representation
import TestFocus.Proofs.Analysis.ControlFlow
import TestFocus.Proofs.Mutation.Watching
import TestFocus.Proofs.Mutation.MemoOrder
import TestFocus.Proofs.Comments.Invariance
import TestFocus.Proofs.Reading.Partition
import TestFocus.Proofs.Reading.Progress
import TestFocus.Proofs.Reading.Rounds
import TestFocus.Proofs.Reading.Window
import TestFocus.Proofs.Reading.ReadBack
import TestFocus.Proofs.Analysis.BodyRecords
import TestFocus.Proofs.Module.Items
import TestFocus.Proofs.Analysis.CallRecords
import TestFocus.Proofs.Mutation.Resolution
import TestFocus.Proofs.Config.RoundTrip
import TestFocus.Proofs.Mutation.AttributeGroups
import TestFocus.Proofs.Trace.Operands
import TestFocus.Proofs.Trace.Overwriting
import TestFocus.Proofs.Analysis.UnreadableLine
import TestFocus.Proofs.Dataflow.Uses
import TestFocus.Proofs.CallGraph.Distance
import TestFocus.Proofs.Module.Segments
import TestFocus.Proofs.Comments.Stripping
import TestFocus.Proofs.Reading.NamedGlobal
import TestFocus.Proofs.Reading.ParameterNames
import TestFocus.Proofs.Analysis.RepeatedDefinitions
import TestFocus.Proofs.FlowGraph.DotReading
import TestFocus.Proofs.Analysis.GraphFiles
import TestFocus.Proofs.Trace.WalkRun
import TestFocus.Proofs.Mutation.Termination
import TestFocus.Proofs.Reading.Grouping
import TestFocus.Proofs.Reading.Termination
import TestFocus.Proofs.Trace.Additions
