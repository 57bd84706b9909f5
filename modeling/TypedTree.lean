import TypedTree.CommandLine.Disk
import TypedTree.Java.TypeCursor
import TypedTree.Main
import TypedTree.Once
import TypedTree.Proofs.AncestorQueries
import TypedTree.Proofs.BuildFailures
import TypedTree.Proofs.BuildRuns
import TypedTree.Proofs.BuildSteps
import TypedTree.Proofs.BuiltGraphs
import TypedTree.Proofs.ChoiceNarrowing
import TypedTree.Proofs.CommonTypeBound
import TypedTree.Proofs.CommonTypeColumns
import TypedTree.Proofs.CommonTypeExact
import TypedTree.Proofs.CommonTypeLevels
import TypedTree.Proofs.CommonTypeReversal
import TypedTree.Proofs.CommonTypeSets
import TypedTree.Proofs.CursorNames
import TypedTree.Proofs.CursorTypes
import TypedTree.Proofs.DeclarationOrder
import TypedTree.Proofs.DefaultNames
import TypedTree.Proofs.DependencyMembers
import TypedTree.Proofs.DependencyOrder
import TypedTree.Proofs.DepthFirst
import TypedTree.Proofs.DiskWrites
import TypedTree.Proofs.DistinctLists
import TypedTree.Proofs.EmittedModels
import TypedTree.Proofs.FallbackTypes
import TypedTree.Proofs.FinishingOrder
import TypedTree.Proofs.GenerateRuns
import TypedTree.Proofs.GrammarNotation
import TypedTree.Proofs.GraphAncestry
import TypedTree.Proofs.GraphGrowth
import TypedTree.Proofs.GraphHistories
import TypedTree.Proofs.GraphNodes
import TypedTree.Proofs.GraphOrders
import TypedTree.Proofs.HoistedMethods
import TypedTree.Proofs.HoistedReturns
import TypedTree.Proofs.HoistingExact
import TypedTree.Proofs.HoistingNumbers
import TypedTree.Proofs.HoistingOutcomes
import TypedTree.Proofs.HoistingRuns
import TypedTree.Proofs.HoistingSafety
import TypedTree.Proofs.JsonDecoding
import TypedTree.Proofs.JsonReading
import TypedTree.Proofs.KnownSupertypes
import TypedTree.Proofs.ListEffects
import TypedTree.Proofs.MemberCollisions
import TypedTree.Proofs.MergedTables
import TypedTree.Proofs.NameReading
import TypedTree.Proofs.OutputFiles
import TypedTree.Proofs.OwnMethods
import TypedTree.Proofs.ParallelBuilds
import TypedTree.Proofs.PatternLanguage
import TypedTree.Proofs.PlainNames
import TypedTree.Proofs.RedirectedGrammars
import TypedTree.Proofs.RenamedTokens
import TypedTree.Proofs.ReorderedGrammars
import TypedTree.Proofs.RepeatedMethods
import TypedTree.Proofs.ReturnKnowledge
import TypedTree.Proofs.ReturnSafety
import TypedTree.Proofs.SharedColumns
import TypedTree.Proofs.SharedOffers
import TypedTree.Proofs.SimilarGraphs
import TypedTree.Proofs.SingleInheritance
import TypedTree.Proofs.SlotAccessors
import TypedTree.Proofs.SlotGrowth
import TypedTree.Proofs.SourceReading
import TypedTree.Proofs.SubtypeOrder
import TypedTree.Proofs.TokenCoverage
import TypedTree.Proofs.TokenSkeletons
import TypedTree.Proofs.TypeIdentities
import TypedTree.Proofs.TypeReading
import TypedTree.Proofs.UsableNames
import TypedTree.Proofs.ValidGrammars
import TypedTree.Proofs.WellFormedGrammars
import TypedTree.Proofs.Spellings
