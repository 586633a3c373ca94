import ExploratoryOptimizer.Library.Scan
import ExploratoryOptimizer.Library.Tournament
import ExploratoryOptimizer.Path
import ExploratoryOptimizer.AddPath
import ExploratoryOptimizer.SetCheapest
import ExploratoryOptimizer.FractionalPath
import ExploratoryOptimizer.Conservative
import ExploratoryOptimizer.JoinPrecheck
import ExploratoryOptimizer.JoinPath
import ExploratoryOptimizer.HashJoinPath
import ExploratoryOptimizer.SortMergePath
import ExploratoryOptimizer.Library.Heap
import ExploratoryOptimizer.Projection
import ExploratoryOptimizer.UpperPaths
import ExploratoryOptimizer.Aqo.OkNNr
import ExploratoryOptimizer.Aqo.Session
import ExploratoryOptimizer.PathTree
import ExploratoryOptimizer.Aqo.PlanStat
import ExploratoryOptimizer.Aqo.Hash
import ExploratoryOptimizer.Library.FirstWrite
import ExploratoryOptimizer.Aqo.SelectivityCache
import ExploratoryOptimizer.Aqo.PlanMatch
import ExploratoryOptimizer.Library.FuzzyTournament
import ExploratoryOptimizer.Offers
import ExploratoryOptimizer.ExploreFront
import ExploratoryOptimizer.Pathkeys
import ExploratoryOptimizer.UnsortedOuter
import ExploratoryOptimizer.Aqo.QueryHistory
import ExploratoryOptimizer.Aqo.HashAny
import ExploratoryOptimizer.Aqo.MarkovTable
import ExploratoryOptimizer.WorkloadDriver
import ExploratoryOptimizer.Aqo.QueryHash
import ExploratoryOptimizer.Aqo.Lwpr.Model
import ExploratoryOptimizer.Aqo.Lwpr.Predict
import ExploratoryOptimizer.Aqo.Lwpr.ExploreBounds
import ExploratoryOptimizer.Aqo.Lwpr.Update
import ExploratoryOptimizer.Aqo.Lwpr.Storage
import ExploratoryOptimizer.Aqo.Lwpr.Forget
import ExploratoryOptimizer.Aqo.Lwpr.Reload
import ExploratoryOptimizer.HashPairing
import ExploratoryOptimizer.JoinSteps
import ExploratoryOptimizer.HashParameters
import ExploratoryOptimizer.Library.Fallible
import ExploratoryOptimizer.UniqueRequests
import ExploratoryOptimizer.Aqo.FeatureSubspace
import ExploratoryOptimizer.Aqo.FeatureConsts
import ExploratoryOptimizer.Aqo.Eclasses
import ExploratoryOptimizer.Aqo.FeatureSwap
import ExploratoryOptimizer.Aqo.Lwpr.Reachable
import ExploratoryOptimizer.Aqo.Lwpr.Prediction
import ExploratoryOptimizer.Aqo.Lwpr.Leverage
import ExploratoryOptimizer.Library.Sorting
import ExploratoryOptimizer.Aqo.Lwpr.AddPrune
import ExploratoryOptimizer.Aqo.Lwpr.Means
import ExploratoryOptimizer.Aqo.Lwpr.Metric
import ExploratoryOptimizer.Aqo.Lwpr.PlainPrediction
import ExploratoryOptimizer.Aqo.Lwpr.History
import ExploratoryOptimizer.Aqo.Lwpr.Planning
import ExploratoryOptimizer.Aqo.BestCosts
import ExploratoryOptimizer.Aqo.Lwpr.SampleStore
import ExploratoryOptimizer.Aqo.Nearest
import ExploratoryOptimizer.Library.Unrolled
import ExploratoryOptimizer.Aqo.Lwpr.Kernels
import ExploratoryOptimizer.Library.Decimal
import ExploratoryOptimizer.Library.OneBased
import ExploratoryOptimizer.Aqo.MarkovStore
import ExploratoryOptimizer.Aqo.MarkovRuns
import ExploratoryOptimizer.JoinSearch.Legal
import ExploratoryOptimizer.Library.Attempt
import ExploratoryOptimizer.JoinSearch.Eclass
import ExploratoryOptimizer.JoinSearch.Search
import ExploratoryOptimizer.JoinSearch.Steps
import ExploratoryOptimizer.Library.Blocks
import ExploratoryOptimizer.JoinSearch.Levels
import ExploratoryOptimizer.JoinSearch.Clauses
import ExploratoryOptimizer.Library.Saturation
import ExploratoryOptimizer.Library.JoinTree
import ExploratoryOptimizer.JoinSearch.Rels
import ExploratoryOptimizer.JoinSearch.Order
import ExploratoryOptimizer.JoinSearch.Plain
import ExploratoryOptimizer.Library.Connected
import ExploratoryOptimizer.JoinSearch.Enumeration
import ExploratoryOptimizer.JoinSearch.Joinlist
import ExploratoryOptimizer.JoinSearch.Pairs
