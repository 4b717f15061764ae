import Telemetry.Main
import Telemetry.Proofs.KeyMaps
import Telemetry.Proofs.Doubles.Rounding
import Telemetry.Proofs.Doubles.Scaling
import Telemetry.Proofs.Doubles.ShortestDecimals
import Telemetry.Proofs.Documents.NumberTexts
import Telemetry.Proofs.Documents.ScannedTexts
import Telemetry.Proofs.Documents.ReadTexts
import Telemetry.Proofs.Documents.ReadableDocuments
import Telemetry.Proofs.Storage.PlainStore
import Telemetry.Proofs.Storage.TransactionRows
import Telemetry.Proofs.Metadata.ChangeNotices
import Telemetry.Proofs.Metadata.ChannelReaders
import Telemetry.Proofs.Metadata.PathMap
import Telemetry.Proofs.Metadata.StoreRefinement
import Telemetry.Proofs.Metadata.WatchStreams
import Telemetry.Proofs.Storage.BackendEquivalence
import Telemetry.Proofs.Storage.SharedDatabases
import Telemetry.Proofs.Cluster.CanonicalMembers
import Telemetry.Proofs.Cluster.ListeningSteps
import Telemetry.Proofs.Cluster.MembershipViews
import Telemetry.Proofs.Calendar.DayNumbers
import Telemetry.Proofs.Calendar.Windows
import Telemetry.Proofs.Calendar.WindowStarts
import Telemetry.Proofs.Storage.RetentionSweep
import Telemetry.Proofs.Collector.RetentionHorizon
import Telemetry.Proofs.Collector.TableNames
import Telemetry.Proofs.Records.ColumnwiseMerge
import Telemetry.Proofs.Records.LenientFolds
import Telemetry.Proofs.Records.DocumentCodec
import Telemetry.Proofs.Storage.BatchExecution
import Telemetry.Proofs.Storage.PersistedRecords
import Telemetry.Proofs.Storage.DeliveredFolds
import Telemetry.Proofs.Module.DependencyOrders
import Telemetry.Proofs.Module.HookCalls
import Telemetry.Proofs.Module.BootstrapLifecycle
import Telemetry.Proofs.Records.AssociativeMerge
import Telemetry.Proofs.Storage.BatchOutcomes
import Telemetry.Proofs.Storage.DrainedBatches
import Telemetry.Proofs.Collector.ArchiveRuns
import Telemetry.Proofs.Collector.CompleteCycles
import Telemetry.Proofs.Collector.BucketedRows
import Telemetry.Proofs.Collector.InterleavedDeletions
import Telemetry.Proofs.Storage.MatchingRows
import Telemetry.Proofs.Collector.RecordIsolation
import Telemetry.Proofs.Collector.ReplayedLines
import Telemetry.Proofs.Collector.RecordRouting
import Telemetry.Proofs.Collector.RunningCollectors
import Telemetry.Proofs.Collector.UntouchedPlaces
import Telemetry.Proofs.Collector.RowLifetimes
import Telemetry.Proofs.Records.DivergingRecords
import Telemetry.Proofs.Storage.AtomicBatches
import Telemetry.Proofs.Storage.StrictRows
import Telemetry.Proofs.Calendar.BucketRanges
import Telemetry.Proofs.Module.LeastOrders
import Telemetry.Proofs.Collector.HeartbeatTimes
import Telemetry.Proofs.Cluster.StandingMembers
import Telemetry.Proofs.Records.ClosedFolds
import Telemetry.Proofs.Storage.RoundTrips
import Telemetry.Proofs.Storage.InPlaceRows
import Telemetry.Proofs.Module.ReportedCycles
import Telemetry.Proofs.Metadata.WatchedListings
import Telemetry.Proofs.Cluster.Elections
import Telemetry.Proofs.Records.RepeatedRecords
import Telemetry.Proofs.Records.StrictMerges
import Telemetry.Proofs.Calendar.BucketOrder
import Telemetry.Proofs.Storage.BatchComposition
import Telemetry.Proofs.Storage.GatedSweeps
import Telemetry.Proofs.Storage.RetentionCutoffs
import Telemetry.Proofs.Settings.CheckedConfigurations
