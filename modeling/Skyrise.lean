import Skyrise.Operator.Join.SortedMergeJoin
import Skyrise.Operator.Join.PartitionedJoin
import Skyrise.Concurrency.Run
import Skyrise.Scheduler.Coordinator.ProcessedCount
import Skyrise.Scheduler.Coordinator.WorkerAnswers
import Skyrise.Concurrency.Threads
import Skyrise.Scheduler.Worker.Waiting
import Skyrise.Scheduler.Worker.TaskExecutor
import Skyrise.Scheduler.Worker.AddedSuccessors
import Skyrise.Scheduler.Worker.WaitForAllTasks
import Skyrise.Storage.Backend.ObjectReader
import Skyrise.Storage.Backend.S3MultipartUploader
import Skyrise.Json.Value
import Skyrise.Compiler.Shuffle
import Skyrise.Compiler.HashedContent
import Skyrise.Expression.Equality
import Skyrise.Storage.Formats.ColumnarWriter
import Skyrise.Storage.Formats.CsvWriter
import Skyrise.Storage.Formats.ParquetExpression
import Skyrise.Operator.RowMovement
import Skyrise.Expression.Evaluation.PositionLists
import Skyrise.Expression.Evaluation.ResultCache
import Skyrise.Expression.Evaluation.OwnTypes
import Skyrise.Operator.Aggregate.AggregateOrder
import Skyrise.Operator.PartitionedRows
import Skyrise.Expression.Evaluation.Functors
import Skyrise.Metadata.CatalogReads
import Skyrise.Metadata.MetadataRoundTrip
import Skyrise.Operator.Export
import Skyrise.Operator.FilteredRows
import Skyrise.Expression.Evaluation.RowValues
import Skyrise.Operator.ProjectedRows
import Skyrise.Operator.Aggregate.GroupKeys
import Skyrise.Operator.Limit
import Skyrise.Operator.Aggregate.StringAggText
import Skyrise.Operator.Aggregate.AggregateContexts
import Skyrise.Compiler.LogicalQueryPlan.FunctionalDependencyLaws
import Skyrise.Storage.IoHandle.InputHandler
import Skyrise.Storage.Formats.ParquetInputProxy
import Skyrise.Storage.Backend.Stream
import Skyrise.Storage.Backend.DelegateStream
import Skyrise.Compiler.PipelineFragmentTemplate
import Skyrise.Operator.Aggregate.ReferenceRows
import Skyrise.Operator.Aggregate.TwoPhaseAggregation
import Skyrise.Serialization.SchemaSerialization
import Skyrise.Storage.Table.ChunkWriter
import Skyrise.Storage.Backend.S3ObjectUpload
import Skyrise.Scheduler.Coordinator.WorkerRequests
import Skyrise.Operator.Import
import Skyrise.Storage.IoHandle.ImportedObjects
import Skyrise.Storage.Formats.CsvChunks
import Skyrise.Compiler.AbstractPlanNode
import Skyrise.Storage.Backend.DynamoDb
import Skyrise.Operator.Aggregate.KeyEntries
import Skyrise.Operator.Join.Bookkeeping
import Skyrise.Utils.Concurrent.ConcurrentQueue
import Skyrise.Scheduler.Worker.OperatorTask
