import Sysbench.Proofs.Rand
import Sysbench.Proofs.ResultOwnership
import Sysbench.Proofs.Timer
import Sysbench.Proofs.Counter
import Sysbench.Proofs.EventLimit
import Sysbench.Proofs.StartBarrier
import Sysbench.Proofs.TimerCheckpoint
import Sysbench.Proofs.EventQueue
import Sysbench.Proofs.OptionsRegistry
import Sysbench.Proofs.OptionsStages
import Sysbench.Proofs.CompareHandles
import Sysbench.Proofs.FileThreads
import Sysbench.Proofs.PgsqlRows
import Sysbench.Proofs.ThreadRun
import Sysbench.Proofs.CompareVerdict
import Sysbench.Proofs.CompareConnect
import Sysbench.Proofs.Placeholders
import Sysbench.Proofs.BulkRows
import Sysbench.Proofs.TimerRunning
import Sysbench.Proofs.HistogramPercentile
import Sysbench.Proofs.OptionsValidators
import Sysbench.Proofs.Barrier
import Sysbench.Proofs.MysqlEndpoints
import Sysbench.Proofs.PgsqlPrepare
import Sysbench.Proofs.PgsqlParams
import Sysbench.Proofs.PgsqlResults
import Sysbench.Proofs.OptionsSpacing
import Sysbench.Proofs.FileSequential
import Sysbench.Proofs.FileCreate
import Sysbench.Proofs.FileRatio
import Sysbench.Proofs.FileBuffers
import Sysbench.Proofs.MemoryTotal
import Sysbench.Proofs.Prepare
import Sysbench.Proofs.RandomSegments
import Sysbench.Proofs.StringParams
import Sysbench.Proofs.PrintSizes
import Sysbench.Proofs.SbList
import Sysbench.Proofs.Checkpoints
import Sysbench.Proofs.ConfigLine
import Sysbench.Proofs.Logger
import Sysbench.Proofs.OrderedPairs
import Sysbench.Proofs.BindParams
