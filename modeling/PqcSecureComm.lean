import PqcSecureComm.Lib.Fallible
import PqcSecureComm.Lib.PrefixCode
import PqcSecureComm.Lib.SlidingWindow
import PqcSecureComm.Lib.Machine
import PqcSecureComm.Lib.FreshChannel
import PqcSecureComm.Lib.Correspondence
import PqcSecureComm.Lib.LastWins
import PqcSecureComm.Lib.Binary64
import PqcSecureComm.Lib.Renumbering
import PqcSecureComm.Lib.Csv
import PqcSecureComm.Lib.OrderStatistic
import PqcSecureComm.Lib.Rounding
import PqcSecureComm.Python
import PqcSecureComm.Messages
import PqcSecureComm.TwistAdapter
import PqcSecureComm.ReplayWindow
import PqcSecureComm.ReplayOrder
import PqcSecureComm.KeyStore
import PqcSecureComm.TrustLoading
import PqcSecureComm.TrustValidation
import PqcSecureComm.Signer
import PqcSecureComm.Numbering
import PqcSecureComm.Verifier
import PqcSecureComm.VerifierRuns
import PqcSecureComm.Accounting
import PqcSecureComm.ReplayMemory
import PqcSecureComm.Isolation
import PqcSecureComm.Stability
import PqcSecureComm.FaultRecovery
import PqcSecureComm.Restart
import PqcSecureComm.Completeness
import PqcSecureComm.Provisioning
import PqcSecureComm.Rotation
import PqcSecureComm.System
import PqcSecureComm.Agreement
import PqcSecureComm.IdealChannel
import PqcSecureComm.LatencyRunner
import PqcSecureComm.Pipeline
import PqcSecureComm.Evaluation
import PqcSecureComm.Reordering
import PqcSecureComm.BenchmarkCsv
import PqcSecureComm.BenchmarkRun
import PqcSecureComm.Statistics
import PqcSecureComm.Replies
import PqcSecureComm.PlainMeasurement
import PqcSecureComm.BenchmarkEnd
