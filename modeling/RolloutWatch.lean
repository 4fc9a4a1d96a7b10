import RolloutWatch.Main
import RolloutWatch.Program.Workspace
import RolloutWatch.Proofs.Cipher.Credential
import RolloutWatch.Proofs.Driver.History
import RolloutWatch.Proofs.Evaluation.Atomicity
import RolloutWatch.Proofs.Evaluation.Concurrency
import RolloutWatch.Proofs.Evaluation.Independence
import RolloutWatch.Proofs.Evaluation.Names
import RolloutWatch.Proofs.Evaluation.Success
import RolloutWatch.Proofs.Evaluation.Untouched
import RolloutWatch.Proofs.Memory.History
import RolloutWatch.Proofs.Memory.Removal
import RolloutWatch.Proofs.Metric.Document
import RolloutWatch.Proofs.Metric.Remainder
import RolloutWatch.Proofs.Prometheus.Endpoint
import RolloutWatch.Proofs.Prometheus.Literal
import RolloutWatch.Proofs.Prometheus.Question
import RolloutWatch.Proofs.Prometheus.Sample
import RolloutWatch.Proofs.Relational.Chronology
import RolloutWatch.Proofs.Relational.ReadBack
import RolloutWatch.Proofs.Relational.Runs
import RolloutWatch.Proofs.Scheduler.Independence
import RolloutWatch.Proofs.Service.Circles
import RolloutWatch.Proofs.Service.FailedCalls
import RolloutWatch.Proofs.Service.PersistedAnswers
import RolloutWatch.Proofs.Service.SourceLifecycle
import RolloutWatch.Proofs.Service.StoredGroups
import RolloutWatch.Proofs.Service.Updates
import RolloutWatch.Proofs.Settings.Limits
