import QaPlatform.Automation.DeviceExclusivity
import QaPlatform.Runtime.DeviceLeaseBounds
import QaPlatform.Runtime.QualityGate
import QaPlatform.Runtime.Absorption
import QaPlatform.Runtime.TriggerIntents
import QaPlatform.Runtime.TriggerCalls
import QaPlatform.Runtime.WakeupCoverage
import QaPlatform.Runtime.LocalVerdicts
import QaPlatform.Runtime.TaskLifecycle
import QaPlatform.Runtime.ScheduleIsolation
import QaPlatform.Runtime.ReplacedLeases
import QaPlatform.Runtime.PoisonSchedules
import QaPlatform.CiLab.RefusedDeliveries
import QaPlatform.Runtime.EgressPaths
import QaPlatform.Services.LockStep
import QaPlatform.Services.ExecutionTransitions
import QaPlatform.Services.SuiteForest
import QaPlatform.Services.DefectAudit
import QaPlatform.Runtime.ScheduleEdits
import QaPlatform.Worker.Runner
import QaPlatform.Services.Attachments
import QaPlatform.Services.S3Storage
import QaPlatform.Runtime.QueueAgreement
import QaPlatform.Automation.Maintenance
import QaPlatform.Automation.SchedulerAccounting
import QaPlatform.Runtime.DeviceViews
import QaPlatform.Runtime.StrandedArtifacts
import QaPlatform.Runtime.WebhookReduction
import QaPlatform.Runtime.TriggerIdempotency
import QaPlatform.Runtime.ReadyArtifacts
import QaPlatform.Runtime.LearningCiContract
import QaPlatform.Services.QualityTrends
import QaPlatform.Runtime.WebhookAuthentication
import QaPlatform.Services.SuiteRoundTrip
import QaPlatform.Base.Grouped
import QaPlatform.Services.ImportPayloads
import QaPlatform.Services.ImportConservation
import QaPlatform.Services.ImportFiles
import QaPlatform.Services.ImportEscapes
import QaPlatform.Base.Edits
import QaPlatform.Base.Dict
import QaPlatform.Pipeline.Runs
import QaPlatform.Pipeline.StatusTree
import QaPlatform.Pipeline.Reconciliation
import QaPlatform.Pipeline.Advances
import QaPlatform.Pipeline.Service
import QaPlatform.Base.CacheAside
import QaPlatform.Services.CachedProjects
import QaPlatform.Services.CacheFreshness
import QaPlatform.Base.Spans
import QaPlatform.CiLab.Timeline
import QaPlatform.CiLab.StageViews
import QaPlatform.CiLab.RunLives
import QaPlatform.Runtime.JsonTexts
import QaPlatform.CiLab.AgreeingViews
import QaPlatform.CiLab.ViewHistories
import QaPlatform.Pipeline.SoundRuns
import QaPlatform.Pipeline.Saves
import QaPlatform.Pipeline.Sections
import QaPlatform.Pipeline.ServiceSteps
import QaPlatform.Pipeline.DurableMemory
import QaPlatform.Pipeline.Lasting
import QaPlatform.Pipeline.CallbackAtomicity
import QaPlatform.Pipeline.TreeInvariant
import QaPlatform.Pipeline.Outcomes
import QaPlatform.Pipeline.Progress
import QaPlatform.Pipeline.OtherRuns
import QaPlatform.Pipeline.UndisturbedRuns
import QaPlatform.Services.Identity
import QaPlatform.Services.IdentitySteps
import QaPlatform.Services.Accounts
import QaPlatform.Services.AccountSteps
import QaPlatform.Services.SessionSafety
import QaPlatform.Services.LoginLockout
import QaPlatform.Services.OidcLogins
import QaPlatform.Services.OidcSteps
import QaPlatform.Pipeline.Persistence
import QaPlatform.Base.Csv
import QaPlatform.Services.Exports
import QaPlatform.Base.ForeignKeys
import QaPlatform.Services.Templates
import QaPlatform.Services.SnapshotHistory
