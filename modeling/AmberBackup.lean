import AmberBackup.Lib.Table
import AmberBackup.Lib.Transition
import AmberBackup.Database.Types
import AmberBackup.Database.Service
import AmberBackup.Targets.TargetsService
import AmberBackup.Notifications.NotificationsService
import AmberBackup.Repositories.RepositoriesService
import AmberBackup.Agents.Results
import AmberBackup.Agents.Poll
import AmberBackup.Agents.PollAgreement
import AmberBackup.Jobs.IntegrityChecks
import AmberBackup.Server.Effects
import AmberBackup.Jobs.JobRunnerService
import AmberBackup.Server.StartBound
import AmberBackup.Server.FinalStates
import AmberBackup.Server.RestoreMoves
import AmberBackup.Server.RestoreGuard
import AmberBackup.Server.StaleSweep
import AmberBackup.Server.RetryChains
import AmberBackup.Auth.PasswordChange
import AmberBackup.Auth.SsoAccounts
import AmberBackup.Auth.KeySessions
import AmberBackup.Restic.Host
import AmberBackup.GoAgent.Restic
import AmberBackup.GoAgent.Main
import AmberBackup.GoAgent.TaskResultDto
import AmberBackup.GoAgent.Executions
import AmberBackup.GoAgent.AcceptedResults
import AmberBackup.Jobs.LocalBackup
import AmberBackup.GoAgent.BackupAgreement
import AmberBackup.Lib.Rotation
import AmberBackup.Jobs.Rotations
import AmberBackup.Targets.TargetEdits
import AmberBackup.Database.Rows
import AmberBackup.Jobs.EditCases
import AmberBackup.Common.Visibility
import AmberBackup.Lib.Ranks
import AmberBackup.Common.Slug
import AmberBackup.Database.SlugMigration
import AmberBackup.GoAgent.Worker
import AmberBackup.Agents.Enrollment
import AmberBackup.Server.CheckStarts
import AmberBackup.Auth.DevicePairings
import AmberBackup.Auth.PairingSteps
import AmberBackup.Auth.DeviceAuthService
import AmberBackup.Auth.SsoService
import AmberBackup.Auth.SsoIdentities
import AmberBackup.Auth.IdTokens
import AmberBackup.Settings.AdminAccess
import AmberBackup.Jobs.CronConvergence
import AmberBackup.Restore.RestorePins
import AmberBackup.Targets.RepoTests
import AmberBackup.Jobs.HostBoundaries
import AmberBackup.Jobs.JobPlacement
import AmberBackup.Lib.Sequences
import AmberBackup.Jobs.CronEntries
import AmberBackup.Jobs.LiveSchedules
import AmberBackup.Lib.Rollback
import AmberBackup.Jobs.EditStatements
import AmberBackup.Jobs.FailedEdits
import AmberBackup.Jobs.FailedRemovals
import AmberBackup.Settings.UserUpdates
import AmberBackup.Lib.JsonObject
import AmberBackup.Lib.Lookup
import AmberBackup.Lib.NatDouble
import AmberBackup.Lib.Timestamp
import AmberBackup.Restore.SnapshotsService
import AmberBackup.GoAgent.BackupOutput
import AmberBackup.Jobs.StoredCredentials
import AmberBackup.Targets.CredentialEdits
import AmberBackup.Jobs.OverridePlans
import AmberBackup.Jobs.SecretReferences
import AmberBackup.Jobs.OverrideLifeCycle
import AmberBackup.GoAgent.CommandLines
import AmberBackup.Restore.RestoreAgreement
import AmberBackup.Lib.Occurrences
import AmberBackup.Restic.CheckOutput
import AmberBackup.GoAgent.LineScanner
import AmberBackup.Jobs.CheckVerdicts
import AmberBackup.Audit.Redaction
import AmberBackup.Common.UniqueSlug
import AmberBackup.Common.SlugResolver
import AmberBackup.Repositories.StorageChart
import AmberBackup.Repositories.StatsReadings
import AmberBackup.Server.LateProgress
import AmberBackup.Lib.LikePattern
import AmberBackup.Lib.Paging
import AmberBackup.Lib.UuidText
import AmberBackup.Runs.ActivityFeed
import AmberBackup.Runs.Dashboard
import AmberBackup.Common.IpAllowlist
import AmberBackup.Targets.SftpCommand
import AmberBackup.Settings.AdminIpAllowlist
import AmberBackup.Lib.IpAddress
import AmberBackup.Lib.ShellWords
import AmberBackup.Lib.YamlScalar
import AmberBackup.Cli.Config
import AmberBackup.Cli.Main
import AmberBackup.Cli.Check
import AmberBackup.Lib.Counting
import AmberBackup.Reports.ReportsService
import AmberBackup.Agents.InstallCommand
import AmberBackup.Lib.Runes
import AmberBackup.Lib.NetUrl
import AmberBackup.Lib.PercentCoding
import AmberBackup.Lib.UrlHost
import AmberBackup.Cli.Credentials
import AmberBackup.Lib.Comparators
import AmberBackup.Restore.SnapshotBrowser
import AmberBackup.Lib.LineBuffer
import AmberBackup.Lib.Utf8Decoder
import AmberBackup.Restic.ScrubbedText
import AmberBackup.Restic.LineDelivery
import AmberBackup.Lib.LinkedRows
import AmberBackup.Database.RepositoryMigrations
import AmberBackup.Database.MigratedRepositories
import AmberBackup.Lib.Base64
import AmberBackup.Lib.Aead
import AmberBackup.Crypto.CryptoService
import AmberBackup.Crypto.SecretsService
import AmberBackup.Common.Versions
import AmberBackup.Lib.Postconditions
import AmberBackup.Common.UpdateMachine
import AmberBackup.Cli.Update
import AmberBackup.Cli.UpdateSafety
import AmberBackup.GoAgent.SelfUpdate
import AmberBackup.Cli.Login
import AmberBackup.Cli.LoginCalls
import AmberBackup.Cli.LoginSafety
