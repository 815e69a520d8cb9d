import IamService.EffectPrograms
import IamService.RelyGuarantee
import IamService.OperationFootprints
import IamService.Obligations
import IamService.HandlerSimulations
import IamService.FairSemaphores
import IamService.PermitPrograms
import IamService.SignatureSums
import IamService.ExpiringStore
import IamService.TimedCaches
import IamService.RelationTables
import IamService.TableHistories
import IamService.CharacterSequences
import IamService.DecimalNumerals
import IamService.IdentityModels
import IamService.CacheKeys
import IamService.DatabaseSchema
import IamService.ServiceEffects
import IamService.PasswordService
import IamService.UserRepository
import IamService.WalletRepository
import IamService.Infrastructure
import IamService.AccountMethods
import IamService.WalletMethods
import IamService.ServiceRuns
import IamService.MethodFootprints
import IamService.UserStatements
import IamService.WalletStatements
import IamService.WalletCallRuns
import IamService.ReferenceLibraries
import IamService.ReferenceStates
import IamService.ChainConfirmation
import IamService.WalletFailureAtomicity
import IamService.PrimaryWalletInvariant
import IamService.CustodialKeyCustody
import IamService.RegisteredFlagSoundness
import IamService.OnChainProfileAgreement
import IamService.PasswordResetTargets
import IamService.PasswordResetRevocation
import IamService.ResetTokenReuse
import IamService.SessionVerification
import IamService.LoginRuns
import IamService.LockoutAutomaton
import IamService.AccountLockout
import IamService.BruteForceBound
import IamService.ExclusiveSections
import IamService.RateLimiting
import IamService.ResetLoginRace
import IamService.LoginIdentifiers
import IamService.RolePermissions
import IamService.AuthorizePolicy
import IamService.WalletAddressTracking
import IamService.TenantIsolation
import IamService.KafkaEventBus
import IamService.OutboxRepository
import IamService.OutboxStatements
import IamService.EventSerialization
import IamService.OutboxDelivery
import IamService.OutboxRedelivery
import IamService.EventRelay
import IamService.ApiKeyVerification
import IamService.ApiKeyRevocation
import IamService.ProfileStaleness
import IamService.AccountEnumeration
import IamService.OnboardingRuns
import IamService.OnboardingIdempotence
import IamService.DriftRecovery
import IamService.RateLimitWindows
import IamService.RateLimitBudgets
import IamService.OutboxDrain
import IamService.EventBus
import IamService.EventBatches
import IamService.PasswordPolicy
import IamService.SessionLifetimes
import IamService.TemporaryPasswords
import IamService.ErrorResponses
import IamService.WalletLinkConflicts
import IamService.RegistrationRecords
import IamService.ResendCooldown
import IamService.VerificationLinks
import IamService.CpuPermits
import IamService.ProviderRetries
import IamService.AccountHistories
import IamService.AuditTrail
import IamService.RestHandlers
import IamService.UnverifiedAccounts
import IamService.RestConfinement
import IamService.IdentityGrpc
import IamService.SurfaceRefinement
