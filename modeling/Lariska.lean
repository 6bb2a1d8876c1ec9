import Lariska.AgentIdentity
import Lariska.Aligned
import Lariska.CacheRuns
import Lariska.CertificateKeys
import Lariska.CertificateRecovery
import Lariska.CertificateRenewal
import Lariska.CollectionOrder
import Lariska.CollectionRuns
import Lariska.CollectionSchedule
import Lariska.CollectorCache
import Lariska.Collectors
import Lariska.ConfigLoading
import Lariska.Delivery
import Lariska.DeliveryOrder
import Lariska.DeliverySteps
import Lariska.DeliverySuppression
import Lariska.DrainPass
import Lariska.Effect
import Lariska.EndpointQueue
import Lariska.Fingerprint
import Lariska.FingerprintCoverage
import Lariska.Gathering
import Lariska.History
import Lariska.Host
import Lariska.InstallRecords
import Lariska.Inventory
import Lariska.InventoryCycle
import Lariska.InventoryDelta
import Lariska.JournalBounds
import Lariska.Json
import Lariska.JsonObject
import Lariska.JsonRecord
import Lariska.JsonSize
import Lariska.JsonTree
import Lariska.KeptEntries
import Lariska.Latest
import Lariska.LeafSignature
import Lariska.LedgerBounds
import Lariska.LegacyView
import Lariska.LinuxPackages
import Lariska.ManagedRuns
import Lariska.ManagedSettings
import Lariska.ManifestEncoding
import Lariska.ManifestSigning
import Lariska.NativeJournal
import Lariska.NormalText
import Lariska.Normalization
import Lariska.OsRelease
import Lariska.PackageCache
import Lariska.PackageStaging
import Lariska.PanicMessage
import Lariska.PassSettlement
import Lariska.ProductKeys
import Lariska.QueueRefusals
import Lariska.ReceiptRecording
import Lariska.ReceiptReplay
import Lariska.RecoveryFaults
import Lariska.RefusalMemory
import Lariska.ReleaseFloor
import Lariska.ReleaseManifest
import Lariska.ReplacedFile
import Lariska.RequestAtomicity
import Lariska.RollbackFinality
import Lariska.RuntimeCollectors
import Lariska.RuntimeCompleteness
import Lariska.SnapshotDecoding
import Lariska.SnapshotValidity
import Lariska.SourceHistory
import Lariska.Spool
import Lariska.SpoolCapacity
import Lariska.SpoolOrder
import Lariska.SpoolRetention
import Lariska.SpoolRoundTrip
import Lariska.Submission
import Lariska.Supervisor
import Lariska.SupervisorInvariants
import Lariska.SupervisorReads
import Lariska.SupervisorRefinement
import Lariska.SupervisorRuns
import Lariska.SupervisorStep
import Lariska.SupervisorWrites
import Lariska.Survivors
import Lariska.TransactionAgreement
import Lariska.TrustedPath
import Lariska.UpdateIdentifiers
import Lariska.UpdateLedger
import Lariska.UpdateOffers
import Lariska.VersionOrder
import Lariska.Versions
import Lariska.WindowsRegistry
import Lariska.WindowsRemovals
