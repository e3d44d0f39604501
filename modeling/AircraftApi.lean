import AircraftApi.Transition
import AircraftApi.KeyMap
import AircraftApi.RateLimit
import AircraftApi.RateWindow
import AircraftApi.RateEviction
import AircraftApi.RunLedger
import AircraftApi.RunLedgerSafety
import AircraftApi.StaleAudit
import AircraftApi.ImportService
import AircraftApi.ReadModel
import AircraftApi.FieldParsers
import AircraftApi.ImportAtomicity
import AircraftApi.Noted
import AircraftApi.Normalization
import AircraftApi.PlanePhd
import AircraftApi.Numeric
import AircraftApi.Schema
import AircraftApi.PreparedRecord
import AircraftApi.NulFree
import AircraftApi.Loadability
import AircraftApi.Curation
import AircraftApi.Market
import AircraftApi.Publication
import AircraftApi.DecisionRaces
import AircraftApi.MeasurementGate
import AircraftApi.Acceptances
import AircraftApi.Curatability
import AircraftApi.MarketLoss
import AircraftApi.Numerals
import AircraftApi.NumericFidelity
import AircraftApi.Powerplants
import AircraftApi.StagedNames
import AircraftApi.UnitPairing
import AircraftApi.Keyset
import AircraftApi.Pagination
import AircraftApi.Base64
import AircraftApi.Problem
import AircraftApi.Cursors
import AircraftApi.IssuedCursors
import AircraftApi.Authentication
import AircraftApi.RoutePolicy
import AircraftApi.IssuePaths
import AircraftApi.Preservation
import AircraftApi.CanonicalCandidates
import AircraftApi.DecisionFrame
import AircraftApi.FlagClosure
import AircraftApi.Identity
import AircraftApi.Lifecycle
import AircraftApi.VariantSlugs
import AircraftApi.Lineage
import AircraftApi.EngineCounts
import AircraftApi.RetryAfter
import AircraftApi.Issuance
import AircraftApi.Redaction
import AircraftApi.Validators
import AircraftApi.Images
import AircraftApi.NamedYears
import AircraftApi.RecordKeys
import AircraftApi.Decimals
import AircraftApi.Lines
import AircraftApi.DenyPins
import AircraftApi.DenyManifest
import AircraftApi.PinRepair
import AircraftApi.Scanners
import AircraftApi.SqlScanner
import AircraftApi.MigrationLedger
import AircraftApi.Catalogs
import AircraftApi.InstallScript
import AircraftApi.GateAcceptance
import AircraftApi.OwnershipCost
import AircraftApi.Perimeter
import AircraftApi.PerimeterRuns
import AircraftApi.PerimeterShutdown
import AircraftApi.Revalidation
import AircraftApi.CredentialLifecycle
import AircraftApi.Startup
import AircraftApi.Artifact
import AircraftApi.Channel
import AircraftApi.ImportCommand
