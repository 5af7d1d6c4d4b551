import ZoneCatalog.Version
import ZoneCatalog.Text.Glob
import ZoneCatalog.Text.Quoted
import ZoneCatalog.Text.Duration
import ZoneCatalog.Bytes.Base64
import ZoneCatalog.Bytes.Hex
import ZoneCatalog.Data.SortedMap
import ZoneCatalog.Data.Decode
import ZoneCatalog.Clock.System
import ZoneCatalog.Net.Reader
import ZoneCatalog.Net.Printer
import ZoneCatalog.Json.Reader
import ZoneCatalog.Json.Writer
import ZoneCatalog.Toml.Reader
import ZoneCatalog.Name.Lower
import ZoneCatalog.Name.Wire
import ZoneCatalog.Record.Json
import ZoneCatalog.Health.Filter
import ZoneCatalog.Settings.File
import ZoneCatalog.Settings.Validity
import ZoneCatalog.Crypto.Ed25519
import ZoneCatalog.Crypto.Ecdsa
import ZoneCatalog.Dnssec.ZoneKey
import ZoneCatalog.Zone.Index
import ZoneCatalog.Zone.Basic
import ZoneCatalog.Zone.Location
import ZoneCatalog.Store.Scripted
import ZoneCatalog.Store.Program
import ZoneCatalog.Cache.Lookup
import ZoneCatalog.Refresher.Basic
import ZoneCatalog.Catalog.Lookup
import ZoneCatalog.Simulation.Session
import ZoneCatalog.Proofs.Cache.SharedFetch
import ZoneCatalog.Proofs.Cache.Answers
import ZoneCatalog.Proofs.Text.Glob
import ZoneCatalog.Proofs.Store.Feeds
import ZoneCatalog.Proofs.Refresher.InStep
import ZoneCatalog.Proofs.Catalog.Clash
import ZoneCatalog.Proofs.Zone.Index
import ZoneCatalog.Proofs.Dnssec.SignedData
import ZoneCatalog.Proofs.Zone.KeySet
import ZoneCatalog.Proofs.Zone.Load
import ZoneCatalog.Proofs.Zone.Location
import ZoneCatalog.Proofs.Zone.Label
import ZoneCatalog.Proofs.Catalog.Caseless
import ZoneCatalog.Proofs.Cache.InFlight
import ZoneCatalog.Proofs.Dnssec.SignedLimits
import ZoneCatalog.Proofs.Dnssec.KeyText
import ZoneCatalog.Proofs.Catalog.Outdated
import ZoneCatalog.Proofs.Catalog.Shifts
import ZoneCatalog.Proofs.Dnssec.KeyGrammar
import ZoneCatalog.Proofs.Dnssec.KeyLayout
import ZoneCatalog.Proofs.Dnssec.SecretText
import ZoneCatalog.Proofs.Simulation.Pace
import ZoneCatalog.Proofs.Simulation.Schedule
import ZoneCatalog.Proofs.Simulation.Deadlines
import ZoneCatalog.Proofs.Store.Layout
import ZoneCatalog.Proofs.Dnssec.Window
import ZoneCatalog.Proofs.Record.Omission
import ZoneCatalog.Proofs.Cache.Counters
import ZoneCatalog.Proofs.Catalog.Construction
import ZoneCatalog.Proofs.Catalog.OwnName
import ZoneCatalog.Proofs.Health.Filter
import ZoneCatalog.Proofs.Zone.Listing
import ZoneCatalog.Proofs.Store.Delivery
import ZoneCatalog.Proofs.Dnssec.KeyTag
