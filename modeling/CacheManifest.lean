import CacheManifest.Main
import CacheManifest.Proofs.Generation.Lines
import CacheManifest.Proofs.Text.WellFormed
import CacheManifest.Proofs.Path.Components
import CacheManifest.Proofs.Scan.Files
import CacheManifest.Proofs.Filesystem.Passages
import CacheManifest.Proofs.Manifest.Segments
import CacheManifest.Proofs.Manifest.Distinctness
import CacheManifest.Proofs.Manifest.Targets
import CacheManifest.Proofs.Filesystem.Ways
import CacheManifest.Proofs.Generation.Stability
import CacheManifest.Proofs.Json.Strings
import CacheManifest.Proofs.Json.Values
import CacheManifest.Proofs.Run.Listings
import CacheManifest.Proofs.Run.Preview
import CacheManifest.Proofs.Run.Standpoints
import CacheManifest.Proofs.Run.Overrides
import CacheManifest.Proofs.Json.Escapes
import CacheManifest.Proofs.Json.Layouts
import CacheManifest.Config.Writing
import CacheManifest.Proofs.Config.Language
import CacheManifest.Proofs.Config.Settings
import CacheManifest.Proofs.Config.Acceptance
import CacheManifest.Proofs.Config.Loading
import CacheManifest.Proofs.Json.Encodings
import CacheManifest.Proofs.Config.RoundTrip
import CacheManifest.Proofs.CommandLine.Tones
import CacheManifest.Proofs.Program.Effects
import CacheManifest.Proofs.Config.Exclusion
import CacheManifest.Proofs.Run.Exclusions
import CacheManifest.Proofs.Scan.Relocation
import CacheManifest.Proofs.Scan.Subtrees
import CacheManifest.Proofs.Manifest.Splits
import CacheManifest.Proofs.Scan.Accounts
import CacheManifest.Proofs.Calendar.Timestamps
