import ProxyLint.Main
import ProxyLint.Configuration.Description
import ProxyLint.Reports.Decoding
import ProxyLint.Settings.Encoding
import ProxyLint.Proofs.Text.Search
import ProxyLint.Proofs.Text.Trimming
import ProxyLint.Proofs.Text.Decimal
import ProxyLint.Proofs.Text.Keyed
import ProxyLint.Proofs.Text.ByteOrder
import ProxyLint.Proofs.Text.LetterCase
import ProxyLint.Proofs.Text.Pattern
import ProxyLint.Proofs.Configuration.Blocks
import ProxyLint.Proofs.Configuration.Grammar
import ProxyLint.Proofs.Configuration.Layout
import ProxyLint.Proofs.Configuration.Reading
import ProxyLint.Proofs.Configuration.Parsing
import ProxyLint.Proofs.Configuration.Printing
import ProxyLint.Proofs.Configuration.Insertion
import ProxyLint.Proofs.Configuration.Embedding
import ProxyLint.Proofs.Configuration.Walk
import ProxyLint.Proofs.Configuration.Preorder
import ProxyLint.Proofs.Configuration.Growth
import ProxyLint.Proofs.Configuration.Amendment
import ProxyLint.Proofs.Configuration.LineCount
import ProxyLint.Proofs.Configuration.LineOrder
import ProxyLint.Proofs.Configuration.Displacement
import ProxyLint.Proofs.Configuration.Sequel
import ProxyLint.Proofs.Configuration.Concatenation
import ProxyLint.Proofs.Configuration.Lexemes
import ProxyLint.Proofs.Configuration.LineNumbers
import ProxyLint.Proofs.Configuration.Diagnosis
import ProxyLint.Proofs.Configuration.Escaping
import ProxyLint.Proofs.Configuration.Quotation
import ProxyLint.Proofs.Hosts.Target
import ProxyLint.Proofs.Hosts.Extraction
import ProxyLint.Proofs.Hosts.Address
import ProxyLint.Proofs.Hosts.VersionSix
import ProxyLint.Proofs.Hosts.AddressTarget
import ProxyLint.Proofs.Hosts.TargetPattern
import ProxyLint.Proofs.Hosts.TargetCut
import ProxyLint.Proofs.Hosts.CloudEndpoint
import ProxyLint.Proofs.Hosts.Class
import ProxyLint.Proofs.Hosts.ClosedForm
import ProxyLint.Proofs.Hosts.Subdomain
import ProxyLint.Proofs.Hosts.Separation
import ProxyLint.Proofs.Hosts.Attribution
import ProxyLint.Proofs.Variables.Script
import ProxyLint.Proofs.Variables.Assignment
import ProxyLint.Proofs.Variables.Derivation
import ProxyLint.Proofs.Variables.Folding
import ProxyLint.Proofs.Variables.Dependency
import ProxyLint.Proofs.Variables.Shadowing
import ProxyLint.Proofs.Variables.Transfer
import ProxyLint.Proofs.Variables.Expansion
import ProxyLint.Proofs.Variables.Segmentation
import ProxyLint.Proofs.Variables.BytePositions
import ProxyLint.Proofs.Variables.RespelledScript
import ProxyLint.Proofs.Variables.Respelling
import ProxyLint.Proofs.Resolution.Judgement
import ProxyLint.Proofs.Resolution.ServerGroup
import ProxyLint.Proofs.Resolution.StaticTarget
import ProxyLint.Proofs.Resolution.Silence
import ProxyLint.Proofs.Resolution.WrittenAddress
import ProxyLint.Proofs.Resolution.Transfer
import ProxyLint.Proofs.Resolution.Locality
import ProxyLint.Proofs.Resolution.StaticRemedy
import ProxyLint.Proofs.Resolution.Remedy
import ProxyLint.Proofs.Resolution.Independence
import ProxyLint.Proofs.Resolution.FoldedTarget
import ProxyLint.Proofs.Resolution.Visibility
import ProxyLint.Proofs.Rules.LintPass
import ProxyLint.Proofs.Rules.Isolation
import ProxyLint.Proofs.Rules.MissingResolver
import ProxyLint.Proofs.Rules.Batches
import ProxyLint.Proofs.Rules.Registration
import ProxyLint.Proofs.Json.Numeral
import ProxyLint.Proofs.Json.Lexing
import ProxyLint.Proofs.Json.Reading
import ProxyLint.Proofs.Json.Spacing
import ProxyLint.Proofs.Json.Printing
import ProxyLint.Proofs.Json.Codec
import ProxyLint.Proofs.Json.Normal
import ProxyLint.Proofs.Json.Depth
import ProxyLint.Proofs.Reports.Instant
import ProxyLint.Proofs.Reports.Storable
import ProxyLint.Proofs.Reports.Roundtrip
import ProxyLint.Proofs.Settings.NormalForm
import ProxyLint.Proofs.CommandLine.FileRun
import ProxyLint.Proofs.CommandLine.Schedule
import ProxyLint.Proofs.CommandLine.Validation
