import Certified.Bytes.Lemmas
import Certified.Radix.Lemmas
import Certified.Text.Blank
import Certified.Text.Lemmas
import Certified.Timestamp
import Certified.HashTree.Pruning
import Certified.HashTree.Nodes
import Certified.HashTree.Parts
import Certified.CertifiedMap.Layout
import Certified.CertifiedMap.Operation
import Certified.Ed25519.Signature
import Certified.Issuance
import Certified.Verification.Response
import Certified.Json.Parser
import Certified.Json.Printer
import Certified.Toml.Tables
import Certified.Toml.Number
import Certified.Toml.Parser
import Certified.Config.Basic
import Certified.Config.Encoding
import Certified.Blob
import Certified.Log
import Certified.Verification.Log
import Certified.CommandLine.Commands
import Certified.CommandLine.Arguments
import Certified.CommandLine.Run
import Certified.Main
import Certified.Proofs.HashTree.Pruning
import Certified.Proofs.Verification.Acceptance
import Certified.Proofs.CertifiedMap.Layout
import Certified.Proofs.Issuance
import Certified.Proofs.Leb128
import Certified.Proofs.Verification.Soundness
import Certified.Proofs.Verification.Elision
import Certified.Proofs.HashTree.Overlay
import Certified.Proofs.Verification.Equivocation
import Certified.Proofs.Verification.Pruning
import Certified.Proofs.Cbor.RoundTrip
import Certified.Proofs.Encoding
import Certified.Proofs.Cbor.Tags
import Certified.Proofs.Cbor.Reading
import Certified.Proofs.Cbor.Depth
import Certified.Proofs.Cbor.Heads
import Certified.Proofs.HashTree.Grammar
import Certified.Proofs.Wire
import Certified.Proofs.CertifiedMap.Search
import Certified.Proofs.CertifiedMap.Witness
import Certified.Proofs.CertifiedMap.Contents
import Certified.Proofs.CertifiedMap.Disclosure
import Certified.Proofs.CertifiedMap.History
import Certified.Proofs.Verification.Issued
import Certified.Proofs.Cbor.Entries
import Certified.Proofs.Certificate.Grammar
import Certified.Proofs.Verification.Log
import Certified.Proofs.CommandLine.Requests
import Certified.Proofs.CommandLine.Trust
import Certified.Proofs.Hex
import Certified.Proofs.Principal
import Certified.Proofs.LabelPath
import Certified.Proofs.CommandLine.Report
import Certified.Proofs.Blob
import Certified.Proofs.Json
import Certified.Proofs.Base32
import Certified.Proofs.CommandLine.Arguments
import Certified.Proofs.CommandLine.Log
import Certified.Proofs.CommandLine.Help
import Certified.Proofs.CommandLine.Paths
import Certified.Proofs.CommandLine.Sources
import Certified.Proofs.HashTree.Lookup
import Certified.Proofs.CertifiedMap.Answers
import Certified.Proofs.CommandLine.Effects
import Certified.Proofs.HashTree.Listing
import Certified.Proofs.Certificate.Time
import Certified.Proofs.Verification.Freshness
import Certified.Proofs.CertifiedMap.Balance
import Certified.Proofs.Cbor.Grammar
import Certified.Proofs.CanisterRange
import Certified.Proofs.Timestamp.Splitting
import Certified.Proofs.Calendar
import Certified.Proofs.Decimal
import Certified.Proofs.Timestamp.Text
import Certified.Proofs.CommandLine.Lines
import Certified.Proofs.Toml.Strings
import Certified.Proofs.Toml.Documents
import Certified.Config.Saving
import Certified.Proofs.Config.Document
import Certified.Proofs.Config.Saving
import Certified.Proofs.Principal.Groups
