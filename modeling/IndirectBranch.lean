import IndirectBranch.Audit
import IndirectBranch.Bytes
import IndirectBranch.Command
import IndirectBranch.CommandLine.Arguments
import IndirectBranch.CommandLine.Similarity
import IndirectBranch.Decimal.Nearest
import IndirectBranch.Decimal.Shortest
import IndirectBranch.Digest.Sha256
import IndirectBranch.Disassembly
import IndirectBranch.Disassembly.Branch
import IndirectBranch.Elf.Dynamic
import IndirectBranch.Elf.Fault
import IndirectBranch.Elf.Header
import IndirectBranch.Elf.Image
import IndirectBranch.Elf.Layout
import IndirectBranch.Elf.Object
import IndirectBranch.Elf.StringTable
import IndirectBranch.Elf.SymbolEntry
import IndirectBranch.Exemption
import IndirectBranch.Files
import IndirectBranch.Finding
import IndirectBranch.Image
import IndirectBranch.Json.Basic
import IndirectBranch.Json.Decoder
import IndirectBranch.Json.Fault
import IndirectBranch.Json.Lexeme
import IndirectBranch.Json.Printer
import IndirectBranch.Json.Reader
import IndirectBranch.Json.Source
import IndirectBranch.Log
import IndirectBranch.Main
import IndirectBranch.Mismatch
import IndirectBranch.Opcode
import IndirectBranch.Policy.Basic
import IndirectBranch.Policy.File
import IndirectBranch.Policy.Numeral
import IndirectBranch.Policy.Schema
import IndirectBranch.Proofs.Coverage
import IndirectBranch.Proofs.ExactScan
import IndirectBranch.Proofs.ExemptionLimits
import IndirectBranch.Proofs.Hexadecimal
import IndirectBranch.Proofs.Instructions
import IndirectBranch.Proofs.JsonText
import IndirectBranch.Proofs.KeptSymbols
import IndirectBranch.Proofs.Layout
import IndirectBranch.Proofs.LinkedFile
import IndirectBranch.Proofs.LinkedImage
import IndirectBranch.Proofs.NearestSymbol
import IndirectBranch.Proofs.ObjectFile
import IndirectBranch.Proofs.PolicyJson
import IndirectBranch.Proofs.PolicyOrder
import IndirectBranch.Proofs.Presentation
import IndirectBranch.Proofs.RawText
import IndirectBranch.Proofs.RegistryRuns
import IndirectBranch.Proofs.ReportJson
import IndirectBranch.Proofs.ReportLines
import IndirectBranch.Proofs.ReportText
import IndirectBranch.Proofs.Scan
import IndirectBranch.Proofs.SectionAttribution
import IndirectBranch.Proofs.SectionLayout
import IndirectBranch.Proofs.SortedTable
import IndirectBranch.Proofs.SymbolPrecedence
import IndirectBranch.Proofs.Utf8
import IndirectBranch.Proofs.Verdict
import IndirectBranch.Report.Basic
import IndirectBranch.Report.Json
import IndirectBranch.Report.Text
import IndirectBranch.Scan
import IndirectBranch.Schema
import IndirectBranch.SymbolIndex
import IndirectBranch.Text.Blank
import IndirectBranch.Text.Hex
import IndirectBranch.Text.Quoted
import IndirectBranch.Text.Utf8
import IndirectBranch.Text.Visible
import IndirectBranch.Yaml.Cursor
import IndirectBranch.Yaml.Event
import IndirectBranch.Yaml.Fault
import IndirectBranch.Yaml.Node
import IndirectBranch.Yaml.Resolution
import IndirectBranch.Yaml.Scalar
import IndirectBranch.Yaml.Source
import IndirectBranch.Yaml.Tag
import IndirectBranch.Yaml.Token
import IndirectBranch.Proofs.Classification
import IndirectBranch.Proofs.OpcodeAlgebra
import IndirectBranch.Proofs.JsonTree
import IndirectBranch.Proofs.JsonMeaning
import IndirectBranch.Proofs.Numerals
import IndirectBranch.Proofs.PolicyFields
import IndirectBranch.Proofs.PolicyMembers
