import WordSlot.Abi.Arguments
import WordSlot.Abi.Buffer
import WordSlot.Abi.Calldata
import WordSlot.Abi.Coerce
import WordSlot.Abi.Frame
import WordSlot.Abi.Manifest
import WordSlot.Abi.Method
import WordSlot.Abi.TypeName
import WordSlot.Abi.UIntType
import WordSlot.Abi.Varint
import WordSlot.Bytes
import WordSlot.Command.Line
import WordSlot.Command.Run
import WordSlot.Config
import WordSlot.Decimal.Double
import WordSlot.Decimal.Fixed
import WordSlot.Decimal.Shortest
import WordSlot.Digest
import WordSlot.Fault
import WordSlot.Fault.Abi
import WordSlot.Fault.Domain
import WordSlot.Fault.Files
import WordSlot.Fault.Report
import WordSlot.Fault.Storage
import WordSlot.Files.Path
import WordSlot.Files.Replace
import WordSlot.Files.Tree
import WordSlot.Host
import WordSlot.Json.Reader
import WordSlot.Json.Writer
import WordSlot.Log.Clock
import WordSlot.Log.Context
import WordSlot.Log.Journal
import WordSlot.Log.Level
import WordSlot.Log.Line
import WordSlot.Log.Record
import WordSlot.Main
import WordSlot.Proofs.Framing
import WordSlot.Proofs.Numbers
import WordSlot.Proofs.Outcome
import WordSlot.Proofs.Positions
import WordSlot.Storage.Backend
import WordSlot.Storage.Check
import WordSlot.Storage.Slots
import WordSlot.Storage.StateFile
import WordSlot.Store
import WordSlot.Surroundings
import WordSlot.Text
import WordSlot.Text.Blank
import WordSlot.Text.Digit
import WordSlot.Text.Hex
import WordSlot.Text.Numeral
import WordSlot.Text.Printable
import WordSlot.Text.Quoted
import WordSlot.Text.Template
import WordSlot.Text.Upper
import WordSlot.Text.Utf8
import WordSlot.Value
import WordSlot.Version
import WordSlot.Word
import WordSlot.Proofs.Dispatch
import WordSlot.Proofs.Calldata
import WordSlot.Proofs.Backend
import WordSlot.Proofs.Register
import WordSlot.Proofs.Files
import WordSlot.Proofs.LogFiles
import WordSlot.Proofs.Records
import WordSlot.Proofs.JsonText
import WordSlot.Proofs.StateFile
import WordSlot.Proofs.Loading
import WordSlot.Proofs.FileBackend
import WordSlot.Proofs.Reach
import WordSlot.Proofs.Rejection
import WordSlot.Proofs.Agreement
import WordSlot.Proofs.Sharing
import WordSlot.Proofs.Reporting
import WordSlot.Proofs.Invocations
import WordSlot.Proofs.Boundary
import WordSlot.Proofs.Canonical
import WordSlot.Proofs.Acceptance
import WordSlot.Proofs.FailedWrites
import WordSlot.Proofs.FrameFaults
import WordSlot.Proofs.Texts
import WordSlot.Proofs.Signatures
import WordSlot.Proofs.Tables
import WordSlot.Proofs.Numerals
import WordSlot.Proofs.Spellings
import WordSlot.Proofs.Returns
import WordSlot.Proofs.Execution
import WordSlot.Proofs.Rounding
import WordSlot.Proofs.Shortest
import WordSlot.Proofs.JsonNumbers
import WordSlot.Proofs.JsonValues
import WordSlot.Proofs.LogLines
import WordSlot.Proofs.Words
import WordSlot.Proofs.Counts
import WordSlot.Proofs.Scopes
import WordSlot.Proofs.OneLine
import WordSlot.Proofs.Notices
import WordSlot.Proofs.AuditTrail
