import SleighClaims.Text
import SleighClaims.Text.Split
import SleighClaims.Text.Search
import SleighClaims.Text.Word
import SleighClaims.Text.Quoted
import SleighClaims.Token
import SleighClaims.Position
import SleighClaims.Constructor.Block
import SleighClaims.Constructor.Body
import SleighClaims.Constructor
import SleighClaims.Constructor.Scan
import SleighClaims.Endian
import SleighClaims.Config
import SleighClaims.Environment
import SleighClaims.Instrument
import SleighClaims.Specification
import SleighClaims.Log
import SleighClaims.Files
import SleighClaims.CommandLine.Run
import SleighClaims.CommandLine.Arguments
import SleighClaims.CommandLine.Process
import SleighClaims.Main
import SleighClaims.Proofs.Runs
import SleighClaims.Proofs.Classes
import SleighClaims.Proofs.Splitting
import SleighClaims.Proofs.WellFormed
import SleighClaims.Proofs.Grammar
import SleighClaims.Proofs.Offsets
import SleighClaims.Proofs.Recognition
import SleighClaims.Proofs.Scanning
import SleighClaims.Proofs.Locality
import SleighClaims.Proofs.EndianDeclaration
import SleighClaims.Proofs.Bindings
import SleighClaims.Proofs.Outcomes
import SleighClaims.Proofs.PassThrough
import SleighClaims.Proofs.Validation
import SleighClaims.Proofs.ClaimText
import SleighClaims.Proofs.SecondPass
import SleighClaims.Proofs.Reports
import SleighClaims.Proofs.ReportPositions
import SleighClaims.Proofs.ClaimPlacement
import SleighClaims.Proofs.Restarts
import SleighClaims.Proofs.NameMatching
import SleighClaims.Proofs.MarkerSubstitution
import SleighClaims.Proofs.FileViews
import SleighClaims.Proofs.RunSteps
import SleighClaims.Proofs.BindingLog
import SleighClaims.Proofs.CursorHistory
import SleighClaims.Proofs.ActionItems
import SleighClaims.Proofs.OffsetAgreement
import SleighClaims.Proofs.OffsetSearch
import SleighClaims.Proofs.SectionBounds
import SleighClaims.Proofs.EndianSearch
import SleighClaims.Proofs.SeparatorChoice
import SleighClaims.Proofs.Tokenization
import SleighClaims.Proofs.NameRuns
import SleighClaims.Proofs.WholeWords
import SleighClaims.Proofs.LineInsertion
import SleighClaims.Proofs.OffsetPass
