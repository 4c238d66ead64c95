import TwoPass.Main
import TwoPass.Proofs.Layout
import TwoPass.Proofs.Reachable
import TwoPass.Proofs.PlainLayout
import TwoPass.Proofs.Lists
import TwoPass.Proofs.AddressOrder
import TwoPass.Proofs.LineOrder
import TwoPass.Proofs.Assembly
import TwoPass.Proofs.Recoding
import TwoPass.Proofs.LoadImage
import TwoPass.Proofs.RefusedLines
import TwoPass.Proofs.Bits
import TwoPass.Proofs.Codes
import TwoPass.Proofs.Building
import TwoPass.Proofs.TextRecords
import TwoPass.Proofs.LateFaults
import TwoPass.Proofs.Strictness
import TwoPass.Proofs.RecordRanges
import TwoPass.Proofs.ObjectText
import TwoPass.Proofs.FixedWidth
import TwoPass.Proofs.ListingText
import TwoPass.Proofs.Warnings
import TwoPass.Proofs.RepeatedLabels
import TwoPass.Proofs.Definitions
import TwoPass.Proofs.Continuation
import TwoPass.Proofs.Alike
import TwoPass.Proofs.Relocation
import TwoPass.Proofs.LineEnds
import TwoPass.Proofs.AddressFields
import TwoPass.Proofs.HeaderValues
import TwoPass.Proofs.Files
import TwoPass.Proofs.Paths
import TwoPass.Proofs.Outcomes
import TwoPass.Proofs.SourceFile
import TwoPass.Proofs.Grammar
import TwoPass.Proofs.Reservations
import TwoPass.Proofs.Reports
import TwoPass.Proofs.CodeWidth
import TwoPass.Proofs.FirstDefinitions
import TwoPass.Proofs.IndexFlag
import TwoPass.Proofs.FaultLines
import TwoPass.Proofs.Trace
import TwoPass.Proofs.ExactArithmetic
import TwoPass.Proofs.BitExpansion
