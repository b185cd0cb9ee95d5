import PercentFormat.Session
import PercentFormat.Proofs.Meaning
import PercentFormat.Proofs.FirstFault
import PercentFormat.Proofs.Concatenation
import PercentFormat.Proofs.Printing
import PercentFormat.Proofs.IntegerText
import PercentFormat.Proofs.FloatText
import PercentFormat.Proofs.Numbering
import PercentFormat.Proofs.Capacity
import PercentFormat.Proofs.Finality
import PercentFormat.Proofs.Selection
import PercentFormat.Proofs.Log
import PercentFormat.Proofs.Kinds
import PercentFormat.Proofs.History
import PercentFormat.Proofs.Width
import PercentFormat.Proofs.LongestLiteral
import PercentFormat.Proofs.ClampedInteger
import PercentFormat.Proofs.Places
import PercentFormat.Proofs.EffectiveFlags
import PercentFormat.Proofs.NaturalText
import PercentFormat.Proofs.ReadBack
import PercentFormat.Proofs.CursorOperations
import PercentFormat.Proofs.Progress
import PercentFormat.Proofs.DirectiveNumbers
