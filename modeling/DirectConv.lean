import DirectConv.Precision
import DirectConv.Proofs.Admission
import DirectConv.Proofs.Engine.Carry
import DirectConv.Proofs.Engine.Elements
import DirectConv.Proofs.Engine.Phases
import DirectConv.Proofs.Environment
import DirectConv.Proofs.Groups
import DirectConv.Proofs.Independence
import DirectConv.Proofs.Interval
import DirectConv.Proofs.Orders
import DirectConv.Proofs.PlaneTotals
import DirectConv.Proofs.Register
import DirectConv.Proofs.Reuse
import DirectConv.Proofs.Safety
import DirectConv.Proofs.Sizes
import DirectConv.Proofs.WideTotals
import DirectConv.Request
import DirectConv.VectorUnit.Environment
import DirectConv.Window
