import Flowchart.Session
import Flowchart.Store.File
import Flowchart.Store.Memory
import Flowchart.Proofs.Appending
import Flowchart.Proofs.Declarations
import Flowchart.Proofs.EdgeIds
import Flowchart.Proofs.FiniteCoordinates
import Flowchart.Proofs.Json.Integer
import Flowchart.Proofs.Layerings
import Flowchart.Proofs.LineParts
import Flowchart.Proofs.Loading
import Flowchart.Proofs.NormalForm
import Flowchart.Proofs.Reparse
import Flowchart.Proofs.Saving
import Flowchart.Proofs.Stores
import Flowchart.Proofs.ThreeColours
import Flowchart.Proofs.Totality
import Flowchart.Proofs.Json.Float
import Flowchart.Proofs.FailedCalls
import Flowchart.Proofs.Sources
import Flowchart.Proofs.Calls
import Flowchart.Proofs.ConnectionParts
import Flowchart.Proofs.History
import Flowchart.Proofs.LastTrace
