import Dataflow.Main
import Dataflow.Operation
import Dataflow.Proofs.Backends
import Dataflow.Proofs.Batches
import Dataflow.Proofs.Branches
import Dataflow.Proofs.Clashes
import Dataflow.Proofs.Coercions
import Dataflow.Proofs.DefaultDevice
import Dataflow.Proofs.Devices
import Dataflow.Proofs.DispatchCache
import Dataflow.Proofs.EqualTypes
import Dataflow.Proofs.Escapes
import Dataflow.Proofs.FailedDequeues
import Dataflow.Proofs.FailedVisits
import Dataflow.Proofs.FirstInFirstOut
import Dataflow.Proofs.Handles
import Dataflow.Proofs.InputEdges
import Dataflow.Proofs.IntegerParameters
import Dataflow.Proofs.Inverses
import Dataflow.Proofs.Keys
import Dataflow.Proofs.Lookup
import Dataflow.Proofs.Nesting
import Dataflow.Proofs.OutputNumbers
import Dataflow.Proofs.Premises
import Dataflow.Proofs.QueueClashes
import Dataflow.Proofs.QueueSchema
import Dataflow.Proofs.Refinement
import Dataflow.Proofs.Representation
import Dataflow.Proofs.ScatterGather
import Dataflow.Proofs.Scheduling
import Dataflow.Proofs.Scoping
import Dataflow.Proofs.SlotMap
import Dataflow.Proofs.SplitConcat
import Dataflow.Proofs.Twins
import Dataflow.Proofs.UnionAnnotations
import Dataflow.Proofs.VisibleIds
import Dataflow.Proofs.VisitEffects
import Dataflow.Proofs.WhileLoop
import Dataflow.Proofs.WriteOrder
import Dataflow.Proofs.Zeros
