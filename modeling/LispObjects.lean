import LispObjects.Action.Basic
import LispObjects.Action.Classes
import LispObjects.Action.Objects
import LispObjects.Action.Operators
import LispObjects.Action.Streams
import LispObjects.Binary64.Basic
import LispObjects.Binary64.Rounding
import LispObjects.Binary64.Shortest
import LispObjects.Bindings
import LispObjects.Class.Builtin
import LispObjects.Class.Graph
import LispObjects.Decimal.Basic
import LispObjects.Decimal.Float
import LispObjects.Decimal.Literal
import LispObjects.Decimal.Printer
import LispObjects.Fault
import LispObjects.Heap.Basic
import LispObjects.Heap.Description
import LispObjects.Heap.Environment
import LispObjects.Heap.Equality
import LispObjects.Heap.List
import LispObjects.Operation
import LispObjects.Proofs.Action.MakeClass
import LispObjects.Proofs.Action.Outcome
import LispObjects.Proofs.Action.RealmFrame
import LispObjects.Proofs.Class.BuiltIn
import LispObjects.Proofs.Class.Extension
import LispObjects.Proofs.Class.Lineage
import LispObjects.Proofs.Class.Order
import LispObjects.Proofs.Decimal.PlainText
import LispObjects.Proofs.Decimal.Value
import LispObjects.Proofs.Realm.TypeTest
import LispObjects.Proofs.Symbol.Calls
import LispObjects.Proofs.World.ClassTree
import LispObjects.Proofs.World.Failure
import LispObjects.Proofs.World.OutsideHandle
import LispObjects.Proofs.World.Run
import LispObjects.Proofs.World.Superclass
import LispObjects.Realm.Basic
import LispObjects.Realm.Condition
import LispObjects.Realm.TypeData
import LispObjects.Store
import LispObjects.Stream.Input
import LispObjects.Stream.Output
import LispObjects.Symbol.Basic
import LispObjects.Symbol.Table
import LispObjects.Text.Blank
import LispObjects.Text.Quoted
import LispObjects.Text.Record
import LispObjects.Text.Unprintable
import LispObjects.Text.Utf8
import LispObjects.TypeSpec
import LispObjects.Value.Arithmetic
import LispObjects.Value.Basic
import LispObjects.Value.Host
import LispObjects.World
import LispObjects.Proofs.Heap.WriteLog
import LispObjects.Proofs.Symbol.Interns
import LispObjects.Proofs.Realm.WellFormed
import LispObjects.Proofs.Action.RealmStep
import LispObjects.Proofs.World.Realms
import LispObjects.Proofs.World.ClassRecords
import LispObjects.Proofs.Heap.Frames
import LispObjects.Proofs.Action.Binding
import LispObjects.Proofs.Realm.Report
import LispObjects.Proofs.World.Environments
import LispObjects.Proofs.Heap.Chain
import LispObjects.Proofs.Heap.Finite
import LispObjects.Proofs.Heap.Equality
import LispObjects.Proofs.Heap.Copies
import LispObjects.Proofs.Stream.Input
import LispObjects.Proofs.Realm.TypeData
import LispObjects.Proofs.Realm.Registration
import LispObjects.Proofs.World.TypeData
import LispObjects.Proofs.Action.Slots
import LispObjects.Proofs.World.Slots
import LispObjects.Proofs.Action.TypeErrors
import LispObjects.Proofs.Action.Raises
import LispObjects.Proofs.World.TypeErrors
import LispObjects.Proofs.Decimal.Quotient
import LispObjects.Proofs.Decimal.Literal
import LispObjects.Proofs.Action.Streams
import LispObjects.Proofs.Text.Utf8
import LispObjects.Proofs.World.Copying
import LispObjects.Proofs.Action.Conditions
import LispObjects.Proofs.World.StoredPairs
import LispObjects.Proofs.Text.ByteOrder
import LispObjects.Proofs.Decimal.Order
import LispObjects.Proofs.Value.Comparison
import LispObjects.Proofs.Heap.Walks
import LispObjects.Proofs.Realm.SpecGrammar
import LispObjects.Proofs.World.SpecReading
import LispObjects.Proofs.Realm.Rendering
import LispObjects.Proofs.World.Wording
import LispObjects.Proofs.World.Instances
import LispObjects.Proofs.Decimal.ExponentRange
import LispObjects.Proofs.World.NewClass
import LispObjects.Proofs.Heap.NewChain
import LispObjects.Proofs.Action.Pairs
import LispObjects.Proofs.World.Lists
import LispObjects.Proofs.Binary64.Magnitude
import LispObjects.Proofs.Binary64.Nearest
import LispObjects.Proofs.Binary64.Shortest
import LispObjects.Proofs.Decimal.Binary64
import LispObjects.Proofs.Decimal.WholePart
import LispObjects.Proofs.Action.Operators
import LispObjects.Proofs.World.ByteWrites
import LispObjects.Proofs.World.Operators
