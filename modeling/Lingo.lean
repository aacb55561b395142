import Lingo.Assembly.Assemble
import Lingo.Assembly.Error
import Lingo.Assembly.Layout
import Lingo.Assembly.Listing
import Lingo.Assembly.Token
import Lingo.Bindings
import Lingo.Builtin.Builtin
import Lingo.Builtin.Function
import Lingo.Cast
import Lingo.Chunk.Edit
import Lingo.Chunk.Kind
import Lingo.Chunk.Span
import Lingo.Chunk.Bytes
import Lingo.Code.Instruction
import Lingo.Code.Library
import Lingo.Code.Literal
import Lingo.Code.Names
import Lingo.Code.Opcode
import Lingo.Command
import Lingo.Heap
import Lingo.Machine.Calls
import Lingo.Machine.Config
import Lingo.Machine.Fault
import Lingo.Machine.Frame
import Lingo.Machine.Log
import Lingo.Machine.State
import Lingo.Main
import Lingo.Memory
import Lingo.Memory.Arithmetic
import Lingo.Memory.Compare
import Lingo.Memory.Copy
import Lingo.Memory.Display
import Lingo.Memory.Image
import Lingo.Memory.Likeness
import Lingo.Method.List
import Lingo.Method.Object
import Lingo.Method.PropList
import Lingo.Method.Table
import Lingo.Method.Text
import Lingo.Number.Arithmetic
import Lingo.Number.Binary
import Lingo.Number.Digits
import Lingo.Number.Double
import Lingo.Number.Numeral
import Lingo.Number.Shortest
import Lingo.Number.Single
import Lingo.Proofs.Routine
import Lingo.Run.Activate
import Lingo.Run.Host
import Lingo.Run.Trace
import Lingo.Step.Call
import Lingo.Step.Execute
import Lingo.Step.Jump
import Lingo.Step.Property
import Lingo.Step.Stack
import Lingo.Step.Text
import Lingo.Step.Variable
import Lingo.Text.Ascii
import Lingo.Text.Blank
import Lingo.Text.CaseTable
import Lingo.Text.CodePoints
import Lingo.Text.Column
import Lingo.Text.Lowercase
import Lingo.Text.PrintTable
import Lingo.Text.Quoted
import Lingo.Text.Utf8
import Lingo.Value
import Lingo.Proofs.Instruction
import Lingo.Proofs.Callee
import Lingo.Proofs.Steady
import Lingo.Proofs.Sound
import Lingo.Proofs.Activation
import Lingo.Proofs.Channels
import Lingo.Proofs.History
import Lingo.Proofs.Entry
import Lingo.Proofs.Limits
import Lingo.Proofs.Stop
import Lingo.Proofs.Encoding
import Lingo.Proofs.Relaxation
import Lingo.Proofs.Assembling
import Lingo.Proofs.Bodies
import Lingo.Proofs.Canonical
import Lingo.Proofs.Landing
import Lingo.Proofs.Lexing
import Lingo.Proofs.Interning
import Lingo.Proofs.Listable
import Lingo.Proofs.Printed
import Lingo.Proofs.Feeding
import Lingo.Proofs.Relisting
import Lingo.Proofs.Operands
import Lingo.Proofs.Styled
import Lingo.Proofs.Forwarding
import Lingo.Proofs.Happening
import Lingo.Proofs.Alike
import Lingo.Proofs.Breaking
import Lingo.Proofs.Termination
import Lingo.Proofs.Quoting
import Lingo.Proofs.Decoding
import Lingo.Proofs.LocalCall
import Lingo.Proofs.Authored
import Lingo.Proofs.Handles
import Lingo.Proofs.Growth
import Lingo.Proofs.Origin
import Lingo.Proofs.Visit
import Lingo.Proofs.ErrorHandlers
import Lingo.Proofs.Instances
import Lingo.Proofs.Receiver
import Lingo.Proofs.Slots
import Lingo.Proofs.Meaning
import Lingo.Proofs.Ancestry
import Lingo.Proofs.Splitting
import Lingo.Proofs.Segments
import Lingo.Proofs.Nesting
import Lingo.Proofs.Copies
import Lingo.Proofs.Watching
import Lingo.Proofs.Tracing
import Lingo.Proofs.Rejoining
import Lingo.Proofs.Terminators
import Lingo.Proofs.Parts
import Lingo.Proofs.Putting
import Lingo.Proofs.Deleting
import Lingo.Proofs.Stacks
import Lingo.Proofs.Cells
import Lingo.Proofs.Keys
import Lingo.Proofs.NestedProperty
import Lingo.Proofs.Fields
import Lingo.Proofs.Places
import Lingo.Proofs.Addressing
import Lingo.Proofs.OwnProperty
import Lingo.Proofs.Walks
import Lingo.Proofs.Lineage
import Lingo.Proofs.Levels
import Lingo.Proofs.AncestorCall
import Lingo.Proofs.Ascent
import Lingo.Proofs.Division
import Lingo.Proofs.Figures
import Lingo.Proofs.Combining
import Lingo.Proofs.Straight
import Lingo.Proofs.Recursion
import Lingo.Proofs.Literals
import Lingo.Proofs.Equality
import Lingo.Proofs.Keyed
import Lingo.Proofs.Sorting
import Lingo.Proofs.Searching
import Lingo.Proofs.Constants
import Lingo.Proofs.Faults
import Lingo.Proofs.Outlines
import Lingo.Proofs.Boundaries
import Lingo.Proofs.Rounds
import Lingo.Proofs.Rereading
import Lingo.Proofs.Labelling
import Lingo.Proofs.Numerals
import Lingo.Proofs.Slicing
import Lingo.Proofs.Operation
import Lingo.Proofs.Inspection
import Lingo.Proofs.Orderly
