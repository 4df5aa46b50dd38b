import PlotMachine.Arithmetic
import PlotMachine.Command.Arguments
import PlotMachine.Command.Execute
import PlotMachine.Command.Trace
import PlotMachine.Decimal
import PlotMachine.Fault
import PlotMachine.Frame.Arena
import PlotMachine.Frame.Pool
import PlotMachine.Heap
import PlotMachine.Host
import PlotMachine.Image.File
import PlotMachine.Image.Load
import PlotMachine.Image.Operand
import PlotMachine.Image.Resolver
import PlotMachine.Inspect
import PlotMachine.Instr
import PlotMachine.Json
import PlotMachine.Json.Reader
import PlotMachine.Json.Token
import PlotMachine.Label
import PlotMachine.Library.Dash
import PlotMachine.Library.Modules
import PlotMachine.Library.Natives
import PlotMachine.Lifetime
import PlotMachine.Listing
import PlotMachine.Machine
import PlotMachine.Machine.Capacity
import PlotMachine.Machine.Host
import PlotMachine.Machine.Instr
import PlotMachine.Machine.Run
import PlotMachine.Main
import PlotMachine.Native
import PlotMachine.Opcode
import PlotMachine.Position
import PlotMachine.Proofs.Growth
import PlotMachine.Proofs.Steps
import PlotMachine.Registry
import PlotMachine.Routine
import PlotMachine.Settings
import PlotMachine.Settings.Reader
import PlotMachine.Stack
import PlotMachine.Store
import PlotMachine.Text.Blank
import PlotMachine.Text.Quoted
import PlotMachine.Text.Visible
import PlotMachine.Unvisited
import PlotMachine.Validate
import PlotMachine.Value
import PlotMachine.Value.Equality
import PlotMachine.Value.Text
import PlotMachine.Proofs.Contract
import PlotMachine.Proofs.Contract.Primitive
import PlotMachine.Proofs.Contract.Instr
import PlotMachine.Proofs.Contract.Routine
import PlotMachine.Proofs.Entering
import PlotMachine.Proofs.Contract.Run
import PlotMachine.Proofs.Contract.Step
import PlotMachine.Proofs.CallDiscipline
import PlotMachine.Proofs.HostCalls
import PlotMachine.Proofs.Operands
import PlotMachine.Proofs.Resolving
import PlotMachine.Proofs.ResolverTable
import PlotMachine.Proofs.Making
import PlotMachine.Proofs.Validation
import PlotMachine.Proofs.BreadthFirst
import PlotMachine.Proofs.Listings
import PlotMachine.Proofs.ReachedCode
import PlotMachine.Proofs.Loading
import PlotMachine.Proofs.Bootup
import PlotMachine.Proofs.ImageSafety
import PlotMachine.Proofs.SourceMaps
import PlotMachine.Proofs.Modules
import PlotMachine.Proofs.Changes
import PlotMachine.Proofs.Moves
import PlotMachine.Proofs.Decoding
import PlotMachine.Proofs.StackBound
import PlotMachine.Proofs.Tracking
import PlotMachine.Proofs.Teardown
import PlotMachine.Proofs.Shapes
import PlotMachine.Proofs.Isolation
import PlotMachine.Proofs.Bisimulation
import PlotMachine.Proofs.Likeness
import PlotMachine.Proofs.Likeness.Instr
import PlotMachine.Proofs.Likeness.Run
import PlotMachine.Proofs.Likeness.Host
import PlotMachine.Proofs.Capacity
import PlotMachine.Proofs.Likeness.Capacity
import PlotMachine.Proofs.LibraryOnly
import PlotMachine.Proofs.GlobalFrame
import PlotMachine.Proofs.WiderLimits
import PlotMachine.Proofs.StackSegment
import PlotMachine.Proofs.PoolTransparency
import PlotMachine.Proofs.CallingConvention
import PlotMachine.Proofs.Level
import PlotMachine.Proofs.Courses
import PlotMachine.Proofs.Termination
import PlotMachine.Proofs.Interruption
import PlotMachine.Proofs.Blame
import PlotMachine.Proofs.Json.Tokens
import PlotMachine.Proofs.Json.Writing
import PlotMachine.Proofs.Json.Values
import PlotMachine.Proofs.Json.Laws
import PlotMachine.Proofs.RoundTrip
import PlotMachine.Proofs.Rendering
import PlotMachine.Proofs.LoadOrder
import PlotMachine.Proofs.Deeds
import PlotMachine.Proofs.Services
import PlotMachine.Proofs.PoolAccount
import PlotMachine.Proofs.Sweeping
import PlotMachine.Proofs.Construction
import PlotMachine.Proofs.Registration
import PlotMachine.Proofs.StackEffects
import PlotMachine.Proofs.FailedWrites
import PlotMachine.Proofs.IntegerArithmetic
import PlotMachine.Proofs.LabelArithmetic
