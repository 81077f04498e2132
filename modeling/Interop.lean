import Interop.Binding.Basic
import Interop.Binding.Core
import Interop.Binding.Emission
import Interop.Call.Frame
import Interop.Call.Trapped
import Interop.Class.Basic
import Interop.Class.Draft
import Interop.Class.Method
import Interop.Class.Registry
import Interop.Config
import Interop.Conversion.ToHost
import Interop.Conversion.ToNative
import Interop.Decimal.Format
import Interop.Decimal.Shortest
import Interop.Error
import Interop.ExceptionMap
import Interop.Handle
import Interop.Heap.Basic
import Interop.Heap.Native
import Interop.Host.Arguments
import Interop.Host.Exception
import Interop.Host.Value
import Interop.Host.Wrapper
import Interop.KeyMap
import Interop.Log
import Interop.Machine
import Interop.Module.Basic
import Interop.Module.Calls
import Interop.Numeral
import Interop.Parcel.Classes
import Interop.Parcel.Failure
import Interop.Parcel.Hash
import Interop.Parcel.Number
import Interop.Parcel.Object
import Interop.Parcel.Routines
import Interop.Parcel.Text
import Interop.Parcel.Vector
import Interop.Program
import Interop.Proofs.Binding.CoreModule
import Interop.Proofs.Binding.Distinct
import Interop.Proofs.Binding.Emitted
import Interop.Proofs.Binding.Makers
import Interop.Proofs.Binding.Outcome
import Interop.Proofs.Binding.Rows
import Interop.Proofs.Call.Acceptance
import Interop.Proofs.Call.Dispatch
import Interop.Proofs.Call.Filling
import Interop.Proofs.Call.Inert
import Interop.Proofs.Call.Making
import Interop.Proofs.Call.Numerals
import Interop.Proofs.Call.Placement
import Interop.Proofs.Call.Screening
import Interop.Proofs.Call.Throwing
import Interop.Proofs.Call.Translation
import Interop.Proofs.Class.Histories
import Interop.Proofs.Class.Identity
import Interop.Proofs.Class.Layout
import Interop.Proofs.Class.Offspring
import Interop.Proofs.Class.Slots
import Interop.Proofs.Container.Behaviour
import Interop.Proofs.Container.Calls
import Interop.Proofs.Container.Hashes
import Interop.Proofs.Container.Kind
import Interop.Proofs.Container.Requests
import Interop.Proofs.Container.Tracked
import Interop.Proofs.Container.Vectors
import Interop.Proofs.Conversion.Building
import Interop.Proofs.Conversion.Conformity
import Interop.Proofs.Conversion.Convertible
import Interop.Proofs.Conversion.Copies
import Interop.Proofs.Conversion.Cycles
import Interop.Proofs.Conversion.Licence
import Interop.Proofs.Conversion.RoundTrip
import Interop.Proofs.Conversion.Shown
import Interop.Proofs.Conversion.Wrapping
import Interop.Proofs.Heap.Added
import Interop.Proofs.Heap.Cascade
import Interop.Proofs.Heap.Cells
import Interop.Proofs.Heap.Edits
import Interop.Proofs.Heap.Ledger
import Interop.Proofs.Heap.Orderly
import Interop.Proofs.Heap.Release
import Interop.Proofs.Heap.Teardown
import Interop.Proofs.Heap.Temporary
import Interop.Proofs.Heap.Unreachable
import Interop.Proofs.Host.Clones
import Interop.Proofs.Host.Equality
import Interop.Proofs.Log.Sinks
import Interop.Proofs.Native.Agreement
import Interop.Proofs.Native.Answering
import Interop.Proofs.Native.Containers
import Interop.Proofs.Native.Convention
import Interop.Proofs.Native.Keeping
import Interop.Proofs.Native.Licence
import Interop.Proofs.Native.Throwing
import Interop.Proofs.Number.Equality
import Interop.Proofs.Number.Nearest
import Interop.Proofs.Number.Rounding
import Interop.Proofs.Ownership.Balanced
import Interop.Proofs.Ownership.Calls
import Interop.Proofs.Ownership.Handles
import Interop.Proofs.Ownership.Operations
import Interop.Proofs.Ownership.Outcomes
import Interop.Proofs.Ownership.Results
import Interop.Proofs.Ownership.Sessions
import Interop.Proofs.Ownership.Transfers
import Interop.Proofs.Program.Settings
import Interop.Proofs.Signature.Grammar
import Interop.Proofs.Steps
import Interop.Proofs.Text.Keys
import Interop.Proofs.Text.Numerals
import Interop.Sample.Native
import Interop.Sample.Script
import Interop.Signature.Basic
import Interop.Signature.Parser
import Interop.Text.Blank
import Interop.Text.Case
import Interop.Text.Case.Table
import Interop.Text.CodeRange
import Interop.Text.Quoted
import Interop.Text.Record
import Interop.Text.Unprintable
import Interop.World
