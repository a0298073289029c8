import BinderBinder.PendingSends
import BinderBinder.Lib.Layout
import BinderBinder.Sys
import BinderBinder.BinderObject
import BinderBinder.Payload.Builder
import BinderBinder.Payload.Reader
import BinderBinder.Payload.RoundTrip
import BinderBinder.Payload.Drain
import BinderBinder.Device.Framing
import BinderBinder.Device.Dispatch
import BinderBinder.Device.Thread
import BinderBinder.Device.TwoWay
import BinderBinder.Device.Guards
import BinderBinder.Registry.Life
import BinderBinder.Registry.Service
import BinderBinder.Registry.Objects
import BinderBinder.Credits
import BinderBinder.Registry.Handles
import BinderBinder.Registry.Loopers
import BinderBinder.Updates
import BinderBinder.Device.ContextManager
import BinderBinder.Device.OneWay
import BinderBinder.Payload.Drop
import BinderBinder.Payload.Descriptors
import BinderBinder.Lib.WeakCache
import BinderBinder.Refs.Life
import BinderBinder.Refs.Dedup
import BinderBinder.Lib.Registration
import BinderBinder.Refs.Death
import BinderBinder.Payload.Cursors
import BinderBinder.Lib.Segments
import BinderBinder.Payload.Representation
import BinderBinder.Device.Rollback
import BinderBinder.Device.LocalDelivery
import BinderBinder.Device.Handling
import BinderBinder.Device.LocalRemote
import BinderBinder.Device.Identity
import BinderBinder.Registry.Consistency
import BinderBinder.Registry.TypedRefs
import BinderBinder.Registry.Waits
import BinderBinder.Lib.Nesting
import BinderBinder.Device.Answers
import BinderBinder.Device.Serving
import BinderBinder.Lib.Table
import BinderBinder.Payload.BufferForest
import BinderBinder.Lib.Stations
import BinderBinder.Refs.Ledger
import BinderBinder.Refs.WeakLedger
import BinderBinder.Refs.Balance
import BinderBinder.Refs.Progress
import BinderBinder.Lib.Frames
import BinderBinder.Device.Writing
import BinderBinder.Device.Loopers
import BinderBinder.Payload.Blocks
import BinderBinder.Payload.Echo
import BinderBinder.Lib.Renaming
import BinderBinder.Refs.Renaming
import BinderBinder.Refs.Device
import BinderBinder.Lib.Allocation
import BinderBinder.Refs.Sequential
import BinderBinder.Refs.Holding
import BinderBinder.Refs.Functions
import BinderBinder.Refs.Calls
import BinderBinder.Refs.Program
