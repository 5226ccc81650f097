import PhantasmaSdk.Codec.Decoder
import PhantasmaSdk.Codec.LittleEndian
import PhantasmaSdk.Codec.Lawful
import PhantasmaSdk.Codec.Format
import PhantasmaSdk.Codec.Framing
import PhantasmaSdk.Codec.Extent
import PhantasmaSdk.Codec.Tame
import PhantasmaSdk.Codec.Decimal
import PhantasmaSdk.Codec.Utf16
import PhantasmaSdk.Codec.Radix
import PhantasmaSdk.Codec.Counted
import PhantasmaSdk.Machine.Bounded
import PhantasmaSdk.Machine.Run
import PhantasmaSdk.Machine.Loop
import PhantasmaSdk.Machine.Dialogue
import PhantasmaSdk.Machine.Handler
import PhantasmaSdk.Machine.Assembly
import PhantasmaSdk.Machine.OrderedMap
import PhantasmaSdk.Basic
import PhantasmaSdk.Text
import PhantasmaSdk.Carbon.Wire
import PhantasmaSdk.Carbon.IntX
import PhantasmaSdk.Carbon.CompactBigInt
import PhantasmaSdk.Carbon.Arrays
import PhantasmaSdk.Carbon.Payload
import PhantasmaSdk.Carbon.Call
import PhantasmaSdk.Carbon.TxMsg
import PhantasmaSdk.Carbon.Envelope
import PhantasmaSdk.Carbon.Hostile
import PhantasmaSdk.Carbon.Truncated
import PhantasmaSdk.Carbon.VmSchema
import PhantasmaSdk.Carbon.TokenSchemas
import PhantasmaSdk.Carbon.VmValue
import PhantasmaSdk.Carbon.VmLeaf
import PhantasmaSdk.Carbon.VmTyped
import PhantasmaSdk.Carbon.VmRoundTrip
import PhantasmaSdk.Carbon.VmCanonical
import PhantasmaSdk.Carbon.VmBySchema
import PhantasmaSdk.Carbon.TokenMetadata
import PhantasmaSdk.Carbon.Metadata
import PhantasmaSdk.Carbon.Coercion
import PhantasmaSdk.Carbon.VmWhole
import PhantasmaSdk.Carbon.MetadataKept
import PhantasmaSdk.Carbon.TokenArgs
import PhantasmaSdk.Carbon.Records
import PhantasmaSdk.Carbon.VmHostile
import PhantasmaSdk.Carbon.Expiry
import PhantasmaSdk.Carbon.NftAddress
import PhantasmaSdk.Carbon.Results
import PhantasmaSdk.Fees.Operation
import PhantasmaSdk.Fees.Config
import PhantasmaSdk.Fees.ConfigWire
import PhantasmaSdk.Carbon.Modules
import PhantasmaSdk.Fees.Cache
import PhantasmaSdk.Fees.Plan
import PhantasmaSdk.Carbon.Sign
import PhantasmaSdk.Carbon.Slots
import PhantasmaSdk.Fees.Send
import PhantasmaSdk.Fees.Facts
import PhantasmaSdk.Fees.Preflight
import PhantasmaSdk.Fees.Rows
import PhantasmaSdk.Fees.Settle
import PhantasmaSdk.Fees.Scaling
import PhantasmaSdk.Fees.Compare
import PhantasmaSdk.Fees.Budget
import PhantasmaSdk.Fees.Burned
import PhantasmaSdk.Fees.Order
import PhantasmaSdk.Fees.Envelope
import PhantasmaSdk.Fees.Forms
import PhantasmaSdk.Carbon.Builders
import PhantasmaSdk.Fees.Delivered
import PhantasmaSdk.Fees.Again
import PhantasmaSdk.Carbon.TokenCreation
import PhantasmaSdk.Fees.Wrap
import PhantasmaSdk.Fees.Returns
import PhantasmaSdk.Fees.Growth
import PhantasmaSdk.Fees.GrowthBill
import PhantasmaSdk.Fees.Bound
import PhantasmaSdk.Fees.Restated
import PhantasmaSdk.Fees.Exact
import PhantasmaSdk.Crypto.Difficulty
import PhantasmaSdk.Vm.Binary
import PhantasmaSdk.Vm.Transaction
import PhantasmaSdk.Vm.Mining
import PhantasmaSdk.Vm.Object
import PhantasmaSdk.Vm.Accepted
import PhantasmaSdk.Vm.ObjectReads
import PhantasmaSdk.Vm.Script
import PhantasmaSdk.Vm.Registers
import PhantasmaSdk.Vm.Casts
import PhantasmaSdk.Vm.Operation
import PhantasmaSdk.Vm.Helpers
import PhantasmaSdk.Crypto.Keys
import PhantasmaSdk.Vm.Signing
import PhantasmaSdk.Vm.Labels
import PhantasmaSdk.Vm.Patch
import PhantasmaSdk.Vm.Latch
import PhantasmaSdk.Serde.Derive
import PhantasmaSdk.Serde.RoundTrip
import PhantasmaSdk.Serde.Whole
import PhantasmaSdk.Rpc.Response
import PhantasmaSdk.Rpc.Calls
import PhantasmaSdk.Rpc.Pages
import PhantasmaSdk.Rpc.Decimals
import PhantasmaSdk.Rpc.Holdings
import PhantasmaSdk.Fees.Quote
import PhantasmaSdk.Fees.Commit
import PhantasmaSdk.ExtendedEvents.Shapes
import PhantasmaSdk.ExtendedEvents.Decode
import PhantasmaSdk.ExtendedEvents.Kept
import PhantasmaSdk.ExtendedEvents.Settled
import PhantasmaSdk.ExtendedEvents.Events
import PhantasmaSdk.Rpc.Answers
import PhantasmaSdk.Rpc.Transport
import PhantasmaSdk.Rpc.Broadcast
