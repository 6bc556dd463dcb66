import TableFeed.Batch
import TableFeed.Cascade
import TableFeed.Client
import TableFeed.Column
import TableFeed.DataType
import TableFeed.Encoder
import TableFeed.Error
import TableFeed.Field
import TableFeed.FieldBits
import TableFeed.Hub
import TableFeed.KeyIndex
import TableFeed.KeyedTable
import TableFeed.Link
import TableFeed.Mailbox
import TableFeed.Ordered.Map
import TableFeed.Ordered.Set
import TableFeed.Proofs.Batch.NetEffect
import TableFeed.Proofs.Batch.RowMarks
import TableFeed.Proofs.Cascade.Actions
import TableFeed.Proofs.Cascade.AttachedInputs
import TableFeed.Proofs.Cascade.DetachmentStarts
import TableFeed.Proofs.Cascade.InputLife
import TableFeed.Proofs.Cascade.InputState
import TableFeed.Proofs.Cascade.PassShares
import TableFeed.Proofs.Cascade.SilenceAfterDetach
import TableFeed.Proofs.Client.AddressedResponses
import TableFeed.Proofs.Client.Dispatch
import TableFeed.Proofs.Client.Reconnecting
import TableFeed.Proofs.Client.Tokens
import TableFeed.Proofs.Connection.Agreement
import TableFeed.Proofs.Connection.BytesInTransit
import TableFeed.Proofs.Connection.Chunks
import TableFeed.Proofs.Connection.Convergence
import TableFeed.Proofs.Connection.Exchange
import TableFeed.Proofs.Encoder.Delivery
import TableFeed.Proofs.Encoder.FrameLength
import TableFeed.Proofs.Encoder.Halving
import TableFeed.Proofs.Encoder.Projection
import TableFeed.Proofs.Encoder.Responses
import TableFeed.Proofs.Encoder.RowData
import TableFeed.Proofs.Encoder.SchemaAnnouncement
import TableFeed.Proofs.Fields.BitSets
import TableFeed.Proofs.Fields.LastWrites
import TableFeed.Proofs.Fields.SheetCells
import TableFeed.Proofs.Hub.AttachedSink
import TableFeed.Proofs.Hub.Attachments
import TableFeed.Proofs.Hub.Commuting
import TableFeed.Proofs.Hub.Following
import TableFeed.Proofs.Hub.Notices
import TableFeed.Proofs.Hub.OneOutlet
import TableFeed.Proofs.Hub.OutputsAlone
import TableFeed.Proofs.Keys.Bijection
import TableFeed.Proofs.Keys.Interning
import TableFeed.Proofs.Keys.KeyFields
import TableFeed.Proofs.Replica.Machine
import TableFeed.Proofs.Replica.MessageShape
import TableFeed.Proofs.Replica.Outcomes
import TableFeed.Proofs.Replica.Refinement
import TableFeed.Proofs.Replica.Refusals
import TableFeed.Proofs.Replica.Runs
import TableFeed.Proofs.RowIds.Allocation
import TableFeed.Proofs.RowIds.Partition
import TableFeed.Proofs.RowIds.ReuseOrder
import TableFeed.Proofs.RowIds.Store
import TableFeed.Proofs.Server.AttachedSinks
import TableFeed.Proofs.Server.Isolation
import TableFeed.Proofs.Server.SinkOwners
import TableFeed.Proofs.Session.Acknowledgements
import TableFeed.Proofs.Session.FrameLimit
import TableFeed.Proofs.Session.RequestOutcomes
import TableFeed.Proofs.Session.Requests
import TableFeed.Proofs.Session.SinkOfSubscription
import TableFeed.Proofs.Session.SubscriptionCourse
import TableFeed.Proofs.Sink.AtReplica
import TableFeed.Proofs.Sink.AtTable
import TableFeed.Proofs.Sink.SchemaWithdrawal
import TableFeed.Proofs.Sink.ServesTable
import TableFeed.Proofs.Sink.Service
import TableFeed.Proofs.Sink.StreamGrammar
import TableFeed.Proofs.Sink.Subscribers
import TableFeed.Proofs.Sink.TableMirror
import TableFeed.Proofs.Table.CellHistory
import TableFeed.Proofs.Table.Indistinguishable
import TableFeed.Proofs.Table.Operations
import TableFeed.Proofs.Table.Publication
import TableFeed.Proofs.Table.RefusedInsert
import TableFeed.Proofs.Table.Runs
import TableFeed.Proofs.Table.ShownRows
import TableFeed.Proofs.Wire.Canonical
import TableFeed.Proofs.Wire.FieldSpelling
import TableFeed.Proofs.Wire.Frames
import TableFeed.Proofs.Wire.Readers
import TableFeed.Proofs.Wire.RoundTrip
import TableFeed.Proofs.Wire.StreamSplitting
import TableFeed.Proofs.Wire.StringOrder
import TableFeed.Protocol
import TableFeed.Publisher
import TableFeed.Recorder
import TableFeed.Replica
import TableFeed.RowIds
import TableFeed.RowStore
import TableFeed.Schema
import TableFeed.Server
import TableFeed.Session
import TableFeed.Sheet
import TableFeed.Sink
import TableFeed.Summary
import TableFeed.Table
import TableFeed.Text.Hex
import TableFeed.Text.Quoted
import TableFeed.Text.Shape
import TableFeed.Value
import TableFeed.Wire.Bytes
import TableFeed.Wire.Decode
import TableFeed.Wire.Encode
import TableFeed.Wire.Message
import TableFeed.Wire.Size
import TableFeed.Wire.Stream
import TableFeed.Workspace
