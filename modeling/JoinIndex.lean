import JoinIndex.Config.Document
import JoinIndex.Cursor.Walk
import JoinIndex.Equality
import JoinIndex.IntJoin
import JoinIndex.Value.Text
import JoinIndex.Workspace
import JoinIndex.Proofs.PowerOfTwo
import JoinIndex.Proofs.Calendar
import JoinIndex.Proofs.Probe.Order
import JoinIndex.Proofs.Bucket.Places
import JoinIndex.Proofs.Probe.Search
import JoinIndex.Proofs.Probe.Exactness
import JoinIndex.Proofs.Table.Relocation
import JoinIndex.Proofs.Arena.Growth
import JoinIndex.Proofs.Arena.Links
import JoinIndex.Proofs.Table.Groups
import JoinIndex.Proofs.Table.Moves
import JoinIndex.Proofs.Table.Pages
import JoinIndex.Proofs.Table.Payments
import JoinIndex.Proofs.Pointwise
import JoinIndex.Proofs.Table.Related
import JoinIndex.Proofs.Table.Soundness
import JoinIndex.Proofs.Table.Rearranged
import JoinIndex.Proofs.Table.Chains
import JoinIndex.Proofs.Table.Contents
import JoinIndex.Proofs.Table.Insertion
import JoinIndex.Proofs.Table.Room
import JoinIndex.Proofs.Table.Spending
import JoinIndex.Proofs.Table.Packing
import JoinIndex.Proofs.Cursor.Positions
import JoinIndex.Proofs.Cursor.Standing
import JoinIndex.Proofs.Cursor.Unmatched
import JoinIndex.Proofs.Cursor.Marking
import JoinIndex.Proofs.Cursor.Related
import JoinIndex.Proofs.Cursor.Rearranged
import JoinIndex.Proofs.Key.Sameness
import JoinIndex.Proofs.Key.Bytes
import JoinIndex.Proofs.Key.Buffers
import JoinIndex.Proofs.Key.Histories
import JoinIndex.Proofs.RowStore
import JoinIndex.Proofs.Session
import JoinIndex.Proofs.Owners
import JoinIndex.Proofs.Session.Frames
import JoinIndex.Proofs.Session.Room
import JoinIndex.Proofs.Session.Packing
import JoinIndex.Proofs.Session.Estimate
import JoinIndex.Proofs.Session.Classes
import JoinIndex.Proofs.Session.Keys
import JoinIndex.Proofs.Session.KeyUniqueness
import JoinIndex.Proofs.Session.Multimap
import JoinIndex.Proofs.Session.Resizing
import JoinIndex.Proofs.Session.Inserting
import JoinIndex.Proofs.Session.Traces
import JoinIndex.Proofs.Session.Marks
import JoinIndex.Proofs.Session.Answers
import JoinIndex.Proofs.Session.Storage
import JoinIndex.Proofs.Session.Rearranged
import JoinIndex.Proofs.Session.Hashing
import JoinIndex.Proofs.Session.Numbering
import JoinIndex.Proofs.Session.Scanning
import JoinIndex.Proofs.Representation
import JoinIndex.Proofs.IntJoin.Filling
import JoinIndex.Proofs.IntJoin.NestedLoop
import JoinIndex.Proofs.Table.Counters
import JoinIndex.Proofs.Hash.Crc32
import JoinIndex.Proofs.Hash.XxHash32
import JoinIndex.Proofs.Key.LevelZero
import JoinIndex.Proofs.Hash.Seeds
import JoinIndex.Proofs.Arena.Log
import JoinIndex.Proofs.Session.Renewal
import JoinIndex.Proofs.Session.Accepting
import JoinIndex.Proofs.RowStore.Log
import JoinIndex.Proofs.RowStore.Payers
import JoinIndex.Proofs.Budget.History
import JoinIndex.Proofs.Budget.Remaining
import JoinIndex.Proofs.Key.Matching
import JoinIndex.Proofs.Hash.Abreast
import JoinIndex.Proofs.Hash.FixedPoint
import JoinIndex.Proofs.Hash.EmptyInput
