import TileCache.Main
import TileCache.Pixels.Image
import TileCache.Sink.Session
import TileCache.Proofs.Sink.Eviction
import TileCache.Proofs.Sink.Structure
import TileCache.Proofs.Sink.Freshness
import TileCache.Proofs.Sink.Pieces
import TileCache.Proofs.Sink.Ownership
import TileCache.Proofs.Sink.Allocation
import TileCache.Proofs.Cache.Lru
import TileCache.Proofs.Sink.Slots
import TileCache.Proofs.Sink.OneByOne
import TileCache.Proofs.Pixels.Whole
import TileCache.Proofs.Sink.Drawing
import TileCache.Proofs.Sink.Transparent
import TileCache.Proofs.Sink.Stability
import TileCache.Proofs.Sink.CatchUp
import TileCache.Proofs.Sink.Settling
import TileCache.Proofs.Program.Passes
import TileCache.Proofs.Cache.Requests
import TileCache.Proofs.Sink.Agreement
import TileCache.Proofs.Sink.Notices
import TileCache.Proofs.Sink.Ledger
import TileCache.Proofs.Sink.Statistics
import TileCache.Proofs.Sink.Lifecycle
import TileCache.Proofs.Sink.Decision
import TileCache.Proofs.Program.Walk
import TileCache.Proofs.Program.Complete
import TileCache.Proofs.Pixels.Addressing
import TileCache.Proofs.Sink.Refusals
import TileCache.Proofs.Sink.Inline
import TileCache.Proofs.Sink.Beyond
import TileCache.Proofs.Geometry.Cover
import TileCache.Proofs.Pixels.Rows
import TileCache.Proofs.Program.Positions
import TileCache.Proofs.Sink.Probing
