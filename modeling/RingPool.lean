import RingPool.Runs
import RingPool.Ring.Session
import RingPool.Ring.Script
import RingPool.Linked.Channel
import RingPool.Linked.Script
import RingPool.Pool.Session
import RingPool.Traffic.Ring
import RingPool.Traffic.Linked
import RingPool.Traffic.Pool
import RingPool.Ring.Interleaving
import RingPool.Ring.Operations
import RingPool.Ring.Waiting
import RingPool.Linked.Interleaving
import RingPool.Pool.Interleaving
import RingPool.Pool.Guards
import RingPool.Proofs.Ring.Counter
import RingPool.Proofs.Ring.History
import RingPool.Proofs.Ring.Moves
import RingPool.Proofs.Ring.Layout
import RingPool.Proofs.Ring.Coherence
import RingPool.Proofs.Ring.Contents
import RingPool.Proofs.Ring.Delivery
import RingPool.Proofs.Ring.Ownership
import RingPool.Proofs.Ring.PublicationOrder
import RingPool.Proofs.Ring.Quota
import RingPool.Proofs.Ring.Elements
import RingPool.Proofs.Ring.BoundedQueue
import RingPool.Proofs.Ring.Translation
import RingPool.Proofs.Ring.Transfers
import RingPool.Proofs.Ring.StaleHeads
import RingPool.Proofs.Ring.Refusals
import RingPool.Proofs.Linked.Moves
import RingPool.Proofs.Linked.Chain
import RingPool.Proofs.Linked.Order
import RingPool.Proofs.Linked.Lifetimes
import RingPool.Proofs.Linked.Handles
import RingPool.Proofs.Linked.Emptiness
import RingPool.Proofs.Pool.Shelves
import RingPool.Proofs.Pool.Desk
import RingPool.Proofs.Pool.Opening
import RingPool.Proofs.Pool.Moves
import RingPool.Proofs.Pool.Safety
import RingPool.Proofs.Pool.Ledger
import RingPool.Proofs.Pool.Custody
import RingPool.Proofs.Pool.Contention
import RingPool.Proofs.Pool.Counters
import RingPool.Proofs.Pool.Exhaustion
import RingPool.Proofs.Ring.Tasks
import RingPool.Proofs.Ring.Endings
import RingPool.Proofs.Ring.GrantSizes
import RingPool.Proofs.Ring.Alone
import RingPool.Proofs.Ring.Snapshots
import RingPool.Proofs.Ring.Alike
import RingPool.Proofs.Ring.ExclusivePath
import RingPool.Proofs.Pool.WholeCalls
import RingPool.Proofs.Pool.Allocation
import RingPool.Proofs.Pool.Spilling
import RingPool.Proofs.Pool.Flushing
import RingPool.Proofs.Pool.Closing
import RingPool.Proofs.Pool.Construction
import RingPool.Proofs.Ring.Attempts
import RingPool.Proofs.Pool.Bursts
import RingPool.Proofs.Pool.Handover
import RingPool.Proofs.Ring.Acts
import RingPool.Proofs.Ring.Patience
import RingPool.Proofs.Ring.Pauses
