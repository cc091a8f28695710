import KernelMemory.Console
import KernelMemory.Lock
import KernelMemory.Manager.Call
import KernelMemory.Paging.Inspect
import KernelMemory.Proofs.Boot.BringUp
import KernelMemory.Proofs.Frames.Clients
import KernelMemory.Proofs.Frames.StrayFrees
import KernelMemory.Proofs.Manager.Accounts
import KernelMemory.Proofs.Manager.Committed
import KernelMemory.Proofs.Manager.Isolation
import KernelMemory.Proofs.Manager.KernelTree
import KernelMemory.Proofs.Manager.Populated
import KernelMemory.Proofs.Manager.Roots
import KernelMemory.Proofs.Manager.TreeShape
import KernelMemory.Proofs.Manager.UpperHalf
import KernelMemory.Proofs.Paging.Promotion
import KernelMemory.Proofs.Manager.Faults
import KernelMemory.Proofs.Keeping
import KernelMemory.Proofs.Manager.TableFrames
import KernelMemory.Proofs.Manager.UserAccess
import KernelMemory.Proofs.Manager.KernelEntry
import KernelMemory.Proofs.Manager.Rejections
import KernelMemory.Proofs.Manager.Invalidation
import KernelMemory.Proofs.Lockstep
import KernelMemory.Proofs.Paging.Twins
import KernelMemory.Proofs.Manager.FailedStart
import KernelMemory.Proofs.Manager.Neighbours
import KernelMemory.Proofs.Manager.Listing
import KernelMemory.Proofs.Manager.StaleHandles
import KernelMemory.Proofs.Manager.UserMapping
import KernelMemory.Proofs.Paging.Ranges
import KernelMemory.Proofs.Boot.ImageRegion
import KernelMemory.Proofs.Manager.ImageView
import KernelMemory.Proofs.Boot.KernelImage
import KernelMemory.Proofs.Frames.Starting
import KernelMemory.Proofs.Manager.Repeating
import KernelMemory.Proofs.Boot.Partition
import KernelMemory.Proofs.Boot.SelfCheck
import KernelMemory.Proofs.Manager.Policies
import KernelMemory.Proofs.Manager.Windows
import KernelMemory.Proofs.Boot.HeapChoice
import KernelMemory.Proofs.Paging.Decoding
import KernelMemory.Proofs.Paging.Bookkeeping
import KernelMemory.Proofs.Paging.WrittenOnce
import KernelMemory.Proofs.Interrupts
import KernelMemory.Proofs.Manager.PageCover
import KernelMemory.Proofs.Manager.Aliases
import KernelMemory.Proofs.Paging.Paths
import KernelMemory.Proofs.Manager.RangeChecks
