import Stp.Time.Refinement
import Stp.Sched.Signals
import Stp.Process.Lifetime
import Stp.Coroutines.Ownership
import Stp.Coroutines.Outcome
import Stp.Server.Answers
import Stp.Time.Clock
import Stp.Time.Sleep
import Stp.Process.Pids
import Stp.Session.Encoding
import Stp.Time.Overflow
import Stp.Fd.Backends
import Stp.Fd.SecondWait
import Stp.Fd.Poll
import Stp.Fd.Readiness
import Stp.Coroutines.Exit
import Stp.Coroutines.Mutex
import Stp.Coroutines.Queues
import Stp.Serve.Machine
import Stp.Serve.Inbox
import Stp.Coroutines.Yield
import Stp.Serve.Delivery
import Stp.Net.Machine
import Stp.Net.Orphans
import Stp.Net.Handles
import Stp.Coroutines.Handles
import Stp.Fd.Segments
import Stp.Io.Transfer
import Stp.Tcp.Address
import Stp.Library.Links
import Stp.Time.Lists
import Stp.Tcp.Sockets
import Stp.Context.Stacks
import Stp.Event.Publish
import Stp.Pairing.Fates
import Stp.Pairing.Rounds
import Stp.Pairing.Copies
import Stp.Library.FreeList
import Stp.Pairing.Ends
import Stp.Time.Memory
import Stp.Library.Runs
import Stp.Process.Progress
import Stp.Context.Switches
import Stp.Process.Pools
import Stp.Time.Punctual
import Stp.Fd.Tended
