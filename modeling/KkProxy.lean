import KkProxy.Shared.Conveyor
import KkProxy.Ssl.Complete
import KkProxy.Ssl.Delivery
import KkProxy.Ssl.EndOfStream
import KkProxy.Ssl.EndToEnd
import KkProxy.Ssl.Flags
import KkProxy.Ssl.FlushLoops
import KkProxy.Ssl.Lengths
import KkProxy.Ssl.Overflow
import KkProxy.Ssl.Threads
import KkProxy.Ssl.Towers
import KkProxy.Ssl.Handshake
import KkProxy.Ssl.HandshakeErrors
import KkProxy.Ssl.Quiet
import KkProxy.Ssl.Senders
import KkProxy.Ssl.Stall
import KkProxy.Ssl.Waiting
import KkProxy.Coro.BlockRun
import KkProxy.Coro.Contexts
import KkProxy.Coro.Orphans
import KkProxy.Coro.Blocking
import KkProxy.Coro.Ownership
import KkProxy.Coro.Promises
import KkProxy.Coro.Results
import KkProxy.Coro.Resume
import KkProxy.Coro.Waiters
import KkProxy.Uring.Completions
import KkProxy.Uring.Submit
import KkProxy.Ssl.Objects
import KkProxy.Net.Descriptors
import KkProxy.Net.BaseStream
import KkProxy.Net.Socket
import KkProxy.Net.Views
import KkProxy.Http.Headers
