import HalaIo.Basic
import HalaIo.Poller.TimeWheel
import HalaIo.Poller.MioPoller
import HalaIo.Poller.Timers
import HalaIo.Poller.Expiry
import HalaIo.Poller.Dispatch
import HalaIo.Quic.ConnState
import HalaIo.Quic.Mediator
import HalaIo.Quic.Streams
import HalaIo.Driver.Handles
import HalaIo.Net.Adapters
import HalaIo.Net.Ownership
