import Reactor.File.Directory
import Reactor.Main
import Reactor.Proofs.Session.Subscriptions
import Reactor.Proofs.Session.Propagation
import Reactor.Proofs.Stream.Chronicle
import Reactor.Proofs.Session.Storing
import Reactor.Proofs.Session.Transparency
import Reactor.Proofs.Session.Cycles
import Reactor.Proofs.Native.Collections
import Reactor.Proofs.Program.Layout
import Reactor.Proofs.Scope.Retiring
import Reactor.Proofs.Session.Nesting
import Reactor.Proofs.Session.Interference
import Reactor.Proofs.Session.Slicing
import Reactor.Proofs.Session.Rejection
import Reactor.Proofs.Program.Streams
import Reactor.Proofs.Engine.Dispatch
import Reactor.Proofs.Measure.Units
import Reactor.Proofs.Measure.Notation
