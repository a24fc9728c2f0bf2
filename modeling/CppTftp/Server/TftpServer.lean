import CppTftp.Lib.EraseLoop
import CppTftp.Server.TftpConnectionHandler
import CppTftp.Server.TftpServerConnection

/-!
# The event loop of the server

`tftp_server::start`, `src/server/tftp_server.cpp:49–128`. One iteration takes a batch of
events from `epoll_wait`, calls a handler for each and cleans up. While the batch is worked
through, datagrams arrive on the listening socket and timers run out.
-/

namespace CppTftp

open Lib

/-- What the socket of a connection is polled for: `EPOLLIN` or `EPOLLOUT`. -/
inductive Interest where
  | read
  | write
  deriving DecidableEq, Repr

/-- An element of `_client_connections` with what its socket is registered for. Its address
is what the events of a batch refer to it by; here it is the position in the list, which no
element changes before the clean-up. -/
structure Registered where
  conn : TftpServerConnection
  interest : Interest
  deriving DecidableEq, Repr

/-- `wait_for_read() ? EPOLLIN : EPOLLOUT`, `tftp_server.cpp:82,110`. -/
def TftpServerConnection.interest (c : TftpServerConnection) : Interest :=
  if c.waitForRead then .read else .write

/-- The state of the server, `tftp_server.hpp:19–25`. -/
structure TftpServer where
  maxClients : Nat
  connHandler : TftpConnectionHandler := {}
  clientConnections : List Registered := []
  deriving DecidableEq, Repr

/-- What the loop does, and the datagrams that reach its listening socket. A call of a handler
is logged with the state in which it found the connection. -/
inductive ServerAction where
  | arrived (a : Arrival)
  | created (r : RequestT)
  | called (i : Nat) (e : TftpServerConnection.Event) (c : TftpServerConnection)
  | deregistered (r : Registered)
  | pastTheEnd
  deriving DecidableEq, Repr

/-- Why the loop does not go on. -/
inductive ServerStop where
  | stopped (stop : Stop)
  | undefinedBehaviour
  deriving DecidableEq, Repr

/-- What is left of the server. -/
abbrev ServerOutcome := Outcome ServerAction ServerStop TftpServer

/-- The bits of `epoll_event::events` that the loop looks at; the last one stands for
`EPOLLERR | EPOLLHUP`. -/
structure EpollEvents where
  epollin : Bool := false
  epollout : Bool := false
  epollerr : Bool := false
  deriving DecidableEq, Repr

/-- What happens while a batch is handled: an event of the batch for the listening socket, for
the socket or for the timer of a connection, with what the calls in its handler find; or
something outside. -/
inductive Occurrence where
  | requests (worlds : Nat → Except Stop World)
  | socket (i : Nat) (events : EpollEvents) (r : RecvResult) (s : SendResult)
  | timer (i : Nat) (r : RecvResult)
  | arrival (a : Arrival)
  | tick (i : Nat)

/-- What `epoll_wait` comes back with. -/
inductive EpollWait where
  | events (batch : List Occurrence)
  | interrupted
  | failed

/-- The timer of a connection runs out, or was not running. -/
def Registered.elapse (r : Registered) : Registered :=
  { r with conn := { r.conn with timer := r.conn.timer.elapse } }

namespace TftpServer

/-- The loop over new requests, `tftp_server.cpp:77–85`. A constructor that throws ends it. -/
def acceptRequests (worlds : Nat → Except Stop World) (s : TftpServer) :
    List RequestT → ServerOutcome
  | [] => .ok [] { s with connHandler := { s.connHandler with requestQueue := [] } }
  | newRequest :: requestQueue =>
    if s.clientConnections.length < s.maxClients then
      match worlds 0 with
      | .error stop => .stop [] (.stopped stop)
      | .ok w =>
        let conn := TftpServerConnection.create w newRequest.request
        (acceptRequests (fun k ↦ worlds (k + 1))
          { s with clientConnections := s.clientConnections ++ [⟨conn, conn.interest⟩] }
          requestQueue).after [.created newRequest]
    else .ok [] { s with
      connHandler := { s.connHandler with requestQueue := newRequest :: requestQueue } }

/-- An event of the listening socket, `tftp_server.cpp:72–86`. -/
def handleRequests (worlds : Nat → Except Stop World) (s : TftpServer) : ServerOutcome :=
  match s.connHandler.handleRead with
  | .error stop => .stop [] (.stopped stop)
  | .ok connHandler => acceptRequests worlds { s with connHandler } connHandler.requestQueue

/-- Which handler the bits of an event lead to, `tftp_server.cpp:91–108`. -/
def selectHandler (events : EpollEvents) (r : RecvResult) (s : SendResult) :
    Option TftpServerConnection.Event :=
  if events.epollin then some (.readable r)
  else if events.epollout then some (.writable s)
  else if events.epollerr then some .hangup
  else none

/-- An event of a connection, `tftp_server.cpp:89–111`: its handler is called and its socket
registered anew. -/
def serviceClient (b : Build) (s : TftpServer) (i : Nat)
    (event : Option TftpServerConnection.Event) : ServerOutcome :=
  match s.clientConnections[i]? with
  | none => .ok [] s
  | some registered =>
    match event with
    | none => .ok [] { s with
        clientConnections :=
          s.clientConnections.set i { registered with interest := registered.conn.interest } }
    | some e =>
      match (TftpServerConnection.step b registered.conn e).next with
      | .error stop => .stop [.called i e registered.conn] (.stopped stop)
      | .ok conn => .ok [.called i e registered.conn] { s with
          clientConnections := s.clientConnections.set i ⟨conn, conn.interest⟩ }

/-- One occurrence. -/
def handle (b : Build) (s : TftpServer) : Occurrence → ServerOutcome
  | .requests worlds => s.handleRequests worlds
  | .socket i events r snd => s.serviceClient b i (selectHandler events r snd)
  | .timer i r => s.serviceClient b i (some (.readable r))
  | .arrival a => .ok [.arrived a] { s with
      connHandler := { s.connHandler with unread := s.connHandler.unread ++ [a] } }
  | .tick i => .ok [] { s with
      clientConnections := s.clientConnections.modify i Registered.elapse }

/-- `is_finished`, `tftp_server_connection.cpp:233–236`. -/
def isFinished (r : Registered) : Bool := r.conn.finished

/-- The loop erases a connection together with its registrations. -/
def ofErasure : Erasure Registered → ServerAction
  | .erase r => .deregistered r
  | .pastTheEnd => .pastTheEnd

/-- The clean-up, `tftp_server.cpp:116–125`. -/
def cleanUp (n : EndIncrement) (s : TftpServer) : ServerOutcome :=
  let o := eraseLoop n isFinished s.clientConnections
  ⟨o.log.map ofErasure,
    match o.next with
    | .ok clientConnections => .ok { s with clientConnections }
    | .error _ => .error .undefinedBehaviour⟩

/-- One iteration of `tftp_server::start`, `tftp_server.cpp:59–125`. -/
def iterate (n : EndIncrement) (b : Build) (s : TftpServer) : EpollWait → ServerOutcome
  | .events batch => (exec (handle b) s batch).andThen (cleanUp n)
  | .interrupted => .ok [] s
  | .failed => .stop [] (.stopped (.exception "epoll error"))

/-- The server at the start of `start`. -/
def start (maxClients : Nat) : TftpServer := { maxClients }

end TftpServer
end CppTftp
