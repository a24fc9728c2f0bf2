import CppTftp.Common.Addresses
import CppTftp.Server.TftpConnectionHandler

/-!
# The address of a client in text

`udp_connection::recv_from` prints the address that a datagram came from, and
`utils::to_sockaddr_in` reads it back for the request queue. The loop of `handle_read` with the
variables that it has in the source.
-/

namespace CppTftp.TftpConnectionHandler

open Tftp

/-- `utils::to_sockaddr_in`, `utils.cpp:90–108`. -/
def toSockaddrIn (addr : Bytes) (port : UInt16) : Option SockaddrIn :=
  if addr = [] then some { address := 0, port }
  else (inetPton addr).map fun address ↦ { address, port }

/-- What `recv_from` returns, what it leaves in the arguments of its caller, and the socket
behind it. -/
structure Received where
  data : Bytes
  ipAddress : Bytes
  portNum : UInt16
  unread : List Arrival
  deriving DecidableEq, Repr

/-- `udp_connection::recv_from`, `udp_connection.cpp:160–191`. Behind an empty datagram `errno` is
what an earlier call left in it, which is EAGAIN or EWOULDBLOCK where `wouldBlock` says so. -/
def recvFrom (wouldBlock : Bool) (ipAddress : Bytes) (portNum : UInt16) (size : Nat) :
    List Arrival → Except Stop Received
  | [] => .ok { data := [], ipAddress, portNum, unread := [] }
  | .failed what :: _ => .error (.exception what)
  | .datagram data client :: unread =>
    if data = [] ∧ wouldBlock then .ok { data := [], ipAddress, portNum, unread }
    else
      .ok {
        data := data.take size
        ipAddress := inetNtop client.address
        portNum := client.port
        unread
      }

/-- An empty datagram is taken off the socket, and nothing is returned. -/
theorem recvFrom_empty (wouldBlock : Bool) (ipAddress : Bytes) (portNum : UInt16) (size : Nat)
    (client : SockaddrIn) (unread : List Arrival) :
    ∃ received, recvFrom wouldBlock ipAddress portNum size (.datagram [] client :: unread) =
      .ok received ∧ received.data = [] ∧ received.unread = unread := by
  rw [recvFrom]
  split
  · exact ⟨_, rfl, rfl, rfl⟩
  · exact ⟨_, rfl, List.take_nil, rfl⟩

/-- Any other datagram is returned, with the address it came from. -/
theorem recvFrom_datagram {data : Bytes} (h : data ≠ []) (wouldBlock : Bool) (ipAddress : Bytes)
    (portNum : UInt16) (size : Nat) (client : SockaddrIn) (unread : List Arrival) :
    recvFrom wouldBlock ipAddress portNum size (.datagram data client :: unread) =
      .ok { data := data.take size, ipAddress := inetNtop client.address
            portNum := client.port, unread } := by
  rw [recvFrom, if_neg fun he ↦ h he.1]

/-- What the loop makes of a datagram, `tftp_connection_handler.cpp:29–46`. -/
def enqueued (received : Received) : Option RequestT :=
  match toSockaddrIn received.ipAddress received.portNum, deserialiseRwPacket received.data with
  | some client, some request => some { request, client }
  | _, _ => none

/-- Fewer datagrams are left behind one that was not empty. -/
theorem length_unread_lt {wouldBlock : Bool} {ipAddress : Bytes} {portNum : UInt16} {size : Nat}
    {unread : List Arrival} {received : Received}
    (h : recvFrom wouldBlock ipAddress portNum size unread = .ok received)
    (hd : received.data ≠ []) : received.unread.length < unread.length := by
  cases unread with
  | nil =>
    obtain rfl := Except.ok.inj h
    exact absurd rfl hd
  | cons a unread =>
    cases a with
    | failed what => cases h
    | datagram data client =>
      rw [recvFrom] at h
      split at h
      · obtain rfl := Except.ok.inj h
        exact absurd rfl hd
      · obtain rfl := Except.ok.inj h
        exact Nat.lt_succ_self _

/-- The loop of `handle_read` as it is written, `tftp_connection_handler.cpp:23–48`: the address and
the port are variables of the function. `wouldBlock` is what `errno` may be at each call. -/
def printedLoop (wouldBlock : List Arrival → Bool) (ipAddress : Bytes) (portNum : UInt16)
    (requestQueue : List RequestT) (unread : List Arrival) : Except Stop TftpConnectionHandler :=
  match _h : recvFrom (wouldBlock unread) ipAddress portNum 2048 unread with
  | .error stop => .error stop
  | .ok received =>
    if _hd : received.data = [] then .ok { unread := received.unread, requestQueue }
    else
      printedLoop wouldBlock received.ipAddress received.portNum
        (requestQueue ++ (enqueued received).toList) received.unread
termination_by unread.length
decreasing_by exact length_unread_lt ‹_› ‹_›

/-- One turn of the loop. -/
theorem printedLoop_ok {wouldBlock : List Arrival → Bool} {ipAddress : Bytes} {portNum : UInt16}
    {requestQueue : List RequestT} {unread : List Arrival} {received : Received}
    (h : recvFrom (wouldBlock unread) ipAddress portNum 2048 unread = .ok received) :
    printedLoop wouldBlock ipAddress portNum requestQueue unread =
      if received.data = [] then .ok { unread := received.unread, requestQueue }
      else
        printedLoop wouldBlock received.ipAddress received.portNum
          (requestQueue ++ (enqueued received).toList) received.unread := by
  rw [printedLoop]
  split
  · next he => cases h.symm.trans he
  · next he =>
    obtain rfl := Except.ok.inj (h.symm.trans he)
    rfl

/-- `handle_read` as it is written. -/
def handleReadPrinted (wouldBlock : List Arrival → Bool) (h : TftpConnectionHandler) :
    Except Stop TftpConnectionHandler :=
  printedLoop wouldBlock [] 0 h.requestQueue h.unread

/-- The address of every client survives its text. -/
theorem toSockaddrIn_inetNtop (client : SockaddrIn) :
    toSockaddrIn (inetNtop client.address) client.port = some client := by
  have hne : inetNtop client.address ≠ [] := by
    intro he
    have hlen := congrArg List.length he
    simp [inetNtop, str] at hlen
  rw [toSockaddrIn, if_neg hne, inetPton_inetNtop]
  rfl

/-- A datagram is enqueued as the request that it is, from the client that sent it. -/
theorem enqueued_eq_parse (data : Bytes) (client : SockaddrIn) (unread : List Arrival) :
    enqueued {
      data := data.take 2048, ipAddress := inetNtop client.address, portNum := client.port, unread
    } = parse data client := by
  rw [enqueued, toSockaddrIn_inetNtop, parse]
  dsimp only
  cases deserialiseRwPacket (data.take 2048) with
  | none => rfl
  | some request => rfl

/-- The loop as it is written takes off the socket what `drain` does, whatever the variables and
`errno` are. The induction is on what is unread. -/
theorem printedLoop_eq_drain (wouldBlock : List Arrival → Bool) (ipAddress : Bytes)
    (portNum : UInt16) (requestQueue : List RequestT) (unread : List Arrival) :
    printedLoop wouldBlock ipAddress portNum requestQueue unread = drain unread requestQueue := by
  induction unread generalizing ipAddress portNum requestQueue with
  | nil =>
    have hnone : recvFrom (wouldBlock []) ipAddress portNum 2048 [] =
      .ok { data := [], ipAddress, portNum, unread := [] } := rfl
    rw [printedLoop_ok hnone]
    rfl
  | cons a unread ih =>
    cases a with
    | failed what =>
      rw [printedLoop, drain]
      rfl
    | datagram data client =>
      by_cases he : data = []
      · subst he
        obtain ⟨received, hr, hd, rfl⟩ :=
          recvFrom_empty (wouldBlock (.datagram [] client :: unread)) ipAddress portNum 2048 client
            unread
        rw [printedLoop_ok hr, if_pos hd, drain, if_pos rfl]
      · have hr := recvFrom_datagram he (wouldBlock (.datagram data client :: unread)) ipAddress
          portNum 2048 client unread
        have htake : data.take 2048 ≠ [] := by simp [he]
        rw [printedLoop_ok hr, if_neg htake, ih, enqueued_eq_parse, drain, if_neg he]

/-- `handle_read` enqueues what it would without the text of the addresses: none of them is
refused, and every request is queued with the address that its datagram came from. -/
theorem handleReadPrinted_eq (wouldBlock : List Arrival → Bool) (h : TftpConnectionHandler) :
    handleReadPrinted wouldBlock h = handleRead h :=
  printedLoop_eq_drain wouldBlock [] 0 h.requestQueue h.unread

end CppTftp.TftpConnectionHandler
