import CppTftp.Common.Tftp

/-!
# The listening socket and the request queue

`include/server/tftp_connection_handler.hpp` and `src/server/tftp_connection_handler.cpp`.
-/

namespace CppTftp

open Tftp

/-- `struct sockaddr_in`. -/
structure SockaddrIn where
  address : UInt32
  port : UInt16
  deriving DecidableEq, Repr

/-- What `::recvfrom` on the listening socket finds. -/
inductive Arrival where
  | datagram (data : Bytes) (client : SockaddrIn)
  | failed (what : String)
  deriving DecidableEq, Repr

/-- `tftp_connection_handler::request_t`, `tftp_connection_handler.hpp:16–22`. -/
structure RequestT where
  request : RwPacket
  client : SockaddrIn
  deriving DecidableEq, Repr

/-- The state of the handler, `tftp_connection_handler.hpp:30–31`: what the socket holds and
the requests taken off it. -/
structure TftpConnectionHandler where
  unread : List Arrival := []
  requestQueue : List RequestT := []
  deriving DecidableEq, Repr

namespace TftpConnectionHandler

/-- The request in the first 2048 bytes of a datagram, `tftp_connection_handler.cpp:29–46`. The
address printed by `recv_from` is read back by `to_sockaddr_in`. -/
def parse (data : Bytes) (client : SockaddrIn) : Option RequestT :=
  (deserialiseRwPacket (data.take 2048)).map fun request ↦ { request, client }

/-- The loop of `handle_read`, `tftp_connection_handler.cpp:27–48`. It ends where the socket is
empty and behind an empty datagram. -/
def drain : List Arrival → List RequestT → Except Stop TftpConnectionHandler
  | [], requestQueue => .ok { requestQueue }
  | .failed what :: _, _ => .error (.exception what)
  | .datagram data client :: unread, requestQueue =>
    if data = [] then .ok { unread, requestQueue }
    else drain unread (requestQueue ++ (parse data client).toList)

/-- `tftp_connection_handler::handle_read`, `tftp_connection_handler.cpp:21–49`. -/
def handleRead (h : TftpConnectionHandler) : Except Stop TftpConnectionHandler :=
  drain h.unread h.requestQueue

/-- The requests in what arrived on the socket. -/
def requests (arrivals : List Arrival) : List RequestT :=
  arrivals.flatMap fun
    | .datagram data client => (parse data client).toList
    | .failed _ => []

@[simp] theorem requests_append (l l' : List Arrival) :
    requests (l ++ l') = requests l ++ requests l' := List.flatMap_append

@[simp] theorem requests_datagram (data : Bytes) (client : SockaddrIn) (l : List Arrival) :
    requests (.datagram data client :: l) = (parse data client).toList ++ requests l := rfl

@[simp] theorem parse_nil (client : SockaddrIn) : parse [] client = none := rfl

/-- Draining moves requests from the socket to the queue and loses none. -/
theorem requests_drain {unread : List Arrival} {queue : List RequestT}
    {h : TftpConnectionHandler} (hd : drain unread queue = .ok h) :
    h.requestQueue ++ requests h.unread = queue ++ requests unread := by
  induction unread generalizing queue with
  | nil =>
    obtain rfl := Except.ok.inj hd
    rfl
  | cons a unread ih =>
    cases a with
    | failed what => exact absurd hd (by simp [drain])
    | datagram data client =>
      rw [drain] at hd
      split at hd
      · next he =>
        obtain rfl := Except.ok.inj hd
        rw [requests_datagram, he, parse_nil]
        rfl
      · rw [ih hd, requests_datagram, List.append_assoc]

end TftpConnectionHandler
end CppTftp
