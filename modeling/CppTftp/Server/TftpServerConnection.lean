import CppTftp.Common.Descriptors
import CppTftp.Common.TftpReadFile
import CppTftp.Common.TftpWriteFile
import CppTftp.Lib.Run

/-!
# The server side of one transfer

`include/server/tftp_server_connection.hpp` and `src/server/tftp_server_connection.cpp`:
the constructor with its option processing, and the two handlers that the event loop
calls. A handler's outcome lists what it did to the socket and the files, in order.
-/

namespace CppTftp

open Tftp Lib

/-- `tftp_server_connection::state_t`, `tftp_server_connection.hpp:39–47`. -/
inductive ConnState where
  | sendAck
  | sendOack
  | sendData
  | waitForAck
  | waitForData
  | error
  deriving DecidableEq, Repr

/-- What a handler does to the outside. A received datagram is what `recv` returned, a
sent one is what the socket accepted. -/
inductive Action where
  | recv (data : Bytes)
  | send (data : Bytes)
  | readInTo
  | write (data : Bytes)
  deriving DecidableEq, Repr

/-- The state of a connection, `tftp_server_connection.hpp:52–70`, less its logger, its
descriptors and the address of its client. -/
structure TftpServerConnection where
  type : PacketT
  fileReader : TftpReadFile := {}
  fileWriter : TftpWriteFile := {}
  dataPkt : DataPacket := {}
  errorPkt : ErrorPacket := {}
  finished : Bool := false
  finalAck : Bool := false
  pktReady : Bool := false
  state : ConnState := .error
  timeoutS : UInt8 := 2
  timeoutCount : UInt8 := 0
  blockNumber : UInt16 := 0
  blockSize : Nat := 512
  oackPacket : OackPacket := {}
  timer : Timer := .disarmed
  deriving DecidableEq, Repr

/-- What the constructor finds outside: the verdict of `is_operation_allowed`, the answers
of `get_mtu` and `get_file_size`, and what `fopen` opens, if anything. -/
structure World where
  notAllowed : Option ErrorPacket := none
  mtu : Int := -1
  fileSize : Nat := 0
  readable : Option FileContents := none
  writable : Option FileSink := none
  deriving DecidableEq, Repr

/-- What a handler leaves behind. -/
abbrev HandlerOutcome := Outcome Action Stop TftpServerConnection

namespace TftpServerConnection

/-- `tftp_server_connection.cpp:11`. -/
def blksizeOpt : Bytes := str "BLKSIZE"

/-- `tftp_server_connection.cpp:12`. -/
def tsizeOpt : Bytes := str "TSIZE"

/-- `tftp_server_connection.cpp:13`. -/
def timeoutOpt : Bytes := str "TIMEOUT"

/-- `tftp_server_connection.cpp:14`. -/
def maxTimeouts : UInt8 := 3

/-- The error packet of every failure of the server itself, `tftp_server_connection.cpp:387`. -/
def internalError : ErrorPacket := .of .notDefined (str "Internal server error")

/-! ### The constructor -/

/-- `_oack_packet.options.push_back`. -/
def pushOack (c : TftpServerConnection) (name value : Bytes) : TftpServerConnection :=
  { c with oackPacket := { options := c.oackPacket.options ++ [(name, value)] } }

/-- The BLKSIZE branch, `tftp_server_connection.cpp:134–164`. -/
def processBlksize (w : World) (c : TftpServerConnection) (name value : Bytes) :
    TftpServerConnection :=
  match stoull value with
  | none => c
  | some val =>
    let c := { c with blockSize := val % 2 ^ 32 }
    if w.mtu < 0 then c.pushOack name value
    else if w.mtu < toInt32 c.blockSize then
      { c with blockSize := w.mtu.toNat }.pushOack name (toDecimal w.mtu.toNat)
    else c.pushOack name value

/-- The TIMEOUT branch, `tftp_server_connection.cpp:187–207`. -/
def processTimeout (c : TftpServerConnection) (name value : Bytes) : TftpServerConnection :=
  match stoull value with
  | none => c
  | some reqTimeoutS =>
    if reqTimeoutS < 1 ∨ reqTimeoutS > 255 then c
    else { c with timeoutS := UInt8.ofNat reqTimeoutS }.pushOack name
      (toDecimal (UInt8.ofNat reqTimeoutS).toNat)

/-- One round of `process_options`, `tftp_server_connection.cpp:131–212`. -/
def processOption (w : World) (request : RwPacket) (c : TftpServerConnection)
    (opt : Bytes × Bytes) : TftpServerConnection :=
  if strcmpEq opt.1 blksizeOpt then c.processBlksize w opt.1 opt.2
  else if strcmpEq opt.1 tsizeOpt then
    match request.type with
    | .read => c.pushOack opt.1 (toDecimal w.fileSize)
    | _ => c
  else if strcmpEq opt.1 timeoutOpt then c.processTimeout opt.1 opt.2
  else c

/-- `tftp_server_connection::process_options`, `tftp_server_connection.cpp:129–213`. -/
def processOptions (w : World) (request : RwPacket) (c : TftpServerConnection) :
    TftpServerConnection :=
  request.options.foldl (processOption w request) c

/-- The READ branch of the constructor, `tftp_server_connection.cpp:58–83`. The state set
after a failed `open` is overwritten below it. -/
def startRead (w : World) (request : RwPacket) (c : TftpServerConnection) :
    TftpServerConnection :=
  let c := { c with fileReader := c.fileReader.openFile w.readable request.mode }
  let c :=
    if c.fileReader.fd.isSome then c
    else { c with
      errorPkt := .of .accessError (str "Failed to open file for reading"), state := .error }
  if c.oackPacket.options = [] then { c with state := .sendData, blockNumber := 1 }
  else { c with blockNumber := 0, state := .sendOack }

/-- The WRITE branch of the constructor, `tftp_server_connection.cpp:84–106`. -/
def startWrite (w : World) (request : RwPacket) (c : TftpServerConnection) :
    TftpServerConnection :=
  let c := { c with
    state := if c.oackPacket.options = [] then .sendAck else .sendOack, blockNumber := 0 }
  let c := { c with fileWriter := c.fileWriter.openFile w.writable request.mode }
  if c.fileWriter.fd.isSome then c
  else { c with
    errorPkt := .of .accessError (str "Failed to open file for writing"), state := .error }

/-- The constructor, `tftp_server_connection.cpp:18–118`. -/
def create (w : World) (request : RwPacket) : TftpServerConnection :=
  let c : TftpServerConnection := { type := request.type }
  match w.notAllowed with
  | some error => { c with errorPkt := error, state := .error }
  | none =>
    let c := { c with dataPkt := { c.dataPkt with data := List.replicate c.blockSize 0 } }
    let c := c.processOptions w request
    match request.type with
    | .read => c.startRead w request
    | .write => c.startWrite w request
    | _ => { c with
        errorPkt := .of .illegalOperation (str "ILLEGAL_OPERATION"), state := .error }

/-! ### The handlers -/

/-- `tftp_server_connection::wait_for_read`, `tftp_server_connection.cpp:251–254`. -/
def waitForRead (c : TftpServerConnection) : Bool :=
  c.state = .waitForAck || c.state = .waitForData

/-- `tftp_server_connection::wait_for_write`, `tftp_server_connection.cpp:259–263`. -/
def waitForWrite (c : TftpServerConnection) : Bool :=
  c.state = .sendAck || c.state = .sendData || c.state = .sendOack || c.state = .error

/-- `tftp_server_connection::set_finished`, `tftp_server_connection.cpp:242–245`. -/
def setFinished (c : TftpServerConnection) (finished : Bool) : TftpServerConnection :=
  { c with finished }

/-- `tftp_server_connection::retransmit`, `tftp_server_connection.cpp:276–292`. -/
def retransmit (b : Build) (c : TftpServerConnection) : Except Stop TftpServerConnection :=
  match c.state with
  | .waitForAck => .ok { c with state := .sendData }
  | .waitForData => .ok { c with state := .sendAck, blockNumber := c.blockNumber - 1 }
  | _ =>
    match b with
    | .debug => .error .assertion
    | .release => .ok c

/-- `block_number == (_block_number - 1)`: both sides are promoted to `int`, so nothing
equals the left neighbour of zero. -/
def isPrevious (received current : UInt16) : Bool :=
  (received.toNat : Int) == (current.toNat : Int) - 1

/-- An ACK or anything else received in WAIT_FOR_ACK, `tftp_server_connection.cpp:321–362`. -/
def readAck (c : TftpServerConnection) (recvData : Bytes) : TftpServerConnection :=
  match deserialiseAckPacket recvData with
  | some ackPacket =>
    let c := { c with timeoutCount := 0 }
    if isPrevious ackPacket.blockNumber c.blockNumber then { c with state := .sendData }
    else if ackPacket.blockNumber = c.blockNumber then
      if c.finalAck then { c with finished := true }
      else { c with pktReady := false, state := .sendData, blockNumber := c.blockNumber + 1 }
    else { c with state := .error }
  | none =>
    match deserialiseErrorPacket recvData with
    | some _ => { c with finished := true }
    | none => c

/-- The block that was waited for, `tftp_server_connection.cpp:382–398`. -/
def writeBlock (c : TftpServerConnection) (data : Bytes) : HandlerOutcome :=
  match c.fileWriter.write data with
  | .error stop => .stop [.write data] stop
  | .ok fileWriter =>
    let c := { c with fileWriter }
    if c.fileWriter.error then
      .ok [.write data] { c with errorPkt := internalError, state := .error }
    else
      let c := if data.length < c.blockSize then { c with finalAck := true } else c
      .ok [.write data] { c with state := .sendAck }

/-- A DATA packet or anything else received in WAIT_FOR_DATA,
`tftp_server_connection.cpp:367–415`. -/
def readData (c : TftpServerConnection) (recvData : Bytes) : HandlerOutcome :=
  match deserialiseDataPacket recvData with
  | some dataPacket =>
    let c := { c with timeoutCount := 0 }
    if isPrevious dataPacket.blockNumber c.blockNumber then
      .ok [] { c with blockNumber := c.blockNumber - 1, state := .sendAck }
    else if dataPacket.blockNumber = c.blockNumber then c.writeBlock dataPacket.data
    else .ok [] { c with state := .error }
  | none =>
    match deserialiseErrorPacket recvData with
    | some _ => .ok [] { c with finished := true }
    | none => .ok [] c

/-- An expiration found by `handle_read`, `tftp_server_connection.cpp:303–314`. -/
def onTimeout (b : Build) (c : TftpServerConnection) : HandlerOutcome :=
  if c.timeoutCount ≥ maxTimeouts then .ok [] { c with finished := true }
  else
    match retransmit b { c with timeoutCount := c.timeoutCount + 1 } with
    | .ok c => .ok [] c
    | .error stop => .stop [] stop

/-- The datagram that `recv` took off the socket, if it took one. -/
def received (r : RecvResult) (recvData : Bytes) : List Action :=
  if r.consumes then [.recv recvData] else []

@[simp] theorem received_datagram (data recvData : Bytes) :
    received (.datagram data) recvData = [.recv recvData] := rfl

@[simp] theorem received_wouldBlock (recvData : Bytes) : received .wouldBlock recvData = [] := rfl

/-- `tftp_server_connection::handle_read`, `tftp_server_connection.cpp:299–426`. -/
def handleRead (b : Build) (c : TftpServerConnection) (r : RecvResult) : HandlerOutcome :=
  if c.timer.hasExpired.1 then onTimeout b { c with timer := c.timer.hasExpired.2 }
  else
    match c.state with
    | .waitForAck =>
      match r.recv ackPktMaxSize with
      | .error stop => .stop [] stop
      | .ok recvData => .ok (received r recvData) (c.readAck recvData)
    | .waitForData =>
      match r.recv c.blockSize with
      | .error stop => .stop [] stop
      | .ok recvData => (c.readData recvData).after (received r recvData)
    | _ => .ok [] c

/-- Enter a waiting state with a fresh timer, `tftp_server_connection.cpp:473–474,501–502`. -/
def waitWithTimer (c : TftpServerConnection) (state : ConnState) : TftpServerConnection :=
  { c with state, timer := .armTimer c.timeoutS.toNat }

/-- Sending the cached DATA packet, `tftp_server_connection.cpp:463–479`. -/
def transmitData (c : TftpServerConnection) (s : SendResult) : HandlerOutcome :=
  match s with
  | .failed => .ok [] { c with errorPkt := internalError, state := .error }
  | .sent => .ok [.send (serialiseDataPacket c.dataPkt)] (c.waitWithTimer .waitForAck)
  | .wouldBlock => .ok [] c

/-- The branch SEND_DATA, `tftp_server_connection.cpp:437–481`. -/
def handleWriteData (c : TftpServerConnection) (s : SendResult) : HandlerOutcome :=
  if c.pktReady then c.transmitData s
  else
    match c.fileReader.readInTo c.blockSize with
    | .error stop => .stop [.readInTo] stop
    | .ok (data, fileReader) =>
      let c := { c with dataPkt := { c.dataPkt with data }, fileReader }
      if c.fileReader.error then
        .ok [.readInTo] { c with errorPkt := internalError, state := .error }
      else
        let c :=
          if c.dataPkt.data.length < c.blockSize || c.fileReader.eof then
            if c.dataPkt.data.length < c.blockSize then { c with finalAck := true } else c
          else c
        let c := { c with
          dataPkt := { c.dataPkt with blockNumber := c.blockNumber }, pktReady := true }
        (c.transmitData s).after [.readInTo]

/-- The branch SEND_ACK, `tftp_server_connection.cpp:482–509`. -/
def handleWriteAck (c : TftpServerConnection) (s : SendResult) : HandlerOutcome :=
  match s with
  | .failed => .ok [] { c with errorPkt := internalError, state := .error }
  | .sent =>
    let data := serialiseAckPacket { blockNumber := c.blockNumber }
    if c.finalAck then .ok [.send data] { c with finished := true }
    else
      let c := { c with blockNumber := c.blockNumber + 1 }
      .ok [.send data] (c.waitWithTimer .waitForData)
  | .wouldBlock => .ok [] c

/-- The branch SEND_OACK, `tftp_server_connection.cpp:510–531`. No timer is armed here. -/
def handleWriteOack (c : TftpServerConnection) (s : SendResult) : HandlerOutcome :=
  match s with
  | .failed => .ok [] { c with finished := true }
  | .sent =>
    let data := serialiseOackPacket c.oackPacket
    if c.type = .read then .ok [.send data] { c with state := .waitForAck }
    else .ok [.send data] { c with state := .waitForData }
  | .wouldBlock => .ok [] c

/-- The branch ERROR, `tftp_server_connection.cpp:532–546`. -/
def handleWriteError (c : TftpServerConnection) (s : SendResult) : HandlerOutcome :=
  match s with
  | .failed => .ok [] { c with finished := true }
  | .sent => .ok [.send (serialiseErrorPacket c.errorPkt)] { c with finished := true }
  | .wouldBlock => .ok [] c

/-- `tftp_server_connection::handle_write`, `tftp_server_connection.cpp:433–554`. -/
def handleWrite (c : TftpServerConnection) (s : SendResult) : HandlerOutcome :=
  match c.state with
  | .sendData => c.handleWriteData s
  | .sendAck => c.handleWriteAck s
  | .sendOack => c.handleWriteOack s
  | .error => c.handleWriteError s
  | .waitForAck | .waitForData => .stop [] (.exception "Error state")

/-! ### Events -/

/-- What can happen to a connection: the event loop calls one of its handlers for a readable
socket or timer, or for a writable socket; its timer runs out; or the socket reports an
error, `tftp_server.cpp:91–103`. -/
inductive Event where
  | readable (r : RecvResult)
  | writable (s : SendResult)
  | tick
  | hangup
  deriving DecidableEq, Repr

/-- The effect of one event. -/
def step (b : Build) (c : TftpServerConnection) : Event → HandlerOutcome
  | .readable r => handleRead b c r
  | .writable s => c.handleWrite s
  | .tick => .ok [] { c with timer := c.timer.elapse }
  | .hangup => .ok [] (c.setFinished true)

end TftpServerConnection
end CppTftp
