import CppTftp.Common.WriteFaults
import CppTftp.Server.Batches
import CppTftp.Server.OpenFiles

/-!
# What stops the server

No handler is called under a `try`, and `tftp_server::start` has none either: whatever a call
throws ends the server with all its connections. Which requests, files and datagrams can do
that to a release build. The model takes the `epoll_ctl` calls of the loop and all allocations
to succeed, also those that a client's `BLKSIZE` makes large.
-/

namespace CppTftp

open Tftp Lib Utils TftpServerConnection

/-! ### One session -/

namespace Session

/-- An event for which a session of the release build has a call that does not return. -/
inductive Fatal (x : Session .release) : Event → Stop → Prop
  /-- The socket of a waiting connection reports an error other than an empty queue. -/
  | receiving {what : String} (waiting : x.conn.waitForRead = true) :
      Fatal x (.readable (.failed what)) (.exception what)
  /-- The block that an upload in NETASCII mode waits for does not decode. -/
  | undecodable {d : Bytes} {p : DataPacket} {stop : Stop} (write : x.request.request.type = .write)
      (netascii : x.request.request.mode = .netascii)
      (decoded : deserialiseDataPacket (d.take x.conn.blockSize) = some p)
      (number : p.blockNumber = x.conn.blockNumber) (pairs : ¬WellPaired p.data)
      (throws : netasciiToNative p.data = .error stop) : Fatal x (.readable (.datagram d)) stop
  /-- The device of an upload refuses bytes, and the loop of the file writer goes on. -/
  | refused {d : Bytes} {sink : FileSink} (write : x.request.request.type = .write)
      (opened : x.world.writable = some sink) (sink : ¬(FileOut.fopen sink).Sound) :
      Fatal x (.readable (.datagram d)) .hang
  /-- The file of a download could not be opened. -/
  | unopened {s : SendResult} (read : x.request.request.type = .read)
      (allowed : x.world.notAllowed = none) (closed : x.world.readable = none) :
      Fatal x (.writable s) .nullFile

variable {b : Build}

/-- An upload was one from the start, with the file and the mode of its request. -/
theorem uploading {x : Session b} (h : x.conn.Uploading) :
    x.request.request.type = .write ∧ (∃ sink, x.world.writable = some sink) ∧
      x.conn.fileWriter.mode = x.request.request.mode ∧ x.conn.fileWriter.fd.isSome := by
  have hstart : x.conn.Uploading → (create x.world x.request.request).Uploading ∧
      x.conn.fileWriter.fd.isSome := by
    have hlasting : LastingWrite fun w ↦ w.fd.isSome :=
      fun _ _ _ _ hw ↦ (TftpWriteFile.mode_write hw).2
    apply x.run.stateInvariant (I := fun c ↦ c.Uploading →
      (create x.world x.request.request).Uploading ∧ c.fileWriter.fd.isSome)
    · intro hu
      exact ⟨hu, (fileWriter_create_isSome_iff _ _).mpr (uploading_create hu)⟩
    · intro c e l c' hc hs hu
      obtain ⟨hu', hkept⟩ := Uploading.step hlasting hs hu
      exact ⟨(hc hu').1, hkept (hc hu').2⟩
  obtain ⟨hu, hopen⟩ := hstart h
  obtain ⟨ha, ht, hw⟩ := uploading_create hu
  refine ⟨ht, Option.isSome_iff_exists.mp hw, ?_, hopen⟩
  rw [(kept_runs x.run).writerMode, (files_create _ _).2, if_pos ⟨ha, ht⟩]
  rfl

/-- A download was one from the start, and a file that is not open now was not then. -/
theorem downloading {x : Session b} (h : x.conn.Downloading) (hfd : x.conn.fileReader.fd = none) :
    x.request.request.type = .read ∧ x.world.notAllowed = none ∧ x.world.readable = none := by
  have hstart : x.conn.Downloading → (create x.world x.request.request).Downloading := by
    apply x.run.stateInvariant (I := fun c ↦ c.Downloading →
      (create x.world x.request.request).Downloading) id
    exact fun _ _ _ _ hc hs hd ↦ hc ((readerKept_step hs).downloading hd)
  have hopened : (create x.world x.request.request).fileReader.fd.isSome →
      x.conn.fileReader.fd.isSome := by
    intro ho
    apply x.run.stateInvariant (I := fun c ↦ c.fileReader.fd.isSome) ho
    exact fun _ _ _ _ hc hs ↦ (readerKept_step hs).opened hc
  obtain ⟨ha, ht⟩ := downloading_create (hstart h)
  refine ⟨ht, ha, ?_⟩
  rw [fileReader_create_isSome_iff, hfd] at hopened
  cases hr : x.world.readable with
  | none => rfl
  | some file => exact absurd (hopened ⟨ha, ht, by rw [hr]; rfl⟩) Bool.false_ne_true

/-- The file writer of an upload stops a call on a payload or on its device. -/
theorem fatal_writing {x : Session .release} {d : Bytes} {p : DataPacket} {stop : Stop}
    (hs : x.conn.state = .waitForData)
    (hd : deserialiseDataPacket (d.take x.conn.blockSize) = some p)
    (hn : p.blockNumber = x.conn.blockNumber) (hw : x.conn.fileWriter.write p.data = .error stop) :
    x.Fatal (.readable (.datagram d)) stop := by
  have hu : x.conn.Uploading := .inr (.inl hs)
  obtain ⟨ht, ⟨sink, hsink⟩, hmode, hopen⟩ := x.uploading hu
  cases hpay : nativePayload x.conn.fileWriter.mode p.data with
  | ok nativeData =>
    have hunsound : ¬(FileOut.fopen sink).Sound := by
      intro hsound
      have hall : ∀ sink', x.world.writable = some sink' → (FileOut.fopen sink').Sound := by
        intro sink' hs'
        rw [hsink] at hs'
        exact Option.some.inj hs' ▸ hsound
      obtain ⟨w, hok, -⟩ := TftpWriteFile.write_of_good (good_runs hall x.run hu) hpay
      rw [hok] at hw
      cases hw
    have hhang : stop = .hang := by
      obtain ⟨f, hf⟩ := Option.isSome_iff_exists.mp hopen
      rw [TftpWriteFile.write, hpay, hf] at hw
      dsimp only at hw
      split at hw
      · next hl =>
        obtain rfl := Except.error.inj hw
        exact TftpWriteFile.error_fwriteLoop_eq hl
      · cases hw
    rw [hhang]
    exact .refused ht hsink hunsound
  | error t =>
    rw [TftpWriteFile.write_of_not_decodable hpay] at hw
    obtain rfl := Except.error.inj hw
    have hnone : ¬∃ nativeData, nativePayload x.conn.fileWriter.mode p.data = .ok nativeData := by
      rintro ⟨nativeData, hok⟩
      rw [hok] at hpay
      cases hpay
    obtain ⟨hoctet, hpairs⟩ := not_or.mp (mt (nativePayload_iff _ _).mpr hnone)
    have hnetascii : x.conn.fileWriter.mode = .netascii := by
      cases hm : x.conn.fileWriter.mode with
      | octet => exact absurd hm hoctet
      | netascii => rfl
    refine .undecodable ht (hmode ▸ hnetascii) hd hn hpairs ?_
    rw [nativePayload, if_pos hoctet] at hpay
    exact hpay

/-- A call for a session that was due and does not return has one of these reasons. -/
theorem fatal_of_step {x : Session .release} {e : Event} {stop : Stop}
    (hready : ∀ s, e = .writable s → x.conn.waitForWrite = true)
    (h : (step .release x.conn e).next = .error stop) : x.Fatal e stop := by
  cases stops_of_step h with
  | assertion debug => cases debug
  | receiving timer waiting => exact .receiving waiting
  | writing timer state decoded number write => exact fatal_writing state decoded number write
  | reading state ready read =>
    obtain rfl := stop_readInTo read
    have hfd : x.conn.fileReader.fd = none := by
      cases hf : x.conn.fileReader.fd with
      | none => rfl
      | some f =>
        rw [TftpReadFile.readInTo, hf] at read
        dsimp only at read
        split at read
        · split at read
          · cases read
          · cases read
        · cases read
    obtain ⟨ht, ha, hr⟩ := x.downloading (.inl state) hfd
    exact .unopened ht ha hr
  | waiting waiting =>
    have hw := hready _ rfl
    rw [waitForWrite_eq, waiting] at hw
    cases hw

end Session

/-! ### The server -/

namespace TftpServer

open ServerAction TftpConnectionHandler

/-- Why a run of the release build stops. -/
inductive StopReason (waits : List EpollWait) (log : List ServerAction) : ServerStop → Prop
  /-- The clean-up advanced past the end of the list. -/
  | cleanUp : StopReason waits log .undefinedBehaviour
  | epoll (failed : .failed ∈ waits) : StopReason waits log (.stopped (.exception "epoll error"))
  /-- The constructor of a connection threw. -/
  | creation {batch : List Occurrence} {worlds : Nat → Except Stop World} {k : Nat} {stop : Stop}
      (waited : .events batch ∈ waits) (reported : .requests worlds ∈ batch)
      (threw : worlds k = .error stop) : StopReason waits log (.stopped stop)
  /-- Receiving from the listening socket failed. -/
  | listening {what : String} (arrived : .failed what ∈ arrivals log) :
      StopReason waits log (.stopped (.exception what))
  /-- A handler of an accepted request's session did not return. -/
  | session (x : Session .release) {i : Nat} {e : Event} {stop : Stop}
      (called : .called i e x.conn ∈ log) (accepted : x.request ∈ creations log)
      (fatal : x.Fatal e stop) : StopReason waits log (.stopped stop)

variable {b : Build} {s s' : TftpServer} {l log : List ServerAction} {n : EndIncrement}

/-- What holds between the events: the connections are sessions, polled for what they wait for,
and what the listening socket holds did arrive. -/
structure Watched (b : Build) (log : List ServerAction) (s : TftpServer) : Prop where
  hosted : Hosted b log s
  polled : s.Polled
  unread : ∀ a ∈ s.connHandler.unread, a ∈ arrivals log

theorem watched_start (b : Build) (max : Nat) : Watched b [] (start max) :=
  ⟨hosted_start b max, fun _ hr ↦ absurd hr List.not_mem_nil, fun _ ha ↦ absurd ha List.not_mem_nil⟩

/-- Draining leaves a part of what was there, and fails on what was there. -/
theorem drain_unread {unread : List Arrival} {queue : List RequestT} :
    (∀ h, drain unread queue = .ok h → ∀ a ∈ h.unread, a ∈ unread) ∧
      ∀ stop, drain unread queue = .error stop →
        ∃ what, .failed what ∈ unread ∧ stop = .exception what := by
  induction unread generalizing queue with
  | nil =>
    refine ⟨fun h hd a ha ↦ ?_, fun stop hd ↦ ?_⟩
    · obtain rfl := Except.ok.inj hd
      exact ha
    · cases hd
  | cons a unread ih =>
    cases a with
    | failed what =>
      refine ⟨fun h hd ↦ ?_, fun stop hd ↦ ⟨what, List.mem_cons_self, ?_⟩⟩
      · cases hd
      · exact (Except.error.inj hd).symm
    | datagram data client =>
      rw [drain]
      by_cases he : data = []
      · rw [if_pos he]
        refine ⟨fun h hd a ha ↦ ?_, fun stop hd ↦ ?_⟩
        · obtain rfl := Except.ok.inj hd
          exact List.mem_cons_of_mem _ ha
        · cases hd
      · rw [if_neg he]
        refine ⟨fun h hd a ha ↦ List.mem_cons_of_mem _ (ih.1 h hd a ha), fun stop hd ↦ ?_⟩
        obtain ⟨what, hw, hs⟩ := ih.2 stop hd
        exact ⟨what, List.mem_cons_of_mem _ hw, hs⟩

/-- An event that comes in time keeps what holds between the events. -/
theorem Watched.handle {o : Occurrence} (h : Watched b log s) (ho : o.Ready s)
    (hs : s.handle b o = .ok l s') : Watched b (log ++ l) s' := by
  have hnext : (s.handle b o).next = .ok s' := by
    rw [hs]
    rfl
  refine ⟨h.hosted.handle hs, (handle_meets h.polled ho).returned s' hnext, fun a ha ↦ ?_⟩
  rw [arrivals_append]
  rcases handle_cases hs with ⟨connHandler, hd, hacc⟩ | ⟨a', rfl, rfl⟩ | v
  · rw [hacc.unread] at ha
    exact List.mem_append_left _ (h.unread a (drain_unread.1 connHandler hd a ha))
  · rcases List.mem_append.mp ha with ha | ha
    · exact List.mem_append_left _ (h.unread a ha)
    · exact List.mem_append_right _ ha
  · rw [v.connHandler] at ha
    exact List.mem_append_left _ (h.unread a ha)

/-- A batch whose events come in time keeps it. -/
theorem Watched.batch {batch : List Occurrence} (h : Watched b log s)
    (ha : Along (TftpServer.handle b) (fun s o ↦ o.Ready s) s batch)
    (hr : Runs (TftpServer.handle b) s batch l s') : Watched b (log ++ l) s' := by
  apply hr.logInvariantAlong (I := fun l s ↦ Watched b (log ++ l) s) ha
  · rw [List.append_nil]
    exact h
  · intro l' c o l'' c' hc ho hs
    rw [← List.append_assoc]
    exact hc.handle ho hs

/-- The events of an answer come in time. -/
theorem Watched.along {batch : List Occurrence} (h : Watched b log s) (hc : s.Collected batch) :
    Along (TftpServer.handle b) (fun s o ↦ o.Ready s) s batch :=
  along_ready hc.once fun o ho ↦ ready_of_reported h.polled (hc.reported o ho)

/-- An iteration keeps it. -/
theorem Watched.iterate {wait : EpollWait} (h : Watched b log s) (ha : s.Answers wait)
    (hs : s.iterate n b wait = .ok l s') : Watched b (log ++ l) s' := by
  have hnext : (s.iterate n b wait).next = .ok s' := by
    rw [hs]
    rfl
  refine ⟨h.hosted.iterate hs, (iterate_meets n h.polled ha).returned s' hnext, ?_⟩
  rcases iterate_cases hs with ⟨-, rfl, rfl⟩ | ⟨batch, l₁, s₁, l₂, rfl, hb, hc, rfl⟩
  · rw [List.append_nil]
    exact h.unread
  · intro a hm
    rw [(cleanUp_other hc).1] at hm
    rw [← List.append_assoc, arrivals_append]
    exact List.mem_append_left _ ((h.batch (h.along ha) hb).unread a hm)

/-! ### The call that stops the server -/

/-- The loop over new requests stops where a constructor throws. -/
theorem stop_acceptRequests {worlds : Nat → Except Stop World} {queue : List RequestT}
    {t : ServerStop} (h : (s.acceptRequests worlds queue).next = .error t) :
    ∃ k stop, worlds k = .error stop ∧ t = .stopped stop := by
  induction queue generalizing worlds s with
  | nil => cases h
  | cons newRequest queue ih =>
    rw [acceptRequests] at h
    split at h
    · split at h
      · next stop hw => exact ⟨0, stop, hw, (Except.error.inj h).symm⟩
      · obtain ⟨k, stop, hw, ht⟩ := ih h
        exact ⟨k + 1, stop, hw, ht⟩
    · cases h

/-- Servicing a connection stops where its handler does. -/
theorem stop_serviceClient {i : Nat} {event : Option Event} {t : ServerStop}
    (h : (s.serviceClient b i event).next = .error t) : ∃ r e stop,
      s.clientConnections[i]? = some r ∧ event = some e ∧ t = .stopped stop ∧
      (step b r.conn e).next = .error stop ∧
      .called i e r.conn ∈ (s.serviceClient b i event).log := by
  rw [serviceClient] at h
  split at h
  · cases h
  · next r hr =>
    split at h
    · cases h
    · next e =>
      split at h
      · next stop hs =>
        refine ⟨r, e, stop, hr, rfl, (Except.error.inj h).symm, hs, ?_⟩
        rw [serviceClient, hr]
        dsimp only
        rw [hs]
        exact List.mem_singleton.mpr rfl
      · cases h

/-- An event of a connection that comes in time stops the server for a reason of its session. -/
theorem Watched.stop_called {waits : List EpollWait} {i : Nat} {r : Registered} {e : Event}
    {stop : Stop} (h : Watched .release log s) (hr : s.clientConnections[i]? = some r)
    (hready : ∀ snd, e = .writable snd → r.conn.waitForWrite = true)
    (hs : (step .release r.conn e).next = .error stop) (hl : .called i e r.conn ∈ l) :
    StopReason waits (log ++ l) (.stopped stop) := by
  have hi : s.conns[i]? = some r.conn := by
    rw [conns, List.getElem?_map, hr]
    rfl
  obtain ⟨xs, x, -, hx, hacc, -, -⟩ := h.hosted.exists_session hi
  rw [← hx] at hready hs hl
  refine .session x (List.mem_append_right _ hl) ?_ (Session.fatal_of_step hready hs)
  rw [creations_append]
  exact List.mem_append_left _ hacc

/-- An occurrence that comes in time stops the server for a reason. -/
theorem Watched.stop_handle {waits : List EpollWait} {batch : List Occurrence} {o : Occurrence}
    {t : ServerStop} (h : Watched .release log s) (hwait : .events batch ∈ waits)
    (hmem : o ∈ batch) (ho : o.Ready s) (ht : (s.handle .release o).next = .error t) :
    StopReason waits (log ++ (s.handle .release o).log) t := by
  cases o with
  | requests worlds =>
    rw [TftpServer.handle, handleRequests] at ht
    split at ht
    · next stop hd =>
      obtain ⟨what, hw, rfl⟩ := drain_unread.2 stop hd
      obtain rfl := Except.error.inj ht
      apply StopReason.listening
      rw [arrivals_append]
      exact List.mem_append_left _ (h.unread _ hw)
    · obtain ⟨k, stop, hw, rfl⟩ := stop_acceptRequests ht
      exact .creation hwait hmem hw
  | socket i events rr snd =>
    obtain ⟨r, e, stop, hr, he, rfl, hs, hl⟩ := stop_serviceClient ht
    refine h.stop_called hr (fun snd' hw ↦ ?_) hs hl
    obtain ⟨r', hr', hready⟩ := ho
    rw [hr] at hr'
    obtain rfl := Option.some.inj hr'
    rw [hw, selectHandler] at he
    split at he
    · cases he
    · next hin =>
      split at he
      · next hout => exact hready (Bool.eq_false_iff.mpr hin) hout
      · split at he <;> cases he
  | timer i rr =>
    rw [TftpServer.handle] at ht ⊢
    obtain ⟨r, e, stop, hr, he, rfl, hs, hl⟩ := stop_serviceClient ht
    obtain rfl := Option.some.inj he
    exact h.stop_called hr (fun _ hw ↦ Event.noConfusion hw) hs hl
  | arrival a => cases ht
  | tick i => cases ht

/-- An iteration stops the server for a reason. -/
theorem Watched.stop_iterate {waits : List EpollWait} {wait : EpollWait} {t : ServerStop}
    (h : Watched .release log s) (hmem : wait ∈ waits) (ha : s.Answers wait)
    (ht : (s.iterate n .release wait).next = .error t) :
    StopReason waits (log ++ (s.iterate n .release wait).log) t := by
  cases wait with
  | interrupted => cases ht
  | failed =>
    obtain rfl := Except.error.inj ht
    exact .epoll hmem
  | events batch =>
    have ha : s.Collected batch := ha
    rw [TftpServer.iterate, Outcome.andThen] at ht ⊢
    cases hb : (exec (TftpServer.handle .release) s batch).next with
    | ok s₁ =>
      rw [hb] at ht
      rw [stop_cleanUp ht]
      exact .cleanUp
    | error t' =>
      rw [hb] at ht
      obtain rfl := Except.error.inj ht
      obtain ⟨pre, o, post, l, c, rfl, hr, hs⟩ := exists_call_of_stop hb
      have halong := h.along ha
      have hc := h.batch (halong.left) hr
      have hstop := hc.stop_handle hmem (List.mem_append_right _ List.mem_cons_self)
        (halong.next hr) hs
      rw [hr.exec_stop hs, Outcome.log_stop, Outcome.log_stop, ← List.append_assoc]
      exact hstop

/-- Where `epoll_ctl` and the allocations succeed, a run of the release build that stops does so
in the clean-up, because `epoll_wait`, the listening socket or a constructor failed, or because
a handler of an accepted request's session did not return: its socket failed, its NETASCII
block did not decode, its device refused bytes, or its file was never opened. -/
theorem stops_for_a_reason {max : Nat} {waits : List EpollWait} {t : ServerStop}
    (ha : Along (iterate n .release) Answers (start max) waits)
    (ht : (exec (iterate n .release) (start max) waits).next = .error t) :
    StopReason waits (exec (iterate n .release) (start max) waits).log t := by
  obtain ⟨pre, wait, post, l, s, rfl, hr, hs⟩ := exists_call_of_stop ht
  have hw : Watched .release l s := by
    apply hr.logInvariantAlong (I := Watched .release) ha.left (watched_start .release max)
    intro l' c e l'' c' hc he hs'
    exact hc.iterate he hs'
  have hmem : wait ∈ pre ++ wait :: post := List.mem_append_right pre List.mem_cons_self
  have hstop := hw.stop_iterate hmem (ha.next hr) hs
  rw [hr.exec_stop hs]
  exact hstop

/-- A request to write a file in NETASCII mode. -/
def netasciiUpload : RequestT where
  request := { type := .write, filename := str "a", mode := .netascii, options := [] }
  client := { address := 0x7f000001, port := 5000 }

/-- Its bytes. -/
def writeRequest : Bytes := [0, 2] ++ str "a" ++ [0] ++ str "netascii" ++ [0]

private theorem parse_writeRequest :
    parse writeRequest netasciiUpload.client = some netasciiUpload := by
  decide +kernel

/-- A first block in which nothing follows a CR. -/
def firstCr : Bytes := [0, 3, 0, 1, CR]

/-- The request, the ACK that the connection sends, and that block. -/
def loneCr : List EpollWait :=
  [.events (askFor writeRequest netasciiUpload.client { writable := some {} }),
    .events [.socket 0 { epollout := true } .wouldBlock .sent],
    .events [.socket 0 { epollin := true } (.datagram firstCr) .wouldBlock]]

/-- The connection of the upload. -/
private def cutShort : TftpServerConnection :=
  create { writable := some {} } netasciiUpload.request

/-- The same once it has sent ACK 0. -/
private def cutShortSent : TftpServerConnection :=
  { cutShort with state := .waitForData, blockNumber := 1, timer := .armed }

private theorem step_cutShort : TftpServerConnection.step .release cutShort (.writable .sent) =
    .ok [.send [0, 4, 0, 0]] cutShortSent := rfl

private theorem exec_loneCr : (∃ stop, exec (iterate .wraps .release) (start 1) loneCr =
      .stop [.arrived (.datagram writeRequest netasciiUpload.client), .created netasciiUpload,
        .called 0 (.writable .sent) cutShort,
        .called 0 (.readable (.datagram firstCr)) cutShortSent] (.stopped stop)) ∧
    Along (iterate .wraps .release) Answers (start 1) loneCr := by
  have hask : (start 1).iterate .wraps .release _ = .ok _ (serving cutShort) :=
    iterate_askFor .wraps parse_writeRequest rfl
  have hsent : (serving cutShort).iterate .wraps .release
      (.events [.socket 0 { epollout := true } .wouldBlock .sent]) = .ok _ (serving cutShortSent) :=
    iterate_socket .wraps rfl step_cutShort rfl
  have hlast : (serving cutShortSent).iterate .wraps .release
      (.events [.socket 0 { epollin := true } (.datagram firstCr) .wouldBlock]) =
        .stop [.called 0 (.readable (.datagram firstCr)) cutShortSent]
          (.stopped (.exception "Invalid character sequence : EOL after CR")) := rfl
  have hr := Runs.cons hask (Runs.cons hsent (Runs.nil _))
  refine ⟨⟨_, hr.exec_stop (congrArg Outcome.next hlast) []⟩, ?_⟩
  refine Along.cons ⟨by decide, fun o ho ↦ ?_⟩ hask
    (Along.cons ⟨by decide, fun o ho ↦ ?_⟩ hsent
      ⟨⟨by decide, fun o ho ↦ ?_⟩, fun _ _ _ ↦ trivial⟩)
  · simp only [askFor, List.mem_cons, List.not_mem_nil, or_false] at ho
    rcases ho with rfl | rfl <;> trivial
  · rw [List.mem_singleton.mp ho]
    exact ⟨_, rfl, nofun, fun _ ↦ rfl⟩
  · rw [List.mem_singleton.mp ho]
    exact ⟨_, rfl, fun _ ↦ rfl, nofun⟩

/-- One datagram ends the server: the block that the session of its client waits for does not
decode. -/
theorem stops_for_loneCr : ∃ (x : Session .release) (stop : Stop), x.request = netasciiUpload ∧
    (exec (iterate .wraps .release) (start 1) loneCr).next = .error (.stopped stop) ∧
    x.Fatal (.readable (.datagram firstCr)) stop := by
  obtain ⟨⟨stop, hexec⟩, ha⟩ := exec_loneCr
  have hreason := stops_for_a_reason ha (congrArg Outcome.next hexec)
  rw [hexec] at hreason ⊢
  cases hreason with
  | epoll failed => simp [loneCr] at failed
  | creation waited reported threw =>
    simp only [loneCr, List.mem_cons, EpollWait.events.injEq, List.not_mem_nil, or_false] at waited
    rcases waited with rfl | rfl | rfl
    · simp only [askFor, List.mem_cons, reduceCtorEq, Occurrence.requests.injEq, false_or,
        List.not_mem_nil, or_false] at reported
      rw [reported] at threw
      cases threw
    · simp at reported
    · simp at reported
  | listening arrived => simp [arrivals] at arrived
  | session x logged accepted fatal =>
    have hrequest : x.request = netasciiUpload := List.mem_singleton.mp accepted
    simp only [Outcome.log_stop, List.mem_cons, reduceCtorEq, ServerAction.called.injEq,
      List.not_mem_nil, false_or, or_false] at logged
    rcases logged with ⟨-, rfl, -⟩ | ⟨-, rfl, -⟩
    · cases fatal with
      | unopened read allowed closed =>
        rw [hrequest] at read
        cases read
    · exact ⟨x, _, hrequest, rfl, fatal⟩

end TftpServer
end CppTftp
