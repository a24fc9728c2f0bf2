import CppTftp.Server.Sessions
import CppTftp.System.Download

/-!
# A download from the whole server

The event loop with all of its connections, and one client that downloads a file. What reaches
the sockets of the server, from this client and from all others, is arbitrary, and so is what
the other clients ask for; every connection sends to the client whose request it was made for.
-/

namespace CppTftp.Deployment

open Tftp Lib TftpClient TftpServerConnection TftpServer ServerAction

/-- The server, the requests that its connections were made for in the order of the connections,
all that these sent and to whom, and one of the clients. -/
structure System where
  server : TftpServer
  owners : List RequestT := []
  sent : List (SockaddrIn × Bytes) := []
  client : GetFile := .first

/-- What the connections called send, each to the client of its request. -/
def sentBy (b : Build) (owners : List RequestT) (l : List ServerAction) :
    List (SockaddrIn × Bytes) :=
  l.flatMap fun
    | .called i e c =>
      match owners[i]? with
      | some r =>
        (Download.sends (TftpServerConnection.step b c e).log).map fun d ↦ (r.client, d)
      | none => []
    | _ => []

/-- The requests of the connections that the clean-up keeps: its loop, over the connections
together with their requests. -/
def keptOwners (n : EndIncrement) (sys : System) : List RequestT :=
  let clients := sys.owners.zip sys.server.clientConnections
  match (eraseLoop n (fun p ↦ isFinished p.2) clients).next with
  | .ok kept => kept.map Prod.fst
  | .error _ => []

/-- One occurrence in the event loop, the clean-up after a batch of them, or the client. The
connections that are made for the client's requests find the file; the client receives anything
that was sent to it at some time. -/
inductive System.Step (n : EndIncrement) (b : Build) (mode : Mode) (me : SockaddrIn)
    (file : Bytes) : System → System → Prop
  | occurrence {sys : System} {o : Occurrence} {l : List ServerAction} {s' : TftpServer} :
      sys.server.handle b o = .ok l s' →
      (∀ worlds k r w, o = .requests worlds → worlds k = .ok w → (creations l)[k]? = some r →
        r.client = me → r.request.mode = mode ∧ Download.Accepted w r.request file) →
      System.Step n b mode me file sys { sys with
        server := s', owners := sys.owners ++ creations l
        sent := sys.sent ++ sentBy b sys.owners l }
  | cleanUp {sys : System} {l : List ServerAction} {s' : TftpServer} :
      sys.server.cleanUp n = .ok l s' →
      System.Step n b mode me file sys { sys with server := s', owners := keptOwners n sys }
  | client {sys : System} {r : Reception} {l : List Bytes} {s' : GetFile} :
      (∀ d, r = .datagram d → (me, d) ∈ sys.sent) →
      getFile mode true sys.client r = .ok l s' →
      System.Step n b mode me file sys { sys with client := s' }

variable {n : EndIncrement} {b : Build} {mode : Mode} {me : SockaddrIn} {file : Bytes}
  {sys sys' : System}

/-- The datagram of one of the blocks of a stream. -/
def IsBlock (stream d : Bytes) : Prop :=
  ∃ n, 1 ≤ n ∧ n ≤ blockCount dataPktDataMaxSize stream ∧ d = dataFrame dataPktDataMaxSize stream n

/-- The connections made for the client's requests send blocks of the file only. -/
structure System.Inv (mode : Mode) (me : SockaddrIn) (file : Bytes) (sys : System) : Prop where
  aligned : sys.owners.length = sys.server.conns.length
  mine : ∀ (i : Nat) (r : RequestT) (c : TftpServerConnection), sys.owners[i]? = some r →
    sys.server.conns[i]? = some c → r.client = me →
    ∃ log, DownloadInv dataPktDataMaxSize (transferStream mode file) log c
  sent : ∀ d, (me, d) ∈ sys.sent → (deserialiseDataPacket d).isSome →
    IsBlock (transferStream mode file) d
  client : Download.ClientInv mode (transferStream mode file) sys.client

/-- What a download's connection sends is a block. -/
private theorem isBlock_of_sends {stream d : Bytes} {log : List Action} {c : TftpServerConnection}
    {e : Event} (h : DownloadInv dataPktDataMaxSize stream log c)
    (hd : d ∈ Download.sends (TftpServerConnection.step b c e).log)
    (hdata : (deserialiseDataPacket d).isSome) : IsBlock stream d := by
  have hsend : .send d ∈ (TftpServerConnection.step b c e).log := by
    obtain ⟨a, ha, he⟩ := List.mem_filterMap.mp hd
    cases a with
    | send d' =>
      obtain rfl := Option.some.inj he
      exact ha
    | recv d' => cases he
    | readInTo => cases he
    | write d' => cases he
  obtain ⟨heq, -, -⟩ := h.data_sent (by decide) hsend hdata
  have hturn := Window.turn_bounds (blockCount_pos dataPktDataMaxSize stream) (senderWindow log)
  exact ⟨_, hturn.1, hturn.2, heq⟩

/-- A connection made for a request of the client is a download of the file. -/
private theorem downloadInv_mine {w : World} {request : RwPacket} (hmode : request.mode = mode)
    (h : Download.Accepted w request file) :
    DownloadInv dataPktDataMaxSize (transferStream mode file) [] (create w request) := by
  have hturn := inTurn_create h.read h.allowed h.opened rfl h.noOptions
  have h0 := downloadInv_create h.read h.allowed h.opened
  rw [hturn.blockSize, hmode] at h0
  exact h0

/-- New connections keep the invariant. -/
private theorem System.Inv.opens (h : System.Inv mode me file sys) {l : List ServerAction}
    {s' : TftpServer} {taken : List (RequestT × World)} (hl : creations l = taken.map Prod.fst)
    (hnone : ∀ i e c, .called i e c ∉ l)
    (hconns : s'.conns = sys.server.conns ++ taken.map fun p ↦ create p.2 p.1.request)
    (hmine : ∀ p ∈ taken, p.1.client = me →
      p.1.request.mode = mode ∧ Download.Accepted p.2 p.1.request file) :
    System.Inv mode me file { sys with
      server := s', owners := sys.owners ++ creations l
      sent := sys.sent ++ sentBy b sys.owners l } := by
  have hsent : sentBy b sys.owners l = [] := by
    apply List.flatMap_eq_nil_iff.mpr
    intro a ha
    cases a with
    | called i e c => exact absurd ha (hnone i e c)
    | arrived a => rfl
    | created r => rfl
    | deregistered r => rfl
    | pastTheEnd => rfl
  refine ⟨?_, ?_, ?_, h.client⟩
  · show (sys.owners ++ creations l).length = s'.conns.length
    rw [hconns, hl]
    simp [h.aligned]
  · intro i r c hr hc hme
    have hr : (sys.owners ++ creations l)[i]? = some r := hr
    have hc : s'.conns[i]? = some c := hc
    rw [hconns] at hc
    rw [hl] at hr
    by_cases hi : i < sys.owners.length
    · rw [List.getElem?_append_left hi] at hr
      rw [List.getElem?_append_left (h.aligned ▸ hi)] at hc
      exact h.mine i r c hr hc hme
    · rw [List.getElem?_append_right (by omega), List.getElem?_map] at hr
      rw [List.getElem?_append_right (by have := h.aligned; omega), ← h.aligned,
        List.getElem?_map] at hc
      obtain ⟨p, hp, rfl⟩ := Option.map_eq_some_iff.mp hr
      rw [hp] at hc
      obtain rfl := Option.some.inj hc
      obtain ⟨hmode, hset⟩ := hmine p (List.mem_of_getElem? hp) hme
      exact ⟨[], downloadInv_mine hmode hset⟩
  · intro d hd
    have hd : (me, d) ∈ sys.sent ++ sentBy b sys.owners l := hd
    rw [hsent, List.append_nil] at hd
    exact h.sent d hd

/-- An event of one connection keeps the invariant. -/
private theorem System.Inv.oneStep (h : System.Inv mode me file sys) {l : List ServerAction}
    {s' : TftpServer} (hl : creations l = []) (hs : OneStep b sys.server l s') :
    System.Inv mode me file { sys with
      server := s', owners := sys.owners ++ creations l
      sent := sys.sent ++ sentBy b sys.owners l } := by
  rw [hl, List.append_nil]
  cases hs with
  | idle hlog hconns =>
    rw [hlog]
    have hsent : sys.sent ++ sentBy b sys.owners [] = sys.sent := List.append_nil _
    rw [hsent]
    exact ⟨hconns ▸ h.aligned, hconns ▸ h.mine, h.sent, h.client⟩
  | @step i e actions c c' found hstep hlog hconns =>
    have hi : i < sys.server.conns.length := (List.getElem?_eq_some_iff.mp found).1
    refine ⟨?_, ?_, ?_, h.client⟩
    · show sys.owners.length = s'.conns.length
      rw [hconns, List.length_set]
      exact h.aligned
    · intro j r c₁ hr hc hme
      have hc : s'.conns[j]? = some c₁ := hc
      rw [hconns] at hc
      by_cases hj : i = j
      · subst hj
        rw [List.getElem?_set_self hi] at hc
        obtain rfl := Option.some.inj hc
        obtain ⟨log, hd⟩ := h.mine i r c hr found hme
        exact ⟨log ++ actions, hd.step (by decide) hstep⟩
      · rw [List.getElem?_set_ne hj] at hc
        exact h.mine j r c₁ hr hc hme
    · intro d hd hdata
      have hd : (me, d) ∈ sys.sent ++ sentBy b sys.owners l := hd
      rcases List.mem_append.mp hd with hd | hd
      · exact h.sent d hd hdata
      · rcases hlog with rfl | ⟨-, rfl⟩
        · obtain ⟨r, hr⟩ : ∃ r, sys.owners[i]? = some r :=
            ⟨_, List.getElem?_eq_getElem (h.aligned ▸ hi)⟩
          simp only [sentBy, List.flatMap_cons, List.flatMap_nil, List.append_nil, hr] at hd
          obtain ⟨d', hd', he⟩ := List.mem_map.mp hd
          obtain ⟨hme, rfl⟩ := Prod.mk.inj he
          obtain ⟨log, hinv⟩ := h.mine i r c hr found hme
          exact isBlock_of_sends hinv hd' hdata
        · cases hd

/-- The clean-up keeps every connection with its request. -/
theorem zip_keptOwners {l : List ServerAction} {s' : TftpServer}
    (hlen : sys.owners.length = sys.server.conns.length) (hs : sys.server.cleanUp n = .ok l s') :
    (keptOwners n sys).length = s'.conns.length ∧
      ((keptOwners n sys).zip s'.clientConnections).Sublist
        (sys.owners.zip sys.server.clientConnections) := by
  obtain ⟨log, kept, he, -, rfl⟩ := cleanUp_eq_ok_iff.mp hs
  have hle : sys.server.clientConnections.length ≤ sys.owners.length := by
    rw [hlen, conns, List.length_map]
  have hzip := List.map_snd_zip hle
  rw [← hzip] at he
  obtain ⟨log', pairs, hp, rfl⟩ := eraseLoop_map he
  have hkept : keptOwners n sys = pairs.map Prod.fst := by
    have hp : eraseLoop n (fun p : RequestT × Registered ↦ isFinished p.2)
        (sys.owners.zip sys.server.clientConnections) = .ok log' pairs := hp
    rw [keptOwners, hp]
    rfl
  rw [hkept]
  constructor
  · simp [conns]
  · have hpairs : pairs = (pairs.map Prod.fst).zip (pairs.map Prod.snd) :=
      List.zip_of_prod rfl rfl
    show ((pairs.map Prod.fst).zip (pairs.map Prod.snd)).Sublist _
    rw [← hpairs]
    exact sublist_of_eraseLoop hp

/-- The clean-up keeps the invariant. -/
private theorem System.Inv.cleanUp (h : System.Inv mode me file sys) {l : List ServerAction}
    {s' : TftpServer} (hs : sys.server.cleanUp n = .ok l s') :
    System.Inv mode me file { sys with server := s', owners := keptOwners n sys } := by
  obtain ⟨hlen, hsub⟩ := zip_keptOwners h.aligned hs
  refine ⟨hlen, ?_, h.sent, h.client⟩
  intro i r c hr hc hme
  have hc : (s'.clientConnections.map Registered.conn)[i]? = some c := hc
  rw [List.getElem?_map] at hc
  obtain ⟨registered, hi, rfl⟩ := Option.map_eq_some_iff.mp hc
  have hmem : (r, registered) ∈ (keptOwners n sys).zip s'.clientConnections :=
    List.mem_of_getElem? (List.getElem?_zip_eq_some.mpr ⟨hr, hi⟩)
  obtain ⟨j, hj⟩ := List.mem_iff_getElem?.mp (hsub.subset hmem)
  obtain ⟨hrj, hij⟩ := List.getElem?_zip_eq_some.mp hj
  apply h.mine j r registered.conn hrj _ hme
  rw [conns, List.getElem?_map, hij]
  rfl

/-- Every step keeps the invariant. -/
theorem System.Inv.step (h : System.Inv mode me file sys)
    (hcount : blockCount dataPktDataMaxSize (transferStream mode file) < 65535)
    (hs : System.Step n b mode me file sys sys') : System.Inv mode me file sys' := by
  cases hs with
  | @occurrence o l s' hs hmine =>
    rcases conns_handle hs with ⟨taken, hl, hnone, hconns, hworlds⟩ | ⟨hl, hone⟩
    · apply h.opens hl hnone hconns
      intro p hp hme
      obtain ⟨k, hk⟩ := List.mem_iff_getElem?.mp hp
      obtain ⟨worlds, ho, hw⟩ := hworlds k p hk
      apply hmine worlds k p.1 p.2 ho hw _ hme
      rw [hl, List.getElem?_map, hk]
      rfl
    · exact h.oneStep hl hone
  | cleanUp hs => exact h.cleanUp hs
  | @client r l s' hr hs =>
    refine ⟨h.aligned, h.mine, h.sent, ?_⟩
    by_cases hd : ∃ d, r = .datagram d
    · obtain ⟨d, rfl⟩ := hd
      exact h.client.receive hcount (h.sent d (hr d rfl)) hs
    · exact h.client.no_datagram (fun d he ↦ hd ⟨d, he⟩) hs

/-- Before anything has happened. -/
theorem inv_start (mode : Mode) (me : SockaddrIn) (file : Bytes) (max : Nat) :
    System.Inv mode me file { server := start max } := by
  refine ⟨rfl, ?_, ?_, .inl ⟨0, blockCount_pos _ _, [], rfl, .inl ⟨rfl, rfl⟩⟩⟩
  · intro i r c hr
    exact absurd hr (by simp)
  · intro d hd
    cases hd

/-- A client that reports success has the whole file, in either mode, whatever reaches the server,
however many other clients it serves, and whatever becomes of what is sent, if the stream has
fewer than 65535 blocks. -/
theorem whole_server_download {max : Nat}
    (hcount : blockCount dataPktDataMaxSize (transferStream mode file) < 65535)
    (hr : Relation.ReflTransGen (System.Step n b mode me file) { server := start max } sys)
    {outFile : Option Bytes} (hc : sys.client = .returned true outFile) :
    outFile = some file := by
  have hinv := invariant_reachable hr (inv_start mode me file max) fun _ _ hi hs ↦ hi.step hcount hs
  have hclient := hinv.client
  rw [hc] at hclient
  exact hclient.eq_file

/-- A file of three bytes, as the constructor finds it. -/
def threeBytes : World := { readable := some { bytes := [1, 2, 3] } }

/-- One client, and a server with one slot. -/
theorem whole_server_download_three : ∃ sys outFile,
    Relation.ReflTransGen (System.Step .wraps .release .octet someRequest.client [1, 2, 3])
      { server := start 1 } sys ∧
    sys.client = .returned true outFile ∧ outFile = some [1, 2, 3] := by
  have hset : Download.Accepted threeBytes someRequest.request [1, 2, 3] :=
    ⟨rfl, rfl, rfl, rfl⟩
  have hturn := inTurn_create hset.read hset.allowed hset.opened rfl hset.noOptions
  obtain ⟨c₁, ho, -⟩ := hturn.sent (by decide)
  have ho : TftpServerConnection.step .release (create threeBytes someRequest.request)
      (.writable .sent) = .ok [.readInTo, .send (dataFrame 512 [1, 2, 3] 1)] c₁ := ho
  have hsent : sentBy .release [someRequest]
      [.called 0 (.writable .sent) (create threeBytes someRequest.request)] =
        [(someRequest.client, dataFrame dataPktDataMaxSize [1, 2, 3] 1)] := by
    show List.map _ (Download.sends (TftpServerConnection.step .release _ _).log) ++ [] = _
    rw [ho]
    rfl
  have harrive := @System.Step.occurrence .wraps .release .octet someRequest.client [1, 2, 3]
    { server := start 1 } (.arrival (.datagram someDatagram someRequest.client)) _ _ rfl
    fun _ _ _ _ hw ↦ Occurrence.noConfusion hw
  have hask := @System.Step.occurrence .wraps .release .octet someRequest.client [1, 2, 3]
    { server := ⟨1, ⟨[.datagram someDatagram someRequest.client], []⟩, []⟩ } _ _ _
    (handle_requests parse_someDatagram threeBytes) ?_
  · have hselect : selectHandler { epollout := true } .wouldBlock .sent =
        some (.writable .sent) := rfl
    have hwrite := @System.Step.occurrence .wraps .release .octet someRequest.client [1, 2, 3]
      { server := serving (create threeBytes someRequest.request), owners := [someRequest] } _ _ _
      (handle_serving hselect ho) fun _ _ _ _ hw ↦ Occurrence.noConfusion hw
    have hr := ((Relation.ReflTransGen.single harrive).tail hask).tail hwrite
    have hr := hr.tail (.client (r := .datagram (dataFrame 512 [1, 2, 3] 1)) (fun d hd ↦ ?_) rfl)
    · exact ⟨_, _, hr, rfl, whole_server_download (by decide) hr rfl⟩
    · cases hd
      show (someRequest.client, _) ∈ [] ++ sentBy .release [someRequest] _
      rw [hsent]
      exact List.mem_singleton_self _
  · intro worlds k r w hw hk hr _
    obtain rfl := Occurrence.requests.inj hw
    obtain rfl := Except.ok.inj hk
    have hr : [someRequest][k]? = some r := hr
    obtain rfl := List.mem_singleton.mp (List.mem_of_getElem? hr)
    exact ⟨rfl, hset⟩

/-! ### The event loop takes such steps -/

/-- A batch is a sequence of steps, if its constructors find the file. -/
theorem reaches_batch {batch : List Occurrence} {l : List ServerAction} {s' : TftpServer}
    (hr : Runs (TftpServer.handle b) sys.server batch l s')
    (hmine : ∀ worlds k r w, .requests worlds ∈ batch → worlds k = .ok w → r ∈ creations l →
      r.client = me → r.request.mode = mode ∧ Download.Accepted w r.request file) :
    ∃ sent, Relation.ReflTransGen (System.Step n b mode me file) sys
      { sys with server := s', owners := sys.owners ++ creations l, sent } := by
  induction batch generalizing sys l with
  | nil =>
    obtain ⟨rfl, rfl⟩ := Outcome.ok_inj.mp hr
    have hnone : sys.owners ++ creations [] = sys.owners := List.append_nil _
    rw [hnone]
    exact ⟨sys.sent, .refl⟩
  | cons o batch ih =>
    obtain ⟨l₁, s₁, l₂, hs, hrest, rfl⟩ := runs_cons_iff.mp hr
    have hfirst : System.Step n b mode me file sys _ := .occurrence hs fun worlds k r w ho hw hk ↦
      hmine worlds k r w (ho ▸ List.mem_cons_self) hw
        (by rw [creations_append]; exact List.mem_append_left _ (List.mem_of_getElem? hk))
    have hrest : Runs (TftpServer.handle b) (System.server { sys with
        server := s₁, owners := sys.owners ++ creations l₁
        sent := sys.sent ++ sentBy b sys.owners l₁ }) batch l₂ s' := hrest
    obtain ⟨sent, hreach⟩ := ih hrest fun worlds k r w ho hw hk ↦
      hmine worlds k r w (List.mem_cons_of_mem o ho) hw
        (by rw [creations_append]; exact List.mem_append_right _ hk)
    refine ⟨sent, ?_⟩
    rw [creations_append, ← List.append_assoc]
    exact Relation.ReflTransGen.head hfirst hreach

/-- So is a whole iteration of the event loop. -/
theorem reaches_iterate {wait : EpollWait} {l : List ServerAction} {s' : TftpServer}
    (hs : sys.server.iterate n b wait = .ok l s')
    (hmine : ∀ batch worlds k r w, wait = .events batch → .requests worlds ∈ batch →
      worlds k = .ok w → r ∈ creations l → r.client = me →
      r.request.mode = mode ∧ Download.Accepted w r.request file) :
    ∃ owners sent, Relation.ReflTransGen (System.Step n b mode me file) sys
      { sys with server := s', owners, sent } := by
  rcases iterate_cases hs with ⟨-, -, rfl⟩ | ⟨batch, l₁, s₁, l₂, rfl, hb, hc, rfl⟩
  · exact ⟨sys.owners, sys.sent, .refl⟩
  · obtain ⟨sent, hreach⟩ := reaches_batch (n := n) hb fun worlds k r w ho hw hk ↦
      hmine batch worlds k r w rfl ho hw
        (by rw [creations_append]; exact List.mem_append_left _ hk)
    exact ⟨_, sent, hreach.tail (.cleanUp hc)⟩

end CppTftp.Deployment
