import CppTftp.Server.Retransmission
import CppTftp.System.Download

/-!
# A client that gets a block again

`tftp_client::get_file` and a READ connection without options, over a network that delivers
every datagram once and in order, while the server's timer may fire. The client takes each block
once: a block sent again is an error for it, unless it was the last one.
-/

namespace CppTftp.Resending

open Tftp Lib TftpClient TftpServerConnection Download

/-! ### The two ends -/

/-- Both ends and the datagrams on their way, oldest first; how often the timer fired. -/
structure System where
  server : TftpServerConnection
  serverLog : List Action := []
  client : GetFile := .first
  toClient : List Bytes := []
  toServer : List Bytes := []
  fired : Nat := 0

/-- A call of the server: what it received left its queue, and what it sent is on its way. -/
def System.served (sys : System) (l : List Action) (c' : TftpServerConnection) : System :=
  { sys with
    server := c', serverLog := sys.serverLog ++ l
    toClient := sys.toClient ++ sends l
    toServer := sys.toServer.drop (receivedCount l) }

/-- One end moves. No send fails for good, and the client waits until a datagram arrives. -/
inductive System.Step (b : Build) : System → System → Prop
  | server {sys : System} {e : Event} {l : List Action} {c' : TftpServerConnection} :
      e ≠ .tick → e ≠ .writable .failed →
      (∀ d, e = .readable (.datagram d) → sys.toServer.head? = some d) →
      step b sys.server e = .ok l c' → System.Step b sys (sys.served l c')
  | fires {sys : System} {l : List Action} {c' : TftpServerConnection} :
      sys.server.state = .waitForAck → sys.server.timer = .armed →
      step b sys.server .tick = .ok l c' →
      System.Step b sys { sys with
        server := c', serverLog := sys.serverLog ++ l, fired := sys.fired + 1 }
  | client {sys : System} {d : Bytes} {rest l : List Bytes} {s' : GetFile} :
      (∀ result outFile, sys.client ≠ .returned result outFile) →
      sys.toClient = d :: rest → getFile .octet true sys.client (.datagram d) = .ok l s' →
      System.Step b sys
        { sys with client := s', toClient := rest, toServer := sys.toServer ++ l }

variable {file : Bytes} {sys sys' : System} {b : Build} {m : Nat}

/-- The server is at block `m`, and sent no block before it twice. -/
structure Steady (file : Bytes) (m : Nat) (sys : System) : Prop where
  sound : DownloadInv dataPktDataMaxSize file sys.serverLog sys.server
  device : sys.server.fileReader.Sound
  awake : sys.server.state ≠ .error
  current : outstanding sys.serverLog sys.server = m
  pos : 1 ≤ m
  le : m ≤ blockCount dataPktDataMaxSize file
  once : ∀ n, 1 ≤ n → n < m → transmissions n sys.serverLog ≤ 1

/-- What a call of the server at block `m` can do. -/
inductive Served (file : Bytes) (m : Nat) (sys : System) (l : List Action)
    (c' : TftpServerConnection) : Prop
  /-- It receives nothing and sends the block at most once. -/
  | keeps {j : Nat} : Steady file m (sys.served l c') →
      (sys.served l c').toServer = sys.toServer →
      sends l = List.replicate j (dataFrame dataPktDataMaxSize file m) →
      transmissions m (sys.serverLog ++ l) = transmissions m sys.serverLog + j →
      Served file m sys l c'
  /-- It goes on with the next block. -/
  | advances : sys.toServer = [ackOf m] → m < blockCount dataPktDataMaxSize file →
      (transmissions m sys.serverLog ≤ 1 → Steady file (m + 1) (sys.served l c')) →
      (sys.served l c').toServer = [] → sends l = [] →
      transmissions (m + 1) (sys.serverLog ++ l) = 0 → Served file m sys l c'
  /-- The last block was acknowledged. -/
  | ends : sys.toServer = [ackOf m] → m = blockCount dataPktDataMaxSize file →
      Steady file m (sys.served l c') → (sys.served l c').toServer = [] → sends l = [] →
      Served file m sys l c'

section Server

variable {l : List Action} {c' : TftpServerConnection}

/-- A call that reads the file at most leaves the server where it was. -/
theorem Steady.quiet (h : Steady file m sys)
    (sound : DownloadInv dataPktDataMaxSize file (sys.serverLog ++ l) c')
    (hdevice : c'.fileReader.Sound) (hl : ∀ a ∈ l, a = .readInTo) (hawake : c'.state ≠ .error)
    (hm : outstanding (sys.serverLog ++ l) c' = outstanding sys.serverLog sys.server) :
    Served file m sys l c' := by
  have hsame : ∀ n, transmissions n (sys.serverLog ++ l) = transmissions n sys.serverLog := by
    intro n
    rw [transmissions_append, transmissionsFrom_reads hl, Nat.add_zero]
  apply Served.keeps (j := 0)
  · refine ⟨sound, hdevice, hawake, hm.trans h.current, h.pos, h.le, fun n hpos hlt ↦ ?_⟩
    rw [System.served, hsame]
    exact h.once n hpos hlt
  · rw [System.served, receivedCount_reads hl]
    rfl
  · exact sends_reads hl
  · exact hsame m

/-- The block that the server is at goes out. -/
theorem Steady.sends (h : Steady file m sys)
    (sound : DownloadInv dataPktDataMaxSize file
      (sys.serverLog ++ (l ++ [.send (dataFrame dataPktDataMaxSize file m)])) c')
    (hdevice : c'.fileReader.Sound) (hl : ∀ a ∈ l, a = .readInTo) (hawake : c'.state ≠ .error)
    (hm : outstanding (sys.serverLog ++ (l ++ [.send (dataFrame dataPktDataMaxSize file m)])) c' =
      m)
    (hreads : readCount (sys.serverLog ++ l) = m) :
    Served file m sys (l ++ [.send (dataFrame dataPktDataMaxSize file m)]) c' := by
  have hcount : ∀ n, transmissions n
      (sys.serverLog ++ (l ++ [.send (dataFrame dataPktDataMaxSize file m)])) =
      transmissions n sys.serverLog + if m = n then 1 else 0 := by
    intro n
    rw [← List.append_assoc, transmissions_append, transmissions_append,
      transmissionsFrom_reads hl, Nat.add_zero, hreads, transmissionsFrom_send]
  apply Served.keeps (j := 1)
  · refine ⟨sound, hdevice, hawake, hm, h.pos, h.le, fun n hpos hlt ↦ ?_⟩
    rw [System.served, hcount, if_neg (by omega)]
    exact h.once n hpos hlt
  · rw [System.served, receivedCount_append, receivedCount_reads hl]
    rfl
  · rw [sends_append, sends_reads hl]
    rfl
  · rw [hcount, if_pos rfl]

/-- The ACK of the block puts the next one in turn, or ends the transfer. -/
theorem Steady.receives (h : Steady file m sys)
    (sound : DownloadInv dataPktDataMaxSize file (sys.serverLog ++ [.recv (ackOf m)]) c')
    (hdevice : c'.fileReader.Sound) (hq : sys.toServer = [ackOf m])
    (hmove : AckMove m (blockCount dataPktDataMaxSize file) sys.serverLog sys.server (ackOf m) c') :
    Served file m sys [.recv (ackOf m)] c' := by
  have hsame : ∀ n, transmissions n (sys.serverLog ++ [.recv (ackOf m)]) =
      transmissions n sys.serverLog := by
    intro n
    rw [transmissions_append, transmissionsFrom_recv, Nat.add_zero]
  have hempty : (sys.served [.recv (ackOf m)] c').toServer = [] := by
    rw [System.served, hq]
    rfl
  cases hmove.numbered with
  | previous hp hs ht hm => exact absurd hp (Nat.succ_ne_self _)
  | aborts hnum hp hs => exact absurd rfl hnum
  | advances hnum hlt hs ht hm =>
    apply Served.advances hq hlt
    · intro hle
      refine ⟨sound, hdevice, ?_, hm, Nat.succ_pos m, hlt, fun n hpos hn ↦ ?_⟩
      · rw [System.served, hs]
        exact ConnState.noConfusion
      · rw [System.served, hsame]
        by_cases hnm : n = m
        · rw [hnm]
          exact hle
        · exact h.once n hpos (by omega)
    · exact hempty
    · rfl
    · -- nothing was read for the next block yet
      rw [hsame]
      apply transmissionsFrom_eq_zero
      have hreads := h.sound.readCount_le h.awake
      rw [h.current] at hreads
      omega
  | finishes hnum hlast hs hf ht hm =>
    apply Served.ends hq hlast
    · refine ⟨sound, hdevice, ?_, hm, h.pos, h.le, fun n hpos hn ↦ ?_⟩
      · rw [System.served, hs]
        exact ConnState.noConfusion
      · rw [System.served, hsame]
        exact h.once n hpos hn
    · exact hempty
    · rfl

/-- Every call of the server is one of these. -/
theorem Steady.served {e : Event} (h : Steady file m sys) (hne : e ≠ .tick)
    (hfail : e ≠ .writable .failed)
    (hq : ∀ d, e = .readable (.datagram d) → sys.toServer.head? = some d)
    (hqueue : sys.toServer = [] ∨ sys.toServer = [ackOf m])
    (hs : step b sys.server e = .ok l c') : Served file m sys l c' := by
  have hsize : 0 < dataPktDataMaxSize := by decide
  have sound := h.sound.step hsize hs
  obtain ⟨hmove, hdevice⟩ := h.sound.move hsize h.awake hs
  have hdevice := hdevice h.device
  cases hmove with
  | quiet hl hm hst ht => exact h.quiet sound hdevice hl (hst ▸ h.awake) hm
  | ticks => exact absurd rfl hne
  | fails hl herr hwhy =>
    rcases hwhy with rfl | hwhy
    · exact absurd rfl hfail
    · exact absurd h.device hwhy
  | sends hl hw hm hreads hst ht =>
    have hpacket : packetOf sys.server.oackPacket dataPktDataMaxSize file
        (outstanding sys.serverLog sys.server) = dataFrame dataPktDataMaxSize file m := by
      rw [h.current, packetOf, if_neg (Nat.pos_iff_ne_zero.mp h.pos)]
    rw [hpacket] at sound ⊢
    rw [h.current] at hm hreads
    refine h.sends sound hdevice hl ?_ (hm _) (hreads h.pos)
    rw [hst]
    exact ConnState.noConfusion
  | timesOut hst hexp hm hs' ht =>
    have hawake : c'.state ≠ .error := by
      rw [hs']
      exact ConnState.noConfusion
    refine h.quiet sound hdevice (fun a ha ↦ absurd ha List.not_mem_nil) hawake ?_
    rw [List.append_nil]
    exact hm
  | @receives d hst ht =>
    have hd := hq d rfl
    rcases hqueue with hqueue | hqueue
    · rw [hqueue] at hd
      cases hd
    · rw [hqueue, List.head?_cons, Option.some.injEq] at hd
      subst hd
      have hack := h.sound.ackMove hst (ackOf m)
      rw [h.current] at hack
      exact h.receives sound hdevice hqueue hack

/-- The timer fires: nothing else changes. -/
theorem Steady.fires (h : Steady file m sys) (hs : step b sys.server .tick = .ok l c') :
    Steady file m
      { sys with server := c', serverLog := sys.serverLog ++ l, fired := sys.fired + 1 } ∧
      l = [] := by
  have sound := h.sound.step (by decide) hs
  obtain ⟨rfl, rfl⟩ := Outcome.ok_inj.mp hs
  rw [List.append_nil] at sound ⊢
  exact ⟨⟨sound, h.device, h.awake, h.current, h.pos, h.le, h.once⟩, rfl⟩

end Server

/-! ### Both ends -/

/-- What both ends and the datagrams between them amount to. -/
inductive System.Inv (file : Bytes) (sys : System) : Prop
  /-- The client awaits the block that the server is at, and gets it as often as it was sent. -/
  | delivering {k : Nat} : Steady file (k + 1) sys → Awaits .octet file k sys.client →
      sys.toServer = [] → sys.toClient = List.replicate (transmissions (k + 1) sys.serverLog)
        (dataFrame dataPktDataMaxSize file (k + 1)) → System.Inv file sys
  /-- The ACK of a block that was sent once is on its way. -/
  | acknowledging {k : Nat} : Steady file (k + 1) sys → Awaits .octet file (k + 1) sys.client →
      k + 1 < blockCount dataPktDataMaxSize file → sys.toServer = [ackOf (k + 1)] →
      sys.toClient = [] → transmissions (k + 1) sys.serverLog = 1 → System.Inv file sys
  /-- A block that the client took already will be received next. -/
  | doomed {k : Nat} : 1 ≤ k → k < blockCount dataPktDataMaxSize file →
      Awaits .octet file k sys.client →
      sys.toClient.head? = some (dataFrame dataPktDataMaxSize file k) →
      1 < transmissions k sys.serverLog → System.Inv file sys
  /-- The client gave up. -/
  | refused {k : Nat} {outFile : Option Bytes} : sys.client = .returned false outFile → 1 ≤ k →
      k < blockCount dataPktDataMaxSize file → 1 < transmissions k sys.serverLog →
      System.Inv file sys
  /-- The client has the whole file. -/
  | done {outFile : Option Bytes} : sys.client = .returned true outFile →
      Steady file (blockCount dataPktDataMaxSize file) sys →
      sys.toServer = [] ∨ sys.toServer = [ackOf (blockCount dataPktDataMaxSize file)] →
      System.Inv file sys

theorem transmissions_mono (n : Nat) (log l : List Action) :
    transmissions n log ≤ transmissions n (log ++ l) := by
  rw [transmissions_append]
  exact Nat.le_add_right _ _

/-- A move of the server keeps the invariant. -/
theorem System.Inv.server_step {e : Event} {l : List Action} {c' : TftpServerConnection}
    (h : System.Inv file sys) (hne : e ≠ .tick) (hfail : e ≠ .writable .failed)
    (hq : ∀ d, e = .readable (.datagram d) → sys.toServer.head? = some d)
    (hs : step b sys.server e = .ok l c') : System.Inv file (sys.served l c') := by
  cases h with
  | @delivering k hsteady hawait hserver hclient =>
    cases hsteady.served hne hfail hq (.inl hserver) hs with
    | @keeps j hsteady' hserver' hl hcount =>
      refine .delivering hsteady' hawait (hserver'.trans hserver) ?_
      rw [System.served, hclient, hl, hcount]
      exact List.replicate_append_replicate
    | advances hx =>
      rw [hserver] at hx
      cases hx
    | ends hx =>
      rw [hserver] at hx
      cases hx
  | @acknowledging k hsteady hawait hlt hserver hclient honce =>
    cases hsteady.served hne hfail hq (.inr hserver) hs with
    | @keeps j hsteady' hserver' hl hcount =>
      cases j with
      | zero =>
        refine .acknowledging hsteady' hawait hlt (hserver'.trans hserver) ?_ (hcount.trans honce)
        rw [System.served, hclient, hl]
        rfl
      | succ j =>
        -- the block goes out once more while its ACK is on its way
        refine .doomed (Nat.succ_pos k) hlt hawait ?_ ?_
        · rw [System.served, hclient, List.nil_append, hl]
          rfl
        · rw [System.served, hcount]
          omega
    | advances _ _ hnext hserver' hl hzero =>
      refine .delivering (hnext (Nat.le_of_eq honce)) hawait hserver' ?_
      rw [System.served, hclient, hl, hzero]
      rfl
    | ends _ hx => exact absurd hx (Nat.ne_of_lt hlt)
  | @doomed k hpos hlt hawait hclient hmany =>
    refine .doomed hpos hlt hawait ?_ ?_
    · rw [System.served, List.head?_append, hclient]
      rfl
    · exact Nat.lt_of_lt_of_le hmany (transmissions_mono k _ l)
  | @refused k _ hret hpos hlt hmany =>
    exact .refused hret hpos hlt (Nat.lt_of_lt_of_le hmany (transmissions_mono k _ l))
  | done hret hsteady hserver =>
    cases hsteady.served hne hfail hq hserver hs with
    | keeps hsteady' hserver' =>
      refine .done hret hsteady' ?_
      rw [hserver']
      exact hserver
    | advances _ hlt => exact absurd hlt (Nat.lt_irrefl _)
    | ends _ _ hsteady' hserver' => exact .done hret hsteady' (.inl hserver')

/-- So does an expiration of the timer. -/
theorem System.Inv.fires {l : List Action} {c' : TftpServerConnection} (h : System.Inv file sys)
    (hs : step b sys.server .tick = .ok l c') : System.Inv file
      { sys with server := c', serverLog := sys.serverLog ++ l, fired := sys.fired + 1 } := by
  obtain rfl : [] = l := (Outcome.ok_inj.mp hs).1
  have hlog : sys.serverLog ++ [] = sys.serverLog := List.append_nil _
  cases h with
  | delivering hsteady hawait hserver hclient =>
    refine .delivering (hsteady.fires hs).1 hawait hserver ?_
    rw [hlog]
    exact hclient
  | acknowledging hsteady hawait hlt hserver hclient honce =>
    refine .acknowledging (hsteady.fires hs).1 hawait hlt hserver hclient ?_
    rw [hlog]
    exact honce
  | doomed hpos hlt hawait hclient hmany =>
    refine .doomed hpos hlt hawait hclient ?_
    rw [hlog]
    exact hmany
  | refused hret hpos hlt hmany =>
    refine .refused hret hpos hlt ?_
    rw [hlog]
    exact hmany
  | done hret hsteady hserver => exact .done hret (hsteady.fires hs).1 hserver

/-- A client that gets a block it took already gives up. -/
theorem getFile_repeated {k : Nat} {s : GetFile} (h : Awaits .octet file k s) : ∃ outFile,
    getFile .octet true s (.datagram (dataFrame dataPktDataMaxSize file k)) =
      .ok [] (.returned false outFile) := by
  rcases getFile_rejects h (dataFrame dataPktDataMaxSize file k) with ⟨data, hdata⟩ | hr
  · rw [take_dataFrame, deserialise_dataFrame, Option.some.injEq] at hdata
    have hnumber := congrArg DataPacket.blockNumber hdata
    rw [ofNat_eq_ofNat_iff] at hnumber
    omega
  · exact hr

/-- A move of the client keeps the invariant. -/
theorem System.Inv.client_step {d : Bytes} {rest l : List Bytes} {s' : GetFile}
    (h : System.Inv file sys) (hret : ∀ result outFile, sys.client ≠ .returned result outFile)
    (hq : sys.toClient = d :: rest) (hs : getFile .octet true sys.client (.datagram d) = .ok l s') :
    System.Inv file
      { sys with client := s', toClient := rest, toServer := sys.toServer ++ l } := by
  cases h with
  | @delivering k hsteady hawait hserver hclient =>
    generalize hcount : transmissions (k + 1) sys.serverLog = count at hclient
    rw [hq] at hclient
    cases count with
    | zero => cases hclient
    | succ count =>
      obtain ⟨rfl, rfl⟩ := List.cons.inj hclient
      obtain ⟨out, hout, haccept⟩ := getFile_accepts hawait hsteady.le rfl
      rw [haccept] at hs
      obtain ⟨rfl, rfl⟩ := Outcome.ok_inj.mp hs
      have hserver' : sys.toServer ++ [ackOf (k + 1)] = [ackOf (k + 1)] := by
        rw [hserver]
        rfl
      have hsteady' : Steady file (k + 1) { sys with
          client := afterBlock file k out
          toClient := List.replicate count (dataFrame dataPktDataMaxSize file (k + 1))
          toServer := sys.toServer ++ [ackOf (k + 1)] } :=
        ⟨hsteady.sound, hsteady.device, hsteady.awake, hsteady.current, hsteady.pos, hsteady.le,
          hsteady.once⟩
      by_cases hlast : k + 1 = blockCount dataPktDataMaxSize file
      · have hdone : afterBlock file k out = .returned true (some out) := by
          rw [afterBlock, if_pos hlast]
        refine .done hdone ?_ (.inr ?_)
        · rw [← hlast]
          exact hsteady'
        · rw [← hlast]
          exact hserver'
      · have hlt := Nat.lt_of_le_of_ne hsteady.le hlast
        have hawait' := awaits_afterBlock hout hlast
        cases count with
        | zero => exact .acknowledging hsteady' hawait' hlt hserver' rfl hcount
        | succ count =>
          refine .doomed (Nat.succ_pos k) hlt hawait' rfl ?_
          rw [hcount]
          omega
  | acknowledging _ _ _ _ hclient =>
    rw [hq] at hclient
    cases hclient
  | doomed hpos hlt hawait hclient hmany =>
    rw [hq, List.head?_cons, Option.some.injEq] at hclient
    subst hclient
    obtain ⟨outFile, hr⟩ := getFile_repeated hawait
    rw [hr] at hs
    obtain ⟨rfl, rfl⟩ := Outcome.ok_inj.mp hs
    exact .refused rfl hpos hlt hmany
  | refused hx => exact absurd hx (hret _ _)
  | done hx => exact absurd hx (hret _ _)

/-- Any move keeps the invariant. -/
theorem System.Inv.step (h : System.Inv file sys) (hs : System.Step b sys sys') :
    System.Inv file sys' := by
  cases hs with
  | server hne hfail hq hs => exact h.server_step hne hfail hq hs
  | fires _ _ hs => exact h.fires hs
  | client hret hq hs => exact h.client_step hret hq hs

/-- Before the first move the invariant holds. -/
theorem System.inv_create {w : World} {request : RwPacket} (h : Setting w request file) :
    System.Inv file { server := create w request } := by
  have hturn := inTurn_create h.read h.allowed h.opened rfl h.noOptions
  have hsound := downloadInv_create h.read h.allowed h.opened
  rw [hturn.blockSize] at hsound
  rw [h.octet, transferStream_octet] at hturn hsound
  have hawake : (create w request).state ≠ .error := by
    rw [hturn.state]
    exact ConnState.noConfusion
  have hsteady : Steady file 1 { server := create w request } :=
    ⟨hsound, hturn.sound, hawake, hturn.fresh.outstanding_eq hturn.state, Nat.le_refl 1,
      blockCount_pos _ _, fun n hpos hlt ↦ absurd hlt (Nat.not_lt.mpr hpos)⟩
  exact .delivering hsteady ⟨[], rfl, .inl ⟨rfl, rfl⟩⟩ rfl rfl

/-- The server sends the block that is due. -/
private theorem exists_sent (b : Build) (sys : System) {k : Nat}
    (h : Due dataPktDataMaxSize file k sys.serverLog sys.server) : ∃ sys',
    Relation.ReflTransGen (System.Step b) sys sys' ∧
      Awaited dataPktDataMaxSize file k sys'.serverLog sys'.server ∧
      sys'.toClient = sys.toClient ++ [dataFrame dataPktDataMaxSize file (k + 1)] ∧
      sys'.client = sys.client ∧ sys'.fired = sys.fired ∧
      sys'.server.timeoutCount = sys.server.timeoutCount := by
  obtain ⟨l, c', hs, hl, hawait, hcount⟩ := h.send (b := b) (by decide)
  have hserver : System.Step b sys _ := .server (fun he ↦ Event.noConfusion he)
    (fun he ↦ by cases he) (fun d he ↦ by cases he) hs
  refine ⟨_, .single hserver, hawait, ?_, rfl, rfl, hcount⟩
  rw [System.served, sends_append, sends_reads hl]
  rfl

/-- The timer fires, and the next call of `handle_read` makes the block due again. -/
private theorem exists_expired (b : Build) {k : Nat}
    (h : Awaited dataPktDataMaxSize file k sys.serverLog sys.server)
    (hcount : sys.server.timeoutCount < maxTimeouts) : ∃ sys',
    Relation.ReflTransGen (System.Step b) sys sys' ∧
      Due dataPktDataMaxSize file k sys'.serverLog sys'.server ∧ sys'.toClient = sys.toClient ∧
      sys'.client = sys.client ∧ sys'.fired = sys.fired + 1 := by
  obtain ⟨c₁, c₂, htick, -, -, hread, hdue, -⟩ := h.expire (b := b) hcount .wouldBlock
  have hfires : System.Step b sys _ := .fires h.state h.timer htick
  refine ⟨_, (Relation.ReflTransGen.single hfires).tail (.server (fun he ↦ Event.noConfusion he)
    (fun he ↦ by cases he) (fun d he ↦ by cases he) hread), ?_, ?_, rfl, rfl⟩
  · rw [System.served, List.append_nil, List.append_nil]
    exact hdue
  · exact List.append_nil _

/-- In every download of more than one block, one expiration can make the client fail: block 1
goes out twice before the client reads. -/
theorem exists_refused (b : Build) {w : World} {request : RwPacket} (h : Setting w request file)
    (hcount : 1 < blockCount dataPktDataMaxSize file) : ∃ sys outFile,
    Relation.ReflTransGen (System.Step b) { server := create w request } sys ∧
      sys.fired = 1 ∧ sys.client = .returned false outFile := by
  obtain ⟨hdue, htimeouts⟩ := due_create h.read h.allowed h.opened rfl h.noOptions
  rw [h.octet, transferStream_octet] at hdue
  obtain ⟨sys₁, hr₁, hawait, hq₁, hc₁, hf₁, ht₁⟩ :=
    exists_sent b { server := create w request } hdue
  obtain ⟨sys₂, hr₂, hagain, hq₂, hc₂, hf₂⟩ := exists_expired b hawait
    (by rw [ht₁, htimeouts]; decide)
  obtain ⟨sys₃, hr₃, -, hq₃, hc₃, hf₃, -⟩ := exists_sent b sys₂ hagain
  have hclient : sys₃.client = .first := hc₃.trans (hc₂.trans hc₁)
  have hqueue : sys₃.toClient =
      [dataFrame dataPktDataMaxSize file 1, dataFrame dataPktDataMaxSize file 1] := by
    rw [hq₃, hq₂, hq₁]
    rfl
  have hfired : sys₃.fired = 1 := by rw [hf₃, hf₂, hf₁]
  -- the client takes the first of the two, and gives up on the other
  have hfirst : Awaits .octet file 0 .first := ⟨[], rfl, .inl ⟨rfl, rfl⟩⟩
  obtain ⟨out, hout, haccept⟩ := getFile_accepts hfirst (by omega) rfl
  have hawaits : Awaits .octet file 1 (afterBlock file 0 out) := awaits_afterBlock hout (by omega)
  obtain ⟨outFile, hrefuse⟩ := getFile_repeated hawaits
  rw [← hclient] at haccept
  obtain ⟨sys₄, h4, hc₄, hq₄, hf₄⟩ : ∃ sys₄, System.Step b sys₃ sys₄ ∧
      sys₄.client = afterBlock file 0 out ∧
      sys₄.toClient = [dataFrame dataPktDataMaxSize file 1] ∧ sys₄.fired = sys₃.fired :=
    ⟨_, .client (fun _ _ hx ↦ by rw [hclient] at hx; cases hx) hqueue haccept, rfl, rfl, rfl⟩
  have hnext : ∀ result outFile, sys₄.client ≠ .returned result outFile := by
    intro result outFile hx
    rw [hc₄] at hx
    obtain ⟨_, -, ⟨-, hzero⟩ | ha⟩ := hawaits
    · exact absurd hzero Nat.one_ne_zero
    · rw [ha] at hx
      cases hx
  rw [← hc₄] at hrefuse
  exact ⟨_, outFile, (((hr₁.trans hr₂).trans hr₃).tail h4).tail (.client hnext hq₄ hrefuse),
    hf₄.trans hfired, rfl⟩

/-- The client reports failure exactly when the server sent a block before the last one more than
once: such a block is not absorbed, and nothing else makes the client fail. -/
theorem returned_false_iff {w : World} {request : RwPacket} (h : Setting w request file)
    (hr : Relation.ReflTransGen (System.Step b) { server := create w request } sys)
    {result : Bool} {outFile : Option Bytes} (hc : sys.client = .returned result outFile) :
    result = false ↔ ∃ n, 1 ≤ n ∧ n < blockCount dataPktDataMaxSize file ∧
      1 < transmissions n sys.serverLog := by
  have hnever : ∀ k, ¬Awaits .octet file k (.returned result outFile) := by
    rintro k ⟨out, -, ⟨hx, -⟩ | hx⟩
    · cases hx
    · cases hx
  cases invariant_reachable hr (System.inv_create h) fun _ _ hi hs ↦ hi.step hs with
  | delivering _ hawait => exact absurd (hc ▸ hawait) (hnever _)
  | acknowledging _ hawait => exact absurd (hc ▸ hawait) (hnever _)
  | doomed _ _ hawait => exact absurd (hc ▸ hawait) (hnever _)
  | @refused k _ hret hpos hlt hmany =>
    rw [hc] at hret
    cases hret
    exact iff_of_true rfl ⟨k, hpos, hlt, hmany⟩
  | done hret hsteady hserver =>
    rw [hc] at hret
    cases hret
    refine iff_of_false Bool.noConfusion ?_
    rintro ⟨n, hpos, hlt, hmany⟩
    exact absurd (hsteady.once n hpos hlt) (Nat.not_le.mpr hmany)

/-- A file of 512 bytes makes two blocks. -/
private theorem setting_twoBlocks :
    Setting { readable := some { bytes := List.replicate 512 65 } } {} (List.replicate 512 65) ∧
      blockCount dataPktDataMaxSize (List.replicate 512 (65 : UInt8)) = 2 := by
  refine ⟨⟨⟨rfl, rfl, rfl, rfl⟩, rfl⟩, ?_⟩
  rw [blockCount, List.length_replicate]
  rfl

/-- With two blocks and one expiration the client can fail, and then block 1 was sent twice. -/
theorem returned_false_twoBlocks : ∃ sys outFile,
    Relation.ReflTransGen (System.Step .release)
      { server := create { readable := some { bytes := List.replicate 512 65 } } {} } sys ∧
    sys.client = .returned false outFile ∧
    ∃ n, 1 ≤ n ∧ n < blockCount dataPktDataMaxSize (List.replicate 512 (65 : UInt8)) ∧
      1 < transmissions n sys.serverLog := by
  obtain ⟨hsetting, hcount⟩ := setting_twoBlocks
  obtain ⟨sys, outFile, hr, -, hc⟩ := exists_refused .release hsetting (by rw [hcount]; decide)
  exact ⟨sys, outFile, hr, hc, (returned_false_iff hsetting hr hc).mp rfl⟩

/-- A block that the server sent again because its timer fired makes the client fail. -/
theorem not_absorbed :
    ¬∀ (b : Build) (w : World) (request : RwPacket) (file : Bytes) (sys : System)
      (outFile : Option Bytes), Setting w request file →
      Relation.ReflTransGen (System.Step b) { server := create w request } sys → sys.fired ≤ 3 →
      sys.client ≠ .returned false outFile := by
  intro h
  obtain ⟨hsetting, hcount⟩ := setting_twoBlocks
  obtain ⟨sys, outFile, hr, hf, hc⟩ := exists_refused .release hsetting (by rw [hcount]; decide)
  exact h .release _ _ _ sys outFile hsetting hr (by rw [hf]; decide) hc

end CppTftp.Resending
