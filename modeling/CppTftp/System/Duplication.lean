import CppTftp.Lib.Echo
import CppTftp.Server.Retransmission
import CppTftp.System.Download

/-!
# How often the blocks of a download are sent

A READ connection and a receiver that answers every DATA datagram with the ACK of its number,
over a network that keeps the order and loses nothing, but repeats. The server sends its block
again for an ACK of the block before, so a copy made once comes back for every later block.
-/

namespace CppTftp.Duplication

open Tftp Lib TftpServerConnection Download

/-! ### The two ends -/

/-- The datagrams that the receiver answers with: an ACK of the number received. -/
def reply (d : Bytes) : List Bytes :=
  match deserialiseDataPacket d with
  | some dataPacket => [serialiseAckPacket { blockNumber := dataPacket.blockNumber }]
  | none =>
    if byteAt d 1 = PacketT.oack.code then [serialiseAckPacket { blockNumber := 0 }] else []

/-- The server and the datagrams on their way, oldest first; how often the timer fired, and
how many datagrams the network duplicated. -/
structure System where
  server : TftpServerConnection
  serverLog : List Action := []
  toReceiver : List Bytes := []
  toServer : List Bytes := []
  fired : Nat := 0
  duplicated : Nat := 0

/-- A call of the server: what it received left its queue, and what it sent is on its way. -/
def System.served (sys : System) (l : List Action) (c' : TftpServerConnection) : System :=
  { sys with
    server := c', serverLog := sys.serverLog ++ l
    toReceiver := sys.toReceiver ++ sends l
    toServer := sys.toServer.drop (receivedCount l) }

/-- One end moves, or the network repeats a datagram in its place. -/
inductive System.Step (b : Build) : System → System → Prop
  | server {sys : System} {e : Event} {l : List Action} {c' : TftpServerConnection} :
      e ≠ .tick → (∀ d, e = .readable (.datagram d) → sys.toServer.head? = some d) →
      step b sys.server e = .ok l c' → System.Step b sys (sys.served l c')
  | fires {sys : System} {l : List Action} {c' : TftpServerConnection} :
      sys.server.timer = .armed → step b sys.server .tick = .ok l c' →
      System.Step b sys { sys with
        server := c', serverLog := sys.serverLog ++ l, fired := sys.fired + 1 }
  | receiver {sys : System} {d : Bytes} {rest : List Bytes} :
      sys.toReceiver = d :: rest →
      System.Step b sys { sys with toReceiver := rest, toServer := sys.toServer ++ reply d }
  | repeatsToReceiver {sys : System} {before after : List Bytes} {d : Bytes} :
      sys.toReceiver = before ++ d :: after →
      System.Step b sys { sys with
        toReceiver := before ++ d :: d :: after, duplicated := sys.duplicated + 1 }
  | repeatsToServer {sys : System} {before after : List Bytes} {d : Bytes} :
      sys.toServer = before ++ d :: after →
      System.Step b sys { sys with
        toServer := before ++ d :: d :: after, duplicated := sys.duplicated + 1 }

/-- A block is answered with its ACK, and the OACK with ACK 0. -/
theorem reply_packetOf (oack : OackPacket) (size : Nat) (stream : Bytes) (n : Nat) :
    reply (packetOf oack size stream n) = [ackOf n] := by
  rw [packetOf]
  split
  · next hn =>
    have hd : deserialiseDataPacket (serialiseOackPacket oack) = none :=
      deserialiseDataPacket_of_opcode (by simp [PacketT.code])
    rw [reply, hd, hn]
    rfl
  · rw [reply, deserialise_dataFrame]
    rfl

/-! ### The two ends as an echo -/

/-- The transfer is the abstract one: a connection outside the state ERROR, its counts and the
two queues as one path. -/
structure Echoes (oack : OackPacket) (size : Nat) (stream : Bytes) (sys : System) (f : Echo) :
    Prop where
  sound : DownloadInv size stream sys.serverLog sys.server
  awake : sys.server.state ≠ .error
  offered : sys.server.oackPacket = oack
  current : outstanding sys.serverLog sys.server = f.current
  le : f.current ≤ blockCount size stream
  offer : f.current = 0 → f.previous = 0
  pending : f.pending = if sys.server.waitForWrite then 1 else 0
  expired : f.expired = if sys.server.timer = .expired then 1 else 0
  sent : dataSent sys.serverLog = f.total
  spare : f.spare = sys.fired + sys.duplicated
  path : ∃ ps pr, sys.toServer = ps.map ackOf ∧
    sys.toReceiver = pr.map (packetOf oack size stream) ∧ f.path = ps ++ pr

/-- The connection gave up, and its bound stands. -/
structure GaveUp (size : Nat) (stream : Bytes) (sys : System) : Prop where
  state : sys.server.state = .error
  bound : dataSent sys.serverLog ≤ blockCount size stream * (1 + (sys.fired + sys.duplicated))

variable {oack : OackPacket} {size : Nat} {stream : Bytes} {sys sys' : System} {f : Echo}
  {b : Build}

/-- The abstract bound is the bound of the transfer. -/
theorem Echoes.dataSent_le (h : Echoes oack size stream sys f) (hb : f.Bounded) :
    dataSent sys.serverLog ≤ blockCount size stream * (1 + (sys.fired + sys.duplicated)) := by
  rw [h.sent, ← h.spare]
  exact Nat.le_trans hb.total_le (Nat.mul_le_mul_right _ h.le)

theorem Echoes.pending_of_waitForAck (h : Echoes oack size stream sys f)
    (hs : sys.server.state = .waitForAck) : f.pending = 0 := by
  rw [h.pending, if_neg]
  simp [waitForWrite, hs]

/-- What a step of the server must be shown to do: an abstract step, or giving up. -/
def Follows (oack : OackPacket) (size : Nat) (stream : Bytes) (f : Echo) (sys : System) : Prop :=
  (∃ f', Relation.ReflGen Echo.Step f f' ∧ Echoes oack size stream sys f') ∨
    sys.server.state = .error ∧ dataSent sys.serverLog = f.total

section Server

variable {l : List Action} {c' : TftpServerConnection}

/-- A call that neither receives nor sends, and leaves the connection where it was. -/
theorem Echoes.quiet (h : Echoes oack size stream sys f)
    (sound : DownloadInv size stream (sys.serverLog ++ l) c')
    (hkept : c'.oackPacket = sys.server.oackPacket) (hl : ∀ a ∈ l, a = .readInTo)
    (hm : outstanding (sys.serverLog ++ l) c' = outstanding sys.serverLog sys.server)
    (hs : c'.state = sys.server.state)
    (ht : c'.timer = .expired → sys.server.timer = .expired) :
    Follows oack size stream f (sys.served l c') := by
  have hpath : ∃ ps pr, (sys.served l c').toServer = ps.map ackOf ∧
      (sys.served l c').toReceiver = pr.map (packetOf oack size stream) ∧ f.path = ps ++ pr := by
    obtain ⟨ps, pr, hps, hpr, hpath⟩ := h.path
    refine ⟨ps, pr, ?_, ?_, hpath⟩
    · rw [System.served, receivedCount_reads hl, ← hps]
      rfl
    · rw [System.served, sends_reads hl, ← hpr]
      exact List.append_nil _
  have hsent : dataSent (sys.serverLog ++ l) = f.total := by
    rw [dataSent_append, dataSent_reads hl, ← h.sent]
    rfl
  have hwrite : c'.waitForWrite = sys.server.waitForWrite := by
    rw [waitForWrite, waitForWrite, hs]
  have hpending : f.pending = if c'.waitForWrite then 1 else 0 := by
    rw [hwrite]
    exact h.pending
  left
  by_cases he : sys.server.timer = .expired ∧ c'.timer ≠ .expired
  · have hf : f.expired = 1 := by rw [h.expired, if_pos he.1]
    refine ⟨_, .single (.ignore hf), sound, ?_, hkept.trans h.offered, hm.trans h.current, h.le,
      h.offer, hpending, ?_, hsent, h.spare, hpath⟩
    · exact fun hx ↦ h.awake (hs.symm.trans hx)
    · exact (if_neg he.2).symm
  · refine ⟨f, .refl, sound, ?_, hkept.trans h.offered, hm.trans h.current, h.le, h.offer,
      hpending, ?_, hsent, h.spare, hpath⟩
    · exact fun hx ↦ h.awake (hs.symm.trans hx)
    · rw [h.expired]
      by_cases ht' : c'.timer = .expired
      · rw [if_pos (ht ht')]
        exact (if_pos ht').symm
      · rw [if_neg fun hx ↦ he ⟨hx, ht'⟩]
        exact (if_neg ht').symm

/-- The packet of the current block goes out, or the OACK. -/
theorem Echoes.sends (h : Echoes oack size stream sys f)
    (sound : DownloadInv size stream
      (sys.serverLog ++ (l ++ [.send (packetOf oack size stream f.current)])) c')
    (hkept : c'.oackPacket = sys.server.oackPacket) (hl : ∀ a ∈ l, a = .readInTo)
    (hw : sys.server.waitForWrite = true)
    (hm : outstanding (sys.serverLog ++ (l ++ [.send (packetOf oack size stream f.current)])) c' =
      f.current)
    (hs : c'.state = .waitForAck) (ht : c'.timer ≠ .expired) :
    Follows oack size stream f
      (sys.served (l ++ [.send (packetOf oack size stream f.current)]) c') := by
  have hpending : f.pending = 1 := by rw [h.pending, if_pos hw]
  obtain ⟨ps, pr, hps, hpr, hpath⟩ := h.path
  refine .inl ⟨_, .single (.send hpending), sound, ?_, hkept.trans h.offered, hm, h.le, h.offer,
    ?_, (if_neg ht).symm, ?_, h.spare, ps, pr ++ [f.current], ?_, ?_, ?_⟩
  · rw [System.served, hs]
    exact ConnState.noConfusion
  · rw [System.served, if_neg]
    simp [waitForWrite, hs]
  · rw [System.served, dataSent_append, dataSent_append, dataSent_reads hl, dataSent_packetOf,
      h.sent, Echo.total, Echo.total]
    dsimp only
    split
    · rfl
    · omega
  · rw [System.served, receivedCount_append, receivedCount_reads hl, ← hps]
    rfl
  · rw [System.served, sends_append, sends_reads hl, List.map_append, ← hpr]
    rfl
  · rw [← List.append_assoc, ← hpath]
    exact Echo.path_send

/-- The packet is to be sent again. -/
theorem Echoes.timesOut (h : Echoes oack size stream sys f)
    (sound : DownloadInv size stream (sys.serverLog ++ []) c')
    (hkept : c'.oackPacket = sys.server.oackPacket) (hst : sys.server.state = .waitForAck)
    (hexp : sys.server.timer = .expired)
    (hm : outstanding sys.serverLog c' = outstanding sys.serverLog sys.server)
    (hs : c'.state = .sendData) (ht : c'.timer = .disarmed) :
    Follows oack size stream f (sys.served [] c') := by
  have hexpired : f.expired = 1 := by rw [h.expired, if_pos hexp]
  have hretry : Echo.Step f _ := .retry (h.pending_of_waitForAck hst) hexpired
  rw [List.append_nil] at sound
  refine .inl ⟨_, .single hretry, ?_⟩
  rw [System.served, List.append_nil, show Download.sends [] = [] from rfl, List.append_nil]
  refine ⟨sound, ?_, hkept.trans h.offered, hm.trans h.current, h.le, h.offer, ?_, ?_, h.sent,
    h.spare, h.path⟩
  · rw [hs]
    exact ConnState.noConfusion
  · simp [waitForWrite, hs]
  · simp [ht]

/-- An ACK that is received moves the echo on. -/
theorem Echoes.receives {d : Bytes} (h : Echoes oack size stream sys f)
    (sound : DownloadInv size stream (sys.serverLog ++ [.recv d]) c')
    (hkept : c'.oackPacket = sys.server.oackPacket) (hst : sys.server.state = .waitForAck)
    (hexp : sys.server.timer ≠ .expired) (hd : sys.toServer.head? = some d)
    (hmove : AckMove f.current (blockCount size stream) sys.serverLog sys.server d c') :
    Follows oack size stream f (sys.served [.recv d] c') := by
  obtain ⟨ps, pr, hps, hpr, hpath⟩ := h.path
  cases ps with
  | nil =>
    rw [hps] at hd
    cases hd
  | cons n ps =>
    rw [hps, List.map_cons, List.head?_cons, Option.some.injEq] at hd
    subst hd
    have hpending := h.pending_of_waitForAck hst
    have hexpired : f.expired = 0 := by rw [h.expired, if_neg hexp]
    have hps' : (sys.served [.recv (ackOf n)] c').toServer = ps.map ackOf := by
      rw [System.served, hps]
      rfl
    have hpr' : (sys.served [.recv (ackOf n)] c').toReceiver =
        pr.map (packetOf oack size stream) := by
      rw [System.served, ← hpr]
      exact List.append_nil _
    have hsent : dataSent (sys.serverLog ++ [.recv (ackOf n)]) = f.total := by
      rw [dataSent_append, h.sent]
      rfl
    have htimer : c'.timer = sys.server.timer → 0 = if c'.timer = .expired then 1 else 0 := by
      intro ht
      rw [ht, if_neg hexp]
    have hsendData : c'.state = .sendData → 1 = if c'.waitForWrite then 1 else 0 := by
      intro hs
      simp [waitForWrite, hs]
    have hwaitForAck : c'.state = .waitForAck → 0 = if c'.waitForWrite then 1 else 0 := by
      intro hs
      simp [waitForWrite, hs]
    rcases Echo.path_cons hpath with ⟨hx, hn, hr⟩ | ⟨hx, hy, hn, hr⟩
    · -- an ACK for the block before the current one
      have hcurrent : f.current ≠ 0 := fun hz ↦ absurd (h.offer hz) (Nat.pos_iff_ne_zero.mp hx)
      cases hmove.numbered with
      | previous hp hs ht hm =>
        refine .inl ⟨_, .single (.again hx hpending), sound, ?_, hkept.trans h.offered, hm, h.le,
          fun hz ↦ absurd hz hcurrent, hsendData hs, ?_, hsent, h.spare, ps, pr, hps', hpr',
          hr.symm⟩
        · rw [System.served, hs]
          exact ConnState.noConfusion
        · rw [hexpired]
          exact htimer ht
      | advances hnum hlt hs ht hm =>
        rw [ofNat_eq_ofNat_iff] at hnum
        omega
      | finishes hnum hlast hs hf ht hm =>
        rw [ofNat_eq_ofNat_iff] at hnum
        omega
      | aborts hnum hp hs => exact .inr ⟨hs, hsent⟩
    · -- an ACK for the current block
      cases hmove.numbered with
      | previous hp hs ht hm =>
        rw [hn] at hp
        exact absurd hp (Nat.succ_ne_self _)
      | advances hnum hlt hs ht hm =>
        refine .inl ⟨_, .single (.advance hx hy hpending), sound, ?_, hkept.trans h.offered, hm,
          hlt, fun hz ↦ absurd hz (Nat.succ_ne_zero _), hsendData hs, ?_, hsent, h.spare, ps, pr,
          hps', hpr', ?_⟩
        · rw [System.served, hs]
          exact ConnState.noConfusion
        · rw [hexpired]
          exact htimer ht
        · exact (Echo.path_advance hx).trans hr.symm
      | finishes hnum hlast hs hf ht hm =>
        refine .inl ⟨_, .single (.finish hx hy), sound, ?_, hkept.trans h.offered, hm, h.le,
          h.offer, ?_, ?_, hsent, h.spare, ps, pr, hps', hpr', hr.symm⟩
        · rw [System.served, hs]
          exact ConnState.noConfusion
        · rw [hpending]
          exact hwaitForAck hs
        · rw [hexpired]
          exact htimer ht
      | aborts hnum hp hs =>
        rw [hn] at hnum
        exact absurd rfl hnum

/-- Every call of the server is an abstract step, or it gives up. -/
theorem Echoes.served {e : Event} (h : Echoes oack size stream sys f) (hsize : 0 < size)
    (hne : e ≠ .tick) (hq : ∀ d, e = .readable (.datagram d) → sys.toServer.head? = some d)
    (hs : step b sys.server e = .ok l c') :
    Follows oack size stream f (sys.served l c') := by
  have sound := h.sound.step hsize hs
  have hkept := (kept_step hs).oackPacket
  obtain ⟨hmove, -⟩ := h.sound.move hsize h.awake hs
  cases hmove with
  | quiet hl hm hst ht => exact h.quiet sound hkept hl hm hst ht
  | ticks => exact absurd rfl hne
  | fails hl herr hwhy =>
    refine .inr ⟨herr, ?_⟩
    rw [System.served, dataSent_append, dataSent_reads hl, ← h.sent]
    rfl
  | sends hl hw hm hreads hst ht =>
    rw [h.offered, h.current] at sound ⊢
    have hm := hm (packetOf oack size stream f.current)
    rw [h.current] at hm
    exact h.sends sound hkept hl hw hm hst ht
  | timesOut hst hexp hm hs' ht => exact h.timesOut sound hkept hst hexp hm hs' ht
  | @receives d hst ht =>
    have hack := h.sound.ackMove hst (d.take ackPktMaxSize)
    rw [h.current] at hack
    have hd := hq d rfl
    obtain ⟨ps, _, hps, -, -⟩ := h.path
    -- an ACK is as long as what is received
    have htake : d.take ackPktMaxSize = d := by
      cases ps with
      | nil => rw [hps] at hd; cases hd
      | cons n ps =>
        rw [hps, List.map_cons, List.head?_cons, Option.some.injEq] at hd
        rw [← hd]
        exact take_serialiseAckPacket _
    rw [htake] at sound hkept hack ⊢
    exact h.receives sound hkept hst ht hd hack

/-- The timer fires. -/
theorem Echoes.fires (h : Echoes oack size stream sys f) (ht : sys.server.timer = .armed)
    (hsize : 0 < size) (hs : step b sys.server .tick = .ok l c') :
    Follows oack size stream f
      { sys with server := c', serverLog := sys.serverLog ++ l, fired := sys.fired + 1 } := by
  have sound := h.sound.step hsize hs
  obtain ⟨rfl, rfl⟩ := Outcome.ok_inj.mp hs
  rw [List.append_nil] at sound ⊢
  have hexpired : f.expired = 0 := by
    rw [h.expired, if_neg]
    rw [ht]
    exact Timer.noConfusion
  refine .inl ⟨_, .single (.fire hexpired), sound, h.awake, h.offered, h.current, h.le, h.offer,
    h.pending, ?_, h.sent, ?_, h.path⟩
  · rw [ht]
    rfl
  · show f.spare + 1 = sys.fired + 1 + sys.duplicated
    rw [h.spare]
    omega

end Server

/-! ### The other end and the network -/

/-- The receiver turns a block into its ACK: the path stays as it is. -/
theorem Echoes.receiver {d : Bytes} {rest : List Bytes} (h : Echoes oack size stream sys f)
    (hq : sys.toReceiver = d :: rest) : Echoes oack size stream
      { sys with toReceiver := rest, toServer := sys.toServer ++ reply d } f := by
  obtain ⟨ps, pr, hps, hpr, hpath⟩ := h.path
  cases pr with
  | nil =>
    rw [hpr] at hq
    cases hq
  | cons n pr =>
    rw [hpr, List.map_cons] at hq
    obtain ⟨rfl, rfl⟩ := List.cons.inj hq
    refine { h with path := ⟨ps ++ [n], pr, ?_, rfl, ?_⟩ }
    · rw [reply_packetOf, hps, List.map_append]
      rfl
    · rw [hpath, List.append_assoc]
      rfl

/-- A datagram repeated in its place is one more copy on the path. -/
theorem Echoes.repeats {before after : List Nat} {n : Nat} {toReceiver toServer : List Bytes}
    (h : Echoes oack size stream sys f) (hpath : f.path = before ++ n :: after)
    (hqueues : ∃ ps pr, toServer = ps.map ackOf ∧
      toReceiver = pr.map (packetOf oack size stream) ∧ before ++ n :: n :: after = ps ++ pr) :
    Follows oack size stream f
      { sys with toReceiver, toServer, duplicated := sys.duplicated + 1 } := by
  obtain ⟨ps, pr, hps, hpr, heq⟩ := hqueues
  have hspare : f.spare + 1 = sys.fired + (sys.duplicated + 1) := by
    rw [h.spare, Nat.add_assoc]
  rcases Echo.path_repeat hpath with ⟨hx, hp⟩ | hp
  · rw [heq] at hp
    refine .inl ⟨_, .single .repeatPrevious, h.sound, h.awake, h.offered, h.current, h.le, ?_,
      h.pending, h.expired, h.sent, hspare, ps, pr, hps, hpr, hp.symm⟩
    intro hz
    exact absurd (h.offer hz) (Nat.pos_iff_ne_zero.mp hx)
  · rw [heq] at hp
    exact .inl ⟨_, .single .repeatCurrent, h.sound, h.awake, h.offered, h.current, h.le, h.offer,
      h.pending, h.expired, h.sent, hspare, ps, pr, hps, hpr, hp.symm⟩

/-- Where a queue was cut, the path is cut as well. -/
private theorem map_eq_append_cons {α β : Type} {g : α → β} {xs : List α} {before after : List β}
    {y : β} (h : xs.map g = before ++ y :: after) : ∃ as a bs,
      xs = as ++ a :: bs ∧ before = as.map g ∧ y = g a ∧ after = bs.map g := by
  obtain ⟨as, rest, rfl, rfl, hrest⟩ := List.map_eq_append_iff.mp h
  obtain ⟨a, bs, rfl, rfl, rfl⟩ := List.map_eq_cons_iff.mp hrest
  exact ⟨as, a, bs, rfl, rfl, rfl, rfl⟩

/-! ### The bound -/

/-- The invariant: the abstract transfer with its bound, or a connection that gave up. -/
def System.Inv (oack : OackPacket) (size : Nat) (stream : Bytes) (sys : System) : Prop :=
  (∃ f : Echo, Echoes oack size stream sys f ∧ f.Bounded) ∨ GaveUp size stream sys

/-- A step of the abstract transfer keeps the bound. -/
theorem Follows.inv (h : Follows oack size stream f sys) (hb : f.Bounded)
    (hle : f.current ≤ blockCount size stream)
    (hspare : f.spare ≤ sys.fired + sys.duplicated) : System.Inv oack size stream sys := by
  rcases h with ⟨f', hstep, h'⟩ | ⟨hs, hsent⟩
  · refine .inl ⟨f', h', ?_⟩
    cases hstep with
    | refl => exact hb
    | single hstep => exact hb.step hstep
  · refine .inr ⟨hs, ?_⟩
    rw [hsent]
    exact Nat.le_trans hb.total_le (Nat.mul_le_mul hle (by omega))

/-- A connection that gave up sends no block any more. -/
theorem GaveUp.step (h : GaveUp size stream sys) (hs : System.Step b sys sys') :
    GaveUp size stream sys' := by
  have hmore : ∀ n m, sys.fired + sys.duplicated ≤ n + m → dataSent sys.serverLog ≤
      blockCount size stream * (1 + (n + m)) := fun n m hle ↦
    Nat.le_trans h.bound (Nat.mul_le_mul_left _ (by omega))
  cases hs with
  | server _ _ hs =>
    obtain ⟨hs', hsent⟩ := step_error h.state hs
    refine ⟨hs', ?_⟩
    rw [System.served, dataSent_append, hsent]
    exact h.bound
  | fires _ hs =>
    obtain ⟨hs', hsent⟩ := step_error h.state hs
    refine ⟨hs', ?_⟩
    rw [dataSent_append, hsent]
    exact hmore _ _ (by dsimp only; omega)
  | receiver _ => exact ⟨h.state, h.bound⟩
  | repeatsToReceiver _ => exact ⟨h.state, hmore _ _ (by dsimp only; omega)⟩
  | repeatsToServer _ => exact ⟨h.state, hmore _ _ (by dsimp only; omega)⟩

/-- Any move keeps the invariant. -/
theorem System.Inv.step (h : System.Inv oack size stream sys) (hsize : 0 < size)
    (hs : System.Step b sys sys') : System.Inv oack size stream sys' := by
  rcases h with ⟨f, h, hb⟩ | h
  · have hspare := Nat.le_of_eq h.spare
    cases hs with
    | server hne hq hs => exact (h.served hsize hne hq hs).inv hb h.le hspare
    | fires ht hs => exact (h.fires ht hsize hs).inv hb h.le (by dsimp only; omega)
    | receiver hq => exact .inl ⟨f, h.receiver hq, hb⟩
    | repeatsToReceiver hq =>
      obtain ⟨ps, pr, hps, hpr, hpath⟩ := h.path
      rw [hpr] at hq
      obtain ⟨as, n, bs, rfl, rfl, rfl, rfl⟩ := map_eq_append_cons hq
      rw [← List.append_assoc] at hpath
      refine (h.repeats hpath ⟨ps, as ++ n :: n :: bs, hps, ?_, ?_⟩).inv hb h.le ?_
      · simp
      · rw [List.append_assoc]
      · dsimp only
        omega
    | repeatsToServer hq =>
      obtain ⟨ps, pr, hps, hpr, hpath⟩ := h.path
      rw [hps] at hq
      obtain ⟨as, n, bs, rfl, rfl, rfl, rfl⟩ := map_eq_append_cons hq
      rw [List.append_assoc, List.cons_append] at hpath
      refine (h.repeats hpath ⟨as ++ n :: n :: bs, pr, ?_, hpr, ?_⟩).inv hb h.le ?_
      · simp
      · simp
      · dsimp only
        omega
  · exact .inr (h.step hs)

/-- Before the first event the block that the connection is at is the first one, or none. -/
private theorem outstanding_start (c : TftpServerConnection) : outstanding [] c ≤ 1 := by
  unfold outstanding
  split
  · exact Nat.zero_le 1
  · split
    · exact Nat.le_refl 1
    · exact Nat.zero_le 1

/-- Before the first move the invariant holds. -/
theorem System.inv_create {w : World} {request : RwPacket} {file : FileContents}
    (ht : request.type = .read) (ha : w.notAllowed = none) (hf : w.readable = some file) :
    System.Inv (create w request).oackPacket (create w request).blockSize
      (transferStream request.mode file.bytes) { server := create w request } := by
  have hstart := started_create w request
  have hwrite : (create w request).waitForWrite = true := by
    rw [waitForWrite_eq, hstart.waiting]
    rfl
  have hawake : (create w request).state ≠ .error := by
    rw [create_read ht ha, state_startRead]
    split
    · exact ConnState.noConfusion
    · exact ConnState.noConfusion
  refine .inl ⟨{ current := outstanding [] (create w request) },
    ⟨downloadInv_create ht ha hf, hawake, rfl, rfl, ?_, fun _ ↦ rfl, ?_, ?_, ?_, rfl,
      [], [], rfl, rfl, rfl⟩, Echo.bounded_start _⟩
  · exact Nat.le_trans (outstanding_start _) (blockCount_pos _ _)
  · rw [hwrite]
    rfl
  · rw [hstart.timer]
    rfl
  · simp [Echo.total, dataSent]

/-! ### One expiration and every block twice -/

/-- Block `k + 1` is due, these ACKs are on their way to the server, and nothing else is. -/
structure DueAt (stream : Bytes) (k : Nat) (acks : List Nat) (sent fired : Nat) (timeouts : UInt8)
    (sys : System) : Prop where
  due : Due 512 stream k sys.serverLog sys.server
  toReceiver : sys.toReceiver = []
  toServer : sys.toServer = acks.map ackOf
  sent : dataSent sys.serverLog = sent
  fired : sys.fired = fired
  duplicated : sys.duplicated = 0
  timeouts : sys.server.timeoutCount = timeouts

/-- Block `k + 1` is awaited, these ACKs are on their way to the server, and nothing else is. -/
structure AwaitedAt (stream : Bytes) (k : Nat) (acks : List Nat) (sent fired : Nat)
    (timeouts : UInt8) (sys : System) : Prop where
  awaited : Awaited 512 stream k sys.serverLog sys.server
  toReceiver : sys.toReceiver = []
  toServer : sys.toServer = acks.map ackOf
  sent : dataSent sys.serverLog = sent
  fired : sys.fired = fired
  duplicated : sys.duplicated = 0
  timeouts : sys.server.timeoutCount = timeouts

/-- Some moves lead to a state with this property. -/
def Leads (b : Build) (sys : System) (P : System → Prop) : Prop :=
  ∃ sys', Relation.ReflTransGen (System.Step b) sys sys' ∧ P sys'

theorem Leads.trans {P Q : System → Prop} (h : Leads b sys P) (hq : ∀ sys, P sys → Leads b sys Q) :
    Leads b sys Q := by
  obtain ⟨sys₁, hr, hp⟩ := h
  obtain ⟨sys₂, hr', hq'⟩ := hq sys₁ hp
  exact ⟨sys₂, hr.trans hr', hq'⟩

section Runs

variable {k sent fired : Nat} {acks : List Nat} {timeouts : UInt8}

/-- The block goes out and is answered. -/
theorem DueAt.send (h : DueAt stream k acks sent fired timeouts sys) :
    Leads b sys (AwaitedAt stream k (acks ++ [k + 1]) (sent + 1) fired timeouts) := by
  obtain ⟨l, c', hs, hl, hawait, hcount⟩ := h.due.send (b := b) (by decide)
  have hserver : System.Step b sys _ := .server (fun he ↦ Event.noConfusion he)
    (fun d he ↦ by cases he) hs
  have hqueue : (sys.served (l ++ [.send (dataFrame 512 stream (k + 1))]) c').toReceiver =
      [dataFrame 512 stream (k + 1)] := by
    rw [System.served, h.toReceiver, sends_append, sends_reads hl]
    rfl
  refine ⟨_, (Relation.ReflTransGen.single hserver).tail (.receiver hqueue), hawait, rfl, ?_, ?_,
    h.fired, h.duplicated, hcount.trans h.timeouts⟩
  · have hreply := reply_packetOf { } 512 stream (k + 1)
    rw [packetOf, if_neg (Nat.succ_ne_zero k)] at hreply
    rw [hreply, System.served, receivedCount_append, receivedCount_reads hl, h.toServer,
      List.map_append]
    rfl
  · have hdata := dataSent_packetOf { } 512 stream (k + 1)
    rw [packetOf, if_neg (Nat.succ_ne_zero k), if_neg (Nat.succ_ne_zero k)] at hdata
    rw [System.served, dataSent_append, dataSent_append, dataSent_reads hl, hdata, h.sent,
      Nat.zero_add]

/-- The timer fires, and the block is due again. -/
theorem AwaitedAt.expire (h : AwaitedAt stream k acks sent fired timeouts sys)
    (ht : timeouts < maxTimeouts) :
    Leads b sys (DueAt stream k acks sent (fired + 1) (timeouts + 1)) := by
  obtain ⟨c₁, c₂, htick, -, -, hread, hdue, hcount⟩ :=
    h.awaited.expire (b := b) (h.timeouts ▸ ht) .wouldBlock
  have hfires : System.Step b sys _ := .fires h.awaited.timer htick
  refine ⟨_, (Relation.ReflTransGen.single hfires).tail (.server (fun he ↦ Event.noConfusion he)
    (fun d he ↦ by cases he) hread), ?_, ?_, h.toServer, ?_, ?_, h.duplicated, ?_⟩
  · rw [System.served, List.append_nil, List.append_nil]
    exact hdue
  · rw [System.served, h.toReceiver]
    rfl
  · rw [System.served, List.append_nil, List.append_nil]
    exact h.sent
  · rw [System.served, h.fired]
  · rw [System.served, hcount, h.timeouts]

/-- A call of `handle_read` that takes the first of the ACKs. -/
private theorem Leads.readAck {n : Nat} {c' : TftpServerConnection}
    (hq : sys.toServer = (n :: acks).map ackOf) (hr : sys.toReceiver = [])
    (hsent : dataSent sys.serverLog = sent) (hf : sys.fired = fired) (hd : sys.duplicated = 0)
    (hs : step b sys.server (.readable (.datagram (ackOf n))) = .ok [.recv (ackOf n)] c')
    (hdue : Due 512 stream k (sys.serverLog ++ [.recv (ackOf n)]) c')
    (ht : c'.timeoutCount = 0) : Leads b sys (DueAt stream k acks sent fired 0) := by
  refine ⟨_, .single (.server (fun he ↦ Event.noConfusion he) ?_ hs), hdue, ?_, ?_, ?_, hf, hd, ht⟩
  · intro d he
    cases he
    rw [hq]
    rfl
  · rw [System.served, hr]
    rfl
  · rw [System.served, hq]
    rfl
  · rw [System.served, dataSent_append, hsent]
    rfl

theorem AwaitedAt.acknowledge (h : AwaitedAt stream k ((k + 1) :: acks) sent fired timeouts sys)
    (hlt : k + 1 < blockCount 512 stream) :
    Leads b sys (DueAt stream (k + 1) acks sent fired 0) := by
  obtain ⟨c', hs, hdue, hcount⟩ := h.awaited.acknowledge (b := b) hlt
  exact .readAck h.toServer h.toReceiver h.sent h.fired h.duplicated hs hdue hcount

theorem AwaitedAt.previous (h : AwaitedAt stream k (k :: acks) sent fired timeouts sys)
    (hk : (k + 1) % 65536 ≠ 0) : Leads b sys (DueAt stream k acks sent fired 0) := by
  obtain ⟨c', hs, hdue, hcount⟩ := h.awaited.previous (b := b) hk
  exact .readAck h.toServer h.toReceiver h.sent h.fired h.duplicated hs hdue hcount

end Runs

/-- After one expiration at the first block, each block of a file of fewer than 65536 is sent
twice. -/
theorem sent_twice (b : Build) {w : World} {request : RwPacket} {file : FileContents}
    (ht : request.type = .read) (ha : w.notAllowed = none) (hf : w.readable = some file)
    (hfail : file.failAt = none) (ho : request.options = []) {k : Nat}
    (hk : k < blockCount 512 (transferStream request.mode file.bytes)) (hwrap : k + 1 < 65536) :
    Leads b { server := create w request } (AwaitedAt (transferStream request.mode file.bytes) k
      [k + 1, k + 1] (2 * (k + 1)) 1 (if k = 0 then 1 else 0)) := by
  generalize hstream : transferStream request.mode file.bytes = stream at hk ⊢
  induction k with
  | zero =>
    obtain ⟨hdue, hcount⟩ := due_create ht ha hf hfail ho
    rw [hstream] at hdue
    have h0 : DueAt stream 0 [] 0 0 0 { server := create w request } :=
      ⟨hdue, rfl, rfl, rfl, rfl, rfl, hcount⟩
    exact ((h0.send).trans fun _ h ↦ h.expire (by decide)).trans fun _ h ↦ h.send
  | succ k ih =>
    -- the first of the two ACKs makes the next block due, and the second one again
    have hnext := (ih (by omega) (by omega)).trans fun _ h ↦ h.acknowledge hk
    have hsent := hnext.trans fun _ h ↦ h.send
    have hagain := hsent.trans fun _ h ↦ h.previous (by omega)
    rw [if_neg (Nat.succ_ne_zero k), show 2 * (k + 1 + 1) = 2 * (k + 1) + 1 + 1 by omega]
    exact hagain.trans fun _ h ↦ h.send

/-- How often the blocks of a download are sent. Over a network that keeps the order, loses
nothing and repeats `d` datagrams, with a receiver that answers each DATA datagram with one ACK,
each block is sent at most once for the transfer, and once more for each of the `t` expirations
of the timer and the `d` repetitions: a copy made once can come back for every later block. -/
theorem dataSent_le_of_reachable {w : World} {request : RwPacket} {file : FileContents}
    (ht : request.type = .read) (ha : w.notAllowed = none) (hf : w.readable = some file)
    (hsize : 0 < (create w request).blockSize)
    (hr : Relation.ReflTransGen (System.Step b) { server := create w request } sys) :
    let k := blockCount (create w request).blockSize (transferStream request.mode file.bytes)
    dataSent sys.serverLog ≤ k * (1 + (sys.fired + sys.duplicated)) := by
  have hinv := invariant_reachable hr (System.inv_create ht ha hf) fun _ _ hi hs ↦ hi.step hsize hs
  rcases hinv with ⟨f, h, hb⟩ | h
  · exact h.dataSent_le hb
  · exact h.bound

private theorem blockCount_twoBlocks :
    blockCount 512 (List.replicate 512 (65 : UInt8)) = 2 := by
  rw [blockCount, List.length_replicate]

private theorem exists_twoBlocks : ∃ sys,
    Relation.ReflTransGen (System.Step .release)
      { server := create { readable := some { bytes := List.replicate 512 65 } } {} } sys ∧
    dataSent sys.serverLog = 4 ∧ sys.fired = 1 ∧ sys.duplicated = 0 := by
  have hsent := @sent_twice .release { readable := some { bytes := List.replicate 512 65 } } {}
    { bytes := List.replicate 512 65 } rfl rfl rfl rfl rfl 1
  rw [transferStream_octet, blockCount_twoBlocks] at hsent
  obtain ⟨sys, hr, hs⟩ := hsent (by decide) (by decide)
  exact ⟨sys, hr, hs.sent, hs.fired, hs.duplicated⟩

/-- With two blocks and one expiration the bound is met: the server sends four. -/
theorem dataSent_le_twoBlocks : ∃ sys,
    Relation.ReflTransGen (System.Step .release)
      { server := create { readable := some { bytes := List.replicate 512 65 } } {} } sys ∧
    dataSent sys.serverLog = 4 ∧ dataSent sys.serverLog ≤ 2 * (1 + (1 + 0)) := by
  obtain ⟨sys, hr, hs, hf, hd⟩ := exists_twoBlocks
  have hsize : (create { readable := some { bytes := List.replicate 512 65 } } {}).blockSize =
    512 := rfl
  have hle := dataSent_le_of_reachable rfl rfl rfl (by decide) hr
  rw [hsize, transferStream_octet, blockCount_twoBlocks, hf, hd] at hle
  exact ⟨sys, hr, hs, hle⟩

/-- One expiration in a transfer of two blocks, and the server sends four DATA datagrams. -/
theorem amplification :
    ¬∀ (b : Build) (w : World) (request : RwPacket) (file : FileContents) (sys : System),
      request.type = .read → w.notAllowed = none → w.readable = some file →
      0 < (create w request).blockSize →
      Relation.ReflTransGen (System.Step b) { server := create w request } sys →
      dataSent sys.serverLog ≤
        blockCount (create w request).blockSize (transferStream request.mode file.bytes) +
          sys.fired + sys.duplicated := by
  intro h
  obtain ⟨sys, hr, hs, hf, hd⟩ := exists_twoBlocks
  have hle := h .release _ {} _ sys rfl rfl rfl (by decide) hr
  have hsize : (create { readable := some { bytes := List.replicate 512 65 } } {}).blockSize =
    512 := rfl
  rw [hs, hf, hd, hsize, transferStream_octet, blockCount_twoBlocks] at hle
  omega

end CppTftp.Duplication
