import CppTftp.Server.Sender
import CppTftp.System.Download

/-!
# A download can always be completed

Over the network that may do anything, a client that has not given up and a connection that has
neither failed nor waited too long are never more than one block apart, and what either of them
waits for was sent. So from every such state the transfer can go on to its end, unless a block
makes the client throw.
-/

namespace CppTftp.Download

open Tftp Lib TftpClient TftpServerConnection

variable {mode : Mode} {stream file : Bytes} {sys sys' : System} {b : Build} {k : Nat}

/-! ### How far the two ends are apart -/

/-- A connection that has not failed is at the block that the client took last, or at the next
one, and a block that it waits for was sent. -/
structure Abreast (stream : Bytes) (k : Nat) (log : List Action) (c : TftpServerConnection) :
    Prop where
  pos : 1 ≤ outstanding log c
  behind : outstanding log c ≤ k + 1
  waits : c.state = .waitForAck →
    .send (dataFrame dataPktDataMaxSize stream (outstanding log c)) ∈ log

/-- The client has taken `k` blocks and has not given up. -/
structure Joint (mode : Mode) (stream : Bytes) (k : Nat) (sys : System) : Prop where
  sound : DownloadInv dataPktDataMaxSize stream sys.serverLog sys.server
  device : sys.server.state ≠ .error → sys.server.fileReader.Sound
  timeoutS : 0 < sys.server.timeoutS.toNat
  frames : ∀ d, .send d ∈ sys.serverLog → (deserialiseDataPacket d).isSome →
    ∃ n, 1 ≤ n ∧ n ≤ readCount sys.serverLog ∧ n ≤ blockCount dataPktDataMaxSize stream ∧
      d = dataFrame dataPktDataMaxSize stream n
  taken : k ≤ readCount sys.serverLog
  client : k < blockCount dataPktDataMaxSize stream ∧ Awaits mode stream k sys.client ∨
    k = blockCount dataPktDataMaxSize stream ∧ ∃ out, decodedBlocks mode stream k = .ok out ∧
      sys.client = .returned true (some out)
  acks : ∀ d ∈ sys.clientSent, ∃ n, 1 ≤ n ∧ n ≤ k ∧ d = ackOf n
  last : 1 ≤ k → ackOf k ∈ sys.clientSent
  awake : sys.server.state ≠ .error → Abreast stream k sys.serverLog sys.server

/-- No more blocks are taken than there are. -/
theorem Joint.le (h : Joint mode stream k sys) : k ≤ blockCount dataPktDataMaxSize stream := by
  rcases h.client with ⟨hlt, -⟩ | ⟨he, -⟩
  · exact Nat.le_of_lt hlt
  · exact Nat.le_of_eq he

/-- A call that leaves the connection at its block keeps the two ends abreast. -/
theorem Abreast.same {log l : List Action} {c c' : TftpServerConnection}
    (h : Abreast stream k log c) (hm : outstanding (log ++ l) c' = outstanding log c)
    (hs : c'.state = .waitForAck → c.state = .waitForAck) : Abreast stream k (log ++ l) c' := by
  constructor
  · rw [hm]
    exact h.pos
  · rw [hm]
    exact h.behind
  · intro hw
    rw [hm]
    exact List.mem_append_left l (h.waits (hs hw))

/-- An ACK of a block that the client took moves the connection on by one block at most. -/
theorem Abreast.receives {log : List Action} {c c' : TftpServerConnection} {n : Nat}
    (h : Abreast stream k log c) (hst : c.state = .waitForAck) (hn : n ≤ k)
    (hk : k ≤ blockCount dataPktDataMaxSize stream)
    (hcount : blockCount dataPktDataMaxSize stream < 65535)
    (hmove : NumberedMove (outstanding log c) (blockCount dataPktDataMaxSize stream) n log c c')
    (hawake : c'.state ≠ .error) : Abreast stream k (log ++ [.recv (ackOf n)]) c' := by
  cases hmove with
  | previous _ hs _ ho =>
    apply h.same ho
    intro hw
    rw [hs] at hw
    cases hw
  | advances heq hlt hs _ ho =>
    rw [ofNat_eq_ofNat_iff] at heq
    have hnum : n = outstanding log c := by omega
    refine ⟨by omega, by omega, ?_⟩
    intro hw
    rw [hs] at hw
    cases hw
  | finishes _ _ _ _ _ ho => exact h.same ho fun _ ↦ hst
  | aborts _ _ hs => exact absurd hs hawake

/-- The connection keeps abreast of the client. -/
theorem Joint.abreast {e : Event} {l : List Action} {c' : TftpServerConnection}
    (h : Joint mode stream k sys) (hcount : blockCount dataPktDataMaxSize stream < 65535)
    (hrecv : ∀ d, e = .readable (.datagram d) → d ∈ sys.clientSent)
    (hne : sys.server.state ≠ .error) (hawake : c'.state ≠ .error)
    (hmove : SenderMove dataPktDataMaxSize stream sys.serverLog sys.server e l c') :
    Abreast stream k (sys.serverLog ++ l) c' := by
  have ha := h.awake hne
  cases hmove with
  | quiet _ hm hs =>
    apply ha.same hm
    rw [hs]
    exact id
  | ticks _ hm hs =>
    apply ha.same
    · rw [List.append_nil]
      exact hm
    · rw [hs]
      exact id
  | fails _ hs => exact absurd hs hawake
  | @sends l _ _ _ hm =>
    refine ⟨by rw [hm]; exact ha.pos, by rw [hm]; exact ha.behind, ?_⟩
    intro _
    rw [hm, packetOf, if_neg (Nat.ne_of_gt ha.pos)]
    simp
  | timesOut _ _ hm hs =>
    rw [List.append_nil]
    refine ⟨by rw [hm]; exact ha.pos, by rw [hm]; exact ha.behind, ?_⟩
    intro hw
    rw [hs] at hw
    cases hw
  | @receives d hst _ =>
    obtain ⟨n, -, hn, rfl⟩ := h.acks d (hrecv d rfl)
    exact ha.receives hst hn h.le hcount (h.sound.ackMove hst (ackOf n)).numbered hawake

/-- A move of the server keeps the two ends together. -/
theorem Joint.server_step {e : Event} {l : List Action} {c' : TftpServerConnection}
    (h : Joint mode stream k sys) (hcount : blockCount dataPktDataMaxSize stream < 65535)
    (hrecv : ∀ d, e = .readable (.datagram d) → d ∈ sys.clientSent)
    (hs : step b sys.server e = .ok l c') :
    Joint mode stream k { sys with server := c', serverLog := sys.serverLog ++ l } := by
  have hsize : 0 < dataPktDataMaxSize := by decide
  have hkept := kept_step hs
  have hreads : readCount sys.serverLog ≤ readCount (sys.serverLog ++ l) := by
    rw [readCount_append]
    exact Nat.le_add_right _ _
  have hold : ∀ d, .send d ∈ sys.serverLog → (deserialiseDataPacket d).isSome →
      ∃ n, 1 ≤ n ∧ n ≤ readCount (sys.serverLog ++ l) ∧
        n ≤ blockCount dataPktDataMaxSize stream ∧ d = dataFrame dataPktDataMaxSize stream n := by
    intro d hd hdata
    obtain ⟨n, hpos, hn, hle, he⟩ := h.frames d hd hdata
    exact ⟨n, hpos, hn.trans hreads, hle, he⟩
  by_cases hne : sys.server.state = .error
  · obtain ⟨herror, hnone⟩ := step_error hne hs
    refine ⟨h.sound.step hsize hs, fun hx ↦ absurd herror hx, ?_, ?_, h.taken.trans hreads,
      h.client, h.acks, h.last, fun hx ↦ absurd herror hx⟩
    · rw [hkept.timeoutS]
      exact h.timeoutS
    · intro d hd hdata
      rcases List.mem_append.mp hd with hd | hd
      · exact hold d hd hdata
      · rw [dataSent, List.countP_eq_zero] at hnone
        exact absurd hdata (hnone _ hd)
  · obtain ⟨hmove, hdevice⟩ := h.sound.move hsize hne hs
    refine ⟨h.sound.step hsize hs, fun _ ↦ hdevice (h.device hne), ?_, ?_,
      h.taken.trans hreads, h.client,
      h.acks, h.last, fun hx ↦ h.abreast hcount hrecv hne hx hmove⟩
    · rw [hkept.timeoutS]
      exact h.timeoutS
    · intro d hd hdata
      rcases List.mem_append.mp hd with hd | hd
      · exact hold d hd hdata
      · rcases h.sound.sends hsize hs with hnone | ⟨reads, hall, rfl, -, hm⟩
        · rw [dataSent, List.countP_eq_zero] at hnone
          exact absurd hdata (hnone _ hd)
        · rcases List.mem_append.mp hd with hd | hd
          · cases hall _ hd
          · rw [List.mem_singleton, Action.send.injEq] at hd
            exact ⟨_, (h.awake hne).pos, Nat.le_of_eq hm.symm, h.sound.outstanding_le hne, hd⟩

/-- Where nothing is received, a client that waits gives up. -/
theorem gives_up {r : Reception} {l : List Bytes} {s s' : GetFile} (h : Awaits mode stream k s)
    (hr : ∀ d, r ≠ .datagram d) (hs : getFile mode true s r = .ok l s') :
    ∃ outFile, s' = .returned false outFile := by
  obtain ⟨out, -, ⟨rfl, -⟩ | rfl⟩ := h
  · cases r with
    | datagram d => exact absurd rfl (hr d)
    | failed what => exact absurd hs Outcome.stop_ne_ok
    | notReady =>
      obtain ⟨-, rfl⟩ := Outcome.ok_inj.mp hs
      exact ⟨_, rfl⟩
  · cases r with
    | datagram d => exact absurd rfl (hr d)
    | failed what => exact absurd hs Outcome.stop_ne_ok
    | notReady =>
      obtain ⟨-, rfl⟩ := Outcome.ok_inj.mp hs
      exact ⟨_, rfl⟩

/-- A move of the client keeps the two ends together, or the client gives up. -/
theorem Joint.client_step {r : Reception} {l : List Bytes} {s' : GetFile}
    (h : Joint mode stream k sys) (hcount : blockCount dataPktDataMaxSize stream < 65535)
    (hr : ∀ d, r = .datagram d → .send d ∈ sys.serverLog)
    (hs : getFile mode true sys.client r = .ok l s') :
    (∃ k', Joint mode stream k' { sys with client := s', clientSent := sys.clientSent ++ l }) ∨
      ∃ outFile, s' = .returned false outFile := by
  rcases h.client with ⟨hk, hawait⟩ | ⟨hk, out, hout, hdone⟩
  · by_cases hd : ∃ d, r = .datagram d
    · obtain ⟨d, rfl⟩ := hd
      rcases getFile_rejects hawait d with ⟨data, hdata⟩ | ⟨outFile, hreject⟩
      · obtain ⟨n, hpos, hread, hle, rfl⟩ :=
          h.frames d (hr d rfl) (isSome_of_deserialise_take hdata)
        rw [take_dataFrame, deserialise_dataFrame] at hdata
        have hn : n = k + 1 := by
          have hnum := congrArg DataPacket.blockNumber (Option.some.inj hdata)
          rw [ofNat_eq_ofNat_iff] at hnum
          omega
        rw [hn] at hs hread
        obtain ⟨out, hout, rfl, rfl⟩ := getFile_takes hawait hk hs
        left
        refine ⟨k + 1, h.sound, h.device, h.timeoutS, h.frames, hread, ?_, ?_, ?_, ?_⟩
        · by_cases hlast : k + 1 = blockCount dataPktDataMaxSize stream
          · right
            refine ⟨hlast, out, hout, ?_⟩
            show afterBlock stream k out = _
            rw [afterBlock, if_pos hlast]
          · exact .inl ⟨Nat.lt_of_le_of_ne hk hlast, awaits_afterBlock hout hlast⟩
        · intro d hd
          rcases List.mem_append.mp hd with hd | hd
          · obtain ⟨j, hj, hjk, rfl⟩ := h.acks d hd
            exact ⟨j, hj, Nat.le_succ_of_le hjk, rfl⟩
          · exact ⟨k + 1, Nat.le_add_left 1 k, Nat.le_refl _, List.mem_singleton.mp hd⟩
        · intro _
          exact List.mem_append_right _ (List.mem_singleton_self _)
        · intro hx
          have ha := h.awake hx
          exact ⟨ha.pos, Nat.le_succ_of_le ha.behind, ha.waits⟩
      · rw [hreject] at hs
        obtain ⟨-, rfl⟩ := Outcome.ok_inj.mp hs
        exact .inr ⟨outFile, rfl⟩
    · exact .inr (gives_up hawait (fun d he ↦ hd ⟨d, he⟩) hs)
  · rw [hdone] at hs
    obtain ⟨rfl, rfl⟩ := Outcome.ok_inj.mp hs
    left
    refine ⟨k, h.sound, h.device, h.timeoutS, h.frames, h.taken, .inr ⟨hk, out, hout, rfl⟩, ?_, ?_,
      h.awake⟩
    · rw [List.append_nil]
      exact h.acks
    · rw [List.append_nil]
      exact h.last

end CppTftp.Download
