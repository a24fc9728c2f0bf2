import CppTftp.System.SharedTree

/-!
# What becomes of an upload

Once a connection has been erased, its file stays as its stream has left it, whatever uploads
come later, and every download of it finds these bytes.
-/

namespace CppTftp.SharedTree

open Tftp Lib DirTree TftpServerConnection

variable {b : Build} {fs : Filesystem} {sys sys' : System} {i : Nat} {l : Location} {bytes : Bytes}

/-- The connection at position `i` was erased and has left these bytes in its file. -/
structure System.Stored (i : Nat) (l : Location) (bytes : Bytes) (sys : System) : Prop where
  inv : sys.Inv
  closed : ∃ w, sys.connections[i]? = some w ∧ w.file = some l ∧ w.closed = true
  node : sys.fs.tree.node l = some (.file bytes)

/-- A connection that was erased makes no more steps. -/
theorem System.Step.ne_of_closed {j : Nat} (h : System.Step b j sys sys') {w : Writer}
    (hw : sys.connections[i]? = some w) (hc : w.closed = true) : j ≠ i := by
  rintro rfl
  cases h with
  | accepted =>
    rw [List.getElem?_eq_none le_rfl] at hw
    cases hw
  | called hw' hopen =>
    rw [hw] at hw'
    obtain rfl := Option.some.inj hw'
    rw [hc] at hopen
    cases hopen
  | flushed hw' hopen =>
    rw [hw] at hw'
    obtain rfl := Option.some.inj hw'
    rw [hc] at hopen
    cases hopen
  | erased hw' hopen =>
    rw [hw] at hw'
    obtain rfl := Option.some.inj hw'
    rw [hc] at hopen
    cases hopen

/-- The other connections stay as they are. -/
theorem System.Step.others {j : Nat} (h : System.Step b j sys sys') {w : Writer} (hne : j ≠ i)
    (hw : sys.connections[i]? = some w) : sys'.connections[i]? = some w := by
  cases h with
  | accepted =>
    rw [List.getElem?_append_left (List.getElem?_eq_some_iff.mp hw).1]
    exact hw
  | called => exact (List.getElem?_set_ne hne).trans hw
  | flushed => exact hw
  | erased => exact (List.getElem?_set_ne hne).trans hw

/-- No step changes a file that was stored. -/
theorem System.Stored.step (h : sys.Stored i l bytes) (hs : System.Next b sys sys') :
    sys'.Stored i l bytes := by
  obtain ⟨j, hs⟩ := hs
  obtain ⟨w, hw, hl, hc⟩ := h.closed
  have hne := hs.ne_of_closed hw hc
  have hinv := h.inv.step hs
  have hw' := hs.others hne hw
  have hother : ¬sys'.Writes j l := fun hj ↦ hne (hinv.distinct j i l hj ⟨w, hw', hl⟩)
  exact ⟨hinv, ⟨w, hw', hl, hc⟩, (hs.frame hother).trans h.node⟩

/-- A connection that is erased stores what its stream has taken. -/
theorem System.Inv.stores (h : sys.Inv) {w : Writer} (hw : sys.connections[i]? = some w)
    (hl : w.file = some l) (hopen : w.closed = false) (hf : w.conn.finished = true) :
    System.Stored i l w.conn.fileWriter.taken {
      fs := w.close sys.fs, connections := sys.connections.set i { w with closed := true } } := by
  have hi : i < sys.connections.length := (List.getElem?_eq_some_iff.mp hw).1
  refine ⟨h.step (b := .release) (.erased hw hopen hf), ⟨_, List.getElem?_set_self hi, hl, rfl⟩, ?_⟩
  obtain ⟨old, ho⟩ := h.exist i l ⟨w, hw, hl⟩
  show (w.close sys.fs).tree.node l = _
  rw [Writer.close, hl]
  exact node_write (canHold_of_file ho) _

/-- What a READ request finds in a file. -/
theorem readable_of_opened {o : Outside} {request : RwPacket} {w : World}
    (hn : fs.tree.node l = some (.file bytes)) (ht : request.type = .read)
    (ho : fs.opened o request = some l) (hw : fs.world o request = .ok w) :
    w.readable = some { bytes, failAt := o.failAt } := by
  obtain ⟨-, ⟨-, hr⟩ | ⟨hwrite, -⟩⟩ := Filesystem.opened_eq_some_iff.mp ho
  · have hreadable : w.readable = (fs.fopenRead o.failAt request.filename).map (·.2) := by
      rw [Filesystem.world] at hw
      split at hw
      · cases hw
      · cases hw
        rfl
    rw [hreadable]
    unfold Filesystem.fopenRead at hr ⊢
    cases hres : fs.resolve request.filename with
    | directory d =>
      have hdir : fs.tree.node d = some .directory := by
        have hholds := fs.holds_lookup (fs.filepath request.filename)
        rw [Filesystem.lookup_of_resolve hres (by intro he; cases he)] at hholds
        exact hholds
      rw [hres] at hr
      obtain rfl := Option.some.inj hr
      rw [hn] at hdir
      cases hdir
    | file d =>
      rw [hres] at hr
      dsimp only at hr ⊢
      cases hc : fs.tree.contents d with
      | none => simp [hc] at hr
      | some found =>
        obtain rfl : d = l := by simpa [hc] using hr
        rw [contents, hn] at hc
        obtain rfl := Option.some.inj hc
        rfl
    | absent d => rw [hres] at hr; cases hr
    | lost => rw [hres] at hr; cases hr
    | loop => rw [hres] at hr; cases hr
  · rw [ht] at hwrite
    cases hwrite

/-- Once the connection of an upload has been erased, what its stream has taken stays in its file
in every run from there, whoever uploads what, and every connection that opens the file for
reading finds exactly these bytes. -/
theorem stored_upload_is_served {sys : System} {w : Writer}
    (hr : Relation.ReflTransGen (System.Next b) { fs } sys)
    (hw : sys.connections[i]? = some w) (hl : w.file = some l) (hopen : w.closed = false)
    (hf : w.conn.finished = true)
    (hr' : Relation.ReflTransGen (System.Next b) {
      fs := w.close sys.fs, connections := sys.connections.set i { w with closed := true } } sys') :
    sys'.fs.tree.node l = some (.file w.conn.fileWriter.taken) ∧
      ∀ o request world, request.type = .read → sys'.fs.opened o request = some l →
        sys'.fs.world o request = .ok world →
        world.readable = some { bytes := w.conn.fileWriter.taken, failAt := o.failAt } := by
  have hstored := (System.inv_of_reachable hr).stores hw hl hopen hf
  have h := invariant_reachable hr' hstored fun _ _ h hs ↦ h.step hs
  exact ⟨h.node, fun o request world ht ho hw ↦ readable_of_opened h.node ht ho hw⟩

/-! #### An upload of three bytes -/

/-- A server in an empty root directory. -/
private def bareServer : Filesystem where
  tree := {
    node := fun l ↦ if l.isEmpty then some .directory else none
    root := rfl
    parent := by
      intro l n h
      simp at h }
  currentPath := []
  isDirectory := rfl
  maxLinks := 40

private def note : Name := ⟨str "note", by decide⟩

private def noteRequest : RwPacket := { type := .write, filename := str "note" }

/-- The upload is cut off after a block, and a later download finds that block. -/
theorem stored_upload_is_served_three :
    ∃ sys : System, Relation.ReflTransGen (System.Next .release) { fs := bareServer } sys ∧
      sys.fs.tree.node [note] = some (.file [1, 2, 3]) ∧
      ∀ o request world, request.type = .read → sys.fs.opened o request = some [note] →
        sys.fs.world o request = .ok world →
        world.readable = some { bytes := [1, 2, 3], failAt := o.failAt } := by
  have ha : accept bareServer {} noteRequest =
      .ok ({ conn := create { writable := some {} } noteRequest, file := some [note] },
        bareServer.write [note] []) := by
    have hallowed : bareServer.isOperationAllowed noteRequest.filename noteRequest.type =
      .ok none := by decide +kernel
    have hwrite : bareServer.fopenWrite noteRequest.filename = some [note] := by decide
    rw [accept, Filesystem.world, hallowed, hwrite]
    rfl
  have hr := Relation.ReflTransGen.single (r := System.Next .release)
    ⟨0, @System.Step.accepted .release { fs := bareServer } {} noteRequest _ _ ha⟩
  have hr := hr.tail ⟨0, .called (e := .writable .sent) rfl rfl rfl⟩
  have hr := hr.tail ⟨0, .called (e := .readable (.datagram
    (serialiseDataPacket { data := [1, 2, 3], blockNumber := 1 }))) rfl rfl rfl⟩
  have hr := hr.tail ⟨0, .called (e := .hangup) rfl rfl rfl⟩
  have hlast := hr.tail ⟨0, .erased rfl rfl rfl⟩
  exact ⟨_, hlast, stored_upload_is_served hr rfl rfl rfl rfl .refl⟩

end CppTftp.SharedTree
