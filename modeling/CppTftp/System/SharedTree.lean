import CppTftp.Server.Access
import Mathlib.Logic.Relation

/-!
# Uploads into one tree

All connections of the server, live and past, and the tree that they write to, which nothing
else modifies. A WRITE request is allowed where nothing stands, and the constructor creates
the file at once, so whatever was there before belongs to another connection or to nobody.
-/

namespace CppTftp.SharedTree

open Tftp Lib DirTree TftpServerConnection

/-! ### The server and its tree -/

/-- A connection and the file that it has opened for writing. It is closed when the loop has
erased it. -/
structure Writer where
  conn : TftpServerConnection
  file : Option Location
  closed : Bool := false

/-- The connections in the order of their requests, and the tree. -/
structure System where
  fs : Filesystem
  connections : List Writer := []

/-- The constructor on a request: the connection, and the file system after it. A file that is
opened for writing is truncated or created. -/
def accept (fs : Filesystem) (o : Outside) (request : RwPacket) :
    Except Stop (Writer × Filesystem) :=
  match fs.world o request with
  | .error stop => .error stop
  | .ok w =>
    let conn := create w request
    match (if conn.fileWriter.fd.isSome then fs.fopenWrite request.filename else none) with
    | some l => .ok ({ conn, file := some l }, fs.write l [])
    | none => .ok ({ conn, file := none }, fs)

/-- `~tftp_write_file`, `tftp_write_file.cpp:21–27`: what the stream has taken is in the file. -/
def Writer.close (w : Writer) (fs : Filesystem) : Filesystem :=
  match w.file with
  | some l => fs.write l w.conn.fileWriter.taken
  | none => fs

/-- The connection at position `i` writes the file at `l`. -/
def System.Writes (sys : System) (i : Nat) (l : Location) : Prop :=
  ∃ w, sys.connections[i]? = some w ∧ w.file = some l

/-- A step of the connection at position `i`: its request is handled; one of its handlers is
called; its stream hands on bytes that it has taken; or it is erased, which closes its file. -/
inductive System.Step (b : Build) : Nat → System → System → Prop
  | accepted {sys : System} {o : Outside} {request : RwPacket} {w : Writer} {fs : Filesystem} :
      accept sys.fs o request = .ok (w, fs) →
      System.Step b sys.connections.length sys { fs, connections := sys.connections ++ [w] }
  | called {sys : System} {i : Nat} {w : Writer} {e : Event} {log : List Action}
      {conn : TftpServerConnection} :
      sys.connections[i]? = some w → w.closed = false → step b w.conn e = .ok log conn →
      System.Step b i sys { sys with connections := sys.connections.set i { w with conn } }
  | flushed {sys : System} {i : Nat} {w : Writer} {l : Location} {old bytes : Bytes} :
      sys.connections[i]? = some w → w.closed = false → w.file = some l →
      sys.fs.tree.contents l = some old → old <+: bytes → bytes <+: w.conn.fileWriter.taken →
      System.Step b i sys { sys with fs := sys.fs.write l bytes }
  | erased {sys : System} {i : Nat} {w : Writer} :
      sys.connections[i]? = some w → w.closed = false → w.conn.finished = true →
      System.Step b i sys {
        fs := w.close sys.fs, connections := sys.connections.set i { w with closed := true } }

/-- Some connection makes a step. -/
def System.Next (b : Build) (sys sys' : System) : Prop := ∃ i, System.Step b i sys sys'

/-! ### One request -/

/-- A connection writes no file, or one that was missing in a directory and that it created. -/
theorem accept_spec {fs fs' : Filesystem} {o : Outside} {request : RwPacket} {w : Writer}
    (h : accept fs o request = .ok (w, fs')) :
    (w.file = none ∧ w.conn.fileWriter.fd.isSome = false ∧ fs' = fs) ∨
      ∃ l, w.file = some l ∧ w.conn.fileWriter.fd.isSome = true ∧
        (Resolution.absent l).Holds fs.tree ∧ fs' = fs.write l [] := by
  rw [accept] at h
  cases hw : fs.world o request with
  | error stop =>
    rw [hw] at h
    cases h
  | ok world =>
    rw [hw] at h
    dsimp only at h
    cases hs : (create world request).fileWriter.fd.isSome with
    | false =>
      left
      rw [hs, if_neg Bool.false_ne_true] at h
      cases h
      exact ⟨rfl, hs, rfl⟩
    | true =>
      right
      rw [hs, if_pos rfl] at h
      obtain ⟨hn, ht, ho⟩ := (fileWriter_create_isSome_iff world request).mp hs
      obtain ⟨ha, hi⟩ := Filesystem.of_world hw
      rw [ho] at hi
      obtain ⟨l, hl⟩ := Option.isSome_iff_exists.mp hi.symm
      rw [hl] at h
      cases h
      rw [hn, ht] at ha
      have hr := fs.holds_lookup (fs.filepath request.filename)
      rw [Filesystem.absent_of_fopenWrite ha hl] at hr
      exact ⟨l, rfl, hs, hr, rfl⟩

/-- A file that is created is there, and empty. -/
theorem node_write {fs : Filesystem} {l : Location} (h : fs.tree.canHold l) (bytes : Bytes) :
    (fs.write l bytes).tree.node l = some (.file bytes) :=
  node_put_self h bytes

/-- Writing a file changes nothing elsewhere. -/
theorem node_write_of_ne (fs : Filesystem) {l l' : Location} (h : l' ≠ l) (bytes : Bytes) :
    (fs.write l bytes).tree.node l' = fs.tree.node l' :=
  node_put_of_ne h bytes

/-! ### The invariant -/

/-- Every file that a connection writes is there, and no two connections write the same. -/
structure System.Inv (sys : System) : Prop where
  exist : ∀ i l, sys.Writes i l → ∃ bytes, sys.fs.tree.node l = some (.file bytes)
  distinct : ∀ i j l, sys.Writes i l → sys.Writes j l → i = j

variable {b : Build} {sys sys' : System} {i : Nat}

/-- Who writes what changes only when a request is handled. -/
theorem writes_append_iff (fs : Filesystem) (w : Writer) (j : Nat) (l : Location) :
    System.Writes { fs, connections := sys.connections ++ [w] } j l ↔
      sys.Writes j l ∨ j = sys.connections.length ∧ w.file = some l := by
  unfold System.Writes
  dsimp only
  constructor
  · rintro ⟨w', hw, hl⟩
    by_cases hj : j < sys.connections.length
    · rw [List.getElem?_append_left hj] at hw
      exact .inl ⟨w', hw, hl⟩
    · rw [List.getElem?_append_right (by omega), List.getElem?_singleton] at hw
      split at hw
      · next he =>
        cases hw
        exact .inr ⟨by omega, hl⟩
      · cases hw
  · rintro (⟨w', hw, hl⟩ | ⟨rfl, hl⟩)
    · refine ⟨w', ?_, hl⟩
      rw [List.getElem?_append_left (List.getElem?_eq_some_iff.mp hw).1]
      exact hw
    · exact ⟨w, List.getElem?_concat_length, hl⟩

/-- A connection that goes on keeps its file. -/
theorem writes_set_iff (fs : Filesystem) {w w' : Writer} (hw : sys.connections[i]? = some w)
    (hf : w'.file = w.file) (j : Nat) (l : Location) :
    System.Writes { fs, connections := sys.connections.set i w' } j l ↔ sys.Writes j l := by
  unfold System.Writes
  dsimp only
  by_cases hj : i = j
  · subst hj
    have hi : i < sys.connections.length := (List.getElem?_eq_some_iff.mp hw).1
    rw [List.getElem?_set_self hi, hw]
    simp [hf]
  · rw [List.getElem?_set_ne hj]

/-- What a step of the connection at position `i` does: its request opens a file that was
missing; it leaves the tree alone; or it changes its own file. -/
inductive System.Effect (i : Nat) (sys sys' : System) : Prop
  | opens {l : Location} : i = sys.connections.length → (Resolution.absent l).Holds sys.fs.tree →
      sys'.fs = sys.fs.write l [] →
      (∀ j l', sys'.Writes j l' ↔ sys.Writes j l' ∨ j = i ∧ l' = l) → System.Effect i sys sys'
  | leaves : sys'.fs = sys.fs → (∀ j l', sys'.Writes j l' ↔ sys.Writes j l') →
      System.Effect i sys sys'
  | changes {l : Location} {bytes : Bytes} : sys.Writes i l → sys'.fs = sys.fs.write l bytes →
      (∀ j l', sys'.Writes j l' ↔ sys.Writes j l') → System.Effect i sys sys'

/-- Every step has one of these effects. -/
theorem System.Step.effect (h : System.Step b i sys sys') : System.Effect i sys sys' := by
  cases h with
  | @accepted _ o request w fs ha =>
    rcases accept_spec ha with ⟨hf, -, hfs⟩ | ⟨l, hf, -, hl, rfl⟩
    · apply System.Effect.leaves
      · exact hfs
      · intro j l'
        rw [writes_append_iff, hf]
        simp
    · apply System.Effect.opens rfl hl rfl
      intro j l'
      rw [writes_append_iff, hf, Option.some_inj, @eq_comm _ l]
  | called hw hc hs => exact .leaves rfl (writes_set_iff sys.fs hw rfl)
  | flushed hw hc hf ho hb ht => exact .changes ⟨_, hw, hf⟩ rfl fun _ _ ↦ Iff.rfl
  | @erased _ _ w hw hc hd =>
    by_cases hf : w.file = none
    · apply System.Effect.leaves
      · simp only [Writer.close, hf]
      · exact writes_set_iff _ hw rfl
    · obtain ⟨l, hl⟩ := Option.ne_none_iff_exists'.mp hf
      apply System.Effect.changes ⟨w, hw, hl⟩
      · simp only [Writer.close, hl]
        rfl
      · exact writes_set_iff _ hw rfl

/-- No connection stands behind the last one. -/
theorem System.Writes.lt {l : Location} (h : sys.Writes i l) : i < sys.connections.length := by
  obtain ⟨w, hw, -⟩ := h
  exact (List.getElem?_eq_some_iff.mp hw).1

/-- A step changes only the file of the connection that makes it. -/
theorem System.Step.frame (h : System.Step b i sys sys') {l : Location}
    (hl : ¬ sys'.Writes i l) : sys'.fs.tree.node l = sys.fs.tree.node l := by
  cases h.effect with
  | @opens l₀ hi ha hfs hw =>
    have hne : l ≠ l₀ := fun he ↦ hl ((hw i l).mpr (.inr ⟨rfl, he⟩))
    rw [hfs, node_write_of_ne _ hne]
  | leaves hfs hw => rw [hfs]
  | @changes l₀ bytes hi hfs hw =>
    have hne : l ≠ l₀ := fun he ↦ hl ((hw i l).mpr (he ▸ hi))
    rw [hfs, node_write_of_ne _ hne]

/-- Every step keeps the invariant. -/
theorem System.Inv.step (h : sys.Inv) (hs : System.Step b i sys sys') : sys'.Inv := by
  cases hs.effect with
  | @opens l₀ hi ha hfs hw =>
    have hne : ∀ j l, sys.Writes j l → l ≠ l₀ := by
      intro j l hj he
      obtain ⟨bytes, hb⟩ := h.exist j l hj
      rw [he, ha.1] at hb
      cases hb
    constructor
    · intro j l hj
      rcases (hw j l).mp hj with hj | ⟨-, rfl⟩
      · rw [hfs, node_write_of_ne _ (hne j l hj)]
        exact h.exist j l hj
      · exact ⟨[], by rw [hfs]; exact node_write (canHold_of_absent ha) []⟩
    · intro j k l hj hk
      rcases (hw j l).mp hj with hj | ⟨rfl, hl⟩
      · rcases (hw k l).mp hk with hk | ⟨rfl, hl⟩
        · exact h.distinct j k l hj hk
        · exact absurd hl (hne j l hj)
      · rcases (hw k l).mp hk with hk | ⟨rfl, -⟩
        · exact absurd hl (hne k l hk)
        · rfl
  | leaves hfs hw =>
    constructor
    · intro j l hj
      rw [hfs]
      exact h.exist j l ((hw j l).mp hj)
    · intro j k l hj hk
      exact h.distinct j k l ((hw j l).mp hj) ((hw k l).mp hk)
  | @changes l₀ bytes hi hfs hw =>
    constructor
    · intro j l hj
      rw [hfs]
      obtain ⟨old, ho⟩ := h.exist j l ((hw j l).mp hj)
      by_cases hl : l = l₀
      · subst hl
        exact ⟨bytes, node_write (canHold_of_file ho) bytes⟩
      · rw [node_write_of_ne _ hl]
        exact ⟨old, ho⟩
    · intro j k l hj hk
      exact h.distinct j k l ((hw j l).mp hj) ((hw k l).mp hk)

/-- A server without connections. -/
theorem inv_start (fs : Filesystem) : System.Inv { fs } := by
  constructor
  · rintro i l ⟨w, hw, -⟩
    cases hw
  · rintro i j l ⟨w, hw, -⟩
    cases hw

/-! ### What stands before a request -/

/-- Something stands at a location, and no connection from the position `n` on writes it. -/
structure System.Spared (n : Nat) (l : Location) (sys : System) : Prop where
  stands : sys.fs.tree.node l ≠ none
  spared : ∀ i, n ≤ i → ¬ sys.Writes i l

/-- What stands is spared by all requests to come. -/
theorem System.spared {l : Location} (h : sys.fs.tree.node l ≠ none) :
    sys.Spared sys.connections.length l := by
  constructor
  · exact h
  · intro i hi hw
    have hlt := hw.lt
    omega

/-- What is spared stays so. -/
theorem System.Spared.step {n : Nat} {l : Location} (h : sys.Spared n l)
    (hs : System.Step b i sys sys') : sys'.Spared n l := by
  cases hs.effect with
  | @opens l₀ hi ha hfs hw =>
    have hne : l ≠ l₀ := fun he ↦ h.stands (he ▸ ha.1)
    constructor
    · rw [hfs, node_write_of_ne _ hne]
      exact h.stands
    · intro j hj hc
      rcases (hw j l).mp hc with hc | ⟨-, he⟩
      · exact h.spared j hj hc
      · exact hne he
  | leaves hfs hw =>
    constructor
    · rw [hfs]
      exact h.stands
    · intro j hj hc
      exact h.spared j hj ((hw j l).mp hc)
  | @changes l₀ bytes hi hfs hw =>
    constructor
    · rw [hfs]
      exact node_put_ne_none h.stands l₀ bytes
    · intro j hj hc
      exact h.spared j hj ((hw j l).mp hc)

/-! ### Runs -/

/-- The invariant holds in every run. -/
theorem System.inv_of_reachable {fs : Filesystem}
    (h : Relation.ReflTransGen (System.Next b) { fs } sys) : sys.Inv := by
  apply invariant_reachable h (inv_start fs)
  rintro t u ht ⟨i, hs⟩
  exact ht.step hs

/-- What is spared is spared in every run. -/
theorem System.Spared.of_reachable {n : Nat} {l : Location} (h : sys.Spared n l)
    (hr : Relation.ReflTransGen (System.Next b) sys sys') : sys'.Spared n l := by
  apply invariant_reachable hr h
  rintro t u ht ⟨i, hs⟩
  exact ht.step hs

/-- A connection whose stream is open once its request was handled has created its file. -/
theorem System.Step.creates (h : System.Step b sys.connections.length sys sys') {w : Writer}
    (hw : sys'.connections[sys.connections.length]? = some w)
    (ho : w.conn.fileWriter.fd.isSome = true) :
    ∃ l, w.file = some l ∧ sys.fs.tree.node l = none ∧
      sys'.fs.tree.node l = some (.file []) := by
  have hnone : sys.connections[sys.connections.length]? = none := List.getElem?_eq_none le_rfl
  generalize hn : sys.connections.length = n at h
  cases h with
  | @accepted _ o request w' fs ha =>
    rw [List.getElem?_concat_length] at hw
    cases hw
    rcases accept_spec ha with ⟨-, hf, -⟩ | ⟨l, hl, -, hr, rfl⟩
    · rw [hf] at ho
      cases ho
    · exact ⟨l, hl, hr.1, node_write (canHold_of_absent hr) []⟩
  | called hi hc hs =>
    rw [← hn, hnone] at hi
    cases hi
  | flushed hi hc hf hl hb ht =>
    rw [← hn, hnone] at hi
    cases hi
  | erased hi hc hd =>
    rw [← hn, hnone] at hi
    cases hi

/-- In every run: no two connections write one file; a connection that has opened a file for
writing has created it; and no connection ever writes or changes what stood at some location
when its request was handled, or earlier. -/
theorem uploads_create_their_files (b : Build) {fs : Filesystem} {sys : System}
    (h : Relation.ReflTransGen (System.Next b) { fs } sys) :
    (∀ i j l, sys.Writes i l → sys.Writes j l → i = j) ∧
      (∀ sys' w, System.Step b sys.connections.length sys sys' →
        sys'.connections[sys.connections.length]? = some w →
        w.conn.fileWriter.fd.isSome = true →
        ∃ l, w.file = some l ∧ sys.fs.tree.node l = none ∧
          sys'.fs.tree.node l = some (.file [])) ∧
      ∀ i l sys₁ sys₂, sys.connections.length ≤ i → sys.fs.tree.node l ≠ none →
        Relation.ReflTransGen (System.Next b) sys sys₁ → System.Step b i sys₁ sys₂ →
        ¬ sys₂.Writes i l ∧ sys₂.fs.tree.node l = sys₁.fs.tree.node l := by
  refine ⟨(System.inv_of_reachable h).distinct, ?_, ?_⟩
  · intro sys' w hs hw ho
    exact hs.creates hw ho
  · intro i l sys₁ sys₂ hi hl hr hs
    have hw : ¬ sys₂.Writes i l := (((System.spared hl).of_reachable hr).step hs).spared i hi
    exact ⟨hw, hs.frame hw⟩

/-! #### A first upload -/

/-- A server in an empty root directory. -/
private def emptyServer : Filesystem where
  tree := {
    node := fun l ↦ if l = [] then some .directory else none
    root := rfl
    parent := by
      intro l n h
      simp at h }
  currentPath := []
  isDirectory := rfl
  maxLinks := 40

private def photo : Name := ⟨str "photo", by decide⟩

private def upload : RwPacket := { type := .write, filename := str "photo" }

private def uploading : System where
  fs := emptyServer.write [photo] []
  connections := [{ conn := create { writable := some {} } upload, file := some [photo] }]

/-- Once a first request has created its file, no other connection writes it. -/
theorem first_upload_spared :
    ∃ sys : System, Relation.ReflTransGen (System.Next .release) { fs := emptyServer } sys ∧
      sys.Writes 0 [photo] ∧
      ∀ i sys₁ sys₂, 1 ≤ i → Relation.ReflTransGen (System.Next .release) sys sys₁ →
        System.Step .release i sys₁ sys₂ →
        ¬ sys₂.Writes i [photo] ∧ sys₂.fs.tree.node [photo] = sys₁.fs.tree.node [photo] := by
  have ha : accept emptyServer {} upload =
      .ok ({ conn := create { writable := some {} } upload, file := some [photo] },
        emptyServer.write [photo] []) := by
    have hallowed : emptyServer.isOperationAllowed upload.filename upload.type = .ok none := by
      decide +kernel
    have hwrite : emptyServer.fopenWrite upload.filename = some [photo] := by decide
    rw [accept, Filesystem.world, hallowed, hwrite]
    rfl
  have hs : System.Step .release 0 { fs := emptyServer } uploading :=
    @System.Step.accepted .release { fs := emptyServer } {} upload _ _ ha
  have hr : Relation.ReflTransGen (System.Next .release) { fs := emptyServer } uploading :=
    Relation.ReflTransGen.single ⟨0, hs⟩
  have hn : uploading.fs.tree.node [photo] ≠ none := by decide
  obtain ⟨-, -, hspared⟩ := uploads_create_their_files .release hr
  exact ⟨uploading, hr, ⟨_, rfl, rfl⟩, fun i sys₁ sys₂ hi h hs ↦
    hspared i [photo] sys₁ sys₂ hi hn h hs⟩

end CppTftp.SharedTree
