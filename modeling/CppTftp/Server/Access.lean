import CppTftp.Common.Filesystem
import CppTftp.Common.Strings
import CppTftp.Server.Startup
import Mathlib.Data.List.TakeWhile

/-!
# Which files a connection opens

`tftp_server_connection::is_operation_allowed` looks at the canonical path of a request, and
the constructor opens the request itself. Where the request leads to something, the two agree.
Where its last name is missing they agree up to that name, which can be the name of a link.
-/

namespace CppTftp

open Tftp Lib DirTree

/-- What the constructor finds outside the file system: the answers of `get_mtu` and
`get_file_size`, and how the devices behave. -/
structure Outside where
  mtu : Int := -1
  fileSize : Nat := 0
  failAt : Option Nat := none
  sink : FileSink := {}
  deriving DecidableEq, Repr

namespace Filesystem

/-- `tftp_server_connection.cpp:583`. -/
def accessDenied : ErrorPacket := .of .accessError (str "Access denied")

/-- `tftp_server_connection.cpp:589`. -/
def fileAlreadyExists : ErrorPacket := .of .fileExists (str "File already exists")

/-- `tftp_server_connection.cpp:595`. -/
def fileNotFound : ErrorPacket := .of .accessError (str "File not found")

/-- `tftp_server_connection::is_operation_allowed`, `tftp_server_connection.cpp:569–599`. -/
def isOperationAllowed (fs : Filesystem) (fileRequest : Bytes) (type : PacketT) :
    Except Stop (Option ErrorPacket) :=
  match fs.weaklyCanonical (fs.filepath fileRequest) with
  | .error stop => .error stop
  | .ok canonicalFilepath =>
    let canonicalServerRoot : NormalPath := { names := fs.currentPath }
    if ¬ Utils.isSubpath canonicalFilepath canonicalServerRoot then .ok (some accessDenied)
    else
      match type with
      | .write =>
        match fs.pathExists canonicalFilepath.components with
        | .error stop => .error stop
        | .ok pathExists => .ok (if pathExists then some fileAlreadyExists else none)
      | .read =>
        match fs.pathExists canonicalFilepath.components with
        | .error stop => .error stop
        | .ok pathExists => .ok (if pathExists then none else some fileNotFound)
      | _ => .ok none

/-- What the constructor finds for a request. A check that throws leaves no connection. -/
def world (fs : Filesystem) (o : Outside) (request : RwPacket) : Except Stop World :=
  match fs.isOperationAllowed request.filename request.type with
  | .error stop => .error stop
  | .ok notAllowed => .ok {
      notAllowed
      mtu := o.mtu
      fileSize := o.fileSize
      readable := (fs.fopenRead o.failAt request.filename).map (·.2)
      writable := (fs.fopenWrite request.filename).map fun _ ↦ o.sink }

/-- What the connection of a request has opened. -/
def opened (fs : Filesystem) (o : Outside) (request : RwPacket) : Option Location :=
  match fs.world o request with
  | .error _ => none
  | .ok w =>
    let c := TftpServerConnection.create w request
    if c.fileReader.fd.isSome then (fs.fopenRead o.failAt request.filename).map (·.1)
    else if c.fileWriter.fd.isSome then fs.fopenWrite request.filename
    else none

end Filesystem

/-! ### What is allowed, and what is opened -/

/-- The kernel reads the whole filename of a request that was received. -/
theorem segments_filename {data : Bytes} {request : RwPacket}
    (h : deserialiseRwPacket data = some request) :
    segments request.filename = request.filename.splitOn 47 := by
  have hz : 0 ∉ request.filename := by
    unfold deserialiseRwPacket at h
    split at h
    · cases h
    · split at h
      · cases h
      · dsimp only at h
        split at h
        · next filename modeStr params hs =>
          have hm : filename ∈ Utils.cStrings (data.drop 2) := by
            rw [Utils.extractCStringsFromBuffer] at hs
            rw [hs]
            exact List.mem_cons_self
          split at h
          · cases h
          · split at h
            · cases h
              exact Utils.zero_not_mem_of_mem_cStrings hm
            · cases h
              exact Utils.zero_not_mem_of_mem_cStrings hm
        · cases h
  rw [segments, takeWhile_of_not_mem hz]

namespace Filesystem

variable {fs : Filesystem} {fileRequest : Bytes} {type : PacketT} {l : Location}

/-- The canonical path of an allowed request is at or below the server root. -/
theorem prefix_of_allowed {p : NormalPath}
    (h : fs.isOperationAllowed fileRequest type = .ok none)
    (hp : fs.weaklyCanonical (fs.filepath fileRequest) = .ok p) : fs.currentPath <+: p.names := by
  rw [isOperationAllowed, hp] at h
  by_cases hs : Utils.isSubpath p { names := fs.currentPath } = true
  · exact (isSubpath_iff p fs.currentPath).mp hs
  · simp only [if_pos hs] at h
    cases h

/-- What can be read lies where the canonical path says. -/
theorem found_of_fopenRead {failAt : Option Nat}
    (h : (fs.fopenRead failAt fileRequest).map (·.1) = some l) :
    (fs.lookup (fs.filepath fileRequest)).found = some l := by
  unfold fopenRead at h
  cases hr : fs.resolve fileRequest with
  | directory d =>
    rw [hr] at h
    rw [lookup_of_resolve hr (by intro he; cases he)]
    exact h
  | file d =>
    rw [hr] at h
    rw [lookup_of_resolve hr (by intro he; cases he)]
    cases hc : fs.tree.contents d with
    | none => simp [hc] at h
    | some bytes =>
      have hd : d = l := by simpa [hc] using h
      exact congrArg some hd
  | absent d => rw [hr] at h; cases h
  | lost => rw [hr] at h; cases h
  | loop => rw [hr] at h; cases h

/-- What can be written is a file, or missing by its name only. -/
theorem fopenWrite_eq_some_iff : fs.fopenWrite fileRequest = some l ↔
    fs.resolve fileRequest = .file l ∨ fs.resolve fileRequest = .absent l := by
  unfold fopenWrite
  cases hr : fs.resolve fileRequest with
  | directory d => simp
  | file d => simp
  | absent d => simp
  | lost => simp
  | loop => simp

/-- Nothing stands where an allowed WRITE request leads. -/
theorem not_found_of_allowed (h : fs.isOperationAllowed fileRequest .write = .ok none) :
    (fs.lookup (fs.filepath fileRequest)).found = none := by
  cases hf : (fs.lookup (fs.filepath fileRequest)).found with
  | none => rfl
  | some d =>
    have hs : ¬ ¬ Utils.isSubpath { names := d } { names := fs.currentPath } = true := by
      intro hn
      apply hn
      rw [isSubpath_iff]
      exact prefix_of_allowed h (weaklyCanonical_of_found hf)
    rw [isOperationAllowed, weaklyCanonical_of_found hf] at h
    simp only [if_neg hs, pathExists_of_found hf] at h
    cases h

/-- So it opens a file that it creates. -/
theorem absent_of_fopenWrite (h : fs.isOperationAllowed fileRequest .write = .ok none)
    (hw : fs.fopenWrite fileRequest = some l) :
    fs.lookup (fs.filepath fileRequest) = .absent l := by
  have hf := not_found_of_allowed h
  rcases fopenWrite_eq_some_iff.mp hw with hr | hr
  · rw [lookup_of_resolve hr (by intro he; cases he)] at hf
    cases hf
  · exact lookup_of_resolve hr (by intro he; cases he)

/-- A WRITE request is allowed when its name is missing in a directory, or is that of a link
which dangles, and stands at or below the server root. -/
theorem allowed_of_absent {a : List (Component Name)} {n : Name} {d missing : Location}
    (hp : fs.filepath fileRequest = a ++ [.name n]) (ha : fs.lookup a = .directory d)
    (hm : fs.lookup (a ++ [.name n]) = .absent missing) (hr : fs.currentPath <+: d ++ [n]) :
    fs.isOperationAllowed fileRequest .write = .ok none := by
  have hs : ¬ ¬ Utils.isSubpath { names := d ++ [n] } { names := fs.currentPath } = true := by
    rw [isSubpath_iff]
    exact not_not_intro hr
  have he : fs.pathExists { names := d ++ [n] : NormalPath }.components = .ok false := by
    rw [pathExists, lookup_of_absent ha hm]
  rw [isOperationAllowed, hp, weaklyCanonical_of_absent ha hm]
  simp only [if_neg hs, he]
  rfl

/-- What the constructor finds is what the check says, and what can be written. -/
theorem of_world {o : Outside} {request : RwPacket} {w : World}
    (h : fs.world o request = .ok w) :
    fs.isOperationAllowed request.filename request.type = .ok w.notAllowed ∧
      w.writable.isSome = (fs.fopenWrite request.filename).isSome := by
  rw [world] at h
  split at h
  · cases h
  · next notAllowed ha =>
    cases h
    exact ⟨ha, Option.isSome_map⟩

/-- What a connection has opened is what its request opens, if the request was allowed. -/
theorem opened_eq_some_iff {o : Outside} {request : RwPacket} :
    fs.opened o request = some l ↔
      fs.isOperationAllowed request.filename request.type = .ok none ∧
        (request.type = .read ∧
            (fs.fopenRead o.failAt request.filename).map (·.1) = some l ∨
          request.type = .write ∧ fs.fopenWrite request.filename = some l) := by
  rw [opened, world]
  cases ha : fs.isOperationAllowed request.filename request.type with
  | error stop => simp
  | ok notAllowed =>
    simp only [TftpServerConnection.fileReader_create_isSome_iff,
      TftpServerConnection.fileWriter_create_isSome_iff, Option.isSome_map, Except.ok.injEq]
    by_cases hn : notAllowed = none
    · cases ht : request.type with
      | read =>
        cases hr : fs.fopenRead o.failAt request.filename with
        | none => simp [hn]
        | some f => simp [hn]
      | write =>
        cases hw : fs.fopenWrite request.filename with
        | none => simp [hn]
        | some f => simp [hn]
      | data | ack | error | oack => simp
    · simp [hn]

/-! ### Confinement -/

/-- The last component of a path is the name of a link at `l`, and what is left of the way
ends at a missing file. -/
structure DanglingLink (fs : Filesystem) (path : List (Component Name)) (l missing : Location) :
    Prop where
  last : ∃ a n d, path = a ++ [.name n] ∧ fs.lookup a = .directory d ∧ l = d ++ [n]
  link : ∃ absolute target, fs.tree.node l = some (.link absolute target)
  dangles : fs.lookup path = .absent missing

/-- A request ends at a dangling link that stands at or below the server root and whose
missing file does not. -/
def LeadsOut (fs : Filesystem) (fileRequest : Bytes) : Prop :=
  ∃ l missing, fs.DanglingLink (fs.filepath fileRequest) l missing ∧
    fs.currentPath <+: l ∧ ¬ fs.currentPath <+: missing

/-- An allowed READ request opens what stands at or below the server root. -/
theorem prefix_of_fopenRead {failAt : Option Nat}
    (h : fs.isOperationAllowed fileRequest type = .ok none)
    (hr : (fs.fopenRead failAt fileRequest).map (·.1) = some l) : fs.currentPath <+: l :=
  prefix_of_allowed h (weaklyCanonical_of_found (found_of_fopenRead hr))

/-- So does an allowed WRITE request that does not end at a link which leads out. -/
theorem prefix_of_fopenWrite (h : fs.isOperationAllowed fileRequest .write = .ok none)
    (hw : fs.fopenWrite fileRequest = some l) (ho : ¬ fs.LeadsOut fileRequest) :
    fs.currentPath <+: l := by
  have hm := absent_of_fopenWrite h hw
  obtain ⟨a, n, d, hp, ha, hl⟩ := walk_absent hm
  have hr : fs.currentPath <+: d ++ [n] := by
    have hc : fs.weaklyCanonical (fs.filepath fileRequest) = .ok { names := d ++ [n] } := by
      rw [hp]
      apply weaklyCanonical_of_absent ha
      rw [← hp]
      exact hm
    exact prefix_of_allowed h hc
  rcases hl with rfl | hl
  · exact hr
  · by_contra hn
    apply ho
    exact ⟨d ++ [n], l, ⟨⟨a, n, d, hp, ha, rfl⟩, hl, hm⟩, hr, hn⟩

/-- A request that leads out is allowed, and creates the missing file. -/
theorem fopenWrite_of_danglingLink {missing : Location}
    (h : fs.DanglingLink (fs.filepath fileRequest) l missing) (hr : fs.currentPath <+: l) :
    fs.isOperationAllowed fileRequest .write = .ok none ∧
      fs.fopenWrite fileRequest = some missing := by
  obtain ⟨a, n, d, hp, ha, rfl⟩ := h.last
  have hm := h.dangles
  constructor
  · have hd : fs.lookup (a ++ [.name n]) = .absent missing := by
      rw [← hp]
      exact hm
    exact allowed_of_absent hp ha hd hr
  · rw [fopenWrite_eq_some_iff]
    right
    rw [resolve_eq, hm]
    -- the empty pathname has no name for its last component
    intro hs
    have hc : components fileRequest = [.self] := by
      rw [components, hs]
      rfl
    rw [filepath, hc] at hp
    have hx := (List.append_inj' hp rfl).2
    cases hx

/-- What a connection opens lies at or below the server root, unless it writes through a
dangling link that leads out. -/
theorem confined_iff (fs : Filesystem) (o : Outside) (request : RwPacket) :
    (∀ l, fs.opened o request = some l → fs.currentPath <+: l) ↔
      ¬(request.type = .write ∧ fs.LeadsOut request.filename) := by
  constructor
  · rintro h ⟨ht, l, missing, hd, hr, hn⟩
    obtain ⟨ha, hw⟩ := fopenWrite_of_danglingLink hd hr
    apply hn
    apply h
    rw [opened_eq_some_iff, ht]
    exact ⟨ha, .inr ⟨rfl, hw⟩⟩
  · intro h l ho
    obtain ⟨ha, ⟨ht, hr⟩ | ⟨ht, hw⟩⟩ := opened_eq_some_iff.mp ho
    · exact prefix_of_fopenRead ha hr
    · rw [ht] at ha
      exact prefix_of_fopenWrite ha hw fun hl ↦ h ⟨ht, hl⟩

/-! ### What can be opened -/

/-- A READ request for something at or below the server root is allowed. -/
theorem allowed_of_found (h : (fs.lookup (fs.filepath fileRequest)).found = some l)
    (hr : fs.currentPath <+: l) : fs.isOperationAllowed fileRequest .read = .ok none := by
  have hs : ¬ ¬ Utils.isSubpath { names := l } { names := fs.currentPath } = true := by
    rw [isSubpath_iff]
    exact not_not_intro hr
  rw [isOperationAllowed, weaklyCanonical_of_found h]
  simp only [if_neg hs, pathExists_of_found h]
  rfl

/-- Whatever a pathname leads to can be opened for reading. -/
theorem fopenRead_of_found {failAt : Option Nat} (hs : segments fileRequest ≠ [[]])
    (h : (fs.lookup (fs.filepath fileRequest)).found = some l) :
    (fs.fopenRead failAt fileRequest).map (·.1) = some l := by
  have hholds := fs.holds_lookup (fs.filepath fileRequest)
  rw [fopenRead, resolve_eq hs]
  cases hr : fs.lookup (fs.filepath fileRequest) with
  | directory d =>
    rw [hr] at h
    exact h
  | file d =>
    rw [hr] at h hholds
    obtain rfl := Option.some.inj h
    obtain ⟨bytes, hb⟩ := hholds
    have hc : fs.tree.contents d = some bytes := by rw [contents, hb]
    simp [hc]
  | absent d => rw [hr] at h; cases h
  | lost => rw [hr] at h; cases h
  | loop => rw [hr] at h; cases h

/-- The empty pathname leads nowhere. -/
theorem segments_of_resolve (h : fs.resolve fileRequest ≠ .lost) : segments fileRequest ≠ [[]] := by
  intro hs
  rw [resolve, if_pos hs] at h
  exact h rfl

/-- A connection opens exactly these files: a READ request what its path leads to, if that stands
at or below the server root; a WRITE request the file that is missing at the end of its path, if
the last name of the path stands for something at or below the server root. -/
theorem opened_iff (fs : Filesystem) (o : Outside) (request : RwPacket) (l : Location) :
    fs.opened o request = some l ↔ segments request.filename ≠ [[]] ∧
      (request.type = .read ∧ (fs.lookup (fs.filepath request.filename)).found = some l ∧
          fs.currentPath <+: l ∨
        request.type = .write ∧ fs.lookup (fs.filepath request.filename) = .absent l ∧
          ∃ a n d, fs.filepath request.filename = a ++ [.name n] ∧ fs.lookup a = .directory d ∧
            fs.currentPath <+: d ++ [n]) := by
  rw [opened_eq_some_iff]
  constructor
  · rintro ⟨ha, ⟨ht, hr⟩ | ⟨ht, hw⟩⟩
    · have hfound : fs.resolve request.filename ≠ .lost := by
        intro hlost
        rw [fopenRead, hlost] at hr
        cases hr
      exact ⟨segments_of_resolve hfound, .inl ⟨ht, found_of_fopenRead hr,
        prefix_of_fopenRead ha hr⟩⟩
    · rw [ht] at ha
      have hm := absent_of_fopenWrite ha hw
      obtain ⟨a, n, d, hp, hd, -⟩ := walk_absent hm
      have hc : fs.weaklyCanonical (fs.filepath request.filename) = .ok { names := d ++ [n] } := by
        rw [hp]
        rw [hp] at hm
        exact weaklyCanonical_of_absent hd hm
      have hfound : fs.resolve request.filename ≠ .lost := by
        intro hlost
        rw [fopenWrite, hlost] at hw
        cases hw
      exact ⟨segments_of_resolve hfound, .inr ⟨ht, hm, a, n, d, hp, hd,
        prefix_of_allowed ha hc⟩⟩
  · rintro ⟨hs, ⟨ht, hf, hr⟩ | ⟨ht, hm, a, n, d, hp, hd, hr⟩⟩
    · rw [ht]
      exact ⟨allowed_of_found hf hr, .inl ⟨rfl, fopenRead_of_found hs hf⟩⟩
    · rw [ht]
      refine ⟨allowed_of_absent hp hd (hp ▸ hm) hr, .inr ⟨rfl, ?_⟩⟩
      rw [fopenWrite_eq_some_iff, resolve_eq hs]
      exact .inr hm

/-! #### A link that leads out -/

private def srvName : Name := ⟨str "srv", by decide⟩

private def outName : Name := ⟨str "out", by decide⟩

private def linkName : Name := ⟨str "x", by decide⟩

private def targetName : Name := ⟨str "y", by decide⟩

/-- In `/srv` the link `x` leads to `/out/y`, and `/out` is empty. -/
private def linkTree : DirTree Name Bytes where
  node l :=
    if l = [] ∨ l = [srvName] ∨ l = [outName] then some .directory
    else if l = [srvName, linkName] then
      some (.link true [.name outName, .name targetName])
    else none
  root := rfl
  parent := by
    intro l n h
    cases l with
    | nil => rfl
    | cons a l =>
      cases l with
      | nil =>
        by_cases ha : a = srvName
        · rw [ha]
          rfl
        · simp [ha] at h
      | cons b l => simp at h

private def linkServer : Filesystem where
  tree := linkTree
  currentPath := [srvName]
  isDirectory := by decide
  maxLinks := 40

/-- A WRITE request for the link creates the file outside. -/
theorem escapes_through_link :
    ¬∀ (fs : Filesystem) (o : Outside) (request : RwPacket) (l : Location),
      fs.opened o request = some l → fs.currentPath <+: l := by
  intro h
  have hp := h linkServer {} { type := .write, filename := str "x" } [outName, targetName]
    (by decide)
  exact absurd hp (by decide)

end Filesystem
end CppTftp
