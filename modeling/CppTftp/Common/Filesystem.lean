import CppTftp.Common.Stdlib
import CppTftp.Common.Utils
import CppTftp.Lib.PathWalk

/-!
# The file system

What the program relies on of `std::filesystem` and `fopen`: `current_path`, `operator/=`,
`weakly_canonical`, `exists`, and opening for reading and for writing. Permissions are left
out: whatever is there can be opened. `utils::is_subpath`, `src/common/utils.cpp:125–129`.
-/

namespace CppTftp

open Lib DirTree

/-- The name of a directory entry. -/
def IsName (n : Bytes) : Prop := n ≠ [] ∧ n ≠ str "." ∧ n ≠ str ".." ∧ 0 ∉ n ∧ 47 ∉ n

instance (n : Bytes) : Decidable (IsName n) := inferInstanceAs (Decidable (_ ∧ _))

/-- The names of directory entries. -/
abbrev Name := { n : Bytes // IsName n }

/-- Where something stands: the names from the root. -/
abbrev Location := List Name

/-! ### Pathnames -/

/-- The component that a pathname has between two slashes, if any. -/
def component (segment : Bytes) : Option (Component Name) :=
  if h : IsName segment then some (.name ⟨segment, h⟩)
  else if segment = str "." then some .self
  else if segment = str ".." then some .parent
  else none

/-- What stands between the slashes of a pathname, up to its null byte. -/
def segments (pathname : Bytes) : List Bytes := (pathname.takeWhile (· != 0)).splitOn 47

/-- The components of a pathname. A slash at its end, or no byte at all, asks for the directory
itself. -/
def components (pathname : Bytes) : List (Component Name) :=
  (segments pathname).filterMap component ++
    if (segments pathname).getLast? = some [] then [.self] else []

/-- `path::is_absolute`. -/
def isAbsolute (pathname : Bytes) : Bool := pathname.head? == some 47

/-- A `path` that is absolute and normal: its names, and whether a slash ends it. -/
structure NormalPath where
  names : Location
  slash : Bool := false
  deriving DecidableEq, Repr

namespace NormalPath

/-- What `begin()` and `end()` enclose; a slash at the end counts as an empty element. -/
def elements (p : NormalPath) : List Bytes :=
  str "/" :: p.names.map (·.val) ++ if p.slash ∧ p.names ≠ [] then [[]] else []

/-- The components that the kernel finds in it. -/
def components (p : NormalPath) : List (Component Name) :=
  p.names.map .name ++ if p.slash then [.self] else []

end NormalPath

/-- `std::mismatch`: what is left of both from the first difference on. -/
def mismatch : List Bytes → List Bytes → List Bytes × List Bytes
  | a :: l, b :: m => if a = b then mismatch l m else (a :: l, b :: m)
  | l, m => (l, m)

/-- `utils::is_subpath`, `utils.cpp:125–129`. -/
def Utils.isSubpath (path base : NormalPath) : Bool :=
  (mismatch path.elements base.elements).2 = []

private theorem mismatch_iff (l m : List Bytes) : (mismatch l m).2 = [] ↔ m <+: l := by
  induction l generalizing m with
  | nil =>
    cases m with
    | nil => simp [mismatch]
    | cons b m => simp [mismatch]
  | cons a l ih =>
    cases m with
    | nil => simp [mismatch]
    | cons b m =>
      rw [mismatch]
      split
      · next h => rw [ih, h, List.cons_prefix_cons, and_iff_right rfl]
      · next h =>
        rw [List.cons_prefix_cons]
        exact ⟨fun he ↦ absurd he (List.cons_ne_nil _ _), fun hp ↦ absurd hp.1.symm h⟩

private theorem prefix_append_nil {l m : List Bytes} (h : [] ∉ l) :
    l <+: m ++ [[]] ↔ l <+: m := by
  constructor
  · intro hp
    rcases List.prefix_concat_iff.mp hp with he | hp
    · exact absurd (by rw [he]; simp) h
    · exact hp
  · exact fun hp ↦ hp.trans (List.prefix_append _ _)

/-- Below a path without a slash at its end are the paths that continue its names. -/
theorem isSubpath_iff (path : NormalPath) (base : Location) :
    Utils.isSubpath path { names := base } = true ↔ base <+: path.names := by
  have hn : [] ∉ str "/" :: base.map (·.val) := by
    rw [List.mem_cons]
    rintro (h | h)
    · exact absurd h (by decide)
    · obtain ⟨n, -, he⟩ := List.mem_map.mp h
      exact n.property.1 he
  have hm : base.map (·.val) <+: path.names.map (·.val) ↔ base <+: path.names :=
    List.prefix_map_iff_of_injective Subtype.val_injective
  have he : ({ names := base } : NormalPath).elements = str "/" :: base.map (·.val) := by
    simp [NormalPath.elements]
  rw [Utils.isSubpath, decide_eq_true_iff, mismatch_iff, he, NormalPath.elements]
  split
  · rw [prefix_append_nil hn, List.cons_prefix_cons, and_iff_right rfl, hm]
  · rw [List.append_nil, List.cons_prefix_cons, and_iff_right rfl, hm]

/-! ### Lookups -/

/-- The file system as the server finds it: a tree, the canonical path of the directory the
server runs in, and how many links a lookup may follow. -/
structure Filesystem where
  tree : DirTree Name Bytes
  currentPath : Location
  isDirectory : tree.node currentPath = some .directory
  maxLinks : Nat

namespace Filesystem

/-- Looking up an absolute path. -/
def lookup (fs : Filesystem) (path : List (Component Name)) : Resolution Name :=
  fs.tree.walk fs.maxLinks [] path

/-- What `status` throws when a lookup fails for another reason than a missing entry. -/
def tooManyLinks : Stop := .exception "status: Too many levels of symbolic links"

/-- `std::filesystem::exists`. -/
def pathExists (fs : Filesystem) (path : List (Component Name)) : Except Stop Bool :=
  match fs.lookup path with
  | .directory _ | .file _ => .ok true
  | .absent _ | .lost => .ok false
  | .loop => .error tooManyLinks

/-- `path::lexically_normal` of a canonical path with these components behind it. -/
def lexicallyNormal (l : Location) : List (Component Name) → Location
  | [] => l
  | .self :: rest => lexicallyNormal l rest
  | .parent :: rest => lexicallyNormal l.dropLast rest
  | .name n :: rest => lexicallyNormal (l ++ [n]) rest

/-- Whether the normal form of a path ends in a slash: where no name is last. -/
def endsInSlash (path : List (Component Name)) : Bool :=
  match path.getLast? with
  | some (.name _) => false
  | _ => true

/-- The loop of `weakly_canonical` over the leading components that exist, which lead to `l`. -/
def canonicalLeading (fs : Filesystem) :
    List (Component Name) → Location → List (Component Name) → Except Stop NormalPath
  | _, l, [] => .ok { names := l }
  | leading, l, x :: rest =>
    match fs.lookup (leading ++ [x]) with
    | .directory l' | .file l' => fs.canonicalLeading (leading ++ [x]) l' rest
    | .absent _ | .lost =>
      .ok { names := lexicallyNormal l (x :: rest), slash := endsInSlash (x :: rest) }
    | .loop => .error tooManyLinks

/-- `std::filesystem::weakly_canonical`. -/
def weaklyCanonical (fs : Filesystem) (path : List (Component Name)) : Except Stop NormalPath :=
  match fs.lookup path with
  | .directory l | .file l => .ok { names := l }
  | .absent _ | .lost => fs.canonicalLeading [] [] path
  | .loop => .error tooManyLinks

/-- `current_path() /= path(file_request)`: an absolute request replaces the directory. -/
def filepath (fs : Filesystem) (fileRequest : Bytes) : List (Component Name) :=
  (if isAbsolute fileRequest then [] else fs.currentPath.map .name) ++ components fileRequest

/-- Where the kernel finds a pathname. The empty one names nothing. -/
def resolve (fs : Filesystem) (pathname : Bytes) : Resolution Name :=
  if segments pathname = [[]] then .lost
  else fs.tree.walk fs.maxLinks (if isAbsolute pathname then [] else fs.currentPath)
    (components pathname)

/-- `fopen(…, "r")`: what is opened, and what it holds. A directory can be opened, but not
read. -/
def fopenRead (fs : Filesystem) (failAt : Option Nat) (pathname : Bytes) :
    Option (Location × FileContents) :=
  match fs.resolve pathname with
  | .directory l => some (l, { bytes := [], failAt := some 0 })
  | .file l => (fs.tree.contents l).map fun bytes ↦ (l, { bytes, failAt })
  | .absent _ | .lost | .loop => none

/-- `fopen(…, "w")`: the file that is truncated, or created where only its name is missing. -/
def fopenWrite (fs : Filesystem) (pathname : Bytes) : Option Location :=
  match fs.resolve pathname with
  | .file l | .absent l => some l
  | .directory _ | .lost | .loop => none

/-- The file system when the file at a location was given these bytes. -/
def write (fs : Filesystem) (l : Location) (bytes : Bytes) : Filesystem where
  tree := fs.tree.put l bytes
  currentPath := fs.currentPath
  isDirectory := node_put_of_directory fs.isDirectory l bytes
  maxLinks := fs.maxLinks

/-! ### Lemmas on lookups -/

variable {fs : Filesystem}

/-- The path that is checked leads where the request leads. -/
theorem lookup_filepath (fs : Filesystem) (fileRequest : Bytes) :
    fs.lookup (fs.filepath fileRequest) =
      fs.tree.walk fs.maxLinks (if isAbsolute fileRequest then [] else fs.currentPath)
        (components fileRequest) := by
  rw [lookup, filepath]
  split
  · rfl
  · exact walk_names (l := []) fs.maxLinks fs.isDirectory _

theorem resolve_eq {pathname : Bytes} (h : segments pathname ≠ [[]]) :
    fs.resolve pathname = fs.lookup (fs.filepath pathname) := by
  rw [resolve, if_neg h, lookup_filepath]

/-- What opening finds, the check finds. -/
theorem lookup_of_resolve {pathname : Bytes} {r : Resolution Name}
    (h : fs.resolve pathname = r) (hr : r ≠ .lost) : fs.lookup (fs.filepath pathname) = r := by
  by_cases hs : segments pathname = [[]]
  · rw [resolve, if_pos hs] at h
    exact absurd h.symm hr
  · rw [← resolve_eq hs]
    exact h

/-- A lookup ends where it says. -/
theorem holds_lookup (fs : Filesystem) (path : List (Component Name)) :
    (fs.lookup path).Holds fs.tree :=
  holds_walk fs.maxLinks path fs.tree.root

/-- What exists has the location where it is found for its canonical path. -/
theorem weaklyCanonical_of_found {path : List (Component Name)} {l : Location}
    (h : (fs.lookup path).found = some l) : fs.weaklyCanonical path = .ok { names := l } := by
  unfold weaklyCanonical
  cases hr : fs.lookup path with
  | directory d => rw [hr] at h; obtain rfl := Option.some.inj h; rfl
  | file d => rw [hr] at h; obtain rfl := Option.some.inj h; rfl
  | absent d => rw [hr] at h; cases h
  | lost => rw [hr] at h; cases h
  | loop => rw [hr] at h; cases h

private theorem canonicalLeading_of_directory {leading a : List (Component Name)} {n : Name}
    {l d missing : Location} (hl : fs.lookup leading = .directory l)
    (ha : fs.lookup (leading ++ a) = .directory d)
    (hm : fs.lookup (leading ++ a ++ [.name n]) = .absent missing) :
    fs.canonicalLeading leading l (a ++ [.name n]) = .ok { names := d ++ [n] } := by
  induction a generalizing leading l with
  | nil =>
    rw [List.append_nil] at ha hm
    rw [hl] at ha
    cases ha
    rw [List.nil_append, canonicalLeading, hm]
    rfl
  | cons x a ih =>
    rw [← List.singleton_append, ← List.append_assoc] at ha hm
    obtain ⟨l', hl'⟩ : ∃ l', fs.lookup (leading ++ [x]) = .directory l' := walk_prefix_directory ha
    rw [List.cons_append, canonicalLeading, hl']
    exact ih hl' ha hm

/-- A missing name in a directory that exists is added to the path of the directory. -/
theorem weaklyCanonical_of_absent {a : List (Component Name)} {n : Name} {d missing : Location}
    (ha : fs.lookup a = .directory d) (hm : fs.lookup (a ++ [.name n]) = .absent missing) :
    fs.weaklyCanonical (a ++ [.name n]) = .ok { names := d ++ [n] } := by
  rw [weaklyCanonical, hm]
  have hl : fs.lookup [] = .directory [] := walk_nil _ _
  exact canonicalLeading_of_directory hl ha hm

/-- The canonical path of a missing name is just as missing, with whatever links are behind
that name. -/
theorem lookup_of_absent {a : List (Component Name)} {n : Name} {d missing : Location}
    (ha : fs.lookup a = .directory d) (hm : fs.lookup (a ++ [.name n]) = .absent missing) :
    fs.lookup { names := d ++ [n] : NormalPath }.components = .absent missing := by
  have hd : fs.tree.node d = some .directory := by
    have hh := fs.holds_lookup a
    rw [ha] at hh
    exact hh
  obtain ⟨links', hle, hw⟩ := walk_append ha
  have hl : fs.tree.walk links' d [.name n] = .absent missing := by
    rw [← hw]
    exact hm
  have hn : fs.tree.walk links' d [.name n] ≠ .loop := by
    rw [hl]
    intro he
    cases he
  rw [NormalPath.components, if_neg Bool.false_ne_true, List.append_nil, List.map_append, lookup,
    walk_names (l := []) fs.maxLinks hd, ← hl]
  exact walk_mono hle hn

/-- A canonical path exists. -/
theorem pathExists_of_found {path : List (Component Name)} {l : Location}
    (h : (fs.lookup path).found = some l) :
    fs.pathExists { names := l : NormalPath }.components = .ok true := by
  have hw : fs.lookup { names := l : NormalPath }.components = fs.lookup path := by
    rw [NormalPath.components, if_neg Bool.false_ne_true, List.append_nil]
    exact walk_found fs.maxLinks (fs.holds_lookup path) h
  rw [pathExists, hw]
  cases hr : fs.lookup path with
  | directory d => rfl
  | file d => rfl
  | absent d => rw [hr] at h; cases h
  | lost => rw [hr] at h; cases h
  | loop => rw [hr] at h; cases h

end Filesystem
end CppTftp
