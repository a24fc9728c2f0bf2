import Mathlib.Data.List.Basic
import Mathlib.Data.List.Infix

/-!
# Resolving a path in a tree of directories, files and links

A location is the list of the names from the root. A path is walked component by component;
a link on the way is replaced by its target, and the number of links is bounded. The rules
below say how a walk splits, and where a walk can end.
-/

namespace CppTftp.Lib

universe u v

namespace DirTree

/-- A component of a path. -/
inductive Component (N : Type u) where
  | self
  | parent
  | name (n : N)
  deriving DecidableEq, Repr

/-- What stands at a location. -/
inductive Node (N : Type u) (F : Type v) where
  | directory
  | file (contents : F)
  | link (absolute : Bool) (target : List (Component N))
  deriving DecidableEq, Repr

/-- Where a walk ends: at a directory or a file; where nothing but the last component is
missing; where there is no way on; or at one link too many. -/
inductive Resolution (N : Type u) where
  | directory (l : List N)
  | file (l : List N)
  | absent (l : List N)
  | lost
  | loop
  deriving DecidableEq, Repr

end DirTree

/-- A tree: the root is a directory, and so is whatever holds something. -/
structure DirTree (N : Type u) (F : Type v) where
  node : List N → Option (DirTree.Node N F)
  root : node [] = some .directory
  parent : ∀ l n, node (l ++ [n]) ≠ none → node l = some .directory

namespace DirTree

variable {N : Type u} {F : Type v} {t : DirTree N F}

/-- The location that a walk found. -/
def Resolution.found : Resolution N → Option (List N)
  | .directory l | .file l => some l
  | .absent _ | .lost | .loop => none

/-! ### Walking -/

/-- Walk from the directory `l`; from the first link on, `follow` goes on. -/
def scan (t : DirTree N F) (follow : List N → List (Component N) → Resolution N) :
    List N → List (Component N) → Resolution N
  | l, [] => .directory l
  | l, .self :: rest => scan t follow l rest
  | l, .parent :: rest => scan t follow l.dropLast rest
  | l, .name n :: rest =>
    match t.node (l ++ [n]) with
    | some .directory => scan t follow (l ++ [n]) rest
    | some (.file _) => if rest = [] then .file (l ++ [n]) else .lost
    | some (.link absolute target) => follow (if absolute then [] else l) (target ++ rest)
    | none => if rest = [] then .absent (l ++ [n]) else .lost

/-- Walk from the directory `l` through no more than so many links. -/
def walk (t : DirTree N F) : Nat → List N → List (Component N) → Resolution N
  | 0 => scan t fun _ _ ↦ .loop
  | links + 1 => scan t (walk t links)

variable {links : Nat} {l : List N} {n : N} {rest : List (Component N)}

@[simp] theorem walk_nil (links : Nat) (l : List N) : t.walk links l [] = .directory l := by
  cases links <;> rfl

@[simp] theorem walk_self (links : Nat) (l : List N) (rest : List (Component N)) :
    t.walk links l (.self :: rest) = t.walk links l rest := by
  cases links <;> rfl

@[simp] theorem walk_parent (links : Nat) (l : List N) (rest : List (Component N)) :
    t.walk links l (.parent :: rest) = t.walk links l.dropLast rest := by
  cases links <;> rfl

theorem walk_directory (links : Nat) (h : t.node (l ++ [n]) = some .directory)
    (rest : List (Component N)) :
    t.walk links l (.name n :: rest) = t.walk links (l ++ [n]) rest := by
  cases links with
  | zero => rw [walk, scan, h]
  | succ links => rw [walk, scan, h]

theorem walk_file (links : Nat) {contents : F} (h : t.node (l ++ [n]) = some (.file contents))
    (rest : List (Component N)) :
    t.walk links l (.name n :: rest) = if rest = [] then .file (l ++ [n]) else .lost := by
  cases links with
  | zero => rw [walk, scan, h]
  | succ links => rw [walk, scan, h]

theorem walk_none (links : Nat) (h : t.node (l ++ [n]) = none) (rest : List (Component N)) :
    t.walk links l (.name n :: rest) = if rest = [] then .absent (l ++ [n]) else .lost := by
  cases links with
  | zero => rw [walk, scan, h]
  | succ links => rw [walk, scan, h]

theorem walk_link {absolute : Bool} {target : List (Component N)}
    (h : t.node (l ++ [n]) = some (.link absolute target)) (links : Nat)
    (rest : List (Component N)) :
    t.walk (links + 1) l (.name n :: rest) =
      t.walk links (if absolute then [] else l) (target ++ rest) := by
  rw [walk, scan, h]

theorem walk_link_zero {absolute : Bool} {target : List (Component N)}
    (h : t.node (l ++ [n]) = some (.link absolute target)) (rest : List (Component N)) :
    t.walk 0 l (.name n :: rest) = .loop := by
  rw [walk, scan, h]

/-- Induction along a walk up to the next link: on the components. -/
private theorem scan_induction (t : DirTree N F) {motive : List N → List (Component N) → Prop}
    (nil : ∀ l, motive l [])
    (self : ∀ l rest, motive l rest → motive l (.self :: rest))
    (parent : ∀ l rest, motive l.dropLast rest → motive l (.parent :: rest))
    (directory : ∀ l n rest, t.node (l ++ [n]) = some .directory →
      motive (l ++ [n]) rest → motive l (.name n :: rest))
    (file : ∀ l n rest contents, t.node (l ++ [n]) = some (.file contents) →
      motive l (.name n :: rest))
    (missing : ∀ l n rest, t.node (l ++ [n]) = none → motive l (.name n :: rest))
    (link : ∀ l n rest absolute target, t.node (l ++ [n]) = some (.link absolute target) →
      motive l (.name n :: rest))
    (l : List N) (c : List (Component N)) : motive l c := by
  induction c generalizing l with
  | nil => exact nil l
  | cons x rest ih =>
    cases x with
    | self => exact self l rest (ih l)
    | parent => exact parent l rest (ih l.dropLast)
    | name n =>
      cases h : t.node (l ++ [n]) with
      | none => exact missing l n rest h
      | some node =>
        cases node with
        | directory => exact directory l n rest h (ih (l ++ [n]))
        | file contents => exact file l n rest contents h
        | link absolute target => exact link l n rest absolute target h

/-- Induction along a walk: on the number of links left, and on the components up to the next
link. -/
theorem walk_induction (t : DirTree N F)
    {motive : Nat → List N → List (Component N) → Prop}
    (nil : ∀ links l, motive links l [])
    (self : ∀ links l rest, motive links l rest → motive links l (.self :: rest))
    (parent : ∀ links l rest, motive links l.dropLast rest → motive links l (.parent :: rest))
    (directory : ∀ links l n rest, t.node (l ++ [n]) = some .directory →
      motive links (l ++ [n]) rest → motive links l (.name n :: rest))
    (file : ∀ links l n rest contents, t.node (l ++ [n]) = some (.file contents) →
      motive links l (.name n :: rest))
    (missing : ∀ links l n rest, t.node (l ++ [n]) = none → motive links l (.name n :: rest))
    (limit : ∀ l n rest absolute target, t.node (l ++ [n]) = some (.link absolute target) →
      motive 0 l (.name n :: rest))
    (link : ∀ links l n rest absolute target,
      t.node (l ++ [n]) = some (.link absolute target) →
      motive links (if absolute then [] else l) (target ++ rest) →
      motive (links + 1) l (.name n :: rest))
    (links : Nat) (l : List N) (c : List (Component N)) : motive links l c := by
  induction links generalizing l c with
  | zero =>
    exact scan_induction t (nil 0) (self 0) (parent 0) (directory 0) (file 0) (missing 0) limit l c
  | succ links ih =>
    apply scan_induction t (nil _) (self _) (parent _) (directory _) (file _) (missing _)
    intro l n rest absolute target h
    exact link links l n rest absolute target h (ih _ _)

/-! ### The tree above a location -/

/-- What holds something is a directory. -/
theorem directory_of_node {x : Node N F} (h : t.node (l ++ [n]) = some x) :
    t.node l = some .directory := by
  apply t.parent l n
  rw [h]
  exact Option.some_ne_none x

/-- What stands above a location that is taken is a directory. -/
theorem directory_of_append {d : List N} (h : t.node (l ++ d) ≠ none) (hd : d ≠ []) :
    t.node l = some .directory := by
  induction d using List.reverseRecOn with
  | nil => exact absurd rfl hd
  | append_singleton d n ih =>
    rw [← List.append_assoc] at h
    have hp : t.node (l ++ d) = some .directory := t.parent _ n h
    by_cases hn : d = []
    · rw [hn, List.append_nil] at hp
      exact hp
    · apply ih _ hn
      rw [hp]
      exact Option.some_ne_none _

/-- So is what a directory stands in. -/
theorem directory_dropLast (h : t.node l = some .directory) :
    t.node l.dropLast = some .directory := by
  induction l using List.reverseRecOn with
  | nil => exact h
  | append_singleton l n ih =>
    rw [List.dropLast_concat]
    exact directory_of_node h

/-- The location of a directory leads to it, through no link. -/
theorem walk_names (links : Nat) {d : List N} (h : t.node (l ++ d) = some .directory)
    (rest : List (Component N)) :
    t.walk links l (d.map .name ++ rest) = t.walk links (l ++ d) rest := by
  induction d generalizing l with
  | nil => rw [List.map_nil, List.nil_append, List.append_nil]
  | cons n d ih =>
    have hd : t.node (l ++ [n] ++ d) = some .directory := by
      rw [List.append_assoc]
      exact h
    have hn : t.node (l ++ [n]) = some .directory := by
      by_cases he : d = []
      · rw [he, List.append_nil] at hd
        exact hd
      · exact directory_of_append (by rw [hd]; exact Option.some_ne_none _) he
    rw [List.map_cons, List.cons_append, walk_directory links hn, ih hd, List.append_assoc]
    rfl

/-! ### Where a walk ends -/

/-- A resolution is true of the tree. -/
def Resolution.Holds (t : DirTree N F) : Resolution N → Prop
  | .directory l => t.node l = some .directory
  | .file l => ∃ contents, t.node l = some (.file contents)
  | .absent l => t.node l = none ∧ ∃ d n, l = d ++ [n] ∧ t.node d = some .directory
  | .lost | .loop => True

/-- A walk from a directory ends where it says. -/
theorem holds_walk (links : Nat) (c : List (Component N)) (h : t.node l = some .directory) :
    (t.walk links l c).Holds t := by
  induction links, l, c using walk_induction t with
  | nil links l =>
    rw [walk_nil]
    exact h
  | self links l rest ih =>
    rw [walk_self]
    exact ih h
  | parent links l rest ih =>
    rw [walk_parent]
    exact ih (directory_dropLast h)
  | directory links l n rest hn ih =>
    rw [walk_directory links hn]
    exact ih hn
  | file links l n rest contents hn =>
    rw [walk_file links hn]
    split
    · exact ⟨contents, hn⟩
    · trivial
  | missing links l n rest hn =>
    rw [walk_none links hn]
    split
    · exact ⟨hn, l, n, rfl, h⟩
    · trivial
  | limit l n rest absolute target hn =>
    rw [walk_link_zero hn]
    trivial
  | link links l n rest absolute target hn ih =>
    rw [walk_link hn]
    apply ih
    split
    · exact t.root
    · exact h

/-- A path that leads to a directory can be walked first, and the rest from there. -/
theorem walk_append {a : List (Component N)} {d : List N}
    (h : t.walk links l a = .directory d) :
    ∃ links' ≤ links, ∀ b, t.walk links l (a ++ b) = t.walk links' d b := by
  induction links, l, a using walk_induction t with
  | nil links l =>
    rw [walk_nil] at h
    cases h
    exact ⟨links, Nat.le_refl _, fun _ ↦ rfl⟩
  | self links l rest ih =>
    simp only [walk_self, List.cons_append] at h ⊢
    exact ih h
  | parent links l rest ih =>
    simp only [walk_parent, List.cons_append] at h ⊢
    exact ih h
  | directory links l n rest hn ih =>
    simp only [walk_directory _ hn, List.cons_append] at h ⊢
    exact ih h
  | file links l n rest contents hn =>
    rw [walk_file links hn] at h
    split at h
    · cases h
    · cases h
  | missing links l n rest hn =>
    rw [walk_none links hn] at h
    split at h
    · cases h
    · cases h
  | limit l n rest absolute target hn =>
    rw [walk_link_zero hn] at h
    cases h
  | link links l n rest absolute target hn ih =>
    rw [walk_link hn] at h
    obtain ⟨links', hle, hb⟩ := ih h
    refine ⟨links', Nat.le_succ_of_le hle, fun b ↦ ?_⟩
    rw [List.cons_append, walk_link hn, ← List.append_assoc]
    exact hb b

/-- A walk that gets to its last component has led to a directory before. -/
theorem walk_prefix {a b : List (Component N)} (hb : b ≠ [])
    (hl : t.walk links l (a ++ b) ≠ .lost) (ho : t.walk links l (a ++ b) ≠ .loop) :
    ∃ d, t.walk links l a = .directory d := by
  induction links, l, a using walk_induction t with
  | nil links l => exact ⟨l, walk_nil links l⟩
  | self links l rest ih =>
    simp only [walk_self, List.cons_append] at hl ho ⊢
    exact ih hl ho
  | parent links l rest ih =>
    simp only [walk_parent, List.cons_append] at hl ho ⊢
    exact ih hl ho
  | directory links l n rest hn ih =>
    simp only [walk_directory _ hn, List.cons_append] at hl ho ⊢
    exact ih hl ho
  | file links l n rest contents hn =>
    have hne : rest ++ b ≠ [] := List.append_ne_nil_of_right_ne_nil rest hb
    rw [List.cons_append, walk_file links hn, if_neg hne] at hl
    exact absurd rfl hl
  | missing links l n rest hn =>
    have hne : rest ++ b ≠ [] := List.append_ne_nil_of_right_ne_nil rest hb
    rw [List.cons_append, walk_none links hn, if_neg hne] at hl
    exact absurd rfl hl
  | limit l n rest absolute target hn =>
    rw [List.cons_append, walk_link_zero hn] at ho
    exact absurd rfl ho
  | link links l n rest absolute target hn ih =>
    rw [List.cons_append, walk_link hn, ← List.append_assoc] at hl ho
    rw [walk_link hn]
    exact ih hl ho

/-- So has every walk that ends at a directory. -/
theorem walk_prefix_directory {a b : List (Component N)} {d : List N}
    (h : t.walk links l (a ++ b) = .directory d) : ∃ d', t.walk links l a = .directory d' := by
  by_cases hb : b = []
  · rw [hb, List.append_nil] at h
    exact ⟨d, h⟩
  · apply walk_prefix hb
    · rw [h]
      intro he
      cases he
    · rw [h]
      intro he
      cases he

/-- More links do not change where a walk ends that had enough. -/
theorem walk_mono {c : List (Component N)} {links' : Nat} (hle : links ≤ links')
    (h : t.walk links l c ≠ .loop) : t.walk links' l c = t.walk links l c := by
  induction links, l, c using walk_induction t generalizing links' with
  | nil links l => rw [walk_nil, walk_nil]
  | self links l rest ih =>
    rw [walk_self] at h
    rw [walk_self, walk_self, ih hle h]
  | parent links l rest ih =>
    rw [walk_parent] at h
    rw [walk_parent, walk_parent, ih hle h]
  | directory links l n rest hn ih =>
    rw [walk_directory links hn] at h
    rw [walk_directory links hn, walk_directory links' hn, ih hle h]
  | file links l n rest contents hn => rw [walk_file links hn, walk_file links' hn]
  | missing links l n rest hn => rw [walk_none links hn, walk_none links' hn]
  | limit l n rest absolute target hn => exact absurd (walk_link_zero hn _) h
  | link links l n rest absolute target hn ih =>
    cases links' with
    | zero => omega
    | succ links' =>
      rw [walk_link hn] at h
      rw [walk_link hn, walk_link hn, ih (by omega) h]

/-- A location that is found leads to itself. -/
theorem walk_found (links : Nat) {r : Resolution N} (h : r.Holds t) {l : List N}
    (hf : r.found = some l) : t.walk links [] (l.map .name) = r := by
  cases r with
  | directory d =>
    obtain rfl := Option.some.inj hf
    have hw := walk_names (t := t) links (l := []) (d := d) h []
    rw [List.append_nil, walk_nil] at hw
    exact hw
  | file d =>
    obtain rfl := Option.some.inj hf
    obtain ⟨contents, hc⟩ := h
    induction d using List.reverseRecOn with
    | nil => rw [t.root] at hc; cases hc
    | append_singleton d n ih =>
      have hd : t.node d = some .directory := directory_of_node hc
      rw [List.map_append, walk_names (t := t) links (l := []) (d := d) hd]
      exact walk_file links hc []
  | absent d => cases hf
  | lost => cases hf
  | loop => cases hf

/-- A walk ends with nothing but a missing name where its last component is a name that is
missing in the directory before it, or that of a link. -/
theorem walk_absent {c : List (Component N)} {missing : List N}
    (h : t.walk links l c = .absent missing) :
    ∃ a n d, c = a ++ [.name n] ∧ t.walk links l a = .directory d ∧
      (missing = d ++ [n] ∨ ∃ absolute target,
        t.node (d ++ [n]) = some (.link absolute target)) := by
  induction c using List.reverseRecOn with
  | nil =>
    rw [walk_nil] at h
    cases h
  | append_singleton a x ih =>
    obtain ⟨d, hd⟩ : ∃ d, t.walk links l a = .directory d := by
      apply walk_prefix (b := [x]) (List.cons_ne_nil _ _)
      · rw [h]
        intro he
        cases he
      · rw [h]
        intro he
        cases he
    obtain ⟨links', hle, hw⟩ := walk_append hd
    rw [hw] at h
    cases x with
    | self => rw [walk_self, walk_nil] at h; cases h
    | parent => rw [walk_parent, walk_nil] at h; cases h
    | name n =>
      refine ⟨a, n, d, rfl, hd, ?_⟩
      cases hn : t.node (d ++ [n]) with
      | none =>
        rw [walk_none links' hn, if_pos rfl] at h
        exact .inl (Resolution.absent.inj h).symm
      | some node =>
        cases node with
        | directory => rw [walk_directory links' hn, walk_nil] at h; cases h
        | file contents => rw [walk_file links' hn, if_pos rfl] at h; cases h
        | link absolute target => exact .inr ⟨absolute, target, rfl⟩

/-! ### Writing a file -/

/-- Whether a directory stands at a location. -/
def isDirectory (t : DirTree N F) (l : List N) : Bool :=
  match t.node l with
  | some .directory => true
  | _ => false

theorem isDirectory_iff : t.isDirectory l = true ↔ t.node l = some .directory := by
  unfold isDirectory
  split
  · next h => simp [h]
  · next h => simpa using h

/-- The contents of the file at a location. -/
def contents (t : DirTree N F) (l : List N) : Option F :=
  match t.node l with
  | some (.file contents) => some contents
  | _ => none

/-- Whether a file can stand at a location: in a directory, and where no directory is. -/
def canHold (t : DirTree N F) (l : List N) : Bool :=
  t.isDirectory l.dropLast && !t.isDirectory l

/-- A file can stand where a walk found one or missed its name. -/
theorem canHold_of_absent (h : (Resolution.absent l).Holds t) : t.canHold l := by
  obtain ⟨hn, d, n, rfl, hd⟩ := h
  have hi : t.isDirectory (d ++ [n]) = false := by
    rw [isDirectory, hn]
  rw [canHold, List.dropLast_concat, isDirectory_iff.mpr hd, hi]
  rfl

/-- A file stands where one can stand. -/
theorem canHold_of_file {contents : F} (h : t.node l = some (.file contents)) :
    t.canHold l := by
  have hi : t.isDirectory l = false := by
    rw [isDirectory, h]
  have hd : t.node l.dropLast = some .directory := by
    induction l using List.reverseRecOn with
    | nil =>
      rw [t.root] at h
      cases h
    | append_singleton d n ih =>
      rw [List.dropLast_concat]
      exact directory_of_node h
  rw [canHold, isDirectory_iff.mpr hd, hi]
  rfl

/-- The tree with this file at a location; the tree itself where no file can stand. -/
def put [DecidableEq N] (t : DirTree N F) (l : List N) (contents : F) : DirTree N F where
  node l' := if l' = l ∧ t.canHold l then some (.file contents) else t.node l'
  root := by
    rw [if_neg]
    · exact t.root
    · rintro ⟨rfl, h⟩
      simp [canHold, isDirectory, t.root] at h
  parent := by
    intro d n h
    by_cases hl : d ++ [n] = l ∧ t.canHold l
    · obtain ⟨rfl, hc⟩ := hl
      rw [if_neg (by simp)]
      rw [canHold, List.dropLast_concat, Bool.and_eq_true] at hc
      exact isDirectory_iff.mp hc.1
    · rw [if_neg hl] at h
      have hd : t.node d = some .directory := t.parent d n h
      rw [if_neg]
      · exact hd
      · rintro ⟨rfl, hc⟩
        simp [canHold, isDirectory_iff.mpr hd] at hc

variable [DecidableEq N]

/-- The file that was written. -/
theorem node_put_self (h : t.canHold l) (contents : F) :
    (t.put l contents).node l = some (.file contents) := if_pos ⟨rfl, h⟩

/-- Directories stay. -/
theorem node_put_of_directory {d : List N} (h : t.node d = some .directory) (l : List N)
    (contents : F) : (t.put l contents).node d = some .directory := by
  have hc : ¬(d = l ∧ t.canHold l) := by
    rintro ⟨rfl, hc⟩
    simp [canHold, isDirectory_iff.mpr h] at hc
  rw [put]
  exact (if_neg hc).trans h

/-- Nothing goes away. -/
theorem node_put_ne_none {l' : List N} (h : t.node l' ≠ none) (l : List N) (contents : F) :
    (t.put l contents).node l' ≠ none := by
  by_cases hc : l' = l ∧ t.canHold l
  · rw [hc.1, node_put_self hc.2]
    exact Option.some_ne_none _
  · rw [put]
    exact fun he ↦ h ((if_neg hc).symm.trans he)

/-- Everything else is as before. -/
theorem node_put_of_ne {l' : List N} (h : l' ≠ l) (contents : F) :
    (t.put l contents).node l' = t.node l' := if_neg fun hc ↦ h hc.1

end DirTree
end CppTftp.Lib
