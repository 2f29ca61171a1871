import Mathlib.Data.List.Infix
import Mathlib.Data.List.Induction
import Mathlib.Data.List.TakeDrop

/-!
# Paths

A path is read as its segments, the strings between the slashes, and resolved one by one from a
position in the tree of directories, the list of names on the way there: an empty segment and `.`
stay, `..` goes up – at the root it stays –, and any other segment is a name to go down
(`Posix.resolve`). Joining two paths puts a slash between them, unless the second one starts at
the root and replaces the first (`Posix.join`); what the join resolves to is what the second path
resolves to from the first (`Posix.normPath_join`).

Segments have a normal form that does not depend on the position: a number of steps up, and the
names that come after them (`Posix.relative`). It says where the segments lead from any position
(`Posix.resolve_eq`), and so whether they lead back under it (`Posix.prefix_resolve_iff`).

A file system knows of every position whether there is a directory or a file, without links
(`Posix.FileSystem`). A path exists in it if it can be walked: every segment is looked up in a
directory that is there (`Posix.FileSystem.pathExists`).
-/

namespace Posix

/-- A segment of a path, or a name in a directory. -/
abbrev Name := List Char

/-! ### Segments -/

/-- The strings between the slashes. -/
def segments : List Char → List Name
  | [] => [[]]
  | c :: s =>
    if c = '/' then [] :: segments s
    else
      match segments s with
      | [] => [[c]]
      | first :: rest => (c :: first) :: rest

theorem segments_ne_nil (s : List Char) : segments s ≠ [] := by
  cases s with
  | nil => simp [segments]
  | cons c s =>
    rw [segments]
    split
    · simp
    · split <;> simp

/-- A slash separates the segments before it from those after it. -/
theorem segments_append_slash : ∀ a b : List Char,
    segments (a ++ '/' :: b) = segments a ++ segments b
  | [], b => by simp [segments]
  | c :: a, b => by
    have ih := segments_append_slash a b
    obtain ⟨first, rest, ha⟩ := List.exists_cons_of_ne_nil (segments_ne_nil a)
    rw [List.cons_append, segments, segments, ih, ha]
    split <;> rfl

/-- Characters that are not slashes belong to the first segment. -/
theorem segments_append_of_no_slash {p : List Char} (hp : '/' ∉ p) {s : List Char} {first : Name}
    {rest : List Name} (hs : segments s = first :: rest) :
    segments (p ++ s) = (p ++ first) :: rest := by
  induction p with
  | nil => exact hs
  | cons c p ih =>
    obtain ⟨hc, hp⟩ := not_or.mp (List.mem_cons.not.mp hp)
    rw [List.cons_append, segments, if_neg (Ne.symm hc), ih hp]
    rfl

/-! ### Positions -/

/-- One segment further. -/
def climb (pos : List Name) (segment : Name) : List Name :=
  if segment = [] ∨ segment = ['.'] then pos
  else if segment = ['.', '.'] then pos.dropLast
  else pos ++ [segment]

/-- Where segments lead from a position. -/
def resolve (pos segs : List Name) : List Name := segs.foldl climb pos

/-- Where a path leads from the root. -/
def normPath (path : String) : List Name := resolve [] (segments path.toList)

@[simp] theorem resolve_nil (pos : List Name) : resolve pos [] = pos := rfl

@[simp] theorem resolve_cons (pos : List Name) (s : Name) (segs : List Name) :
    resolve pos (s :: segs) = resolve (climb pos s) segs := rfl

theorem resolve_append (pos segs segs' : List Name) :
    resolve pos (segs ++ segs') = resolve (resolve pos segs) segs' := List.foldl_append ..

/-- A name that is none of the three special ones is gone down to. -/
theorem climb_of_name {s : Name} (hs : s ≠ [] ∧ s ≠ ['.'] ∧ s ≠ ['.', '.']) (pos : List Name) :
    climb pos s = pos ++ [s] := by
  rw [climb, if_neg (not_or.mpr ⟨hs.1, hs.2.1⟩), if_neg hs.2.2]

/-! ### Joining -/

/-- A path starts at the root. -/
def IsAbsolute (path : String) : Prop := path.toList.head? = some '/'

instance (path : String) : Decidable (IsAbsolute path) :=
  inferInstanceAs (Decidable (_ = some '/'))

/-- `os.path.join` of two paths. -/
def join (a b : String) : String :=
  if IsAbsolute b then b
  else if a = "" ∨ a.toList.getLast? = some '/' then a ++ b
  else a ++ "/" ++ b

/-- **A join** leads where the second path leads from the first, or from the root. -/
theorem normPath_join (a b : String) :
    normPath (join a b) =
      if IsAbsolute b then normPath b else resolve (normPath a) (segments b.toList) := by
  rw [join]
  split
  next => rfl
  next =>
    rw [normPath, normPath]
    split
    next hlast =>
      rcases hlast with rfl | hlast
      · simp [segments, climb]
      · obtain ⟨front, hfront⟩ := List.getLast?_eq_some_iff.mp hlast
        have hsplit : (a ++ b).toList = front ++ '/' :: b.toList := by
          rw [String.toList_append, hfront]
          simp
        have hpath : segments a.toList = segments front ++ segments [] := by
          rw [hfront, segments_append_slash]
        rw [hsplit, hpath, segments_append_slash, resolve_append, resolve_append]
        simp [segments, climb]
    next =>
      have hsplit : (a ++ "/" ++ b).toList = a.toList ++ '/' :: b.toList := by simp
      rw [hsplit, segments_append_slash, resolve_append]

/-! ### Segments from anywhere -/

/-- Steps up, and the names after them. -/
structure Relative where
  ups : ℕ
  names : List Name
  deriving DecidableEq

/-- One segment further. -/
def Relative.climb (r : Relative) (segment : Name) : Relative :=
  if segment = [] ∨ segment = ['.'] then r
  else if segment = ['.', '.'] then
    if r.names = [] then { r with ups := r.ups + 1 } else { r with names := r.names.dropLast }
  else { r with names := r.names ++ [segment] }

/-- **The normal form** of segments. -/
def relative (segs : List Name) : Relative := segs.foldl Relative.climb ⟨0, []⟩

theorem relative_append_singleton (segs : List Name) (s : Name) :
    relative (segs ++ [s]) = (relative segs).climb s := by
  rw [relative, List.foldl_append]
  rfl

/-- Where a normal form leads from a position. -/
def Relative.from (r : Relative) (pos : List Name) : List Name :=
  pos.take (pos.length - r.ups) ++ r.names

/-- One segment leads from anywhere where it leads in the normal form. -/
theorem climb_from (r : Relative) (pos : List Name) (s : Name) :
    climb (r.from pos) s = (r.climb s).from pos := by
  rw [Posix.climb, Relative.climb]
  split
  next => rfl
  next =>
    split
    next =>
      split
      next hnames =>
        have hlength : (pos.take (pos.length - r.ups)).length = pos.length - r.ups := by
          rw [List.length_take]
          omega
        rw [Relative.from, Relative.from, hnames, List.append_nil, List.append_nil,
          List.dropLast_eq_take, hlength, List.take_take]
        congr 1
        simp only
        omega
      next hnames =>
        rw [Relative.from, Relative.from, List.dropLast_append_of_ne_nil hnames]
    next => rw [Relative.from, Relative.from, List.append_assoc]

/-- **Where segments lead**, from any position. -/
theorem resolve_eq (pos segs : List Name) : resolve pos segs = (relative segs).from pos := by
  induction segs using List.reverseRecOn with
  | nil => simp [relative, Relative.from]
  | append_singleton segs s ih =>
    rw [resolve_append, ih, relative_append_singleton, ← climb_from]
    rfl

/-- From the root the steps up are of no avail. -/
theorem resolve_root (segs : List Name) : resolve [] segs = (relative segs).names := by
  rw [resolve_eq, Relative.from, List.take_nil, List.nil_append]

/-- Without `..` there are no steps up. -/
theorem ups_relative {segs : List Name} (h : ['.', '.'] ∉ segs) : (relative segs).ups = 0 := by
  induction segs using List.reverseRecOn with
  | nil => rfl
  | append_singleton segs s ih =>
    obtain ⟨hsegs, hs⟩ := not_or.mp (List.mem_append.not.mp h)
    have hups := ih hsegs
    rw [relative_append_singleton, Relative.climb]
    split
    next => exact hups
    next =>
      rw [if_neg fun hdots => hs (List.mem_singleton.mpr hdots.symm)]
      exact hups

theorem prefix_take_append_iff {α : Type*} (l : List α) (m : ℕ) (xs : List α) :
    l <+: l.take m ++ xs ↔ l.drop m <+: xs := by
  have hsplit : l = l.take m ++ l.drop m := (List.take_append_drop m l).symm
  constructor
  · rintro ⟨ys, hys⟩
    rw [hsplit, List.append_assoc] at hys
    have htake : (l.take m ++ l.drop m).take m = l.take m := by rw [List.take_append_drop]
    rw [htake] at hys
    exact ⟨ys, List.append_cancel_left hys⟩
  · rintro ⟨ys, rfl⟩
    exact ⟨ys, by rw [← List.append_assoc, List.take_append_drop]⟩

/-- **Segments lead back under the position** exactly when the names after the steps up begin
with what the steps up have left. -/
theorem prefix_resolve_iff (pos segs : List Name) :
    pos <+: resolve pos segs ↔
      pos.drop (pos.length - (relative segs).ups) <+: (relative segs).names := by
  rw [resolve_eq, Relative.from, prefix_take_append_iff]

/-! ### File systems -/

/-- What is at a position. -/
inductive FileKind
  | file
  | dir
  deriving DecidableEq

/-- A tree of directories and files, without links. -/
structure FileSystem where
  kind : List Name → Option FileKind
  kind_root : kind [] = some .dir
  kind_parent : ∀ pos name, kind (pos ++ [name]) ≠ none → kind pos = some .dir
  no_null : ∀ pos, kind pos ≠ none → ∀ name ∈ pos, '\x00' ∉ name

/-- The directories on the way to some files, none of which is on the way to another. -/
def FileSystem.ofFiles (files : List (List Name)) (hroot : [] ∉ files)
    (hfiles : ∀ f ∈ files, ∀ g ∈ files, f <+: g → f = g)
    (hnull : ∀ f ∈ files, ∀ name ∈ f, '\x00' ∉ name) : FileSystem where
  kind pos :=
    if pos ∈ files then some .file
    else if pos = [] ∨ ∃ f ∈ files, pos <+: f then some .dir else none
  kind_root := by simp [hroot]
  kind_parent pos name h := by
    have hbelow : ∃ f ∈ files, pos ++ [name] <+: f := by
      by_contra hnone
      have hfile : pos ++ [name] ∉ files := fun hmem => hnone ⟨_, hmem, List.prefix_refl _⟩
      rw [if_neg hfile, if_neg (not_or.mpr ⟨by simp, hnone⟩)] at h
      exact h rfl
    obtain ⟨f, hf, hprefix⟩ := hbelow
    have hpos : pos <+: f := (List.prefix_append pos [name]).trans hprefix
    have hdir : pos ∉ files := by
      intro hmem
      have hlength := hprefix.length_le
      rw [← hfiles pos hmem f hf hpos, List.length_append, List.length_singleton] at hlength
      omega
    rw [if_neg hdir, if_pos (Or.inr ⟨f, hf, hpos⟩)]
  no_null pos h name hname := by
    split at h
    next hpos => exact hnull pos hpos name hname
    next =>
      split at h
      next hdir =>
        obtain rfl | ⟨f, hf, hpos⟩ := hdir
        · exact absurd hname List.not_mem_nil
        · exact hnull f hf name (hpos.subset hname)
      next => exact absurd rfl h

namespace FileSystem

variable (fs : FileSystem)

/-- Walking along segments: each is looked up in the directory that has been reached. -/
def walk : List Name → List Name → Option (List Name)
  | pos, [] => some pos
  | pos, s :: segs =>
    if fs.kind pos = some .dir ∧ fs.kind (climb pos s) ≠ none then walk (climb pos s) segs else none

/-- `os.path.exists`, of a path that starts at the root. -/
def pathExists (path : String) : Bool := (fs.walk [] (segments path.toList)).isSome

end FileSystem

end Posix
