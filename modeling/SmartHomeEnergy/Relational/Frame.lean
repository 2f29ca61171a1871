import Mathlib.Data.List.Dedup
import Mathlib.Data.Rat.Init

/-!
# Data frames

A data frame is a list of named columns of the same length. What is done to frames here is
done to make the rows of a model: a column of texts becomes one column of zeros and ones for
each text that occurs (`Relational.Frame.getDummies`), a column that is missing is inserted
with one value (`Relational.Frame.fill`), and columns are taken out or put in a given order
(`Relational.Frame.drop`, `Relational.Frame.select`). Asking for a column that is not there
raises, and the result is then `none`.

Filling up with zeros and selecting is one function of the names that are asked for
(`Relational.Frame.select_fill`): a column that was there keeps its cells, and every other
one is zero.
-/

namespace Relational

/-- A cell. -/
inductive Cell
  | number (q : ℚ)
  | text (s : String)
  deriving DecidableEq

/-- One for true and zero for false. -/
def Cell.indicator (p : Prop) [Decidable p] : Cell := .number (if p then 1 else 0)

/-- The text of a cell, if it is one. -/
def Cell.toText : Cell → Option String
  | .number _ => none
  | .text s => some s

/-- A data frame: its columns, in order. -/
abbrev Frame := List (String × List Cell)

namespace Frame

/-- The names of the columns. -/
def names (f : Frame) : List String := f.map (·.1)

/-- The cells of a column. -/
def column (f : Frame) (name : String) : Option (List Cell) :=
  (f.find? fun c => c.1 = name).map (·.2)

/-- The number of rows. -/
def height (f : Frame) : ℕ := (f.head?.map (·.2.length)).getD 0

/-- A row, with the names of its columns. -/
def row (f : Frame) (i : ℕ) : List (String × Option Cell) := f.map fun c => (c.1, c.2[i]?)

/-- `drop(columns=…)`. -/
def drop (dropped : List String) (f : Frame) : Frame := f.filter fun c => c.1 ∉ dropped

/-- `f[selected]`: these columns, in this order. -/
def select (selected : List String) (f : Frame) : Option Frame :=
  selected.mapM fun name => (f.column name).map fun cells => (name, cells)

/-- The texts of a column, each once and in order. -/
def categories (cells : List Cell) : List String :=
  (cells.filterMap Cell.toText).dedup.mergeSort fun a b => decide (a ≤ b)

/-- One column for each text of a column, which says where the text stands. -/
def dummies (name : String) (cells : List Cell) : Frame :=
  (categories cells).map fun z =>
    (name ++ "_" ++ z, cells.map fun c => Cell.indicator (c.toText = some z))

/-- `get_dummies(f, columns=…)`: the columns are replaced by their dummies, at the end. -/
def getDummies (encoded : List String) (f : Frame) : Option Frame :=
  (encoded.mapM fun name => (f.column name).map (dummies name)).map fun ds =>
    f.drop encoded ++ ds.flatten

/-- `if name not in f.columns: f[name] = value`. -/
def setDefault (value : Cell) (f : Frame) (name : String) : Frame :=
  if name ∈ f.names then f else f ++ [(name, List.replicate f.height value)]

/-- The columns that are missing, one after the other. -/
def fill (value : Cell) (missing : List String) (f : Frame) : Frame :=
  missing.foldl (setDefault value) f

/-! ### Filling up and selecting -/

section Fill

variable {value : Cell} {f : Frame} {name other : String}

theorem mem_categories {cells : List Cell} {z : String} :
    z ∈ categories cells ↔ Cell.text z ∈ cells := by
  simp only [categories, List.mem_mergeSort, List.mem_dedup, List.mem_filterMap]
  constructor
  · rintro ⟨c, hc, hz⟩
    cases c with
    | number q => simp [Cell.toText] at hz
    | text s => rwa [← Option.some.inj hz]
  · exact fun h => ⟨_, h, rfl⟩

theorem nodup_categories (cells : List Cell) : (categories cells).Nodup :=
  (List.mergeSort_perm _ _).nodup_iff.mpr (List.nodup_dedup _)

theorem column_eq_none : f.column name = none ↔ name ∉ f.names := by
  rw [column, Option.map_eq_none_iff, List.find?_eq_none, names, List.mem_map]
  push Not
  exact forall₂_congr fun c _ => by simp

theorem setDefault_ne_nil (hf : f ≠ []) : setDefault value f name ≠ [] := by
  rw [setDefault]
  split
  · exact hf
  · simp

theorem height_setDefault (hf : f ≠ []) : (setDefault value f name).height = f.height := by
  rw [setDefault]
  split
  · rfl
  · obtain ⟨c, cs, rfl⟩ := List.exists_cons_of_ne_nil hf
    rfl

/-- A missing column is inserted, and the others stay. -/
theorem column_setDefault : (setDefault value f name).column other =
    (f.column other).or
      (if other = name then some (List.replicate f.height value) else none) := by
  rw [setDefault]
  split
  next hmem =>
    by_cases ho : other = name
    · obtain ⟨cells, hcells⟩ := Option.ne_none_iff_exists'.mp
        fun hnone => column_eq_none.mp hnone (ho ▸ hmem)
      rw [hcells]
      rfl
    · simp [ho]
  next hmem =>
    rw [column, List.find?_append, column]
    by_cases ho : other = name
    · subst ho
      cases f.find? fun c => decide (c.1 = other) <;> simp
    · cases f.find? fun c => decide (c.1 = other) <;> simp [ho, Ne.symm ho]

theorem fill_cons (missing : List String) :
    fill value (name :: missing) f = fill value missing (setDefault value f name) := rfl

/-- **After filling up** a column is what it was, or constant. -/
theorem column_fill (missing : List String) : ∀ {f : Frame}, f ≠ [] →
    (fill value missing f).column other = (f.column other).or
      (if other ∈ missing then some (List.replicate f.height value) else none) := by
  induction missing with
  | nil => intro f _; simp [fill]
  | cons name missing ih =>
    intro f hf
    rw [fill_cons, ih (setDefault_ne_nil hf), column_setDefault, height_setDefault hf,
      Option.or_assoc]
    refine congrArg (Option.or _) ?_
    by_cases ho : other = name <;> by_cases hm : other ∈ missing <;> simp [ho, hm]

theorem mapM_eq_some {α β : Type*} {g : α → Option β} {h : α → β} {l : List α}
    (hl : ∀ a ∈ l, g a = some (h a)) : l.mapM g = some (l.map h) := by
  induction l with
  | nil => rfl
  | cons a l ih =>
    rw [List.mapM_cons, hl a List.mem_cons_self, ih fun b hb => hl b (List.mem_cons_of_mem _ hb)]
    rfl

/-- **Filling up and selecting**: every name that is asked for is there, with its old cells
or with the constant. -/
theorem select_fill (selected : List String) (hf : f ≠ []) :
    (fill value selected f).select selected =
      some (selected.map fun name =>
        (name, (f.column name).getD (List.replicate f.height value))) := by
  have hcolumn : ∀ name ∈ selected, ((fill value selected f).column name).map
      (fun cells => (name, cells)) =
        some (name, (f.column name).getD (List.replicate f.height value)) := by
    intro name hname
    rw [column_fill selected hf, if_pos hname]
    cases f.column name <;> rfl
  exact mapM_eq_some hcolumn

end Fill

end Frame

end Relational
