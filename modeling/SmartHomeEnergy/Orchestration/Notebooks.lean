import SmartHomeEnergy.Posix.Path

/-!
# The notebook server and its directory

`trigger_notebook` takes a name from the network and joins it to `BASE_DIR`; if there is nothing
at that path it answers 404, and otherwise it queues the name. `run_notebook_task` looks again,
some time later, and starts papermill on the path, with an output path that joins the name behind
`output_` to `BASE_DIR`. That there is something at the input path is all that is ever checked.

The two paths are joined differently. A name that starts at the root replaces `BASE_DIR` in the
input path, not in the output path, where its first segment is `output_`. And a name whose first
segment is followed by `..` loses `output_` again: the output of `archive/../x.ipynb` is
`output_archive/../x.ipynb`, the notebook itself. The paths stay inside, and the output path is
not an input notebook's, exactly when the steps up of the name lead back under `BASE_DIR`, and to
no input notebook (`SmartHomeEnergy.staysInside_iff`). Relative names without `..` are of that
kind (`SmartHomeEnergy.staysInside_of_no_dotdot`), and so are all those that the DAGs send
(`SmartHomeEnergy.staysInside_dagNotebooks`).
-/

namespace SmartHomeEnergy

open Posix

/-! ### The server -/

/-- `BASE_DIR`. -/
def baseDir : String := "/home/jovyan/work/processing"

/-- `os.path.join(BASE_DIR, notebook_name)`. -/
def inputPath (notebookName : String) : String := join baseDir notebookName

/-- `os.path.join(BASE_DIR, f"output_{notebook_name}")`. -/
def outputPath (notebookName : String) : String := join baseDir ("output_" ++ notebookName)

/-- The answer to a request. -/
inductive TriggerResponse
  | notFound (detail : String)
  | queued (message : String)
  deriving DecidableEq

/-- `trigger_notebook`, with the names it adds to the background tasks. -/
def triggerNotebook (fs : FileSystem) (notebookName : String) : TriggerResponse × List String :=
  if ¬fs.pathExists (inputPath notebookName) then
    (.notFound ("ملف الـ Notebook المطلوب غير متوفر: " ++ notebookName), [])
  else
    (.queued ("تمت الجدولة وبدء تشغيل '" ++ notebookName ++ "' بنجاح في الخلفية."),
      [notebookName])

/-- The arguments of papermill. -/
structure Papermill where
  inputPath : String
  outputPath : String
  deriving DecidableEq

/-- `run_notebook_task`: papermill is started, or nothing is. -/
def runNotebookTask (fs : FileSystem) (notebookName : String) : Option Papermill :=
  if ¬fs.pathExists (inputPath notebookName) then none
  else some ⟨inputPath notebookName, outputPath notebookName⟩

/-! ### The directory -/

/-- Where `BASE_DIR` is. -/
def base : List Name := normPath baseDir

/-- **An input notebook**: a file under `BASE_DIR` whose path from there does not start with
`output_`. -/
def InputNotebook (fs : FileSystem) (p : List Name) : Prop :=
  fs.kind p = some .file ∧ ∃ name rest, p = base ++ name :: rest ∧ ¬"output_".toList <+: name

/-- Both paths are under `BASE_DIR`, and the output is no input notebook. -/
structure InsideDirectory (fs : FileSystem) (run : Papermill) : Prop where
  input : base <+: normPath run.inputPath
  output : base <+: normPath run.outputPath
  fresh : ∀ p, InputNotebook fs p → normPath run.outputPath ≠ p

/-- **A name stays inside**: if it is not answered with 404 and papermill is started later, when
the files may be others, it is started inside the directory. -/
def StaysInside (fs fs' : FileSystem) (notebookName : String) : Prop :=
  (∀ detail, (triggerNotebook fs notebookName).1 ≠ .notFound detail) →
    ∀ run, runNotebookTask fs' notebookName = some run → InsideDirectory fs' run

/-- The steps up of a name, from `BASE_DIR` or from the root, lead back under `BASE_DIR`. -/
def InputContained (notebookName : String) : Prop :=
  let r := relative (segments notebookName.toList)
  if IsAbsolute notebookName then base <+: r.names else base.drop (base.length - r.ups) <+: r.names

/-- After its first segment a name has no steps up, or they lead back under `BASE_DIR` and not to
an input notebook. -/
def OutputContained (fs : FileSystem) (notebookName : String) : Prop :=
  let r := relative (segments notebookName.toList).tail
  r.ups = 0 ∨
    ∃ more, r.names = base.drop (base.length + 1 - r.ups) ++ more ∧ ¬InputNotebook fs (base ++ more)

section Inside

variable {fs fs' : FileSystem} {notebookName : String}

/-- Where the input path leads. -/
theorem prefix_inputPath_iff :
    base <+: normPath (inputPath notebookName) ↔ InputContained notebookName := by
  rw [inputPath, normPath_join, InputContained]
  split
  next => rw [normPath, resolve_root]
  next => exact prefix_resolve_iff base _

/-- Where the output path leads: to the first segment behind `output_`, and on from there. -/
theorem normPath_outputPath {first : Name} {rest : List Name}
    (hsegs : segments notebookName.toList = first :: rest) :
    normPath (outputPath notebookName) =
      resolve (base ++ ["output_".toList ++ first]) rest := by
  have hsplit : segments ("output_" ++ notebookName).toList =
      ("output_".toList ++ first) :: rest := by
    rw [String.toList_append]
    exact segments_append_of_no_slash (by decide) hsegs
  have hrelative : ¬IsAbsolute ("output_" ++ notebookName) := by
    rw [IsAbsolute, String.toList_append]
    exact fun h => absurd (Option.some.inj h) (by decide)
  rw [outputPath, normPath_join, if_neg hrelative, hsplit, resolve_cons, climb_of_name]
  · rfl
  · refine ⟨List.cons_ne_nil _ _, ?_, ?_⟩ <;>
      exact fun h => absurd (List.head_eq_of_cons_eq h) (by decide)

/-- Without steps up the output path keeps its `output_`. -/
theorem prefix_and_fresh_of_output (first : Name) (names : List Name) :
    base <+: base ++ ["output_".toList ++ first] ++ names ∧
      ∀ p, InputNotebook fs p → base ++ ["output_".toList ++ first] ++ names ≠ p := by
  rw [List.append_assoc]
  refine ⟨List.prefix_append _ _, ?_⟩
  rintro p ⟨-, name, rest, rfl, hname⟩ hp
  obtain ⟨rfl, -⟩ := List.cons.inj (List.append_cancel_left hp)
  exact hname (List.prefix_append _ _)

/-- With steps up it is what the names after them make of `BASE_DIR`. -/
theorem prefix_and_fresh_iff (m : ℕ) (names : List Name) :
    (base <+: base.take m ++ names ∧ ∀ p, InputNotebook fs p → base.take m ++ names ≠ p) ↔
      ∃ more, names = base.drop m ++ more ∧ ¬InputNotebook fs (base ++ more) := by
  have htake (more : List Name) : base.take m ++ (base.drop m ++ more) = base ++ more := by
    rw [← List.append_assoc, List.take_append_drop]
  rw [prefix_take_append_iff]
  constructor
  · rintro ⟨⟨more, rfl⟩, hfresh⟩
    exact ⟨more, rfl, fun hinput => hfresh _ hinput (htake more)⟩
  · rintro ⟨more, rfl, hfresh⟩
    refine ⟨List.prefix_append _ _, fun p hp hmore => hfresh ?_⟩
    rwa [← htake more, hmore]

/-- The output path is under `BASE_DIR` and no input notebook's exactly when the name is of that
kind. -/
theorem output_iff :
    (base <+: normPath (outputPath notebookName) ∧
        ∀ p, InputNotebook fs p → normPath (outputPath notebookName) ≠ p) ↔
      OutputContained fs notebookName := by
  obtain ⟨first, rest, hsegs⟩ :=
    List.exists_cons_of_ne_nil (segments_ne_nil notebookName.toList)
  rw [OutputContained, normPath_outputPath hsegs, hsegs, List.tail_cons, resolve_eq]
  obtain ⟨ups, names⟩ := relative rest
  simp only [Relative.from, List.length_append, List.length_singleton]
  rcases Nat.eq_zero_or_pos ups with rfl | hups
  · refine iff_of_true ?_ (Or.inl rfl)
    rw [List.take_of_length_le (by simp)]
    exact prefix_and_fresh_of_output first names
  · rw [List.take_append_of_le_length (by omega), prefix_and_fresh_iff]
    exact (or_iff_right (by omega)).symm

/-- Papermill is started inside the directory exactly when both paths are contained. -/
theorem insideDirectory_iff :
    InsideDirectory fs ⟨inputPath notebookName, outputPath notebookName⟩ ↔
      InputContained notebookName ∧ OutputContained fs notebookName := by
  rw [← prefix_inputPath_iff, ← output_iff]
  constructor
  · rintro ⟨hinput, houtput, hfresh⟩
    exact ⟨hinput, houtput, hfresh⟩
  · rintro ⟨hinput, houtput, hfresh⟩
    exact ⟨hinput, houtput, hfresh⟩

/-- A request is not answered with 404 exactly when there is something at its path. -/
theorem not_notFound_iff :
    (∀ detail, (triggerNotebook fs notebookName).1 ≠ .notFound detail) ↔
      fs.pathExists (inputPath notebookName) := by
  rw [triggerNotebook]
  split
  next hnone => exact iff_of_false (fun h => h _ rfl) hnone
  next hsome => exact iff_of_true (fun _ h => by cases h) (not_not.mp hsome)

/-- What papermill is started with, if it is. -/
theorem runNotebookTask_eq_some_iff {run : Papermill} :
    runNotebookTask fs notebookName = some run ↔
      fs.pathExists (inputPath notebookName) ∧
        run = ⟨inputPath notebookName, outputPath notebookName⟩ := by
  rw [runNotebookTask]
  split
  next hnone => exact iff_of_false (by simp) fun h => hnone h.1
  next hsome =>
    rw [Option.some.injEq]
    exact ⟨fun h => ⟨not_not.mp hsome, h.symm⟩, fun h => h.2.symm⟩

theorem staysInside_of_contained (hinput : InputContained notebookName)
    (houtput : OutputContained fs' notebookName) : StaysInside fs fs' notebookName := by
  intro _ run hrun
  obtain ⟨-, rfl⟩ := runNotebookTask_eq_some_iff.mp hrun
  exact insideDirectory_iff.mpr ⟨hinput, houtput⟩

/-- **Relative names without `..`** stay inside, whatever files there are. -/
theorem staysInside_of_no_dotdot (hrelative : ¬IsAbsolute notebookName)
    (hdots : ['.', '.'] ∉ segments notebookName.toList) : StaysInside fs fs' notebookName := by
  refine staysInside_of_contained ?_ (Or.inl (ups_relative fun h => hdots (List.mem_of_mem_tail h)))
  rw [InputContained, if_neg hrelative, ups_relative hdots, Nat.sub_zero, List.drop_length]
  exact List.nil_prefix

end Inside

/-- **A name stays inside** exactly when, if there is something at its path both times, its steps
up are contained. -/
theorem staysInside_iff (fs fs' : FileSystem) (notebookName : String) :
    StaysInside fs fs' notebookName ↔
      (fs.pathExists (inputPath notebookName) → fs'.pathExists (inputPath notebookName) →
        InputContained notebookName ∧ OutputContained fs' notebookName) := by
  rw [StaysInside, not_notFound_iff]
  constructor
  · intro h hfound hstill
    exact insideDirectory_iff.mp (h hfound _ (runNotebookTask_eq_some_iff.mpr ⟨hstill, rfl⟩))
  · intro h hfound run hrun
    obtain ⟨hstill, rfl⟩ := runNotebookTask_eq_some_iff.mp hrun
    exact insideDirectory_iff.mpr (h hfound hstill)

/-- A server with a notebook, an older one in an archive, the output of that, and passwords. -/
def serverFiles : List (List Name) :=
  [["home", "jovyan", "work", "processing", "ml_data.ipynb"],
    ["home", "jovyan", "work", "processing", "archive", "ml_data.ipynb"],
    ["home", "jovyan", "work", "processing", "output_archive", "ml_data.ipynb"],
    ["etc", "passwd"]].map (List.map String.toList)

/-- The file system with these files. -/
def server : FileSystem :=
  .ofFiles serverFiles (by decide) (by decide) (by decide)

/-- The notebook of it is an input notebook. -/
theorem inputNotebook_server :
    InputNotebook server (normPath (inputPath "ml_data.ipynb")) :=
  ⟨by decide, "ml_data.ipynb".toList, [], by decide, by decide⟩

/-- A path from the root is run as if it were a notebook, and a name that goes up again behind
its first segment has the notebook itself as its output. -/
theorem not_staysInside :
    ¬StaysInside server server "/etc/passwd" ∧
      ¬StaysInside server server "archive/../ml_data.ipynb" := by
  constructor
  · intro h
    have hthere : server.pathExists (inputPath "/etc/passwd") := by decide
    have hinside := h (not_notFound_iff.mpr hthere) _
      (runNotebookTask_eq_some_iff.mpr ⟨hthere, rfl⟩)
    exact absurd hinside.input (by decide)
  · intro h
    have hthere : server.pathExists (inputPath "archive/../ml_data.ipynb") := by decide
    have hinside := h (not_notFound_iff.mpr hthere) _
      (runNotebookTask_eq_some_iff.mpr ⟨hthere, rfl⟩)
    exact hinside.fresh _ inputNotebook_server (by decide)

/-! ### The names that are sent -/

/-- The notebooks that the DAGs ask for. -/
def dagNotebooks : List String :=
  ["raw_bronze_parquet.ipynb", "clean_silver_pipeline.ipynb", "ai_report_generator.ipynb",
    "ml_data.ipynb", "process_parquet_batch.ipynb", "spark_dwh_batch.ipynb"]

/-- **The DAGs** only send names that stay inside. -/
theorem staysInside_dagNotebooks (fs fs' : FileSystem) {notebookName : String}
    (h : notebookName ∈ dagNotebooks) : StaysInside fs fs' notebookName := by
  have hplain : ∀ name ∈ dagNotebooks,
      ¬IsAbsolute name ∧ ['.', '.'] ∉ segments name.toList := by decide
  exact staysInside_of_no_dotdot (hplain _ h).1 (hplain _ h).2

end SmartHomeEnergy
