import SmartHomeEnergy.Relational.GroupBy
import SmartHomeEnergy.Transition.Run

/-!
# Overwriting a table part by part

A job that overwrites a table computes the new rows, empties the table, and inserts the rows
in parts, each part in a transaction of its own. The emptying is committed before the first
part is inserted, so whatever stops the job after it leaves a part of the new rows behind.

What stops it here is the table itself: it refuses a part with a row that fails its checks,
or with a primary key that is there already (`Relational.Target.Accepts`). Every way of
cutting the new rows into parts and every order of inserting them is allowed
(`Relational.Target.Step`).

With keys that are pairwise different, the job leaves the old rows or the new ones whatever
happens exactly when no row of the new ones is refused – or when all are, and there were no
old ones (`Relational.Target.keeps_iff`).

Where such jobs are run and stopped again and again, the table is at every moment a part of what
a single one of them has computed (`Relational.Target.PartOfVersion.step`).
-/

namespace Relational

open Transition

/-- What a table checks: its rows one by one, and its primary key. -/
structure Target (ρ κ : Type*) where
  /-- The row passes the checks of its columns. -/
  ok : ρ → Prop
  /-- The primary key. -/
  key : ρ → κ

namespace Target

variable {ρ κ : Type*}

/-- The table may hold these rows. -/
def Accepts (t : Target ρ κ) (rows : List ρ) : Prop :=
  (∀ r ∈ rows, t.ok r) ∧ (rows.map t.key).Nodup

/-- How far an overwriting job is. -/
inductive Phase (ρ : Type*)
  /-- It computes the new rows. -/
  | computing
  /-- It has emptied the table, and inserts the parts that are left. -/
  | inserting (pending : List (List ρ))
  /-- It has ended, normally or with an exception. -/
  | ended

/-- The rows of the table and the phase of the job. -/
structure Job (ρ : Type*) where
  rows : List ρ
  phase : Phase ρ

/-- The steps of a job. -/
inductive Event
  | fail
  | truncate
  | insert
  | refuse
  | finish
  deriving DecidableEq

/-- **One step of a job** that overwrites the table with the rows `new`. -/
inductive Step (t : Target ρ κ) (new : List ρ) : Job ρ → Event → Job ρ → Prop
  /-- The rows cannot be computed. -/
  | fail {j : Job ρ} : j.phase = .computing → Step t new j .fail ⟨j.rows, .ended⟩
  /-- The table is emptied, and the rows are cut into parts. -/
  | truncate {j : Job ρ} {parts : List (List ρ)} : j.phase = .computing →
      parts.flatten.Perm new → Step t new j .truncate ⟨[], .inserting parts⟩
  /-- A part is inserted. -/
  | insert {j : Job ρ} (pre post : List (List ρ)) {part : List ρ} :
      j.phase = .inserting (pre ++ part :: post) → t.Accepts (j.rows ++ part) →
      Step t new j .insert ⟨j.rows ++ part, .inserting (pre ++ post)⟩
  /-- A part is refused, which ends the job. -/
  | refuse {j : Job ρ} {part : List ρ} {pending : List (List ρ)} :
      j.phase = .inserting pending → part ∈ pending → ¬t.Accepts (j.rows ++ part) →
      Step t new j .refuse ⟨j.rows, .ended⟩
  /-- All parts are inserted. -/
  | finish {j : Job ρ} : j.phase = .inserting [] → Step t new j .finish ⟨j.rows, .ended⟩

/-- The job may end with these rows in the table. -/
def Ends (t : Target ρ κ) (old new rows : List ρ) : Prop :=
  ∃ es, Run (t.Step new) ⟨old, .computing⟩ es ⟨rows, .ended⟩

/-- **The old rows or the new ones**, however the job ends. -/
def Keeps (t : Target ρ κ) (old new : List ρ) : Prop :=
  ∀ rows, t.Ends old new rows → rows.Perm old ∨ rows.Perm new

variable {t : Target ρ κ} {old new : List ρ}

/-! ### What is in the table -/

/-- What is in the table, phase by phase: the rows that were inserted passed the checks, and
with the parts that are left they are the new ones. -/
def Progress (t : Target ρ κ) (old new : List ρ) (j : Job ρ) : Prop :=
  match j.phase with
  | .computing => j.rows = old
  | .inserting pending => (j.rows ++ pending.flatten).Perm new ∧ ∀ r ∈ j.rows, t.ok r
  | .ended => j.rows = old ∨ j.rows.Perm new ∨
      (∃ r ∈ new, ¬t.ok r) ∧ ∀ r ∈ j.rows, r ∈ new ∧ t.ok r

/-- Some of the new rows are accepted when each of them is. -/
theorem accepts_of_ok {rows : List ρ} (rest : List ρ) (hkeys : (new.map t.key).Nodup)
    (hperm : (rows ++ rest).Perm new) (hok : ∀ r ∈ rows, t.ok r) : t.Accepts rows := by
  refine ⟨hok, ?_⟩
  have hall := (hperm.map t.key).nodup_iff.mpr hkeys
  rw [List.map_append] at hall
  exact hall.of_append_left

/-- A part may be taken out first. -/
theorem flatten_middle_perm (pre post : List (List ρ)) (part : List ρ) :
    (part ++ (pre ++ post).flatten).Perm (pre ++ part :: post).flatten := by
  rw [List.flatten_append, List.flatten_append, List.flatten_cons, ← List.append_assoc,
    ← List.append_assoc]
  exact List.perm_append_comm.append_right _

/-- **Every step makes progress.** -/
theorem Progress.step (hkeys : (new.map t.key).Nodup) {j j' : Job ρ} {e : Event}
    (h : t.Progress old new j) (hstep : t.Step new j e j') : t.Progress old new j' := by
  cases hstep with
  | fail hphase =>
    rw [Progress, hphase] at h
    exact Or.inl h
  | truncate hphase hperm => exact ⟨by simpa using hperm, by simp⟩
  | @insert pre post part hphase haccepts =>
    rw [Progress, hphase] at h
    refine ⟨?_, haccepts.1⟩
    rw [List.append_assoc]
    exact ((flatten_middle_perm pre post part).append_left _).trans h.1
  | @refuse part pending hphase hmem hrefused =>
    rw [Progress, hphase] at h
    obtain ⟨hperm, hok⟩ := h
    have hsub : ∀ r ∈ part, r ∈ new := fun r hr => hperm.mem_iff.mp
      (List.mem_append_right _ (List.mem_flatten.mpr ⟨part, hmem, hr⟩))
    refine Or.inr (Or.inr ⟨?_, fun r hr =>
      ⟨hperm.mem_iff.mp (List.mem_append_left _ hr), hok r hr⟩⟩)
    -- the keys are different, so it is a row that is refused
    by_contra hnone
    push Not at hnone
    obtain ⟨pre, post, rfl⟩ := List.append_of_mem hmem
    refine hrefused (accepts_of_ok (pre ++ post).flatten hkeys ?_ ?_)
    · rw [List.append_assoc]
      exact ((flatten_middle_perm pre post part).append_left _).trans hperm
    · intro r hr
      rcases List.mem_append.mp hr with hr | hr
      · exact hok r hr
      · exact hnone r (hsub r hr)
  | finish hphase =>
    rw [Progress, hphase] at h
    exact Or.inr (Or.inl (by simpa using h.1))

/-- **How a job ends**: with the old rows, with the new ones, or with some of them that passed
the checks while another did not. -/
theorem Ends.cases (hkeys : (new.map t.key).Nodup) {rows : List ρ} (h : t.Ends old new rows) :
    rows = old ∨ rows.Perm new ∨
      (∃ r ∈ new, ¬t.ok r) ∧ ∀ r ∈ rows, r ∈ new ∧ t.ok r := by
  obtain ⟨es, hrun⟩ := h
  have hstart : t.Progress old new ⟨old, .computing⟩ := rfl
  exact hrun.invariant (t.Progress old new) hstart fun _ _ _ hp hstep => hp.step hkeys hstep

/-- With a row that is refused, the table may be left empty. -/
theorem ends_nil {r : ρ} (hr : r ∈ new) (hbad : ¬t.ok r) (old : List ρ) : t.Ends old new [] := by
  have htruncate : t.Step new ⟨old, .computing⟩ .truncate ⟨[], .inserting [new]⟩ :=
    .truncate rfl (by simp)
  have hrefuse : t.Step new ⟨[], .inserting [new]⟩ .refuse ⟨[], .ended⟩ :=
    .refuse rfl List.mem_cons_self fun h => hbad (h.1 r (by simpa using hr))
  exact ⟨_, (Run.single htruncate).snoc hrefuse⟩

open Classical in
/-- With a row that is refused, the table may be left with the others. -/
theorem ends_ok (hkeys : (new.map t.key).Nodup) {r : ρ} (hr : r ∈ new) (hbad : ¬t.ok r)
    (old : List ρ) : t.Ends old new (new.filter fun x => t.ok x) := by
  have hsplit : (new.filter (fun x => t.ok x) ++ new.filter fun x => !decide (t.ok x)).Perm new :=
    List.filter_append_perm _ _
  have htruncate : t.Step new ⟨old, .computing⟩ .truncate
      ⟨[], .inserting [new.filter (fun x => t.ok x), new.filter fun x => !decide (t.ok x)]⟩ :=
    .truncate rfl (by simpa using hsplit)
  have hinsert : t.Step new
      ⟨[], .inserting [new.filter (fun x => t.ok x), new.filter fun x => !decide (t.ok x)]⟩ .insert
      ⟨new.filter fun x => t.ok x, .inserting [new.filter fun x => !decide (t.ok x)]⟩ :=
    .insert [] _ rfl (accepts_of_ok _ hkeys hsplit fun x hx => by
      simpa using (List.mem_filter.mp hx).2)
  have hrefuse : t.Step new
      ⟨new.filter fun x => t.ok x, .inserting [new.filter fun x => !decide (t.ok x)]⟩ .refuse
      ⟨new.filter fun x => t.ok x, .ended⟩ :=
    .refuse rfl List.mem_cons_self fun h =>
      hbad (h.1 r (List.mem_append_right _ (List.mem_filter.mpr ⟨hr, by simp [hbad]⟩)))
  exact ⟨_, ((Run.single htruncate).snoc hinsert).snoc hrefuse⟩

/-- **Exactly when an overwriting job keeps the old rows or leaves the new ones**: when none
of the new rows is refused, or when all of them are and there are no old ones. -/
theorem keeps_iff (hkeys : (new.map t.key).Nodup) :
    t.Keeps old new ↔ (∀ r ∈ new, t.ok r) ∨ (old = [] ∧ ∀ r ∈ new, ¬t.ok r) := by
  constructor
  · intro hkeeps
    refine or_iff_not_imp_left.mpr fun hnot => ?_
    push Not at hnot
    obtain ⟨bad, hbad, hrefused⟩ := hnot
    have hnil : old = [] := by
      rcases hkeeps [] (ends_nil hbad hrefused old) with h | h
      · exact h.symm.eq_nil
      · exact absurd (h.symm.eq_nil ▸ hbad) List.not_mem_nil
    refine ⟨hnil, fun r hr hok => ?_⟩
    classical
    have hmem : r ∈ new.filter fun x => t.ok x := List.mem_filter.mpr ⟨hr, by simpa using hok⟩
    rcases hkeeps _ (ends_ok hkeys hbad hrefused old) with h | h
    · rw [hnil] at h
      exact absurd (h.eq_nil ▸ hmem) List.not_mem_nil
    · exact hrefused (by simpa using (List.mem_filter.mp (h.mem_iff.mpr hbad)).2)
  · rintro hcond rows hends
    rcases hends.cases hkeys with rfl | hperm | ⟨⟨bad, hbad, hrefused⟩, hrows⟩
    · exact Or.inl (List.Perm.refl _)
    · exact Or.inr hperm
    · rcases hcond with hall | ⟨rfl, hnone⟩
      · exact absurd (hall bad hbad) hrefused
      · refine Or.inl (List.Perm.of_eq (List.eq_nil_iff_forall_not_mem.mpr fun r hr => ?_))
        exact hnone r (hrows r hr).1 (hrows r hr).2

/-! ### A table that is overwritten again and again -/

/-- **The table is a part of one version**: its rows are those of a single version, and passed the
checks; and what a job that runs inserts is a version too. -/
structure PartOfVersion (t : Target ρ κ) (Version : List ρ → Prop) (new : List ρ) (j : Job ρ) :
    Prop where
  rows : ∃ v, Version v ∧ j.rows.Subperm v ∧ ∀ r ∈ j.rows, t.ok r
  job : match j.phase with
    | .computing => Version new
    | .inserting pending => Version new ∧ (j.rows ++ pending.flatten).Perm new
    | .ended => True

section Versions

variable {Version Version' : List ρ → Prop} {j j' : Job ρ} {e : Event}

/-- More versions. -/
theorem PartOfVersion.mono (h : t.PartOfVersion Version new j)
    (himp : ∀ v, Version v → Version' v) : t.PartOfVersion Version' new j := by
  obtain ⟨⟨v, hv, hsub⟩, hjob⟩ := h
  refine ⟨⟨v, himp v hv, hsub⟩, ?_⟩
  cases hphase : j.phase with
  | computing => exact himp new (by simpa only [hphase] using hjob)
  | inserting pending =>
    rw [hphase] at hjob
    exact ⟨himp new hjob.1, hjob.2⟩
  | ended => trivial

/-- A job is started. -/
theorem PartOfVersion.start (h : t.PartOfVersion Version old j) (hnew : Version new) :
    t.PartOfVersion Version new ⟨j.rows, .computing⟩ := ⟨h.rows, hnew⟩

/-- A job is stopped. -/
theorem PartOfVersion.stop (h : t.PartOfVersion Version new j) :
    t.PartOfVersion Version new ⟨j.rows, .ended⟩ := ⟨h.rows, trivial⟩

/-- **A step of a job** leaves a part of one version. -/
theorem PartOfVersion.step (h : t.PartOfVersion Version new j) (hstep : t.Step new j e j') :
    t.PartOfVersion Version new j' := by
  cases hstep with
  | fail => exact h.stop
  | refuse => exact h.stop
  | finish => exact h.stop
  | @truncate parts hphase hperm =>
    have hnew : Version new := by simpa only [hphase] using h.job
    exact ⟨⟨new, hnew, List.nil_subperm, by simp⟩, hnew, by simpa using hperm⟩
  | @insert pre post part hphase haccepts =>
    have hjob := h.job
    rw [hphase] at hjob
    obtain ⟨hnew, hperm⟩ := hjob
    have hrest : ((j.rows ++ part) ++ (pre ++ post).flatten).Perm new := by
      rw [List.append_assoc]
      exact ((flatten_middle_perm pre post part).append_left _).trans hperm
    have hsub : (j.rows ++ part).Subperm new :=
      (List.sublist_append_left _ _).subperm.trans hrest.subperm
    exact ⟨⟨new, hnew, hsub, haccepts.1⟩, hnew, hrest⟩

end Versions

end Target

end Relational
