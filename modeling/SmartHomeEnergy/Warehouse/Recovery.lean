import SmartHomeEnergy.Streaming.Recovery
import SmartHomeEnergy.Warehouse.Replay

/-!
# The daily warehouse after any stops

`foreachBatch` runs a batch at least once: when the notebook stops before the batch is
committed, the next run calls `write_to_postgres` on it again, with the prices it reads
then. A batch may so be merged several times, by runs with different prices, and its staging
table may be left behind; and a merge that raises is not repeated, since the callback
returns all the same.

`SmartHomeEnergy.dailyBatch` is the callback with all that may happen to it. When every
device-hour is named, a merge replaces what an earlier run has merged of the same batch –
the prices decide on the figures of a day, and not on which days there are
(`SmartHomeEnergy.Merged.again`) –, so that the sink recovers
(`SmartHomeEnergy.recovers_dailyBatch`).
-/

namespace SmartHomeEnergy

open Relational Streaming Transition

/-! ### The callback, and what may happen to it -/

/-- What may happen to a call of `write_to_postgres`: statements raise, or the notebook is
killed – before the commit of the merge, or after it. -/
inductive CallbackFault (D : Type)
  | raises (staging : Option (List (DayRow D))) (merge : Option Fault)
  | killed (merged : Bool)

/-- The merge does not fail before its commit. -/
def CallbackFault.MergeCommits {D : Type} : CallbackFault D → Prop
  | .raises _ merge => merge = none ∨ merge = some .close
  | .killed _ => True

section Daily

variable {D : Type} [DecidableEq D] (constraints : List (List Column)) (time : SparkTime D)

/-- A call of `write_to_postgres` by a run that has read the given prices. -/
def dailyBatch (run : List PriceRow × CallbackFault D) (batchId : ℕ)
    (batch : List (Reading String)) (w : Warehouse D) : Attempt (Warehouse D) :=
  match run.2 with
  | .raises staging merge => writeToPostgres constraints time run.1 staging merge batchId batch w
  | .killed false =>
    .raise (if batch = [] then w else w.stage batchId (finalAnalyticsDf time run.1 batch))
  | .killed true => .raise (writeToPostgres constraints time run.1 none none batchId batch w).state

/-- Some of the batches were merged, each with the prices of the run that merged it last, and
the table is what one merge of each makes of an empty table. When no merge fails, they are
all of them. -/
def Merged (lossless : Prop) (bs : List (List (Reading String))) (rows : List (DayRow D)) : Prop :=
  ∃ done : List (List PriceRow × List (Reading String)),
    (done.map (·.2)).Sublist bs ∧ (lossless → done.map (·.2) = bs) ∧
      ∃ t : Analytics D, rows = t.rows ∧ (∀ r ∈ t.rows, conflictKey r ≠ none) ∧
        ∀ k, t.find k = ((Table.empty : Analytics D).upsertAll dayUpsert
          (done.flatMap fun p => finalAnalyticsDf time p.1 p.2)).find k

variable {constraints time} {lossless : Prop} {bs : List (List (Reading String))}
  {b : List (Reading String)} {rows : List (DayRow D)} {w : Warehouse D}

theorem merged_start : Merged time lossless [] ([] : List (DayRow D)) :=
  ⟨[], List.Sublist.refl _, fun _ => rfl, Table.empty, rfl, by simp [Table.empty], fun _ => rfl⟩

/-- The prices do not decide on which days there are. -/
theorem key_finalAnalyticsDf (prices prices' : List PriceRow) {r : DayRow D}
    (hr : r ∈ finalAnalyticsDf time prices b) :
    ∃ r' ∈ finalAnalyticsDf time prices' b, conflictKey r' = conflictKey r := by
  obtain ⟨K, hK, rfl⟩ := mem_groupBy.mp hr
  have hK' : K ∈ groupKeys (fun p => p.1.dayKey) (joinedBatch time prices' b) :=
    mem_dayKeys.mpr (mem_dayKeys.mp hK)
  exact ⟨_, mem_groupBy.mpr ⟨K, hK', rfl⟩, rfl⟩

/-- A batch of named device-hours brings in no row without a key. -/
theorem keyed_upsertAll (hnamed : Named time b) (prices : List PriceRow) {t : Analytics D}
    (ht : ∀ r ∈ t.rows, conflictKey r ≠ none) :
    ∀ r ∈ (t.upsertAll dayUpsert (finalAnalyticsDf time prices b)).rows, conflictKey r ≠ none := by
  intro r hr
  obtain ⟨y, hy, hkey⟩ := Table.key_mem_upsertAll hr
  rw [hkey]
  rcases List.mem_append.mp hy with hold | hnew
  · exact ht y hold
  · exact (named_iff prices).mp hnamed y hnew

/-- **A batch that is merged** for the first time. -/
theorem Merged.merge (h : Merged time lossless bs rows) (hnamed : Named time b)
    (prices : List PriceRow) {t : Analytics D} (ht : rows = t.rows) :
    Merged time lossless (bs ++ [b])
      (t.upsertAll dayUpsert (finalAnalyticsDf time prices b)).rows := by
  obtain ⟨done, hsub, hall, t', ht', hkeyed, hfind⟩ := h
  obtain rfl : t' = t := by
    cases t
    cases t'
    simp_all
  refine ⟨done ++ [(prices, b)], ?_, fun hl => ?_, _, rfl, keyed_upsertAll hnamed prices hkeyed,
    fun k => ?_⟩
  · simpa using hsub.append_right [b]
  · simp [hall hl]
  · rw [List.flatMap_append, Table.upsertAll_append, List.flatMap_singleton]
    exact Table.find_upsertAll_congr dayUpsert_overwrites hfind _ k

/-- **A batch that is merged again** replaces what was merged of it before. -/
theorem Merged.again (h : Merged time lossless (bs ++ [b]) rows) (hnamed : Named time b)
    (prices : List PriceRow) {t : Analytics D} (ht : rows = t.rows) :
    Merged time lossless (bs ++ [b])
      (t.upsertAll dayUpsert (finalAnalyticsDf time prices b)).rows := by
  obtain ⟨done, hsub, hall, t', ht', hkeyed, hfind⟩ := h
  obtain ⟨l₁, l₂, hsplit, hl₁, hl₂⟩ := List.sublist_append_iff.mp hsub
  obtain ⟨d₁, d₂, rfl, rfl, rfl⟩ := List.map_eq_append_iff.mp hsplit
  rcases List.sublist_singleton.mp hl₂ with hnil | hone
  · -- no run has merged it
    obtain rfl : d₂ = [] := List.map_eq_nil_iff.mp hnil
    rw [List.append_nil] at hfind hall
    refine Merged.merge ⟨d₁, hl₁, fun hl => ?_, t', ht', hkeyed, hfind⟩ hnamed prices ht
    have hlength := hl₁.length_le
    rw [hall hl, List.length_append, List.length_singleton] at hlength
    omega
  · -- a run has, with its own prices
    obtain ⟨⟨prices', b'⟩, rfl, hb⟩ := List.map_eq_singleton_iff.mp hone
    obtain rfl : b = b' := hb.symm
    obtain rfl : t' = t := by
      cases t
      cases t'
      simp_all
    refine ⟨d₁ ++ [(prices, b)], by simpa using hsub, fun hl => by simpa using hall hl, _, rfl,
      keyed_upsertAll hnamed prices hkeyed, fun k => ?_⟩
    rw [Table.find_upsertAll_congr dayUpsert_overwrites hfind, List.flatMap_append,
      Table.upsertAll_append, List.flatMap_singleton, List.flatMap_append,
      Table.upsertAll_append, List.flatMap_singleton]
    exact Table.find_upsertAll_upsertAll dayUpsert_overwrites _
      (fun r hr => key_finalAnalyticsDf prices' prices hr) k

/-- A batch whose merge fails is left out. -/
theorem Merged.fail (h : Merged time lossless bs rows) (hlossy : ¬lossless) :
    Merged time lossless (bs ++ [b]) rows := by
  obtain ⟨done, hsub, -, hrest⟩ := h
  exact ⟨done, hsub.trans (List.sublist_append_left ..), fun hl => absurd hl hlossy, hrest⟩

/-- **What a call of the callback does** to a table with the constraint: nothing, or all of
its merge – the latter when it returns and its merge does not fail. -/
theorem dailyBatch_cases (time : SparkTime D) (hc : HasArbiter constraints analyticsTarget)
    (run : List PriceRow × CallbackFault D) (n : ℕ) {t : Analytics D} (ht : w.analytics = t.rows) :
    let a := dailyBatch constraints time run n b w
    let merged := (t.upsertAll dayUpsert (finalAnalyticsDf time run.1 b)).rows
    a.state.analytics = merged ∨
      a.state.analytics = t.rows ∧ (run.2.MergeCommits → a.raised = true) := by
  obtain ⟨prices, fault⟩ := run
  by_cases hb : b = []
  · subst hb
    left
    rcases fault with ⟨staging, merge⟩ | _ | _ <;> simp [dailyBatch, writeToPostgres, ht]
  rcases fault with ⟨staging, merge⟩ | _ | _
  · rcases staging with _ | written
    · simp only [dailyBatch, writeToPostgres, hb, if_false, writeStaging, Attempt.done_bind,
        mergeStaging, hc, not_true_eq_false]
      rcases merge with _ | _ | _ | _ | _ <;>
        simp [CallbackFault.MergeCommits, ht, Table.rows_upsertAll]
    · right
      simp [dailyBatch, writeToPostgres, hb, writeStaging, ht]
  · right
    simp [dailyBatch, hb, ht]
  · left
    exact writeToPostgres_analytics time prices hc n b ht

/-- **The daily sink recovers**: what is merged counts once, with the prices it was merged with
last, as long as every device-hour is named. -/
theorem recovers_dailyBatch (hc : HasArbiter constraints analyticsTarget) (time : SparkTime D)
    (lossless : Prop) :
    Recovers (fun run => lossless → run.2.MergeCommits) (dailyBatch constraints time)
      (fun bs w => (∀ b ∈ bs, Named time b) → Merged time lossless bs w.analytics)
      fun bs b w => (∀ b' ∈ bs ++ [b], Named time b') →
        Merged time lossless bs w.analytics ∨ Merged time lossless (bs ++ [b]) w.analytics where
  before h hnamed := Or.inl (h fun b hb => hnamed b (List.mem_append_left _ hb))
  after h hnamed := Or.inr (h hnamed)
  raised := by
    intro run bs b w _ h _ hnamed
    have hb := hnamed b (by simp)
    rcases h hnamed with hm | hm
    · obtain ⟨-, -, -, t, ht, -⟩ := id hm
      rcases dailyBatch_cases time hc run bs.length ht with hs | ⟨hs, -⟩
      · exact Or.inr (hs ▸ hm.merge hb run.1 ht)
      · exact Or.inl (by rwa [hs, ← ht])
    · obtain ⟨-, -, -, t, ht, -⟩ := id hm
      rcases dailyBatch_cases time hc run bs.length ht with hs | ⟨hs, -⟩
      · exact Or.inr (hs ▸ hm.again hb run.1 ht)
      · exact Or.inr (by rwa [hs, ← ht])
  returned := by
    intro run bs b w hallowed h hr hnamed
    have hb := hnamed b (by simp)
    rcases h hnamed with hm | hm
    · obtain ⟨-, -, -, t, ht, -⟩ := id hm
      rcases dailyBatch_cases time hc run bs.length ht with hs | ⟨hs, hmerge⟩
      · exact hs ▸ hm.merge hb run.1 ht
      · -- it has returned, so that its merge has failed
        rw [hs, ← ht]
        refine hm.fail fun hl => ?_
        exact absurd ((hmerge (hallowed hl)).symm.trans hr) (by decide)
    · obtain ⟨-, -, -, t, ht, -⟩ := id hm
      rcases dailyBatch_cases time hc run bs.length ht with hs | ⟨hs, -⟩
      · exact hs ▸ hm.again hb run.1 ht
      · rwa [hs, ← ht]

end Daily

end SmartHomeEnergy
