import Mathlib.Data.List.Dedup
import Mathlib.Algebra.BigOperators.Group.List.Basic
import Mathlib.Tactic.Abel

/-!
# Grouping a list of rows

A grouped aggregation splits the rows by a key, one group for each key that
occurs, and returns one row for each group. Here `Relational.groupKeys` lists the
keys, `Relational.groupRows` the rows of one key in their original order, and
`Relational.groupBy` applies the aggregation.

Five facts carry every argument about groupings below:

* **regrouping** – summing over the groups and then inside them is summing over
  the rows (`Relational.sum_groupBy`);
* **disjoint inputs** – when no key occurs in both inputs, the grouping of the
  concatenation is the concatenation of the groupings
  (`Relational.groupBy_append`);
* **filtering by the key** – a filter that looks at the key alone may be applied before
  or after the grouping (`Relational.filter_groupBy`);
* **change of key** – two keys that separate the same rows produce the same
  groups (`Relational.groupRows_of_comp`, `Relational.groupKeys_of_comp`);
* **comparison** – two groupings have the same output rows exactly when the same keys
  occur and every group gives the same row (`Relational.groupBy_perm_iff`).
-/

namespace Relational

section Groups

variable {α κ β : Type*} [DecidableEq κ]

/-- The keys that occur, each once. -/
def groupKeys (key : α → κ) (l : List α) : List κ := (l.map key).dedup

/-- The rows of one key, in their original order. -/
def groupRows (key : α → κ) (l : List α) (k : κ) : List α := l.filter fun a => key a = k

/-- **A grouped aggregation**: one output row for each key. -/
def groupBy (key : α → κ) (agg : κ → List α → β) (l : List α) : List β :=
  (groupKeys key l).map fun k => agg k (groupRows key l k)

variable {key : α → κ} {l l₁ l₂ : List α} {k : κ} {a : α}

@[simp] theorem groupBy_nil (agg : κ → List α → β) : groupBy key agg ([] : List α) = [] := rfl

@[simp] theorem mem_groupKeys : k ∈ groupKeys key l ↔ ∃ a ∈ l, key a = k := by
  simp [groupKeys]

theorem nodup_groupKeys (key : α → κ) (l : List α) : (groupKeys key l).Nodup :=
  List.nodup_dedup _

@[simp] theorem mem_groupRows : a ∈ groupRows key l k ↔ a ∈ l ∧ key a = k := by
  simp [groupRows]

theorem groupRows_append (key : α → κ) (l₁ l₂ : List α) (k : κ) :
    groupRows key (l₁ ++ l₂) k = groupRows key l₁ k ++ groupRows key l₂ k :=
  List.filter_append ..

/-- A key that occurs has a nonempty group. -/
theorem groupRows_ne_nil (h : k ∈ groupKeys key l) : groupRows key l k ≠ [] := by
  obtain ⟨a, ha, hk⟩ := mem_groupKeys.mp h
  exact List.ne_nil_of_mem (mem_groupRows.mpr ⟨ha, hk⟩)

/-- A key that does not occur has an empty group. -/
theorem groupRows_eq_nil (h : ∀ a ∈ l, key a ≠ k) : groupRows key l k = [] := by
  simpa [groupRows, List.filter_eq_nil_iff] using h

@[simp] theorem mem_groupBy {agg : κ → List α → β} {b : β} :
    b ∈ groupBy key agg l ↔ ∃ k ∈ groupKeys key l, agg k (groupRows key l k) = b := by
  simp [groupBy]

@[simp] theorem groupBy_eq_nil {agg : κ → List α → β} : groupBy key agg l = [] ↔ l = [] := by
  simp [groupBy, groupKeys]

/-- Output rows that carry their key have pairwise different ones. -/
theorem nodup_map_groupBy {agg : κ → List α → β} {out : β → κ}
    (hout : ∀ k rows, out (agg k rows) = k) : ((groupBy key agg l).map out).Nodup := by
  have h : (groupBy key agg l).map out = groupKeys key l := by
    rw [groupBy, List.map_map]
    exact (List.map_congr_left fun k _ => hout k _).trans (List.map_id' _)
  rw [h]
  exact nodup_groupKeys key l

end Groups

/-! ### Disjoint inputs -/

section Disjoint

variable {α κ β : Type*} [DecidableEq κ] {key : α → κ} {l₁ l₂ : List α}

/-- No key occurs in both inputs. -/
def KeyDisjoint (key : α → κ) (l₁ l₂ : List α) : Prop := ∀ a ∈ l₁, ∀ b ∈ l₂, key a ≠ key b

theorem groupKeys_append (h : KeyDisjoint key l₁ l₂) :
    groupKeys key (l₁ ++ l₂) = groupKeys key l₁ ++ groupKeys key l₂ := by
  rw [groupKeys, List.map_append]
  refine List.Disjoint.dedup_append fun k h1 h2 => ?_
  obtain ⟨a, ha, rfl⟩ := List.mem_map.mp h1
  obtain ⟨b, hb, hk⟩ := List.mem_map.mp h2
  exact h a ha b hb hk.symm

/-- **Grouping a concatenation of disjoint inputs** is grouping each of them. -/
theorem groupBy_append (h : KeyDisjoint key l₁ l₂) (agg : κ → List α → β) :
    groupBy key agg (l₁ ++ l₂) = groupBy key agg l₁ ++ groupBy key agg l₂ := by
  rw [groupBy, groupKeys_append h, List.map_append]
  refine congrArg₂ (· ++ ·) (List.map_congr_left fun k hk => ?_)
    (List.map_congr_left fun k hk => ?_)
  · obtain ⟨a, ha, rfl⟩ := mem_groupKeys.mp hk
    rw [groupRows_append, groupRows_eq_nil fun b hb hc => h a ha b hb hc.symm, List.append_nil]
  · obtain ⟨b, hb, rfl⟩ := mem_groupKeys.mp hk
    rw [groupRows_append, groupRows_eq_nil fun a ha => h a ha b hb, List.nil_append]

end Disjoint

/-! ### Filtering by the key -/

section Filter

variable {α κ β : Type*} [DecidableEq κ] {key : α → κ} {agg : κ → List α → β} {l : List α}

/-- Deduplication commutes with a filter. -/
theorem dedup_filter (p : κ → Prop) [DecidablePred p] : ∀ ks : List κ,
    (ks.filter fun k => p k).dedup = ks.dedup.filter fun k => p k
  | [] => rfl
  | k :: ks => by
    have ih := dedup_filter p ks
    by_cases hp : p k
    · by_cases hk : k ∈ ks
      · have hk' : k ∈ ks.filter fun k => p k := List.mem_filter.mpr ⟨hk, by simpa using hp⟩
        rw [List.filter_cons_of_pos (by simpa using hp), List.dedup_cons_of_mem hk',
          List.dedup_cons_of_mem hk, ih]
      · have hk' : k ∉ ks.filter fun k => p k := fun h => hk (List.mem_filter.mp h).1
        rw [List.filter_cons_of_pos (by simpa using hp), List.dedup_cons_of_notMem hk',
          List.dedup_cons_of_notMem hk, List.filter_cons_of_pos (by simpa using hp), ih]
    · rw [List.filter_cons_of_neg (by simpa using hp), ih]
      by_cases hk : k ∈ ks
      · rw [List.dedup_cons_of_mem hk]
      · rw [List.dedup_cons_of_notMem hk, List.filter_cons_of_neg (by simpa using hp)]

/-- **Filtering a grouping by its key** is grouping the rows that pass. -/
theorem filter_groupBy {out : β → κ} (hout : ∀ k rows, out (agg k rows) = k) (p : κ → Prop)
    [DecidablePred p] (l : List α) :
    (groupBy key agg l).filter (fun b => p (out b)) =
      groupBy key agg (l.filter fun a => p (key a)) := by
  have hkeys : groupKeys key (l.filter fun a => p (key a)) =
      (groupKeys key l).filter fun k => p k := by
    rw [groupKeys, groupKeys, ← dedup_filter, List.filter_map]
    rfl
  have hpass : ((fun b => decide (p (out b))) ∘ fun k => agg k (groupRows key l k)) =
      fun k => decide (p k) := by
    funext k
    simp [hout]
  rw [groupBy, groupBy, hkeys, List.filter_map, hpass]
  refine List.map_congr_left fun k hk => congrArg (agg k) ?_
  have hpk : p k := of_decide_eq_true (List.mem_filter.mp hk).2
  rw [groupRows, groupRows, List.filter_filter]
  refine List.filter_congr fun a _ => ?_
  by_cases ha : key a = k <;> simp [ha, hpk]

/-- A single key makes a single group. -/
theorem groupBy_of_const {k : κ} (hl : l ≠ []) (h : ∀ a ∈ l, key a = k) :
    groupBy key agg l = [agg k l] := by
  have hmap : l.map key = List.replicate l.length k :=
    List.eq_replicate_iff.mpr ⟨List.length_map .., by simpa using h⟩
  have hlength : l.length ≠ 0 := fun h0 => hl (List.length_eq_zero_iff.mp h0)
  have hrows : groupRows key l k = l := List.filter_eq_self.mpr fun a ha => by simpa using h a ha
  rw [groupBy, groupKeys, hmap, List.replicate_dedup hlength, List.map_singleton, hrows]

end Filter

/-! ### Regrouping -/

section Regroup

variable {α κ β M : Type*} [DecidableEq κ] {key : α → κ}

/-- **The groups are a partition**: over a list of pairwise different keys that covers
the rows, they are the rows in another order. -/
theorem perm_flatMap_groupRows {ks : List κ} (hks : ks.Nodup) : ∀ {l : List α},
    (∀ a ∈ l, key a ∈ ks) → (ks.flatMap (groupRows key l)).Perm l
  | [], _ => by simp [groupRows]
  | a :: l, h => by
    have ih := perm_flatMap_groupRows hks (l := l) fun b hb => h b (List.mem_cons_of_mem _ hb)
    obtain ⟨ks₁, ks₂, rfl⟩ := List.append_of_mem (h a List.mem_cons_self)
    have hother : ∀ k ∈ ks₁ ++ ks₂, groupRows key (a :: l) k = groupRows key l k := by
      intro k hk
      have hne : key a ≠ k := fun he => (List.nodup_cons.mp (List.nodup_middle.mp hks)).1 (he ▸ hk)
      simp [groupRows, hne]
    have h₁ : ks₁.flatMap (groupRows key (a :: l)) = ks₁.flatMap (groupRows key l) :=
      List.flatMap_congr fun k hk => hother k (List.mem_append_left _ hk)
    have h₂ : ks₂.flatMap (groupRows key (a :: l)) = ks₂.flatMap (groupRows key l) :=
      List.flatMap_congr fun k hk => hother k (List.mem_append_right _ hk)
    have ha : groupRows key (a :: l) (key a) = a :: groupRows key l (key a) := by simp [groupRows]
    rw [List.flatMap_append, List.flatMap_cons, h₁, h₂, ha, List.cons_append]
    refine List.perm_middle.trans (List.Perm.cons a ?_)
    simpa using ih

variable [AddCommMonoid M]

/-- **Regrouping**: summing over the groups and then inside them is summing over
the rows. -/
theorem sum_groupBy (f : α → M) (l : List α) :
    ((groupKeys key l).map fun k => ((groupRows key l k).map f).sum).sum = (l.map f).sum := by
  have hperm := perm_flatMap_groupRows (nodup_groupKeys key l) (l := l) fun a ha =>
    mem_groupKeys.mpr ⟨a, ha, rfl⟩
  rw [← (hperm.map f).sum_eq, List.map_flatMap, List.flatMap_def, List.sum_flatten, List.map_map]
  rfl

/-- **Regrouping**, of output rows whose figure is a sum over their group. -/
theorem sum_map_groupBy {agg : κ → List α → β} {f : β → M} {g : α → M}
    (hf : ∀ k rows, f (agg k rows) = (rows.map g).sum) (l : List α) :
    ((groupBy key agg l).map f).sum = (l.map g).sum := by
  have hgroups : (groupBy key agg l).map f =
      (groupKeys key l).map fun k => ((groupRows key l k).map g).sum := by
    rw [groupBy, List.map_map]
    exact List.map_congr_left fun k _ => hf k _
  rw [hgroups, sum_groupBy]

/-- Where the keys are pairwise different, every group is a single row. -/
theorem groupBy_of_nodup {l : List α} (hn : (l.map key).Nodup) (agg : κ → List α → β) :
    groupBy key agg l = l.map fun a => agg (key a) [a] := by
  rw [groupBy, groupKeys, hn.dedup, List.map_map]
  refine List.map_congr_left fun a ha => congrArg (agg (key a)) ?_
  obtain ⟨l₁, l₂, rfl⟩ := List.append_of_mem ha
  have hne : ∀ b ∈ l₁ ++ l₂, key b ≠ key a := by
    intro b hb he
    rw [List.map_append, List.map_cons, List.nodup_middle, List.nodup_cons] at hn
    exact hn.1 (by rw [← he, ← List.map_append]; exact List.mem_map_of_mem hb)
  have h₁ := groupRows_eq_nil fun b hb => hne b (List.mem_append_left _ hb)
  have h₂ := groupRows_eq_nil fun b hb => hne b (List.mem_append_right _ hb)
  rw [groupRows_append, h₁, List.nil_append, groupRows, List.filter_cons_of_pos (by simp),
    ← groupRows, h₂]

end Regroup

/-! ### Change of key -/

section ChangeOfKey

variable {α κ κ' : Type*} [DecidableEq κ] [DecidableEq κ'] {key : α → κ} {key' : α → κ'}
  {g : κ → κ'} {l : List α}

/-- Deduplication commutes with a map that is injective on the list. -/
theorem dedup_map_of_injOn : ∀ {ks : List κ}, (∀ a ∈ ks, ∀ b ∈ ks, g a = g b → a = b) →
    (ks.map g).dedup = ks.dedup.map g
  | [], _ => rfl
  | k :: ks, h => by
    have hks : ∀ a ∈ ks, ∀ b ∈ ks, g a = g b → a = b := fun a ha b hb =>
      h a (List.mem_cons_of_mem _ ha) b (List.mem_cons_of_mem _ hb)
    have ih := dedup_map_of_injOn hks
    by_cases hk : k ∈ ks
    · rw [List.map_cons, List.dedup_cons_of_mem hk,
        List.dedup_cons_of_mem (List.mem_map_of_mem hk), ih]
    · have hg : g k ∉ ks.map g := by
        intro hc
        obtain ⟨j, hj, he⟩ := List.mem_map.mp hc
        exact hk (h j (List.mem_cons_of_mem _ hj) k List.mem_cons_self he ▸ hj)
      rw [List.map_cons, List.dedup_cons_of_notMem hk, List.dedup_cons_of_notMem hg, ih,
        List.map_cons]

variable (hcomp : ∀ a ∈ l, key' a = g (key a))
  (hinj : ∀ a ∈ l, ∀ b ∈ l, g (key a) = g (key b) → key a = key b)

include hcomp hinj

/-- **Change of key**: a key that factors through another and separates the same
rows has the images of its keys. -/
theorem groupKeys_of_comp : groupKeys key' l = (groupKeys key l).map g := by
  have hmap : l.map key' = (l.map key).map g := by
    rw [List.map_map]
    exact List.map_congr_left hcomp
  rw [groupKeys, hmap]
  refine dedup_map_of_injOn fun x hx y hy he => ?_
  obtain ⟨a, ha, rfl⟩ := List.mem_map.mp hx
  obtain ⟨b, hb, rfl⟩ := List.mem_map.mp hy
  exact hinj a ha b hb he

/-- **Change of key**: the groups themselves are the same. -/
theorem groupRows_of_comp {k : κ} (hk : k ∈ groupKeys key l) :
    groupRows key' l (g k) = groupRows key l k := by
  obtain ⟨b, hb, rfl⟩ := mem_groupKeys.mp hk
  refine List.filter_congr fun a ha => ?_
  rw [decide_eq_decide, hcomp a ha]
  exact ⟨fun he => hinj a ha b hb he, fun he => congrArg g he⟩

end ChangeOfKey

/-! ### Comparing two groupings -/

section Comparison

variable {α κ β : Type*} [DecidableEq κ] {key : α → κ} {agg : κ → List α → β} {l l' : List α}

theorem groupKeys_perm (h : ∀ k, k ∈ groupKeys key l ↔ k ∈ groupKeys key l') :
    (groupKeys key l).Perm (groupKeys key l') :=
  (List.perm_ext_iff_of_nodup (nodup_groupKeys key l) (nodup_groupKeys key l')).mpr h

theorem mem_groupKeys_of_perm (h : l.Perm l') (k : κ) :
    k ∈ groupKeys key l ↔ k ∈ groupKeys key l' := by
  simp only [mem_groupKeys, h.mem_iff]

/-- **Comparison**: output rows that carry their key are the same, in some order, exactly
when the same keys occur and every group gives the same row. -/
theorem groupBy_perm_iff (out : β → κ) (hout : ∀ k rows, out (agg k rows) = k) :
    (groupBy key agg l).Perm (groupBy key agg l') ↔
      (∀ k, k ∈ groupKeys key l ↔ k ∈ groupKeys key l') ∧
        ∀ k ∈ groupKeys key l, agg k (groupRows key l k) = agg k (groupRows key l' k) := by
  have hkeys : ∀ l : List α, (groupBy key agg l).map out = groupKeys key l := fun l => by
    rw [groupBy, List.map_map]
    exact (List.map_congr_left fun k _ => hout k _).trans (List.map_id' _)
  constructor
  · intro h
    refine ⟨fun k => ?_, fun k hk => ?_⟩
    · rw [← hkeys l, ← hkeys l', (h.map out).mem_iff]
    · -- the row of the group is in the other grouping, and there its key says where
      have hmem : agg k (groupRows key l k) ∈ groupBy key agg l' :=
        h.mem_iff.mp (mem_groupBy.mpr ⟨k, hk, rfl⟩)
      obtain ⟨k', -, he⟩ := mem_groupBy.mp hmem
      have hk' : k' = k := by rw [← hout k' (groupRows key l' k'), he, hout]
      rw [← he, hk']
  · rintro ⟨hk, hagg⟩
    rw [groupBy, List.map_congr_left hagg]
    exact (groupKeys_perm hk).map _

/-- **Any rows may come first**: for every choice of one row in every group there is an
order of the rows in which they are the first ones. -/
theorem exists_perm_heads {pick : κ → α}
    (hpick : ∀ k ∈ groupKeys key l, pick k ∈ groupRows key l k) :
    ∃ l', l'.Perm l ∧ ∀ k ∈ groupKeys key l, (groupRows key l' k).head? = some (pick k) := by
  have hkey : ∀ k ∈ groupKeys key l, key (pick k) = k := fun k hk =>
    (mem_groupRows.mp (hpick k hk)).2
  have hn : ((groupKeys key l).map pick).Nodup :=
    (nodup_groupKeys key l).map_on fun a ha b hb he => by rw [← hkey a ha, he, hkey b hb]
  have hsub : (groupKeys key l).map pick ⊆ l := fun a ha => by
    obtain ⟨k, hk, rfl⟩ := List.mem_map.mp ha
    exact (mem_groupRows.mp (hpick k hk)).1
  obtain ⟨picks, hperm, hsublist⟩ := List.subperm_of_subset hn hsub
  obtain ⟨rest, hrest⟩ := hsublist.exists_perm_append
  refine ⟨(groupKeys key l).map pick ++ rest, ?_, fun k hk => ?_⟩
  · exact ((hperm.symm.append_right rest).trans hrest.symm)
  · have hmem : k ∈ groupKeys key ((groupKeys key l).map pick) :=
      mem_groupKeys.mpr ⟨pick k, List.mem_map_of_mem hk, hkey k hk⟩
    obtain ⟨a, as, ha⟩ := List.exists_cons_of_ne_nil (groupRows_ne_nil hmem)
    -- the first row of the group is a choice, and only one of them has this key
    have ha' : a ∈ groupRows key ((groupKeys key l).map pick) k := by
      rw [ha]
      exact List.mem_cons_self
    obtain ⟨hin, hak⟩ := mem_groupRows.mp ha'
    obtain ⟨j, hj, rfl⟩ := List.mem_map.mp hin
    rw [hkey j hj] at hak
    rw [groupRows_append, ha, hak]
    rfl

end Comparison

/-! ### Filters -/

/-- Among filters that are compared, the length tells them apart. -/
theorem filter_eq_of_length_le {α : Type*} {p q : α → Bool} {l : List α}
    (h : ∀ a ∈ l, p a → q a) (hlength : (l.filter q).length ≤ (l.filter p).length) :
    l.filter p = l.filter q := by
  have hfilter : (l.filter q).filter p = l.filter p := by
    rw [List.filter_filter]
    exact List.filter_congr fun a ha => by cases hp : p a <;> simp [hp, h a ha]
  have hsub : (l.filter p).Sublist (l.filter q) := hfilter ▸ List.filter_sublist
  exact hsub.eq_of_length_le hlength

end Relational
