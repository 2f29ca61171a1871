import Mathlib.Data.List.Nodup

/-!
# Tables with a unique constraint

A table is a list of rows under a unique constraint on some of its columns. The
constraint is given by the map `key` from a row to the value of those columns,
which is `none` when one of them is null: nulls are pairwise distinct, so such a
row never conflicts with another. That the constraint is met is a field of
`Relational.Table`, so every table below meets it.

`Relational.Table.upsert` is `INSERT … ON CONFLICT (…) DO UPDATE`: what becomes of
a conflicting row is a `Relational.ConflictUpdate`, which may not touch the key.
Everything about a table is read through `Relational.Table.find`, the row stored
under a key, and one lemma for each operation says what `find` sees after it. The
last of them is `Relational.Table.find_upsertAll`: after a batch of upserts that
overwrite, **the last row of the batch with the key decides**, and a key without one
is left alone. A row without a key is inserted every time, so a batch may be upserted
again exactly when it has none (`Relational.Table.upsertAll_upsertAll_perm_iff`).
-/

namespace Relational

variable {ρ κ : Type*}

/-- What `DO UPDATE` makes of the stored row and the row that conflicted with it. -/
structure ConflictUpdate (key : ρ → Option κ) where
  /-- The updated row, from the stored one and the excluded one. -/
  merge : ρ → ρ → ρ
  /-- The key columns are not updated. -/
  key_merge : ∀ old new, key (merge old new) = key old

/-- The stored row is replaced by the one it conflicts with, in every column. -/
def ConflictUpdate.Overwrites {key : ρ → Option κ} (u : ConflictUpdate key) : Prop :=
  ∀ old new k, key old = some k → key new = some k → u.merge old new = new

/-- A list of rows that meets the unique constraint on `key`. -/
structure Table (key : ρ → Option κ) where
  /-- The rows, in no particular order. -/
  rows : List ρ
  /-- No two rows have the same key. -/
  unique : (rows.filterMap key).Nodup

/-- Rows that a function tells apart have pairwise different keys, if the key decides
the function. -/
theorem nodup_filterMap_key {γ : Type*} {key : ρ → Option κ} {f : ρ → γ} {rows : List ρ}
    (hn : (rows.map f).Nodup) (h : ∀ x y k, key x = some k → key y = some k → f x = f y) :
    (rows.filterMap key).Nodup := by
  refine List.pairwise_filterMap.mpr ((List.pairwise_map.mp hn).imp ?_)
  rintro x y hne k hx k' hy rfl
  exact hne (h x y k hx hy)

namespace Table

variable [DecidableEq κ] {key : ρ → Option κ}

/-- The table before anything is inserted. -/
def empty : Table key := ⟨[], List.nodup_nil⟩

/-- The row stored under a key. -/
def find (t : Table key) (k : κ) : Option ρ := t.rows.find? fun r => key r = some k

@[simp] theorem find_empty (k : κ) : (empty : Table key).find k = none := rfl

theorem mem_of_find {t : Table key} {k : κ} {r : ρ} (h : t.find k = some r) :
    r ∈ t.rows ∧ key r = some k :=
  ⟨List.mem_of_find?_eq_some h, by simpa using List.find?_some h⟩

theorem find_of_mem {t : Table key} {k : κ} {r : ρ} (hr : r ∈ t.rows) (hk : key r = some k) :
    t.find k = some r := by
  obtain ⟨rows, hu⟩ := t
  induction rows with
  | nil => simp at hr
  | cons a rows ih =>
    rw [find, List.find?_cons]
    by_cases ha : key a = some k
    · rcases List.mem_cons.mp hr with rfl | hr'
      · simp [hk]
      · rw [List.filterMap_cons_some ha, List.nodup_cons] at hu
        exact absurd (List.mem_filterMap.mpr ⟨r, hr', hk⟩) hu.1
    · have hr' : r ∈ rows := (List.mem_cons.mp hr).resolve_left fun he => ha (he ▸ hk)
      have hu' : (rows.filterMap key).Nodup :=
        hu.sublist ((List.sublist_cons_self a rows).filterMap key)
      simpa [ha, find] using ih hu' hr'

/-- Rows of a list with pairwise different keys are told apart by them. -/
theorem eq_of_key {rows : List ρ} (hn : (rows.filterMap key).Nodup) {x y : ρ} {k : κ}
    (hx : x ∈ rows) (hxk : key x = some k) (hy : y ∈ rows) (hyk : key y = some k) : x = y := by
  -- the rows are a table of their own
  let own : Table key := ⟨rows, hn⟩
  have h₁ : own.find k = some x := find_of_mem hx hxk
  have h₂ : own.find k = some y := find_of_mem hy hyk
  exact Option.some.inj (h₁.symm.trans h₂)

/-- **The constraint, through `find`**: a row is stored exactly when it is found
under its key. -/
theorem mem_iff_find {t : Table key} {k : κ} {r : ρ} (hk : key r = some k) :
    r ∈ t.rows ↔ t.find k = some r :=
  ⟨fun hr => find_of_mem hr hk, fun h => (mem_of_find h).1⟩

/-! ### Upserts -/

/-- One upsert on the list of rows: update the row it conflicts with, or append. -/
def upsertRows (key : ρ → Option κ) (merge : ρ → ρ → ρ) (r : ρ) : List ρ → List ρ
  | [] => [r]
  | old :: rows =>
    if (key r).isSome ∧ key old = key r then merge old r :: rows
    else old :: upsertRows key merge r rows

theorem mem_filterMap_upsertRows {u : ConflictUpdate key} {r : ρ} {k : κ} : ∀ {rows : List ρ},
    k ∈ (upsertRows key u.merge r rows).filterMap key →
      key r = some k ∨ k ∈ rows.filterMap key
  | [], h => by simpa [upsertRows] using h
  | old :: rows, h => by
    rw [upsertRows] at h
    split at h
    next hc =>
      refine Or.inr ?_
      simpa [List.mem_filterMap, u.key_merge] using h
    next =>
      obtain ⟨x, hx, hk⟩ := List.mem_filterMap.mp h
      rcases List.mem_cons.mp hx with rfl | hx'
      · exact Or.inr (List.mem_filterMap.mpr ⟨x, List.mem_cons_self, hk⟩)
      · have hx'' := List.mem_filterMap.mpr ⟨x, hx', hk⟩
        refine (mem_filterMap_upsertRows hx'').imp_right fun hm => ?_
        obtain ⟨y, hy, hyk⟩ := List.mem_filterMap.mp hm
        exact List.mem_filterMap.mpr ⟨y, List.mem_cons_of_mem _ hy, hyk⟩

theorem nodup_upsertRows (u : ConflictUpdate key) (r : ρ) : ∀ {rows : List ρ},
    (rows.filterMap key).Nodup → ((upsertRows key u.merge r rows).filterMap key).Nodup
  | [], _ => by
    rw [upsertRows]
    cases hk : key r <;> simp [hk]
  | old :: rows, h => by
    have hrows : (rows.filterMap key).Nodup :=
      h.sublist ((List.sublist_cons_self old rows).filterMap key)
    rw [upsertRows]
    split
    next =>
      cases hk : key old with
      | none => simpa [List.filterMap_cons, u.key_merge, hk] using hrows
      | some k => simpa [List.filterMap_cons, u.key_merge, hk] using h
    next hc =>
      have ih := nodup_upsertRows u r hrows
      cases hk : key old with
      | none => simpa [List.filterMap_cons, hk] using ih
      | some k =>
        rw [List.filterMap_cons_some hk, List.nodup_cons] at h ⊢
        refine ⟨fun hm => ?_, ih⟩
        rcases mem_filterMap_upsertRows hm with hr | hm'
        · exact hc ⟨by simp [hr], by rw [hk, hr]⟩
        · exact h.1 hm'

theorem nodup_foldl_upsertRows (u : ConflictUpdate key) {rs : List ρ} : ∀ {rows : List ρ},
    (rows.filterMap key).Nodup →
      ((rs.foldl (fun rows r => upsertRows key u.merge r rows) rows).filterMap key).Nodup := by
  induction rs with
  | nil => exact id
  | cons r rs ih => exact fun h => ih (nodup_upsertRows u r h)

/-- **`INSERT … ON CONFLICT DO UPDATE`** of one row. -/
def upsert (u : ConflictUpdate key) (t : Table key) (r : ρ) : Table key where
  rows := upsertRows key u.merge r t.rows
  unique := nodup_upsertRows u r t.unique

/-- A batch of upserts, one row after the other. -/
def upsertAll (u : ConflictUpdate key) (t : Table key) (rs : List ρ) : Table key :=
  rs.foldl (upsert u) t

@[simp] theorem upsertAll_nil (u : ConflictUpdate key) (t : Table key) : upsertAll u t [] = t := rfl

@[simp] theorem upsertAll_cons (u : ConflictUpdate key) (t : Table key) (r : ρ) (rs : List ρ) :
    upsertAll u t (r :: rs) = upsertAll u (upsert u t r) rs := rfl

/-- A batch of upserts, on the list of rows. -/
theorem rows_upsertAll (u : ConflictUpdate key) (t : Table key) (rs : List ρ) :
    (upsertAll u t rs).rows = rs.foldl (fun rows r => upsertRows key u.merge r rows) t.rows := by
  induction rs generalizing t with
  | nil => rfl
  | cons r rs ih => exact ih (upsert u t r)

theorem upsertAll_append (u : ConflictUpdate key) (t : Table key) (rs rs' : List ρ) :
    upsertAll u t (rs ++ rs') = upsertAll u (upsertAll u t rs) rs' :=
  List.foldl_append ..

theorem upsertRows_of_not_mem {merge : ρ → ρ → ρ} {r : ρ} : ∀ {rows : List ρ},
    (∀ x ∈ rows, key r ≠ none → key x ≠ key r) → upsertRows key merge r rows = rows ++ [r]
  | [], _ => rfl
  | old :: rows, h => by
    have hold : ¬((key r).isSome ∧ key old = key r) := fun hc =>
      h old List.mem_cons_self (Option.isSome_iff_ne_none.mp hc.1) hc.2
    rw [upsertRows, if_neg hold, upsertRows_of_not_mem fun x hx => h x (List.mem_cons_of_mem _ hx)]
    rfl

/-- **Upserts without a conflict** append. -/
theorem rows_upsertAll_of_nodup (u : ConflictUpdate key) : ∀ {rs : List ρ} {t : Table key},
    ((t.rows ++ rs).filterMap key).Nodup → (upsertAll u t rs).rows = t.rows ++ rs
  | [], t, _ => by simp
  | r :: rs, t, h => by
    have hupsert : (upsert u t r).rows = t.rows ++ [r] := by
      refine upsertRows_of_not_mem fun x hx hr hk => ?_
      obtain ⟨k, hk'⟩ := Option.ne_none_iff_exists'.mp hr
      rw [List.filterMap_append, List.filterMap_cons_some hk', List.nodup_middle,
        List.nodup_cons] at h
      exact h.1 (List.mem_append_left _ (List.mem_filterMap.mpr ⟨x, hx, hk.trans hk'⟩))
    rw [upsertAll_cons, rows_upsertAll_of_nodup u (by rw [hupsert]; simpa using h), hupsert]
    simp

theorem key_mem_upsertRows {u : ConflictUpdate key} {r x : ρ} : ∀ {rows : List ρ},
    x ∈ upsertRows key u.merge r rows → ∃ y ∈ r :: rows, key x = key y
  | [], h => ⟨x, by simpa [upsertRows] using h, rfl⟩
  | old :: rows, h => by
    rw [upsertRows] at h
    split at h
    next =>
      rcases List.mem_cons.mp h with rfl | hx
      · exact ⟨old, by simp, u.key_merge _ _⟩
      · exact ⟨x, by simp [hx], rfl⟩
    next =>
      rcases List.mem_cons.mp h with rfl | hx
      · exact ⟨x, by simp, rfl⟩
      · obtain ⟨y, hy, hk⟩ := key_mem_upsertRows hx
        refine ⟨y, ?_, hk⟩
        rcases List.mem_cons.mp hy with rfl | hy' <;> simp_all

/-- Upserts bring in no other keys. -/
theorem key_mem_upsertAll {u : ConflictUpdate key} {t : Table key} {rs : List ρ} {x : ρ}
    (h : x ∈ (upsertAll u t rs).rows) : ∃ y ∈ t.rows ++ rs, key x = key y := by
  induction rs generalizing t with
  | nil => exact ⟨x, by simpa using h, rfl⟩
  | cons r rs ih =>
    obtain ⟨y, hy, hk⟩ := ih h
    rcases List.mem_append.mp hy with hy' | hy'
    · obtain ⟨z, hz, hk'⟩ := key_mem_upsertRows hy'
      refine ⟨z, ?_, hk.trans hk'⟩
      rcases List.mem_cons.mp hz with rfl | hz' <;> simp_all
    · exact ⟨y, by simp [hy'], hk⟩

/-- **What upserts leave** was there before or is one of them, when they overwrite. -/
theorem mem_upsertRows {u : ConflictUpdate key} (hu : u.Overwrites) {r x : ρ} : ∀ {rows : List ρ},
    x ∈ upsertRows key u.merge r rows → x = r ∨ x ∈ rows
  | [], h => Or.inl (List.mem_singleton.mp h)
  | old :: rows, h => by
    rw [upsertRows] at h
    split at h
    next hc =>
      obtain ⟨k, hk⟩ := Option.isSome_iff_exists.mp hc.1
      rw [hu old r k (hc.2.trans hk) hk] at h
      exact (List.mem_cons.mp h).imp_right (List.mem_cons_of_mem _)
    next =>
      rcases List.mem_cons.mp h with rfl | hx
      · exact Or.inr List.mem_cons_self
      · exact (mem_upsertRows hu hx).imp_right (List.mem_cons_of_mem _)

theorem mem_foldl_upsertRows {u : ConflictUpdate key} (hu : u.Overwrites) {x : ρ} {rs rows : List ρ}
    (h : x ∈ rs.foldl (fun rows r => upsertRows key u.merge r rows) rows) : x ∈ rs ∨ x ∈ rows := by
  induction rs generalizing rows with
  | nil => exact Or.inr h
  | cons r rs ih =>
    rcases ih h with hx | hx
    · exact Or.inl (List.mem_cons_of_mem _ hx)
    · rcases mem_upsertRows hu hx with rfl | hx'
      · exact Or.inl List.mem_cons_self
      · exact Or.inr hx'

theorem mem_upsertAll {u : ConflictUpdate key} (hu : u.Overwrites) {t : Table key} {rs : List ρ}
    {x : ρ} (h : x ∈ (upsertAll u t rs).rows) : x ∈ rs ∨ x ∈ t.rows :=
  mem_foldl_upsertRows hu (rows_upsertAll u t rs ▸ h)

theorem find?_upsertRows (u : ConflictUpdate key) (r : ρ) (k : κ) : ∀ rows : List ρ,
    (upsertRows key u.merge r rows).find? (fun x => key x = some k) =
      if key r = some k then
        some (match rows.find? (fun x => key x = some k) with
          | some old => u.merge old r
          | none => r)
      else rows.find? (fun x => key x = some k)
  | [] => by
    rw [upsertRows]
    by_cases hr : key r = some k <;> simp [hr]
  | old :: rows => by
    rw [upsertRows]
    by_cases hr : key r = some k
    · by_cases ho : key old = some k
      · simp [hr, ho, u.key_merge]
      · have ih := find?_upsertRows u r k rows
        simp only [hr, if_pos] at ih
        simp [hr, ho, ih]
    · by_cases hc : (key r).isSome ∧ key old = key r
      · simp [hc, u.key_merge, hr]
      · have ih := find?_upsertRows u r k rows
        rw [if_neg hr] at ih
        simp [hc, hr, ih, List.find?_cons]

/-- **What an upsert does to the row under a key.** -/
theorem find_upsert (u : ConflictUpdate key) (t : Table key) (r : ρ) (k : κ) :
    (upsert u t r).find k =
      if key r = some k then some (match t.find k with | some old => u.merge old r | none => r)
      else t.find k :=
  find?_upsertRows u r k t.rows

/-- An upsert that overwrites leaves the new row under its key. -/
theorem find_upsert_self {u : ConflictUpdate key} (hu : u.Overwrites) (t : Table key) {r : ρ}
    {k : κ} (hk : key r = some k) : (upsert u t r).find k = some r := by
  rw [find_upsert, if_pos hk]
  cases h : t.find k with
  | none => rfl
  | some old => exact congrArg some (hu old r k (mem_of_find h).2 hk)

/-- An upsert leaves the other keys alone. -/
theorem find_upsert_of_ne (u : ConflictUpdate key) (t : Table key) {r : ρ} {k : κ}
    (hk : key r ≠ some k) : (upsert u t r).find k = t.find k := by
  rw [find_upsert, if_neg hk]

/-- **What is stored after an upsert** that overwrites: the new row, and the rows of the other
keys. -/
theorem mem_upsert_iff {u : ConflictUpdate key} (hu : u.Overwrites) {t : Table key} {r x : ρ}
    {k : κ} (hk : key r = some k) (hx : key x ≠ none) :
    x ∈ (upsert u t r).rows ↔ x = r ∨ x ∈ t.rows ∧ key x ≠ some k := by
  obtain ⟨kx, hkx⟩ := Option.ne_none_iff_exists'.mp hx
  rw [mem_iff_find hkx, mem_iff_find hkx, hkx]
  rcases eq_or_ne kx k with rfl | hne
  · rw [find_upsert_self hu t hk]
    simp [eq_comm]
  · have hother : key r ≠ some kx := fun he => hne (Option.some.inj (he.symm.trans hk))
    have hxr : x ≠ r := by
      rintro rfl
      exact hother hkx
    rw [find_upsert_of_ne u t hother]
    simp [hxr, hne]

omit [DecidableEq κ] in
/-- Rows that all have a key are pairwise different. -/
theorem nodup_of_keyed (t : Table key) (h : ∀ r ∈ t.rows, key r ≠ none) : t.rows.Nodup := by
  refine (List.pairwise_filterMap.mp t.unique).imp_of_mem fun {x y} hx _ hne he => ?_
  obtain ⟨k, hk⟩ := Option.ne_none_iff_exists'.mp (h x hx)
  exact hne k hk k (he ▸ hk) rfl

/-- **After a batch of upserts that overwrite, the last row with the key decides.** -/
theorem find_upsertAll {u : ConflictUpdate key} (hu : u.Overwrites) (t : Table key) (rs : List ρ)
    (k : κ) :
    (upsertAll u t rs).find k =
      ((rs.filter fun r => key r = some k).getLast?).or (t.find k) := by
  induction rs generalizing t with
  | nil => simp
  | cons r rs ih =>
    rw [upsertAll_cons, ih]
    by_cases hk : key r = some k
    · rw [find_upsert_self hu t hk, List.filter_cons_of_pos (by simpa using hk),
        List.getLast?_cons]
      cases (rs.filter fun r => key r = some k).getLast? <;> simp
    · rw [find_upsert_of_ne u t hk, List.filter_cons_of_neg (by simpa using hk)]

/-- A batch without the key leaves it alone. -/
theorem find_upsertAll_of_not_mem (u : ConflictUpdate key) (t : Table key) {rs : List ρ} {k : κ}
    (h : ∀ r ∈ rs, key r ≠ some k) : (upsertAll u t rs).find k = t.find k := by
  induction rs generalizing t with
  | nil => rfl
  | cons r rs ih =>
    rw [upsertAll_cons, ih _ fun x hx => h x (List.mem_cons_of_mem _ hx),
      find_upsert_of_ne u t (h r List.mem_cons_self)]

/-- A batch that has one row with the key leaves that row under it. -/
theorem find_upsertAll_of_unique {u : ConflictUpdate key} (hu : u.Overwrites) (t : Table key)
    {rs : List ρ} {r : ρ} {k : κ} (hr : r ∈ rs) (hk : key r = some k)
    (hunique : ∀ x ∈ rs, key x = some k → x = r) : (upsertAll u t rs).find k = some r := by
  have hmem : r ∈ rs.filter fun x => key x = some k := List.mem_filter.mpr ⟨hr, by simpa using hk⟩
  obtain ⟨x, hx⟩ :=
    Option.isSome_iff_exists.mp (List.getLast?_isSome.mpr (List.ne_nil_of_mem hmem))
  obtain ⟨hxm, hxk⟩ := List.mem_filter.mp (List.mem_of_getLast? hx)
  rw [find_upsertAll hu, hx, hunique x hxm (by simpa using hxk)]
  rfl

/-- A batch with pairwise different keys leaves each of its rows under its key. -/
theorem find_upsertAll_of_mem {u : ConflictUpdate key} (hu : u.Overwrites) (t : Table key)
    {rs : List ρ} (hn : (rs.filterMap key).Nodup) {r : ρ} {k : κ} (hr : r ∈ rs)
    (hk : key r = some k) : (upsertAll u t rs).find k = some r := by
  exact find_upsertAll_of_unique hu t hr hk fun x hx hxk => eq_of_key hn hx hxk hr hk

/-! ### Upserting a batch again -/

theorem upsertRows_of_mem {merge : ρ → ρ → ρ} {r : ρ} {k : κ} (hk : key r = some k)
    (hmerge : merge r r = r) : ∀ {rows : List ρ},
    rows.find? (fun x => key x = some k) = some r → upsertRows key merge r rows = rows
  | [], h => by simp at h
  | old :: rows, h => by
    rw [List.find?_cons] at h
    rw [upsertRows]
    by_cases ho : key old = some k
    · obtain rfl : old = r := by simpa [ho] using h
      rw [if_pos ⟨by simp [hk], rfl⟩, hmerge]
    · rw [if_neg (by rw [hk]; exact fun hc => ho hc.2),
        upsertRows_of_mem hk hmerge (by simpa [ho] using h)]

/-- **A row that is stored already** is upserted without a change. -/
theorem upsert_of_find {u : ConflictUpdate key} (hu : u.Overwrites) {t : Table key} {r : ρ} {k : κ}
    (hk : key r = some k) (h : t.find k = some r) : upsert u t r = t := by
  have hrows : (upsert u t r).rows = t.rows := upsertRows_of_mem hk (hu r r k hk hk) h
  cases t
  simpa [upsert] using hrows

/-- A batch that is stored already is upserted without a change. -/
theorem upsertAll_of_find {u : ConflictUpdate key} (hu : u.Overwrites) {t : Table key}
    {rs : List ρ} (h : ∀ r ∈ rs, ∃ k, key r = some k ∧ t.find k = some r) :
    upsertAll u t rs = t := by
  induction rs with
  | nil => rfl
  | cons r rs ih =>
    obtain ⟨k, hk, hfind⟩ := h r List.mem_cons_self
    rw [upsertAll_cons, upsert_of_find hu hk hfind]
    exact ih fun x hx => h x (List.mem_cons_of_mem _ hx)

theorem length_upsertRows (merge : ρ → ρ → ρ) (r : ρ) : ∀ rows : List ρ,
    rows.length + (if key r = none then 1 else 0) ≤ (upsertRows key merge r rows).length
  | [] => by
    rw [upsertRows]
    split <;> simp
  | old :: rows => by
    have ih := length_upsertRows merge r rows
    rw [upsertRows]
    by_cases hc : (key r).isSome ∧ key old = key r
    · have hr : key r ≠ none := Option.isSome_iff_ne_none.mp hc.1
      rw [if_pos hc, if_neg hr]
      exact Nat.le_refl _
    · rw [if_neg hc, List.length_cons, List.length_cons]
      omega

/-- **Nulls are distinct**: every row of a batch without a key is inserted. -/
theorem length_upsertAll (u : ConflictUpdate key) (t : Table key) (rs : List ρ) :
    t.rows.length + rs.countP (fun r => key r = none) ≤ (upsertAll u t rs).rows.length := by
  induction rs generalizing t with
  | nil => simp
  | cons r rs ih =>
    have hone : t.rows.length + (if key r = none then 1 else 0) ≤ (upsert u t r).rows.length :=
      length_upsertRows u.merge r t.rows
    have hrest := ih (upsert u t r)
    rw [upsertAll_cons, List.countP_cons]
    simp only [decide_eq_true_eq]
    omega

/-- **Upserting a batch again** changes nothing exactly when every row of it has a key: the
others are inserted once more. -/
theorem upsertAll_upsertAll_perm_iff {u : ConflictUpdate key} (hu : u.Overwrites) (t : Table key)
    {rs : List ρ} (hn : (rs.filterMap key).Nodup) :
    (upsertAll u (upsertAll u t rs) rs).rows.Perm (upsertAll u t rs).rows ↔
      ∀ r ∈ rs, key r ≠ none := by
  constructor
  · intro h r hr hnone
    have hlength := length_upsertAll u (upsertAll u t rs) rs
    have hcount : 0 < rs.countP fun r => key r = none :=
      List.countP_pos_iff.mpr ⟨r, hr, by simpa using hnone⟩
    rw [h.length_eq] at hlength
    omega
  · intro h
    rw [upsertAll_of_find hu fun r hr => ?_]
    obtain ⟨k, hk⟩ := Option.ne_none_iff_exists'.mp (h r hr)
    exact ⟨k, hk, find_upsertAll_of_mem hu t hn hr hk⟩

/-- **A batch whose keys come again** is overwritten by the one that follows it. -/
theorem find_upsertAll_upsertAll {u : ConflictUpdate key} (hu : u.Overwrites) (t : Table key)
    {rs rs' : List ρ} (hkeys : ∀ r ∈ rs, ∃ r' ∈ rs', key r' = key r) (k : κ) :
    (upsertAll u (upsertAll u t rs) rs').find k = (upsertAll u t rs').find k := by
  by_cases hk : ∃ r ∈ rs, key r = some k
  · obtain ⟨r, hr, hrk⟩ := hk
    obtain ⟨r', hr', hrk'⟩ := hkeys r hr
    have hmem : r' ∈ rs'.filter fun x => key x = some k :=
      List.mem_filter.mpr ⟨hr', by simpa using hrk'.trans hrk⟩
    obtain ⟨x, hx⟩ :=
      Option.isSome_iff_exists.mp (List.getLast?_isSome.mpr (List.ne_nil_of_mem hmem))
    simp [find_upsertAll hu _ rs', hx]
  · have hnot : ∀ r ∈ rs, key r ≠ some k := fun r hr hrk => hk ⟨r, hr, hrk⟩
    rw [find_upsertAll hu, find_upsertAll_of_not_mem u t hnot, ← find_upsertAll hu]

/-- What upserts leave depends on what was found before. -/
theorem find_upsertAll_congr {u : ConflictUpdate key} (hu : u.Overwrites) {t t' : Table key}
    (h : ∀ k, t.find k = t'.find k) (rs : List ρ) (k : κ) :
    (upsertAll u t rs).find k = (upsertAll u t' rs).find k := by
  rw [find_upsertAll hu, find_upsertAll hu, h]

/-- **Tables whose rows all have keys** are told apart by what is found. -/
theorem perm_of_find {t t' : Table key} (ht : ∀ r ∈ t.rows, key r ≠ none)
    (ht' : ∀ r ∈ t'.rows, key r ≠ none) (h : ∀ k, t.find k = t'.find k) :
    t.rows.Perm t'.rows := by
  refine (List.perm_ext_iff_of_nodup (nodup_of_keyed t ht) (nodup_of_keyed t' ht')).mpr fun r => ?_
  constructor
  · intro hr
    obtain ⟨k, hk⟩ := Option.ne_none_iff_exists'.mp (ht r hr)
    rwa [mem_iff_find hk, ← h, ← mem_iff_find hk]
  · intro hr
    obtain ⟨k, hk⟩ := Option.ne_none_iff_exists'.mp (ht' r hr)
    rwa [mem_iff_find hk, h, ← mem_iff_find hk]

/-! ### Updates -/

/-- `UPDATE … SET … WHERE p`; the key columns are not updated. -/
def updateWhere (p : ρ → Prop) [DecidablePred p] (f : ρ → ρ) (hf : ∀ r, key (f r) = key r)
    (t : Table key) : Table key where
  rows := t.rows.map fun r => if p r then f r else r
  unique := by
    have hkey : key ∘ (fun r => if p r then f r else r) = key := by
      funext r
      by_cases hp : p r <;> simp [hp, hf]
    rw [List.filterMap_map, hkey]
    exact t.unique

/-- **What an update does to the row under a key.** -/
theorem find_updateWhere (p : ρ → Prop) [DecidablePred p] {f : ρ → ρ}
    (hf : ∀ r, key (f r) = key r) (t : Table key) (k : κ) :
    (t.updateWhere p f hf).find k = (t.find k).map fun r => if p r then f r else r := by
  have hkey : ∀ r, key (if p r then f r else r) = key r := fun r => by
    by_cases hp : p r <;> simp [hp, hf]
  rw [find, updateWhere, List.find?_map, find]
  simp only [Function.comp_def, hkey]

/-! ### Another order -/

omit [DecidableEq κ] in
/-- Any row may be the first one that is found. -/
theorem exists_find?_eq [DecidableEq ρ] {t : Table key} {r : ρ} (hr : r ∈ t.rows) :
    ∃ t' : Table key, t'.rows.Perm t.rows ∧ ∀ p : ρ → Bool, p r → t'.rows.find? p = some r := by
  have hperm : (r :: t.rows.erase r).Perm t.rows := (List.perm_cons_erase hr).symm
  exact ⟨⟨r :: t.rows.erase r, ((hperm.filterMap key).nodup_iff).mpr t.unique⟩, hperm,
    fun _ hp => List.find?_cons_of_pos hp⟩

/-! ### Deletions -/

/-- `DELETE … WHERE p`. -/
def deleteWhere (p : ρ → Prop) [DecidablePred p] (t : Table key) : Table key where
  rows := t.rows.filter fun r => ¬p r
  unique := t.unique.sublist (List.filter_sublist.filterMap key)

omit [DecidableEq κ] in
@[simp] theorem mem_deleteWhere (p : ρ → Prop) [DecidablePred p] {t : Table key} {r : ρ} :
    r ∈ (t.deleteWhere p).rows ↔ r ∈ t.rows ∧ ¬p r := by
  simp [deleteWhere]

end Table

end Relational
