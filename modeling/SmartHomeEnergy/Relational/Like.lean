import Mathlib.Data.List.Infix
import SmartHomeEnergy.Relational.Logic

/-!
# Patterns with wildcards

`x LIKE p` reads `p` as a pattern: `%` stands for any string, `_` for any one character, a
character after a backslash for itself, and every other character for itself too. A pattern
is read into a list of `Relational.LikeItem` first, and the items are then matched one by
one against the string; what a concatenation of patterns matches is what the parts match,
one after the other (`Relational.matchItems_append`).

Nothing in a string is escaped when it is put between two `%` to look for the strings that
contain it (`Relational.containing`). Wildcards in it are harmless in one respect: a string is
among those that contain it, as a pattern, unless there is a backslash in it
(`Relational.like_containing_self`).
-/

namespace Relational

/-- What a pattern asks for, one after the other. -/
inductive LikeItem
  /-- `%`: any string. -/
  | anything
  /-- `_`: any one character. -/
  | anyone
  | char (c : Char)
  deriving DecidableEq

/-- The items of a pattern. A backslash at the very end, which a database refuses, stands for
itself. -/
def likeItems : List Char → List LikeItem
  | [] => []
  | '\\' :: c :: p => .char c :: likeItems p
  | '%' :: p => .anything :: likeItems p
  | '_' :: p => .anyone :: likeItems p
  | c :: p => .char c :: likeItems p

/-- Matching the items against a string, by recursion on the items. -/
def matchItems : List LikeItem → List Char → Bool
  | [], s => s.isEmpty
  | .anything :: p, s => s.tails.any (matchItems p)
  | .anyone :: _, [] => false
  | .anyone :: p, _ :: s => matchItems p s
  | .char _ :: _, [] => false
  | .char c :: p, d :: s => c = d && matchItems p s

/-- `s LIKE p`. -/
def like (s p : String) : Bool := matchItems (likeItems p.toList) s.toList

/-- `x LIKE p` of nullable columns. -/
def nullLike (x p : Option String) : Tri := x.bind fun s => p.map fun p => like s p

@[simp] theorem holds_nullLike {x p : Option String} :
    (nullLike x p).Holds ↔ ∃ s q, x = some s ∧ p = some q ∧ like s q := by
  cases x <;> cases p <;> simp [nullLike, Tri.Holds]

/-- `'%' || s || '%'`. -/
def containing (s : String) : String := "%" ++ s ++ "%"

/-! ### Items one by one -/

section Items

variable {p q : List LikeItem} {s : List Char} {c : Char}

@[simp] theorem matchItems_nil : matchItems [] s ↔ s = [] := by
  rw [matchItems, List.isEmpty_iff]

@[simp] theorem matchItems_anything :
    matchItems (.anything :: p) s ↔ ∃ t, t <:+ s ∧ matchItems p t := by
  simp [matchItems, List.any_eq_true, List.mem_tails]

@[simp] theorem matchItems_anyone :
    matchItems (.anyone :: p) s ↔ ∃ c t, s = c :: t ∧ matchItems p t := by
  cases s <;> simp [matchItems]

@[simp] theorem matchItems_char :
    matchItems (.char c :: p) s ↔ ∃ t, s = c :: t ∧ matchItems p t := by
  cases s with
  | nil => simp [matchItems]
  | cons d s =>
    rw [matchItems, Bool.and_eq_true, decide_eq_true_eq]
    constructor
    · rintro ⟨rfl, hs⟩
      exact ⟨s, rfl, hs⟩
    · rintro ⟨t, ⟨⟩, ht⟩
      exact ⟨rfl, ht⟩

/-- **Patterns one after the other** match strings one after the other. -/
theorem matchItems_append : ∀ {p : List LikeItem} {s : List Char},
    matchItems (p ++ q) s ↔ ∃ s₁ s₂, s = s₁ ++ s₂ ∧ matchItems p s₁ ∧ matchItems q s₂
  | [], s => by simp
  | .anything :: p, s => by
    rw [List.cons_append, matchItems_anything]
    constructor
    · rintro ⟨t, ⟨u, rfl⟩, ht⟩
      obtain ⟨s₁, s₂, rfl, h₁, h₂⟩ := matchItems_append.mp ht
      exact ⟨u ++ s₁, s₂, (List.append_assoc ..).symm,
        matchItems_anything.mpr ⟨s₁, List.suffix_append .., h₁⟩, h₂⟩
    · rintro ⟨s₁, s₂, rfl, h₁, h₂⟩
      obtain ⟨t, ⟨u, rfl⟩, ht⟩ := matchItems_anything.mp h₁
      exact ⟨t ++ s₂, ⟨u, (List.append_assoc ..).symm⟩, matchItems_append.mpr ⟨t, s₂, rfl, ht, h₂⟩⟩
  | .anyone :: p, s => by
    rw [List.cons_append, matchItems_anyone]
    constructor
    · rintro ⟨c, t, rfl, ht⟩
      obtain ⟨s₁, s₂, rfl, h₁, h₂⟩ := matchItems_append.mp ht
      exact ⟨c :: s₁, s₂, rfl, matchItems_anyone.mpr ⟨c, s₁, rfl, h₁⟩, h₂⟩
    · rintro ⟨s₁, s₂, rfl, h₁, h₂⟩
      obtain ⟨c, t, rfl, ht⟩ := matchItems_anyone.mp h₁
      exact ⟨c, t ++ s₂, rfl, matchItems_append.mpr ⟨t, s₂, rfl, ht, h₂⟩⟩
  | .char c :: p, s => by
    rw [List.cons_append, matchItems_char]
    constructor
    · rintro ⟨t, rfl, ht⟩
      obtain ⟨s₁, s₂, rfl, h₁, h₂⟩ := matchItems_append.mp ht
      exact ⟨c :: s₁, s₂, rfl, matchItems_char.mpr ⟨s₁, rfl, h₁⟩, h₂⟩
    · rintro ⟨s₁, s₂, rfl, h₁, h₂⟩
      obtain ⟨t, rfl, ht⟩ := matchItems_char.mp h₁
      exact ⟨t ++ s₂, rfl, matchItems_append.mpr ⟨t, s₂, rfl, ht, h₂⟩⟩

end Items

/-! ### Strings that contain a string -/

section Containing

/-- The item a character stands for where it is not escaped. -/
def likeItem (c : Char) : LikeItem :=
  if c = '%' then .anything else if c = '_' then .anyone else .char c

theorem likeItems_cons {c : Char} (h : c ≠ '\\') (p : List Char) :
    likeItems (c :: p) = likeItem c :: likeItems p := by
  rw [likeItems.eq_def, likeItem]
  split <;> simp_all

/-- Without a backslash every character is read on its own. -/
theorem likeItems_append : ∀ {p : List Char}, '\\' ∉ p → ∀ q : List Char,
    likeItems (p ++ q) = p.map likeItem ++ likeItems q
  | [], _, q => rfl
  | c :: p, h, q => by
    obtain ⟨hc, hp⟩ := not_or.mp (List.mem_cons.not.mp h)
    rw [List.cons_append, likeItems_cons (Ne.symm hc), likeItems_append hp, List.map_cons,
      List.cons_append]

/-- A wildcard matches the character it is written with. -/
theorem matchItems_map_likeItem : ∀ s : List Char, matchItems (s.map likeItem) s
  | [] => rfl
  | c :: s => by
    have ih := matchItems_map_likeItem s
    rw [List.map_cons, likeItem]
    split_ifs
    · exact matchItems_anything.mpr ⟨s, List.suffix_cons .., ih⟩
    · exact matchItems_anyone.mpr ⟨c, s, rfl, ih⟩
    · exact matchItems_char.mpr ⟨s, rfl, ih⟩

/-- **A string contains itself**, wildcards and all, when there is no backslash in it. -/
theorem like_containing_self {s : String} (h : '\\' ∉ s.toList) : like s (containing s) := by
  have hpattern : (containing s).toList = '%' :: (s.toList ++ ['%']) := by
    simp [containing]
  rw [like, hpattern, likeItems_cons (by decide), likeItems_append h]
  refine matchItems_anything.mpr ⟨s.toList, List.suffix_refl _, ?_⟩
  refine matchItems_append.mpr ⟨s.toList, [], (List.append_nil _).symm,
    matchItems_map_likeItem _, ?_⟩
  exact matchItems_anything.mpr ⟨[], List.nil_suffix, rfl⟩

end Containing

example : like "heavy_appliance" (containing "appliance") ∧
    like "smartlamp" (containing "smart_lamp") = false ∧
    like "smart lamp" (containing "smart_lamp") ∧ like "a\\b" (containing "a\\b") = false := by
  decide +kernel

end Relational
