import Annealing.Grouping.Validity
import Annealing.Proofs.Preferences.Table
import Annealing.Proofs.Traversal
import Mathlib.Data.List.Nodup
import Mathlib.Data.Sym.Sym2
import Std.Data.DHashMap.Internal.WF

/-!
# Preferences — pairs that are named once

A rating is a row of a table of preferences, with its score as it is written or as it is read.  As
long as no two ratings name the same two members, in whichever order, no score that was put is
replaced by another one.  So the matrix holds the table as it stands, on both sides
(`Preferences.Tabulates`, `Preferences.ofRatings_tabulates`), and neither the order of the rows nor
that of the two members in a row matters (`Preferences.ofRatings_shuffled`).

* `Rating.pair` are the two members of a rating, in no order.
* `Preferences.extent` is the count of rows that all members of a table need.
* `Preferences.isFinite_ofPairs`: finite scores make finite preferences.
-/

namespace Annealing

/-- A row of a table of preferences: two members, and their score. -/
structure Rating (α : Type) where
  first : ℤ
  second : ℤ
  score : α

namespace Rating

variable {α β : Type}

/-- The members of a rating, in no order. -/
def pair (r : Rating α) : Sym2 ℤ := s(r.first, r.second)

/-- A rating whose members are in no order. -/
def unordered (r : Rating α) : Sym2 ℤ × α := (r.pair, r.score)

/-- A rating with another score. -/
def scored (r : Rating α) (x : β) : Rating β := ⟨r.first, r.second, x⟩

/-- No two ratings name the same members. -/
def NamedOnce (rows : List (Rating α)) : Prop := (rows.map pair).Nodup

/-- The same ratings in another order of rows, and of members in them. -/
def Shuffled (rows rows' : List (Rating α)) : Prop :=
  (rows.map unordered).Perm (rows'.map unordered)

/-- Ratings with other scores, row by row. -/
def rescored (rows : List (Rating α)) (xs : List β) : List (Rating β) :=
  (rows.zip xs).map fun r => r.1.scored r.2

section

variable {rows rows' : List (Rating α)}

theorem Shuffled.symm (h : Shuffled rows rows') : Shuffled rows' rows := List.Perm.symm h

/-- Every rating has its counterpart in the other order. -/
theorem Shuffled.counterpart (h : Shuffled rows rows') {r : Rating α} (hr : r ∈ rows) :
    ∃ r' ∈ rows', r'.pair = r.pair ∧ r'.score = r.score := by
  obtain ⟨r', hr', same⟩ := List.mem_map.mp (h.mem_iff.mp (List.mem_map_of_mem hr))
  exact ⟨r', hr', (Prod.ext_iff.mp same).1, (Prod.ext_iff.mp same).2⟩

theorem Shuffled.ne_nil (h : Shuffled rows rows') (some : rows ≠ []) : rows' ≠ [] := by
  rintro rfl
  exact some (List.map_eq_nil_iff.mp (List.Perm.eq_nil h))

theorem Shuffled.namedOnce (h : Shuffled rows rows') (once : NamedOnce rows) : NamedOnce rows' := by
  have pairs := List.Perm.map Prod.fst h
  rw [List.map_map, List.map_map] at pairs
  exact (List.Perm.nodup_iff pairs).mp once

/-- The scores are shuffled with their ratings. -/
theorem Shuffled.scores (h : Shuffled rows rows') : (rows.map score).Perm (rows'.map score) := by
  have scores := List.Perm.map Prod.snd h
  rwa [List.map_map, List.map_map] at scores

/-- Scores that are read one by one are those of the shuffled ratings, shuffled alike. -/
theorem Shuffled.map (h : Shuffled rows rows') (read : α → β) :
    Shuffled (rows.map fun r => r.scored (read r.score))
      (rows'.map fun r => r.scored (read r.score)) := by
  have scored := List.Perm.map (fun u : Sym2 ℤ × α => (u.1, read u.2)) h
  rw [Shuffled, List.map_map, List.map_map]
  rwa [List.map_map, List.map_map] at scored

end

/-- A member of a pair is named by it. -/
theorem mem_pair {r : Rating α} {n : ℤ} : n ∈ r.pair ↔ n = r.first ∨ n = r.second := Sym2.mem_iff

/-- Scores that are read one by one, with their ratings. -/
theorem rescored_map (rows : List (Rating α)) (read : α → β) :
    rescored rows ((rows.map score).map read) = rows.map fun r => r.scored (read r.score) := by
  have paired : (rows.map id).zip (rows.map (read ∘ score)) = rows.map fun r => (r, read r.score) :=
    List.zip_map'
  rw [List.map_id] at paired
  rw [rescored, List.map_map, paired, List.map_map]
  rfl

/-- Other scores leave the members as they are. -/
theorem map_rescored {rows : List (Rating α)} {xs : List β} (length : rows.length = xs.length)
    {γ : Type} {part : Rating α → γ} {part' : Rating β → γ}
    (same : ∀ r x, part' (r.scored x) = part r) :
    (rescored rows xs).map part' = rows.map part := by
  rw [rescored, List.map_map]
  conv_rhs => rw [← List.map_fst_zip length.le, List.map_map]
  exact List.map_congr_left fun r _ => same r.1 r.2

theorem map_score_rescored {rows : List (Rating α)} {xs : List β}
    (length : rows.length = xs.length) :
    (rescored rows xs).map score = xs := by
  rw [rescored, List.map_map]
  exact List.map_snd_zip length.ge

theorem namedOnce_rescored {rows : List (Rating α)} {xs : List β}
    (length : rows.length = xs.length) :
    NamedOnce (rescored rows xs) ↔ NamedOnce rows := by
  have pairs : ∀ (r : Rating α) (x : β), (r.scored x).pair = r.pair := fun _ _ => rfl
  rw [NamedOnce, map_rescored length pairs, NamedOnce]

end Rating

namespace Preferences

open Rating (NamedOnce Shuffled)

/-! ### Finite entries -/

theorem mem_values_iff {κ β : Type} [BEq κ] [LawfulBEq κ] [Hashable κ]
    {entries : Std.HashMap κ β} {x : β} :
    x ∈ entries.values ↔ ∃ key : κ, entries[key]? = some x := by
  have same : entries.values = entries.toList.map Prod.snd := by
    rw [Std.HashMap.values, Std.HashMap.toList, Std.DHashMap.values, Std.DHashMap.Const.toList,
      Std.DHashMap.Internal.Raw.values_eq_values_toListModel,
      Std.DHashMap.Internal.Raw.Const.toList_eq_toListModel_map,
      Std.Internal.List.values_eq_map, List.map_map]
    rfl
  rw [same, List.mem_map]
  constructor
  · rintro ⟨⟨key, y⟩, there, rfl⟩
    exact ⟨key, Std.HashMap.mem_toList_iff_getElem?_eq_some.mp there⟩
  · rintro ⟨key, there⟩
    exact ⟨(key, x), Std.HashMap.mem_toList_iff_getElem?_eq_some.mpr there, rfl⟩

/-- Preferences over zeros with finite changes. -/
def HasFiniteChanges (p : Preferences) : Prop :=
  p.ground = .zero ∧ ∀ (place : ℕ × ℕ) (x : Float), p.changes[place]? = some x → x.isFinite = true

theorem HasFiniteChanges.isFinite {p : Preferences} (h : HasFiniteChanges p) :
    p.isFinite = true := by
  rw [Preferences.isFinite, h.1, List.all_eq_true]
  intro x hx
  obtain ⟨place, there⟩ := mem_values_iff.mp hx
  exact h.2 place x there

theorem HasFiniteChanges.put {p : Preferences} (h : HasFiniteChanges p) (a b : ℕ) {x : Float}
    (hx : x.isFinite = true) :
    HasFiniteChanges (p.put a b x) := by
  by_cases inside : a < p.rows ∧ b < p.columns
  · rw [Preferences.put, if_pos inside]
    refine ⟨h.1, fun place y there => ?_⟩
    rw [Std.HashMap.getElem?_insert] at there
    by_cases here : ((a, b) == place) = true
    · rw [if_pos here] at there
      cases there
      exact hx
    · rw [if_neg here] at there
      exact h.2 place y there
  · rwa [Preferences.put, if_neg inside]

theorem HasFiniteChanges.foldl_put {p : Preferences} (h : HasFiniteChanges p) (place : Pair → ℕ × ℕ)
    {all : List Pair} (finite : ∀ q ∈ all, q.score.isFinite = true) :
    HasFiniteChanges (all.foldl (fun p q => p.put (place q).1 (place q).2 q.score) p) := by
  induction all generalizing p with
  | nil => exact h
  | cons q rest ih =>
      obtain ⟨first, others⟩ := List.forall_mem_cons.mp finite
      exact ih (h.put _ _ first) others

/-- **Finite scores make finite preferences.** -/
theorem isFinite_ofPairs (size : ℕ) {all : List Pair}
    (finite : ∀ q ∈ all, q.score.isFinite = true) :
    (ofPairs size all).isFinite = true := by
  have start : HasFiniteChanges (zero size size) :=
    ⟨rfl, fun place x there => by simp [zero, plain] at there⟩
  have forth := start.foldl_put (fun q => (q.first, q.second)) finite
  exact (forth.foldl_put (fun q => (q.second, q.first)) finite).isFinite

/-! ### The size -/

theorem foldl_max_le_iff {items : List ℤ} {greatest m : ℤ} :
    items.foldl max greatest ≤ m ↔ greatest ≤ m ∧ ∀ n ∈ items, n ≤ m := by
  induction items generalizing greatest with
  | nil => simp
  | cons n rest ih => rw [List.foldl_cons, ih, max_le_iff, List.forall_mem_cons, and_assoc]

section

variable {α β : Type} {rows rows' : List (Rating α)}

/-- The members that ratings name. -/
def ids (rows : List (Rating α)) : List ℤ := rows.map Rating.first ++ rows.map Rating.second

/-- The count of rows for the members that ratings name, and for those up to a greatest one. -/
def extent (greatest : ℤ) (rows : List (Rating α)) : ℕ :=
  ((ids rows).foldl max greatest + 1).toNat

theorem mem_ids {n : ℤ} : n ∈ ids rows ↔ ∃ r ∈ rows, n ∈ r.pair := by
  simp only [ids, List.mem_append, List.mem_map, Rating.mem_pair]
  constructor
  · rintro (⟨r, hr, rfl⟩ | ⟨r, hr, rfl⟩)
    · exact ⟨r, hr, .inl rfl⟩
    · exact ⟨r, hr, .inr rfl⟩
  · rintro ⟨r, hr, rfl | rfl⟩
    · exact .inl ⟨r, hr, rfl⟩
    · exact .inr ⟨r, hr, rfl⟩

/-- Ratings in another order name the same members. -/
theorem mem_ids_of_shuffled (h : Shuffled rows rows') {n : ℤ} : n ∈ ids rows ↔ n ∈ ids rows' := by
  have half : ∀ {rows rows' : List (Rating α)}, Shuffled rows rows' → n ∈ ids rows →
      n ∈ ids rows' := by
    intro rows rows' h hn
    obtain ⟨r, hr, there⟩ := mem_ids.mp hn
    obtain ⟨r', hr', pair, -⟩ := h.counterpart hr
    exact mem_ids.mpr ⟨r', hr', pair ▸ there⟩
  exact ⟨half h, half h.symm⟩

theorem extent_of_shuffled (h : Shuffled rows rows') (greatest : ℤ) :
    extent greatest rows = extent greatest rows' := by
  have same : (ids rows).foldl max greatest = (ids rows').foldl max greatest := by
    refine eq_of_forall_ge_iff fun m => ?_
    rw [foldl_max_le_iff, foldl_max_le_iff]
    exact and_congr_right fun _ => forall_congr' fun n => imp_congr_left (mem_ids_of_shuffled h)
  rw [extent, extent, same]

/-- The matrix has a row for every member of a table, and for those up to the greatest one. -/
theorem toNat_lt_extent {greatest n : ℤ} (natural : 0 ≤ n) (h : n ≤ greatest ∨ n ∈ ids rows) :
    n.toNat < extent greatest rows := by
  have bound : n ≤ (ids rows).foldl max greatest := by
    rcases h with h | h
    · exact h.trans (foldl_max_le_iff.mp le_rfl).1
    · exact (foldl_max_le_iff.mp le_rfl).2 n h
  rw [extent]
  omega

/-- Other scores change nothing about the members. -/
theorem ids_rescored {xs : List β} (length : rows.length = xs.length) :
    ids (Rating.rescored rows xs) = ids rows := by
  rw [ids, Rating.map_rescored length fun _ _ => rfl, Rating.map_rescored length fun _ _ => rfl,
    ids]

theorem extent_rescored {xs : List β} (length : rows.length = xs.length) (greatest : ℤ) :
    extent greatest (Rating.rescored rows xs) = extent greatest rows := by
  rw [extent, ids_rescored length, extent]

end

/-! ### What the matrix holds -/

/-- A square matrix with the score of every rating on both sides, and zeros elsewhere. -/
structure Tabulates (p : Preferences) (size : ℕ) (rows : List (Rating Float)) : Prop where
  rows_eq : p.rows = size
  columns_eq : p.columns = size
  rated : ∀ r ∈ rows, ∀ x y : ℕ, r.pair = s((x : ℤ), (y : ℤ)) → p.get? x y = some r.score
  unrated : ∀ x < size, ∀ y < size, (∀ r ∈ rows, r.pair ≠ s((x : ℤ), (y : ℤ))) → p.get? x y = some 0

/-- Matrices of one size with the same entries. -/
def Alike (p q : Preferences) : Prop :=
  p.rows = q.rows ∧ p.columns = q.columns ∧ ∀ x y, p.get? x y = q.get? x y

/-- **The order of a table does not matter.** -/
theorem Tabulates.alike {p q : Preferences} {size : ℕ} {rows rows' : List (Rating Float)}
    (h : Tabulates p size rows) (h' : Tabulates q size rows') (shuffled : Shuffled rows rows') :
    Alike p q := by
  refine ⟨h.rows_eq.trans h'.rows_eq.symm, h.columns_eq.trans h'.columns_eq.symm, fun x y => ?_⟩
  by_cases inside : x < size ∧ y < size
  · by_cases named : ∃ r ∈ rows, r.pair = s((x : ℤ), (y : ℤ))
    · obtain ⟨r, hr, pair⟩ := named
      obtain ⟨r', hr', pair', score⟩ := shuffled.counterpart hr
      rw [h.rated r hr x y pair, h'.rated r' hr' x y (pair'.trans pair), score]
    · have unnamed : ∀ r ∈ rows, r.pair ≠ s((x : ℤ), (y : ℤ)) := fun r hr pair =>
        named ⟨r, hr, pair⟩
      have unnamed' : ∀ r ∈ rows', r.pair ≠ s((x : ℤ), (y : ℤ)) := by
        intro r' hr' pair'
        obtain ⟨r, hr, pair, -⟩ := shuffled.symm.counterpart hr'
        exact unnamed r hr (pair.trans pair')
      rw [h.unrated x inside.1 y inside.2 unnamed, h'.unrated x inside.1 y inside.2 unnamed']
  · rw [get?, get?, h.rows_eq, h.columns_eq, h'.rows_eq, h'.columns_eq, if_neg inside,
      if_neg inside]

/-- A rating as a pair of rows of the matrix. -/
def pairOf (r : Rating Float) : Pair := ⟨r.first.toNat, r.second.toNat, r.score⟩

theorem pairUp_rescored {α : Type} (rows : List (Rating α)) (scores : List Float) :
    pairUp (rows.map Rating.first) (rows.map Rating.second) scores =
      (Rating.rescored rows scores).map pairOf := by
  rw [pairUp, List.zip_map', List.zip_map_left, Rating.rescored, List.map_map, List.map_map]
  rfl

theorem joins_iff_names {q : Pair} {x y : ℕ} :
    q.joins x y = true ↔ q.names x y = true ∨ q.names y x = true := by
  rw [Pair.joins, Bool.or_eq_true]

/-- A pair names two members exactly if its rating has these two. -/
theorem joins_iff {r : Rating Float} (natural : 0 ≤ r.first ∧ 0 ≤ r.second) {x y : ℕ} :
    (pairOf r).joins x y = true ↔ r.pair = s((x : ℤ), (y : ℤ)) := by
  have first : ∀ n : ℕ, r.first.toNat = n ↔ r.first = n := by
    intro n
    omega
  have second : ∀ n : ℕ, r.second.toNat = n ↔ r.second = n := by
    intro n
    omega
  simp only [joins_iff_names, Pair.names, pairOf, Bool.and_eq_true, beq_iff_eq, Rating.pair,
    Sym2.eq_iff, first, second]

/-- The last score among pairs of one score. -/
theorem latest_of_alike {all : List Pair} {test : Pair → Bool} {score : Float}
    (alike : ∀ q ∈ all, test q = true → q.score = score) :
    latest all test = none ∨ latest all test = some score := by
  rw [latest]
  cases last : (all.filter test).getLast? with
  | none => exact .inl rfl
  | some q =>
      obtain ⟨hq, passes⟩ := List.mem_filter.mp (List.mem_of_getLast? last)
      rw [Option.map_some, alike q hq passes]
      exact .inr rfl

/-- The entry of two members whose pairs all have one score. -/
theorem get?_ofPairs_of_alike {size : ℕ} {all : List Pair} {x y : ℕ} (hx : x < size) (hy : y < size)
    {score : Float} (alike : ∀ q ∈ all, q.joins x y = true → q.score = score) {q : Pair}
    (hq : q ∈ all) (joins : q.joins x y = true) :
    (ofPairs size all).get? x y = some score := by
  have forth : latest all (Pair.names x y) = none ∨ latest all (Pair.names x y) = some score :=
    latest_of_alike fun q hq names => alike q hq (joins_iff_names.mpr (.inl names))
  have back : latest all (Pair.names y x) = none ∨ latest all (Pair.names y x) = some score :=
    latest_of_alike fun q hq names => alike q hq (joins_iff_names.mpr (.inr names))
  rw [get?_ofPairs all hx hy]
  rcases back with none | some
  · rcases forth with none' | some'
    · rcases joins_iff_names.mp joins with names | names
      · exact absurd names (latest_eq_none_iff.mp none' q hq)
      · exact absurd names (latest_eq_none_iff.mp none q hq)
    · rw [none, some']
      rfl
  · rw [some]
    rfl

/-- The entry of two members without a pair. -/
theorem get?_ofPairs_of_none {size : ℕ} {all : List Pair} {x y : ℕ} (hx : x < size) (hy : y < size)
    (none : ∀ q ∈ all, ¬ q.joins x y = true) : (ofPairs size all).get? x y = some 0 := by
  have forth : latest all (Pair.names x y) = .none :=
    latest_eq_none_iff.mpr fun q hq names => none q hq (joins_iff_names.mpr (.inl names))
  have back : latest all (Pair.names y x) = .none :=
    latest_eq_none_iff.mpr fun q hq names => none q hq (joins_iff_names.mpr (.inr names))
  rw [get?_ofPairs all hx hy, forth, back]
  rfl

/-- **The matrix of ratings that name every pair once holds them all.** -/
theorem ofPairs_tabulates {greatest : ℤ} {rows : List (Rating Float)} (once : NamedOnce rows)
    (natural : ∀ n ∈ ids rows, 0 ≤ n) :
    Tabulates (ofPairs (extent greatest rows) (rows.map pairOf)) (extent greatest rows) rows := by
  obtain ⟨rows_eq, columns_eq⟩ := ofPairs_size (extent greatest rows) (rows.map pairOf)
  have natural' : ∀ r ∈ rows, 0 ≤ r.first ∧ 0 ≤ r.second := fun r hr =>
    ⟨natural _ (mem_ids.mpr ⟨r, hr, Rating.mem_pair.mpr (.inl rfl)⟩),
      natural _ (mem_ids.mpr ⟨r, hr, Rating.mem_pair.mpr (.inr rfl)⟩)⟩
  refine ⟨rows_eq, columns_eq, fun r hr x y pair => ?_, fun x hx y hy unnamed => ?_⟩
  · have inside : ∀ n : ℕ, (n : ℤ) ∈ r.pair → n < extent greatest rows := fun n hn =>
      toNat_lt_extent (Int.natCast_nonneg n) (.inr (mem_ids.mpr ⟨r, hr, hn⟩))
    have hx : x < extent greatest rows := inside x (pair ▸ Sym2.mem_mk_left _ _)
    have hy : y < extent greatest rows := inside y (pair ▸ Sym2.mem_mk_right _ _)
    refine get?_ofPairs_of_alike hx hy ?_ (List.mem_map_of_mem hr)
      ((joins_iff (natural' r hr)).mpr pair)
    -- another pair of these members would come from the same rating
    rw [List.forall_mem_map]
    intro r' hr' joins
    have same : r' = r :=
      List.inj_on_of_nodup_map once hr' hr
        (((joins_iff (natural' r' hr')).mp joins).trans pair.symm)
    rw [same]
    rfl
  · refine get?_ofPairs_of_none hx hy (List.forall_mem_map.mpr fun r hr joins => ?_)
    exact unnamed r hr ((joins_iff (natural' r hr)).mp joins)

/-! ### Tables -/

/-- The preferences of ratings, with rows for the members up to `greatest` at least. -/
def ofRatings (greatest : ℤ) (rows : List (Rating Float)) : Except Fault Preferences :=
  if (ids rows).any (· < 0) then .error .negativePreferenceMember
  else do
    checkTable (extent greatest rows)
    return ofPairs (extent greatest rows) (rows.map pairOf)

/-- A table whose members are integers holds the preferences of its ratings, if its scores are
read. -/
theorem ofTable_integers {α : Type} {t : Table} {rows : List (Rating α)} {cells : List Table.Cell}
    (a : t.cells? "a" = some ((rows.map Rating.first).map .word))
    (b : t.cells? "b" = some ((rows.map Rating.second).map .word))
    (score : t.cells? "score" = some cells) (length : cells.length = rows.length) (greatest : ℤ) :
    ofTable t (.int greatest) =
      cells.mapM Table.Cell.score >>= fun scores =>
        ofRatings greatest (Rating.rescored rows scores) := by
  have numbers : ∀ ns : List ℤ, (ns.map .word).mapM Table.Cell.rowNumber = .ok ns := fun ns =>
    mapM_ok_of_inverse fun _ _ => rfl
  simp only [ofTable, a, b, score, numbers]
  cases read : cells.mapM Table.Cell.score with
  | error f => rfl
  | ok scores =>
      have even : rows.length = scores.length := length.symm.trans (mapM_ok_iff.mp read).length_eq
      change _ = ofRatings greatest (Rating.rescored rows scores)
      rw [ofRatings, ids_rescored even, extent_rescored even, ← pairUp_rescored]
      by_cases negative : (ids rows).any (· < 0) = true
      · rw [if_pos negative]
        rw [ids] at negative
        simp only [bind, Except.bind, negative, if_true]
        rfl
      · rw [if_neg negative]
        rw [ids] at negative
        simp only [bind, Except.bind, if_neg negative]
        rfl

section

variable {greatest : ℤ} {rows : List (Rating Float)}

theorem any_negative_iff {α : Type} {rows : List (Rating α)} :
    (ids rows).any (· < 0) = true ↔ ∃ n ∈ ids rows, n < 0 := by
  simp only [List.any_eq_true, decide_eq_true_eq]

theorem not_any_negative (natural : ∀ n ∈ ids rows, 0 ≤ n) : ¬ (ids rows).any (· < 0) = true := by
  rw [any_negative_iff]
  rintro ⟨n, hn, low⟩
  exact absurd (natural n hn) low.not_ge

theorem checkTable_ne {size : ℕ} : checkTable size ≠ .error .negativePreferenceMember := by
  intro h
  simp only [checkTable, checkArray] at h
  split_ifs at h <;> cases h

/-- **Members below zero are refused**, and nothing else is with these words. -/
theorem ofRatings_negative_iff :
    ofRatings greatest rows = .error .negativePreferenceMember ↔ ∃ n ∈ ids rows, n < 0 := by
  rw [ofRatings, ← any_negative_iff]
  by_cases negative : (ids rows).any (· < 0) = true
  · rw [if_pos negative]
    exact iff_of_true rfl negative
  · rw [if_neg negative]
    refine iff_of_false (fun failed => ?_) negative
    rcases except_bind_error_iff.mp failed with failed | ⟨_, _, h⟩
    · exact checkTable_ne failed
    · cases h

/-- A matrix that cannot be made is refused. -/
theorem ofRatings_large (natural : ∀ n ∈ ids rows, 0 ≤ n) {f : Fault}
    (large : checkTable (extent greatest rows) = .error f) :
    ofRatings greatest rows = .error f := by
  rw [ofRatings, if_neg (not_any_negative natural), large]
  rfl

/-- **Ratings that name every pair once make the matrix that holds them.** -/
theorem ofRatings_tabulates (once : NamedOnce rows) (natural : ∀ n ∈ ids rows, 0 ≤ n)
    (fits : checkTable (extent greatest rows) = .ok ()) :
    ∃ q, ofRatings greatest rows = .ok q ∧ Tabulates q (extent greatest rows) rows ∧
      ((∀ r ∈ rows, r.score.isFinite = true) → q.isFinite = true) := by
  refine ⟨_, ?_, ofPairs_tabulates once natural,
    fun finite => isFinite_ofPairs _ (List.forall_mem_map.mpr finite)⟩
  rw [ofRatings, if_neg (not_any_negative natural), fits]
  rfl

/-- **Ratings in another order make a matrix that is alike**, or are refused with the same words. -/
theorem ofRatings_shuffled (once : NamedOnce rows) {rows' : List (Rating Float)}
    (shuffled : Shuffled rows rows') :
    (∀ f, ofRatings greatest rows = .error f ↔ ofRatings greatest rows' = .error f) ∧
      ∀ q, ofRatings greatest rows = .ok q → ∃ q', ofRatings greatest rows' = .ok q' ∧
        Alike q q' := by
  have same := extent_of_shuffled shuffled greatest
  by_cases negative : ∃ n ∈ ids rows, n < 0
  · have negative' : ∃ n ∈ ids rows', n < 0 := by
      simpa only [mem_ids_of_shuffled shuffled] using negative
    rw [ofRatings_negative_iff.mpr negative, ofRatings_negative_iff.mpr negative']
    exact ⟨fun f => Iff.rfl, nofun⟩
  · have natural : ∀ n ∈ ids rows, 0 ≤ n := fun n hn => not_lt.mp fun low => negative ⟨n, hn, low⟩
    have natural' : ∀ n ∈ ids rows', 0 ≤ n := fun n hn =>
      natural n ((mem_ids_of_shuffled shuffled).mpr hn)
    cases fits : checkTable (extent greatest rows) with
    | ok =>
        obtain ⟨q, made, holds, -⟩ := ofRatings_tabulates once natural fits
        obtain ⟨q', made', holds', -⟩ :=
          ofRatings_tabulates (shuffled.namedOnce once) natural' (same ▸ fits)
        rw [made, made']
        refine ⟨fun f => iff_of_false nofun nofun, fun p found => ?_⟩
        cases found
        exact ⟨q', rfl, holds.alike (same ▸ holds') shuffled⟩
    | error e =>
        rw [ofRatings_large natural fits, ofRatings_large natural' (same ▸ fits)]
        exact ⟨fun f => Iff.rfl, nofun⟩

end

/-- Finite square preferences are valid for members that they have rows for. -/
theorem validate_of_isFinite {p : Preferences} (square : p.rows = p.columns)
    (finite : p.isFinite = true) {members : List ℤ} (covered : ∀ n ∈ members, n < p.rows) :
    p.validate members = .ok () := by
  have inside : members.any (· ≥ (p.rows : ℤ)) = false :=
    List.any_eq_false.mpr fun n hn => by simpa using covered n hn
  simp only [validate, isSquare, square, beq_self_eq_true, Bool.not_true, Bool.false_eq_true,
    if_false]
  rw [← square, inside, finite]
  rfl

end Preferences

end Annealing
