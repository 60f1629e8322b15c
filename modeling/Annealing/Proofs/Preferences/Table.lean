import Annealing.Proofs.Preferences.Size

/-!
# Preferences — the last score of a pair

The scores of a table are put into the matrix in two passes, at `(a, b)` first and at `(b, a)` then.
Within a pass the last row of a place counts, but the second pass counts more than the first,
whatever the order of the rows (`Preferences.get?_ofPairs`).  So the matrix has the last score of
either order on both sides as long as no pair is named in both orders with different last scores,
and only then (`Preferences.ofTable_symmetric_iff`).  A table with such a pair makes a matrix that
is not symmetric (`Preferences.bothOrders_asymmetric`).

* `Preferences.latest` is the score of the last pair of a list that passes a test.
-/

namespace Annealing.Preferences

/-- Whether a pair names these two members in this order. -/
def Pair.names (x y : Nat) (r : Pair) : Bool := r.first == x && r.second == y

/-- Whether a pair names these two members in either order. -/
def Pair.joins (x y : Nat) (r : Pair) : Bool := r.names x y || r.names y x

/-- The score of the last pair that passes a test. -/
def latest (all : List Pair) (test : Pair → Bool) : Option Float :=
  (all.filter test).getLast?.map Pair.score

theorem latest_cons (r : Pair) (rest : List Pair) (test : Pair → Bool) :
    latest (r :: rest) test = (latest rest test).or (if test r then some r.score else none) := by
  by_cases passes : test r
  · simp only [latest, List.filter_cons_of_pos passes, if_pos passes, List.getLast?_cons]
    cases (rest.filter test).getLast? <;> rfl
  · simp [latest, passes]

theorem latest_eq_none_iff {all : List Pair} {test : Pair → Bool} :
    latest all test = none ↔ ∀ r ∈ all, ¬ test r := by
  simp [latest]

/-- A kind without a pair does not count. -/
theorem latest_or_of_none {all : List Pair} {test other : Pair → Bool}
    (h : latest all other = none) :
    latest all (fun r => test r || other r) = latest all test ∧
      latest all (fun r => other r || test r) = latest all test := by
  have no := latest_eq_none_iff.mp h
  have right : all.filter (fun r => test r || other r) = all.filter test :=
    List.filter_congr fun r hr => by simp [no r hr]
  have left : all.filter (fun r => other r || test r) = all.filter test :=
    List.filter_congr fun r hr => by simp [no r hr]
  simp only [latest, right, left, and_self]

/-- The last pair of two kinds is the last of one of them. -/
theorem latest_or (all : List Pair) (test other : Pair → Bool) :
    latest all (fun r => test r || other r) = latest all test ∨
      latest all (fun r => test r || other r) = latest all other := by
  induction all with
  | nil => exact .inl rfl
  | cons r rest ih =>
      simp only [latest_cons]
      cases h : latest rest fun r => test r || other r with
      | some score =>
          rw [h] at ih
          rcases ih with h | h
          · rw [← h]
            exact .inl rfl
          · rw [← h]
            exact .inr rfl
      | none =>
          have neither := latest_eq_none_iff.mp h
          have noTest : latest rest test = none :=
            latest_eq_none_iff.mpr fun s hs ht => neither s hs (by simp [ht])
          have noOther : latest rest other = none :=
            latest_eq_none_iff.mpr fun s hs ho => neither s hs (by simp [ho])
          rw [noTest, noOther]
          cases ht : test r with
          | true => exact .inl (by simp)
          | false => exact .inr (by simp)

/-! ### The two passes -/

/-- What a place holds after a pass: the score of the last pair that was put there. -/
theorem get?_foldl_put {place : Pair → Nat × Nat} {test : Pair → Bool} {x y : Nat}
    (tests : ∀ r, test r = true ↔ (place r).1 = x ∧ (place r).2 = y) (all : List Pair)
    (p : Preferences) (hx : x < p.rows) (hy : y < p.columns) :
    (all.foldl (fun p r => p.put (place r).1 (place r).2 r.score) p).get? x y =
      (latest all test).or (p.get? x y) := by
  induction all generalizing p with
  | nil => rfl
  | cons r rest ih =>
      rw [List.foldl_cons, ih _ (by simpa using hx) (by simpa using hy), latest_cons, get?_put]
      by_cases here : test r
      · have same := (tests r).mp here
        simp [here, same, hx, hy]
      · have other : ¬ ((place r).1 = x ∧ (place r).2 = y) := fun same => here ((tests r).mpr same)
        simp [here, other]

/-- **The second pass counts more than the first.** -/
theorem get?_ofPairs {size : Nat} (all : List Pair) {x y : Nat} (hx : x < size) (hy : y < size) :
    (ofPairs size all).get? x y =
      some (((latest all (Pair.names y x)).or (latest all (Pair.names x y))).getD 0) := by
  have forth : ∀ r : Pair, Pair.names x y r = true ↔ (r.first, r.second).1 = x ∧
      (r.first, r.second).2 = y := by
    simp [Pair.names]
  have back : ∀ r : Pair, Pair.names y x r = true ↔ (r.second, r.first).1 = x ∧
      (r.second, r.first).2 = y := by
    simp [Pair.names, and_comm]
  obtain ⟨rows, columns⟩ :=
    foldl_put_size (fun r : Pair => (r.first, r.second)) Pair.score all (zero size size)
  have first := get?_foldl_put forth all (zero size size) hx hy
  have second := get?_foldl_put back all
    (all.foldl (fun p r => p.put r.first r.second r.score) (zero size size))
    (rows ▸ hx) (columns ▸ hy)
  have ground : (zero size size).get? x y = some 0 := by
    simp [zero, plain, get?, hx, hy, Ground.entry]
  unfold ofPairs
  rw [second, first, ground]
  cases latest all (Pair.names y x) <;> cases latest all (Pair.names x y) <;> rfl

/-! ### When both sides agree -/

section

variable (same : Float → Float → Prop)

/-- On both sides of every place stands the score of the last pair that joins its members. -/
def IsLastScored (p : Preferences) (all : List Pair) : Prop :=
  ∀ x < p.rows, ∀ y < p.rows, ∃ u v, p.get? x y = some u ∧ p.get? y x = some v ∧ same u v ∧
    same u ((latest all (Pair.joins x y)).getD 0)

/-- Members that are named in both orders have the same last score in both. -/
def Agree (size : Nat) (all : List Pair) : Prop :=
  ∀ x < size, ∀ y < size, ∀ u v, latest all (Pair.names x y) = some u →
    latest all (Pair.names y x) = some v → same u v

variable {same}

theorem ofPairs_isLastScored_iff (refl : ∀ u, same u u) (size : Nat) (all : List Pair) :
    IsLastScored same (ofPairs size all) all ↔ Agree same size all := by
  obtain ⟨rows, -⟩ := ofPairs_size size all
  unfold IsLastScored
  rw [rows]
  constructor
  · intro symmetric x hx y hy u v hu hv
    obtain ⟨a, b, ha, hb, hab, -⟩ := symmetric y hy x hx
    rw [get?_ofPairs all hy hx, hu] at ha
    rw [get?_ofPairs all hx hy, hv] at hb
    cases ha
    cases hb
    exact hab
  · intro agree x hx y hy
    refine ⟨_, _, get?_ofPairs all hx hy, get?_ofPairs all hy hx, ?_⟩
    change same _ _ ∧ same _ ((latest all fun r => r.names x y || r.names y x).getD 0)
    cases hxy : latest all (Pair.names x y) with
    | none =>
        rw [(latest_or_of_none hxy).2]
        cases latest all (Pair.names y x) <;> exact ⟨refl _, refl _⟩
    | some u =>
        cases hyx : latest all (Pair.names y x) with
        | none =>
            rw [(latest_or_of_none hyx).1, hxy]
            exact ⟨refl _, refl _⟩
        | some v =>
            have hvu : same v u := agree y hy x hx v u hyx hxy
            rcases latest_or all (Pair.names x y) (Pair.names y x) with h | h
            · rw [h, hxy]
              exact ⟨hvu, hvu⟩
            · rw [h, hyx]
              exact ⟨hvu, refl _⟩

end

/-! ### Tables -/

/-- The pairs that a table lists, row by row. -/
def Lists (t : Table) (all : List Pair) : Prop :=
  ∃ (a b score : List Table.Cell) (first second : List Int) (scores : List Float),
    t.cells? "a" = some a ∧ t.cells? "b" = some b ∧ t.cells? "score" = some score ∧
    a.mapM Table.Cell.rowNumber = .ok first ∧ b.mapM Table.Cell.rowNumber = .ok second ∧
    score.mapM Table.Cell.score = .ok scores ∧ all = pairUp first second scores

theorem le_foldl_max {items : List Int} {m : Int} (hm : m ∈ items) (g : Int) :
    m ≤ items.foldl max g := by
  have grows : ∀ (l : List Int) (g : Int), g ≤ l.foldl max g := by
    intro l
    induction l with
    | nil => exact fun g => Int.le_refl g
    | cons x rest ih => exact fun g => Int.le_trans (Int.le_max_left g x) (ih (max g x))
  induction items generalizing g with
  | nil => cases hm
  | cons x rest ih =>
      rcases List.mem_cons.mp hm with rfl | hm
      · exact Int.le_trans (Int.le_max_right g m) (grows rest (max g m))
      · exact ih hm (max g x)

/-- The members of pairs that were put together. -/
theorem mem_pairUp {first second : List Int} {scores : List Float} {r : Pair}
    (h : r ∈ pairUp first second scores) : ∃ m ∈ first, ∃ n ∈ second, r.first = m.toNat ∧
    r.second = n.toNat := by
  obtain ⟨⟨⟨m, n⟩, score⟩, hz, rfl⟩ := List.mem_map.mp h
  have hmn := (List.of_mem_zip hz).1
  exact ⟨m, (List.of_mem_zip hmn).1, n, (List.of_mem_zip hmn).2, rfl, rfl⟩

/-- **When the matrix of a table has the last score of every pair on both sides.** -/
theorem ofTable_symmetric_iff {same : Float → Float → Prop} (refl : ∀ u, same u u) {t : Table}
    {greatest : Value} {p : Preferences} (h : ofTable t greatest = .ok p) :
    ∃ all, Lists t all ∧ p.rows = p.columns ∧ (∀ r ∈ all, r.first < p.rows ∧ r.second < p.rows) ∧
      (IsLastScored same p all ↔ Agree same p.rows all) := by
  obtain ⟨a, b, score, first, second, scores, g, ha, hb, hs, h₁, h₂, h₃, natural, -, -, rfl⟩ :=
    ofTable_ok h
  obtain ⟨rows, columns⟩ :=
    ofPairs_size ((first ++ second).foldl max g + 1).toNat (pairUp first second scores)
  refine ⟨_, ⟨a, b, score, first, second, scores, ha, hb, hs, h₁, h₂, h₃, rfl⟩,
    rows.trans columns.symm, ?_, ?_⟩
  · intro r hr
    obtain ⟨m, hm, n, hn, hrm, hrn⟩ := mem_pairUp hr
    have hm' : m ∈ first ++ second := List.mem_append_left _ hm
    have hn' : n ∈ first ++ second := List.mem_append_right _ hn
    have := natural m hm'
    have := natural n hn'
    have := le_foldl_max hm' g
    have := le_foldl_max hn' g
    omega
  · rw [rows]
    exact ofPairs_isLastScored_iff refl _ _

/-- A table that names two members in both orders, with different scores. -/
def bothOrders : Table where
  columns := [("a".toList, [.word 0, .word 1]), ("b".toList, [.word 1, .word 0]),
    ("score".toList, [.word 5, .word 7])]
  height := 2

theorem bothOrders_asymmetric :
    ∃ p, ofTable bothOrders (.int 1) = .ok p ∧ Lists bothOrders [⟨0, 1, 5⟩, ⟨1, 0, 7⟩] ∧
      p.get? 0 1 = some 7 ∧ p.get? 1 0 = some 5 ∧ (7 : Float) ≠ 5 ∧
      latest [⟨0, 1, 5⟩, ⟨1, 0, 7⟩] (Pair.joins 0 1) = some 7 := by
  refine ⟨ofPairs 2 [⟨0, 1, 5⟩, ⟨1, 0, 7⟩], by rfl, ?_, ?_, ?_, by decide, rfl⟩
  · exact ⟨_, _, _, _, _, _, rfl, rfl, rfl, rfl, rfl, rfl, rfl⟩
  · exact get?_ofPairs _ (by decide) (by decide)
  · exact get?_ofPairs _ (by decide) (by decide)

theorem bothOrders_symmetric_iff :
    ∃ p all, ofTable bothOrders (.int 1) = .ok p ∧ Lists bothOrders all ∧
      (IsLastScored (· = ·) p all ↔ Agree (· = ·) p.rows all) := by
  obtain ⟨p, h⟩ : ∃ p, ofTable bothOrders (.int 1) = .ok p := ⟨_, rfl⟩
  obtain ⟨all, lists, -, -, iff⟩ := ofTable_symmetric_iff (fun u : Float => Eq.refl u) h
  exact ⟨p, all, h, lists, iff⟩

end Annealing.Preferences
