import Annealing.Proofs.Dataset.Rows
import Annealing.Proofs.Grouping.Grouped
import Annealing.Proofs.Table.Pairs

/-!
# Dataset — tables of integers

A file holds rows of groups and members (`Dataset.HoldsGroups`) if its columns of these names hold
integers of 64 bits, row by row, whatever other columns it has and however the integers are written.
It is loaded as the grouping by these keys (`Dataset.HoldsGroups.found`).  So the groups stand in
the order of their numbers and members in the order of their rows, rows of different groups may be
exchanged, and groups that were written come back (`Dataset.found_stable`).
-/

namespace Annealing.Dataset

open Table (textAt ofOctets words? IsWord ofPairs)

/-- The table in a file has integers of 64 bits as numbers of groups and as members, row by row. -/
structure HoldsGroups (tree : Tree) (p : Path) (rows : List (ℤ × ℤ)) : Prop where
  bounds : ∀ r ∈ rows, IsWord r.1 ∧ IsWord r.2
  written : ∃ octets t groups members, textAt tree p = .ok octets ∧ ofOctets octets = .ok t ∧
    words? octets "group" = some groups ∧ words? octets "member" = some members ∧
    List.Forall₂ Table.Word.Writes groups (rows.map (·.1)) ∧
    List.Forall₂ Table.Word.Writes members (rows.map (·.2))

/-- The grouping in two columns of integers. -/
theorem ofTable_integers {t : Table} {rows : List (ℤ × ℤ)}
    (group : t.cells? "group" = some ((rows.map (·.1)).map .word))
    (member : t.cells? "member" = some ((rows.map (·.2)).map .word)) :
    Grouping.ofTable t = .ok (Grouping.grouped rows) := by
  have keyed : Grouping.keyed (((rows.map (·.1)).map .word).map Table.Cell.key?) (rows.map (·.2)) =
      rows.map fun r => (.int r.1, r.2) := by
    rw [Grouping.keyed, List.map_map, List.map_map, List.zip_map', List.filterMap_map]
    exact congrFun (List.filterMap_eq_map (f := fun r : ℤ × ℤ => (Value.int r.1, r.2))) rows
  have cells : Grouping.byKey (Grouping.keyed (((rows.map (·.1)).map .word).map Table.Cell.key?)
    ((rows.map (·.2)).map .word)) =
      (Grouping.grouped rows).map (List.map Table.Cell.word) := by
    rw [Grouping.keyed_map, Grouping.byKey_map, keyed, Grouping.byKey_grouped]
  rw [Grouping.ofTable_ok_iff group member, cells, List.forall₂_map_left_iff, List.forall₂_same]
  intro ns _
  rw [List.forall₂_map_left_iff, List.forall₂_same]
  exact fun _ _ => rfl

variable {tree : Tree} {p : Path} {rows : List (ℤ × ℤ)} (entries : Entries) (knots : Knots)

/-- **A table of integers is loaded as the grouping by their keys.** -/
theorem HoldsGroups.found (h : HoldsGroups tree p rows) (some : rows ≠ []) :
    findGroups Tree.storage entries knots (.some p) tree = .ok (Grouping.grouped rows) tree := by
  obtain ⟨octets, t, groups, members, text, read, group, member, writes, writes'⟩ := h.written
  obtain ⟨keys, group_eq, made, height⟩ := Table.cells_of_words read group
  obtain ⟨cells, member_eq, made', -⟩ := Table.cells_of_words read member
  rw [Table.Column.ofWords_integers writes (List.forall_mem_map.mpr fun r hr => (h.bounds r hr).1)]
    at made
  rw [Table.Column.ofWords_integers writes' (List.forall_mem_map.mpr fun r hr => (h.bounds r hr).2)]
    at made'
  cases made
  cases made'
  have nonempty : t.height ≠ 0 := by
    rw [← height, writes.length_eq, List.length_map]
    exact mt List.length_eq_zero_iff.mp some
  have loaded := Table.load_ok_iff.mpr ⟨rfl, octets, text, read, nonempty⟩
  exact findGroups_ok_iff.mpr ⟨t, loaded, ofTable_integers group_eq member_eq⟩

/-- Pairs that were written as a table are held by the file with it. -/
theorem holdsGroups_ofPairs (bounds : ∀ r ∈ rows, IsWord r.1 ∧ IsWord r.2)
    (text : textAt tree p = .ok (Text.Utf8.encode (ofPairs "group" "member" rows))) :
    HoldsGroups tree p rows := by
  have simple : Table.Simple "group".toList := by decide +kernel
  have other : "group" ≠ "member" := by decide
  obtain ⟨words, words'⟩ := Table.words_ofPairs simple rows other
  obtain ⟨writes, writes'⟩ := Table.columnsOfPairs_write rows
  exact ⟨bounds, _, _, _, _, text, Table.ofOctets_ofPairs simple rows bounds, words, words',
    writes, writes'⟩

/-- Groups with ascending keys come back from a file with their rows. -/
theorem HoldsGroups.found_groups {keys : List ℤ} {g : Grouping ℤ} (ascend : keys.Pairwise (· < ·))
    (length : keys.length = g.length) (nonempty : g ≠ []) (some : ∀ group ∈ g, group ≠ [])
    (h : HoldsGroups tree p (Grouping.rowsOfGroups (keys.zip g))) :
    findGroups Tree.storage entries knots (.some p) tree = .ok g tree := by
  have ascend' : (keys.zip g).Pairwise fun a b => a.1 < b.1 := by
    rw [← List.pairwise_map (f := Prod.fst) (R := (· < ·)), List.map_fst_zip length.le]
    exact ascend
  have some' : ∀ group ∈ keys.zip g, group.2 ≠ [] := fun group hgroup =>
    some group.2 (List.of_mem_zip hgroup).2
  have rows : Grouping.rowsOfGroups (keys.zip g) ≠ [] := by
    intro none
    have again := Grouping.grouped_rowsOfGroups ascend' some'
    rw [none, Grouping.grouped_nil, List.map_snd_zip length.ge] at again
    exact nonempty again.symm
  rw [h.found entries knots rows, Grouping.grouped_rowsOfGroups ascend' some',
    List.map_snd_zip length.ge]

/-- **Tables of integers are loaded stably.**  There is one group for every key, by ascending key,
with the members of its rows in their order; so rows may be exchanged with those of other keys, and
groups that were written with ascending keys come back. -/
theorem found_stable :
    (∀ {tree : Tree} {p : Path} {rows : List (ℤ × ℤ)}, HoldsGroups tree p rows → rows ≠ [] →
      ∃ keys : List ℤ, keys.Pairwise (· < ·) ∧ (∀ key, key ∈ keys ↔ ∃ r ∈ rows, r.1 = key) ∧
        findGroups Tree.storage entries knots (some p) tree =
          .ok (keys.map fun key => (rows.filter fun r => decide (r.1 = key)).map (·.2)) tree) ∧
    (∀ {tree tree' : Tree} {p p' : Path} {rows rows' : List (ℤ × ℤ)}, HoldsGroups tree p rows →
      HoldsGroups tree' p' rows' →
      rows ≠ [] → (∀ key, (rows'.filter fun r => decide (r.1 = key)) =
        rows.filter fun r => decide (r.1 = key)) →
      ∃ g, findGroups Tree.storage entries knots (some p) tree = .ok g tree ∧
        findGroups Tree.storage entries knots (some p') tree' = .ok g tree') ∧
    (∀ {tree : Tree} {p : Path} {keys : List ℤ} {g : Grouping ℤ}, keys.Pairwise (· < ·) →
      keys.length = g.length →
      g ≠ [] → (∀ group ∈ g, group ≠ []) →
      (HoldsGroups tree p (Grouping.rowsOfGroups (keys.zip g)) →
        findGroups Tree.storage entries knots (some p) tree = .ok g tree) ∧
      ((∀ key ∈ keys, IsWord key) → (∀ n ∈ g.members, IsWord n) →
        textAt tree p =
          .ok (Text.Utf8.encode (ofPairs "group" "member" (Grouping.rowsOfGroups (keys.zip g)))) →
        findGroups Tree.storage entries knots (some p) tree = .ok g tree)) := by
  refine ⟨fun {tree p rows} h some => ?_, fun {tree tree' p p' rows rows'} h h' some same => ?_,
    fun {tree p keys g} ascend length nonempty some => ⟨fun h => ?_, fun low high text => ?_⟩⟩
  · exact ⟨Grouping.keysOf rows, Grouping.keysOf_ascend rows, fun key => Grouping.mem_keysOf,
      h.found entries knots some⟩
  · have some' : rows' ≠ [] := by
      obtain ⟨r, rest, rfl⟩ := List.exists_cons_of_ne_nil some
      have member : r ∈ rows'.filter fun s => decide (s.1 = r.1) := by
        rw [same r.1]
        exact List.mem_filter.mpr ⟨List.mem_cons_self, decide_eq_true rfl⟩
      exact List.ne_nil_of_mem (List.mem_of_mem_filter member)
    refine ⟨Grouping.grouped rows, h.found entries knots some, ?_⟩
    rw [h'.found entries knots some', Grouping.grouped_congr same]
  · exact h.found_groups entries knots ascend length nonempty some
  · refine (holdsGroups_ofPairs (fun r hr => ?_) text).found_groups entries knots
      ascend length nonempty some
    obtain ⟨group, hgroup, hr⟩ := List.mem_flatMap.mp hr
    obtain ⟨n, hn, rfl⟩ := List.mem_map.mp hr
    obtain ⟨hkey, hitems⟩ := List.of_mem_zip hgroup
    exact ⟨low _ hkey, high n (List.mem_flatten.mpr ⟨group.2, hitems, hn⟩)⟩

/-- Two groups, written one after the other. -/
def ordered : String := "group,member\r\n-1,5\r\n7,4\r\n7,6\r\n"

/-- The same rows in another order, below a further column. -/
def shuffled : String := "note,group,member\nx,7,4\ny, -1,5\nz,+7,6\n"

theorem shuffled_holds : HoldsGroups (holding shuffled) groupsFile [(7, 4), (-1, 5), (7, 6)] := by
  have columns : words? (Text.Utf8.encode shuffled.toList) "group" =
      some [⟨[0x37]⟩, ⟨[0x20, 0x2D, 0x31]⟩, ⟨[0x2B, 0x37]⟩] ∧
      words? (Text.Utf8.encode shuffled.toList) "member" = some [⟨[0x34]⟩, ⟨[0x35]⟩, ⟨[0x36]⟩] := by
        decide +kernel
  have digit : ∀ d : Char, d.isDigit = true → ∀ c ∈ [d], c.isDigit = true :=
    fun d h => List.forall_mem_singleton.mpr h
  refine ⟨by decide, _, _, _, _, textAt_holding shuffled, rfl, columns.1, columns.2, ?_, ?_⟩
  · refine .cons ⟨[], [], ['7'], [], rfl, nofun, nofun, nofun, digit '7' rfl, .inr ⟨.inl rfl, rfl⟩⟩
      (.cons ⟨[' '], ['-'], ['1'], [], rfl, ?_, nofun, nofun, digit '1' rfl, .inl ⟨rfl, rfl⟩⟩
        (.cons ⟨[], ['+'], ['7'], [], rfl, nofun, nofun, nofun, digit '7' rfl,
          .inr ⟨.inr rfl, rfl⟩⟩ .nil))
    exact List.forall_mem_singleton.mpr rfl
  · exact .cons ⟨[], [], ['4'], [], rfl, nofun, nofun, nofun, digit '4' rfl, .inr ⟨.inl rfl, rfl⟩⟩
      (.cons ⟨[], [], ['5'], [], rfl, nofun, nofun, nofun, digit '5' rfl, .inr ⟨.inl rfl, rfl⟩⟩
        (.cons ⟨[], [], ['6'], [], rfl, nofun, nofun, nofun, digit '6' rfl,
          .inr ⟨.inl rfl, rfl⟩⟩ .nil))

theorem shuffled_found :
    findGroups Tree.storage [] #[] (some groupsFile)
      (holding ordered) = .ok [[5], [4, 6]] (holding ordered) ∧
      findGroups Tree.storage [] #[] (some groupsFile)
        (holding shuffled) = .ok [[5], [4, 6]] (holding shuffled) := by
  obtain ⟨-, exchanged, back⟩ := found_stable [] #[]
  have text : textAt (holding ordered) groupsFile =
      .ok (Text.Utf8.encode (ofPairs "group" "member" [(-1, 5), (7, 4), (7, 6)])) := by
    have written : ordered.toList = ofPairs "group" "member" [(-1, 5), (7, 4), (7, 6)] := by
      decide +kernel
    rw [textAt_holding, written]
  have holds : HoldsGroups (holding ordered) groupsFile [(-1, 5), (7, 4), (7, 6)] :=
    holdsGroups_ofPairs (by decide) text
  have found : findGroups Tree.storage [] #[] (some groupsFile)
      (holding ordered) = .ok [[5], [4, 6]] (holding ordered) :=
    (back (g := [[5], [4, 6]]) (by decide : [-1, 7].Pairwise (· < ·)) rfl nofun (by decide)).1 holds
  obtain ⟨g, first, second⟩ := exchanged holds shuffled_holds nofun fun key => by
    by_cases low : -1 = key
    · subst low
      rfl
    · by_cases high : 7 = key
      · subst high
        rfl
      · simp [low, high]
  rw [found] at first
  cases first
  exact ⟨found, second⟩

end Annealing.Dataset
