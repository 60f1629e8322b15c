import Annealing.Proofs.Grouping.ByKey
import Mathlib.Data.List.Dedup
import Mathlib.Data.List.Sort

/-!
# Grouping — rows with integers as keys

`Grouping.grouped` says what a grouping by integers is without a word about sorting: one group for
every key that occurs, by ascending key, with the items of its rows in the order in which they came.
Collecting rows by their keys is this grouping (`Grouping.byKey_grouped`), because sorting keeps the
order of the rows of a key, and a list that is sorted by keys is told by the rows of the single keys
(`Grouping.eq_of_rowsWith`).

So the order of rows of different keys makes no difference (`Grouping.grouped_congr`), and the rows
of groups that were numbered make these groups again (`Grouping.grouped_rowsOfGroups`).
-/

namespace Annealing.Grouping

variable {α : Type}

/-- The keys that occur, in ascending order. -/
def keysOf (rows : List (ℤ × α)) : List ℤ :=
  (rows.map (·.1)).dedup.mergeSort fun a b => decide (a ≤ b)

/-- The rows of a key. -/
def rowsWith (rows : List (ℤ × α)) (key : ℤ) : List (ℤ × α) :=
  rows.filter fun r => decide (r.1 = key)

/-- The items of every key, by ascending key. -/
def grouped (rows : List (ℤ × α)) : Grouping α := (keysOf rows).map fun key =>
    (rowsWith rows key).map (·.2)

theorem grouped_nil : grouped ([] : List (ℤ × α)) = [] := by simp [grouped, keysOf]

theorem mem_keysOf {rows : List (ℤ × α)} {key : ℤ} : key ∈ keysOf rows ↔ ∃ r ∈ rows, r.1 = key := by
  rw [keysOf, List.mem_mergeSort, List.mem_dedup, List.mem_map]

theorem keysOf_ascend (rows : List (ℤ × α)) : (keysOf rows).Pairwise (· < ·) := by
  have sorted : (keysOf rows).Pairwise (· ≤ ·) := List.sortedLE_mergeSort.pairwise
  have nodup : (keysOf rows).Nodup := (List.mergeSort_perm _ _).nodup_iff.mpr (List.nodup_dedup _)
  exact sorted.imp₂ (fun a b le ne => lt_of_le_of_ne le ne) nodup

/-- Ascending keys are told by which they are. -/
theorem eq_of_ascend {keys keys' : List ℤ} (ascend : keys.Pairwise (· < ·))
    (ascend' : keys'.Pairwise (· < ·)) (same : ∀ key, key ∈ keys ↔ key ∈ keys') : keys = keys' := by
  have perm : keys.Perm keys' :=
    (List.perm_ext_iff_of_nodup (ascend.imp ne_of_lt) (ascend'.imp ne_of_lt)).mpr same
  exact perm.eq_of_pairwise' ascend ascend'

theorem mem_rowsWith {rows : List (ℤ × α)} {key : ℤ} {r : ℤ × α} :
    r ∈ rowsWith rows key ↔ r ∈ rows ∧ r.1 = key := by
  rw [rowsWith, List.mem_filter, decide_eq_true_iff]

theorem rowsWith_cons_self (r : ℤ × α) (rows : List (ℤ × α)) :
    rowsWith (r :: rows) r.1 = r :: rowsWith rows r.1 :=
  List.filter_cons_of_pos (decide_eq_true rfl)

theorem rowsWith_cons_of_ne {r : ℤ × α} {key : ℤ} (ne : r.1 ≠ key) (rows : List (ℤ × α)) :
    rowsWith (r :: rows) key = rowsWith rows key :=
  List.filter_cons_of_neg (by simpa using ne)

/-! ### Sorting by keys -/

/-- Rows by ascending key. -/
def Ascend (rows : List (ℤ × α)) : Prop := rows.Pairwise fun r s => r.1 ≤ s.1

/-- **Rows that ascend by their keys are told by the rows of the single keys.** -/
theorem eq_of_rowsWith {rows rows' : List (ℤ × α)} (ascend : Ascend rows) (ascend' : Ascend rows')
    (same : ∀ key, rowsWith rows key = rowsWith rows' key) : rows = rows' := by
  -- the first rows have the least key of all, which is the same on both sides, and are the first of
  -- this key
  induction rows generalizing rows' with
  | nil =>
      cases rows' with
      | nil => rfl
      | cons s rest' =>
          have none : [] = s :: rowsWith rest' s.1 := (same s.1).trans (rowsWith_cons_self s rest')
          cases none
  | cons r rest ih =>
      obtain ⟨least, others⟩ := List.pairwise_cons.mp ascend
      cases rows' with
      | nil =>
          have none : r :: rowsWith rest r.1 = [] :=
            (rowsWith_cons_self r rest).symm.trans (same r.1)
          cases none
      | cons s rest' =>
          obtain ⟨least', others'⟩ := List.pairwise_cons.mp ascend'
          have here : r ∈ s :: rest' :=
            (mem_rowsWith.mp (same r.1 ▸ mem_rowsWith.mpr ⟨List.mem_cons_self, rfl⟩)).1
          have there : s ∈ r :: rest :=
            (mem_rowsWith.mp ((same s.1).symm ▸ mem_rowsWith.mpr ⟨List.mem_cons_self, rfl⟩)).1
          have low : s.1 ≤ r.1 := by
            rcases List.mem_cons.mp here with eq | later
            · rw [eq]
            · exact least' r later
          have low' : r.1 ≤ s.1 := by
            rcases List.mem_cons.mp there with eq | later
            · rw [eq]
            · exact least s later
          have key : r.1 = s.1 := le_antisymm low' low
          have first := same r.1
          rw [rowsWith_cons_self, key, rowsWith_cons_self, ← key, List.cons.injEq] at first
          obtain ⟨rfl, rests⟩ := first
          refine congrArg (r :: ·) (ih others others' fun other => ?_)
          by_cases eq : r.1 = other
          · rw [← eq, rests]
          · have alike := same other
            rwa [rowsWith_cons_of_ne eq, rowsWith_cons_of_ne eq] at alike

/-- Whether a row may stand before another. -/
def precedes (r s : ℤ × α) : Bool := decide (r.1 ≤ s.1)

theorem precedes_trans (a b c : ℤ × α) (h : precedes a b = true) (h' : precedes b c = true) :
    precedes a c = true :=
  decide_eq_true ((of_decide_eq_true h).trans (of_decide_eq_true h'))

theorem precedes_total (a b : ℤ × α) : (precedes a b || precedes b a) = true := by
  simpa [precedes] using le_total a.1 b.1

theorem sorted_ascend (rows : List (ℤ × α)) : Ascend (rows.mergeSort precedes) :=
  (List.pairwise_mergeSort precedes_trans precedes_total rows).imp of_decide_eq_true

/-- **Sorting keeps the rows of a key in their order.** -/
theorem rowsWith_sorted (rows : List (ℤ × α)) (key : ℤ) :
    rowsWith (rows.mergeSort precedes) key = rowsWith rows key := by
  have alike : (rowsWith rows key).Pairwise fun r s => precedes r s = true := by
    refine List.pairwise_of_forall_mem_list fun r hr s hs => decide_eq_true ?_
    rw [(mem_rowsWith.mp hr).2, (mem_rowsWith.mp hs).2]
  have kept : (rowsWith rows key).Sublist (rows.mergeSort precedes) :=
    List.sublist_mergeSort precedes_trans precedes_total alike List.filter_sublist
  have sub : (rowsWith rows key).Sublist (rowsWith (rows.mergeSort precedes) key) := by
    have again := kept.filter fun r => decide (r.1 = key)
    simp only [rowsWith, List.filter_filter, Bool.and_self] at again
    exact again
  have perm : (rowsWith (rows.mergeSort precedes) key).Perm (rowsWith rows key) :=
    (List.mergeSort_perm rows _).filter _
  exact (sub.eq_of_length perm.length_eq.symm).symm

/-! ### Rows of groups -/

/-- The rows of a group with a key. -/
def rowsOfGroup (group : ℤ × List α) : List (ℤ × α) := group.2.map fun item => (group.1, item)

/-- The rows of groups with keys, group by group. -/
def rowsOfGroups (groups : List (ℤ × List α)) : List (ℤ × α) := groups.flatMap rowsOfGroup

theorem mem_rowsOfGroup {group : ℤ × List α} {r : ℤ × α} (h : r ∈ rowsOfGroup group) :
    r.1 = group.1 := by
  obtain ⟨item, -, rfl⟩ := List.mem_map.mp h
  rfl

theorem map_rowsOfGroup (group : ℤ × List α) : (rowsOfGroup group).map (·.2) = group.2 := by
  rw [rowsOfGroup, List.map_map]
  exact List.map_id _

theorem rowsWith_eq_nil {rows : List (ℤ × α)} {key : ℤ} (h : ∀ r ∈ rows, r.1 ≠ key) :
    rowsWith rows key = [] :=
  List.filter_eq_nil_iff.mpr fun r hr => by simpa using h r hr

theorem rowsWith_eq_self {rows : List (ℤ × α)} {key : ℤ} (h : ∀ r ∈ rows, r.1 = key) :
    rowsWith rows key = rows :=
  List.filter_eq_self.mpr fun r hr => decide_eq_true (h r hr)

/-- Rows of groups have the keys of the groups. -/
theorem exists_group_of_mem {groups : List (ℤ × List α)} {r : ℤ × α} (h : r ∈ rowsOfGroups groups) :
    ∃ group ∈ groups, r.1 = group.1 := by
  obtain ⟨group, hgroup, hr⟩ := List.mem_flatMap.mp h
  exact ⟨group, hgroup, mem_rowsOfGroup hr⟩

/-- **The rows of the key of a group are those of the group**, if the keys ascend. -/
theorem rowsWith_rowsOfGroups {groups : List (ℤ × List α)}
    (ascend : groups.Pairwise fun g h => g.1 < h.1) {group : ℤ × List α} (member : group ∈ groups) :
    rowsWith (rowsOfGroups groups) group.1 = rowsOfGroup group := by
  induction groups with
  | nil => cases member
  | cons first rest ih =>
      obtain ⟨least, others⟩ := List.pairwise_cons.mp ascend
      have parts : rowsWith (rowsOfGroups (first :: rest)) group.1 =
          rowsWith (rowsOfGroup first) group.1 ++ rowsWith (rowsOfGroups rest) group.1 := by
        rw [rowsOfGroups, List.flatMap_cons, rowsWith, List.filter_append]
        rfl
      rw [parts]
      rcases List.mem_cons.mp member with rfl | later
      · have none : rowsWith (rowsOfGroups rest) group.1 = [] := by
          refine rowsWith_eq_nil fun r hr eq => ?_
          obtain ⟨other, hother, key⟩ := exists_group_of_mem hr
          exact (least other hother).ne (eq.symm.trans key)
        rw [none, List.append_nil, rowsWith_eq_self fun r hr => mem_rowsOfGroup hr]
      · have none : rowsWith (rowsOfGroup first) group.1 = [] :=
          rowsWith_eq_nil fun r hr eq => (least group later).ne ((mem_rowsOfGroup hr).symm.trans eq)
        rw [none, List.nil_append, ih others later]

/-- Rows of groups with ascending keys ascend. -/
theorem rowsOfGroups_ascend {groups : List (ℤ × List α)}
    (ascend : groups.Pairwise fun g h => g.1 < h.1) :
    Ascend (rowsOfGroups groups) := by
  refine List.pairwise_flatMap.mpr ⟨fun group _ => ?_, ascend.imp fun lt r hr s hs => ?_⟩
  · refine List.pairwise_of_forall_mem_list fun r hr s hs => ?_
    rw [mem_rowsOfGroup hr, mem_rowsOfGroup hs]
  · rw [mem_rowsOfGroup hr, mem_rowsOfGroup hs]
    exact lt.le

/-- **Runs of the same key are the groups**, if these have ascending keys and none is empty. -/
theorem splitBy_rowsOfGroups {groups : List (ℤ × List α)}
    (ascend : groups.Pairwise fun g h => g.1 < h.1) (some : ∀ group ∈ groups, group.2 ≠ []) :
    (rowsOfGroups groups).splitBy (fun r s => r.1 == s.1) = groups.map rowsOfGroup := by
  have nonempty : ∀ group ∈ groups, rowsOfGroup group ≠ [] := fun group hgroup =>
    mt List.map_eq_nil_iff.mp (some group hgroup)
  rw [rowsOfGroups, List.flatMap_def]
  refine List.splitBy_flatten ?_ ?_ ?_
  · intro empty
    obtain ⟨group, hgroup, none⟩ := List.mem_map.mp empty
    exact nonempty group hgroup none
  · rw [List.forall_mem_map]
    intro group _
    refine (List.pairwise_of_forall_mem_list fun r hr s hs => ?_).isChain
    rw [mem_rowsOfGroup hr, mem_rowsOfGroup hs, beq_self_eq_true]
  · rw [List.isChain_map]
    refine (ascend.imp_of_mem fun hg hh lt => ?_).isChain
    refine ⟨nonempty _ hg, nonempty _ hh, ?_⟩
    rw [mem_rowsOfGroup (List.getLast_mem _), mem_rowsOfGroup (List.head_mem _)]
    exact beq_false_of_ne lt.ne

/-! ### Groups by ascending key -/

/-- The groups of rows, each with its key. -/
def groupsOf (rows : List (ℤ × α)) : List (ℤ × List α) := (keysOf rows).map fun key =>
    (key, (rowsWith rows key).map (·.2))

theorem groupsOf_ascend (rows : List (ℤ × α)) : (groupsOf rows).Pairwise fun g h => g.1 < h.1 :=
  List.pairwise_map.mpr (keysOf_ascend rows)

theorem groupsOf_nonempty (rows : List (ℤ × α)) : ∀ group ∈ groupsOf rows, group.2 ≠ [] := by
  intro group hgroup
  obtain ⟨key, hkey, rfl⟩ := List.mem_map.mp hgroup
  obtain ⟨r, hr, eq⟩ := mem_keysOf.mp hkey
  exact List.ne_nil_of_mem (List.mem_map_of_mem (mem_rowsWith.mpr ⟨hr, eq⟩))

/-- The rows in the order of their keys are those of the groups. -/
theorem sorted_eq (rows : List (ℤ × α)) :
    rows.mergeSort precedes = rowsOfGroups (groupsOf rows) := by
  have ascend := groupsOf_ascend rows
  refine eq_of_rowsWith (sorted_ascend rows) (rowsOfGroups_ascend ascend) fun key => ?_
  rw [rowsWith_sorted]
  by_cases hkey : key ∈ keysOf rows
  · have group : rowsOfGroup (key, (rowsWith rows key).map (·.2)) = rowsWith rows key := by
      have same : ∀ r ∈ rowsWith rows key, (key, r.2) = r := fun r hr => by
        rw [← (mem_rowsWith.mp hr).2]
      rw [rowsOfGroup, List.map_map]
      exact (List.map_congr_left same).trans (List.map_id _)
    have member : (key, (rowsWith rows key).map (·.2)) ∈ groupsOf rows := List.mem_map_of_mem hkey
    exact ((rowsWith_rowsOfGroups ascend member).trans group).symm
  · have none : rowsWith rows key = [] := rowsWith_eq_nil fun r hr eq =>
      hkey (mem_keysOf.mpr ⟨r, hr, eq⟩)
    have none' : rowsWith (rowsOfGroups (groupsOf rows)) key = [] := by
      refine rowsWith_eq_nil fun r hr eq => hkey ?_
      obtain ⟨group, hgroup, same⟩ := exists_group_of_mem hr
      obtain ⟨key', hkey', rfl⟩ := List.mem_map.mp hgroup
      rwa [← eq, same]
    rw [none, none']

/-- **Collecting rows by integers makes one group for every key**, by ascending key, with its items
in their order. -/
theorem byKey_grouped (rows : List (ℤ × α)) :
    byKey (rows.map fun r => (.int r.1, r.2)) = grouped rows := by
  rw [byKey_ints]
  change ((rows.mergeSort precedes).splitBy fun r s => r.1 == s.1).map
    (List.map (·.2)) = grouped rows
  rw [sorted_eq, splitBy_rowsOfGroups (groupsOf_ascend rows) (groupsOf_nonempty rows), groupsOf,
    List.map_map, List.map_map]
  exact List.map_congr_left fun key _ => map_rowsOfGroup _

/-- **The order of rows of different keys makes no difference.** -/
theorem grouped_congr {rows rows' : List (ℤ × α)}
    (same : ∀ key, rowsWith rows key = rowsWith rows' key) :
    grouped rows = grouped rows' := by
  have keys : keysOf rows = keysOf rows' := by
    refine eq_of_ascend (keysOf_ascend rows) (keysOf_ascend rows') fun key => ?_
    rw [mem_keysOf, mem_keysOf]
    simp only [← mem_rowsWith, same]
  rw [grouped, keys]
  exact List.map_congr_left fun key _ => by rw [same]

/-- **The rows of groups with ascending keys make these groups again**, if none of them is empty. -/
theorem grouped_rowsOfGroups {groups : List (ℤ × List α)}
    (ascend : groups.Pairwise fun g h => g.1 < h.1) (some : ∀ group ∈ groups, group.2 ≠ []) :
    grouped (rowsOfGroups groups) = groups.map (·.2) := by
  have keys : keysOf (rowsOfGroups groups) = groups.map (·.1) := by
    refine eq_of_ascend (keysOf_ascend _) (List.pairwise_map.mpr ascend) fun key => ?_
    rw [mem_keysOf, List.mem_map]
    constructor
    · rintro ⟨r, hr, rfl⟩
      obtain ⟨group, hgroup, same⟩ := exists_group_of_mem hr
      exact ⟨group, hgroup, same.symm⟩
    · rintro ⟨group, hgroup, rfl⟩
      obtain ⟨item, rest, items⟩ := List.exists_cons_of_ne_nil (some group hgroup)
      refine ⟨(group.1, item), List.mem_flatMap.mpr ⟨group, hgroup, ?_⟩, rfl⟩
      exact List.mem_map_of_mem (items ▸ List.mem_cons_self)
  rw [grouped, keys, List.map_map]
  refine List.map_congr_left fun group hgroup => ?_
  rw [Function.comp_apply, rowsWith_rowsOfGroups ascend hgroup, map_rowsOfGroup]

end Annealing.Grouping
