import Annealing.Dataset
import Annealing.Proofs.Grouping.ByKey
import Annealing.Proofs.Table.Load
import Annealing.Proofs.Table.Named

/-!
# Dataset — the rows of a table of groups

A grouping *holds* rows (`Grouping.HoldsRows`) if each of them stands at one place of the grouping,
with its member there, and no other row stands anywhere.  The grouping that a table holds always
holds the rows with a key (`Grouping.ofTable_rows`).

So a row without a key is left out, and the rest is taken for the whole: a table whose members are
integers is loaded without a loss exactly if every row has a key and every member has 64 bits
(`Dataset.loaded_whole_iff`).  A table with a row that has no key is loaded as one member less
(`Dataset.unkeyed_lost`).
-/

namespace Annealing

namespace Grouping

/-- Every row with `kept` stands at one place of a grouping, with a member of it there, and no other
row stands anywhere. -/
def HoldsRows (kept : ℕ → Prop) (member : ℕ → ℤ → Prop) (g : Grouping ℤ) : Prop :=
  ∃ places : Grouping ℕ, places.members.Nodup ∧ (∀ row, row ∈ places.members ↔ kept row) ∧
    List.Forall₂ (List.Forall₂ member) places g

theorem HoldsRows.congr {kept kept' : ℕ → Prop} {member member' : ℕ → ℤ → Prop} {g : Grouping ℤ}
    (h : HoldsRows kept member g) (rows : ∀ row, kept row ↔ kept' row)
    (members : ∀ row n, member row n → member' row n) :
    HoldsRows kept' member' g := by
  obtain ⟨places, nodup, mem, all⟩ := h
  exact ⟨places, nodup, fun row => (mem row).trans (rows row),
    all.imp fun _ _ group => group.imp members⟩

/-- The places of the rows that are held, and the members, one after another. -/
theorem HoldsRows.flat {kept : ℕ → Prop} {member : ℕ → ℤ → Prop} {g : Grouping ℤ}
    (h : HoldsRows kept member g) :
    ∃ rows : List ℕ, rows.Nodup ∧ (∀ row, row ∈ rows ↔ kept row) ∧
      List.Forall₂ member rows g.members := by
  obtain ⟨places, nodup, mem, all⟩ := h
  exact ⟨places.members, nodup, mem, List.rel_flatten all⟩

/-- **A grouping that holds all rows has the members of all rows**, each as often as it stands in
them. -/
theorem HoldsRows.members_perm {ns : List ℤ} {g : Grouping ℤ}
    (h : HoldsRows (· < ns.length) (fun row n => ns[row]? = some n) g) : g.members.Perm ns := by
  obtain ⟨rows, nodup, mem, all⟩ := h.flat
  have places : rows.Perm (List.range ns.length) :=
    (List.perm_ext_iff_of_nodup nodup List.nodup_range).mpr fun row => by rw [mem, List.mem_range]
  have same : rows.map (fun row => ns[row]?) = g.members.map some := by
    rw [← List.forall₂_eq_eq_eq, List.forall₂_map_left_iff, List.forall₂_map_right_iff]
    exact all
  have perm : (g.members.map some).Perm (ns.map some) := by
    rw [← same, ← range_map_getElem?]
    exact places.map _
  exact (List.map_perm_map_iff (Option.some_injective ℤ)).mp perm

/-! ### The grouping that a table holds -/

/-- How a grouping is read from the columns of a table. -/
theorem ofTable_ok_iff {t : Table} {keys cells : List Table.Cell}
    (group : t.cells? "group" = some keys) (member : t.cells? "member" = some cells)
    {g : Grouping ℤ} :
    ofTable t = .ok g ↔
      List.Forall₂ (List.Forall₂ fun c n => c.member = .ok n)
        (byKey (keyed (keys.map Table.Cell.key?) cells)) g := by
  simp only [ofTable, group, member]
  rw [mapM_ok_iff]
  exact ⟨fun h => h.imp fun _ _ => mapM_ok_iff.mp, fun h => h.imp fun _ _ => mapM_ok_iff.mpr⟩

/-- A table that holds a grouping has both columns. -/
theorem columns_of_ofTable {t : Table} {g : Grouping ℤ} (h : ofTable t = .ok g) :
    ∃ keys cells, t.cells? "group" = some keys ∧ t.cells? "member" = some cells := by
  unfold ofTable at h
  split at h
  · next keys cells group member => exact ⟨keys, cells, group, member⟩
  · cases h

/-- **The grouping of a table holds the rows with a key.** -/
theorem ofTable_rows {t : Table} {keys cells : List Table.Cell}
    (group : t.cells? "group" = some keys) (member : t.cells? "member" = some cells)
    {g : Grouping ℤ} (h : ofTable t = .ok g) :
    HoldsRows (fun row => row < cells.length ∧ HasKey (keys.map Table.Cell.key?) row)
      (fun row n => ∃ c, cells[row]? = some c ∧ c.member = .ok n) g := by
  obtain ⟨nodup, mem⟩ := members_places (keys.map Table.Cell.key?) cells.length
  refine ⟨places (keys.map Table.Cell.key?) cells.length, nodup, mem, ?_⟩
  refine (forall₂_trans (places_byKey _ cells)
    ((ofTable_ok_iff group member).mp h)).imp fun rows ns through => ?_
  obtain ⟨items, there, read⟩ := through
  exact forall₂_trans there read

/-- A grouping that holds rows of a column holds all of them if it has as many members as there are
rows. -/
theorem HoldsRows.all_of_length {kept : ℕ → Prop} {member : ℕ → ℤ → Prop} {g : Grouping ℤ}
    {height : ℕ} (h : HoldsRows (fun row => row < height ∧ kept row) member g)
    (length : g.members.length = height) :
    ∀ row < height, kept row := by
  obtain ⟨rows, nodup, mem, all⟩ := h.flat
  have inside : rows ⊆ List.range height := fun row hrow => List.mem_range.mpr ((mem row).mp hrow).1
  have perm : rows.Perm (List.range height) := by
    refine (List.subperm_of_subset nodup inside).perm_of_length_le ?_
    rw [List.length_range, all.length_eq, length]
  exact fun row low => ((mem row).mp (perm.mem_iff.mpr (List.mem_range.mpr low))).2

end Grouping

namespace Dataset

open Table (textAt ofOctets words?)

/-- A grouping is found in a file if a table is loaded from it that holds this grouping. -/
theorem findGroups_ok_iff {entries : Entries} {knots : Knots} {p : Path}
    {tree tree' : Tree} {g : Grouping ℤ} :
    findGroups Tree.storage entries knots (some p) tree = .ok g tree' ↔
      ∃ t, Table.load Tree.storage p tree = .ok t tree' ∧ Grouping.ofTable t = .ok g := by
  constructor
  · intro h
    obtain ⟨t, tree₁, loaded, h⟩ := Effect.bind_ok_iff.mp h
    obtain ⟨held, rfl⟩ := Effect.lift_ok_iff.mp h
    exact ⟨t, loaded, held⟩
  · rintro ⟨t, loaded, held⟩
    exact Effect.bind_ok_iff.mpr ⟨t, tree', loaded, Effect.lift_ok_iff.mpr ⟨held, rfl⟩⟩

/-- **A table of groups is loaded without a loss** exactly if every row has a key and every member
has 64 bits; the rows with a key are never lost. -/
theorem loaded_whole_iff {entries : Entries} {knots : Knots} {p : Path} {tree tree' : Tree}
    {g : Grouping ℤ} (accepted : findGroups Tree.storage entries knots (some p) tree = .ok g tree')
    {octets : List UInt8} (text : textAt tree p = .ok octets) {words : List Table.Word}
    (column : words? octets "member" = some words) {ns : List ℤ}
    (integers : List.Forall₂ Table.Word.Writes words ns) :
    ∃ t keys cells, ofOctets octets = .ok t ∧ t.cells? "group" = some keys ∧
      t.cells? "member" = some cells ∧
      Grouping.HoldsRows
        (fun row => row < ns.length ∧ Grouping.HasKey (keys.map Table.Cell.key?) row)
        (fun row n => ∃ c, cells[row]? = some c ∧ c.member = .ok n) g ∧
      List.TFAE [
        g.members.Perm ns,
        Grouping.HoldsRows (· < ns.length) (fun row n => ns[row]? = some n) g,
        (∀ row < ns.length, Grouping.HasKey (keys.map Table.Cell.key?) row) ∧
        ∀ n ∈ ns, Table.IsWord n] := by
  obtain ⟨t, loaded, held⟩ := findGroups_ok_iff.mp accepted
  obtain ⟨-, octets', text', read, -⟩ := Table.load_ok_iff.mp loaded
  rw [text, Except.ok.injEq] at text'
  subst text'
  obtain ⟨cells, member, made, -⟩ := Table.cells_of_words read column
  obtain ⟨keys, _, group, -⟩ := Grouping.columns_of_ofTable held
  have height : cells.length = ns.length :=
    (Table.Column.ofWords_fit made).length.trans integers.length_eq
  have rows := Grouping.ofTable_rows group member held
  rw [height] at rows
  refine ⟨t, keys, cells, read, group, member, rows, ?_⟩
  tfae_have 2 → 1 := fun whole => whole.members_perm
  tfae_have 1 → 3 := by
    intro perm
    refine ⟨rows.all_of_length perm.length_eq, fun n hn => ?_⟩
    obtain ⟨_, -, -, all⟩ := rows.flat
    obtain ⟨row, -, c, there, number⟩ := exists_of_forall₂ all (perm.mem_iff.mpr hn)
    exact Table.Column.isWord_of_member made (List.mem_of_getElem? there) number
  tfae_have 3 → 2 := by
    rintro ⟨every, bounds⟩
    have exact : cells = ns.map .word := by
      rw [Table.Column.ofWords_integers integers bounds] at made
      exact (Except.ok.inj made).symm
    refine rows.congr (fun row => and_iff_left_of_imp (every row)) fun row n => ?_
    rintro ⟨c, there, number⟩
    rw [exact, List.getElem?_map] at there
    obtain ⟨m, here, rfl⟩ := Option.map_eq_some_iff.mp there
    cases number
    exact here
  tfae_finish

/-- The place of a table of groups. -/
def groupsFile : Path := ⟨["groups.csv"], false⟩

/-- A tree with a table of groups and nothing else. -/
def holding (table : String) : Tree := Tree.empty.insert ["groups.csv"] (.file (.text table.toList))

theorem textAt_holding (table : String) :
    textAt (holding table) groupsFile = .ok (Text.Utf8.encode table.toList) := by
  have located : (holding table).locate groupsFile = .ok ["groups.csv"] := by with_unfolding_all rfl
  exact Table.textAt_of_text located rfl (by decide +kernel)

/-- A table of groups whose second row has no key. -/
def unkeyed : String := "group,member\n0,1\n,2\n"

/-- The columns of that table. -/
def unkeyedTable : Table where
  columns := [("group".toList, [.double (Binary64.ofInt 0), .double (0 / 0)]),
    ("member".toList, [.word 1, .word 2])]
  height := 2

/-- The words of its column of members. -/
def unkeyedWords : List Table.Word := [⟨[0x31]⟩, ⟨[0x32]⟩]

theorem unkeyedWords_write : List.Forall₂ Table.Word.Writes unkeyedWords [1, 2] := by
  refine .cons ⟨[], [], ['1'], [], ?_⟩ (.cons ⟨[], [], ['2'], [], ?_⟩ .nil) <;>
    exact ⟨rfl, nofun, nofun, nofun, List.forall_mem_singleton.mpr rfl, .inr ⟨.inl rfl, rfl⟩⟩

theorem unkeyed_found :
    findGroups Tree.storage [] #[] (some groupsFile)
      (holding unkeyed) = .ok [[1]] (holding unkeyed) := by
  have read : ofOctets (Text.Utf8.encode unkeyed.toList) = .ok unkeyedTable := by rfl
  have loaded :
      Table.load Tree.storage groupsFile (holding unkeyed) = .ok unkeyedTable (holding unkeyed) :=
    Table.load_ok_iff.mpr ⟨rfl, _, textAt_holding unkeyed, read, by decide⟩
  have rows : Grouping.keyed [some (.float (Binary64.ofInt 0)), none] [Table.Cell.word 1, .word 2] =
      [(.float (Binary64.ofInt 0), .word 1)] := by rfl
  have keys : [Table.Cell.double (Binary64.ofInt 0), .double (0 / 0)].map Table.Cell.key? =
      [some (.float (Binary64.ofInt 0)), none] := by rfl
  have held : Grouping.ofTable unkeyedTable = .ok [[1]] := by
    refine (Grouping.ofTable_ok_iff rfl rfl).mpr ?_
    rw [keys, rows, Grouping.byKey, List.mergeSort_singleton]
    exact .cons (.cons rfl .nil) .nil
  exact findGroups_ok_iff.mpr ⟨_, loaded, held⟩

/-- **A table of groups with a row that has no key is taken for one with a row less.** -/
theorem unkeyed_lost : ∃ words : List Table.Word,
    findGroups Tree.storage [] #[] (some groupsFile)
      (holding unkeyed) = .ok [[1]] (holding unkeyed) ∧
      textAt (holding unkeyed) groupsFile = .ok (Text.Utf8.encode unkeyed.toList) ∧
      words? (Text.Utf8.encode unkeyed.toList) "member" = some words ∧
      List.Forall₂ Table.Word.Writes words [1, 2] ∧ ¬ (Grouping.members [[1]]).Perm [(1 : ℤ), 2] ∧
      ¬ Grouping.HoldsRows (· < 2) (fun row n => [(1 : ℤ), 2][row]? = some n) [[1]] := by
  have shorter : ¬ (Grouping.members [[1]]).Perm [(1 : ℤ), 2] := fun perm =>
    absurd perm.length_eq (by decide)
  refine ⟨unkeyedWords, unkeyed_found,
    textAt_holding unkeyed, by decide +kernel, unkeyedWords_write, shorter, ?_⟩
  intro whole
  have rows : Grouping.HoldsRows (· < [(1 : ℤ), 2].length)
      (fun row n => [(1 : ℤ), 2][row]? = some n) [[1]] := whole
  exact shorter rows.members_perm

theorem unkeyed_whole_iff : ∃ t keys cells, ofOctets (Text.Utf8.encode unkeyed.toList) = .ok t ∧
    t.cells? "group" = some keys ∧ t.cells? "member" = some cells ∧
    Grouping.HoldsRows (fun row => row < 2 ∧ Grouping.HasKey (keys.map Table.Cell.key?) row)
      (fun row n => ∃ c, cells[row]? = some c ∧ c.member = .ok n) [[1]] ∧
    ((Grouping.members [[1]]).Perm [(1 : ℤ), 2] ↔
      (∀ row < 2, Grouping.HasKey (keys.map Table.Cell.key?) row) ∧
      ∀ n ∈ [(1 : ℤ), 2], Table.IsWord n) := by
  obtain ⟨t, keys, cells, read, group, member, rows,
    tfae⟩ := loaded_whole_iff unkeyed_found (textAt_holding unkeyed)
    (by decide +kernel : _ = some unkeyedWords) unkeyedWords_write
  exact ⟨t, keys, cells, read, group, member, rows, tfae.out 0 2⟩

end Dataset

end Annealing
