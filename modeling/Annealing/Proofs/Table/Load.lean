import Annealing.Proofs.Storage.Tree
import Annealing.Table.Load

/-!
# Table — reading a table from a file

`Table.textAt` are the octets of the table in a file, unpacked.  A table is loaded exactly if these
octets hold it and it has rows, and the tree stays as it is (`Table.load_ok_iff`).
-/

namespace Annealing.Table

/-- The octets of the table in the file at a path, none if its name tells that it is no text. -/
def textAt (tree : Tree) (p : Path) : Except Fault (List UInt8) :=
  if columnarSuffixes.any fun ending => p.suffix == Text.ofString ending then
    .error .unreadableFormat
  else if p.endsIn lockedEnding then .error .unreadableFormat
  else tree.read p >>= unpacked p

theorem storage_read_ok_iff {tree tree' : Tree} {p : Path} {octets : List UInt8} :
    Tree.storage.read p tree = .ok octets tree' ↔ tree.read p = .ok octets ∧ tree' = tree := by
  change Tree.asking (fun t => t.read p) tree = _ ↔ _
  rw [Tree.asking_apply]
  cases tree.read p with
  | ok stored => simp [eq_comm]
  | error f => simp

/-- **A table is loaded from a file** if the octets of the file hold a table with rows, and from no
other. -/
theorem load_ok_iff {tree tree' : Tree} {p : Path} {t : Table} :
    load Tree.storage p tree = .ok t tree' ↔
      tree' = tree ∧ ∃ octets, textAt tree p = .ok octets ∧ ofOctets octets = .ok t ∧
      t.height ≠ 0 := by
  have refused :
      ∀ {rest : Unit → Effect Tree Table} {f : Fault}, ¬ (throw f >>= rest) tree = .ok t tree' := by
    intro rest f h
    obtain ⟨_, _, failed, -⟩ := Effect.bind_ok_iff.mp h
    cases failed
  unfold load textAt
  by_cases columnar : (columnarSuffixes.any fun ending => p.suffix == Text.ofString ending) = true
  · simp only [if_pos columnar]
    exact ⟨fun h => absurd h refused, nofun⟩
  by_cases locked : p.endsIn lockedEnding = true
  · simp only [if_neg columnar, if_pos locked]
    exact ⟨fun h => absurd h refused, nofun⟩
  simp only [if_neg columnar, if_neg locked]
  constructor
  · intro h
    obtain ⟨stored, tree₁, asked, unpacking⟩ := Effect.bind_ok_iff.mp h
    obtain ⟨there, rfl⟩ := storage_read_ok_iff.mp asked
    obtain ⟨octets, tree₂, unpacked, reading⟩ := Effect.bind_ok_iff.mp unpacking
    obtain ⟨unpack, rfl⟩ := Effect.lift_ok_iff.mp unpacked
    obtain ⟨t₁, tree₃, tabled, checking⟩ := Effect.bind_ok_iff.mp reading
    obtain ⟨read, rfl⟩ := Effect.lift_ok_iff.mp tabled
    by_cases empty : t₁.height = 0
    · rw [if_pos empty] at checking
      exact absurd checking refused
    · rw [if_neg empty] at checking
      cases checking
      exact ⟨rfl, octets, except_bind_ok_iff.mpr ⟨stored, there, unpack⟩, read, empty⟩
  · rintro ⟨rfl, octets, text, read, some⟩
    obtain ⟨stored, there, unpack⟩ := except_bind_ok_iff.mp text
    refine (Effect.bind_of_ok (storage_read_ok_iff.mpr ⟨there, rfl⟩)).trans ?_
    refine (Effect.bind_of_ok (Effect.lift_ok_iff.mpr ⟨unpack, rfl⟩)).trans ?_
    refine (Effect.bind_of_ok (Effect.lift_ok_iff.mpr ⟨read, rfl⟩)).trans ?_
    rw [if_neg some]
    rfl

/-- The octets of a text file whose name does not tell what else it may be. -/
theorem textAt_of_text {tree : Tree} {p : Path} {place : List Text} {chars : List Char}
    (located : tree.locate p = .ok place) (there : tree.get? place = some (.file (.text chars)))
    (plain : (columnarSuffixes.any fun ending => p.suffix == Text.ofString ending) = false ∧
      p.endsIn lockedEnding = false ∧
      Packing.ofPath? p = none) : textAt tree p = .ok (Text.Utf8.encode chars) := by
  obtain ⟨columnar, locked, packed⟩ := plain
  rw [textAt, columnar, locked, Tree.read_of_file located there]
  simp only [Bool.false_eq_true, if_false, bind, Except.bind, unpacked, packed]
  rfl

end Annealing.Table
