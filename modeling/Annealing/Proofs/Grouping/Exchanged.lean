import Annealing.Proofs.Grouping.Exchange

/-!
# Grouping — two members exchanged and nothing else

What a swap does is said place by place (`Grouping.Exchanged`): the members at its two places are
exchanged, and every other place holds what it held.  Every swap between places that hold members of
different groups does this (`Swap.Joins.exchanged`).

If no member stands twice, the two places are the only ones that change, and their groups the only
groups (`Grouping.Exchanged.changes`).
-/

namespace Annealing

namespace Grouping

variable {α : Type}

/-! ### Places -/

/-- Replacing a member leaves all other places alone. -/
theorem member?_replace_elsewhere (g : Grouping α) {group place other at_ : Nat}
    (elsewhere : (other, at_) ≠ (group, place)) (m : α) :
    (g.replace group place m).member? other at_ = g.member? other at_ := by
  by_cases same : group = other
  · subst same
    have apart : place ≠ at_ := fun h => elsewhere (by rw [h])
    cases hrow : g[group]? with
    | none => simp [member?, replace, hrow]
    | some row => simp [member?, replace, hrow, List.getElem?_set_ne apart]
  · exact member?_replace_of_ne g same place at_ m

/-- If no member stands twice, a member stands at one place only. -/
theorem place_unique {g : Grouping α} (distinct : g.members.Nodup) {m : α}
    {group place group' place' : Nat} (h : g.member? group place = some m)
    (h' : g.member? group' place' = some m) :
    (group, place) = (group', place') := by
  obtain ⟨row, hrow, hm⟩ := Option.bind_eq_some_iff.mp h
  obtain ⟨row', hrow', hm'⟩ := Option.bind_eq_some_iff.mp h'
  obtain ⟨within, between⟩ := List.nodup_flatten.mp distinct
  obtain ⟨hlt, rfl⟩ := List.getElem?_eq_some_iff.mp hrow
  obtain ⟨hlt', rfl⟩ := List.getElem?_eq_some_iff.mp hrow'
  have disjoint : ∀ {i j : Nat} (hi : i < g.length) (hj : j < g.length), i < j →
      m ∈ g[i] → m ∉ g[j] :=
    fun hi hj hij mi mj => List.pairwise_iff_getElem.mp between _ _ hi hj hij mi mj
  have groups : group = group' := by
    rcases Nat.lt_trichotomy group group' with below | same | above
    · exact absurd (List.mem_of_getElem? hm') (disjoint hlt hlt' below (List.mem_of_getElem? hm))
    · exact same
    · exact absurd (List.mem_of_getElem? hm) (disjoint hlt' hlt above (List.mem_of_getElem? hm'))
  subst groups
  obtain ⟨hplace, hm⟩ := List.getElem?_eq_some_iff.mp hm
  obtain ⟨hplace', hm'⟩ := List.getElem?_eq_some_iff.mp hm'
  have places : place = place' :=
    (within _ (List.getElem_mem hlt)).getElem_inj_iff.mp (hm.trans hm'.symm)
  rw [places]

/-- Groups of the same length are the same if they hold the same at every place. -/
theorem Rearranged.group_eq_iff {g h : Grouping α} (rearranged : Rearranged g h) (group : Nat) :
    h[group]? = g[group]? ↔ ∀ place, h.member? group place = g.member? group place := by
  constructor
  · intro same place
    rw [member?, member?, same]
  · intro same
    have length : h.length = g.length := by
      simpa only [List.length_map] using congrArg List.length rearranged.lengths
    rcases Nat.lt_or_ge group g.length with inside | outside
    · rw [List.getElem?_eq_getElem inside, List.getElem?_eq_getElem (length ▸ inside),
        Option.some_inj]
      refine List.ext_getElem? fun place => ?_
      simpa [member?, inside, length ▸ inside] using same place
    · rw [List.getElem?_eq_none outside, List.getElem?_eq_none (length ▸ outside)]

/-! ### The exchange -/

/-- The second grouping is the first with the members at the two places of a swap exchanged.  Both
places hold a member, and they lie in two different groups. -/
structure Exchanged (s : Swap) (g h : Grouping α) : Prop where
  apart : s.first ≠ s.second
  firstPlace : s.firstPlace < g.groupSize s.first
  secondPlace : s.secondPlace < g.groupSize s.second
  atFirst : h.member? s.first s.firstPlace = g.member? s.second s.secondPlace
  atSecond : h.member? s.second s.secondPlace = g.member? s.first s.firstPlace
  elsewhere : ∀ {group place}, (group, place) ≠ (s.first, s.firstPlace) →
    (group, place) ≠ (s.second, s.secondPlace) →
    h.member? group place = g.member? group place
  rearranged : Rearranged g h

end Grouping

open Grouping

variable {α : Type}

/-- **A swap exchanges two members and nothing else.** -/
theorem Swap.Joins.exchanged {s : Swap} {g : Grouping α} {a b : α} (joins : s.Joins g a b) :
    Exchanged s g (s.apply g) where
  apart := joins.apart
  firstPlace := member?_isSome_iff.mp (Option.isSome_iff_exists.mpr ⟨a, joins.first⟩)
  secondPlace := member?_isSome_iff.mp (Option.isSome_iff_exists.mpr ⟨b, joins.second⟩)
  atFirst := joins.after.first.trans joins.second.symm
  atSecond := joins.after.second.trans joins.first.symm
  elsewhere first second := by
    rw [joins.apply_eq, member?_replace_elsewhere _ second, member?_replace_elsewhere _ first]
  rearranged := Swap.apply_rearranged joins

/-- The places of a swap, and their groups, are all that is different in the second grouping. -/
structure Grouping.Changes (s : Swap) (g h : Grouping α) : Prop where
  places : ∀ group place, h.member? group place ≠ g.member? group place ↔
    (group, place) = (s.first, s.firstPlace) ∨ (group, place) = (s.second, s.secondPlace)
  groups : ∀ group, h[group]? ≠ g[group]? ↔ group = s.first ∨ group = s.second

/-- **If no member stands twice, an exchange changes its two places and no other.** -/
theorem Grouping.Exchanged.changes {s : Swap} {g h : Grouping α} (exchanged : Exchanged s g h)
    (distinct : g.members.Nodup) : Changes s g h := by
  obtain ⟨a, first⟩ := Option.isSome_iff_exists.mp (member?_isSome_iff.mpr exchanged.firstPlace)
  obtain ⟨b, second⟩ := Option.isSome_iff_exists.mp (member?_isSome_iff.mpr exchanged.secondPlace)
  have different : g.member? s.first s.firstPlace ≠ g.member? s.second s.secondPlace := by
    intro same
    have places := place_unique distinct (same.trans second) second
    exact exchanged.apart (congrArg Prod.fst places)
  have places : ∀ group place, h.member? group place ≠ g.member? group place ↔
      (group, place) = (s.first, s.firstPlace) ∨ (group, place) = (s.second, s.secondPlace) := by
    intro group place
    constructor
    · intro changed
      by_contra neither
      rw [not_or] at neither
      exact changed (exchanged.elsewhere neither.1 neither.2)
    · rintro (here | here)
      · obtain ⟨rfl, rfl⟩ := Prod.mk.inj here
        rw [exchanged.atFirst]
        exact different.symm
      · obtain ⟨rfl, rfl⟩ := Prod.mk.inj here
        rw [exchanged.atSecond]
        exact different
  refine ⟨places, fun group => ?_⟩
  rw [ne_eq, exchanged.rearranged.group_eq_iff, not_forall]
  constructor
  · rintro ⟨place, changed⟩
    exact ((places group place).mp changed).imp (congrArg Prod.fst) (congrArg Prod.fst)
  · rintro (rfl | rfl)
    · exact ⟨s.firstPlace, (places _ _).mpr (.inl rfl)⟩
    · exact ⟨s.secondPlace, (places _ _).mpr (.inr rfl)⟩

end Annealing
