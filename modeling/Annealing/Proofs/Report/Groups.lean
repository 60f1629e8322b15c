import Annealing.Proofs.Grouping.Validity
import Annealing.Proofs.Report.Tables
import Annealing.Proofs.Value.Show

/-!
# Report — the grouping, read again

The table of a grouping has a line for every member.  The lines of a group, ordered by place, have
its members in their order, whatever the order of the lines in the table.  So the table tells the
grouping, except for empty groups behind the last one that has a member: an empty group has no line.
In a valid grouping with a member no group is empty.

* `Grouping.linesOf`: the lines that a text holds.
* `Grouping.collected`: the places and the members of one group.
* `Grouping.regrouped`: the grouping of all lines.
* `Grouping.Writable`: the groupings for which there is a table; their numbers have few digits.
* `Grouping.table_tells`: the main statement.
* `Grouping.long_untold`: a grouping for which there is no table.
-/

open scoped List

namespace Annealing.Grouping

/-! ### Reading -/

/-- The line of three fields: the number of a group, a place in it and a member. -/
def line? : List (List Char) → Option (ℕ × ℕ × ℤ)
  | [group, place, member] =>
      some ((Numeral.signedValue group).toNat, (Numeral.signedValue place).toNat,
        Numeral.signedValue member)
  | _ => none

/-- The lines of a table below the names of its columns. -/
def linesOf (text : List Char) : Option (List (ℕ × ℕ × ℤ)) :=
  match Table.texts (Text.Utf8.encode text) with
  | .ok (_ :: rows) => rows.mapM line?
  | _ => none

/-- The places and the members of a group, by place. -/
def collected (lines : List (ℕ × ℕ × ℤ)) (group : ℕ) : List (ℕ × ℤ) :=
  ((lines.filter fun line => line.1 = group).map (·.2)).mergeSort fun a b => a.1 ≤ b.1

/-- The groups up to the last one that has a line. -/
def regrouped (lines : List (ℕ × ℕ × ℤ)) : Grouping ℤ :=
  (List.range ((lines.map (·.1 + 1)).max?.getD 0)).map fun group =>
    (collected lines group).map (·.2)

theorem line?_seatFields (seat : ℕ × ℕ × ℤ) : line? (seatFields seat) = some seat := by
  simp [seatFields, line?, Decimal.signedValue_natural, Decimal.signedValue_integer]

/-- **The lines of a table are the members with their groups and places.** -/
theorem linesOf_text (g : Grouping ℤ) : linesOf (text g) = some (seats g) := by
  rw [linesOf, text_eq, Table.texts_text (led_seats g)]
  exact mapM_some_iff.mpr
    (List.forall₂_map_left_iff.mpr (List.forall₂_same.mpr fun seat _ => line?_seatFields seat))

/-! ### The lines of a group -/

/-- The lines of one group. -/
def seatsOf (group : ℕ) (members : List ℤ) : List (ℕ × ℕ × ℤ) :=
  (members.zipIdx 1).map fun member => (group, member.2, member.1)

theorem mem_seatsOf {group : ℕ} {members : List ℤ} {line : ℕ × ℕ × ℤ}
    (h : line ∈ seatsOf group members) : line.1 = group := by
  obtain ⟨member, -, rfl⟩ := List.mem_map.mp h
  rfl

/-- The lines of groups, the first of which has the given number. -/
def seatsFrom (first : ℕ) (g : Grouping ℤ) : List (ℕ × ℕ × ℤ) :=
  (g.zipIdx first).flatMap fun group => seatsOf group.2 group.1

theorem seatsFrom_cons (first : ℕ) (members : List ℤ) (rest : Grouping ℤ) :
    seatsFrom first (members :: rest) = seatsOf first members ++ seatsFrom (first + 1) rest := by
  rw [seatsFrom, List.zipIdx_cons, List.flatMap_cons]
  rfl

/-- There is one line for every member. -/
theorem members_seatsFrom (g : Grouping ℤ) :
    ∀ first, (seatsFrom first g).map (·.2.2) = g.members := by
  induction g with
  | nil => exact fun _ => rfl
  | cons members rest ih =>
      intro first
      rw [seatsFrom_cons, List.map_append, ih, seatsOf, List.map_map]
      exact congrArg (· ++ rest.flatten) (List.zipIdx_map_fst 1 members)

/-- A line is of a group that is there. -/
theorem mem_seatsFrom {first : ℕ} {g : Grouping ℤ} {line : ℕ × ℕ × ℤ}
    (h : line ∈ seatsFrom first g) :
    first ≤ line.1 ∧ line.1 < first + g.length := by
  obtain ⟨group, hgroup, hline⟩ := List.mem_flatMap.mp h
  obtain ⟨member, -, rfl⟩ := List.mem_map.mp hline
  obtain ⟨low, high, -⟩ := List.mem_zipIdx hgroup
  exact ⟨low, high⟩

/-- **The lines of a group are its members in their order.** -/
theorem filter_seatsFrom (g : Grouping ℤ) : ∀ first k,
    (seatsFrom first g).filter (fun line => line.1 = first + k) =
      seatsOf (first + k) (g.getD k []) := by
  induction g with
  | nil => exact fun _ _ => rfl
  | cons members rest ih =>
      intro first k
      rw [seatsFrom_cons, List.filter_append]
      cases k with
      | zero =>
          have here : (seatsOf first members).filter
              (fun line => line.1 = first + 0) = seatsOf first members :=
            List.filter_eq_self.mpr fun line hline => decide_eq_true (mem_seatsOf hline)
          have behind :
              (seatsFrom (first + 1) rest).filter (fun line => line.1 = first + 0) = [] := by
            refine List.filter_eq_nil_iff.mpr fun line hline => ?_
            have later := (mem_seatsFrom hline).1
            rw [decide_eq_true_eq]
            omega
          rw [here, behind, List.append_nil]
          rfl
      | succ k =>
          have before :
              (seatsOf first members).filter (fun line => line.1 = first + (k + 1)) = [] := by
            refine List.filter_eq_nil_iff.mpr fun line hline => ?_
            rw [decide_eq_true_eq, mem_seatsOf hline]
            omega
          have next : first + (k + 1) = first + 1 + k := by omega
          rw [before, List.nil_append, next, ih]
          rfl

/-- Items of which no two have the same place have one order by place. -/
theorem mergeSort_by_place {items sorted : List (ℕ × ℤ)}
    (ascend : (sorted.map Prod.fst).Pairwise (· < ·)) (same : items ~ sorted) :
    (items.mergeSort fun a b => a.1 ≤ b.1) = sorted := by
  have merged : (items.mergeSort fun a b => a.1 ≤ b.1) ~ sorted :=
    (List.mergeSort_perm _ _).trans same
  have ordered : (items.mergeSort fun a b => a.1 ≤ b.1).Pairwise fun a b =>
      decide (a.1 ≤ b.1) = true :=
    List.pairwise_mergeSort (fun a b c => by simpa using Nat.le_trans)
      (fun a b => by simpa using Nat.le_total a.1 b.1) items
  have ordered' : sorted.Pairwise fun a b => decide (a.1 ≤ b.1) = true :=
    (List.pairwise_map.mp ascend).imp fun less => decide_eq_true less.le
  refine merged.eq_of_pairwise (fun a b ha hb low high => ?_) ordered ordered'
  exact List.inj_on_of_nodup_map (ascend.imp Nat.ne_of_lt) (merged.mem_iff.mp ha) hb
    (Nat.le_antisymm (of_decide_eq_true low) (of_decide_eq_true high))

/-- **A group is collected from its lines**, in whatever order they are. -/
theorem collected_perm {g : Grouping ℤ} {lines : List (ℕ × ℕ × ℤ)}
    (same : lines ~ seats g) (k : ℕ) :
    collected lines k = ((g.getD k []).zipIdx 1).map fun member => (member.2, member.1) := by
  refine mergeSort_by_place ?_ ?_
  · rw [List.map_map]
    exact (List.zipIdx_map_snd 1 (g.getD k [])).symm ▸ List.pairwise_lt_range'
  · have here := filter_seatsFrom g 0 k
    rw [Nat.zero_add] at here
    have listed := (same.filter fun line => decide (line.1 = k)).map (·.2)
    rwa [show seats g = seatsFrom 0 g from rfl, here, seatsOf, List.map_map] at listed

/-! ### The grouping of all lines -/

section

variable {g : Grouping ℤ} {lines : List (ℕ × ℕ × ℤ)} (same : lines ~ seats g)

include same

theorem members_collected (k : ℕ) : (collected lines k).map (·.2) = g.getD k [] := by
  rw [collected_perm same, List.map_map]
  exact List.zipIdx_map_fst 1 _

theorem places_collected (k : ℕ) :
    (collected lines k).map (·.1) = List.range' 1 (g.getD k []).length := by
  rw [collected_perm same, List.map_map]
  exact List.zipIdx_map_snd 1 _

/-- If the last group has a member, its number is found. -/
theorem count_of_last (last : g.getD (g.length - 1) [] ≠ []) :
    (lines.map (·.1 + 1)).max?.getD 0 = g.length := by
  have nonempty : g ≠ [] := by
    rintro rfl
    exact last rfl
  have length : 0 < g.length := List.length_pos_iff.mpr nonempty
  obtain ⟨line, listed, number⟩ : ∃ line ∈ lines, line.1 = g.length - 1 := by
    by_contra none
    push Not at none
    have nothing : lines.filter (fun line => line.1 = g.length - 1) = [] :=
      List.filter_eq_nil_iff.mpr fun line hline => by simpa using none line hline
    rw [← members_collected same, collected, nothing] at last
    simp at last
  have greatest : (lines.map (·.1 + 1)).max? = some g.length := by
    refine List.max?_eq_some_iff.mpr ⟨List.mem_map.mpr ⟨line, listed, by omega⟩, fun n hn => ?_⟩
    obtain ⟨other, hother, rfl⟩ := List.mem_map.mp hn
    have inside : other.1 < 0 + g.length := (mem_seatsFrom (same.mem_iff.mp hother)).2
    omega
  rw [greatest, Option.getD_some]

/-- **All groups are found**, if the last one has a member. -/
theorem regrouped_perm (last : g.getD (g.length - 1) [] ≠ []) : regrouped lines = g := by
  rw [regrouped, count_of_last same last]
  refine List.ext_getElem (by simp) fun k inside inside' => ?_
  simp [members_collected same, inside']

end

/-- In a valid grouping with a member the last group has a member. -/
theorem last_of_valid {g : Grouping ℤ} (valid : g.validate = .ok ()) (some : g.members ≠ []) :
    g.getD (g.length - 1) [] ≠ [] := by
  obtain ⟨m, hm⟩ := List.exists_mem_of_ne_nil _ some
  obtain ⟨group, hgroup, member⟩ := List.mem_flatten.mp hm
  have inside : g.length - 1 < g.length := Nat.sub_lt (List.length_pos_of_mem hgroup) Nat.one_pos
  rw [List.getD_eq_getElem _ _ inside, ← List.length_pos_iff,
    length_eq_of_valid valid (List.getElem_mem inside) hgroup]
  exact List.length_pos_of_mem member

/-- As many groups with the same table are the same. -/
theorem eq_of_text {g h : Grouping ℤ} (length : g.length = h.length) (same : text g = text h) :
    g = h := by
  have lines : seats g = seats h := by
    have read := linesOf_text g
    rw [same, linesOf_text h] at read
    exact (Option.some.inj read).symm
  refine List.ext_getElem length fun k inside inside' => ?_
  have group := members_collected (g := g) (List.Perm.refl _) k
  rw [lines, members_collected (List.Perm.refl _)] at group
  simpa [inside, inside'] using group.symm

/-! ### Which tables are written -/

open Decimal (IsShort)

/-- The value that holds integers in groups. -/
def ofIntegers (g : Grouping ℤ) : Value := toValue (g.map fun group => group.map .int)

/-- A row whose numbers have texts. -/
def Lined (seat : ℕ × ℕ × ℤ) : Prop := IsShort seat.1 ∧ IsShort seat.2.1 ∧ IsShort seat.2.2

instance decidableLined (seat : ℕ × ℕ × ℤ) : Decidable (Lined seat) :=
  inferInstanceAs (Decidable (_ ∧ _ ∧ _))

/-- A grouping that has a table: each of its rows has texts for its numbers. -/
def Writable (g : Grouping ℤ) : Prop := ∀ seat ∈ seats g, Lined seat

instance decidableWritable (g : Grouping ℤ) : Decidable g.Writable :=
  inferInstanceAs (Decidable (∀ seat ∈ seats g, Lined seat))

/-- The row of a member with its place. -/
def lineOf (seat : ℕ × ℕ × ℤ) : Except Fault (List Char) := memberLine seat.1 seat.2.1 seat.2.2

theorem lineOf_of_lined {seat : ℕ × ℕ × ℤ} (lined : Lined seat) :
    lineOf seat = .ok (Table.row ((seatFields seat).map Text.ofChars)).chars := by
  obtain ⟨group, place, member⟩ := seat
  obtain ⟨shortGroup, shortPlace, shortMember⟩ := lined
  have fields : [(group : ℤ), place, member].mapM (fun n => (Value.int n).written) =
      .ok [Text.ofChars (Decimal.integer group), Text.ofChars (Decimal.integer place),
        Text.ofChars (Decimal.integer member)] :=
    mapM_ok_iff.mpr (.cons (Value.written_of_short shortGroup)
      (.cons (Value.written_of_short shortPlace) (.cons (Value.written_of_short shortMember) .nil)))
  rw [lineOf, memberLine, fields, Decimal.integer_natCast, Decimal.integer_natCast]
  rfl

theorem lineOf_of_not_lined {seat : ℕ × ℕ × ℤ} (long : ¬ Lined seat) :
    lineOf seat = .error .tooLongToWrite := by
  obtain ⟨group, place, member⟩ := seat
  have refused : [(group : ℤ), place, member].mapM (fun n => (Value.int n).written) =
      .error .tooLongToWrite := by
    by_cases shortGroup : IsShort group
    · by_cases shortPlace : IsShort place
      · have longMember : ¬ IsShort member := fun short => long ⟨shortGroup, shortPlace, short⟩
        exact mapM_error_iff.mpr ⟨[(group : ℤ), place], member, [], rfl,
          List.forall_mem_cons.mpr ⟨⟨_, Value.written_of_short shortGroup⟩,
            List.forall_mem_singleton.mpr ⟨_, Value.written_of_short shortPlace⟩⟩,
          Value.written_of_not_short longMember⟩
      · exact mapM_error_iff.mpr ⟨[(group : ℤ)], place, [member], rfl,
          List.forall_mem_singleton.mpr ⟨_, Value.written_of_short shortGroup⟩,
          Value.written_of_not_short shortPlace⟩
    · exact mapM_error_iff.mpr
        ⟨[], (group : ℤ), [(place : ℤ), member], rfl, nofun, Value.written_of_not_short shortGroup⟩
  rw [lineOf, memberLine, refused]
  rfl

/-- The rows of a group are written one after the other. -/
theorem memberLines_eq (group : ℕ) (members : List ℤ) : ∀ place : ℕ,
    memberLines group place (members.map .int) =
      List.flatten <$> ((members.zipIdx place).map fun m => (group, m.2, m.1)).mapM lineOf := by
  induction members with
  | nil => exact fun _ => rfl
  | cons m rest ih =>
      intro place
      have read : (Value.int m).toInt = pure m := rfl
      simp only [List.map_cons, memberLines, read, ih, List.zipIdx_cons, List.mapM_cons, lineOf,
        pure_bind, map_bind, bind_map_left, map_pure, List.flatten_cons]

/-- The rows of all groups are written one after the other. -/
theorem groupLines_eq (g : Grouping ℤ) : ∀ first : ℕ,
    groupLines first (g.map fun group => .list (group.map .int)) =
      List.flatten <$> (seatsFrom first g).mapM lineOf := by
  induction g with
  | nil => exact fun _ => rfl
  | cons members rest ih =>
      intro first
      have read : (Value.list (members.map .int)).items = pure (members.map .int) := rfl
      rw [seatsFrom_cons, seatsOf, List.mapM_append]
      simp only [List.map_cons, groupLines, read, memberLines_eq, ih, pure_bind, map_bind,
        bind_map_left, map_pure, List.flatten_append]

theorem tableOfValue_integers (g : Grouping ℤ) :
    tableOfValue (ofIntegers g) = (do
      return (Table.row columns).chars ++ (← (seats g).mapM lineOf).flatten) := by
  have items : (ofIntegers g).items = .ok (g.map fun group => .list (group.map .int)) := by
    simp [ofIntegers, toValue, Value.items]
  rw [tableOfValue, items]
  change (do return (Table.row columns).chars ++ (← groupLines 0 _)) = _
  rw [groupLines_eq]
  exact bind_map_left _ _ _

section

variable {g : Grouping ℤ}

/-- The text of a grouping is its table, if it has one. -/
theorem tableOfValue_of_writable (writable : g.Writable) :
    tableOfValue (ofIntegers g) = .ok (text g) := by
  have rows : (seats g).mapM lineOf =
      .ok ((seats g).map fun seat => (Table.row ((seatFields seat).map Text.ofChars)).chars) :=
    mapM_ok_of_each fun seat inside => lineOf_of_lined (writable seat inside)
  rw [tableOfValue_integers, rows, text, Table.chars_text, List.map_map]
  rfl

theorem writable_of_tableOfValue {cs : List Char} (written : tableOfValue (ofIntegers g) = .ok cs) :
    g.Writable := by
  intro seat inside
  rw [tableOfValue_integers] at written
  obtain ⟨rows, written, -⟩ := except_bind_ok_iff.mp written
  obtain ⟨row, -, answer⟩ := exists_of_forall₂ (mapM_ok_iff.mp written).flip inside
  by_contra long
  cases (lineOf_of_not_lined long).symm.trans answer

theorem tableOfValue_error {e : Fault} (refused : tableOfValue (ofIntegers g) = .error e) :
    e = .tooLongToWrite := by
  rw [tableOfValue_integers] at refused
  rcases except_bind_error_iff.mp refused with refused | ⟨_, _, h⟩
  · obtain ⟨_, seat, _, -, -, refused⟩ := mapM_error_iff.mp refused
    by_cases lined : Lined seat
    · cases (lineOf_of_lined lined).symm.trans refused
    · exact (Except.error.inj ((lineOf_of_not_lined lined).symm.trans refused)).symm
  · cases h

/-- Every table is a text of its grouping. -/
theorem text_of_tableOfValue {cs : List Char} (written : tableOfValue (ofIntegers g) = .ok cs) :
    cs = text g :=
  Except.ok.inj (written.symm.trans (tableOfValue_of_writable (writable_of_tableOfValue written)))

end

/-- **The table of a grouping tells the grouping.**  There is a table exactly if no number in it has
too many digits, and nothing else is refused.  The table has a line for every member.  For each
group, its lines in the order of their places have its members in their order, at the places from
one on.  So groupings of as many groups have the same table only if they are the same, and a valid
grouping with a member is found from its table. -/
theorem table_tells (g : Grouping ℤ) :
    ((∃ cs, tableOfValue (ofIntegers g) = .ok cs) ↔ g.Writable) ∧
    (∀ e, tableOfValue (ofIntegers g) = .error e → e = .tooLongToWrite) ∧
    ∀ cs, tableOfValue (ofIntegers g) = .ok cs →
      (∃ lines, linesOf cs = some lines ∧ lines.map (·.2.2) = g.members ∧
        ∀ others, others ~ lines → ∀ k, (collected others k).map (·.2) = g.getD k [] ∧
          (collected others k).map (·.1) = List.range' 1 (g.getD k []).length) ∧
      (∀ h : Grouping ℤ, g.length = h.length →
        ∀ cs', tableOfValue (ofIntegers h) = .ok cs' → (cs = cs' ↔ g = h)) ∧
      (g.validate = .ok () → g.members ≠ [] → (linesOf cs).map regrouped = some g) := by
  refine ⟨⟨?_, fun writable => ⟨_, tableOfValue_of_writable writable⟩⟩, fun e => tableOfValue_error,
    ?_⟩
  · rintro ⟨cs, written⟩
    exact writable_of_tableOfValue written
  · intro cs written
    cases text_of_tableOfValue written
    refine ⟨⟨seats g, linesOf_text g, members_seatsFrom g 0, ?_⟩, ?_, ?_⟩
    · exact fun others same k => ⟨members_collected same k, places_collected same k⟩
    · intro h length cs' written'
      cases text_of_tableOfValue written'
      exact ⟨eq_of_text length, congrArg text⟩
    · intro valid some
      rw [linesOf_text, Option.map_some,
        regrouped_perm (List.Perm.refl _) (last_of_valid valid some)]

/-- An empty group makes a difference as long as there are as many groups, and groups of one size
are found. -/
theorem twins_told :
    (∃ cs cs', tableOfValue (ofIntegers [[-3, 12], [], [7]]) = .ok cs ∧
      tableOfValue (ofIntegers [[-3, 12], [7], []]) = .ok cs' ∧ cs ≠ cs') ∧
    validate [[0, 2], [3, 5]] = .ok () ∧ members ([[0, 2], [3, 5]] : Grouping ℤ) ≠ [] ∧
    ∃ cs, tableOfValue (ofIntegers [[0, 2], [3, 5]]) = .ok cs ∧
      (linesOf cs).map regrouped = some [[0, 2], [3, 5]] := by
  have valid : validate [[0, 2], [3, 5]] = .ok () := by
    have members : ([0, 2, 3, 5] : List ℤ).mergeSort (fun a b => decide (a ≤ b)) = [0, 2, 3, 5] :=
      List.mergeSort_of_pairwise (by decide)
    have sizes : ([2, 2] : List ℕ).mergeSort (fun a b => decide (a ≤ b)) = [2, 2] :=
      List.mergeSort_of_pairwise (by decide)
    change check [0, 2, 3, 5] [2, 2] = .ok ()
    simp only [check, isDistinct, occurringSizes, members, sizes]
    rfl
  have some : members ([[0, 2], [3, 5]] : Grouping ℤ) ≠ [] := by
    decide
  obtain ⟨made, -, tells⟩ := table_tells [[-3, 12], [], [7]]
  obtain ⟨made', -, -⟩ := table_tells [[-3, 12], [7], []]
  obtain ⟨made'', -, found⟩ := table_tells [[0, 2], [3, 5]]
  obtain ⟨cs, written⟩ := made.mpr (by decide)
  obtain ⟨cs', written'⟩ := made'.mpr (by decide)
  obtain ⟨cs'', written''⟩ := made''.mpr (by decide)
  have apart : ([[-3, 12], [], [7]] : Grouping ℤ) ≠ [[-3, 12], [7], []] := by
    decide
  have tables_apart : cs ≠ cs' := by
    rw [Ne, (tells cs written).2.1 [[-3, 12], [7], []] rfl cs' written']
    exact apart
  exact ⟨⟨cs, cs', written, written', tables_apart⟩, valid, some, cs'', written'',
    (found cs'' written'').2.2 valid some⟩

/-- A member that is a text of too many digits is not read. -/
theorem tableOfValue_of_long {n : ℕ} (long : ¬ Decimal.IsShort n) :
    tableOfValue (.list [.list [.text (Text.ofChars (Decimal.natural n))]]) =
      .error (.tooManyDigits (Decimal.natural n).length) := by
  have unread := Value.toInt_of_not_short long
  simp only [tableOfValue, Value.items, groupLines, memberLines, unread, bind, Except.bind]

/-- A member has one digit too many. -/
def longGrouping : Grouping ℤ := [[(10 ^ Numeral.digitLimit : ℕ)]]

/-- There is no table that has a line for this member, whether it is an integer or its decimal
form. -/
theorem long_untold : tableOfValue (ofIntegers longGrouping) = .error .tooLongToWrite ∧
    (∃ count, tableOfValue
      (.list [.list [.text (Text.ofChars (Decimal.natural (10 ^ Numeral.digitLimit)))]]) =
      .error (.tooManyDigits count)) ∧
    ¬ ∃ cs lines, tableOfValue (ofIntegers longGrouping) = .ok cs ∧ linesOf cs = some lines ∧
      lines.map (·.2.2) = longGrouping.members := by
  have long : ¬ Decimal.IsShort ((10 ^ Numeral.digitLimit : ℕ) : ℤ) := by
    intro short
    have small := (Decimal.isShort_iff _).mp short
    rw [Int.natAbs_natCast] at small
    exact Nat.lt_irrefl _ small
  have refused : tableOfValue (ofIntegers longGrouping) = .error .tooLongToWrite := by
    have only : seats longGrouping = [(0, 1, ((10 ^ Numeral.digitLimit : ℕ) : ℤ))] := rfl
    have unlined : ¬ Lined (0, 1, ((10 ^ Numeral.digitLimit : ℕ) : ℤ)) := by
      rintro ⟨-, -, short⟩
      exact long short
    rw [tableOfValue_integers, only, List.mapM_cons, lineOf_of_not_lined unlined]
    rfl
  refine ⟨refused, ⟨_, tableOfValue_of_long long⟩, ?_⟩
  rintro ⟨cs, _, written, -⟩
  cases refused.symm.trans written

end Annealing.Grouping
