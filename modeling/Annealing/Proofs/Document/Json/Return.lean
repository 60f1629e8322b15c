import Annealing.Proofs.Document.Json.Number
import Annealing.Proofs.Document.Json.Written

/-!
# Document — reading what was written

A value that is written and read again comes back as its *image* (`Json.image`): a tuple as a list,
a key as a text, a text with its halves joined, a collection in the place of its knot.  Of two keys
with one text the later value stays.

The writer stops at fewer collections inside each other than the reader, so whatever is written as a
whole is read as a whole (`Json.read_render`).
-/

namespace Annealing.Json

/-! ### Images -/

section

variable (untied : Nat → Value)

mutual

/-- What becomes of a value that is written and read; `untied` is the image of a knot. -/
def image : Value → Value
  | .text t => .text t.mend
  | .list items | .tuple items => .list (imageItems items)
  | .dict entries => .dict (imageEntries [] entries)
  | .knot _ number => untied number
  | v => v

/-- The images of items. -/
def imageItems : List Value → List Value
  | [] => []
  | v :: rest => image v :: imageItems rest

/-- The images of entries, put to those that were read before. -/
def imageEntries (before : Entries) : List (Value × Value) → Entries
  | [] => before
  | (k, v) :: rest => imageEntries (before.insert (.text (keyText k)) (image v)) rest

end

end

/-- The image of the collection of a knot. -/
def untiedImage (knots : Knots) : (left number : Nat) → Value
  | 0, _ => .null
  | left + 1, number =>
      match knots[number]? with
      | some v => image (untiedImage knots left) v
      | none => .null

/-- What is read of a value whose knots are in a table. -/
def returned (v : Value) (knots : Knots) : Value := image (untiedImage knots (knots.size + 1)) v

/-! ### Spaces -/

theorem isSpace_of_not_blank {c : Char} (h : Text.isBlank c = false) : isSpace c = false := by
  unfold isSpace
  have differs : ∀ d : Char, Text.isBlank d = true → c ≠ d := by
    rintro d blank rfl
    cases blank.symm.trans h
  simp [differs ' ' (by decide), differs '\t' (by decide), differs '\n' (by decide),
    differs '\r' (by decide)]

/-- A new line and the indentation behind it are skipped, up to what is no blank. -/
theorem skip_newLine (depth : Nat) {c : Char} (h : Text.isBlank c = false) (rest : List Char) :
    skip (newLine depth ++ c :: rest) = c :: rest := by
  have spaces : ∀ d ∈ newLine depth, isSpace d = true := by
    intro d hd
    rcases List.mem_cons.mp hd with rfl | hd
    · rfl
    · rw [List.eq_of_mem_replicate hd]
      rfl
  have other : ¬ isSpace c = true := by simp [isSpace_of_not_blank h]
  rw [skip, List.dropWhile_append_of_pos spaces, List.dropWhile_cons_of_neg other]

theorem skip_of_not_blank {c : Char} (h : Text.isBlank c = false) (rest : List Char) :
    skip (c :: rest) = c :: rest :=
  List.dropWhile_cons_of_neg (by simp [isSpace_of_not_blank h])

/-! ### Items and entries -/

/-- What is written of a value or a key starts with a character that is no blank. -/
def Opens (cs : List Char) : Prop := ∃ c rest, cs = c :: rest ∧ Text.isBlank c = false

theorem Opens.append {cs : List Char} (h : Opens cs) (more : List Char) : Opens (cs ++ more) := by
  obtain ⟨c, rest, rfl, blank⟩ := h
  exact ⟨c, rest ++ more, rfl, blank⟩

theorem Opens.skip {cs : List Char} (h : Opens cs) : skip cs = cs := by
  obtain ⟨c, rest, rfl, blank⟩ := h
  exact skip_of_not_blank blank rest

theorem Opens.skip_newLine {cs : List Char} (h : Opens cs) (depth : Nat) :
    Json.skip (newLine depth ++ cs) = cs := by
  obtain ⟨c, rest, rfl, blank⟩ := h
  exact Json.skip_newLine depth blank rest

theorem Formed.opens {cs : List Char} (h : Formed cs) : Opens cs := by
  obtain ⟨c, rest, same, blank, -⟩ := h.first
  exact ⟨c, rest, same, blank⟩

section

variable {item : List Char → Reading Value} {cs more : List Char} {v : Value} {depth : Nat}

/-- The last item of a list. -/
theorem items_last (count : Nat) (before : List Value)
    (read : item cs = .ok (v, newLine depth ++ ']' :: more)) :
    items item (count + 1) before cs = .ok (.list (v :: before).reverse, more) := by
  simp only [items, read, bind, Except.bind,
    Json.skip_newLine depth (by decide : Text.isBlank ']' = false)]
  rfl

/-- An item that others follow. -/
theorem items_more (count : Nat) (before : List Value)
    (read : item cs = .ok (v, ',' :: newLine depth ++ more)) (opens : Opens more) :
    items item (count + 1) before cs = items item count (v :: before) more := by
  simp only [items, read, bind, Except.bind, List.cons_append,
    skip_of_not_blank (by decide : Text.isBlank ',' = false), opens.skip_newLine]

/-- A key, and the value behind it. -/
theorem entries_key {k : Value} (key : (keyDraft k).fault = none) (opens : Opens cs)
    (count : Nat) (before : Entries) :
    entries item (count + 1) before ((keyDraft k).written ++ ([':', ' '] ++ cs)) = (do
      let (v, rest) ← item cs
      let now := before.insert (.text (keyText k)) v
      match skip rest with
      | '}' :: rest => return (.dict now, rest)
      | ',' :: rest => entries item count now (skip rest)
      | rest => .error (.problem .comma rest.length)) := by
  obtain ⟨t, written, name⟩ := key_written key
  have read := text_quoted t ([':', ' '] ++ cs)
  have blank : skip (' ' :: cs) = cs := (List.dropWhile_cons_of_pos rfl).trans opens.skip
  rw [written, quoted]
  simp only [List.cons_append, List.append_assoc, List.nil_append] at read ⊢
  -- the steps on the right are those of the definition, once the key is read
  conv_lhs => simp only [entries, read, bind, Except.bind,
    skip_of_not_blank (by decide : Text.isBlank ':' = false), blank, name]
  rfl

/-- The last entry of a dictionary. -/
theorem entries_last {k : Value} (key : (keyDraft k).fault = none) (opens : Opens cs) (count : Nat)
    (before : Entries) (read : item cs = .ok (v, newLine depth ++ '}' :: more)) :
    entries item (count + 1) before ((keyDraft k).written ++ ([':', ' '] ++ cs)) =
      .ok (.dict (before.insert (.text (keyText k)) v), more) := by
  rw [entries_key key opens, read]
  simp only [bind, Except.bind, Json.skip_newLine depth (by decide : Text.isBlank '}' = false)]
  rfl

/-- An entry that others follow. -/
theorem entries_more {k : Value} (key : (keyDraft k).fault = none) (opens : Opens cs) (count : Nat)
    (before : Entries) (read : item cs = .ok (v, ',' :: newLine depth ++ more))
    (others : Opens more) :
    entries item (count + 1) before ((keyDraft k).written ++ ([':', ' '] ++ cs)) =
      entries item count (before.insert (.text (keyText k)) v) more := by
  rw [entries_key key opens, read]
  simp only [bind, Except.bind, List.cons_append,
    skip_of_not_blank (by decide : Text.isBlank ',' = false), others.skip_newLine]

end

/-! ### Values -/

/-- What reading a text gives, whatever stands behind it that closes it. -/
def Returns (cs : List Char) (depth : Nat) (v : Value) : Prop :=
  ∀ (fuel : Nat) (rest : List Char), Closes rest → cs.length < fuel →
    value fuel (depthLimit - depth) (cs ++ rest) = .ok (v, rest)

/-- A list that is not empty is read item by item. -/
theorem value_list {depth : Nat} (room : depth < depthLimit) (fuel : Nat) {cs : List Char}
    (formed : Formed cs) (more : List Char) :
    value (fuel + 1) (depthLimit - depth) ('[' :: newLine (depth + 1) ++ (cs ++ more)) =
      items (value fuel (depthLimit - (depth + 1))) fuel [] (cs ++ more) := by
  have open_ : depthLimit - depth ≠ 0 := Nat.sub_ne_zero_of_lt room
  obtain ⟨c, rest, rfl, blank, other⟩ := formed.first
  simp only [List.cons_append, value, open_, if_false, Json.skip_newLine (depth + 1) blank]
  split
  · rename_i same
    exact absurd (List.cons.inj same).1 other
  · rfl

/-- A dictionary that is not empty is read entry by entry. -/
theorem value_dict {depth : Nat} (room : depth < depthLimit) (fuel : Nat) {k : Value}
    (key : (keyDraft k).fault = none) (more : List Char) :
    value (fuel + 1) (depthLimit - depth)
      ('{' :: newLine (depth + 1) ++ ((keyDraft k).written ++ more)) =
      entries (value fuel (depthLimit - (depth + 1))) fuel [] ((keyDraft k).written ++ more) := by
  have open_ : depthLimit - depth ≠ 0 := Nat.sub_ne_zero_of_lt room
  obtain ⟨t, written, -⟩ := key_written key
  simp only [written, quoted, List.cons_append, value, open_, if_false,
    Json.skip_newLine (depth + 1) (by decide : Text.isBlank '"' = false)]
  rfl

/-- The reader goes deeper than the writer. -/
theorem room_of_low {depth : Nat} (low : depth ≤ nestingLimit) : depth < depthLimit :=
  Nat.lt_of_le_of_lt low (by decide)

/-- What stands behind an item closes it. -/
theorem closes_items {untied : (depth number : Nat) → Draft} {depth : Nat} {rest : List Value}
    (h : (moreItems untied depth rest).fault = none) (outer : Nat) (more : List Char) :
    Closes ((moreItems untied depth rest).written ++ (newLine outer ++ more)) := by
  cases rest with
  | nil => exact Closes.newLine _
  | cons v rest =>
      obtain ⟨-, -, written⟩ := moreItems_written h
      rw [written]
      exact Closes.comma _

/-- What stands behind an entry closes it. -/
theorem closes_entries {untied : (depth number : Nat) → Draft} {depth : Nat}
    {rest : List (Value × Value)} (h : (moreEntries untied depth rest).fault = none) (outer : Nat)
    (more : List Char) :
    Closes ((moreEntries untied depth rest).written ++ (newLine outer ++ more)) := by
  cases rest with
  | nil => exact Closes.newLine _
  | cons e rest =>
      obtain ⟨-, -, -, written⟩ := moreEntries_written h
      rw [written]
      exact Closes.comma _

section

variable {untied : (depth number : Nat) → Draft} {twins : Nat → Value}

mutual

/-- **What is written as a whole is read as its image.** -/
theorem draft_returns
    (formed : ∀ depth number, (untied depth number).fault = none →
      Formed (untied depth number).written)
    (knots : ∀ depth number, depth ≤ nestingLimit → (untied depth number).fault = none →
      Returns (untied depth number).written depth (twins number)) {depth : Nat}
    (low : depth ≤ nestingLimit) :
    ∀ v : Value, (draft untied depth v).fault = none →
      Returns (draft untied depth v).written depth (image twins v)
  | .null, _ => by
      rintro (_ | fuel) rest - enough
      · cases enough
      · rfl
  | .bool b, _ => by
      rintro (_ | fuel) rest - enough
      · cases enough
      · cases b <;> rfl
  | .int n, h => by
      obtain ⟨short, written⟩ : _ ∧ (draft untied depth (.int n)).written = _ :=
        integerDraft_fault h
      rintro (_ | fuel) rest closes enough
      · cases enough
      · rw [written]
        exact value_integer fuel _ short closes
  | .float x, _ => by
      rintro (_ | fuel) rest closes enough
      · cases enough
      · exact value_float fuel _ x closes
  | .text t, _ => by
      rintro (_ | fuel) rest - enough
      · cases enough
      · have read := text_quoted t rest
        simp only [draft, Draft.ofChars, quoted, List.cons_append, List.append_assoc,
          List.nil_append, value, read, image]
        rfl
  | .list [], _ | .tuple [], _ => by
      rintro (_ | fuel) rest - enough
      · cases enough
      · have room : depthLimit - depth ≠ 0 := Nat.sub_ne_zero_of_lt (room_of_low low)
        simp only [draft, Draft.ofChars, List.cons_append, value, room, if_false,
          skip_of_not_blank (by decide : Text.isBlank ']' = false)]
        rfl
  | .dict [], _ => by
      rintro (_ | fuel) rest - enough
      · cases enough
      · have room : depthLimit - depth ≠ 0 := Nat.sub_ne_zero_of_lt (room_of_low low)
        simp only [draft, Draft.ofChars, List.cons_append, value, room, if_false,
          skip_of_not_blank (by decide : Text.isBlank '}' = false)]
        rfl
  | .list (v :: rest), h | .tuple (v :: rest), h => by
      -- a tuple is written as the list of its items
      have list : Returns (draft untied depth (.list (v :: rest))).written depth
          (image twins (.list (v :: rest))) := by
        obtain ⟨room, item, others, written⟩ := list_written h
        rintro (_ | fuel) more closes enough
        · cases enough
        rw [written] at enough ⊢
        simp only [List.length_append, List.length_cons] at enough
        have deeper : depth + 1 ≤ nestingLimit := by omega
        have first := draft_returns formed knots deeper v item fuel
          _ (closes_items others depth (']' :: more)) (by omega)
        have all := moreItems_returns formed knots deeper rest others fuel fuel [] _ _ depth more
          (by omega) (by omega) first
        have start := value_list (room_of_low low) fuel (draft_formed formed (depth + 1) v item)
          ((moreItems untied (depth + 1) rest).written ++ (newLine depth ++ ']' :: more))
        simp only [List.append_assoc, List.cons_append, List.nil_append] at all start ⊢
        rw [start, all]
        rfl
      exact list
  | .dict ((k, v) :: rest), h => by
      obtain ⟨room, key, item, others, written⟩ := dict_written h
      rintro (_ | fuel) more closes enough
      · cases enough
      rw [written] at enough ⊢
      simp only [List.length_append, List.length_cons] at enough
      have deeper : depth + 1 ≤ nestingLimit := by omega
      have first := draft_returns formed knots deeper v item fuel
        _ (closes_entries others depth ('}' :: more)) (by omega)
      have all := moreEntries_returns formed knots deeper rest others fuel fuel
        [] k _ _ depth more (by omega) (by omega) key
        ((draft_formed formed (depth + 1) v item).opens.append _) first
      have start := value_dict (room_of_low low) fuel key ([':',
        ' '] ++ ((draft untied (depth + 1) v).written ++
          ((moreEntries untied (depth + 1) rest).written ++ (newLine depth ++ '}' :: more))))
      simp only [List.append_assoc, List.cons_append, List.nil_append] at all start ⊢
      rw [start, all]
      rfl
  | .knot _ number, h => knots depth number low h
  | .bytes _, h | .set _, h | .date _, h | .instant _, h => nomatch h

theorem moreItems_returns
    (formed : ∀ depth number, (untied depth number).fault = none →
      Formed (untied depth number).written)
    (knots : ∀ depth number, depth ≤ nestingLimit → (untied depth number).fault = none →
      Returns (untied depth number).written depth (twins number)) {depth : Nat}
    (low : depth ≤ nestingLimit) :
    ∀ rest : List Value, (moreItems untied depth rest).fault = none →
      ∀ (fuel count : Nat) (before : List Value) (v : Value) (cs : List Char) (outer :
        Nat) (more : List Char),
        (moreItems untied depth rest).written.length < fuel →
        (moreItems untied depth rest).written.length < count →
        value fuel (depthLimit - depth) cs =
          .ok (v, (moreItems untied depth rest).written ++ (newLine outer ++ ']' :: more)) →
        items (value fuel (depthLimit - depth)) count before cs =
          .ok (.list (before.reverse ++ v :: imageItems twins rest), more)
  | [], _ => by
      rintro fuel (_ | count) before v cs outer more - enough read
      · cases enough
      · rw [items_last count before read, imageItems, List.reverse_cons]
  | w :: rest, h => by
      obtain ⟨item, others, written⟩ := moreItems_written h
      rintro fuel (_ | count) before v cs outer more deep enough read
      · cases enough
      rw [written] at deep enough read
      simp only [List.length_append, List.length_cons] at deep enough
      have next := draft_returns formed knots low w item fuel
        _ (closes_items others outer (']' :: more)) (by omega)
      have opens := (draft_formed formed depth w item).opens
      simp only [List.append_assoc] at read
      rw [items_more count before read (opens.append _),
        moreItems_returns formed knots low rest others fuel count (v :: before) _ _ outer more
          (by omega) (by omega) next,
        imageItems, List.reverse_cons, List.append_assoc]
      rfl

theorem moreEntries_returns
    (formed : ∀ depth number, (untied depth number).fault = none →
      Formed (untied depth number).written)
    (knots : ∀ depth number, depth ≤ nestingLimit → (untied depth number).fault = none →
      Returns (untied depth number).written depth (twins number)) {depth : Nat}
    (low : depth ≤ nestingLimit) :
    ∀ rest : List (Value × Value), (moreEntries untied depth rest).fault = none →
      ∀ (fuel count : Nat) (before : Entries) (k v : Value) (cs : List Char) (outer :
        Nat) (more : List Char),
        (moreEntries untied depth rest).written.length < fuel →
        (moreEntries untied depth rest).written.length < count →
        (keyDraft k).fault = none → Opens cs →
        value fuel (depthLimit - depth) cs =
          .ok (v, (moreEntries untied depth rest).written ++ (newLine outer ++ '}' :: more)) →
        entries (value fuel (depthLimit - depth)) count before
          ((keyDraft k).written ++ ([':', ' '] ++ cs)) =
          .ok (.dict (imageEntries twins (before.insert (.text (keyText k)) v) rest), more)
  | [], _ => by
      rintro fuel (_ | count) before k v cs outer more - enough key opens read
      · cases enough
      · rw [entries_last key opens count before read, imageEntries]
  | (l, w) :: rest, h => by
      obtain ⟨other, item, others, written⟩ := moreEntries_written h
      rintro fuel (_ | count) before k v cs outer more deep enough key opens read
      · cases enough
      rw [written] at deep enough read
      simp only [List.length_append, List.length_cons] at deep enough
      have next := draft_returns formed knots low w item fuel
        _ (closes_entries others outer ('}' :: more)) (by omega)
      have first : Opens (keyDraft l).written := by
        obtain ⟨t, name, -⟩ := key_written other
        exact ⟨'"', _, name, by decide⟩
      simp only [List.append_assoc] at read
      rw [entries_more key opens count before read (first.append _),
        moreEntries_returns formed knots low rest others fuel count _ l _ _ outer more
          (by omega) (by omega) other
          ((draft_formed formed depth w item).opens.append _) next,
        imageEntries]

end

end

theorem untiedDraft_returns (knots : Knots) :
    ∀ (left : Nat) (opened : List Nat) (depth number : Nat),
    depth ≤ nestingLimit → (untiedDraft knots left opened depth number).fault = none →
      Returns (untiedDraft knots left opened depth number).written depth
        (untiedImage knots left number) := by
  intro left
  induction left with
  | zero => exact fun _ _ _ _ h => nomatch h
  | succ left ih =>
      intro opened depth number low h
      simp only [untiedDraft, untiedImage] at h ⊢
      split at h
      · cases h
      · rename_i fresh
        rw [if_neg fresh]
        cases there : knots[number]? with
        | some v =>
            rw [there] at h
            exact draft_returns (untiedDraft_formed knots left _)
              (fun depth number => ih _ depth number) low v h
        | none =>
            rw [there] at h
            cases h

/-- What is written as a whole is formed. -/
theorem render_formed {v : Value} {knots : Knots} (whole : (render v knots).fault = none) :
    Formed (render v knots).written :=
  draft_formed (untiedDraft_formed knots _ []) 0 v whole

/-- **What is written as a whole can be read again, and comes back as its image.** -/
theorem read_render {v : Value} {knots : Knots} (whole : (render v knots).fault = none) :
    read (render v knots).written = .ok (returned v knots) := by
  have formed := render_formed whole
  have back : value ((render v knots).written.length + 1) depthLimit (render v knots).written =
      .ok (returned v knots, []) := by
    have returns := draft_returns (untiedDraft_formed knots _ [])
      (untiedDraft_returns knots _ []) (Nat.zero_le _) v whole
      _ [] Closes.nil (Nat.lt_succ_self _)
    rwa [List.append_nil] at returns
  have mark : (render v knots).written.head? ≠ some '\uFEFF' := by
    intro head
    have := (formed.plain _ (List.mem_of_mem_head? head)).1
    revert this
    decide
  rw [read, document]
  simp only [mark, if_false, formed.opens.skip, back]
  rfl

end Annealing.Json
