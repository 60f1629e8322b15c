import Annealing.Proofs.Storage.Tree
import Annealing.Run

/-!
# Run — files are written up to the first that ends the run

`Run.publish` writes files one after another.  If the directory takes all of them (`Tree.Takes`),
nothing but a file whose text is cut off can end this before its time.  So either all files are
whole and written, or the files up to the first that is cut off are (`Run.publish_ends`), and
nothing else has changed (`Tree.Filed`).
-/

namespace Annealing

/-- The name of a file as a text. -/
def Artifact.title (a : Artifact) : Text := Text.ofString a.name

namespace Tree

/-- The directory that a path leads to, whose place is `dir`, takes files of these names. -/
structure Takes (t : Tree) (out : Path) (dir : List Text) (titles : List Text) : Prop where
  located : ∀ n ∈ titles, t.locate (out.join n) = .ok (dir ++ [n])
  free : ∀ n ∈ titles, t.get? (dir ++ [n]) ≠ some .directory

/-- These files were written into a directory, and nothing else has changed. -/
structure Filed (t t' : Tree) (dir : List Text) (written : List Artifact) : Prop where
  contents : ∀ a ∈ written, t'.get? (dir ++ [a.title]) = some (.file a.content)
  others : ∀ place, (∀ a ∈ written, place ≠ dir ++ [a.title]) → t'.get? place = t.get? place

variable {t : Tree} {out : Path} {dir : List Text}

/-- A file in the place of no directory. -/
theorem keepsDirectories_insert {place : List Text}
    (free : t.get? place ≠ some .directory) (content : Content) :
    KeepsDirectories t (t.insert place (.file content)) := by
  intro other h
  have apart : other ≠ place := by
    rintro rfl
    exact free h
  rw [get?_insert t (ne_nil_of_not_directory free), if_neg apart]
  exact h

/-- Putting a file makes no directory. -/
theorem keepsDirectories_of_insert {place : List Text}
    (free : t.get? place ≠ some .directory) (content : Content) :
    KeepsDirectories (t.insert place (.file content)) t := by
  intro other h
  rw [get?_insert t (ne_nil_of_not_directory free)] at h
  split at h
  · cases h
  · exact h

/-- A directory that takes files still takes them when one of them is written. -/
theorem Takes.insert {titles : List Text} {place : List Text} (takes : t.Takes out dir titles)
    (free : t.get? place ≠ some .directory) (content : Content) :
    (t.insert place (.file content)).Takes out dir titles where
  located n hn :=
    locate_of_keepsDirectories (keepsDirectories_insert free content) (takes.located n hn)
  free n hn := by
    rw [get?_insert t (ne_nil_of_not_directory free)]
    split
    · exact nofun
    · exact takes.free n hn

theorem Takes.subset {titles fewer : List Text}
    (takes : t.Takes out dir titles) (h : fewer ⊆ titles) :
    t.Takes out dir fewer where
  located n hn := takes.located n (h hn)
  free n hn := takes.free n (h hn)

/-- A file is written where a path leads, unless a directory is there. -/
theorem write_ok_iff {p : Path} {content : Content} {t' : Tree} {u : Unit} :
    storage.write p content t = .ok u t' ↔
      ∃ place, t.locate p = .ok place ∧ t.get? place ≠ some .directory ∧
        t' = t.insert place (.file content) := by
  change changing (fun t => t.write p content) t = _ ↔ _
  rw [changing_apply]
  constructor
  · intro written
    cases made : t.write p content with
    | error f =>
        rw [made] at written
        cases written
    | ok t₁ =>
        rw [made] at written
        cases written
        obtain ⟨place, located, made⟩ := except_bind_ok_iff.mp made
        split at made
        case h_1 => cases made
        case h_2 free => exact ⟨place, located, free, (Except.ok.inj made).symm⟩
  · rintro ⟨place, located, free, rfl⟩
    have written : t.write p content = .ok (t.insert place (.file content)) := by
      refine except_bind_ok_iff.mpr ⟨place, located, ?_⟩
      split
      case h_1 there => exact absurd there free
      case h_2 => rfl
    rw [written]

theorem write_apply {p : Path} {place : List Text} (located : t.locate p = .ok place)
    (free : t.get? place ≠ some .directory) (content : Content) :
    storage.write p content t = .ok () (t.insert place (.file content)) :=
  write_ok_iff.mpr ⟨place, located, free, rfl⟩

/-- A file that was written is there. -/
theorem there_of_write {p : Path} {content : Content} {t' : Tree}
    (written : storage.write p content t = .ok () t') :
    ∃ place, t'.locate p = .ok place ∧ t'.get? place = some (.file content) := by
  obtain ⟨place, located, free, rfl⟩ := write_ok_iff.mp written
  refine ⟨place, locate_of_keepsDirectories (keepsDirectories_insert free content) located, ?_⟩
  rw [get?_insert t (ne_nil_of_not_directory free), if_pos rfl]

theorem Filed.nil (t : Tree) (dir : List Text) : Filed t t dir [] where
  contents _ ha := nomatch ha
  others _ _ := rfl

/-- One file before others. -/
theorem Filed.cons {t' : Tree} {a : Artifact} {written : List Artifact}
    (free : t.get? (dir ++ [a.title]) ≠ some .directory) (apart : ∀ b ∈ written, b.title ≠ a.title)
    (filed : Filed (t.insert (dir ++ [a.title]) (.file a.content)) t' dir written) :
    Filed t t' dir (a :: written) := by
  have inner := ne_nil_of_not_directory free
  constructor
  · intro b hb
    rcases List.mem_cons.mp hb with rfl | hb
    · rw [filed.others, get?_insert t inner, if_pos rfl]
      intro c hc same
      exact apart c hc (by simpa using same.symm)
    · exact filed.contents b hb
  · intro place hplace
    have hrest : ∀ b ∈ written, place ≠ dir ++ [b.title] := fun b hb =>
      hplace b (List.mem_cons_of_mem a hb)
    rw [filed.others place hrest, get?_insert t inner, if_neg (hplace a List.mem_cons_self)]

/-- Writing files into a directory that takes them loses no directory. -/
theorem Filed.keepsDirectories {t' : Tree} {written : List Artifact}
    (takes : t.Takes out dir (written.map Artifact.title)) (filed : Filed t t' dir written) :
    KeepsDirectories t t' := by
  intro place h
  rw [filed.others place]
  · exact h
  · rintro a ha rfl
    exact takes.free _ (List.mem_map_of_mem ha) h

end Tree

namespace Run

open Annealing.Tree

/-- Writing files starts with the first, and ends there if it is cut off. -/
theorem publish_cons {out : Path} {a : Artifact} {rest : List Artifact} {t t₁ : Tree}
    (written : storage.write (out.join a.title) a.content t = .ok () t₁) :
    publish storage out (a :: rest) t = match a.fault with
      | some f => .error f t₁
      | none => publish storage out rest t₁ := by
  have written : storage.write (out.join (Text.ofString a.name)) a.content t = .ok () t₁ := written
  rw [publish, Effect.bind_of_ok written]
  cases a.fault <;> rfl

/-- **How writing files ends.** -/
theorem publish_ends {out : Path} {dir : List Text} {files : List Artifact} {t : Tree}
    (takes : t.Takes out dir (files.map Artifact.title))
    (apart : (files.map Artifact.title).Nodup) :
    (∃ t', publish storage out files t = .ok () t' ∧ (∀ a ∈ files, a.fault = none) ∧
      Filed t t' dir files) ∨
    ∃ before a after f t', publish storage out files t = .error f t' ∧
      files = before ++ a :: after ∧
      (∀ b ∈ before, b.fault = none) ∧ a.fault = some f ∧ Filed t t' dir (before ++ [a]) := by
  induction files generalizing t with
  | nil => exact .inl ⟨t, rfl, fun a ha => absurd ha List.not_mem_nil, .nil t dir⟩
  | cons a rest ih =>
      have here : a.title ∈ (a :: rest).map Artifact.title := List.mem_cons_self
      have free := takes.free _ here
      have step := @publish_cons out a rest _ _ (write_apply (takes.located _ here) free a.content)
      obtain ⟨absent, apart⟩ := List.nodup_cons.mp apart
      have others : ∀ b ∈ rest, b.title ≠ a.title := by
        intro b hb same
        exact absent (same ▸ List.mem_map_of_mem hb)
      cases whole : a.fault with
      | some f =>
          rw [whole] at step
          have filed : Filed t (t.insert (dir ++ [a.title]) (.file a.content)) dir [a] :=
            Filed.cons free (fun b hb => absurd hb List.not_mem_nil) (Filed.nil _ dir)
          exact .inr ⟨[], a, rest, f, _, step, rfl, fun b hb => absurd hb List.not_mem_nil, whole,
            filed⟩
      | none =>
          rw [whole] at step
          have takesRest := (takes.insert free a.content).subset (List.subset_cons_self _ _)
          rcases ih takesRest apart with
            ⟨t', ends, wholes, filed⟩ | ⟨before, b, after, f, t', ends, rfl, wholes, cut, filed⟩
          · refine .inl ⟨t', step.trans ends, ?_, .cons free others filed⟩
            intro b hb
            rcases List.mem_cons.mp hb with rfl | hb
            · exact whole
            · exact wholes b hb
          · refine .inr ⟨a :: before, b, after, f, t', step.trans ends, rfl, ?_, cut,
              .cons free ?_ filed⟩
            · intro c hc
              rcases List.mem_cons.mp hc with rfl | hc
              · exact whole
              · exact wholes c hc
            · intro c hc
              refine others c ?_
              rcases List.mem_append.mp hc with h | h
              · exact List.mem_append_left _ h
              · rw [List.mem_singleton.mp h]
                simp

/-- Files that are all written find a place that is no directory, before the first is written. -/
theorem publish_located {out : Path} {files : List Artifact} {t t' : Tree}
    (ends : publish storage out files t = .ok () t') :
    ∀ a ∈ files, ∃ place, t.locate (out.join a.title) = .ok place ∧
      t.get? place ≠ some .directory := by
  induction files generalizing t with
  | nil => exact fun a ha => nomatch ha
  | cons a rest ih =>
      obtain ⟨u, t₁, written, -⟩ := Effect.bind_ok_iff.mp ends
      rw [publish_cons written] at ends
      obtain ⟨place, located, free, rfl⟩ := write_ok_iff.mp written
      intro b hb
      rcases List.mem_cons.mp hb with rfl | hb
      · exact ⟨place, located, free⟩
      · cases whole : a.fault with
        | some f =>
            rw [whole] at ends
            cases ends
        | none =>
            rw [whole] at ends
            obtain ⟨other, locatedLater, freeLater⟩ := ih ends b hb
            refine ⟨other, locate_of_keepsDirectories
              (keepsDirectories_of_insert free a.content) locatedLater, fun h => ?_⟩
            exact freeLater (keepsDirectories_insert free a.content other h)

end Run

end Annealing
