import Annealing.Proofs.Run.Publish

/-!
# Run — the files of a run

A run makes its directory, finds its outcome and the arrays of the archive, and then writes its
files (`Run.perform_eq`).  Up to there it only reads, but for the directories it makes
(`Run.discover_readOnly`).

* `Outcome.artifacts_eq`: the files are the archive, if one is asked for, and three others.
* `Outcome.cut_is_summary`: of these files only the summary can be cut off.
* `Tree.Writable`: a directory that a run can write all its files to.  They lie in one place
  (`Tree.Writable.takes`).
* `Run.publish_there`: files that are all written are whole, and are there afterwards.
-/

namespace Annealing

namespace Run

/-- The names of the files that a run may write. -/
def fileNames : List String := ["trace.npz", "metrics.json", "groups.csv", "metrics_log.csv"]

/-- What a run finds before it writes anything. -/
def discover {m : Type → Type} [Monad m] [MonadExceptOf Fault m] (S : Storage m)
    (cfg : Configuration) (base : Path) : m Outcome := do
  let entries ← MonadExcept.ofExcept (cfg.entries)
  let seed ← MonadExcept.ofExcept (seedOf entries)
  let generator ← MonadExcept.ofExcept (Generator.ofSeed seed)
  let data ← Dataset.load S cfg base
  let options ← MonadExcept.ofExcept (optionsOf entries cfg.knots)
  MonadExcept.ofExcept (Outcome.search seed (versionOf entries) options cfg.knots generator data)

theorem perform_eq {ω : Type} (S : Storage (Effect ω)) (cfg : Configuration)
    (base out : Path) (archive : Bool) :
    perform S cfg base out archive = (do
      S.ensureDirectory out
      let outcome ← discover S cfg base
      publish S out (← MonadExcept.ofExcept (outcome.artifacts out archive))
      return outcome) := by
  simp only [perform, discover, bind_assoc]

end Run

/-! ### A run only reads before it writes -/

theorem Table.load_readOnly (p : Path) : (Table.load Tree.storage p).ReadOnly := by
  have whole : ∀ octets, (do
      let t ← MonadExcept.ofExcept (Table.ofOctets octets)
      if t.height = 0 then throw (.emptyTable p.text)
      return t : Effect Tree Table).ReadOnly := by
    refine fun octets => .bind (.lift _) fun t => .ite ?_ (.pure t)
    exact .bind (.throw _) fun _ => .pure t
  have read := Tree.asking_readOnly fun t => t.read p
  have unpack := Effect.ReadOnly.bind read fun octets =>
    .bind (.lift (Table.unpacked p octets)) whole
  unfold Table.load
  refine .ite (.bind (.throw _) fun _ => ?_) ?_
  · exact .ite (.bind (.throw _) fun _ => unpack) unpack
  · exact .ite (.bind (.throw _) fun _ => unpack) unpack

theorem Dataset.load_readOnly (cfg : Configuration) (base : Path) :
    (Dataset.load Tree.storage cfg base).ReadOnly := by
  refine .bind (.lift _) fun entries => .bind (.lift _) fun tables => ?_
  refine .bind (.lift _) fun groupsPath => .bind (.lift _) fun preferencesPath => ?_
  refine .bind ?_ fun groups => .bind (.lift _) fun _ => .bind ?_ fun preferences => ?_
  · cases groupsPath with
    | none => exact .lift _
    | some p => exact .bind (Table.load_readOnly p) fun _ => .lift _
  · cases preferencesPath with
    | none => exact .lift _
    | some p => exact .bind (Table.load_readOnly p) fun _ => .lift _
  · exact .bind (.lift _) fun _ => .pure _

theorem Run.discover_readOnly (cfg : Configuration) (base : Path) :
    (discover Tree.storage cfg base).ReadOnly := by
  refine .bind (.lift _) fun entries => .bind (.lift _) fun seed => .bind (.lift _) fun generator =>
    ?_
  exact .bind (Dataset.load_readOnly cfg base) fun data => .bind (.lift _) fun options => .lift _

/-! ### The files of a run -/

namespace Outcome

variable {o : Outcome} {out : Path} {archive : Bool}

/-- The file with the archive, if one is asked for. -/
def archiveFiles (o : Outcome) (archive : Bool) : Except Fault (List Artifact) :=
  if archive then (o.archiveFile).map fun a => [a] else pure []

/-- The files behind the archive. -/
def plainFiles (o : Outcome) (out : Path) (archive : Bool) : List Artifact :=
  [o.summaryFile (archivePath out archive), o.groupsFile, o.logFile]

theorem artifacts_eq (o : Outcome) (out : Path) (archive : Bool) :
    o.artifacts out archive =
      (do return (← o.archiveFiles archive) ++ o.plainFiles out archive) := by
  cases archive <;> rfl

/-- The archive is a whole file, there is one if it is asked for, and no other file is in front of
the summary. -/
theorem archiveFiles_ok {first : List Artifact} (h : o.archiveFiles archive = .ok first) :
    first.map Artifact.name = (if archive then ["trace.npz"] else []) ∧
    ∀ a ∈ first, a.fault = none := by
  cases archive with
  | false =>
      cases h
      exact ⟨rfl, fun a ha => absurd ha List.not_mem_nil⟩
  | true =>
      change (o.archiveFile).map (fun a => [a]) = .ok first at h
      cases made : o.archiveFile with
      | error f =>
          rw [made] at h
          cases h
      | ok a =>
          rw [made] at h
          cases h
          obtain ⟨arrays, -, made⟩ := except_bind_ok_iff.mp made
          cases made
          refine ⟨rfl, fun b hb => ?_⟩
          rw [List.mem_singleton.mp hb]

/-- The files of a run have different names, all of them among those that a run may write. -/
theorem files_apart (out : Path) {first : List Artifact} (h : o.archiveFiles archive = .ok first) :
    ((first ++ o.plainFiles out archive).map Artifact.title).Nodup ∧
      (first ++ o.plainFiles out archive).map Artifact.title ⊆ Run.fileNames.map Text.ofString := by
  have titles : (first ++ o.plainFiles out archive).map Artifact.title =
      ((first.map Artifact.name) ++ ["metrics.json", "groups.csv", "metrics_log.csv"]).map
        Text.ofString := by
    simp only [List.map_append, List.map_map]
    rfl
  rw [titles, (archiveFiles_ok h).1]
  cases archive with
  | false => exact ⟨by decide, by decide⟩
  | true => exact ⟨by decide, by decide⟩

/-- Only the summary can be cut off. -/
theorem cut_is_summary {first before after : List Artifact} {a : Artifact} {f : Fault}
    (h : o.archiveFiles archive = .ok first)
    (split : first ++ o.plainFiles out archive = before ++ a :: after) (cut : a.fault = some f) :
    before = first ∧ a = o.summaryFile (archivePath out archive) := by
  have whole := (archiveFiles_ok h).2
  have notFirst : a ∉ first := by
    intro ha
    rw [whole a ha] at cut
    cases cut
  have notBehind : a ∉ [o.groupsFile, o.logFile] := by
    intro ha
    rcases List.mem_cons.mp ha with rfl | ha
    · cases cut
    · rw [List.mem_singleton.mp ha] at cut
      cases cut
  rcases List.append_eq_append_iff.mp split with ⟨more, rfl, behind⟩ | ⟨more, rfl, behind⟩
  · cases more with
    | nil =>
        cases behind
        exact ⟨List.append_nil _, rfl⟩
    | cons b more =>
        have rest : [o.groupsFile, o.logFile] = more ++ a :: after := (List.cons.inj behind).2
        exact absurd (rest ▸ List.mem_append_right more List.mem_cons_self) notBehind
  · cases more with
    | nil =>
        cases behind
        exact ⟨(List.append_nil _).symm, rfl⟩
    | cons b more =>
        rw [(List.cons.inj behind).1] at notFirst
        exact absurd (List.mem_append_right before List.mem_cons_self) notFirst

end Outcome

/-! ### Directories that can be written -/

namespace Tree

variable {t t' : Tree} {out : Path}

/-- The path of every file that a run may write leads somewhere, and not to a directory. -/
def Writable (t : Tree) (out : Path) : Prop :=
  ∀ name ∈ Run.fileNames, ∃ place,
    t.locate (out.join (Text.ofString name)) = .ok place ∧ t.get? place ≠ some .directory

theorem join_fileName (out : Path) {name : String} (h : name ∈ Run.fileNames) :
    (out.join (Text.ofString name)).names = out.names ++ [Text.ofString name] ∧
      Text.ofString name ≠ Path.upward := by
  have plain : ∀ name ∈ Run.fileNames, ((Text.ofString name).takeWhile (· = .char '/')).length = 0 ∧
      Path.namesIn (Text.ofString name) = [Text.ofString name] ∧
      Text.ofString name ≠ Path.upward := by decide
  obtain ⟨noSlash, single, down⟩ := plain name h
  refine ⟨?_, down⟩
  unfold Path.join
  rw [noSlash, single]
  rfl

/-- A file of a run lies in the directory that the path of the run leads to. -/
theorem locate_file {title : Text} (h : title ∈ Run.fileNames.map Text.ofString) {place : List Text}
    (located : t.locate (out.join title) = .ok place) :
    ∃ dir, t.follow [] out.names = .ok dir ∧ place = dir ++ [title] := by
  obtain ⟨name, hname, rfl⟩ := List.mem_map.mp h
  obtain ⟨names, down⟩ := join_fileName out hname
  obtain ⟨-, -, followed⟩ := locate_ok_iff.mp located
  rw [names] at followed
  obtain ⟨dir, hdir, rfl⟩ := follow_concat followed
  refine ⟨dir, hdir, ?_⟩
  rw [Path.stepInto, if_neg down]
  simp

/-- If the paths of files of a run lead somewhere and not to directories, one directory takes all of
these files. -/
theorem takes_of_located {titles : List Text} (among : titles ⊆ Run.fileNames.map Text.ofString)
    (each : ∀ n ∈ titles, ∃ place, t.locate (out.join n) = .ok place ∧
      t.get? place ≠ some .directory) :
    ∃ dir, t.Takes out dir titles := by
  cases titles with
  | nil => exact ⟨[], ⟨nofun, nofun⟩⟩
  | cons first rest =>
      obtain ⟨place, located, -⟩ := each first List.mem_cons_self
      obtain ⟨dir, hdir, -⟩ := locate_file (among List.mem_cons_self) located
      have same : ∀ n ∈ first :: rest, t.locate (out.join n) = .ok (dir ++ [n]) ∧
          t.get? (dir ++ [n]) ≠ some .directory := by
        intro n hn
        obtain ⟨place, located, free⟩ := each n hn
        obtain ⟨other, hother, rfl⟩ := locate_file (among hn) located
        rw [hdir] at hother
        cases hother
        exact ⟨located, free⟩
      exact ⟨dir, ⟨fun n hn => (same n hn).1, fun n hn => (same n hn).2⟩⟩

/-- The files of a run lie in one directory. -/
theorem Writable.takes (writable : t.Writable out) :
    ∃ dir, t.Takes out dir (Run.fileNames.map Text.ofString) := by
  refine takes_of_located (List.Subset.refl _) fun n hn => ?_
  obtain ⟨name, hname, rfl⟩ := List.mem_map.mp hn
  exact writable name hname

end Tree

/-! ### Files that are all written -/

namespace Run

open Annealing.Tree

/-- **Files of a run that are all written are whole, and are there afterwards.** -/
theorem publish_there {out : Path} {files : List Artifact} {t t' : Tree}
    (apart : (files.map Artifact.title).Nodup)
    (among : files.map Artifact.title ⊆ fileNames.map Text.ofString)
    (ends : publish storage out files t = .ok () t') {a : Artifact} (ha : a ∈ files) :
    a.fault = none ∧ ∃ place, t'.locate (out.join a.title) = .ok place ∧
    t'.get? place = some (.file a.content) := by
  have each : ∀ n ∈ files.map Artifact.title, ∃ place,
      t.locate (out.join n) = .ok place ∧ t.get? place ≠ some .directory := by
    intro n hn
    obtain ⟨b, hb, rfl⟩ := List.mem_map.mp hn
    exact publish_located ends b hb
  obtain ⟨dir, takes⟩ := takes_of_located among each
  rcases publish_ends takes apart with ⟨t₁, ends₁, whole, filed⟩
    | ⟨before, b, after, f, t₁, ends₁, -⟩
  · rw [ends] at ends₁
    cases ends₁
    have located := takes.located _ (List.mem_map_of_mem ha)
    exact ⟨whole a ha, _, locate_of_keepsDirectories (filed.keepsDirectories takes) located,
      filed.contents a ha⟩
  · rw [ends] at ends₁
    cases ends₁

end Run

end Annealing
