import ShadowCheck.Proofs.Store.Backed
import ShadowCheck.Proofs.Store.Overlay
import ShadowCheck.Recheck.Resolve

/-!
Projects under different listings. Where a store lists, in order and each once,
those files of a project that can be read, the same document describes the same
files there.
-/

namespace ShadowCheck.Project

/-! Adding what is listed. -/

theorem addListed_cons (files : List Path) (path : Path) (rest : List Path) :
    addListed files (path :: rest) =
      addListed (if files.any (·.Same path) then files else files ++ [path]) rest := rfl

/-- Whether a path is at the place of some file. -/
def isAmong (files : List Path) (path : Path) : Bool :=
  files.any (·.Same path)

theorem isAmong_iff {files : List Path} {path : Path} :
    isAmong files path ↔ ∃ file ∈ files, file.Same path := by
  simp [isAmong]

theorem isAmong_of_same {files : List Path} {path other : Path} (known : isAmong files path)
    (same : path.Same other) : isAmong files other := by
  obtain ⟨file, found, here⟩ := isAmong_iff.mp known
  exact isAmong_iff.mpr ⟨file, found, here.trans same⟩

theorem isAmong_append_singleton (files : List Path) (path other : Path) :
    isAmong (files ++ [path]) other = (isAmong files other || decide (path.Same other)) := by
  simp [isAmong]

/-- Listed files are added once each, in order, unless they are there. -/
theorem addListed_eq (files listed : List Path) :
    addListed files listed =
      files ++ (Path.distinct listed).filter fun path => !isAmong files path := by
  induction listed generalizing files with
  | nil => exact (List.append_nil files).symm
  | cons path rest ih =>
      rw [addListed_cons, Path.distinct, ← isAmong]
      by_cases known : isAmong files path
      · -- whatever is at the place of a known path is known too
        have implied : ∀ other ∈ Path.distinct rest,
            (!isAmong files other) = (!isAmong files other && decide (¬ path.Same other)) := by
          intro other _
          by_cases same : path.Same other
          · simp [isAmong_of_same known same]
          · simp [same]
        rw [if_pos known, ih, List.filter_cons_of_neg (by simp [known]), List.filter_filter,
          List.filter_congr implied]
      · have split : ∀ other ∈ Path.distinct rest,
            (!isAmong (files ++ [path]) other) =
              (!isAmong files other && decide (¬ path.Same other)) := by
          intro other _
          rw [isAmong_append_singleton, Bool.not_or, decide_not]
        rw [if_neg known, ih, List.filter_cons_of_pos (by simp [known]), List.filter_filter,
          List.filter_congr split, List.append_assoc]
        rfl

theorem addListed_append (files first second : List Path) :
    addListed files (first ++ second) = addListed (addListed files first) second :=
  List.foldl_append

theorem addListed_of_covered {files listed : List Path}
    (covered : ∀ path ∈ listed, ∃ file ∈ files, file.Same path) :
    addListed files listed = files := by
  have known : ∀ path ∈ Path.distinct listed, ¬ (!isAmong files path) = true := by
    intro path found
    simp [isAmong_iff.mpr (covered path (Path.mem_of_mem_distinct found))]
  rw [addListed_eq, List.filter_eq_nil_iff.mpr known, List.append_nil]

theorem addListed_of_apart {files listed : List Path}
    (apart : (files ++ listed).Pairwise fun left right => ¬ left.Same right) :
    addListed files listed = files ++ listed := by
  obtain ⟨-, listedApart, across⟩ := List.pairwise_append.mp apart
  have fresh : ∀ path ∈ listed, (!isAmong files path) = true := by
    intro path found
    rw [Bool.not_eq_true', Bool.eq_false_iff, ne_eq, isAmong_iff]
    rintro ⟨file, inside, same⟩
    exact across file inside path found same
  rw [addListed_eq, Path.distinct_eq_self listedApart, List.filter_eq_self.mpr fresh]

theorem exists_addListed (files listed : List Path) :
    ∃ added, added.Sublist listed ∧ addListed files listed = files ++ added :=
  ⟨_, List.filter_sublist.trans (Path.distinct_sublist listed), addListed_eq files listed⟩

/-! Files and interpretations under a listing. -/

/-- The files of a project where `list` gives the listings. -/
def filesWith (list : Path → Selection → List Path) (root : Path) (settings : Settings) :
    List Path :=
  match settings.patterns? with
  | none => settings.namedFiles root
  | some patterns =>
      addListed (settings.namedFiles root) (list root (settings.selection patterns))

def interpretWith (list : Path → Selection → List Path) (document : Document) :
    Interpretation :=
  match document.value.fields? with
  | none => ⟨[], .default, [.notAnObject document.path]⟩
  | some fields =>
      let (settings, issues) := Settings.ofFields fields
      let files := filesWith list document.root settings
      ⟨files, settings.options, issues ++ emptinessIssues document settings files issues⟩

section

variable {σ : Type} {store : FileSystem (StateM σ)} {state : σ}
  {list : Path → Selection → List Path}

theorem perform_projectFiles
    (lists : ∀ root selection, perform state (store.list root selection) =
      (list root selection, state)) (root : Path) (settings : Settings) :
    perform state (projectFiles store root settings) =
      (filesWith list root settings, state) := by
  unfold projectFiles filesWith
  cases settings.patterns? with
  | none => rfl
  | some patterns =>
      simp only [perform_bind, lists]
      rfl

theorem perform_interpret
    (lists : ∀ root selection, perform state (store.list root selection) =
      (list root selection, state)) (document : Document) :
    perform state (interpret store document) = (interpretWith list document, state) := by
  unfold interpret interpretWith
  cases document.value.fields? with
  | none => rfl
  | some fields =>
      simp only [perform_bind, perform_projectFiles lists]
      rfl

theorem perform_resolveDocument
    (lists : ∀ root selection, perform state (store.list root selection) =
      (list root selection, state)) (document : Document) :
    perform state (Recheck.resolveDocument store document) =
      (Recheck.projectOf document (interpretWith list document), state) := by
  unfold Recheck.resolveDocument
  rw [perform_bind, perform_interpret lists]
  rfl

end

theorem run_resolveDocument_fileSystem (memory : Memory) (document : Document) :
    memory.run (Recheck.resolveDocument Memory.fileSystem document) =
      (Recheck.projectOf document (interpretWith memory.list document), memory) :=
  perform_resolveDocument (Memory.run_list memory) document

section

variable {σ : Type} (store : FileSystem (StateM σ)) (state : σ)

/-- The listings that a store gives in a state. -/
def listingsAt (root : Path) (selection : Selection) : List Path :=
  (perform state (store.list root selection)).1

theorem fst_perform_projectFiles (root : Path) (settings : Settings) :
    (perform state (projectFiles store root settings)).1 =
      filesWith (listingsAt store state) root settings := by
  unfold projectFiles filesWith
  cases settings.patterns? <;> rfl

theorem fst_perform_interpret (document : Document) :
    (perform state (interpret store document)).1 =
      interpretWith (listingsAt store state) document := by
  unfold interpret interpretWith
  cases document.value.fields? with
  | none => rfl
  | some fields =>
      dsimp only
      rw [← fst_perform_projectFiles]
      rfl

theorem fst_perform_resolveDocument (document : Document) :
    (perform state (Recheck.resolveDocument store document)).1 =
      Recheck.projectOf document (interpretWith (listingsAt store state) document) := by
  rw [← fst_perform_interpret]
  rfl

end

/-! Two listings. -/

theorem exists_filesWith (list : Path → Selection → List Path) (root : Path)
    (settings : Settings) :
    ∃ added, filesWith list root settings = settings.namedFiles root ++ added ∧
      ∀ path ∈ added, ∃ selection, path ∈ list root selection := by
  unfold filesWith
  cases settings.patterns? with
  | none => exact ⟨[], (List.append_nil _).symm, nofun⟩
  | some patterns =>
      obtain ⟨added, sublist, found⟩ := exists_addListed (settings.namedFiles root)
        (list root (settings.selection patterns))
      exact ⟨added, found, fun path inside => ⟨_, sublist.subset inside⟩⟩

/-- Where the files that can be read are listed in order, there are the same
files, spelled as they are listed. -/
theorem forall₂_filesWith {like : Path → Path → Prop} (likeness : Path.Likeness like)
    {list : Path → Selection → List Path} {root : Path} {settings : Settings}
    {readable : Path → Bool}
    (listed : ∀ selection, ∀ path ∈ list root selection, readable path)
    (apart : (filesWith list root settings).Pairwise fun left right => ¬ left.Same right)
    {sources : List Path}
    (alike : List.Forall₂ like sources ((filesWith list root settings).filter readable)) :
    List.Forall₂ like (filesWith (fun _ _ => sources) root settings)
      (filesWith list root settings) := by
  have named : List.Forall₂ like (settings.namedFiles root) (settings.namedFiles root) :=
    List.forall₂_same.mpr fun path _ => likeness.refl path
  cases asked : settings.patterns? with
  | none =>
      simp only [filesWith, asked]
      exact named
  | some patterns =>
      obtain ⟨added, found, fromList⟩ := exists_filesWith list root settings
      have addedReadable : added.filter readable = added := by
        rw [List.filter_eq_self]
        intro path inside
        obtain ⟨selection, here⟩ := fromList path inside
        exact listed selection path here
      rw [found] at apart alike ⊢
      rw [List.filter_append, addedReadable] at alike
      -- the sources of named files come first, and are there already
      let count := ((settings.namedFiles root).filter readable).length
      have first : List.Forall₂ like (sources.take count) _ :=
        List.forall₂_take_append _ _ _ alike
      have second : List.Forall₂ like (sources.drop count) added :=
        List.forall₂_drop_append _ _ _ alike
      have covered : ∀ path ∈ sources.take count,
          ∃ file ∈ settings.namedFiles root, file.Same path := by
        intro path inside
        obtain ⟨file, here, same⟩ := Path.exists_of_mem_forall₂ first inside
        exact ⟨file, (List.mem_filter.mp here).1, (likeness.same same).symm⟩
      have whole := List.rel_append named second
      have listedAgain : filesWith (fun _ _ => sources) root settings =
          settings.namedFiles root ++ sources.drop count := by
        simp only [filesWith, asked]
        rw [← List.take_append_drop count sources, addListed_append, addListed_of_covered covered,
          List.take_append_drop]
        exact addListed_of_apart (Path.pairwise_of_forall₂ likeness whole apart)
      rw [listedAgain]
      exact whole

/-- What a document asks for; nothing when its value is no object. -/
def Document.settings (document : Document) : Settings :=
  (Settings.ofFields (document.value.fields?.getD [])).1

def Document.namedFiles (document : Document) : List Path :=
  document.settings.namedFiles document.root

theorem files_interpretWith (list : Path → Selection → List Path) {document : Document}
    (object : document.value.fields?.isSome) :
    (interpretWith list document).files = filesWith list document.root document.settings := by
  obtain ⟨fields, found⟩ := Option.isSome_iff_exists.mp object
  unfold interpretWith Document.settings
  rw [found]
  rfl

/-- The issue of a document for which there are no files. -/
def Document.noInputs (document : Document) : Issue :=
  .noInputs document.path (document.settings.patterns?.getD []) document.settings.excludes

/-- A project that was described under one listing is described under any other
one that leaves it files. -/
theorem projectOf_interpretWith {list : Path → Selection → List Path}
    {document : Document} {project : ShadowCheck.Project}
    (resolved : Recheck.projectOf document (interpretWith list document) = .ok project)
    (other : Path → Selection → List Path) :
    Recheck.projectOf document (interpretWith other document) =
      if filesWith other document.root document.settings = [] then
        .error (.configInvalid [document.noInputs.diagnostic])
      else .ok ⟨document.path, document.root, filesWith other document.root document.settings,
        document.settings.options⟩ := by
  unfold Recheck.projectOf interpretWith Document.noInputs Document.settings at *
  cases fields : document.value.fields? with
  | none => simp [fields] at resolved
  | some found =>
      cases read : Settings.ofFields found with
      | mk settings issues =>
          simp only [fields, read, List.isEmpty_iff, List.append_eq_nil_iff] at resolved
          split at resolved
          · rename_i quiet
            obtain ⟨noIssues, -⟩ := quiet
            simp only [read, noIssues, Option.getD_some, List.nil_append]
            by_cases files : filesWith other document.root settings = [] <;>
              simp [emptinessIssues, files]
          · cases resolved

section

variable {list : Path → Selection → List Path} {document : Document}
  {project : ShadowCheck.Project}

theorem filesWith_ne_nil_of_projectOf
    (resolved : Recheck.projectOf document (interpretWith list document) = .ok project) :
    filesWith list document.root document.settings ≠ [] := by
  intro empty
  rw [projectOf_interpretWith resolved list, if_pos empty] at resolved
  cases resolved

theorem exists_settings_of_projectOf
    (resolved : Recheck.projectOf document (interpretWith list document) = .ok project) :
    ∃ settings : Settings,
      filesWith list document.root settings ≠ [] ∧
      project = ⟨document.path, document.root, filesWith list document.root settings,
        settings.options⟩ ∧
      ∀ other : Path → Selection → List Path, filesWith other document.root settings ≠ [] →
        Recheck.projectOf document (interpretWith other document) =
          .ok { project with files := filesWith other document.root settings } := by
  have nonempty := filesWith_ne_nil_of_projectOf resolved
  have here := projectOf_interpretWith resolved list
  rw [resolved, if_neg nonempty] at here
  have described := Except.ok.inj here
  refine ⟨document.settings, nonempty, described, fun other files => ?_⟩
  rw [projectOf_interpretWith resolved other, if_neg files, described]

end

/-! Listings of which nothing may be left. -/

theorem addListed_eq_nil_iff {files listed : List Path} :
    addListed files listed = [] ↔ files = [] ∧ listed = [] := by
  rw [addListed_eq, List.append_eq_nil_iff]
  constructor
  · rintro ⟨rfl, none⟩
    cases listed with
    | nil => exact ⟨rfl, rfl⟩
    | cons path rest => cases none
  · rintro ⟨rfl, rfl⟩
    exact ⟨rfl, rfl⟩

/-- A project that had files has none where only `sources` are listed just when it
names no file and nothing is listed. -/
theorem filesWith_eq_nil_iff {list : Path → Selection → List Path} {root : Path}
    {settings : Settings} (nonempty : filesWith list root settings ≠ []) (sources : List Path) :
    filesWith (fun _ _ => sources) root settings = [] ↔
      settings.namedFiles root = [] ∧ sources = [] := by
  unfold filesWith at *
  cases asked : settings.patterns? with
  | none =>
      rw [asked] at nonempty
      exact ⟨fun empty => absurd empty nonempty, fun both => both.1⟩
  | some patterns => exact addListed_eq_nil_iff

end ShadowCheck.Project
