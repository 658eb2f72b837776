import ShadowCheck.Proofs.Path.Folders
import ShadowCheck.Proofs.Project.Files
import ShadowCheck.Store.Memory

/-!
Which files a project has, and how often. What is listed is added once and only where it is
not named, but what is named is taken as it stands: no file is there twice exactly when no
two of the names lead to one place.
-/

namespace ShadowCheck

namespace Project

theorem pairwise_addListed_iff (files listed : List Path) :
    (addListed files listed).Pairwise (fun left right => ¬ left.Same right) ↔
      files.Pairwise fun left right => ¬ left.Same right := by
  rw [addListed_eq, List.pairwise_append]
  constructor
  · exact fun all => all.1
  · intro named
    refine ⟨named, (Path.pairwise_distinct listed).sublist List.filter_sublist, ?_⟩
    intro file inside path added same
    have fresh := (List.mem_filter.mp added).2
    rw [isAmong_iff.mpr ⟨file, inside, same⟩] at fresh
    cases fresh

/-- What is listed for a document; nothing where it only names its files. -/
def Document.listed (document : Document) (list : Path → Selection → List Path) : List Path :=
  match document.settings.patterns? with
  | none => []
  | some patterns => list document.root (document.settings.selection patterns)

theorem filesWith_eq (list : Path → Selection → List Path) (document : Document) :
    filesWith list document.root document.settings =
      addListed document.namedFiles (document.listed list) := by
  unfold filesWith Document.listed
  cases document.settings.patterns? <;> rfl

theorem isAbsolute_rootOf {path : Path} (absolute : path.isAbsolute) :
    (Document.rootOf path).isAbsolute := by
  unfold Document.rootOf
  cases found : path.parent? with
  | none => decide
  | some parent =>
      obtain ⟨rest, text⟩ := (Path.isAbsolute_iff path).mp absolute
      obtain ⟨kept, spelled, -⟩ := Path.exists_of_parent? text found
      exact (Path.isAbsolute_iff parent).mpr ⟨_, spelled⟩

/-- Named files are different exactly when their names lead to different places. -/
theorem pairwise_namedFiles_iff {document : Document} (absolute : document.path.isAbsolute) :
    document.namedFiles.Pairwise (fun left right => ¬ left.Same right) ↔
      (document.settings.files.getD []).Pairwise fun left right : String =>
        Path.walk ⟨left⟩ document.root.folder ≠ Path.walk ⟨right⟩ document.root.folder := by
  have places := fun left right : String =>
    Path.resolve_same_resolve_iff_walk (isAbsolute_rootOf absolute) ⟨left⟩ ⟨right⟩
  rw [Document.namedFiles, Settings.namedFiles, List.pairwise_map]
  simp only [Document.root, places, ne_eq]

section

variable {σ : Type} (store : FileSystem (StateM σ)) (state : σ)

/-- The files of a project are its named files, as they stand, and then what is listed, each
once and unless it is named. They are all different exactly when no two names lead from the
root to one place. -/
theorem files_interpret {document : Document} (absolute : document.path.isAbsolute)
    (object : document.value.fields?.isSome) :
    let named := (document.settings.files.getD []).map fun name : String =>
      document.root.resolve ⟨name⟩
    let listed := document.listed (listingsAt store state)
    let files := (perform state (interpret store document)).1.files
    files = named ++ (Path.distinct listed).filter (fun path => !isAmong named path) ∧
    (files.Pairwise (fun left right => ¬ left.Same right) ↔
      (document.settings.files.getD []).Pairwise fun left right : String =>
        Path.walk ⟨left⟩ document.root.folder ≠ Path.walk ⟨right⟩ document.root.folder) := by
  intro named listed files
  have found : files = addListed document.namedFiles listed := by
    rw [← filesWith_eq, ← files_interpretWith _ object, ← fst_perform_interpret]
  rw [found]
  refine ⟨addListed_eq _ _, ?_⟩
  rw [pairwise_addListed_iff, pairwise_namedFiles_iff absolute]

end

/-! Names that lead to one place, and names that do not. -/

def namingMemory : Memory :=
  Memory.ofEntries ⟨"/root"⟩ [⟨⟨"/root/a.ts"⟩, "let a = 1"⟩, ⟨⟨"/root/b.ts"⟩, ""⟩]

def naming (files : List String) (more : List (String × Json.Value)) : Document :=
  ⟨⟨"/root/tsconfig.json"⟩, .object (("files", .array (files.map .string)) :: more)⟩

/-- A file that is named by a detour is not listed once more. -/
theorem files_interpret_detour :
    let document := naming ["x/../b.ts", "c.ts"] [("include", .string "*")]
    document.path.isAbsolute ∧ document.value.fields?.isSome ∧
    (perform namingMemory (interpret Memory.fileSystem document)).1.files.Pairwise
      fun left right => ¬ left.Same right := by
  intro document
  have absolute : document.path.isAbsolute := by decide
  obtain ⟨-, apart⟩ := files_interpret Memory.fileSystem namingMemory absolute rfl
  exact ⟨absolute, rfl, apart.mpr (by decide +kernel)⟩

/-- A file that is named twice is there twice. -/
theorem not_pairwise_files_respelled :
    ¬ (perform namingMemory
      (interpret Memory.fileSystem (naming ["a.ts", "./a.ts"] []))).1.files.Pairwise
        fun left right => ¬ left.Same right := by
  decide +kernel

end Project

end ShadowCheck
