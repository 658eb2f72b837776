import ShadowCheck.Proofs.Path.Names

/-!
Files under new names. A suffix stands in front of the extension and nothing else about a
path changes: the file stays in its directory, it keeps its extension, and no two files
get one name, however their paths are spelled. All of it is said of names as they are shown,
and so of the names themselves where these are texts.
-/

namespace ShadowCheck

namespace Path

/-- What follows the last dot of the file name, unless that dot begins the name. -/
def extension? (path : Path) : Option Bytes :=
  path.fileName?.bind fun name => (splitExtension name).2

theorem splitExtension_suffixed {suffix : String} {name extension : Bytes}
    (split : (splitExtension name).2 = some extension) :
    (splitExtension (suffixed suffix name)).2 = some (bytesOf extension.shown) := by
  cases splits name with
  | whole _ parts =>
      rw [parts] at split
      cases split
  | @dotted stem ending spelled nonempty bare parts =>
      rw [parts] at split
      cases split
      have text : (suffixed suffix name).toList = _ := toList_suffixed_dotted parts
      have renamed : bytesOf (suffixed suffix name).toList =
          bytesOf (stem.shown ++ '.' :: suffix.toList) ++ dot :: bytesOf extension.shown := by
        rw [text, Bytes.bytesOf_append, Bytes.isMark_dot.bytesOf_cons]
      have shownBare : dot ∉ bytesOf extension.shown :=
        mt Bytes.isMark_dot.mem_bytesOf_iff.mp (mt Bytes.isMark_dot.mem_shown_iff.mp bare)
      cases splits (suffixed suffix name) with
      | dotted otherSpelled _ otherBare otherParts =>
          rw [renamed] at otherSpelled
          obtain ⟨-, endings⟩ := eq_of_last_mark shownBare otherBare otherSpelled
          rw [otherParts, endings]
      | whole leading _ =>
          have front := leading renamed
          have short := Bytes.length_le_bytesOf (stem.shown ++ '.' :: suffix.toList)
          rw [front] at short
          simp at short

/-- The extension of a text is one. -/
theorem isText_of_splitExtension {name extension : Bytes} (isText : name.IsText)
    (split : (splitExtension name).2 = some extension) : extension.IsText := by
  cases splits name with
  | whole _ parts =>
      rw [parts] at split
      cases split
  | dotted spelled _ _ parts =>
      rw [parts] at split
      cases split
      rw [spelled, Bytes.isMark_dot.isText_append_iff] at isText
      exact isText.2

section

variable {path : Path} {name : Bytes} {suffix : String} (named : path.fileName? = some name)
  (whole : '/' ∉ suffix.toList)

include named whole

theorem fileName?_withSuffix :
    (path.withSuffix suffix).fileName? = some (bytesOf (suffixed suffix name).toList) :=
  fileName?_of_components (components_withSuffix named whole)

/-- A renamed file stays in its directory. -/
theorem exists_parent?_withSuffix :
    ∃ directory renamed, path.parent? = some directory ∧
      (path.withSuffix suffix).parent? = some renamed ∧ renamed.Same directory := by
  obtain ⟨directory, found⟩ := exists_parent? named
  obtain ⟨renamed, renamedFound⟩ := exists_parent? (fileName?_withSuffix named whole)
  refine ⟨directory, renamed, found, renamedFound, ?_⟩
  rw [Same, components_of_parent? found, components_of_parent? renamedFound,
    components_withSuffix named whole, List.dropLast_concat]

theorem extension?_withSuffix {extension : Bytes} (ends : path.extension? = some extension) :
    (path.withSuffix suffix).extension? = some (bytesOf extension.shown) := by
  rw [extension?, named, Option.bind_some] at ends
  rw [extension?, fileName?_withSuffix named whole, Option.bind_some]
  exact splitExtension_suffixed ends

end

/-- Two names that are no texts are one under a suffix. -/
example :
    ¬ (⟨0xFF :: bytesOf ".ts".toList⟩ : Path).Same ⟨0xFE :: bytesOf ".ts".toList⟩ ∧
      (⟨0xFF :: bytesOf ".ts".toList⟩ : Path).withSuffix "x" = ⟨"\uFFFD.x.ts"⟩ ∧
      (⟨0xFE :: bytesOf ".ts".toList⟩ : Path).withSuffix "x" = ⟨"\uFFFD.x.ts"⟩ := by
  decide +kernel

end Path

end ShadowCheck
