import ShadowCheck.Diagnostic.Display
import ShadowCheck.Proofs.Path.Shown

/-!
The names that lines of text show for files. Resolved against the directory of the display,
a shown name leads back to its file if the file goes by names that are texts. So files at
different places are told apart, if their paths are texts.
-/

namespace ShadowCheck

namespace Path

/-- The path of a file below a directory is resolved to the file. -/
theorem resolve_of_relativeTo? {directory file below : Path} (absolute : directory.isAbsolute)
    (seen : relativeTo? directory file = some below) :
    directory.resolve below = file.normalize := by
  obtain ⟨rest, whole, rfl⟩ := relativeTo?_eq_some_iff.mp seen
  have names := names_of_normalComponents_append absolute whole
  have proper : ∀ name ∈ rest, name.Proper := fun name found => (names name found).2
  have joined : (directory.join (ofComponents rest)).normalComponents = file.normalComponents := by
    rw [normalComponents, components_join_ofComponents absolute proper, List.foldl_append,
      foldl_follow_names fun name found => (names name found).1, List.reverse_append,
      List.reverse_reverse, whole, normalComponents]
  rw [resolve, isAbsolute_ofComponents proper, if_neg Bool.false_ne_true]
  exact (normalize_eq_iff_normalComponents _ _).mpr joined

end Path

namespace Display

variable (display : Display)

section

variable (absolute : display.directory.isAbsolute) {file : Path} (fileAbsolute : file.isAbsolute)

include absolute fileAbsolute

theorem resolve_pathFor : display.directory.resolve (display.pathFor file) = file.normalize := by
  have itself : display.directory.resolve file = file.normalize := by
    rw [Path.resolve, if_pos fileAbsolute]
  unfold pathFor
  split
  · rename_i below seen
    split
    · exact itself
    · exact Path.resolve_of_relativeTo? absolute seen
  · exact itself

/-- A shown name leads back just when the names that the file goes by are texts. -/
theorem resolve_fileName_iff :
    display.directory.resolve ⟨display.fileName file⟩ = file.normalize ↔
      ∀ component ∈ (display.pathFor file).normalComponents, component.bytes.IsText := by
  rw [← display.resolve_pathFor absolute fileAbsolute]
  exact Path.resolve_shown_eq_iff absolute (display.pathFor file)

omit fileAbsolute in
/-- A file goes by nothing that is not in its own path. -/
theorem mem_of_mem_normalComponents_pathFor {component : Component}
    (found : component ∈ (display.pathFor file).normalComponents) :
    component ∈ file.normalComponents := by
  unfold pathFor at found
  split at found
  · rename_i below seen
    split at found
    · exact found
    · obtain ⟨rest, whole, rfl⟩ := Path.relativeTo?_eq_some_iff.mp seen
      have names := Path.names_of_normalComponents_append absolute whole
      have inside := Path.mem_components_of_mem_normalComponents found
      rw [Path.components_ofComponents fun name here => (names name here).2] at inside
      rw [whole]
      exact List.mem_append_right _ inside
  · exact found

theorem resolve_fileName (isText : file.bytes.IsText) :
    display.directory.resolve ⟨display.fileName file⟩ = file.normalize :=
  (display.resolve_fileName_iff absolute fileAbsolute).mpr fun _ found =>
    Path.isText_of_mem_normalComponents isText
      (display.mem_of_mem_normalComponents_pathFor absolute found)

end

theorem exists_location_eq_fileName_append {place : Location} {file : Path}
    (located : place.file? = some file) :
    ∃ rest, display.location place = display.fileName file ++ rest := by
  cases place with
  | project => cases located
  | file path =>
      cases located
      exact ⟨": ", rfl⟩
  | spot path position =>
      cases located
      refine ⟨"(" ++ toString position.line ++ "," ++ toString position.column ++ "): ", ?_⟩
      simp only [location, String.append_assoc]

theorem exists_line_eq_fileName_append {diagnostic : Diagnostic} {file : Path}
    (located : diagnostic.location.file? = some file) :
    ∃ rest, display.line diagnostic = display.fileName file ++ rest := by
  obtain ⟨rest, found⟩ := display.exists_location_eq_fileName_append located
  refine ⟨rest ++ diagnostic.severity.text ++ " TS" ++ toString diagnostic.code ++ ": " ++
    diagnostic.message ++ display.newLine, ?_⟩
  simp only [line, found, String.append_assoc]

/-- Two files whose names are no texts are shown by one name. -/
example :
    let display : Display := ⟨⟨"/work"⟩, "\n"⟩
    (display.fileName ⟨bytesOf "/work/".toList ++ [0xFF]⟩ = "\uFFFD" ∧
      display.fileName ⟨bytesOf "/work/".toList ++ [0xFE]⟩ = "\uFFFD") := by
  decide +kernel

end Display

end ShadowCheck
