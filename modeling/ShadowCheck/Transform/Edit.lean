import ShadowCheck.Transform.Chain

/-! Ready-made transformers. -/

namespace ShadowCheck

open Script

inductive Edit
  | keep
  | renameWithSuffix (suffix : String)
  | renameTo (file : Path)
  | dropNamed (part : String)
  | copy (suffix nameSuffix : String)
  | duplicate
  | report (severity : Severity) (word : String)
  | setType (name : String) (type? : Option Name)
  | setInitializer (name : String) (initializer? : Option Value)
  | renameDeclaration (name newName : String)
  | append (declaration : Declaration)
  | reverse

namespace Edit

def occursIn (part text : List Char) : Bool :=
  match text with
  | [] => part.isEmpty
  | c :: rest => part.isPrefixOf (c :: rest) || occursIn part rest

def mapDeclarations (script : Script) (change : Declaration → Declaration) : Script :=
  { script with declarations := script.declarations.map change }

def mapNamed (script : Script) (name : String) (change : Declaration → Declaration) : Script :=
  mapDeclarations script fun declaration =>
    if declaration.name.text = name then change declaration else declaration

def mapName (change : String → String) (declaration : Declaration) : Declaration :=
  { declaration with name := { declaration.name with text := change declaration.name.text } }

def flagText (flag : Bool) : String :=
  if flag then "true" else "false"

def reportOn (context : TransformContext) (severity : Severity) (word : String) : Diagnostic :=
  ⟨.file context.file, severity, 9000,
    word ++ " " ++ context.file.text ++ " " ++ context.options.target.text ++ " " ++
      flagText context.options.allowJs ++ " " ++ toString context.reported.length⟩

def transformer (edit : Edit) : Transformer := fun context script =>
  match edit with
  | keep => ⟨[script], []⟩
  | renameWithSuffix suffix => ⟨[{ script with file := script.file.withSuffix suffix }], []⟩
  | renameTo file => ⟨[{ script with file }], []⟩
  | dropNamed part =>
      ⟨if occursIn part.toList script.file.text.toList then [] else [script], []⟩
  | copy suffix nameSuffix =>
      let renamed := { script with file := script.file.withSuffix suffix }
      ⟨[script, mapDeclarations renamed (mapName (· ++ nameSuffix))], []⟩
  | duplicate => ⟨[script, script], []⟩
  | report severity word => ⟨[script], [reportOn context severity word]⟩
  | setType name type? =>
      ⟨[mapNamed script name fun declaration => { declaration with type? }], []⟩
  | setInitializer name initializer? =>
      ⟨[mapNamed script name fun declaration => { declaration with initializer? }], []⟩
  | renameDeclaration name newName => ⟨[mapNamed script name (mapName fun _ => newName)], []⟩
  | append declaration =>
      ⟨[{ script with declarations := script.declarations ++ [declaration] }], []⟩
  | reverse => ⟨[{ script with declarations := script.declarations.reverse }], []⟩

end Edit

end ShadowCheck
