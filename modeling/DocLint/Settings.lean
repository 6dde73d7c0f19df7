import DocLint.Declaration

/-!
# Settings

The tag policy for each kind of declaration, the checks on signatures and on
language, and how changes are collected. The default value of each field is
the built-in setting.
-/

set_option autoImplicit false

namespace DocLint

/-- The tags of one kind of declaration. Optional tags are for information only. -/
structure TagPolicy where
  requiredTags : List String := []
  optionalTags : List String := []
  deriving DecidableEq, Repr

def TagPolicy.requires (p : TagPolicy) (tag : String) : Bool := p.requiredTags.contains tag

structure TagPolicies where
  classLike : TagPolicy :=
    ⟨["@description"], ["@example", "@remarks", "@deprecated"]⟩
  function : TagPolicy :=
    ⟨["@param", "@returns"], ["@example", "@throws", "@remarks", "@deprecated"]⟩
  property : TagPolicy :=
    ⟨["@description"], ["@defaultValue", "@remarks", "@deprecated"]⟩
  deriving DecidableEq, Repr

def TagPolicies.ofKind (p : TagPolicies) : DeclarationKind → TagPolicy
  | .classLike => p.classLike
  | .function => p.function
  | .property => p.property

/-- Checks of a documentation block against the signature of its function. -/
structure SignatureChecks where
  paramCoverage : Bool := true
  returnTag : Bool := true
  deriving DecidableEq, Repr

/-- Spanish stop words. Single letters and words that are common in English prose too are left
out. -/
def defaultStopWords : List String := [
  "el", "la", "los", "las", "una", "unos", "unas", "del", "al",
  "para", "por", "con", "desde", "entre", "hacia", "hasta", "según", "sobre",
  "que", "porque", "como", "cuando", "pero", "aunque", "mientras", "también", "donde",
  "es", "está", "están", "tiene", "tienen", "hace", "hacen", "puede", "pueden", "debe",
  "deben", "contiene", "establece", "devuelve", "retorna", "obtiene", "calcula", "muestra",
  "ejecuta", "procesa", "valida", "comprueba", "asigna", "guarda", "utiliza", "permite",
  "recibe",
  "función", "archivo", "línea", "código", "método", "clase", "interfaz", "objeto",
  "valor", "parámetro", "constante", "arreglo", "matriz", "cadena", "número", "booleano",
  "estructura", "módulo", "componente", "evento", "propiedad", "usuario", "mensaje",
  "lista", "datos",
  "este", "esta", "estos", "estas", "esto", "aquí", "ese", "esa", "eso", "ejemplo",
  "implementa", "inicializa", "configuración", "validación", "documentación"]

/-- The check that documentation is written in English. -/
structure LanguageSettings where
  enforceEnglish : Bool := true
  threshold : Nat := 2
  stopWords : List String := defaultStopWords
  deriving DecidableEq, Repr

structure DiffSettings where
  remote : String := "origin"
  baseBranches : List String := ["main", "master", "develop"]
  unified : Nat := 0
  contextLines : Nat := 0
  includeStaged : Bool := true
  includeUnstaged : Bool := true
  deriving DecidableEq, Repr

structure Settings where
  version : String := "1"
  extensions : List String := ["ts", "tsx", "js", "jsx"]
  excludedPaths : List String := ["**/node_modules/**", "**/*.d.ts"]
  rules : TagPolicies := {}
  checks : SignatureChecks := {}
  language : LanguageSettings := {}
  diff : DiffSettings := {}
  deriving DecidableEq, Repr

end DocLint
