/-!
# The settings template

The settings file that is written for a new project. It spells out the
built-in settings.
-/

set_option autoImplicit false

namespace DocLint

def templateLines : List String := [
  "# docguard configuration",
  "#",
  "# Every section is optional. Anything left out falls back to the built-in",
  "# default shown here.",
  "",
  "version: \"1\"",
  "",
  "# File extensions that are linted",
  "extensions: [ts, tsx, js, jsx]",
  "",
  "# Paths that are never linted",
  "excluded_paths:",
  "  - \"**/node_modules/**\"",
  "  - \"**/*.d.ts\"",
  "",
  "# Tags each declaration kind must carry in its /** ... */ block.",
  "# optional_tags are listed for reference and never enforced.",
  "rules:",
  "  class:",
  "    required_tags: [\"@description\"]",
  "    optional_tags: [\"@example\", \"@remarks\", \"@deprecated\"]",
  "  # Constructors are never required to carry @returns",
  "  function:",
  "    required_tags: [\"@param\", \"@returns\"]",
  "    optional_tags: [\"@example\", \"@throws\", \"@remarks\", \"@deprecated\"]",
  "  property:",
  "    required_tags: [\"@description\"]",
  "    optional_tags: [\"@defaultValue\", \"@remarks\", \"@deprecated\"]",
  "",
  "# Signature checks for functions",
  "checks:",
  "  # Every parameter must be named by an @param tag",
  "  param_coverage: true",
  "  # Functions with a non-void return type need @returns",
  "  return_tag: true",
  "",
  "# Documentation must be written in English. A block containing at least",
  "# `threshold` distinct words from `stop_words` is reported.",
  "language:",
  "  enforce_english: true",
  "  threshold: 2",
  "  stop_words: [",
  "    el, la, los, las, una, unos, unas, del, al,",
  "    para, por, con, desde, entre, hacia, hasta, según, sobre,",
  "    que, porque, como, cuando, pero, aunque, mientras, también, donde,",
  "    es, está, están, tiene, tienen, hace, hacen, puede, pueden, debe,",
  "    deben, contiene, establece, devuelve, retorna, obtiene, calcula, muestra,",
  "    ejecuta, procesa, valida, comprueba, asigna, guarda, utiliza, permite,",
  "    recibe,",
  "    función, archivo, línea, código, método, clase, interfaz, objeto,",
  "    valor, parámetro, constante, arreglo, matriz, cadena, número, booleano,",
  "    estructura, módulo, componente, evento, propiedad, usuario, mensaje,",
  "    lista, datos,",
  "    este, esta, estos, estas, esto, aquí, ese, esa, eso, ejemplo,",
  "    implementa, inicializa, configuración, validación, documentación",
  "  ]",
  "",
  "# How changed lines are found",
  "diff:",
  "  remote: origin",
  "  # Tried in order when the current branch has no remote counterpart",
  "  base_branches: [main, master, develop]",
  "  # Context lines passed to git diff -U<n>",
  "  unified: 0",
  "  # Extra lines around each hunk treated as changed",
  "  context_lines: 0",
  "  include_staged: true",
  "  include_unstaged: true"]

def settingsTemplate : String := String.join (templateLines.map (· ++ "\n"))

end DocLint
