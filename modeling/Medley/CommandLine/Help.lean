import Medley.CommandLine.Arguments

/-!
# Help

What the program says about itself and about its verbs.
-/

namespace Medley.CommandLine

/-- Rows of two columns, the right ones starting at the same place. -/
def columns (rows : List (String × String)) : List String :=
  let width := rows.foldl (fun width row => max width row.1.length) 0
  rows.map fun (left, right) =>
    "  " ++ left.pushn ' ' (width - left.length) ++ "  " ++ right

/-- A heading with rows below it, if there are any. -/
def headed (heading : String) (rows : List (String × String)) : List String :=
  if rows.isEmpty then [] else ["", heading ++ ":"] ++ columns rows

/-- What there is to know about the options. -/
def optionRows : List (String × String) := [
  ("    --config <CONFIG>", "YAML configuration file"),
  ("    --storage <STORAGE>", "Storage directory, overrides the configuration"),
  ("    --all", "Include hidden names like `_active`"),
  ("-h, --help", "Print help")]

/-- What there is to know about the help. -/
def helpAbout : String := "Print this message or the help of the given subcommand(s)"

/-- What there is to know about parameters. -/
def parameterRows (parameters : List Parameter) : List (String × String) :=
  parameters.map fun parameter => (parameter.usage, parameter.about)

/-- The lines about a topic, where the program is called by a name. -/
def Topic.lines (program : String) : Topic → List String
  | .program =>
      ["Named media collections and playlists", "",
        "Usage: " ++ program ++ " [OPTIONS] <COMMAND>"] ++
      headed "Commands" ((Verb.all.map fun verb => (verb.name, verb.about)) ++
        [(helpWord, helpAbout)]) ++
      headed "Options" optionRows
  | .command verb =>
      [verb.about, "",
        " ".intercalate (["Usage:", program, verb.name, "[OPTIONS]"] ++
          verb.parameters.map Parameter.usage)] ++
      headed "Arguments" (parameterRows verb.parameters) ++
      headed "Options" optionRows
  | .help =>
      let words : Parameter := .rest "COMMAND" "Print help for the subcommand(s)"
      [helpAbout, "", "Usage: " ++ program ++ " " ++ helpWord ++ " " ++ words.usage] ++
      headed "Arguments" (parameterRows [words])

end Medley.CommandLine
