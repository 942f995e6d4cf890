import MeshLens.CommandLine.Command

/-!
# Help

What is printed when help is asked for: how a command is called, what it does and what its options
are, laid out in lines of at most 78 characters.
-/

namespace MeshLens.CommandLine

/-- The name that the program is called by in its help. -/
def programName : Text := "cli"

/-- The option that asks for help. -/
def helpOption : Text := "--help"

/-- A page of help: what stands behind the name, what is done, and the tables below. -/
def helpPage (form purpose : Text) (tables : List Text) : List Text :=
  ["Usage: " ++ programName ++ " " ++ form, "", "  " ++ purpose, ""] ++ tables

/-- The help on the program. -/
def programHelp : List Text :=
  helpPage "[OPTIONS] COMMAND [ARGS]..." "GraphFind: find and hide elements of a service graph." [
    "Options:",
    "  --config FILE    Path to YAML config file (merged over the defaults).",
    "                   [default: config/default.yml]",
    "  --defaults FILE  Path to the default YAML config.  [default:",
    "                   config/default.yml]",
    "  --help           Show this message and exit.",
    "",
    "Commands:",
    "  compile   Compile EXPRESSION and print the selector of each clause.",
    "  complete  Complete the last operand of PARTIAL.",
    "  find      Mark elements of a graph snapshot matching EXPRESSION.",
    "  hide      Hide elements of a graph snapshot matching EXPRESSION.",
    "  options   List preset find (or hide) expressions."]

/-- The help on a command. -/
def CommandName.help : CommandName → List Text
  | compile =>
    helpPage "compile [OPTIONS] EXPRESSION"
      "Compile EXPRESSION and print the selector of each clause." [
      "Options:",
      "  --hide  Compile as a hide expression.",
      "  --help  Show this message and exit."]
  | find =>
    helpPage "find [OPTIONS] EXPRESSION"
      "Mark elements of a graph snapshot matching EXPRESSION." [
      "Options:",
      "  --graph FILE  Cytoscape JSON graph snapshot [default: graph.path from",
      "                config].",
      "  --url TEXT    Page URL whose graphFind/graphHide parameters are read and",
      "                updated.",
      "  --help        Show this message and exit."]
  | hide =>
    helpPage "hide [OPTIONS] EXPRESSION"
      "Hide elements of a graph snapshot matching EXPRESSION." [
      "Options:",
      "  --graph FILE                Cytoscape JSON graph snapshot [default:",
      "                              graph.path from config].",
      "  --url TEXT                  Page URL whose graphFind/graphHide parameters",
      "                              are read and updated.",
      "  --compress / --no-compress  Remove hidden elements instead of hiding them.",
      "  --help                      Show this message and exit."]
  | complete =>
    helpPage "complete [OPTIONS] PARTIAL" "Complete the last operand of PARTIAL." [
      "Options:",
      "  --count INTEGER RANGE  Completions to cycle.  [default: 1; x>=1]",
      "  --help                 Show this message and exit."]
  | options =>
    helpPage "options [OPTIONS]" "List preset find (or hide) expressions." [
      "Options:",
      "  --hide  List hide presets.",
      "  --help  Show this message and exit."]

end MeshLens.CommandLine
