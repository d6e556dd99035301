import TransferLoad.Command.Options

/-!
# Help

What the program says about itself. Options are listed with their descriptions in a column of their own
or, where the names leave the descriptions too little room, on lines of their own.
-/

namespace TransferLoad.Command

def programName : String := "ippan-stress-test"

def versionText : String := programName ++ " 0.1.0\n"

def purpose : String := "IPPAN multi-address sustained TPS stress test"

/-- Columns of a line. -/
def lineWidth : Nat := 100

def filled (width : Nat) (text : String) : String :=
  text ++ String.ofList (List.replicate (width - text.length) ' ')

/-- What is listed in one row: how it is written and what it does. -/
structure HelpRow where
  short : String := "    "
  long : String
  text : String
  deriving Repr, DecidableEq

def placeholder (name : String) : String :=
  String.ofList (name.toList.map fun c => if c = '-' then '_' else c.toUpper)

def OptionSpec.remarks (spec : OptionSpec) (environment : Given) : List String :=
  let fallback := match spec.fallback with
    | some f =>
      let shown := if f.secret then "" else "=" ++ (environment.lookup f.variableName).getD ""
      ["[env: " ++ f.variableName ++ shown ++ "]"]
    | none => []
  let default := match spec.default with
    | some value => ["[default: " ++ value ++ "]"]
    | none => []
  let choices := match spec.kind with
    | some (.choice words) => ["[possible values: " ++ ", ".intercalate words ++ "]"]
    | _ => []
  fallback ++ default ++ choices

def OptionSpec.row (spec : OptionSpec) (environment : Given) : HelpRow where
  long := "--" ++ spec.name ++ (if spec.kind.isSome then " <" ++ placeholder spec.name ++ ">" else "")
  text := " ".intercalate ((if spec.description.isEmpty then [] else [spec.description]) ++ spec.remarks environment)

def helpRow : HelpRow := { short := "-h, ", long := "--help", text := "Print help" }

def versionRow : HelpRow := { short := "-V, ", long := "--version", text := "Print version" }

def widest (texts : List String) : Nat := texts.foldl (fun width text => max width text.length) 0

/-- A description does not fit beside the names, which take more than two fifths of a line. -/
def needsOwnLines (width : Nat) (rows : List HelpRow) : Bool :=
  let taken := width + 12
  taken ≤ lineWidth && 2 * lineWidth < 5 * taken && rows.any fun row => lineWidth - taken < row.text.length

def renderRows (rows : List HelpRow) : String :=
  let width := widest (rows.map (·.long))
  let ownLines := needsOwnLines width rows
  String.join (rows.map fun row =>
    let text := if ownLines then row.long ++ "\n          " ++ row.text else filled (width + 2) row.long ++ row.text
    "  " ++ row.short ++ text ++ "\n")

def generalHelp : String :=
  let commands := (Subcommand.all.map fun command => (command.render, command.description)) ++
    [("help", "Print this message or the help of the given subcommand(s)")]
  let width := widest (commands.map Prod.fst)
  purpose ++ "\n\nUsage: " ++ programName ++ " <COMMAND>\n\nCommands:\n" ++
    String.join (commands.map fun (name, description) => "  " ++ filled (width + 2) name ++ description ++ "\n") ++
    "\nOptions:\n" ++ renderRows [helpRow, versionRow]

def Subcommand.help (command : Subcommand) (environment : Given) : String :=
  command.description ++ "\n\nUsage: " ++ programName ++ " " ++ command.render ++ " [OPTIONS]\n\nOptions:\n" ++
    renderRows (command.options.map (·.row environment) ++ [helpRow])

end TransferLoad.Command
