import RecordingDelivery.CommandLine.Arguments

/-!
The two pages that the command line shows instead of a run: its options, each with the variable that
can stand for it, and its version. They are made for a terminal.
-/
namespace RecordingDelivery.CommandLine

def program : String := "upload-spool"

def versionPage : String := program ++ " 0.1.0\n"

structure OptionLine where
  indent : Nat
  name : String
  placeholder : String := ""
  description : String

def optionLine (env : Environment) (o : ValueOption) (description : String) : OptionLine :=
  { indent := 6
    name := "--" ++ o.long
    placeholder := " " ++ o.placeholder
    description := description ++ " [env: " ++ o.environmentName ++ "=" ++
      Utf8.lossy ((env.lookup o.environmentName).getD []) ++ "]" }

def optionLines (env : Environment) : List OptionLine :=
  [optionLine env .config "Path to the TOML file describing devices, mixers and outputs",
   optionLine env .statusAddress "Address to serve \x60/health\x60 and \x60/status\x60 on",
   { indent := 6, name := "--no-scan",
     description := "Skip the startup scan for undelivered recordings" },
   { indent := 2, name := "-h, --help", description := "Print help" },
   { indent := 2, name := "-V, --version", description := "Print version" }]

def descriptionColumn : Nat := 35

def blanks (count : Nat) : String := String.ofList (List.replicate count ' ')

/-- A description of several lines stays in its column. -/
def inColumn (description : String) : String :=
  String.ofList (description.toList.flatMap fun c =>
    if c = '\n' then c :: (blanks descriptionColumn).toList else [c])

def OptionLine.render (l : OptionLine) : String :=
  blanks l.indent ++ Terminal.bold l.name ++ l.placeholder ++
    blanks (descriptionColumn - l.indent - l.name.length - l.placeholder.length) ++
    inColumn l.description ++ "\n"

def helpPage (env : Environment) : String :=
  "Deliver recorded files to their configured HTTP endpoints\n\n" ++
    Terminal.heading "Usage:" ++ " " ++ Terminal.bold program ++ " [OPTIONS] " ++
    Terminal.bold ("--" ++ ValueOption.config.long) ++ " " ++ ValueOption.config.placeholder ++
    "\n\n" ++ Terminal.heading "Options:" ++ "\n" ++
    String.join ((optionLines env).map (·.render))

end RecordingDelivery.CommandLine
