import AdmissionGate.CommandLine.Request
import AdmissionGate.Text.Indent
import AdmissionGate.Text.Plain

/-!
The text that explains the program and its commands. It is written for a terminal, with
the names of options in bold, and then made plain. Values of the environment are shown in
it as they are, but for what would steer a terminal; a sequence that a value leaves open
ends at the latest where the next option begins.
-/

namespace AdmissionGate.CommandLine

def helpColumn : Nat := 33

def environmentNote (name : String) (value : Option String) : String :=
  "[env: " ++ name ++ "=" ++ Indent.hang helpColumn (value.getD "") ++ "]"

def bold (text : String) : String := "\x1b[1m" ++ text ++ "\x1b[0m"

def longOptionTitle (name : String) : String := "      " ++ bold name

def optionTitle (short name : String) : String := "  " ++ bold short ++ ", " ++ bold name

def formatHelp (env : Environment) : String :=
  longOptionTitle "--log-format" ++ " <LOG_FORMAT>  Log output format " ++
    environmentNote "BASTION_LOG_FORMAT" env.logFormat ++
    " [default: text] [possible values: text, json]\n"

def configHelp (env : Environment) : String :=
  optionTitle "-c" "--config" ++ " <CONFIG>          Path to configuration file " ++
    environmentNote "BASTION_CONFIG" env.config ++ " [default: " ++ defaultConfig ++ "]\n"

def outputHelp : String :=
  optionTitle "-o" "--output" ++
    " <OUTPUT>          Output path for the configuration file [default: " ++ defaultOutput ++
    "]\n" ++
    longOptionTitle "--force" ++ "                    Overwrite an existing file\n"

def helpHelp : String := optionTitle "-h" "--help" ++ "                     Print help\n"

def helpTitle : String := "Print this message or the help of the given subcommand(s)"

def commandHelp (title name options : String) : String :=
  title ++ "\n\nUsage: bastion " ++ name ++ " [OPTIONS]\n\nOptions:\n" ++ options

def programHelp (env : Environment) : String :=
  "Connection-admission firewall for game servers\n\n" ++
    "Usage: bastion [OPTIONS] <COMMAND>\n\n" ++
    "Commands:\n" ++
    "  run           Run the proxy\n" ++
    "  init-config   Write a default configuration file\n" ++
    "  check-config  Validate a configuration file and print a summary\n" ++
    "  help          " ++ helpTitle ++ "\n\n" ++
    "Options:\n" ++ formatHelp env ++ helpHelp ++
    optionTitle "-V" "--version" ++ "                  Print version\n"

def styledHelp (env : Environment) : HelpTopic → String
  | .program => programHelp env
  | .help =>
      helpTitle ++ "\n\nUsage: bastion help [COMMAND]...\n\n" ++
        "Arguments:\n  [COMMAND]...  Print help for the subcommand(s)\n"
  | .command .run =>
      commandHelp "Run the proxy" "run" (configHelp env ++ formatHelp env ++ helpHelp)
  | .command .initConfig =>
      commandHelp "Write a default configuration file" "init-config"
        (formatHelp env ++ outputHelp ++ helpHelp)
  | .command .checkConfig =>
      commandHelp "Validate a configuration file and print a summary" "check-config"
        (configHelp env ++ formatHelp env ++ helpHelp)

def helpText (env : Environment) (topic : HelpTopic) : String := Plain.strip (styledHelp env topic)

end AdmissionGate.CommandLine
