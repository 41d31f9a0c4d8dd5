/-!
What the words on the command line ask for. Words are read from left to right: the
options of the program, the name of a command, and then the options of the command.
The format of the log may be given on both levels. An option that is not given takes
its value from the environment, if there is one. A value that stands in a word of its
own is looked at only when the next option of its level is read, or the level ends.
-/

namespace AdmissionGate.CommandLine

inductive LogFormat where
  | text
  | json
deriving DecidableEq, Repr

def LogFormat.ofName? : String → Option LogFormat
  | "text" => some .text
  | "json" => some .json
  | _ => none

inductive Command where
  | run (config : String)
  | initConfig (output : String) (force : Bool)
  | checkConfig (config : String)
deriving DecidableEq, Repr

inductive CommandName where
  | run
  | initConfig
  | checkConfig
deriving DecidableEq, Repr

def CommandName.ofText? : String → Option CommandName
  | "run" => some .run
  | "init-config" => some .initConfig
  | "check-config" => some .checkConfig
  | _ => none

inductive HelpTopic where
  | program
  | command (name : CommandName)
  | help
deriving DecidableEq, Repr

inductive Request where
  | command (format : LogFormat) (c : Command)
  | version
  | help (topic : HelpTopic)
deriving DecidableEq, Repr

structure Environment where
  config : Option String := none
  logFormat : Option String := none

inductive Opt where
  | logFormat
  | config
  | output
  | force
  | help
  | version
deriving DecidableEq, Repr

namespace Opt

def long : Opt → String
  | logFormat => "log-format"
  | config => "config"
  | output => "output"
  | force => "force"
  | help => "help"
  | version => "version"

def short? : Opt → Option Char
  | config => some 'c'
  | output => some 'o'
  | help => some 'h'
  | version => some 'V'
  | logFormat | force => none

def takesValue : Opt → Bool
  | logFormat | config | output => true
  | force | help | version => false

/-- Whether a value will do: a format has a name, and a path is not empty. -/
def accepts (o : Opt) (value : String) : Bool :=
  match o with
  | logFormat => (LogFormat.ofName? value).isSome
  | config | output => value ≠ ""
  | force | help | version => true

def ofProgram : List Opt := [logFormat, help, version]

def ofCommand : CommandName → List Opt
  | .run | .checkConfig => [config, logFormat, help]
  | .initConfig => [output, force, logFormat, help]

end Opt

abbrev Given := List (Opt × String)

namespace Given

def has (g : Given) (o : Opt) : Bool := g.any (·.1 = o)

def value? (g : Given) (o : Opt) : Option String := (g.find? (·.1 = o)).map (·.2)

def add? (g : Given) (o : Opt) (value : String) : Option Given :=
  if g.has o || !o.accepts value then none else some ((o, value) :: g)

def settle? (g : Given) : Option (Opt × String) → Option Given
  | none => some g
  | some (o, value) => g.add? o value

end Given

inductive Level where
  | done (g : Given)
  /-- The first word that is no option, and those after it. Nothing is given if the last
  value before it will not do. -/
  | word (g : Option Given) (w : String) (rest : List String)
  | version
  | help

/-- What a cluster of short options amounts to. -/
inductive Cluster where
  | given (g : Given)
  /-- The last option of the cluster has its value in the next word. -/
  | open (g : Given) (o : Opt)
  | version
  | help

/-- Reads a cluster of short options; one that takes a value takes the rest. -/
def takeCluster (known : List Opt) (g : Given) : List Char → Option Cluster
  | [] => some (.given g)
  | c :: rest =>
      match known.find? (·.short? = some c) with
      | none => none
      | some .help => some .help
      | some .version => some .version
      | some o =>
          if o.takesValue then
            match rest with
            | [] => some (.open g o)
            | '=' :: value => (g.add? o (String.ofList value)).map .given
            | value => (g.add? o (String.ofList value)).map .given
          else (g.add? o "").bind fun g => takeCluster known g rest

def isValue (w : String) : Bool := w = "-" || w.toList.head? ≠ some '-'

def splitLong (cs : List Char) : String × Option String :=
  match cs.span (· ≠ '=') with
  | (name, _ :: value) => (String.ofList name, some (String.ofList value))
  | (name, []) => (String.ofList name, none)

/-- Reads the options of a level. After two hyphens no option follows. -/
def takeOptions (known : List Opt) (g : Given) (held : Option (Opt × String)) :
    List String → Option Level
  | [] => (g.settle? held).map .done
  | w :: rest =>
      match w.toList with
      | ['-', '-'] => if rest.isEmpty then (g.settle? held).map .done else none
      | '-' :: '-' :: cs => do
          let g ← g.settle? held
          let (name, value) := splitLong cs
          match ← known.find? (·.long = name), value with
          | o, some value =>
              if o.takesValue then takeOptions known (← g.add? o value) none rest else none
          | .help, none => some .help
          | .version, none => some .version
          | o, none =>
              if o.takesValue then
                match rest with
                | value :: rest =>
                    if isValue value then takeOptions known g (some (o, value)) rest else none
                | [] => none
              else takeOptions known (← g.add? o "") none rest
      | '-' :: c :: cs => do
          match ← takeCluster known (← g.settle? held) (c :: cs) with
          | .help => some .help
          | .version => some .version
          | .given g => takeOptions known g none rest
          | .open g o =>
              match rest with
              | value :: rest =>
                  if isValue value then takeOptions known g (some (o, value)) rest else none
              | [] => none
      | _ => some (.word (g.settle? held) w rest)

/-- The value of an option that was given, or else that of the environment, which must
do then. -/
def valueOr (g : Given) (o : Opt) (environment : Option String) : Option (Option String) :=
  match g.value? o, environment with
  | some value, _ => some (some value)
  | none, some value => if o.accepts value then some (some value) else none
  | none, none => some none

def defaultConfig : String := "/etc/bastion/bastion.toml"

def defaultOutput : String := "bastion.toml"

def Command.ofGiven? (env : Environment) (name : CommandName) (g : Given) : Option Command :=
  match name with
  | .run => (valueOr g .config env.config).map fun v => .run (v.getD defaultConfig)
  | .initConfig => some (.initConfig ((g.value? .output).getD defaultOutput) (g.has .force))
  | .checkConfig => (valueOr g .config env.config).map fun v => .checkConfig (v.getD defaultConfig)

def HelpTopic.ofWords? : List String → Option HelpTopic
  | [] => some .program
  | ["help"] => some .help
  | [name] => (CommandName.ofText? name).map .command
  | _ => none

/-- What the words ask for; nothing, if they make no sense. -/
def Request.ofWords? (env : Environment) (words : List String) : Option Request := do
  match ← takeOptions Opt.ofProgram [] none words with
  | .done _ => none
  | .version => some .version
  | .help => some (.help .program)
  | .word outer w rest =>
      if w = "help" then (HelpTopic.ofWords? rest).map .help
      else do
        let name ← CommandName.ofText? w
        match ← takeOptions (Opt.ofCommand name) [] none rest with
        | .word .. => none
        | .version => some .version
        | .help => some (.help (.command name))
        | .done inner =>
            let command ← Command.ofGiven? env name inner
            let near ← valueOr inner .logFormat env.logFormat
            let far ← valueOr (← outer) .logFormat env.logFormat
            let format := if inner.has .logFormat then near else far
            some (.command ((format.bind LogFormat.ofName?).getD .text) command)

end AdmissionGate.CommandLine
