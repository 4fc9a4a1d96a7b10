/-!
The words of a command line. A word with two dashes is an option by its name, a word with one
dash holds options by their letters, and two dashes alone make operands of all words after
them. The value of an option is joined to it or is the next word, and an option is given at
most once.
-/

namespace RolloutWatch.Arguments

structure OptionRule where
  name : String
  letter : Option Char
  takesValue : Bool

/-- Why words do not come to a command: they cannot be understood, or they ask about the
program itself. -/
inductive Detour where
  | misuse
  | help
  | version
  deriving DecidableEq

structure Given where
  options : List (String × String)
  operands : List String

def helpRule : OptionRule :=
  { name := "help", letter := some 'h', takesValue := false }

def versionRule : OptionRule :=
  { name := "version", letter := some 'V', takesValue := false }

namespace Given

def nothing : Given :=
  { options := [], operands := [] }

def addOption (g : Given) (name value : String) : Except Detour Given :=
  if g.options.any fun o => o.1 = name then .error .misuse
  else .ok { g with options := g.options ++ [(name, value)] }

def addFlag (g : Given) (name : String) : Except Detour Given :=
  if name = helpRule.name then .error .help
  else if name = versionRule.name then .error .version
  else g.addOption name ""

def has (g : Given) (name : String) : Bool :=
  g.options.any fun o => o.1 = name

def optional {α : Type} (g : Given) (name : String) (read? : String → Option α) :
    Except Detour (Option α) :=
  match g.options.lookup name with
  | none => .ok none
  | some text =>
      match read? text with
      | some a => .ok (some a)
      | none => .error .misuse

def required {α : Type} (g : Given) (name : String) (read? : String → Option α) :
    Except Detour α :=
  match (g.options.lookup name).bind read? with
  | some a => .ok a
  | none => .error .misuse

def noOperand (g : Given) : Except Detour Unit :=
  match g.operands with
  | [] => .ok ()
  | _ => .error .misuse

def soleOperand {α : Type} (g : Given) (read? : String → Option α) : Except Detour α :=
  match g.operands with
  | [text] =>
      match read? text with
      | some a => .ok a
      | none => .error .misuse
  | _ => .error .misuse

end Given

inductive Word where
  | mark
  | named (name : String) (value : Option String)
  | letters (letters : List Char)
  | operand (text : String)

def splitName (text : List Char) : Word :=
  let name := String.ofList (text.takeWhile (· ≠ '='))
  match text.dropWhile (· ≠ '=') with
  | _ :: value => .named name (some (String.ofList value))
  | [] => .named name none

def Word.ofString (text : String) : Word :=
  match text.toList with
  | ['-', '-'] => .mark
  | '-' :: '-' :: rest => splitName rest
  | ['-'] => .operand text
  | '-' :: rest => .letters rest
  | _ => .operand text

/-- What the next word may be. -/
inductive Awaited where
  | word
  | value (name : String)
  | operand

/-- Options by their letters. A letter whose option takes a value takes the rest. -/
def readLetters (rules : List OptionRule) :
    List Char → Given → Except Detour (Given × Awaited)
  | [], given => .ok (given, .word)
  | letter :: rest, given =>
      match rules.find? fun rule => rule.letter = some letter with
      | none => .error .misuse
      | some rule =>
          if rule.takesValue then
            match rest with
            | [] => .ok (given, .value rule.name)
            | '=' :: value => do
                let given ← given.addOption rule.name (String.ofList value)
                pure (given, .word)
            | value => do
                let given ← given.addOption rule.name (String.ofList value)
                pure (given, .word)
          else do
            let given ← given.addFlag rule.name
            readLetters rules rest given

def readNamed (rules : List OptionRule) (name : String) (value : Option String)
    (given : Given) : Except Detour (Given × Awaited) :=
  match rules.find? fun rule => rule.name = name with
  | none => .error .misuse
  | some rule =>
      match rule.takesValue, value with
      | true, some value => do
          let given ← given.addOption name value
          pure (given, .word)
      | true, none => .ok (given, .value name)
      | false, some _ => .error .misuse
      | false, none => do
          let given ← given.addFlag name
          pure (given, .word)

inductive OperandRule where
  | stop
  | limit (most : Nat)

def addOperand (rule : OperandRule) (given : Given) (text : String) : Except Detour Given :=
  match rule with
  | .stop => .error .misuse
  | .limit most =>
      if given.operands.length < most then
        .ok { given with operands := given.operands ++ [text] }
      else .error .misuse

def read (rules : List OptionRule) (operands : OperandRule) :
    Awaited → List String → Given → Except Detour (Given × List String)
  | .value _, [], _ => .error .misuse
  | .word, [], given => .ok (given, [])
  | .operand, [], given => .ok (given, [])
  | .operand, text :: rest, given => do
      let given ← addOperand operands given text
      read rules operands .operand rest given
  | .value name, text :: rest, given =>
      match Word.ofString text with
      | .operand value => do
          let given ← given.addOption name value
          read rules operands .word rest given
      | _ => .error .misuse
  | .word, text :: rest, given =>
      match Word.ofString text with
      | .mark => read rules operands .operand rest given
      | .named name value => do
          let (given, awaited) ← readNamed rules name value given
          read rules operands awaited rest given
      | .letters letters => do
          let (given, awaited) ← readLetters rules letters given
          read rules operands awaited rest given
      | .operand text =>
          match operands with
          | .stop => .ok (given, text :: rest)
          | .limit _ => do
              let given ← addOperand operands given text
              read rules operands .word rest given

def beforeCommand (rules : List OptionRule) (words : List String) :
    Except Detour (Given × List String) :=
  read (helpRule :: rules) .stop .word words .nothing

def ofCommand (rules : List OptionRule) (most : Nat) (words : List String) :
    Except Detour Given := do
  let (given, _) ← read (helpRule :: rules) (.limit most) .word words .nothing
  pure given

end RolloutWatch.Arguments
