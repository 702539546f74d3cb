import PredicateTree.Command

/-!
# Command.Arguments

The command line:

    [--log FILTER] expand|negate|check FILE [--log FILTER]
    [--log FILTER] eval FILE --arg VALUE [--log FILTER]

An option takes the argument after it, which must not look like an option, or what stands behind an
equals sign. Options and the file may come in any order, each once; behind two dashes all is file.
The filter of the log changes nothing in what is printed.

A value or a file is taken when the next one begins or help is asked for (`Given.settle`), so what
is wrong with it is found before the help is given.
-/

namespace PredicateTree

namespace Command

/-- Why there is no command. -/
inductive Refusal where
  | usage
  | help
deriving DecidableEq

inductive Token where
  /-- Two dashes alone. -/
  | dashes
  | option (name : String) (attached : Option String)
  | letters (cs : List Char)
  | plain (s : String)
deriving DecidableEq

/-- An option's name, and what follows an equals sign. -/
def Token.ofOption (cs : List Char) : Token :=
  let name := String.ofList (cs.takeWhile (· ≠ '='))
  match cs.dropWhile (· ≠ '=') with
  | [] => .option name none
  | _ :: v => .option name (some (String.ofList v))

def Token.ofText (s : String) : Token :=
  match s.toList with
  | ['-', '-'] => .dashes
  | '-' :: '-' :: cs => .ofOption cs
  | '-' :: c :: cs => .letters (c :: cs)
  | _ => .plain s

/-- What was read last and is not taken yet. -/
inductive Pending where
  | option (name value : String)
  | file (path : String)
deriving DecidableEq

structure Given where
  files : List String := []
  options : List (String × String) := []
  pending : Option Pending := none
deriving DecidableEq

namespace Given

def option? (g : Given) (name : String) : Option String := List.lookup name g.options

/-- An option comes once. -/
def putOption (g : Given) (name value : String) : Except Refusal Given :=
  if (g.option? name).isSome then .error .usage
  else .ok { g with options := (name, value) :: g.options }

/-- A file has a name. -/
def putFile (g : Given) (path : String) : Except Refusal Given :=
  if path.isEmpty then .error .usage else .ok { g with files := g.files ++ [path] }

/-- Takes what was read last. -/
def settle (g : Given) : Except Refusal Given :=
  let rest := { g with pending := none }
  match g.pending with
  | none => .ok g
  | some (.option name value) => rest.putOption name value
  | some (.file path) => rest.putFile path

/-- Takes what was read last, before the next. -/
def read (g : Given) (next : Pending) : Except Refusal Given :=
  g.settle.map fun g => { g with pending := some next }

end Given

/-- Reads arguments with these options and at most `room` files. Stops at a plain argument for
which there is no room. -/
def scan (allowed : List String) (room : Nat) (g : Given) :
    List String → Except Refusal (Given × List String)
  | [] => .ok (g, [])
  | t :: ts =>
    match Token.ofText t with
    | .dashes => do
      if room < ts.length then .error .usage
      else return (← ts.foldlM (fun g path => g.read (.file path)) g, [])
    | .letters ('h' :: _) | .option "help" none => do
      let _ ← g.settle
      .error .help
    | .letters _ => .error .usage
    | .option name attached =>
      if ¬ allowed.contains name then .error .usage
      else
        match attached, ts with
        | some v, ts => do
          let g ← g.settle
          scan allowed room (← g.putOption name v) ts
        | none, [] => .error .usage
        | none, v :: ts =>
          match Token.ofText v with
          | .plain v => do scan allowed room (← g.read (.option name v)) ts
          | _ => .error .usage
    | .plain path =>
      match room with
      | 0 => .ok (g, t :: ts)
      | room + 1 => do scan allowed room (← g.read (.file path)) ts

def logOption : String := "log"

def argOption : String := "arg"

/-- What stands behind the word for a task. -/
def Given.command (g : Given) (word : String) : Except Refusal Command := do
  let task ← match word, g.option? argOption with
    | "expand", _ => .ok .expand
    | "negate", _ => .ok .negate
    | "check", _ => .ok .check
    | "eval", some arg => .ok (.eval arg)
    | _, _ => .error .usage
  match g.files with
  | [file] => .ok ⟨task, file⟩
  | _ => .error .usage

def words : List String := ["expand", "negate", "check", "eval", "help"]

def ofArguments (args : List String) : Except Refusal Command := do
  match ← scan [logOption] 0 {} args with
  | (_, "help" :: topics) =>
    .error (if topics.length ≤ 1 ∧ topics.all words.contains then .help else .usage)
  | (before, word :: args) =>
    if ¬ words.contains word then .error .usage
    else
      let allowed := if word = "eval" then [logOption, argOption] else [logOption]
      match ← scan allowed 1 {} args with
      | (g, []) =>
        let g ← g.settle
        let _ ← before.settle
        g.command word
      | (_, _ :: _) => .error .usage
  | (_, []) => .error .usage

/-- A run in a folder. -/
def run (fuel : Nat) (disk : Disk) (args : List String) : Outcome Refusal Printed :=
  match ofArguments args with
  | .error r => .error r
  | .ok c => c.answer fuel (disk.load c.file)

/-- What is printed, and with which status the program ends, when there is no command. -/
def Refusal.printed : Refusal → Printed
  | .usage => ⟨"", usageText, 2⟩
  | .help => ⟨usageText, "", 0⟩
where
  usageText : String :=
    "Inline and negate predicate expression trees\n\n" ++
    "  expand FILE            print the predicate with every expandable call inlined\n" ++
    "  negate FILE            print the inverse of the expanded predicate\n" ++
    "  check FILE             report diagnostics without printing the result\n" ++
    "  eval FILE --arg VALUE  evaluate the expanded predicate on a JSON argument\n\n" ++
    "  --log FILTER           log filter\n"

end Command

end PredicateTree
