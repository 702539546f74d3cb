import PredicateTree.Command.Arguments

/-!
# Main

The program: reads the file that the command names, prints what the command answers, and ends with
its status.
-/

namespace PredicateTree

/-- The refusal of the system behind a code, which may be given as a negative number. -/
def LoadError.ofCode (code : UInt32) (what : String) : LoadError :=
  match code.toInt32.toInt.natAbs with
  | 2 => .missing
  | 20 => .notAFolder
  | 21 => .isAFolder
  | 36 => .nameTooLong
  | n => .system what.capitalize n

def LoadError.ofSystem : IO.Error → LoadError
  | .noFileOrDirectory _ code what => ofCode code what
  | .inappropriateType _ code what => ofCode code what
  | .permissionDenied _ code what => ofCode code what
  | .invalidArgument _ code what => ofCode code what
  | .resourceExhausted _ code what => ofCode code what
  | .otherError code what => ofCode code what
  | e => .system e.toString 5

def readText (path : String) : IO (Except LoadError String) := do
  try
    let content ← IO.FS.readBinFile path
    return match String.fromUTF8? content with
      | some text => .ok text
      | none => .error .notText
  catch e => return .error (.ofSystem e)

/-- The answer with as much fuel as it takes. -/
partial def Command.settle (c : Command) (loaded : Except LoadError String) (fuel : Nat) :
    IO Printed :=
  match c.answer fuel loaded with
  | .ok p => return p
  | .error (e : Empty) => nomatch e
  | .unfinished => c.settle loaded (2 * fuel)

def runWith (args : List String) : IO Printed := do
  match Command.ofArguments args with
  | .error r => return r.printed
  | .ok c => c.settle (← readText c.file) 1024

end PredicateTree

open PredicateTree in
def main (args : List String) : IO UInt32 := do
  let p ← runWith args
  IO.print p.out
  IO.eprint p.err
  return p.status.toUInt32
