import PredicateTree.Path

/-!
# Disk

A folder of files. Of what lies around the folder only the folders above it are known, up to the
root, and nothing in them.

* `Disk.find`: the place a path leads to. Every step of a path starts from a folder, and one that
  enters a name needs an entry of that name. No entry has a name of more than `nameLimit` bytes, and
  a path that asks for one is refused as such.
* `Disk.load`: the text of the file at a path.
-/

namespace PredicateTree

inductive LoadError where
  | missing
  | notAFolder
  | isAFolder
  | nameTooLong
  /-- A path has a NUL character in it. -/
  | nulInPath
  | notText
  /-- Another refusal of the system, in its own words. -/
  | system (what : String) (code : Nat)
deriving DecidableEq

namespace LoadError

def numbered (what : String) (code : Nat) : String := what ++ " (os error " ++ toString code ++ ")"

def message : LoadError → String
  | missing => numbered "No such file or directory" 2
  | notAFolder => numbered "Not a directory" 20
  | isAFolder => numbered "Is a directory" 21
  | nameTooLong => numbered "File name too long" 36
  | nulInPath => "file name contained an unexpected NUL byte"
  | notText => "stream did not contain valid UTF-8"
  | system what code => numbered what code

end LoadError

inductive DiskEntry where
  | file (content : ByteArray)
  | folder

/-- Entries by the names on the way to them. -/
abbrev Disk := List (List String × DiskEntry)

namespace Disk

inductive Place where
  | inside (names : List String)
  /-- A folder above. -/
  | outside
  /-- The root. -/
  | top
deriving DecidableEq

namespace Place

def path : Place → Path
  | inside names => names.map .name
  | outside => [.up]
  | top => [.root]

def text : Place → String
  | inside names => "/".intercalate names
  | outside => ".."
  | top => "/"

end Place

def entry? (d : Disk) : List String → Option DiskEntry
  | [] => some .folder
  | names => List.lookup names d

def remove (d : Disk) (names : List String) : Disk :=
  d.filter fun e => ¬ names.isPrefixOf e.1

/-- Puts an entry into a folder, which is made if it is not there. -/
def write (d : Disk) (names : List String) (entry : DiskEntry) : Disk :=
  let above := (List.range names.length).map names.take
  let added := (above.filter fun ns => (d.entry? ns).isNone).map fun ns => (ns, DiskEntry.folder)
  (names, entry) :: added ++ d.filter (·.1 ≠ names)

/-- The most bytes that a name can have. -/
def nameLimit : Nat := 255

/-- Why a folder has no entry of a name. -/
def absence (name : String) : LoadError :=
  if nameLimit < name.utf8ByteSize then .nameTooLong else .missing

/-- One piece of a path, followed from a place. -/
def follow (d : Disk) : Place → String → Except LoadError Place
  | .outside, piece =>
    match Path.inner? piece with
    | some (.name s) => .error (absence s)
    | _ => .ok .outside
  | .top, piece =>
    match Path.inner? piece with
    | some (.name s) => .error (absence s)
    | _ => .ok .top
  | .inside names, piece =>
    match d.entry? names with
    | none => .error .missing
    | some (.file _) => .error .notAFolder
    | some .folder =>
      match Path.inner? piece with
      | some .up => .ok (if names.isEmpty then .outside else .inside names.dropLast)
      | some (.name s) =>
        let below := names ++ [s]
        if (d.entry? below).isSome then .ok (.inside below) else .error (absence s)
      | _ => .ok (.inside names)

def find (d : Disk) (path : String) : Except LoadError Place :=
  let start : Place := if Path.isAbsolute path then .top else .inside []
  if path.contains '\x00' then .error .nulInPath else (Path.pieces path).foldlM d.follow start

def read (d : Disk) : Place → Except LoadError String
  | .outside | .top => .error .isAFolder
  | .inside names =>
    match d.entry? names with
    | none => .error .missing
    | some .folder => .error .isAFolder
    | some (.file content) =>
      match String.fromUTF8? content with
      | some text => .ok text
      | none => .error .notText

def load (d : Disk) (path : String) : Except LoadError String := do
  let place ← d.find path
  d.read place

end Disk

end PredicateTree
