import JvsSharp.Text.Split
import JvsSharp.Text.Utf8

/-!
# Files and directories

The command reads and writes files by name. What it needs of the disk is
stated here, with a tree of files as the disk that can be reasoned about. A
program works in one directory of the tree, and the system may refuse it a
write for reasons that the tree does not show.
-/

set_option autoImplicit false

namespace JvsSharp

inductive Fault where
  | notFound
  | notDirectory
  | isDirectory
  | nameTooLong
  | nulInName
  | notUtf8
  | other (details : String) (code : Nat)
  deriving DecidableEq, Repr

def Fault.message : Fault → String
  | .notFound => "No such file or directory (os error 2)"
  | .notDirectory => "Not a directory (os error 20)"
  | .isDirectory => "Is a directory (os error 21)"
  | .nameTooLong => "File name too long (os error 36)"
  | .nulInName => "file name contained an unexpected NUL byte"
  | .notUtf8 => "stream did not contain valid UTF-8"
  | .other details code => details ++ " (os error " ++ toString code ++ ")"

structure Disk where
  isFile : String → Bool
  read : String → Except Fault (List UInt8)

def Disk.readText (disk : Disk) (path : String) : Except Fault Line := do
  match Utf8.decode? (← disk.read path) with
  | some text => .ok text
  | none => .error .notUtf8

abbrev Path := List Line

inductive Entry where
  | file (bytes : List UInt8)
  | directory
  deriving DecidableEq, Repr

abbrev Tree := List (Path × Entry)

/-- Where a program works, and why the system would not let it write at a place. -/
structure Access where
  home : Path := []
  refuses : Path → List UInt8 → Option Fault := fun _ _ => none

namespace Tree

def entry? (tree : Tree) (path : Path) : Option Entry :=
  if path = [] then some .directory else tree.lookup path

def set : Tree → Path → Entry → Tree
  | [], path, entry => [(path, entry)]
  | (p, e) :: rest, path, entry =>
      if p = path then (p, entry) :: rest else (p, e) :: set rest path entry

def isTooLong (name : Line) : Bool := 255 < (Utf8.encode name).length

def step (tree : Tree) (spot : Path) (name : Line) : Except Fault Path :=
  match tree.entry? spot with
  | none => .error .notFound
  | some (.file _) => .error .notDirectory
  | some .directory =>
      -- an empty name is what stands between two slashes
      if name = [] ∨ name = ['.'] then .ok spot
      -- the root has itself above it
      else if name = ['.', '.'] then .ok spot.dropLast
      else if isTooLong name then .error .nameTooLong
      else .ok (spot ++ [name])

def walk (tree : Tree) (home : Path) : List Line → Except Fault Path
  -- a leading slash leaves an empty name
  | [] :: rest => rest.foldlM tree.step []
  | names => names.foldlM tree.step home

def names (path : String) : Except Fault (List Line) :=
  if path.toList.contains '\x00' then .error .nulInName
  else if path.isEmpty then .error .notFound
  else if 4096 ≤ path.utf8ByteSize then .error .nameTooLong
  else .ok (Text.split '/' path.toList)

def entryAt (tree : Tree) (spot : Path) : Except Fault Entry :=
  match tree.entry? spot with
  | some entry => .ok entry
  | none => .error .notFound

def find (tree : Tree) (home : Path) (path : String) : Except Fault Entry := do
  tree.entryAt (← tree.walk home (← names path))

def isFile (tree : Tree) (home : Path) (path : String) : Bool :=
  match tree.find home path with
  | .ok (.file _) => true
  | _ => false

def read (tree : Tree) (home : Path) (path : String) : Except Fault (List UInt8) := do
  match ← tree.find home path with
  | .file bytes => .ok bytes
  | .directory => .error .isDirectory

/-- Where a file of that name would be written. Only the directories on the way have to
exist; a path that ends in a slash or in dots names a directory. -/
def target (tree : Tree) (home : Path) (path : String) : Except Fault Path := do
  let all ← names path
  let named := (all.reverse.dropWhile List.isEmpty).reverse
  match named.getLast? with
  | none => .error .isDirectory
  | some last =>
      let parent ← tree.walk home named.dropLast
      match ← tree.entryAt parent with
      | .file _ => .error .notDirectory
      | .directory =>
          if last = ['.'] ∨ last = ['.', '.'] ∨ named.length < all.length then .error .isDirectory
          else if isTooLong last then .error .nameTooLong
          else
            match tree.entry? (parent ++ [last]) with
            | some .directory => .error .isDirectory
            | _ => .ok (parent ++ [last])

def write (tree : Tree) (access : Access) (path : String) (bytes : List UInt8) :
    Except Fault Tree := do
  let place ← tree.target access.home path
  match access.refuses place bytes with
  | some fault => .error fault
  | none => .ok (tree.set place (.file bytes))

def disk (tree : Tree) (home : Path := []) : Disk := ⟨tree.isFile home, tree.read home⟩

def place (tree : Tree) (path : Path) (entry : Entry) : Tree :=
  let parents := (List.range path.length).tail.map path.take
  (parents.foldl (fun t p => if (t.entry? p).isSome then t else t.set p .directory) tree).set path
    entry

def changedFrom (tree old : Tree) : List (Path × List UInt8) :=
  tree.filterMap fun (path, entry) =>
    match entry with
    | .directory => none
    | .file bytes => if old.entry? path = some (.file bytes) then none else some (path, bytes)

end Tree

end JvsSharp
