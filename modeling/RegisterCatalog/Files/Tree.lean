import Std.Data.TreeMap
import RegisterCatalog.Files.Path
import RegisterCatalog.Files.Program

/-! Files in memory: the tree below the working directory, and how programs run on it. What lies
outside of the tree counts as an empty directory in which nothing can be made. -/

namespace RegisterCatalog

inductive Contents
  | text (written : String)
  /-- Bytes that are not the encoding of a text. -/
  | bytes (bytes : List UInt8)
  deriving DecidableEq

def Contents.ofBytes (bytes : ByteArray) : Contents :=
  match String.fromUTF8? bytes with
  | some decoded => .text decoded
  | none => .bytes bytes.toList

inductive FileNode
  | directory
  | file (contents : Contents)
  deriving DecidableEq

/-- A place that a path leads to. -/
inductive FilePlace
  /-- The names from the working directory down. -/
  | inside (names : List String)
  | outside
  deriving DecidableEq

namespace FilePlace

def above : FilePlace → FilePlace
  | inside [] => outside
  | inside names => inside names.dropLast
  | outside => outside

end FilePlace

structure FileTree where
  nodes : Std.TreeMap (List String) FileNode := ∅

namespace FileTree

def node? (tree : FileTree) : FilePlace → Option FileNode
  | .outside => some .directory
  | .inside [] => some .directory
  | .inside names => tree.nodes[names]?

/-- The place with a name in a directory, if there is something. -/
def child? (tree : FileTree) (place : FilePlace) (name : String) : Option FilePlace :=
  match place with
  | .outside => none
  | .inside names =>
    let child := FilePlace.inside (names ++ [name])
    if (tree.node? child).isSome then some child else none

/-- The number of bytes a name has at most. -/
def longestName : Nat := 255

/-- The number of bytes a path has at most. -/
def longestPath : Nat := 4095

/-- What is wrong with a path whatever there is in the tree. -/
def checkPath (path : String) : Except FileFault Unit :=
  if path.toList.contains '\x00' then .error .badPath
  else if path.isEmpty then .error .notFound
  else if longestPath < path.utf8ByteSize then .error .nameTooLong
  else .ok ()

/-- Goes on from a place by one piece of a path. Only a directory can be left by any piece, even by
one that means nothing. -/
def enter (tree : FileTree) (place : FilePlace) (piece : String) : Except FileFault FilePlace :=
  match tree.node? place with
  | none => .error .notFound
  | some (.file _) => .error .notDirectory
  | some .directory =>
    if Path.isFiller piece then .ok place
    else if piece == ".." then .ok place.above
    else if longestName < piece.utf8ByteSize then .error .nameTooLong
    else match tree.child? place piece with
      | some child => .ok child
      | none => .error .notFound

def start (path : String) : FilePlace :=
  if path.toList.head? == some '/' then .outside else .inside []

/-- The place that a path leads to. The empty path leads nowhere. -/
def locate (tree : FileTree) (path : String) : Except FileFault FilePlace := do
  checkPath path
  (Path.pieces path).foldlM tree.enter (start path)

def at? (tree : FileTree) (path : String) : Except FileFault FileNode := do
  match tree.node? (← tree.locate path) with
  | some node => return node
  | none => .error .notFound

def isDirectory (tree : FileTree) (path : String) : Bool :=
  match tree.at? path with
  | .ok .directory => true
  | _ => false

def isFile (tree : FileTree) (path : String) : Bool :=
  match tree.at? path with
  | .ok (.file _) => true
  | _ => false

def readText (tree : FileTree) (path : String) : Except FileFault String := do
  match ← tree.at? path with
  | .directory => .error .isDirectory
  | .file (.text text) => return text
  | .file (.bytes _) => .error .notText

/-- Where something is to be made: the names of its directory, its own name, and whether the path
says that it is a directory. -/
structure Spot where
  above : FilePlace
  name : String
  slash : Bool

/-- The directory of the last piece of a path must be there. -/
def spot (tree : FileTree) (path : String) : Except FileFault Spot := do
  checkPath path
  let pieces := Path.pieces path
  let slash := pieces.getLast? == some ""
  match pieces.reverse.dropWhile (· == "") with
  | [] => .error .isDirectory
  | name :: before =>
    let above ← before.reverse.foldlM tree.enter (start path)
    match tree.node? above with
    | some .directory => return { above, name, slash }
    | _ => .error .notDirectory

def put (tree : FileTree) (names : List String) (node : FileNode) : FileTree :=
  { nodes := tree.nodes.insert names node }

def makeDirectory (tree : FileTree) (path : String) : Except FileFault FileTree := do
  let spot ← tree.spot path
  if Path.isFiller spot.name || spot.name == ".." then .error .alreadyExists
  else if longestName < spot.name.utf8ByteSize then .error .nameTooLong
  else match spot.above, tree.child? spot.above spot.name with
    | .outside, _ => .error .notFound
    | _, some _ => .error .alreadyExists
    | .inside names, none => return tree.put (names ++ [spot.name]) .directory

/-- An existing directory is as good as a new one. -/
def ensureDirectory (tree : FileTree) (path : String) : Except FileFault FileTree :=
  match tree.makeDirectory path with
  | .ok tree => .ok tree
  | .error fault => if tree.isDirectory path then .ok tree else .error fault

/-- Makes a directory, and the one above it first if that is missing. The names of a path bound the
number of directories above it, so a `budget` of its length suffices. The tree keeps what was made
before a failure. -/
def makeDirectories (tree : FileTree) (path : String) :
    (budget : Nat) → Except FileFault Unit × FileTree
  | 0 => (.error .notFound, tree)
  | budget + 1 =>
    if path.isEmpty then (.ok (), tree)
    else match tree.ensureDirectory path, Path.parent? path with
      | .ok tree, _ => (.ok (), tree)
      | .error .notFound, some above =>
        match tree.makeDirectories above budget with
        | (.error fault, tree) => (.error fault, tree)
        | (.ok (), tree) =>
          match tree.ensureDirectory path with
          | .ok tree => (.ok (), tree)
          | .error fault => (.error fault, tree)
      | .error fault, _ => (.error fault, tree)

def write (tree : FileTree) (path : String) (contents : Contents) : Except FileFault FileTree := do
  let spot ← tree.spot path
  if spot.slash || Path.isFiller spot.name || spot.name == ".." then .error .isDirectory
  else if longestName < spot.name.utf8ByteSize then .error .nameTooLong
  else match spot.above with
    | .outside => .error .notFound
    | .inside names =>
      let names := names ++ [spot.name]
      match tree.node? (.inside names) with
      | some .directory => .error .isDirectory
      | _ => return tree.put names (.file contents)

/-- Removes what is at a path, with all that is below it. -/
def remove (tree : FileTree) (path : String) : FileTree :=
  match tree.locate path with
  | .ok (.inside names) => { nodes := tree.nodes.filter fun place _ => !names.isPrefixOf place }
  | _ => tree

/-- The files of a tree that another one does not have, or has with other contents. -/
def changedSince (tree before : FileTree) : List (List String × Contents) :=
  tree.nodes.toList.filterMap fun (names, node) =>
    match node with
    | .directory => none
    | .file contents =>
      if before.nodes[names]? = some (.file contents) then none else some (names, contents)

end FileTree

/-- What a program acts on: the files, and the messages so far with the last first. -/
structure World where
  tree : FileTree := {}
  messages : List LogMessage := []

namespace World

/-- Answers one request. -/
def serve (world : World) : FileRequest α → α × World
  | .isDirectory path => (world.tree.isDirectory path, world)
  | .isFile path => (world.tree.isFile path, world)
  | .readText path => (world.tree.readText path, world)
  | .makeDirectories path =>
    let (result, tree) := world.tree.makeDirectories path (path.length + 1)
    (result, { world with tree })
  | .writeText path text =>
    match world.tree.write path (.text text) with
    | .ok tree => (.ok (), { world with tree })
    | .error fault => (.error fault, world)
  | .log message => ((), { world with messages := message :: world.messages })

end World

/-- Runs a program on files in memory. -/
def Program.run : Program α → World → α × World
  | .pure value, world => (value, world)
  | .request operation next, world =>
    let (reply, world) := world.serve operation
    (next reply).run world

theorem Program.run_bind (program : Program α) (next : α → Program β) (world : World) :
    (program >>= next).run world =
      (next (program.run world).1).run (program.run world).2 := by
  induction program generalizing world with
  | pure value => rfl
  | request operation resume ih => exact ih _ _

end RegisterCatalog
