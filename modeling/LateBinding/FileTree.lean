import LateBinding.Error
import LateBinding.Path

/-!
# Files in memory

Files below a directory, by their paths. A path is followed part by part: a single dot stays
where it is, two dots go up but not above the directory, and every part but the last names a
directory, which exists if there is a file somewhere below it.
-/

namespace LateBinding

/-- The files below a directory with the parts of their paths. -/
structure FileTree where
  files : List (List String × ByteArray)

namespace FileTree

/-- Files by their paths; a later one replaces an earlier one of the same path. -/
def ofList (files : List (String × ByteArray)) : FileTree :=
  ⟨files.reverse.map fun f => (Path.parts f.1, f.2)⟩

/-- The files that absolute paths lead to: only the null device, which is empty. -/
def root : FileTree := ofList [("dev/null", .empty)]

def isDirectory (t : FileTree) (place : List String) : Bool :=
  place.isEmpty || t.files.any fun f => place.isPrefixOf f.1 && place ≠ f.1

def isFile (t : FileTree) (place : List String) : Bool := (t.files.lookup place).isSome

/-- The most bytes that a part of a path may have. -/
def maxPart : Nat := 255

/-- The most bytes that a path may have. -/
def maxPath : Nat := 4095

/-- The place that a part of a path leads to from a directory. -/
def enter (t : FileTree) (place : List String) (part : String) :
    Except ReadFault (List String) :=
  if part = "" || part = "." then .ok place
  else if part = ".." then if place.isEmpty then .error .missing else .ok place.dropLast
  else if maxPart < part.utf8ByteSize then .error .pathTooLong
  else
    let inside := place ++ [part]
    if t.isDirectory inside || t.isFile inside then .ok inside else .error .missing

/-- The place that the parts of a path lead to from another place. -/
def walk (t : FileTree) (place : List String) : List String → Except ReadFault (List String)
  | [] => .ok place
  | part :: rest =>
    if !t.isDirectory place then .error .notDirectory
    else
      match t.enter place part with
      | .error f => .error f
      | .ok place => walk t place rest

/-- The bytes of the file that the parts of a path lead to. -/
def bytesAt (t : FileTree) (parts : List String) : Except ReadFault ByteArray :=
  match t.walk [] parts with
  | .error f => .error f
  | .ok place =>
    match t.files.lookup place with
    | some bytes => .ok bytes
    | none => .error .isDirectory

def bytes (t : FileTree) (path : String) : Except ReadFault ByteArray :=
  let cs := path.toList
  if cs.contains '\x00' then .error .nulInPath
  else if maxPath < path.utf8ByteSize then .error .pathTooLong
  else
    let parts := (Text.splitOn (· = '/') cs).map String.ofList
    match cs with
    | [] => .error .missing
    | '/' :: _ => root.bytesAt parts
    | _ => t.bytesAt parts

def text (t : FileTree) (path : String) : Except ReadFault String :=
  match t.bytes path with
  | .error f => .error f
  | .ok bytes =>
    match String.fromUTF8? bytes with
    | some s => .ok s
    | none => .error .notText

end FileTree

end LateBinding
