/-!
# Files

The files within reach of a command, by path. `Files.ofTexts` is a working directory that holds
the given files and nothing else; paths may name them by way of folders, `.` and `..`.
-/

namespace SlidingSync

inductive PathTarget
  | nothing
  | folder
  /-- A file, with its text when it is text. -/
  | file (text : Option String)
  deriving DecidableEq, Repr

abbrev Files :=
  String → PathTarget

namespace Files

def text? (files : Files) (path : String) : Option String :=
  match files path with
  | .file text => text
  | _ => none

def parts (path : String) : List String :=
  path.splitOn "/"

/-- A place in the working directory: the names of the folders on the way to it. -/
abbrev Place :=
  List String

def targetAt (texts : List (String × String)) (place : Place) : PathTarget :=
  match texts.find? fun entry => parts entry.1 == place with
  | some entry => .file (some entry.2)
  | none =>
      if texts.any fun entry => place.isPrefixOf (parts entry.1) then .folder
      else if place.isEmpty then .folder
      else .nothing

/-- The place that the rest of a path leads to from `place`; only folders lead further. -/
def walk (texts : List (String × String)) (place : Place) : List String → Option Place
  | [] => some place
  | name :: rest =>
      if targetAt texts place ≠ .folder then none
      else if name = "" ∨ name = "." then walk texts place rest
      else if name = ".." then
        if place.isEmpty then none else walk texts place.dropLast rest
      else walk texts (place ++ [name]) rest

/-- A working directory with these files, by path and text. -/
def ofTexts (texts : List (String × String)) : Files := fun path =>
  if path = "" ∨ path.startsWith "/" then .nothing
  else
    match walk texts [] (parts path) with
    | some place => targetAt texts place
    | none => .nothing

end Files

end SlidingSync
