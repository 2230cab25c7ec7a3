import JavaFacts.Concrete.Tree
import JavaFacts.Config
import JavaFacts.Project.Error
import JavaFacts.Source.Path

/-!
The files that an extraction reads. A path is followed segment by segment: what it passes has to be
a directory, also where it goes back out of it.
-/

namespace JavaFacts

inductive FileContent where
  | source (text : String) (tree : Concrete)
  /-- Bytes that are not UTF-8. -/
  | undecodable (bytes : Nat)
deriving Inhabited

def FileContent.size : FileContent → Nat
  | source text _ => text.utf8ByteSize
  | undecodable bytes => bytes

inductive FileFault where
  | notFound
  | notDirectory
  | isDirectory
  | nameTooLong
  | nulInName
  | notText
deriving Repr, DecidableEq, Inhabited

def FileFault.message : FileFault → String
  | notFound => "No such file or directory (os error 2)"
  | notDirectory => "Not a directory (os error 20)"
  | isDirectory => "Is a directory (os error 21)"
  | nameTooLong => "File name too long (os error 36)"
  | nulInName => "file name contained an unexpected NUL byte"
  | notText => "stream did not contain valid UTF-8"

/-- Of several files with the same names the last counts. -/
structure Directory where
  files : List (List String × FileContent)
deriving Inhabited

inductive Place where
  /-- The names come last one first. -/
  | directory (names : List String)
  | file (content : FileContent)
deriving Inhabited

namespace Directory

/-- The last one first. -/
def namesOf (segments : List String) : List String :=
  segments.foldl (fun names segment =>
    if Path.staysInPlace segment then names
    else if Path.goesOut segment then names.tail
    else segment :: names) []

def ofFiles (files : List (String × FileContent)) : Directory :=
  ⟨(files.map fun file => ((namesOf (Path.segments file.1)).reverse, file.2)).reverse⟩

def at? (directory : Directory) (names : List String) : Option Place :=
  let path := names.reverse
  match directory.files.find? (·.1 == path) with
  | some file => some (.file file.2)
  | none =>
      let isAround := directory.files.any fun file => path.isPrefixOf file.1
      if isAround then some (.directory names) else none

/-- Nothing outside of the directory can be reached. -/
def step (directory : Directory) (place : Place) (segment : String) : Except FileFault Place :=
  match place with
  | .file _ => .error .notDirectory
  | .directory names =>
      if Path.staysInPlace segment then .ok (.directory names)
      else if Path.goesOut segment then
        match names with
        | [] => .error .notFound
        | _ :: around => .ok (.directory around)
      else if segment.utf8ByteSize > Path.maxNameSize then .error .nameTooLong
      else
        match directory.at? (segment :: names) with
        | some next => .ok next
        | none => .error .notFound

def follow (directory : Directory) (path : String) : Except FileFault Place :=
  if path.toList.contains '\x00' then .error .nulInName
  else if path.utf8ByteSize > Path.maxSize then .error .nameTooLong
  else if path == "" then .error .notFound
  else (Path.segments path).foldlM directory.step (.directory [])

/-- The size comes before the text: an oversized file is not read. -/
def read (directory : Directory) (config : Config) (path : String) :
    Except ExtractionError (String × Concrete) :=
  match directory.follow path with
  | .error fault => .error (.unreadable path fault.message)
  | .ok (.directory _) => .error (.unreadable path FileFault.isDirectory.message)
  | .ok (.file content) =>
      if content.size > config.maxFileSize then .error (.fileTooLarge path content.size)
      else
        match content with
        | .source text tree => .ok (text, tree)
        | .undecodable _ => .error (.unreadable path FileFault.notText.message)

end Directory

end JavaFacts
