import Formula.Command.Environment

/-!
# `Formula.Command.Directory` — reading in a directory of files

A command runs in a directory that holds some files. A path is followed name by name, from that
directory or from the root; around the directory lie the folders and devices that every system has.
One of the devices is the standard input, and what was read from it does not come again.

## Contents
- **Contents.** `Content`, `Content.take`.
- **Places.** `Place`, `workingPlace`, `systemFolders`, `Place.follow`.
- **Directories.** `Directory`; `Directory.entry?`: what lies at a place; `Directory.walk` and
  `Directory.lookUp`: what lies at the end of a path.
- **Environment.** `Environment.ofDirectory`.
-/

namespace Formula.Command

/-! ## Contents -/

/-- What a file holds. -/
inductive Content where
  | bytes (bytes : ByteArray)
  /-- What is left of the standard input. -/
  | input
  /-- Nothing that can be read, for this reason. -/
  | refused (error : ReadError)

/-- Reads all of a content; the state is what is left of the standard input. -/
def Content.take : Content → StateM ByteArray (Except ReadError ByteArray)
  | .bytes b => return .ok b
  | .input => do
      let unread ← get
      set ByteArray.empty
      return .ok unread
  | .refused e => return .error e

/-! ## Places -/

/-- A place in the tree of folders: the names that lead to it from the root, the last one first. -/
abbrev Place := List String

/-- Where the command runs: in a folder for passing things, under a name that no path can spell. -/
def workingPlace : Place := ["", "tmp"]

/-- The folders that every system has. -/
def systemFolders : List Place :=
  [[], ["bin"], ["boot"], ["dev"], ["etc"], ["home"], ["lib"], ["media"], ["mnt"], ["opt"],
    ["proc"], ["root"], ["run"], ["sbin"], ["srv"], ["sys"], ["tmp"], ["usr"], ["var"],
    ["shm", "dev"], ["pts", "dev"], ["self", "proc"], ["fd", "self", "proc"],
    ["bin", "usr"], ["lib", "usr"], ["local", "usr"], ["sbin", "usr"], ["share", "usr"],
    ["cache", "var"], ["lib", "var"], ["log", "var"], ["tmp", "var"]]

/-- Goes on to the place that a place stands for. The standard input and the open files have short
    names among the devices, and a process knows its working directory and its root. -/
def Place.follow : Place → Place
  | ["stdin", "dev"] => ["0", "fd", "self", "proc"]
  | ["fd", "dev"] => ["fd", "self", "proc"]
  | ["cwd", "self", "proc"] => workingPlace
  | ["root", "self", "proc"] => []
  | place => place

/-! ## Directories -/

/-- Files by name, in a directory without subdirectories. -/
abbrev Directory := List (String × ByteArray)

/-- What lies at a place. -/
inductive Entry where
  | file (content : Content)
  | folder

/-- The most bytes of a name in a path. -/
def nameLimit : Nat := 255

/-- The most bytes of a path. -/
def pathLimit : Nat := 4095

namespace Directory

/-- What lies at a place. The null device is empty, nothing is attached to the terminal, and the
    program itself is no text. -/
def entry? (d : Directory) (place : Place) : Option Entry :=
  if place = workingPlace ∨ place ∈ systemFolders then some .folder
  else
    match place with
    | ["null", "dev"] => some (.file (.bytes .empty))
    | ["tty", "dev"] => some (.file (.refused .noSuchDevice))
    | ["0", "fd", "self", "proc"] => some (.file .input)
    | ["exe", "self", "proc"] => some (.file (.refused .notText))
    | name :: folder =>
        if folder = workingPlace then (d.lookup name).map fun b => .file (.bytes b) else none
    | [] => none

/-- What lies at the end of a path that is split at its slashes. Empty parts and single dots stay
    where they are, and double dots go up, at the root no further; a path must not lead through a
    file. -/
def walk (d : Directory) (place : Place) : List String → Except ReadError Content
  | [] => .error .isADirectory
  | part :: rest =>
      if part = "" ∨ part = "." then d.walk place rest
      else if part = ".." then d.walk place.tail rest
      else if nameLimit < part.utf8ByteSize then .error .nameTooLong
      else
        let next := Place.follow (part :: place)
        match d.entry? next with
        | none => .error .notFound
        | some .folder => d.walk next rest
        | some (.file content) => if rest.isEmpty then .ok content else .error .notADirectory

/-- What lies at a path; a path that begins with a slash starts at the root. -/
def lookUp (d : Directory) (path : String) : Except ReadError Content :=
  if path = "" then .error .notFound
  else if pathLimit < path.utf8ByteSize then .error .nameTooLong
  else d.walk (if path.startsWith "/" then [] else workingPlace) (path.splitOn "/")

end Directory

/-! ## Environment -/

/-- An environment with the files of a directory; the state is what is left of the standard
    input. -/
def Environment.ofDirectory (d : Directory) : Environment (StateM ByteArray) where
  fileText path :=
    match d.lookUp path with
    | .ok content => return (← content.take).bind textOfBytes
    | .error e => return .error e
  inputText := return (← Content.input.take).bind textOfBytes

end Formula.Command
