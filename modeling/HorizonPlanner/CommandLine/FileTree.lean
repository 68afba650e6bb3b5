/-
This file keeps a tree of files in memory and runs interactions on it.  A path
that starts with a slash is followed from the root of the tree and every other
one from the current folder.
-/

import HorizonPlanner.CommandLine.Interaction
import HorizonPlanner.CommandLine.Path

namespace HorizonPlanner.CommandLine

/-! ### Trees -/

/-- The way to a file or a folder: the names on it, from the root. -/
abbrev Way := List String

/-- What a name in a folder stands for. -/
inductive Entry where
  | file (content : Content)
  | folder (entries : List (String × Entry))

namespace Entry

/-- The entries of a folder; a file has none. -/
def entries : Entry → List (String × Entry)
  | .file _ => []
  | .folder entries => entries

/-- The entry of a folder with a name. -/
def find? (entry : Entry) (name : String) : Option Entry := entry.entries.lookup name

/-- The entry at the end of a way. -/
def at? (entry : Entry) : Way → Option Entry
  | [] => some entry
  | name :: rest => match entry.find? name with
    | some inner => inner.at? rest
    | none => none

/-- A folder in which a name stands for an entry. -/
def withEntry (folder : Entry) (name : String) (entry : Entry) : Entry :=
  if (folder.find? name).isSome then
    .folder (folder.entries.map fun known => if known.1 == name then (name, entry) else known)
  else .folder (folder.entries ++ [(name, entry)])

/-- A folder in which an entry is put at the end of a way.  Folders on the way that are not there
are made. -/
def put (folder : Entry) (way : Way) (entry : Entry) : Entry :=
  match way with
  | [] => entry
  | name :: rest =>
    folder.withEntry name (((folder.find? name).getD (.folder [])).put rest entry)

mutual

/-- The files below an entry, with the ways there; the names that lead to the entry itself are
given, the last one first. -/
def files (names : Way) : Entry → List (Way × Content)
  | .file content => [(names.reverse, content)]
  | .folder entries => filesAmong names entries

/-- The files below some entries of a folder. -/
def filesAmong (names : Way) : List (String × Entry) → List (Way × Content)
  | [] => []
  | (name, entry) :: rest => files (name :: names) entry ++ filesAmong names rest

end

end Entry

/-- The root of all folders, and the way to the current one. -/
structure FileTree where
  root : Entry
  current : Way

namespace FileTree

/-- The way to the folder that a new tree has for the current one. -/
def workplace : Way := ["tmp", "current"]

/-- The way to the folder of the running programs, in which nothing can be made. -/
def programFolder : Way := ["proc"]

/-- The ways to the folders of a new tree. -/
def systemFolders : List Way :=
  [["bin"], ["boot"], ["dev", "shm"], ["etc"], ["home"], ["lib"], ["lib64"], ["media"], ["mnt"],
    ["opt"], programFolder, ["root"], ["run"], ["sbin"], ["srv"], ["sys"], workplace,
    ["usr", "bin"], ["usr", "lib"], ["usr", "local"], ["usr", "share"], ["var", "log"],
    ["var", "tmp"]]

/-- The way to the file that takes everything and gives nothing back. -/
def nullFile : Way := ["dev", "null"]

/-- The way to the file that takes nothing. -/
def fullFile : Way := ["dev", "full"]

/-- The files of a new tree. -/
def systemFiles : List (Way × Content) :=
  [(nullFile, .text ""), (fullFile, .text ""),
    (["etc", "hosts"], .text "127.0.0.1\tlocalhost\n"),
    (["etc", "passwd"], .text "root:x:0:0:root:/root:/bin/sh\n"),
    (programFolder ++ ["cpuinfo"], .text "processor\t: 0\n"),
    (programFolder ++ ["self", "status"], .text "Name:\tplanner\n"),
    (programFolder ++ ["version"], .text "Linux version\n")]

/-- A tree with some files in its current folder or in folders below it. -/
def ofFiles (files : List (String × String)) : FileTree :=
  let placed := files.map fun (name, content) =>
    (workplace ++ name.splitToList (· == '/'), Content.text content)
  let folders := systemFolders.foldl (fun root way => root.put way (.folder [])) (.folder [])
  { root := (systemFiles ++ placed).foldl (fun root file => root.put file.1 (.file file.2)) folders
    current := workplace }

/-! ### Paths -/

/-- What a path leads to.  An absent file could be made.  The path of a file may end in a slash,
which asks for a folder. -/
inductive Place where
  | folder (way : Way)
  | file (way : Way) (slash : Bool)
  | absent (way : Way) (slash : Bool)

/-- The largest number of bytes in a name. -/
def nameLimit : Nat := 255

/-- The largest number of bytes in a path. -/
def pathLimit : Nat := 4095

/-- The folders that were entered on the way from the root, with their names, the last one
first. -/
abbrev Trail := List (String × Entry)

/-- The way that a trail went. -/
def Trail.way (trail : Trail) : Way := (trail.map Prod.fst).reverse

/-- The trail of a way from the last folder of another, as far as the way leads through folders. -/
def Trail.extend (root : Entry) (trail : Trail) : Way → Trail
  | [] => trail
  | name :: rest => match ((trail.head?.map Prod.snd).getD root).find? name with
    | some entry => Trail.extend root ((name, entry) :: trail) rest
    | none => trail

/-- Follows the parts of a path from the last folder of a trail.  The root is above itself. -/
def follow (root : Entry) (trail : Trail) : List String → Except FileFault Place
  | [] => .ok (.folder trail.way)
  | part :: rest =>
    if part == "" || part == "." then follow root trail rest
    else if part == ".." then follow root trail.tail rest
    else if nameLimit < part.utf8ByteSize then .error .nameTooLong
    else match ((trail.head?.map Prod.snd).getD root).find? part with
      | some (.folder entries) => follow root ((part, .folder entries) :: trail) rest
      | some (.file _) =>
        if rest.all (· == "") then .ok (.file (trail.way ++ [part]) (!rest.isEmpty))
        else .error .notDirectory
      | none =>
        if rest.all (· == "") && !programFolder.isPrefixOf trail.way then
          .ok (.absent (trail.way ++ [part]) (!rest.isEmpty))
        else .error .missing

/-- What a path leads to, or why the operating system does not follow it. -/
def locate (tree : FileTree) (path : String) : Except Fault Place :=
  if path.contains '\x00' then .error .nullInPath
  else if path == "" then .error (.file .missing path)
  else if pathLimit < path.utf8ByteSize then .error (.file .nameTooLong path)
  else
    let trail := if path.startsWith "/" then [] else Trail.extend tree.root [] tree.current
    (follow tree.root trail (path.splitToList (· == '/'))).mapError (.file · path)

/-- What there is at a path. -/
def look (tree : FileTree) (path : String) : PathKind :=
  match tree.locate path with
  | .ok (.folder _) => .folder
  | .ok (.file _ false) => .file
  | _ => .nothing

/-! ### Files -/

/-- The bytes of a content; those of a picture are left open. -/
def bytesOf : Content → List Nat
  | .text content => content.toUTF8.toList.map UInt8.toNat
  | .picture => []

/-- Reads a file. -/
def read (tree : FileTree) (path : String) : Except Fault (List Nat) :=
  match tree.locate path with
  | .error fault => .error fault
  | .ok (.folder _) => .error (.file .isDirectory path)
  | .ok (.absent ..) => .error (.file .missing path)
  | .ok (.file _ true) => .error (.file .notDirectory path)
  | .ok (.file way false) => match tree.root.at? way with
    | some (.file content) => .ok (bytesOf content)
    | _ => .error (.file .missing path)

/-- A tree in which there is an entry at the end of a way. -/
def put (tree : FileTree) (way : Way) (entry : Entry) : FileTree :=
  { tree with root := tree.root.put way entry }

/-- Writes a file. -/
def write (tree : FileTree) (path : String) (content : Content) : Except Fault FileTree :=
  match tree.locate path with
  | .error fault => .error fault
  | .ok (.folder _) => .error (.file .isDirectory path)
  | .ok (.absent _ true) | .ok (.file _ true) => .error (.file .isDirectory path)
  | .ok (.absent way false) | .ok (.file way false) =>
    if way == nullFile then .ok tree
    else if way == fullFile then .error (.file .noSpace path)
    else .ok (tree.put way (.file content))

/-- Makes one folder. -/
def makeOne (tree : FileTree) (path : String) : Except Fault FileTree :=
  match tree.locate path with
  | .error fault => .error fault
  | .ok (.absent way _) => .ok (tree.put way (.folder []))
  | .ok _ => .error (.file .exists path)

/-- The files below the current folder that another tree does not have, by their paths from
there. -/
def created (tree before : FileTree) : List (String × Content) :=
  let files := ((tree.root.at? tree.current).map (Entry.files [])).getD []
  (files.filter fun (way, _) => match before.root.at? (tree.current ++ way) with
    | some (.file _) => false
    | _ => true).map fun (way, content) => ("/".intercalate way, content)

end FileTree

/-! ### Running interactions -/

/-- What an interaction left behind. -/
structure Transcript where
  printed : String
  complained : String
  records : List String
  tree : FileTree

/-- Runs an interaction on a tree in memory. -/
def Interaction.runOn {β : Type} (transcript : Transcript) : Interaction β → β × Transcript
  | .done result => (result, transcript)
  | .print text next =>
    next.runOn { transcript with printed := transcript.printed ++ text }
  | .complain text next =>
    next.runOn { transcript with complained := transcript.complained ++ text }
  | .warn record next =>
    next.runOn { transcript with records := transcript.records ++ [record] }
  | .read path next => (next (transcript.tree.read path)).runOn transcript
  | .write path content next =>
    match transcript.tree.write path content with
    | .ok tree => (next (.ok ())).runOn { transcript with tree }
    | .error fault => (next (.error fault)).runOn transcript
  | .look path next => (next (transcript.tree.look path)).runOn transcript
  | .makeFolder path next =>
    match transcript.tree.makeOne path with
    | .ok tree => (next (.ok ())).runOn { transcript with tree }
    | .error fault => (next (.error fault)).runOn transcript

end HorizonPlanner.CommandLine
