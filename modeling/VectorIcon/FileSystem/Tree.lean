import VectorIcon.FileSystem.Host

/-!
# Trees of files

A tree of files as a value, seen from one of its directories. A file has the names of the directories that it
is in, from the top of the tree down, and its own name; a directory is there when a file is below it, or when it
or a directory below it was made. Paths from the root start at the top, all others at the current directory.
`Session` is a run of a program on such a tree, with what it writes.
-/

namespace VectorIcon

/-- Files with their contents, and directories, as they are seen from the directory of some names. A run does
not change which directory this is. -/
structure FileTree (current : List String := []) where
  files : List (List String × ByteArray)
  directories : List (List String) := []

namespace FileTree

variable {current : List String}

/-- The content of the file of some names. -/
def content? (t : FileTree current) (names : List String) : Option ByteArray :=
  t.files.lookup names

/-- There is a directory of some names. The current directory is always one, and so are those that it is in. -/
def hasDirectory (t : FileTree current) (names : List String) : Bool :=
  names.isPrefixOf current || t.directories.any (names.isPrefixOf ·)
    || t.files.any fun file => names.isPrefixOf file.1 && names != file.1

/-- The fault of a step that needs a directory where there is none. -/
def stepFault (t : FileTree current) (names : List String) : FileFault :=
  if (t.content? names).isSome then .notDirectory else .missing

/-- The names that a step leads to. The step up from the top stays there. -/
def next (names : List String) : FilePath.Component → List String
  | .name name => names ++ [name]
  | .here => names
  | .up => names.dropLast
  | .root => []

/-- The names after some steps, each of which is taken from a directory. -/
def walk (t : FileTree current) : List String → List FilePath.Component → Except FileFault (List String)
  | names, [] => .ok names
  | names, step :: steps =>
    if t.hasDirectory names then t.walk (next names step) steps
    else .error (t.stepFault names)

/-- The path says by its end that it is a directory. -/
def endsAsDirectory (path : FilePath) : Bool :=
  let s := path.text.toList
  s.getLast? == some '/' || ['/', '.'].isSuffixOf s

/-- The names that a path leads to. -/
def locate (t : FileTree current) (path : FilePath) : Except FileFault (List String) :=
  if path.text.isEmpty then .error .missing
  else do
    let names ← t.walk current path.components
    if endsAsDirectory path && (t.content? names).isSome then .error .notDirectory else return names

/-- The bytes of a file. -/
def read (t : FileTree current) (path : FilePath) : Except FileFault ByteArray := do
  let names ← t.locate path
  match t.content? names with
  | some bytes => return bytes
  | none => .error (if t.hasDirectory names then .isDirectory else .missing)

/-- There is a directory at a path. -/
def isDirectory (t : FileTree current) (path : FilePath) : Bool :=
  match t.locate path with
  | .ok names => t.hasDirectory names
  | .error _ => false

/-- There is a file or a directory at a path. -/
def isPresent (t : FileTree current) (path : FilePath) : Bool :=
  match t.locate path with
  | .ok names => t.hasDirectory names || (t.content? names).isSome
  | .error _ => false

/-- The files below a directory, each with the path of the directory in front. -/
def filesBelow (t : FileTree current) (path : FilePath) : List FilePath :=
  match t.locate path with
  | .error _ => []
  | .ok names =>
    (t.files.filter fun file => names.isPrefixOf file.1 && names != file.1).map fun file =>
      (file.1.drop names.length).foldl FilePath.join path

/-- The tree with a directory of some names. -/
def makeDirectory (t : FileTree current) (names : List String) : FileTree current :=
  if t.hasDirectory names then t else { t with directories := t.directories ++ [names] }

/-- The tree with the directories of some steps made. A file stands in the way: at the last step it is
there already, at an earlier one it is no directory. -/
def makeDirectories (t : FileTree current) :
    List String → List FilePath.Component → Except FileFault Unit × FileTree current
  | _, [] => (.ok (), t)
  | names, step :: steps =>
    let names := next names step
    match step with
    | .name _ =>
      if (t.content? names).isSome then
        (.error (if steps.isEmpty then .alreadyThere else .notDirectory), t)
      else (t.makeDirectory names).makeDirectories names steps
    | _ => t.makeDirectories names steps

/-- The files with one content put in the place of an earlier one, or at the end. -/
def setContent (names : List String) (bytes : ByteArray) :
    List (List String × ByteArray) → List (List String × ByteArray)
  | [] => [(names, bytes)]
  | file :: files =>
    if file.1 = names then (names, bytes) :: files else file :: setContent names bytes files

/-- The tree with a file written into a directory that is there. -/
def write (t : FileTree current) (path : FilePath) (bytes : ByteArray) :
    Except FileFault Unit × FileTree current :=
  match t.locate path with
  | .error fault => (.error fault, t)
  | .ok names =>
    if t.hasDirectory names || endsAsDirectory path then (.error .isDirectory, t)
    else if !t.hasDirectory names.dropLast then (.error (t.stepFault names.dropLast), t)
    else (.ok (), { t with files := setContent names bytes t.files })

/-- The tree with a file written and the directories that it is in. -/
def save (t : FileTree current) (path : FilePath) (bytes : ByteArray) :
    Except FileFault Unit × FileTree current :=
  match t.makeDirectories current path.components.dropLast with
  | (.ok _, t) => t.write path bytes
  | (.error fault, t) => (.error fault, t)

end FileTree

/-- A run on a tree of files: the tree, what is passed in, and what is written. -/
structure Session (current : List String := []) where
  tree : FileTree current
  input : ByteArray
  output : String := ""
  errors : String := ""

namespace Session

/-- The host of a run on a tree of files. -/
def host {current : List String} : Host (StateM (Session current)) where
  read path := do return (← get).tree.read path
  readInput := do return (← get).input
  isDirectory path := do return (← get).tree.isDirectory path
  isPresent path := do return (← get).tree.isPresent path
  filesBelow path := do return (← get).tree.filesBelow path
  save path text := modifyGet fun s =>
    let (result, tree) := s.tree.save path text.toUTF8
    (result, { s with tree })
  print text := modify fun s => { s with output := s.output ++ text }
  report text := modify fun s => { s with errors := s.errors ++ text }

end Session

end VectorIcon
