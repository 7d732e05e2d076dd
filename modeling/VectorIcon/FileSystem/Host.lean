import VectorIcon.FileSystem.Fault
import VectorIcon.FileSystem.Path

/-!
# What a program asks of its host

A program reads and writes through the operations of a `Host`, so that the same program runs on the files
of a machine and on a tree of files that is a value.
-/

namespace VectorIcon

/-- The operations that a host offers. -/
structure Host (m : Type → Type) where
  /-- The bytes of a file. -/
  read : FilePath → m (Except FileFault ByteArray)
  /-- The bytes that are passed to the program. -/
  readInput : m ByteArray
  /-- There is a directory at a path. -/
  isDirectory : FilePath → m Bool
  /-- There is a file or a directory at a path. -/
  isPresent : FilePath → m Bool
  /-- The files below a directory, each with the path of the directory in front. -/
  filesBelow : FilePath → m (List FilePath)
  /-- Writes a file, and before that the directories that it is in. -/
  save : FilePath → String → m (Except FileFault Unit)
  /-- Writes to the output. -/
  print : String → m Unit
  /-- Writes to the output for errors. -/
  report : String → m Unit

namespace Host

variable {m : Type → Type} [Monad m]

/-- The text of a file. -/
def readText (host : Host m) (path : FilePath) : m (Except FileFault String) := do
  return (← host.read path).bind textOfBytes

/-- Writes a line to the output. -/
def printLine (host : Host m) (line : String) : m Unit :=
  host.print (line ++ "\n")

/-- Writes a line to the output for errors. -/
def reportLine (host : Host m) (line : String) : m Unit :=
  host.report (line ++ "\n")

end Host

end VectorIcon
