import ModuleBundle.Path

/-!
What a build may ask about files. A file system is its answers to four questions, each a
function of the path asked about, so that it does not change while a build runs.
-/

set_option autoImplicit false

namespace ModuleBundle

inductive FileError where
  /-- Nothing is kept under a path. -/
  | absent (path : Path)
  /-- What is kept under a path may not be read. -/
  | locked (path : Path)
  | noSuchFile
  | notDirectory
  | isDirectory
  | tooManyLinks
  | notText
  | notPermitted
  | nameTooLong
  /-- A name with the character that ends names for the system. -/
  | nameWithEnd
  deriving DecidableEq, Repr

def FileError.message : FileError → String
  | absent path => path.text ++ " not found"
  | locked path => path.text ++ " is not readable"
  | noSuchFile => "No such file or directory (os error 2)"
  | notDirectory => "Not a directory (os error 20)"
  | isDirectory => "Is a directory (os error 21)"
  | tooManyLinks => "Too many levels of symbolic links (os error 40)"
  | notText => "stream did not contain valid UTF-8"
  | notPermitted => "Permission denied (os error 13)"
  | nameTooLong => "File name too long (os error 36)"
  | nameWithEnd => "file name contained an unexpected NUL byte"

structure FileSystem where
  isFile : Path → Bool
  isDirectory : Path → Bool
  read : Path → Except FileError String
  /-- The path under which the file at a path is known, however it was reached. -/
  canonical : Path → Path

end ModuleBundle
