/-!
# What the program asks the system

Whether a file can be created, and whether a point in time can be told, is for the system to say.
The program takes a `System` for this, which answers such questions, and has no answers of its own.
-/

set_option autoImplicit false

namespace TileCache.Program

/-- Why a file cannot be created or written. -/
inductive FileError
  | noSuchDirectory
  | noDevice
  | accessDenied
  | notDirectory
  | isDirectory
  | noRoom
  | nameTooLong
deriving DecidableEq

def FileError.message : FileError → String
  | noSuchDirectory => "No such file or directory (os error 2)"
  | noDevice => "No such device or address (os error 6)"
  | accessDenied => "Permission denied (os error 13)"
  | notDirectory => "Not a directory (os error 20)"
  | isDirectory => "Is a directory (os error 21)"
  | noRoom => "No space left on device (os error 28)"
  | nameTooLong => "File name too long (os error 36)"

/-- Where a file has been created. -/
inductive Destination
  /-- In the working directory, under this name. -/
  | here (name : String)
  | elsewhere
  /-- Where there is no room for anything. -/
  | full
deriving DecidableEq

namespace Destination

/-- The name of the file in the working directory, if it is there. -/
def name? : Destination → Option String
  | here name => some name
  | elsewhere | full => none

end Destination

/-- The answers of a system. -/
structure System where
  /-- Can the point in time be told that is so many seconds ahead? -/
  canTell : Nat → Bool
  /-- What comes of creating the file at a path. -/
  createFile : String → Except FileError Destination

end TileCache.Program
