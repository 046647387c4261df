import ChangePairs.Path
import ChangePairs.Text.Utf8

/-!
What the library asks a file system.  Paths are absolute and normal.  The monad is that of the
host, so that a file system may be given as a value as well as be the real one.
-/

namespace ChangePairs

structure FileSystem (m : Type → Type) where
  isFile : Path → m Bool
  isDirectory : Path → m Bool
  /-- The octets of a file, or `none` if it cannot be opened. -/
  read : Path → m (Option Octets)
  /-- The octets of a file in the parts in which they are read one after another. -/
  readParts : Path → m (Option (List Octets))

end ChangePairs
