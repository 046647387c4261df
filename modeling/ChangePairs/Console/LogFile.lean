import ChangePairs.Path

/-!
Log files.  Every directory has one log file at most, however its path is spelled, and a log file
that is open stays open.
-/

namespace ChangePairs
namespace LogFile

/-- The path of a log file in a directory.  The stamp tells when it was opened. -/
def inDirectory (directory : Path) (stamp : Text) : Path :=
  Path.join directory ("learn_".toList ++ stamp ++ ".log".toList)

/-- The open log files after logging to a directory was asked for.  Those of earlier calls come
first. -/
def attach (present : Path) (stamp : Text) (directory : Path) (opened : List Path) : List Path :=
  let d := Path.absolute present directory
  if opened.any fun file => Path.directory file = d then opened
  else opened ++ [Path.absolute present (inDirectory d stamp)]

end LogFile
end ChangePairs
