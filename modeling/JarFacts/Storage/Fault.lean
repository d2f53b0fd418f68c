/-!
# Why a file operation fails
-/

namespace JarFacts

/-- Why a file operation fails. -/
inductive StorageFault where
  | notFound
  | alreadyExists
  | notADirectory
  | isADirectory
  | refused
  deriving DecidableEq

/-- The fault in words. -/
def StorageFault.message : StorageFault → String
  | notFound => "No such file or directory"
  | alreadyExists => "File exists"
  | notADirectory => "Not a directory"
  | isADirectory => "Is a directory"
  | refused => "Input/output error"

end JarFacts
