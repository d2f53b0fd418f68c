import JarFacts.Config.Basic

/-!
# Output directories

Every archive of a run gets a directory of its own below the output root, named like the archive
without its extension.  Where that name is taken, the smallest number that makes a new one is added.
Names that any archive of the run would have without a number are never made that way.
-/

namespace JarFacts.OutputDirectory

/-- Is the directory among others? -/
def isAmong (directory : String) (others : List String) : Bool :=
  others.any fun other => Path.same directory other

/-- The directory with a number. -/
def numbered (directory : String) (number : Nat) : String :=
  directory ++ "-" ++ toString number

/-- The first of so many numbers, from `number` on, that makes a directory not among `taken`. -/
def firstFree (directory : String) (taken : List String) : (tries number : Nat) → String
  | 0, number => numbered directory number
  | tries + 1, number =>
    if isAmong (numbered directory number) taken then firstFree directory taken tries (number + 1)
    else numbered directory number

/-- Directories for archives, in order.  `plain` are the directories they would have alone; `taken`
may not be made with a number; `assigned` have been given to archives before.  The numbers from two
on that are tried are one more than the directories taken, so that one of them is free. -/
def assign (taken assigned : List String) : List String → List String
  | [] => []
  | directory :: plain =>
    if isAmong directory assigned then
      let made := firstFree directory taken taken.length 2
      made :: assign (made :: taken) assigned plain
    else directory :: assign taken (directory :: assigned) plain

/-- The directories of the archives of a run, in order. -/
def ofJars (root : String) (jars : List String) : List String :=
  let plain := jars.map (jarDirectory root)
  assign plain [] plain

end JarFacts.OutputDirectory
