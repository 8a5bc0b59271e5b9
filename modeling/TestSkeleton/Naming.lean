import TestSkeleton.Path.Name

/-!
# Names of the generated files

A source file `Foo.cpp` has the header `Foo.h`, the fixture class `FooTest`
and the test file `FooTest.cpp`.  The two extensions and the suffix are
settings, and the stem comes from the source path.
-/

namespace TestSkeleton

/-- How source, header and test files are named. -/
structure Naming where
  /-- The extension of a source file, without the dot. -/
  sourceExtension : String := "cpp"
  /-- The extension of a header, without the dot. -/
  headerExtension : String := "h"
  /-- What the fixture class and the test file add to the stem. -/
  testSuffix : String := "Test"
deriving DecidableEq, Inhabited, Repr

namespace Naming

/-- The stem of the file that a path names. -/
def stemOf (path : String) : String :=
  String.ofList (Path.stem path.toList)

/-- Whether a path names a source file.  The extension has to match exactly. -/
def isSource (naming : Naming) (path : String) : Bool :=
  (Path.extension? path.toList).map String.ofList == some naming.sourceExtension

/-- The name of the header of a source file. -/
def headerOf (naming : Naming) (source : String) : String :=
  stemOf source ++ "." ++ naming.headerExtension

/-- The name of the fixture class for a header. -/
def fixtureOf (naming : Naming) (header : String) : String :=
  stemOf header ++ naming.testSuffix

/-- The name of the test file for a source file. -/
def testFileOf (naming : Naming) (source : String) : String :=
  stemOf source ++ naming.testSuffix ++ "." ++ naming.sourceExtension

end Naming

end TestSkeleton
