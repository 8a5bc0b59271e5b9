/-!
# The sample settings file

A settings file that states every default, with a comment for each choice.
-/

namespace TestSkeleton.Settings

/-- The lines of the sample. -/
def sampleLines : List String := [
  "# gtest-scaffold configuration file",
  "# Looked up as .gtest-scaffold.toml in the current directory, then as",
  "# config.toml in the user configuration directory.",
  "",
  "[naming]",
  "# Only files with this extension are accepted (default: \"cpp\")",
  "source_extension = \"cpp\"",
  "",
  "# Extension of the header included by the test file (default: \"h\")",
  "header_extension = \"h\"",
  "",
  "# Appended to the header stem for the fixture class and to the source stem",
  "# for the test file: Foo.cpp -> FooTest.cpp, class FooTest (default: \"Test\")",
  "test_suffix = \"Test\"",
  "",
  "[template]",
  "# Included, in order, before the paired header",
  "includes = [\"pch.h\", \"iostream\", \"gtest/gtest.h\", \"gmock/gmock.h\"]",
  "",
  "# Namespace wrapping the fixture and every case (default: \"unittest\")",
  "namespace = \"unittest\"",
  "",
  "# Base clause of the fixture class",
  "base_class = \"public testing::Test\"",
  "",
  "# Types the typed test suite runs over",
  "type_list = \"bool\"",
  "",
  "# Emit `using X Types`, `TYPED_TEST_SUITE(X, XTypes)` and `EXPECT_EQ`",
  "# instead of the historical run-together forms (default: false)",
  "strict_syntax = false",
  "",
  "# Literal used to initialize locals of a given type. Types are matched",
  "# exactly; anything not listed is left default-constructed.",
  "[initializers]",
  "int = \"0\"",
  "DWORD = \"0\"",
  "string = '\"\"'",
  "wstring = 'L\"\"'",
  "",
  "[prompt]",
  "# Ask for the output directory the first time a source file is seen,",
  "# when stdin is a terminal (default: true)",
  "interactive = true"]

/-- The text of the sample. -/
def sample : String :=
  String.join (sampleLines.map fun line => line ++ "\n")

end TestSkeleton.Settings
