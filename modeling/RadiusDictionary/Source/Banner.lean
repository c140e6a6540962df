/-! # The banner of generated files -/

namespace RadiusDictionary.Source

/-- The name and version that the banner gives the generator. -/
def generatorName : String := "raddict 0.1.0"

/-- The lines at the top of every generated file. `stamp` says when it was made. -/
def banner (stamp : String) : List String :=
  ["// DO NOT EDIT THIS FILE DIRECTLY! - AUTOMATICALLY GENERATED",
   "// Generated by: " ++ generatorName,
   "// Generated on: " ++ stamp]

end RadiusDictionary.Source
