import RadiusDictionary.Numeral
import RadiusDictionary.Source.Banner
import RadiusDictionary.Source.ModuleTree
import RadiusDictionary.Text.Pieces
import RadiusDictionary.Text.Quoted

/-! # Loader modules

Each namespace has a loader, which declares the modules in the namespace and registers their
attributes.

* `Registration`: an attribute under its key, with the modules on the way to it.
* `LoaderKind`: the root loader also knows the loaders of the vendors; a vendor's knows its name.
* `LoaderModule.items`: the modules that the loader declares, attributes before vendors.
* `LoaderModule.render`: the text of the loader's file. -/

namespace RadiusDictionary

/-- The registration of an attribute in a loader. -/
structure Registration where
  key : UInt64
  /-- The modules from the loader to the attribute's, which is the last. -/
  path : List String
  typeName : String
deriving DecidableEq, Repr, Inhabited

/-- The path of the attribute's type as seen from the loader. -/
def Registration.typePath (r : Registration) : String :=
  "::".intercalate (r.path.map Identifier.escape ++ [r.typeName])

/-- The kinds of loaders. -/
inductive LoaderKind where
  /-- The loader of the whole dictionary, with the numbers of the vendors and the paths of their
  loaders. -/
  | root (vendorCodes : List (UInt32 × List String))
  /-- The loader of a vendor. -/
  | vendor (name : String)
deriving DecidableEq, Repr, Inhabited

/-- What goes into a loader. -/
structure LoaderModule where
  /-- The namespace as it is written. -/
  ns : String
  kind : LoaderKind
  registrations : List Registration
  /-- The vendors' modules below the loader. -/
  vendorModules : Option ModuleTree

namespace LoaderModule

/-- The modules of the attributes that lie in the namespace itself. -/
def attributeModules (m : LoaderModule) : List String :=
  m.registrations.filterMap fun r =>
    match r.path with
    | [name] => some name
    | _ => none

/-- The modules that the loader declares. -/
def items (m : LoaderModule) : List ModuleItem :=
  m.attributeModules.map .file ++ (m.vendorModules.map (·.items)).getD []

/-- What the loader imports from the runtime. -/
def runtimeImports (m : LoaderModule) : List String :=
  match m.kind with
  | .root _ => ["AttributeDictionary", "AttributeFactory", "VSADictionary"]
  | .vendor _ => ["AttributeFactory", "VSADictionary"]

/-- The declarations of modules, with a blank line after them if there are any. -/
def itemLines (m : LoaderModule) : List String :=
  if m.items.isEmpty then [] else ModuleItem.linesOf "" m.items ++ [""]

/-- The path of a vendor's loader type. -/
def vendorLoaderPath (path : List String) : String :=
  "::".intercalate (path.map Identifier.escape ++ ["VSADictionaryImpl"])

/-- The beginning of the loader's type, up to what is peculiar to its kind. -/
def kindLines (m : LoaderModule) : List String :=
  match m.kind with
  | .root vendorCodes =>
    ["pub struct AttributeDictionaryImpl;", "",
     "impl AttributeDictionary for AttributeDictionaryImpl \x7b",
     "    fn load_vendor_codes(&self, map: &mut HashMap<u32, &'static dyn VSADictionary>) \x7b"] ++
    vendorCodes.map (fun (number, path) =>
      "        map.insert(" ++ Numeral.decimal number.toNat ++ ", &" ++ vendorLoaderPath path
        ++ ");") ++
    ["    \x7d", ""]
  | .vendor name =>
    ["pub struct VSADictionaryImpl;", "",
     "impl VSADictionary for VSADictionaryImpl \x7b",
     "    fn vendor_name(&self) -> &'static str \x7b",
     "        " ++ Text.quoted name,
     "    \x7d", ""]

/-- The registration of an attribute by its key. -/
def keyLine (r : Registration) : String :=
  "        map.insert(" ++ Numeral.decimal r.key.toNat ++ ", " ++ r.typePath ++ "::create);"

/-- The registration of an attribute by its name. -/
def nameLine (r : Registration) : String :=
  "        map.insert(" ++ r.typePath ++ "::NAME, " ++ r.typePath ++ "::create);"

/-- The lines of the loader's file. -/
def lines (m : LoaderModule) (runtime stamp : String) : List String :=
  Source.banner stamp ++
  ["", "//! Dictionary for namespace " ++ m.ns, ""] ++
  m.itemLines ++
  ["use std::collections::HashMap;",
   "use " ++ runtime ++ "::\x7b" ++ ", ".intercalate m.runtimeImports ++ "\x7d;", ""] ++
  m.kindLines ++
  ["    fn load_attributes(&self, map: &mut HashMap<u64, AttributeFactory>) \x7b"] ++
  m.registrations.map keyLine ++
  ["    \x7d", "",
   "    fn load_attributes_names(&self, map: &mut HashMap<&'static str, AttributeFactory>) \x7b"] ++
  m.registrations.map nameLine ++
  ["    \x7d", "\x7d"]

/-- The text of the loader's file. `runtime` is the path of the library it is used with. -/
def render (m : LoaderModule) (runtime stamp : String) : String :=
  Text.unlines (m.lines runtime stamp)

end LoaderModule

end RadiusDictionary
