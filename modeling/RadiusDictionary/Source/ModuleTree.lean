import RadiusDictionary.Identifier
import RadiusDictionary.OrderedMap

/-! # Trees of vendor modules

The namespaces of the vendors make a tree of modules. A node at which a vendor's namespace ends has
a file of its own, its loader; the nodes in between are written as inline modules. `items` are the
declarations that a loader makes for the nodes below it: it stops at the next loader, which declares
what is below itself. -/

namespace RadiusDictionary

/-- A node of the tree, with the nodes below it by name. -/
structure ModuleTree where
  isLoader : Bool
  children : OrderedMap String ModuleTree

/-- The declaration of a module. -/
inductive ModuleItem where
  /-- A module in a file of its own. -/
  | file (name : String)
  /-- A module written where it is declared. -/
  | inline (name : String) (items : List ModuleItem)

namespace ModuleTree

/-- The tree without modules. -/
def empty : ModuleTree := ⟨false, ∅⟩

instance : Inhabited ModuleTree := ⟨empty⟩

/-- The tree with a loader at the end of a path. -/
def insert : (path : List String) → ModuleTree → ModuleTree
  | [], t => ⟨true, t.children⟩
  | name :: path, t =>
    ⟨t.isLoader, t.children.insert name (insert path ((t.children.get? name).getD empty))⟩

/-- The tree of the paths, inserted one after the other. -/
def ofPaths (paths : List (List String)) : ModuleTree :=
  paths.foldl (fun t path => t.insert path) empty

/-- The node at the end of a path. -/
def node? : (path : List String) → ModuleTree → Option ModuleTree
  | [], t => some t
  | name :: path, t =>
    match t.children.get? name with
    | none => none
    | some child => node? path child

mutual

/-- The declarations for the nodes below this one. -/
def items : ModuleTree → List ModuleItem
  | ⟨_, ⟨entries⟩⟩ => itemsOf entries

/-- The declarations for the nodes of a map's entries. -/
def itemsOf : List (String × ModuleTree) → List ModuleItem
  | [] => []
  | (name, t) :: rest =>
    (if t.isLoader then .file name else .inline name t.items) :: itemsOf rest

end

end ModuleTree

namespace ModuleItem

/-- The name of the declared module. -/
def name : ModuleItem → String
  | file name => name
  | inline name _ => name

mutual

/-- The lines of a declaration, `indent` in front of each. -/
def lines (indent : String) : ModuleItem → List String
  | file name => [indent ++ "pub mod " ++ Identifier.escape name ++ ";"]
  | inline name items =>
    (indent ++ "pub mod " ++ Identifier.escape name ++ " \x7b") ::
      (linesOf (indent ++ "    ") items ++ [indent ++ "\x7d"])

/-- The lines of declarations, `indent` in front of each. -/
def linesOf (indent : String) : List ModuleItem → List String
  | [] => []
  | item :: rest => item.lines indent ++ linesOf indent rest

end

end ModuleItem

end RadiusDictionary
