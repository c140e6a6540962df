import RadiusDictionary.Text.Lowercase

/-! # Identifiers of the generated source

Dictionary names are free texts; the source generated from them needs identifiers. `sanitize` keeps
what an identifier may hold, `typeName` and `moduleName` give an attribute's type and module, and
`Identifier.escape` writes an identifier so that no keyword gets in the way. -/

namespace RadiusDictionary

/-- Whether a character may stand in an identifier. -/
def isIdentifierChar (c : Char) : Bool := c.isAlphanum || c == '_'

/-- The identifier characters of a text, hyphens read as underscores. -/
def identifierChars (cs : List Char) : List Char :=
  (cs.map fun c => if c = '-' then '_' else c).filter isIdentifierChar

/-- An underscore before a leading digit, or in place of nothing. -/
def guardStart : List Char → List Char
  | [] => ['_']
  | c :: cs => if c.isDigit then '_' :: c :: cs else c :: cs

/-- A name as an identifier: hyphens become underscores, what no identifier holds is dropped, and
the result starts with a letter or an underscore. -/
def sanitize (name : String) : String := .ofList (guardStart (identifierChars name.toList))

/-- The type generated for an attribute. -/
def typeName (attributeName : String) : String := "Attr_" ++ sanitize attributeName

/-- The module generated for an attribute, and the stem of its file. -/
def moduleName (attributeName : String) : String :=
  "attr_" ++ Text.lowercaseAscii (sanitize attributeName)

namespace Identifier

/-- The keywords that name places in a module path. They have no raw form. -/
def pathKeywords : List String := ["self", "Self", "super", "crate"]

/-- The other keywords, those of every edition together. -/
def keywords : List String :=
  ["abstract", "as", "async", "await", "become", "box", "break", "const", "continue", "do",
   "dyn", "else", "enum", "extern", "false", "final", "fn", "for", "gen", "if", "impl", "in",
   "let", "loop", "macro", "match", "mod", "move", "mut", "override", "priv", "pub", "ref",
   "return", "static", "struct", "trait", "true", "try", "type", "typeof", "unsafe", "unsized",
   "use", "virtual", "where", "while", "yield"]

/-- Whether an identifier names a place in a module path. -/
def isPathKeyword (ident : String) : Bool := pathKeywords.contains ident

/-- An identifier as it is written: keywords in raw form, and an underscore after the words that
have no raw form. -/
def escape (ident : String) : String :=
  if ident = "_" || isPathKeyword ident then ident ++ "_"
  else if keywords.contains ident then "r#" ++ ident
  else ident

end Identifier

end RadiusDictionary
