import RadiusDictionary.Attribute
import RadiusDictionary.CommandLine
import RadiusDictionary.Compilation
import RadiusDictionary.Dictionary
import RadiusDictionary.Directive
import RadiusDictionary.Directive.Grammar
import RadiusDictionary.Disk
import RadiusDictionary.Generation
import RadiusDictionary.Generation.AttributeTree
import RadiusDictionary.Generation.Event
import RadiusDictionary.Identifier
import RadiusDictionary.Log
import RadiusDictionary.Main
import RadiusDictionary.Namespace
import RadiusDictionary.Numeral
import RadiusDictionary.OrderedMap
import RadiusDictionary.Path
import RadiusDictionary.Proofs.Directive.ByWords
import RadiusDictionary.Proofs.Directive.Operands
import RadiusDictionary.Proofs.Directive.Phrases
import RadiusDictionary.Proofs.Directive.Words
import RadiusDictionary.Proofs.Disk
import RadiusDictionary.Proofs.Disk.Agreement
import RadiusDictionary.Proofs.Disk.Contents
import RadiusDictionary.Proofs.Disk.Folders
import RadiusDictionary.Proofs.Disk.Steady
import RadiusDictionary.Proofs.Disk.Survey
import RadiusDictionary.Proofs.Generation.Accounts
import RadiusDictionary.Proofs.Generation.Again
import RadiusDictionary.Proofs.Generation.Calls
import RadiusDictionary.Proofs.Generation.CleanRuns
import RadiusDictionary.Proofs.Generation.Consistent
import RadiusDictionary.Proofs.Generation.Counterparts
import RadiusDictionary.Proofs.Generation.Enlisted
import RadiusDictionary.Proofs.Generation.Identity
import RadiusDictionary.Proofs.Generation.InStep
import RadiusDictionary.Proofs.Generation.Isolation
import RadiusDictionary.Proofs.Generation.NamesApart
import RadiusDictionary.Proofs.Generation.OnDisk
import RadiusDictionary.Proofs.Generation.Places
import RadiusDictionary.Proofs.Generation.Plans
import RadiusDictionary.Proofs.Generation.Registered
import RadiusDictionary.Proofs.Generation.Renderings
import RadiusDictionary.Proofs.Generation.Resolved
import RadiusDictionary.Proofs.Generation.Tables
import RadiusDictionary.Proofs.Generation.Tree
import RadiusDictionary.Proofs.Generation.TwinRuns
import RadiusDictionary.Proofs.Generation.TwinTrees
import RadiusDictionary.Proofs.Generation.Twins
import RadiusDictionary.Proofs.Generation.Writes
import RadiusDictionary.Proofs.Identifier
import RadiusDictionary.Proofs.Identifier.Legal
import RadiusDictionary.Proofs.Identifier.Sanitized
import RadiusDictionary.Proofs.Namespace
import RadiusDictionary.Proofs.Numeral
import RadiusDictionary.Proofs.Numeral.Printed
import RadiusDictionary.Proofs.OrderedMap
import RadiusDictionary.Proofs.Path
import RadiusDictionary.Proofs.Path.Below
import RadiusDictionary.Proofs.Path.Descend
import RadiusDictionary.Proofs.Reading.Attempts
import RadiusDictionary.Proofs.Reading.AttributeLines
import RadiusDictionary.Proofs.Reading.Builtin
import RadiusDictionary.Proofs.Reading.Depth
import RadiusDictionary.Proofs.Reading.Effect
import RadiusDictionary.Proofs.Reading.Ends
import RadiusDictionary.Proofs.Reading.Extension
import RadiusDictionary.Proofs.Reading.ExtensionOnce
import RadiusDictionary.Proofs.Reading.Inlining
import RadiusDictionary.Proofs.Reading.Lenient
import RadiusDictionary.Proofs.Reading.Lines
import RadiusDictionary.Proofs.Reading.Moves
import RadiusDictionary.Proofs.Reading.Names
import RadiusDictionary.Proofs.Reading.NestedNumbers
import RadiusDictionary.Proofs.Reading.OpenFiles
import RadiusDictionary.Proofs.Reading.Plain
import RadiusDictionary.Proofs.Reading.Shape
import RadiusDictionary.Proofs.Reading.Strict
import RadiusDictionary.Proofs.Reading.Values
import RadiusDictionary.Proofs.Registry.Declared
import RadiusDictionary.Proofs.Registry.Enumerations
import RadiusDictionary.Proofs.Registry.Growth
import RadiusDictionary.Proofs.Registry.Lasting
import RadiusDictionary.Proofs.Registry.Lookup
import RadiusDictionary.Proofs.Registry.Spots
import RadiusDictionary.Proofs.Source.AliasConstants
import RadiusDictionary.Proofs.Source.AttributeModule
import RadiusDictionary.Proofs.Source.Declarations
import RadiusDictionary.Proofs.Source.Docs
import RadiusDictionary.Proofs.Source.Gains
import RadiusDictionary.Proofs.Source.Lines
import RadiusDictionary.Proofs.Source.LoaderModule
import RadiusDictionary.Proofs.Source.ModuleTree
import RadiusDictionary.Proofs.Source.NamedValues
import RadiusDictionary.Proofs.Text.Lowercase
import RadiusDictionary.Proofs.Text.Pairs
import RadiusDictionary.Proofs.TypeCode
import RadiusDictionary.Registry
import RadiusDictionary.Session
import RadiusDictionary.Session.Event
import RadiusDictionary.Source.AttributeModule
import RadiusDictionary.Source.Banner
import RadiusDictionary.Source.LoaderModule
import RadiusDictionary.Source.ModuleTree
import RadiusDictionary.Text.Blank
import RadiusDictionary.Text.CaseTables
import RadiusDictionary.Text.CharRange
import RadiusDictionary.Text.Front
import RadiusDictionary.Text.Lowercase
import RadiusDictionary.Text.Pieces
import RadiusDictionary.Text.PrintTables
import RadiusDictionary.Text.Quoted
import RadiusDictionary.TypeCode
import RadiusDictionary.ValueKind
