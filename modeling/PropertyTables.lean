import PropertyTables.Attribute
import PropertyTables.Bitfield
import PropertyTables.CommandLine.Arguments
import PropertyTables.CommandLine.Request
import PropertyTables.CommandLine.Respond
import PropertyTables.Constant
import PropertyTables.Document.Basic
import PropertyTables.Document.Decode
import PropertyTables.Document.ToSchema
import PropertyTables.Error
import PropertyTables.Error.Report
import PropertyTables.Extension
import PropertyTables.Handle
import PropertyTables.HandleTable
import PropertyTables.Json.Basic
import PropertyTables.Json.Term
import PropertyTables.Json.Token
import PropertyTables.Main
import PropertyTables.Path.Basic
import PropertyTables.Path.Enumeration
import PropertyTables.Proofs.Acceptance
import PropertyTables.Proofs.Addressing
import PropertyTables.Proofs.Ambiguity
import PropertyTables.Proofs.Appending
import PropertyTables.Proofs.AttributeBits
import PropertyTables.Proofs.BaseChains
import PropertyTables.Proofs.Bitfield
import PropertyTables.Proofs.CompileFaults
import PropertyTables.Proofs.CompileOrder
import PropertyTables.Proofs.ConstantPrefix
import PropertyTables.Proofs.DeclaredBases
import PropertyTables.Proofs.Descent
import PropertyTables.Proofs.DocumentTrees
import PropertyTables.Proofs.EditFrame
import PropertyTables.Proofs.ExtensionOffset
import PropertyTables.Proofs.FieldGraph
import PropertyTables.Proofs.Footprint
import PropertyTables.Proofs.Forest
import PropertyTables.Proofs.Growth
import PropertyTables.Proofs.HandleTable
import PropertyTables.Proofs.Inheritance
import PropertyTables.Proofs.InheritedFields
import PropertyTables.Proofs.Isolation
import PropertyTables.Proofs.LayeredOrder
import PropertyTables.Proofs.Letters
import PropertyTables.Proofs.Loading
import PropertyTables.Proofs.LoadingCalls
import PropertyTables.Proofs.LoadingOutcome
import PropertyTables.Proofs.NestedSymbols
import PropertyTables.Proofs.NestedTables
import PropertyTables.Proofs.Numerals
import PropertyTables.Proofs.Outcome
import PropertyTables.Proofs.OwnedFields
import PropertyTables.Proofs.Packing
import PropertyTables.Proofs.ParentLookup
import PropertyTables.Proofs.PathOrder
import PropertyTables.Proofs.ResourceBytes
import PropertyTables.Proofs.ResourceLiterals
import PropertyTables.Proofs.ResourceText
import PropertyTables.Proofs.RootSymbol
import PropertyTables.Proofs.SchemaTables
import PropertyTables.Proofs.Siblings
import PropertyTables.Proofs.SnakeCase
import PropertyTables.Proofs.UnitLookup
import PropertyTables.Proofs.UnitTables
import PropertyTables.Proofs.VerifiedPaths
import PropertyTables.Proofs.VerifiedSchema
import PropertyTables.Proofs.WellFormedUnits
import PropertyTables.Proofs.Widening
import PropertyTables.Proofs.WordBoundaries
import PropertyTables.Resource.Basic
import PropertyTables.Resource.Literal
import PropertyTables.Schema.Basic
import PropertyTables.Schema.Edit
import PropertyTables.Schema.Names
import PropertyTables.Text.CaseMap
import PropertyTables.Text.Casing
import PropertyTables.Text.CharClass
import PropertyTables.Text.CodePoints
import PropertyTables.Text.Escaped
import PropertyTables.Text.Hex
import PropertyTables.Text.Printable
import PropertyTables.Text.Quoted
import PropertyTables.Total
import PropertyTables.Unit.Compile
import PropertyTables.Unit.Json
import PropertyTables.Unit.Tables
import PropertyTables.Verify
import PropertyTables.Verify.Extends
import PropertyTables.Verify.Siblings
import PropertyTables.Version
