import XmlAdvisor.Advice.Action
import XmlAdvisor.Advice.Advisor
import XmlAdvisor.Advice.Completion
import XmlAdvisor.Advice.Diagnose
import XmlAdvisor.Advice.Fix
import XmlAdvisor.Advice.Hover
import XmlAdvisor.Advice.RequiredAttribute
import XmlAdvisor.Advice.RequiredElement
import XmlAdvisor.Binding.Reference
import XmlAdvisor.Binding.Store
import XmlAdvisor.CommandLine.Arguments
import XmlAdvisor.CommandLine.Report
import XmlAdvisor.CommandLine.Run
import XmlAdvisor.Document
import XmlAdvisor.Domain.Basic
import XmlAdvisor.Domain.Composition
import XmlAdvisor.Domain.Direction
import XmlAdvisor.Domain.Joining
import XmlAdvisor.Domain.Mapping
import XmlAdvisor.Domain.MappingTable
import XmlAdvisor.Domain.Punycode
import XmlAdvisor.Dtd.Basic
import XmlAdvisor.Dtd.Read
import XmlAdvisor.Editor.Action
import XmlAdvisor.Editor.Decode
import XmlAdvisor.Editor.Diagnostic
import XmlAdvisor.Editor.Edit
import XmlAdvisor.Editor.Encode
import XmlAdvisor.Grammar.Basic
import XmlAdvisor.Grammar.Declaration
import XmlAdvisor.Insertion.Outline
import XmlAdvisor.Insertion.Snippet
import XmlAdvisor.Json.Basic
import XmlAdvisor.Json.Read
import XmlAdvisor.Json.Record
import XmlAdvisor.Location.FilePath
import XmlAdvisor.Location.Generic
import XmlAdvisor.Location.Glob
import XmlAdvisor.Location.Host
import XmlAdvisor.Location.Percent
import XmlAdvisor.Location.Url
import XmlAdvisor.Main
import XmlAdvisor.Markup.Fault
import XmlAdvisor.Markup.Name
import XmlAdvisor.Markup.Scanner
import XmlAdvisor.Markup.Token
import XmlAdvisor.Proofs.AcceptedChildren
import XmlAdvisor.Proofs.ActionListing
import XmlAdvisor.Proofs.ActionRequests
import XmlAdvisor.Proofs.ActionResolving
import XmlAdvisor.Proofs.Alternatives
import XmlAdvisor.Proofs.AttributeInsertion
import XmlAdvisor.Proofs.AttributePresence
import XmlAdvisor.Proofs.AttributeReach
import XmlAdvisor.Proofs.AttributeValues
import XmlAdvisor.Proofs.AttributeWays
import XmlAdvisor.Proofs.BuiltAlike
import XmlAdvisor.Proofs.Cancellations
import XmlAdvisor.Proofs.ChildDeclarations
import XmlAdvisor.Proofs.ClosedSchemas
import XmlAdvisor.Proofs.CombinedBodies
import XmlAdvisor.Proofs.CompiledSchema
import XmlAdvisor.Proofs.CompleteOutlines
import XmlAdvisor.Proofs.CompletionSites
import XmlAdvisor.Proofs.ContentCheck
import XmlAdvisor.Proofs.ContentEdits
import XmlAdvisor.Proofs.ContentInsertion
import XmlAdvisor.Proofs.ContentLanguage
import XmlAdvisor.Proofs.DeclarationEnds
import XmlAdvisor.Proofs.DeclarationExtents
import XmlAdvisor.Proofs.DeclarationReading
import XmlAdvisor.Proofs.DeclaredAttributes
import XmlAdvisor.Proofs.DefinitionAssembly
import XmlAdvisor.Proofs.DefinitionContent
import XmlAdvisor.Proofs.DefinitionMarkup
import XmlAdvisor.Proofs.DefinitionReading
import XmlAdvisor.Proofs.DefinitionSpelling
import XmlAdvisor.Proofs.DocumentElements
import XmlAdvisor.Proofs.DocumentRepairs
import XmlAdvisor.Proofs.EditPlaces
import XmlAdvisor.Proofs.ElementDocumentation
import XmlAdvisor.Proofs.ElementViews
import XmlAdvisor.Proofs.FaultOffsets
import XmlAdvisor.Proofs.FlatContent
import XmlAdvisor.Proofs.GeneratedElements
import XmlAdvisor.Proofs.GrammarLanguage
import XmlAdvisor.Proofs.IncompleteReports
import XmlAdvisor.Proofs.InnermostElements
import XmlAdvisor.Proofs.KeptEdits
import XmlAdvisor.Proofs.LoweredLanguage
import XmlAdvisor.Proofs.LoweredPatterns
import XmlAdvisor.Proofs.MovedScans
import XmlAdvisor.Proofs.MovedTrees
import XmlAdvisor.Proofs.NamespaceScopes
import XmlAdvisor.Proofs.NecessaryElements
import XmlAdvisor.Proofs.NextElements
import XmlAdvisor.Proofs.NodeNesting
import XmlAdvisor.Proofs.NodeStarts
import XmlAdvisor.Proofs.OfferedGrammars
import XmlAdvisor.Proofs.OfferedValues
import XmlAdvisor.Proofs.OutlineTrees
import XmlAdvisor.Proofs.ParsedTrees
import XmlAdvisor.Proofs.PositionOrder
import XmlAdvisor.Proofs.Positions
import XmlAdvisor.Proofs.PseudoAttributes
import XmlAdvisor.Proofs.QualifiedNames
import XmlAdvisor.Proofs.Reachability
import XmlAdvisor.Proofs.Relocation
import XmlAdvisor.Proofs.ReplacedContent
import XmlAdvisor.Proofs.ReplacedValues
import XmlAdvisor.Proofs.ReportedChildren
import XmlAdvisor.Proofs.ReportedViolations
import XmlAdvisor.Proofs.Reporting
import XmlAdvisor.Proofs.ResolvedNames
import XmlAdvisor.Proofs.ScanEndings
import XmlAdvisor.Proofs.ScanPrefixes
import XmlAdvisor.Proofs.ScanRuns
import XmlAdvisor.Proofs.ScanSteps
import XmlAdvisor.Proofs.Scanning
import XmlAdvisor.Proofs.SchemaContent
import XmlAdvisor.Proofs.SchemaLanguage
import XmlAdvisor.Proofs.SchemaReading
import XmlAdvisor.Proofs.SkippedDeclarations
import XmlAdvisor.Proofs.SnippetExpansion
import XmlAdvisor.Proofs.SnippetReading
import XmlAdvisor.Proofs.SoleAlternatives
import XmlAdvisor.Proofs.SourceLanguage
import XmlAdvisor.Proofs.SpanTexts
import XmlAdvisor.Proofs.StartTags
import XmlAdvisor.Proofs.StoreFreshness
import XmlAdvisor.Proofs.StoreSharing
import XmlAdvisor.Proofs.StrayEndTags
import XmlAdvisor.Proofs.StrayTokens
import XmlAdvisor.Proofs.SubsetGrammar
import XmlAdvisor.Proofs.SubsetReading
import XmlAdvisor.Proofs.TagPlaces
import XmlAdvisor.Proofs.TagRuns
import XmlAdvisor.Proofs.TagScans
import XmlAdvisor.Proofs.TagTokens
import XmlAdvisor.Proofs.TextSplices
import XmlAdvisor.Proofs.TokenOrder
import XmlAdvisor.Proofs.TokenSpans
import XmlAdvisor.Proofs.TokenSpellings
import XmlAdvisor.Proofs.TreeLanguage
import XmlAdvisor.Proofs.TreeNesting
import XmlAdvisor.Proofs.TreeOrder
import XmlAdvisor.Proofs.TreeShape
import XmlAdvisor.Proofs.UnfoldedContent
import XmlAdvisor.Proofs.ValueExtents
import XmlAdvisor.Proofs.ValuePlaces
import XmlAdvisor.Proofs.ValueScans
import XmlAdvisor.Proofs.VisitOrder
import XmlAdvisor.Proofs.VisitedElements
import XmlAdvisor.Proofs.Words
import XmlAdvisor.Proofs.WrittenOutlines
import XmlAdvisor.Proofs.WrittenScans
import XmlAdvisor.Proofs.WrittenTokens
import XmlAdvisor.Proofs.WrittenTrees
import XmlAdvisor.Request.Basic
import XmlAdvisor.Request.Error
import XmlAdvisor.Request.Grammars
import XmlAdvisor.Schema.Compile
import XmlAdvisor.Schema.NameClass
import XmlAdvisor.Schema.Pattern
import XmlAdvisor.Schema.Reach
import XmlAdvisor.Schema.Residual
import XmlAdvisor.Schema.Source
import XmlAdvisor.Settings.Basic
import XmlAdvisor.Settings.Read
import XmlAdvisor.Text.Blank
import XmlAdvisor.Text.Codes
import XmlAdvisor.Text.Lines
import XmlAdvisor.Text.Search
import XmlAdvisor.Tree.Basic
import XmlAdvisor.Tree.Build
import XmlAdvisor.Tree.Instruction
import XmlAdvisor.Tree.Lookup
import XmlAdvisor.Validation.Validate
import XmlAdvisor.Validation.Violation
import XmlAdvisor.Validation.Visit
