import CaseUnion.Main
import CaseUnion.Value
import CaseUnion.Proofs.DocumentEditing
import CaseUnion.Proofs.ClosingParenthesis
import CaseUnion.Proofs.OfferedFixes
import CaseUnion.Proofs.CoveredCases
import CaseUnion.Proofs.AppliedFix
import CaseUnion.Proofs.Weaving
import CaseUnion.Proofs.FixRuns
import CaseUnion.Proofs.DeclarationKeys
import CaseUnion.Proofs.Dispatching
import CaseUnion.Proofs.CollectedUnits
import CaseUnion.Proofs.GeneratedFiles
import CaseUnion.Proofs.TypeRendering
import CaseUnion.Proofs.BlamedCharacters
import CaseUnion.Proofs.ReceiverUnions
import CaseUnion.Proofs.InnermostCalls
import CaseUnion.Proofs.RewrittenCalls
import CaseUnion.Proofs.EmittedMembers
import CaseUnion.Proofs.PackedPayloads
import CaseUnion.Proofs.DefinitionLookup
import CaseUnion.Proofs.ReportedInitializations
import CaseUnion.Proofs.JsonText
import CaseUnion.Proofs.StoredFields
import CaseUnion.Proofs.StorableDocuments
import CaseUnion.Proofs.DocumentRoundTrip
import CaseUnion.Proofs.DeclaredUnions
import CaseUnion.Proofs.KeptUnions
import CaseUnion.Proofs.FixRounds
import CaseUnion.Proofs.RepeatedFixing
import CaseUnion.Proofs.ValueEquality
import CaseUnion.Proofs.LoadingOrder
import CaseUnion.Proofs.FlushedUnits
import CaseUnion.Proofs.Loading
import CaseUnion.Proofs.DryRuns
import CaseUnion.Proofs.RefusedHandlers
import CaseUnion.Proofs.SeparateEdits
import CaseUnion.Proofs.NestedSpans
import CaseUnion.Proofs.UndoneEdits
import CaseUnion.Proofs.ReopenedTypes
import CaseUnion.Proofs.ListedDeclarations
import CaseUnion.Proofs.AddedDocuments
import CaseUnion.Proofs.QualifiedNames
import CaseUnion.Proofs.AnnotatedFailures
import CaseUnion.Proofs.LastFlushes
import CaseUnion.Proofs.PrinterLevels
import CaseUnion.Proofs.EmittedNames
import CaseUnion.Proofs.WordOffsets
