import RegisterCatalog.Artifact.AllowList
import RegisterCatalog.Artifact.Bindings
import RegisterCatalog.Artifact.Dependencies
import RegisterCatalog.Artifact.DeviceTable
import RegisterCatalog.Artifact.IdentityHeader
import RegisterCatalog.Artifact.Kind
import RegisterCatalog.Catalog.Basic
import RegisterCatalog.Catalog.Declaration
import RegisterCatalog.Catalog.Directive
import RegisterCatalog.Catalog.Entry
import RegisterCatalog.Catalog.Fault
import RegisterCatalog.Catalog.Forest
import RegisterCatalog.Catalog.Outline
import RegisterCatalog.Catalog.Reader
import RegisterCatalog.CommandLine
import RegisterCatalog.Compilation
import RegisterCatalog.Device
import RegisterCatalog.Failure
import RegisterCatalog.Files.Path
import RegisterCatalog.Files.Program
import RegisterCatalog.Files.Tree
import RegisterCatalog.Header.Definition
import RegisterCatalog.Header.Load
import RegisterCatalog.Header.MacroTable
import RegisterCatalog.Identity
import RegisterCatalog.Level
import RegisterCatalog.Log
import RegisterCatalog.Main
import RegisterCatalog.Manifest.Devices
import RegisterCatalog.Manifest.Format
import RegisterCatalog.Manifest.Settings
import RegisterCatalog.Proofs.CodeLines
import RegisterCatalog.Proofs.EntryIdentity
import RegisterCatalog.Proofs.GreedyWalk
import RegisterCatalog.Proofs.Hexadecimal
import RegisterCatalog.Proofs.IndexTuples
import RegisterCatalog.Proofs.Numbering
import RegisterCatalog.Proofs.OpenEntries
import RegisterCatalog.Proofs.Outcome
import RegisterCatalog.Proofs.PackedIds
import RegisterCatalog.Proofs.PrintedKeys
import RegisterCatalog.Proofs.TableRows
import RegisterCatalog.Proofs.TargetSlots
import RegisterCatalog.Resolution.Indexing
import RegisterCatalog.Resolution.Tally
import RegisterCatalog.Resolution.Target
import RegisterCatalog.Resolution.Variant
import RegisterCatalog.Settings
import RegisterCatalog.Text.Decimal
import RegisterCatalog.Text.HashComment
import RegisterCatalog.Text.Hexadecimal
import RegisterCatalog.Text.LetterCase
import RegisterCatalog.Text.LetterCaseData
import RegisterCatalog.Text.NaturalOrder
import RegisterCatalog.Text.Render
import RegisterCatalog.Text.Search
import RegisterCatalog.Text.Words
import RegisterCatalog.Toml.Document
import RegisterCatalog.Toml.Number
import RegisterCatalog.Toml.Quoted
import RegisterCatalog.Toml.Record
import RegisterCatalog.Toml.Value
import RegisterCatalog.Proofs.OffsideRule
import RegisterCatalog.Proofs.EntryParents
import RegisterCatalog.Proofs.Appending
import RegisterCatalog.Proofs.SynonymNames
import RegisterCatalog.Proofs.Conditions
import RegisterCatalog.Proofs.ElementChoice
import RegisterCatalog.Proofs.Spacing
import RegisterCatalog.Proofs.FileEffects
import RegisterCatalog.Proofs.WriteOrder
import RegisterCatalog.Proofs.Preprocessor
import RegisterCatalog.Proofs.FeatureGuards
import RegisterCatalog.Proofs.SharedTables
import RegisterCatalog.Proofs.PreOrder
import RegisterCatalog.Proofs.PrimaryNames
import RegisterCatalog.Proofs.VirtualNames
import RegisterCatalog.Proofs.CommonRows
import RegisterCatalog.Proofs.IdOrder
import RegisterCatalog.Proofs.UnbrokenSymbols
import RegisterCatalog.Proofs.HeaderConstants
import RegisterCatalog.Proofs.ScriptNames
import RegisterCatalog.Proofs.NaturalOrder
import RegisterCatalog.Proofs.NumeralOrder
import RegisterCatalog.Proofs.OrderFaults
import RegisterCatalog.Proofs.SiblingOrder
import RegisterCatalog.Proofs.ReadAnswers
import RegisterCatalog.Proofs.PathNames
import RegisterCatalog.Proofs.ManifestAgreement
import RegisterCatalog.Proofs.Contributions
import RegisterCatalog.Proofs.WalkParameters
import RegisterCatalog.Proofs.PrivilegeMasks
import RegisterCatalog.Proofs.MoreDefinitions
import RegisterCatalog.Proofs.FirstElements
import RegisterCatalog.Proofs.Occurrences
import RegisterCatalog.Proofs.DirectiveGrammar
import RegisterCatalog.Proofs.DirectiveOrder
import RegisterCatalog.Proofs.LateStarts
import RegisterCatalog.Proofs.RowChoice
import RegisterCatalog.Proofs.Domains
import RegisterCatalog.Proofs.SingleSpaces
import RegisterCatalog.Proofs.Comments
import RegisterCatalog.Proofs.DefinitionLines
import RegisterCatalog.Proofs.AllowListOrder
import RegisterCatalog.Proofs.HeaderFiles
import RegisterCatalog.Proofs.IdMasks
import RegisterCatalog.Proofs.MakeRules
import RegisterCatalog.Proofs.ResolutionCounts
import RegisterCatalog.Proofs.LevelSlots
import RegisterCatalog.Proofs.HashComments
import RegisterCatalog.Proofs.DigitGroups
